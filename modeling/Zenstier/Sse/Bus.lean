import Zenstier.Commands.Protocol
import Zenstier.Store.Table

/-!
# The event bus

The subscriber of `bus.ts`.  The process has one connection to Redis for all of its streams, and
counts for every channel how many of them listen.  `subscribe` does not wait for Redis: until the
command has been executed, what is published on the channel does not reach the process.
-/

namespace Zenstier

open Store

inductive BusCommand
  | subscribe (channels : List String)
  | unsubscribe (channels : List String)
deriving DecidableEq, Repr

structure BusMessage where
  channel : String
  event : SseEvent
deriving DecidableEq, Repr

structure Bus where
  refs : Table String Nat := ∅
  /-- Commands that Redis has not executed yet. -/
  commands : List BusCommand := []
  /-- The channels that Redis forwards. -/
  subscribed : List String := []
  /-- Messages that the process has not handled yet. -/
  inbox : List BusMessage := []

namespace Bus

/-- One more listener; the first one makes a channel `fresh`. -/
def addRef (acc : Table String Nat × List String) (channel : String) :
    Table String Nat × List String :=
  let next := (acc.1.find? channel).getD 0 + 1
  (acc.1.put channel next, if next = 1 then acc.2 ++ [channel] else acc.2)

/-- One listener less; with the last one a channel is `gone`. -/
def dropRef (acc : Table String Nat × List String) (channel : String) :
    Table String Nat × List String :=
  let next := (acc.1.find? channel).getD 1 - 1
  if next = 0 then (acc.1.delete channel, acc.2 ++ [channel]) else (acc.1.put channel next, acc.2)

def subscribe (b : Bus) (channels : List String) : Bus :=
  let (refs, fresh) := channels.foldl addRef (b.refs, [])
  { b with refs, commands := if fresh = [] then b.commands else b.commands ++ [.subscribe fresh] }

/-- What `subscribe` returns. -/
def unsubscribe (b : Bus) (channels : List String) : Bus :=
  let (refs, gone) := channels.foldl dropRef (b.refs, [])
  { b with refs, commands := if gone = [] then b.commands else b.commands ++ [.unsubscribe gone] }

/-- Redis executes a command. -/
def execute (b : Bus) : Option Bus :=
  match b.commands with
  | [] => none
  | .subscribe channels :: commands =>
      some { b with commands, subscribed := b.subscribed ++ channels }
  | .unsubscribe channels :: commands =>
      some { b with commands, subscribed := b.subscribed.filter (· ∉ channels) }

def publish (b : Bus) (m : BusMessage) : Bus :=
  if m.channel ∈ b.subscribed then { b with inbox := b.inbox ++ [m] } else b

/-- The connection to Redis is lost and made again, and subscribes to all channels anew. -/
def ready (b : Bus) : Bus :=
  let channels := b.refs.entries.map Prod.fst
  { b with
    commands := if channels = [] then [] else [.subscribe channels], subscribed := [], inbox := [] }

@[simp] theorem subscribe_inbox (b : Bus) (channels : List String) :
    (b.subscribe channels).inbox = b.inbox := rfl

@[simp] theorem unsubscribe_inbox (b : Bus) (channels : List String) :
    (b.unsubscribe channels).inbox = b.inbox := rfl

theorem execute_inbox {b b' : Bus} (h : b.execute = some b') : b'.inbox = b.inbox := by
  unfold execute at h
  split at h
  · cases h
  · cases h
    rfl
  · cases h
    rfl

theorem mem_publish {b : Bus} {m m' : BusMessage} (h : m ∈ b.inbox) :
    m ∈ (b.publish m').inbox := by
  unfold publish
  split
  · exact List.mem_append_left _ h
  · exact h

/-- A message on a channel that Redis forwards. -/
theorem mem_publish_self {b : Bus} {m : BusMessage} (h : m.channel ∈ b.subscribed) :
    m ∈ (b.publish m).inbox := by
  unfold publish
  rw [if_pos h]
  exact List.mem_append_right _ List.mem_cons_self

end Bus

end Zenstier
