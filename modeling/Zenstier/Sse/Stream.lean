import Zenstier.Sse.Bus

/-!
# The event stream of a tab

`GET` of `api/events`, and the `EventSource` that reads from it.  A stream subscribes to the
channels of its devices, replays the output after the last event id that the browser has sent,
sends the status of the devices, and goes live.  The browser makes a new connection when the last
one has ended, and sends the id of the last event that carried one.  There is one tab; the other
streams of the process only matter for the bus.
-/

namespace Zenstier

open Store

def MAX_REPLAY_BUFFER : Nat := 512

/-- The most rows that are replayed. -/
def REPLAY_TAKE : Nat := 2000

/-- A row of `command_output`, with the public id of its device. -/
structure OutputRow where
  id : Nat
  commandId : String
  deviceId : String
  seq : Nat
  stream : OutputStream
  chunk : String
deriving DecidableEq, Repr

/-- The row as the worker publishes it, and as it is replayed. -/
def OutputRow.event (row : OutputRow) : SseEvent :=
  .commandChunk row.commandId row.deviceId row.stream row.seq row.chunk

def OutputRow.message (row : OutputRow) : BusMessage := ⟨deviceChannel row.deviceId, row.event⟩

def SseEvent.isChunk : SseEvent → Bool
  | .commandChunk .. => true
  | .commandAccepted .. | .commandResult .. | .deviceStatus .. | .deviceMetrics .. => false

structure SseFrame where
  id : Option Nat := none
  event : SseEvent
deriving DecidableEq, Repr

inductive StreamPhase
  /-- The handler looks up the devices. -/
  | requested
  /-- It has subscribed, and waits for the rows that have been missed.  What arrives meanwhile
  is `pending`. -/
  | replaying (missed : Option (List OutputRow)) (pending : List SseEvent)
  | live
  | closed
deriving DecidableEq, Repr

/-- A connection of the tab. -/
structure Connection where
  /-- From the `Last-Event-ID` of the request. -/
  cursor : Option Nat
  /-- The devices with their status. -/
  owned : List (String × DeviceStatus)
  phase : StreamPhase := .requested
  /-- How many rows there were when the rows were queried, or would have been. -/
  point : Nat := 0
  /-- Frames that have not reached the browser. -/
  wire : List SseFrame := []
deriving DecidableEq, Repr

structure Site where
  rows : List OutputRow := []
  /-- Rows whose handlers have not published them yet. -/
  waiting : List OutputRow := []
  bus : Bus := {}
  /-- The channels of the other streams. -/
  others : List (List String) := []
  /-- Streams of the tab that have not noticed that they are cut off. -/
  orphans : Nat := 0
  connection : Option Connection := none
  lastEventId : Option Nat := none
  /-- The events that the tab has been given. -/
  received : List SseEvent := []
  /-- How many rows there were when the first connection went live. -/
  since : Option Nat := none
  /-- How many rows there were at the replay query of the last connection that has finished its
  replay. -/
  replayed : Option Nat := none

/-! ## The stream -/

/-- A fresh snapshot of the status of the devices. -/
def statusFrames (owned : List (String × DeviceStatus)) : List SseFrame :=
  owned.map fun d ↦ { event := .deviceStatus d.1 (if d.2 = .online then .online else .offline) }

/-- The rows of the devices after the cursor, in the order of their ids. -/
def missed (devices : List String) (rows : List OutputRow) (cursor : Nat) : List OutputRow :=
  ((rows.filter fun row ↦ row.deviceId ∈ devices ∧ cursor < row.id).mergeSort
    fun row row' ↦ row.id ≤ row'.id).take REPLAY_TAKE

/-- The listener that a stream has on its channels. -/
def Connection.onEvent (c : Connection) (event : SseEvent) : Connection :=
  match c.phase with
  | .live => { c with wire := c.wire ++ [{ event }] }
  | .replaying missed pending =>
      if MAX_REPLAY_BUFFER ≤ pending.length then c
      else { c with phase := .replaying missed (pending ++ [event]) }
  | .requested | .closed => c

/-- Goes live: the rows that have been missed, each with its id, the snapshot, and what is
pending. -/
def Connection.finish (c : Connection) (rows : List OutputRow) (pending : List SseEvent) :
    Connection :=
  { c with
    phase := .live
    wire := c.wire ++ rows.map (fun row ↦ { id := some row.id, event := row.event }) ++
      statusFrames c.owned ++ pending.map fun event ↦ { event } }

/-- The stream has a listener on its channels. -/
def StreamPhase.listens : StreamPhase → Bool
  | .replaying .. | .live => true
  | .requested | .closed => false

namespace Site

variable (devices : List String) (s : Site)

def channels : List String := devices.map deviceChannel

/-- The connection has finished its replay. -/
def finished (c : Connection) : Site :=
  { s with
    connection := some c
    since := s.since.or (some s.rows.length)
    replayed := some c.point }

/-- The stream is started: it subscribes, and without a cursor there is nothing to wait for. -/
def start (c : Connection) : Site :=
  let s := { s with bus := s.bus.subscribe (channels devices) }
  let c := { c with point := s.rows.length }
  match c.cursor with
  | none => s.finished (c.finish [] [])
  | some _ => { s with connection := some { c with phase := .replaying none [] } }

/-- A message reaches the process, and the stream if it listens on the channel. -/
def arrive (m : BusMessage) (inbox : List BusMessage) : Site :=
  { s with
    bus := { s.bus with inbox }
    connection := if m.channel ∈ channels devices then
        s.connection.map (·.onEvent m.event)
      else s.connection }

/-- The browser takes a frame. -/
def deliver (c : Connection) (f : SseFrame) (wire : List SseFrame) : Site :=
  { s with
    connection := some { c with wire }
    lastEventId := f.id.or s.lastEventId
    received := s.received ++ [f.event] }

/-- The browser has lost the connection; the stream, if there is one, is yet to notice. -/
def drop (c : Connection) : Site :=
  { s with
    connection := none
    orphans := if c.phase.listens then s.orphans + 1 else s.orphans }

end Site

/-! ## Steps -/

inductive SiteEvent
  /-- The worker inserts a row. -/
  | insert (row : OutputRow)
  /-- The worker publishes a row, which a redelivery makes it do again. -/
  | publish (row : OutputRow)
  /-- Another event is published. -/
  | announce (deviceId : String) (event : SseEvent)
  /-- Redis executes a command of the subscriber. -/
  | execute
  /-- The process handles a message. -/
  | arrive
  /-- The subscriber has connected to Redis again. -/
  | ready
  | otherOpens (channels : List String)
  | otherCloses (channels : List String)
  /-- The tab asks for the stream, and the handler finds its devices. -/
  | connect (owned : List (String × DeviceStatus))
  | start
  /-- The rows that have been missed are queried. -/
  | query
  /-- The query fails. -/
  | fail
  | finish
  /-- The lifetime of the stream is over. -/
  | close
  /-- A frame reaches the browser. -/
  | deliver
  /-- The connection has ended. -/
  | drop
  /-- A stream that is cut off is cleaned up. -/
  | abort
deriving DecidableEq, Repr

open Site in
/-- One step; `devices` are those of the tab. -/
def Site.step (devices : List String) (s : Site) : SiteEvent → Option Site
  | .insert row =>
      if ∃ row' ∈ s.rows, row'.id = row.id ∨ row'.commandId = row.commandId ∧ row'.seq = row.seq
      then none
      else some { s with rows := s.rows ++ [row], waiting := s.waiting ++ [row] }
  | .publish row =>
      if row ∈ s.rows then
        some { s with waiting := s.waiting.filter (· ≠ row), bus := s.bus.publish row.message }
      else none
  | .announce deviceId event =>
      if event.isChunk then none
      else some { s with bus := s.bus.publish ⟨deviceChannel deviceId, event⟩ }
  | .execute => s.bus.execute.map fun bus ↦ { s with bus }
  | .arrive => match s.bus.inbox with
      | [] => none
      | m :: inbox => some (s.arrive devices m inbox)
  | .ready => some { s with bus := s.bus.ready }
  | .otherOpens channels =>
      some { s with bus := s.bus.subscribe channels, others := channels :: s.others }
  | .otherCloses channels =>
      if channels ∈ s.others then
        some { s with bus := s.bus.unsubscribe channels, others := s.others.erase channels }
      else none
  | .connect owned => match s.connection with
      | none =>
          if owned.map Prod.fst = devices then
            some { s with connection := some { cursor := s.lastEventId, owned } }
          else none
      | some _ => none
  | .start => s.connection.bind fun c ↦
      if c.phase = .requested then some (s.start devices c) else none
  | .query => s.connection.bind fun c ↦ match c.phase, c.cursor with
      | .replaying none pending, some cursor =>
          some { s with connection := some { c with
            phase := .replaying (some (missed devices s.rows cursor)) pending
            point := s.rows.length } }
      | _, _ => none
  | .fail => s.connection.bind fun c ↦ match c.phase with
      | .replaying none _ => some { s with
          bus := s.bus.unsubscribe (channels devices)
          connection := some { c with phase := .closed } }
      | _ => none
  | .finish => s.connection.bind fun c ↦ match c.phase with
      | .replaying (some rows) pending => some (s.finished (c.finish rows pending))
      | _ => none
  | .close => s.connection.bind fun c ↦
      if c.phase = .live then
        some { s with
          bus := s.bus.unsubscribe (channels devices)
          connection := some { c with phase := .closed } }
      else none
  | .deliver => s.connection.bind fun c ↦ match c.wire with
      | [] => none
      | f :: wire => some (s.deliver c f wire)
  | .drop => s.connection.map s.drop
  | .abort =>
      if s.orphans = 0 then none
      else some { s with
        bus := s.bus.unsubscribe (channels devices), orphans := s.orphans - 1 }

end Zenstier
