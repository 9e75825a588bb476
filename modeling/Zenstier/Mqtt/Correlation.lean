import Zenstier.Mqtt.Dynsec
import Zenstier.Concurrent.Pool

/-!
# Matching responses to control batches

The responses of the dynamic-security plugin carry no correlation id.  `DynsecClient`
matches them by position: batches are sent one at a time, and whatever response arrives is
handed to the one `waiter`.  The client gives a batch up after a timeout, or when its
publish fails, and goes on to the next one; the response to the batch it gave up may arrive
then and is taken for the answer to the next.

`Channel` is the client together with what is under way between it and the broker.  A
batch is `outstanding` as long as a response to it can still arrive.  If the client gives
up a batch only when it is no longer outstanding, only the batch in flight is ever
outstanding, and every response reaches the call it answers (`send_correlated`).
-/

namespace Zenstier

open Concurrent

/-- A batch of control commands on its way to the broker, with the call it belongs to. -/
structure ControlRequest where
  call : Nat
  commands : List DynsecCommand
deriving DecidableEq, Repr

/-- A response on its way to the client.  Which call it answers is not part of what the
client can see. -/
structure ControlResponse where
  answers : Nat
  responses : List DynsecResponse
deriving DecidableEq, Repr

/-- How far the batch at the head of the client's promise chain has come. -/
inductive SendPhase
  | idle
  /-- Awaiting `connect`. -/
  | connecting (request : ControlRequest)
  /-- Published; the timer of this call is running. -/
  | inFlight (call : Nat)
deriving DecidableEq, Repr

/-- The client, the broker, and what is under way between them. -/
structure Channel where
  /-- The number of calls of `send` so far. -/
  calls : Nat
  queue : List ControlRequest
  phase : SendPhase
  /-- The call whose promise the next response resolves. -/
  waiter : Option Nat
  /-- The calls whose publish callback has not been invoked. -/
  unconfirmed : List Nat
  /-- How the promises of the calls were settled. -/
  outcome : Nat → Option (Except Err ControlResponse)
  /-- Published batches the broker has not carried out. -/
  requests : List ControlRequest
  /-- Responses that have not arrived. -/
  responses : List ControlResponse
  broker : Broker

inductive ChannelEvent
  /-- `send` is called. -/
  | send (commands : List DynsecCommand)
  /-- The next batch of the chain is started. -/
  | run
  | connected
  | connectFailed (e : Err)
  | timeout
  /-- The publish of a batch is confirmed, or fails. -/
  | published (call : Nat) (err : Option Err)
  /-- The broker carries out a batch. -/
  | carryOut (request : ControlRequest)
  | loseRequest (request : ControlRequest)
  | arrive (response : ControlResponse)
  | loseResponse (response : ControlResponse)
deriving DecidableEq, Repr

namespace Channel

/-- Nothing has been sent yet. -/
def start (broker : Broker) : Channel where
  calls := 0
  queue := []
  phase := .idle
  waiter := none
  unconfirmed := []
  outcome := fun _ ↦ none
  requests := []
  responses := []
  broker

/-- Settles the promise of a call, unless it is settled already; the chain goes on once the
batch in flight is settled. -/
def settle (s : Channel) (call : Nat) (r : Except Err ControlResponse) : Channel :=
  { s with
    outcome := Function.update s.outcome call (some ((s.outcome call).getD r))
    phase := if s.phase = .inFlight call then .idle else s.phase }

/-- Publishes a batch: the waiter is set and the timer started first. -/
def publish (s : Channel) (r : ControlRequest) : Channel :=
  { s with
    phase := .inFlight r.call
    waiter := some r.call
    unconfirmed := r.call :: s.unconfirmed
    requests := r :: s.requests }

/-- The message handler: the response goes to the waiter, if there is one. -/
def onMessage (s : Channel) (m : ControlResponse) : Channel :=
  match s.waiter with
  | some call => settle { s with waiter := none } call (.ok m)
  | none => s

/-- Executes one event, if it can happen. -/
def step (s : Channel) : ChannelEvent → Option Channel
  | .send commands => some { s with
      calls := s.calls + 1
      queue := s.queue ++ [⟨s.calls, commands⟩] }
  | .run => match s.phase, s.queue with
      | .idle, r :: queue => some { s with queue, phase := .connecting r }
      | _, _ => none
  | .connected => match s.phase with
      | .connecting r => some (s.publish r)
      | _ => none
  | .connectFailed e => match s.phase with
      | .connecting r => some (settle { s with phase := .idle } r.call (.error e))
      | _ => none
  | .timeout => match s.phase with
      | .inFlight call => some
          (settle { s with waiter := none } call (.error (.error "dynsec request timed out")))
      | _ => none
  | .published call err =>
      if call ∈ s.unconfirmed then
        let s := { s with unconfirmed := s.unconfirmed.erase call }
        match err with
        -- the slot is cleared whoever is waiting by now
        | some e => some (settle { s with waiter := none } call (.error e))
        | none => some s
      else none
  | .carryOut r =>
      if r ∈ s.requests then some { s with
        requests := s.requests.erase r
        responses := ⟨r.call, (s.broker.send r.commands).1⟩ :: s.responses
        broker := (s.broker.send r.commands).2 }
      else none
  | .loseRequest r =>
      if r ∈ s.requests then some { s with requests := s.requests.erase r } else none
  | .arrive m =>
      if m ∈ s.responses then some (onMessage { s with responses := s.responses.erase m } m)
      else none
  | .loseResponse m =>
      if m ∈ s.responses then some { s with responses := s.responses.erase m } else none

/-- The calls a response to which can still arrive. -/
def outstanding (s : Channel) : List Nat :=
  s.requests.map (·.call) ++ s.responses.map (·.answers)

/-- The call whose batch is in flight. -/
def inFlight? (s : Channel) : Option Nat :=
  match s.phase with
  | .inFlight call => some call
  | _ => none

/-- A batch is given up only when no response to it can arrive any more. -/
def Patient (s : Channel) : ChannelEvent → Prop
  | .timeout => ∀ call ∈ s.inFlight?, call ∉ s.outstanding
  | .published call (some _) => s.inFlight? = some call → call ∉ s.outstanding
  | _ => True

instance (s : Channel) (l : ChannelEvent) : Decidable (Patient s l) := by
  unfold Patient
  split <;> infer_instance

/-! ## The invariant -/

/-- Only the batch in flight is outstanding, once, and only its call waits. -/
structure Inv (s : Channel) : Prop where
  current : ∀ i ∈ s.outstanding, s.phase = .inFlight i
  once : s.outstanding.Nodup
  waiting : ∀ i, s.waiter = some i → s.phase = .inFlight i
  own : ∀ i m, s.outcome i = some (.ok m) → m.answers = i

variable {s t : Channel}

theorem inFlight?_eq_some {call : Nat} : s.inFlight? = some call ↔ s.phase = .inFlight call := by
  unfold inFlight?
  split <;> simp_all

@[simp] theorem settle_outstanding (call : Nat) (r : Except Err ControlResponse) :
    (s.settle call r).outstanding = s.outstanding := rfl

/-- A batch that is in flight but not outstanding leaves nothing outstanding. -/
theorem Inv.outstanding_eq_nil (hs : Inv s) {call : Nat} (hp : s.phase = .inFlight call)
    (hnot : call ∉ s.outstanding) : s.outstanding = [] := by
  rw [List.eq_nil_iff_forall_not_mem]
  intro i hi
  have heq := hs.current i hi
  rw [hp] at heq
  cases heq
  exact hnot hi

/-- So does a batch that is not in flight. -/
theorem Inv.outstanding_idle (hs : Inv s) (hp : ∀ i, s.phase ≠ .inFlight i) :
    s.outstanding = [] := by
  rw [List.eq_nil_iff_forall_not_mem]
  exact fun i hi ↦ hp i (hs.current i hi)

theorem Inv.waiter_idle (hs : Inv s) (hp : ∀ i, s.phase ≠ .inFlight i) : s.waiter = none := by
  cases hw : s.waiter with
  | none => rfl
  | some i => exact absurd (hs.waiting i hw) (hp i)

/-- The chain may go on as long as no batch is in flight. -/
theorem Inv.idle (hs : Inv s) (hp : ∀ i, s.phase ≠ .inFlight i) (queue : List ControlRequest)
    (phase : SendPhase) : Inv { s with queue, phase } := by
  refine ⟨fun i hi ↦ absurd (hs.current i hi) (hp i), hs.once, fun i hi ↦ ?_, hs.own⟩
  exact absurd (hs.waiting i hi) (hp i)

/-- Settling a call that nothing is outstanding for keeps the invariant. -/
theorem Inv.settle (hs : Inv s) {call : Nat} {r : Except Err ControlResponse}
    (hwaiter : s.waiter = none) (hnone : s.phase = .inFlight call → s.outstanding = [])
    (hr : ∀ m, r = .ok m → m.answers = call) : Inv (s.settle call r) := by
  refine ⟨fun i hi ↦ ?_, hs.once, fun i hi ↦ ?_, fun i m hm ↦ ?_⟩
  · rw [settle_outstanding] at hi
    by_cases hp : s.phase = .inFlight call
    · rw [hnone hp] at hi
      contradiction
    · show (if _ then _ else _) = _
      rw [if_neg hp]
      exact hs.current i hi
  · simp [Channel.settle, hwaiter] at hi
  · by_cases hi : i = call
    · subst hi
      simp only [Channel.settle, Function.update_self, Option.some.injEq] at hm
      cases ho : s.outcome i with
      | none =>
          rw [ho] at hm
          exact hr m hm
      | some r' =>
          rw [ho] at hm
          exact hs.own i m (ho.trans (congrArg some hm))
    · simp only [Channel.settle, Function.update_of_ne hi] at hm
      exact hs.own i m hm

/-- Dropping the waiter keeps the invariant. -/
theorem Inv.clearWaiter (hs : Inv s) : Inv { s with waiter := none } :=
  ⟨hs.current, hs.once, fun _ hi ↦ (nomatch hi), hs.own⟩

/-- Losing something that was under way keeps the invariant. -/
theorem Inv.lose (hs : Inv s) {requests : List ControlRequest} {responses : List ControlResponse}
    (hreq : requests.Sublist s.requests) (hresp : responses.Sublist s.responses) :
    Inv { s with requests, responses } := by
  have hsub : List.Sublist (requests.map (·.call) ++ responses.map (·.answers)) s.outstanding :=
    (hreq.map _).append (hresp.map _)
  exact ⟨fun i hi ↦ hs.current i (hsub.subset hi), hs.once.sublist hsub, hs.waiting, hs.own⟩

/-- A response that arrives is the answer to the call that waits, if any does. -/
theorem Inv.arrive (hs : Inv s) {m : ControlResponse} (hm : m ∈ s.responses) :
    Inv (onMessage { s with responses := s.responses.erase m } m) := by
  have herase : Inv { s with responses := s.responses.erase m } :=
    hs.lose (List.Sublist.refl _) List.erase_sublist
  unfold onMessage
  split
  · rename_i call hwaiter
    have hphase := hs.waiting call hwaiter
    -- the call in flight is the one this response answers
    have hin : m.answers ∈ s.outstanding :=
      List.mem_append_right _ (List.mem_map_of_mem hm)
    have heq := hs.current _ hin
    rw [hphase] at heq
    cases heq
    refine herase.clearWaiter.settle rfl (fun _ ↦ ?_) fun m' hm' ↦ by cases hm'; rfl
    refine herase.outstanding_eq_nil hphase fun hrest ↦ ?_
    have hperm : s.outstanding.Perm (m.answers ::
        (s.requests.map (·.call) ++ (s.responses.erase m).map (·.answers))) := by
      refine List.Perm.trans (List.Perm.append_left _ ?_) List.perm_middle
      exact (List.perm_cons_erase hm).map _
    exact (List.nodup_cons.mp (hperm.nodup_iff.mp hs.once)).1 hrest
  · exact herase

/-- Publishing keeps the invariant: the batch that is published is the only one under
way. -/
theorem Inv.publish (hs : Inv s) {r : ControlRequest} (hp : s.phase = .connecting r) :
    Inv (s.publish r) := by
  have hnone : s.outstanding = [] := hs.outstanding_idle fun i ↦ by simp [hp]
  have hout : (s.publish r).outstanding = [r.call] := by
    show r.call :: s.outstanding = [r.call]
    rw [hnone]
  refine ⟨fun i hi ↦ ?_, ?_, fun i hi ↦ ?_, hs.own⟩
  · rw [hout, List.mem_singleton] at hi
    rw [hi]
    rfl
  · rw [hout]
    exact List.nodup_singleton _
  · cases hi
    rfl

/-- The broker turns a request under way into a response under way. -/
theorem Inv.carryOut (hs : Inv s) {r : ControlRequest} (hr : r ∈ s.requests) (b : Broker)
    (answer : List DynsecResponse) :
    Inv { s with
      requests := s.requests.erase r
      responses := ⟨r.call, answer⟩ :: s.responses
      broker := b } := by
  have hperm : List.Perm
      ((s.requests.erase r).map (·.call) ++ r.call :: s.responses.map (·.answers))
      s.outstanding :=
    List.perm_middle.trans (((List.perm_cons_erase hr).map _).symm.append_right _)
  exact ⟨fun i hi ↦ hs.current i (hperm.mem_iff.mp hi), hperm.nodup_iff.mpr hs.once,
    hs.waiting, hs.own⟩

/-- Every event keeps the invariant, as long as the client is patient. -/
theorem Inv.step (hs : Inv s) {l : ChannelEvent} (hg : Patient s l) (h : s.step l = some t) :
    Inv t := by
  cases l with
  | send commands =>
      cases h
      exact ⟨hs.current, hs.once, hs.waiting, hs.own⟩
  | run =>
      simp only [Channel.step] at h
      split at h
      · rename_i r queue hphase hqueue
        cases h
        exact hs.idle (by simp [hphase]) queue _
      · contradiction
  | connected =>
      simp only [Channel.step] at h
      split at h
      · rename_i r hphase
        cases h
        exact hs.publish hphase
      · contradiction
  | connectFailed e =>
      simp only [Channel.step] at h
      split at h
      · rename_i r hphase
        cases h
        have hidle : ∀ i, s.phase ≠ .inFlight i := by simp [hphase]
        exact (hs.idle hidle s.queue .idle).settle (hs.waiter_idle hidle)
          (fun _ ↦ hs.outstanding_idle hidle) fun m hm ↦ (nomatch hm)
      · contradiction
  | timeout =>
      simp only [Channel.step] at h
      split at h
      · rename_i call hphase
        cases h
        have hnot := hg call (inFlight?_eq_some.mpr hphase)
        exact hs.clearWaiter.settle rfl (fun _ ↦ hs.outstanding_eq_nil hphase hnot)
          fun m hm ↦ (nomatch hm)
      · contradiction
  | published call err =>
      simp only [Channel.step] at h
      split at h
      · cases err with
        | none =>
            cases h
            exact ⟨hs.current, hs.once, hs.waiting, hs.own⟩
        | some e =>
            cases h
            have hrest : Inv { s with unconfirmed := s.unconfirmed.erase call } :=
              ⟨hs.current, hs.once, hs.waiting, hs.own⟩
            refine hrest.clearWaiter.settle rfl (fun hphase ↦ ?_) fun m hm ↦ (nomatch hm)
            exact hs.outstanding_eq_nil hphase (hg (inFlight?_eq_some.mpr hphase))
      · contradiction
  | carryOut r =>
      simp only [Channel.step] at h
      split at h
      · cases h
        exact hs.carryOut ‹_› _ _
      · contradiction
  | loseRequest r =>
      simp only [Channel.step] at h
      split at h
      · cases h
        exact hs.lose List.erase_sublist (List.Sublist.refl _)
      · contradiction
  | arrive m =>
      simp only [Channel.step] at h
      split at h
      · cases h
        exact hs.arrive ‹_›
      · contradiction
  | loseResponse m =>
      simp only [Channel.step] at h
      split at h
      · cases h
        exact hs.lose (List.Sublist.refl _) List.erase_sublist
      · contradiction

theorem inv_start (broker : Broker) : Inv (start broker) :=
  ⟨fun _ h ↦ (nomatch h), List.nodup_nil, fun _ h ↦ (nomatch h), fun _ _ h ↦ (nomatch h)⟩

end Channel

/-- A call that resolves is resolved with the response to its own batch, as long as the
client gives up a batch only when no response to it can arrive any more. -/
theorem send_correlated (broker : Broker) {s : Channel}
    (h : Reach Channel.step Channel.Patient (Channel.start broker) s) {call : Nat}
    {m : ControlResponse} (hm : s.outcome call = some (.ok m)) : m.answers = call := by
  have hs : s.Inv :=
    h.invariant (Channel.inv_start broker) fun _ _ _ hs hg hst ↦ hs.step hg hst
  exact hs.own call m hm

/-- One call, answered in time. -/
theorem send_correlated_single :
    ∃ s, Reach Channel.step Channel.Patient (Channel.start ⟨[], [], ∅⟩) s ∧
      ∃ m, s.outcome 0 = some (.ok m) ∧ m.answers = 0 := by
  have hrun : ∃ s, Reach Channel.step Channel.Patient (Channel.start ⟨[], [], ∅⟩) s ∧
      s.outcome 0 = some (.ok ⟨0, [⟨"deleteClient", some "Client not found"⟩]⟩) :=
    Reach.exists_of_exec [.send [.deleteClient "dev"], .run, .connected,
      .carryOut ⟨0, [.deleteClient "dev"]⟩,
      .arrive ⟨0, [⟨"deleteClient", some "Client not found"⟩]⟩] (by decide)
  obtain ⟨s, hs, hm⟩ := hrun
  exact ⟨s, hs, _, hm, send_correlated _ hs hm⟩

/-- A broker with one account, for the device `dev`. -/
def exampleBroker : Broker where
  roles := [DEVICE_ROLE]
  groups := []
  clients := ⟨[("dev", ⟨"pw", "dev", false, [DEVICE_ROLE], []⟩)], List.nodup_singleton _⟩

/-- The response to a batch that timed out answers the next one: `disableClient` on an
account that does not exist looks successful. -/
theorem send_miscorrelated :
    ∃ s, Reach Channel.step (fun _ _ ↦ True) (Channel.start exampleBroker) s ∧
      (s.outcome 1 = some (.ok ⟨0, [⟨"enableClient", none⟩]⟩) ∧
        s.responses = [⟨1, [⟨"disableClient", some "Client not found"⟩]⟩]) :=
  Reach.exists_of_exec [
    .send [.enableClient "dev"], .send [.disableClient "other"],
    .run, .connected, .timeout,
    .run, .connected,
    .carryOut ⟨0, [.enableClient "dev"]⟩, .carryOut ⟨1, [.disableClient "other"]⟩,
    .arrive ⟨0, [⟨"enableClient", none⟩]⟩] (by decide)

end Zenstier
