import Zenstier.Agent.Cancel
import Mathlib.Data.Fintype.Basic

/-!
# Shutting the agent down

Once the context of the agent is canceled, a worker leaves as soon as it comes back to its
`select`, even if there is a command in the queue, and `Wait` returns when all of them have left.
Nobody looks into the queue after that, and the handler still puts commands into it.  So a command
that has been accepted gets a result only if the last worker to leave has found the queue empty.
-/

namespace Zenstier.Agent

open Store Concurrent Prog

/-! ## The agent and its context -/

def Task.isWorker : Task → Bool
  | .worker _ => true
  | .message _ => false

/-- The agent, with the context that its workers run in. -/
structure Agency (ι : Type) where
  pool : AgentPool ι
  /-- The context is canceled. -/
  done : Bool := false
  /-- The worker has left its loop. -/
  left : ι → Bool := fun _ ↦ false

inductive AgencyEvent (ι : Type)
  | pool (l : Event ι Empty Nat)
  /-- The context is canceled. -/
  | cancel
  /-- A worker finds its context canceled. -/
  | leave (i : ι)
deriving DecidableEq

/-- A worker is at its `select`. -/
def Selects : ∀ β : Type, AgentOp β → Prop
  | _, .dequeue => True
  | _, _ => False

instance {β : Type} (op : AgentOp β) : Decidable (Selects β op) :=
  match op with
  | .dequeue => isTrue trivial
  | .now | .updateGroups _ | .add _ | .cachedResult _ | .remove _ | .complete .. | .enqueue _
  | .storeRunning _ | .deleteRunning _ | .cancelRunning _ | .startRun .. | .endRun ..
  | .publish _ => isFalse fun h ↦ h

/-- All contexts are canceled, since they come from the one of the agent. -/
def Dispatcher.cancelAll (s : Dispatcher) : Dispatcher :=
  { s with contexts := s.contexts.map fun _ ↦ true }

/-- What a request publishes. -/
def published : ∀ β : Type, AgentOp β → List Result
  | _, .publish r => [r]
  | _, _ => []

section Agency

variable {ι : Type} [DecidableEq ι]

namespace Agency

/-- A context that a worker makes from one that is canceled is canceled too. -/
def withPool (x : Agency ι) (pool : AgentPool ι) : Agency ι :=
  { x with pool := if x.done then { pool with shared := pool.shared.cancelAll } else pool }

/-- The task has left. -/
def gone (x : Agency ι) : Event ι Empty Nat → Bool
  | .run i _ => x.left i
  | .env _ => false

def step (x : Agency ι) : AgencyEvent ι → Option (Agency ι)
  | .pool l => if x.gone l then none else (agentStep x.pool l).map x.withPool
  | .cancel => some { x with
      done := true, pool := { x.pool with shared := x.pool.shared.cancelAll } }
  | .leave i =>
      if x.done ∧ AtRequest Selects (x.pool.thread i) ∧ x.left i = false then
        some { x with left := Function.update x.left i true }
      else none

/-- `Wait` returns. -/
def Waited (tasks : ι → Task) (x : Agency ι) : Prop :=
  ∀ i, (tasks i).isWorker → x.left i = true

def observe (x : Agency ι) : AgencyEvent ι → List Result
  | .pool l => Pool.observe (fun _ β op _ ↦ published β op) x.pool l
  | .cancel | .leave _ => []

end Agency

/-- The runs of the agent, recorded by what is published. -/
def agencyStep : Recorded (Agency ι) Result → AgencyEvent ι → Option (Recorded (Agency ι) Result) :=
  Recorded.step Agency.step Agency.observe

/-- A message that the command is queued. -/
def Result.Queued (r : Result) : Prop := r.kind = .accepted ∧ r.status = some .queued

instance (r : Result) : Decidable r.Queued := by
  unfold Result.Queued; infer_instance

/-- Every command that is said to be queued has got a result. -/
def Answers (log : List Result) : Prop :=
  ∀ r ∈ log, r.Queued → ∃ r' ∈ log, r'.id = r.id ∧ r'.kind = .result

/-- The request puts a command into the queue. -/
def Enqueues : ∀ β : Type, AgentOp β → Prop
  | _, .enqueue _ => True
  | _, _ => False

/-- The last worker leaves only if the queue is empty, and after that nothing is queued. -/
def LeavesNothing (tasks : ι → Task) (x : Agency ι) : AgencyEvent ι → Prop
  | .pool (.run i _) => AtRequest Enqueues (x.pool.thread i) → ¬ x.Waited tasks
  | .leave i => (∀ j, (tasks j).isWorker → j ≠ i → x.left j = true) → x.pool.shared.queue = []
  | _ => True

end Agency

/-! ## What the tasks do -/

/-- The request publishes a result of the command. -/
def PublishesResult (id : String) : ∀ β : Type, AgentOp β → Prop
  | _, .publish r => r.id = id ∧ r.kind = .result
  | _, _ => False

/-- The task publishes a result of the command before it takes another. -/
def Owes (id : String) (p : AgentM Unit) : Prop :=
  Surely Selects (AtRequest (PublishesResult id)) p

/-- The replies of a cache of results, as long as nothing is queued. -/
def QueuesNothing : ∀ β : Type, AgentOp β → Except Empty β → Prop
  | _, .enqueue _, r => r ≠ .ok true
  | _, .cachedResult _, r => ∀ result running, r = .ok (some (some result, running)) →
      result.kind = .result
  | _, _, _ => True

/-- A command is said to be queued when it has been queued, and then the task is done; only
workers take commands, and a worker that has taken one publishes a result of it. -/
def Informs (deviceID : String) (worker : Bool) :
    ∀ β : Type, AgentOp β → (Except Empty β → AgentM Unit) → Prop
  | _, .enqueue cmd, k => k (.ok true) = publish (acceptedResult deviceID cmd.id .queued)
  | _, .dequeue, k => worker = true ∧ ∀ cmd, Owes cmd.id (k (.ok (some cmd)))
  | _, .complete _ r, _ => r.kind = .result
  | _, .publish r, _ => ¬ r.Queued
  | _, _, _ => True

/-- The requests that say nothing about the queue. -/
def Plain : ∀ β : Type, AgentOp β → Prop
  | _, .enqueue _ | _, .dequeue => False
  | _, .complete _ r => r.kind = .result
  | _, .publish r => ¬ r.Queued
  | _, _ => True

section Tasks

variable {deviceID : String} {worker : Bool}

theorem informs_of_plain (β : Type) (op : AgentOp β) (k : Except Empty β → AgentM Unit)
    (h : Plain β op) : Informs deviceID worker β op k := by
  cases op <;> first | exact h | exact h.elim

theorem informs_of_only {p : AgentM Unit} (h : Only Plain p) :
    Always QueuesNothing (Informs deviceID worker) p := Always.of_only h informs_of_plain

theorem not_queued_of_result {r : Result} (h : r.kind = .result) : ¬ r.Queued := by
  rintro ⟨haccepted, -⟩
  rw [h] at haccepted
  cases haccepted

theorem reject_plain (id : String) (code : ErrorCode) (message : String) :
    Only Plain (reject deviceID id code message) := by
  unfold reject
  split
  · trivial
  · exact (only_perform _).mpr (not_queued_of_result rfl)

theorem finish_plain {r : Result} (h : r.kind = .result) : Only Plain (finish r) :=
  finish_only r h (not_queued_of_result h)

theorem expired_plain (cmd : Command) : Only Plain (expired cmd) := expired_only trivial cmd

theorem handleUpdateGroups_plain (cmd : Command) :
    Only Plain (handleUpdateGroups deviceID cmd) := by
  refine Only.await trivial fun outcome ↦ ?_
  cases outcome with
  | unsupported => exact reject_plain ..
  | failed err => exact reject_plain ..
  | done => exact finish_plain rfl

/-- What is published again is a result. -/
theorem replay_informs (cmd : Command) :
    Always QueuesNothing (Informs deviceID worker) (replay deviceID cmd) := by
  refine ⟨trivial, ?_⟩
  rintro (e | _ | ⟨_ | cached, _ | _⟩) hcached
  · exact e.elim
  · trivial
  · trivial
  · exact informs_of_only ((only_perform _).mpr fun h ↦ by cases h.2)
  · exact informs_of_only ((only_perform _).mpr (not_queued_of_result (hcached cached false rfl)))
  · exact informs_of_only ((only_perform _).mpr fun h ↦ by cases h.2)

theorem enqueueOnce_informs (queueDepth maxConcurrent : Nat) (cmd : Command) :
    Always QueuesNothing (Informs deviceID worker)
      (enqueueOnce deviceID queueDepth maxConcurrent cmd) := by
  refine ⟨trivial, ?_⟩
  rintro (e | _ | _) -
  · exact e.elim
  · exact replay_informs cmd
  · refine ⟨rfl, ?_⟩
    rintro (e | _ | _) hqueued
    · exact e.elim
    · exact informs_of_only (Only.await trivial fun _ ↦ reject_plain ..)
    · exact absurd rfl hqueued

theorem handleMessage_informs (sha1 : List UInt8 → List UInt8) (queueDepth maxConcurrent : Nat)
    (payload : Option Command) : Always QueuesNothing (Informs deviceID worker)
      (handleMessage sha1 deviceID queueDepth maxConcurrent payload) := by
  refine handleMessage_cases (motive := Always QueuesNothing (Informs deviceID worker)) sha1
    deviceID trivial (fun cmd err ↦ informs_of_only (reject_plain ..)) (fun cmd ↦ ?_) payload
  refine Always.bind (expired_plain _) informs_of_plain fun late ↦ ?_
  split
  · exact informs_of_only (reject_plain ..)
  unfold handleLive
  split
  · exact informs_of_only ((only_perform _).mpr trivial)
  split
  · exact informs_of_only (handleUpdateGroups_plain _)
  · exact enqueueOnce_informs ..

/-! ### Workers -/

theorem publishChunks_plain (id : String) (seq : Nat) (chunks : List (OutputStream × String)) :
    Only Plain (publishChunks deviceID id seq chunks) := by
  induction chunks generalizing seq with
  | nil => trivial
  | cons chunk chunks ih => exact Only.await (fun h ↦ by cases h.1) fun _ ↦ ih _

theorem awaitExec_plain (ctx : Nat) (cmd : Command) (startedAt : Int)
    (chunks : List (OutputStream × String)) :
    Only Plain (awaitExec deviceID ctx cmd startedAt chunks) := by
  refine Only.bind (publishChunks_plain ..) fun _ ↦ Only.await trivial fun res ↦ ?_
  exact Only.await trivial fun _ ↦ finish_plain rfl

theorem runJob_plain (ctx : Nat) (cmd : Command) : Only Plain (runJob deviceID ctx cmd) := by
  unfold runJob
  split
  · exact finish_plain rfl
  split
  · exact finish_plain rfl
  refine Only.await (fun h ↦ by cases h.2) fun _ ↦ Only.await trivial fun r ↦ ?_
  cases r with
  | error err => exact finish_plain rfl
  | ok run => exact awaitExec_plain ..

theorem run_plain (cmd : Command) : Only Plain (run deviceID cmd) := by
  refine Only.await trivial fun ctx ↦ Only.bind (runJob_plain ctx cmd) fun _ ↦ ?_
  exact (only_perform _).mpr trivial

theorem not_selects_of_plain (β : Type) (op : AgentOp β) (h : Plain β op) : ¬ Selects β op := by
  cases op <;> first | exact h.elim | exact fun h ↦ h

/-- A result that is stored is published. -/
theorem finish_owes {id : String} {r : Result} (h : r.id = id ∧ r.kind = .result)
    {f : Unit → AgentM Unit} : Owes id (finish r >>= f) := by
  refine .inr ⟨fun h ↦ h, ?_⟩
  rintro (e | u)
  · exact e.elim
  · exact .inl h

theorem awaitExec_owes (ctx : Nat) (cmd : Command) (startedAt : Int)
    (chunks : List (OutputStream × String)) {f : Unit → AgentM Unit} :
    Owes cmd.id (awaitExec deviceID ctx cmd startedAt chunks >>= f) := by
  rw [awaitExec_eq, Prog.bind_assoc]
  refine Surely.bind Empty.elim (publishChunks_plain ..) not_selects_of_plain fun _ ↦ ?_
  rw [Prog.bind_assoc]
  refine .inr ⟨fun h ↦ h, ?_⟩
  rintro (e | res)
  · exact e.elim
  refine .inr ⟨fun h ↦ h, ?_⟩
  rintro (e | finishedAt)
  · exact e.elim
  · refine finish_owes ?_
    exact ⟨rfl, rfl⟩

theorem runJob_owes (ctx : Nat) (cmd : Command) {f : Unit → AgentM Unit} :
    Owes cmd.id (runJob deviceID ctx cmd >>= f) := by
  unfold runJob
  split
  · refine finish_owes ?_
    exact ⟨rfl, rfl⟩
  split
  · refine finish_owes ?_
    exact ⟨rfl, rfl⟩
  refine .inr ⟨fun h ↦ h, ?_⟩
  rintro (e | u)
  · exact e.elim
  refine .inr ⟨fun h ↦ h, ?_⟩
  rintro (e | err | ⟨startedAt, chunks⟩)
  · exact e.elim
  · refine finish_owes ?_
    exact ⟨rfl, rfl⟩
  · exact awaitExec_owes ..

/-- A worker publishes a result of whatever it runs. -/
theorem run_owes (turns : Nat) (cmd : Command) :
    Owes cmd.id (run deviceID cmd >>= fun _ ↦ Agent.worker deviceID turns) := by
  rw [run_bind_worker]
  refine .inr ⟨fun h ↦ h, ?_⟩
  rintro (e | ctx)
  · exact e.elim
  · exact runJob_owes ctx cmd

/-- A worker that is at its `select` owes nothing. -/
theorem not_owes_of_selects {id : String} {p : AgentM Unit} (h : AtRequest Selects p) :
    ¬ Owes id p := by
  cases p with
  | pure u => exact h.elim
  | throw e => exact e.elim
  | call op k =>
      rintro (hpublishes | ⟨hselects, -⟩)
      · cases op <;> first | exact h | exact hpublishes
      · exact hselects h

theorem worker_informs (turns : Nat) :
    Always QueuesNothing (Informs deviceID true) (Agent.worker deviceID turns) := by
  induction turns with
  | zero => trivial
  | succ turns ih =>
      refine ⟨⟨rfl, run_owes turns⟩, ?_⟩
      rintro (e | _ | cmd) -
      · exact e.elim
      · exact ih
      · show Always _ _ (run deviceID cmd >>= fun _ ↦ Agent.worker deviceID turns)
        exact Always.bind (run_plain cmd) informs_of_plain fun _ ↦ ih

end Tasks

theorem program_informs (cfg : Config) (task : Task) :
    Always QueuesNothing (Informs cfg.deviceID task.isWorker) (task.program cfg) := by
  cases task with
  | worker turns => exact worker_informs turns
  | message payload => exact handleMessage_informs ..

/-! ## The invariant -/

section Run

variable {ι : Type} {deviceID : String} {tasks : ι → Task}

/-- The command has got a result, is in the queue, or is in the hands of a worker that has not
left. -/
def Covered (tasks : ι → Task) (r : Recorded (Agency ι) Result) (id : String) : Prop :=
  (∃ m ∈ r.log, m.id = id ∧ m.kind = .result) ∨
  id ∈ r.state.pool.shared.queue.map (·.id) ∨
  ∃ i, (tasks i).isWorker = true ∧ r.state.left i = false ∧ Owes id (r.state.pool.thread i)

/-- The task goes on, or has just queued a command and is about to say so. -/
def Reliable (deviceID : String) (tasks : ι → Task) (r : Recorded (Agency ι) Result)
    (i : ι) : Prop :=
  Always QueuesNothing (Informs deviceID (tasks i).isWorker) (r.state.pool.thread i) ∨
  ∃ id, r.state.pool.thread i = publish (acceptedResult deviceID id .queued) ∧ Covered tasks r id

/-- What holds in every run in which the last worker leaves nothing in the queue. -/
structure Kept (deviceID : String) (tasks : ι → Task) (r : Recorded (Agency ι) Result) :
    Prop where
  reliable : ∀ i, Reliable deviceID tasks r i
  cache : ∀ id e result, r.state.pool.shared.seen.entry id = some e → e.result = some result →
    result.kind = .result
  log : ∀ m ∈ r.log, m.Queued → Covered tasks r m.id
  queue : r.state.Waited tasks → r.state.pool.shared.queue = []

variable {r r' : Recorded (Agency ι) Result} {i : ι}

/-- A step that keeps what is covered. -/
theorem Kept.of_covered (h : Kept deviceID tasks r)
    (hcovered : ∀ id, Covered tasks r id → Covered tasks r' id)
    (hthread : r'.state.pool.thread = r.state.pool.thread)
    (hseen : r'.state.pool.shared.seen = r.state.pool.shared.seen) (hlog : r'.log = r.log)
    (hqueue : r'.state.Waited tasks → r'.state.pool.shared.queue = []) :
    Kept deviceID tasks r' where
  reliable i := by
    rw [Reliable, hthread]
    refine (h.reliable i).imp_right ?_
    rintro ⟨id, hi, hid⟩
    exact ⟨id, hi, hcovered id hid⟩
  cache := by
    rw [hseen]
    exact h.cache
  log := by
    rw [hlog]
    exact fun m hm hqueued ↦ hcovered m.id (h.log m hm hqueued)
  queue := hqueue

/-- A step that no task has a part in. -/
theorem Kept.of_same (h : Kept deviceID tasks r)
    (hthread : r'.state.pool.thread = r.state.pool.thread)
    (hqueue : r'.state.pool.shared.queue = r.state.pool.shared.queue)
    (hseen : r'.state.pool.shared.seen = r.state.pool.shared.seen)
    (hleft : r'.state.left = r.state.left) (hlog : r'.log = r.log) : Kept deviceID tasks r' := by
  refine h.of_covered (fun id hid ↦ ?_) hthread hseen hlog fun hwaited ↦ ?_
  · rw [Covered, hlog, hqueue, hleft, hthread]
    exact hid
  · rw [Agency.Waited, hleft] at hwaited
    rw [hqueue]
    exact h.queue hwaited

/-- The task `i` has made a request, and goes on with what it has been answered. -/
structure Requested (r r' : Recorded (Agency ι) Result) (i : ι) {β : Type} (op : AgentOp β)
    (k : Except Empty β → AgentM Unit) : Prop where
  request : r.state.pool.thread i = .call op k
  left : r.state.left i = false
  queue : r'.state.pool.shared.queue = (r.state.pool.shared.serve op).2.queue
  seen : r'.state.pool.shared.seen = (r.state.pool.shared.serve op).2.seen
  self : r'.state.pool.thread i = k (.ok (r.state.pool.shared.serve op).1)
  other : ∀ j, j ≠ i → r'.state.pool.thread j = r.state.pool.thread j
  stays : r'.state.left = r.state.left
  log : r'.log = r.log ++ published β op

theorem Agency.withPool_pool (x : Agency ι) (pool : AgentPool ι) :
    (x.withPool pool).pool.thread = pool.thread ∧
    (x.withPool pool).pool.shared.queue = pool.shared.queue ∧
    (x.withPool pool).pool.shared.seen = pool.shared.seen := by
  unfold Agency.withPool
  split <;> exact ⟨rfl, rfl, rfl⟩

variable [DecidableEq ι]

theorem agencyStep_run {f : Fate Empty} (h : agencyStep r (.pool (.run i f)) = some r') :
    ∃ (β : Type) (op : AgentOp β) (k : Except Empty β → AgentM Unit), Requested r r' i op k := by
  obtain ⟨hstep, hlog⟩ := Recorded.step_eq_some h
  rw [Agency.step] at hstep
  split at hstep
  · cases hstep
  rename_i hleft
  obtain ⟨pool, hpool, heq⟩ := Option.map_eq_some_iff.mp hstep
  obtain ⟨β, op, k, hi, hshared, hself, hother⟩ := agentStep_run hpool
  obtain ⟨hthread, hqueue, hseen⟩ := r.state.withPool_pool pool
  rw [heq] at hthread hqueue hseen
  refine ⟨β, op, k, hi, Bool.eq_false_iff.mpr hleft, ?_, ?_, ?_, fun j hj ↦ ?_, ?_, ?_⟩
  · rw [hqueue, hshared]
  · rw [hseen, hshared]
  · rw [hthread, hself]
  · rw [hthread, hother j hj]
  · rw [← heq]
    rfl
  · rw [hlog]
    simp only [Agency.observe, Pool.observe, hi]
    cases f with
    | served => rfl
    | refused e => exact e.elim
    | unanswered e => exact e.elim

section Request

variable {β : Type} {op : AgentOp β} {k : Except Empty β → AgentM Unit}

omit [DecidableEq ι] in
theorem Requested.log_subset (h : Requested r r' i op k) {m : Result} (hm : m ∈ r.log) :
    m ∈ r'.log := by
  rw [h.log]
  exact List.mem_append_left _ hm

omit [DecidableEq ι] in
/-- A worker takes a command from the queue in hand. -/
theorem Requested.covered_queue (h : Requested r r' i op k)
    (hinforms : Informs deviceID (tasks i).isWorker β op k ∨ Publishes β op) {id : String}
    (hid : id ∈ r.state.pool.shared.queue.map (·.id)) : Covered tasks r' id := by
  cases op with
  | dequeue =>
      obtain ⟨hworker, howes⟩ := hinforms.resolve_right fun h ↦ h
      cases hq : r.state.pool.shared.queue with
      | nil =>
          rw [hq] at hid
          cases hid
      | cons cmd queue =>
          have hserve : r.state.pool.shared.serve .dequeue =
              (some cmd, { r.state.pool.shared with queue }) := by
            rw [Dispatcher.serve, hq]
          rw [hq, List.map_cons, List.mem_cons] at hid
          rcases hid with rfl | hid
          · refine .inr (.inr ⟨i, hworker, ?_, ?_⟩)
            · rw [h.stays]
              exact h.left
            · rw [h.self, hserve]
              exact howes cmd
          · refine .inr (.inl ?_)
            rw [h.queue, hserve]
            exact hid
  | enqueue cmd =>
      refine .inr (.inl ?_)
      rw [h.queue, Dispatcher.serve]
      split
      · rw [List.map_append]
        exact List.mem_append_left _ hid
      · exact hid
  | cancelRunning id' =>
      refine .inr (.inl ?_)
      rw [h.queue, Dispatcher.serve]
      split <;> exact hid
  | _ =>
      refine .inr (.inl ?_)
      rw [h.queue]
      exact hid

/-- A worker that owes a result publishes it, or goes on owing it. -/
theorem Requested.covered_owed (h : Requested r r' i op k) {j : ι} {id : String}
    (hj : (tasks j).isWorker = true) (hleft : r.state.left j = false)
    (howes : Owes id (r.state.pool.thread j)) : Covered tasks r' id := by
  by_cases hji : j = i
  · subst hji
    rw [h.request] at howes
    rcases howes with hpublishes | ⟨-, howes⟩
    · refine .inl ?_
      rw [h.log]
      cases op with
      | publish m => exact ⟨m, List.mem_append_right _ List.mem_cons_self, hpublishes⟩
      | _ => exact hpublishes.elim
    · refine .inr (.inr ⟨j, hj, ?_, ?_⟩)
      · rw [h.stays]
        exact hleft
      · rw [h.self]
        exact howes _
  · refine .inr (.inr ⟨j, hj, ?_, ?_⟩)
    · rw [h.stays]
      exact hleft
    · rw [h.other j hji]
      exact howes

/-- What is covered stays so when a task makes a request. -/
theorem Requested.covered (h : Requested r r' i op k)
    (hinforms : Informs deviceID (tasks i).isWorker β op k ∨ Publishes β op) {id : String}
    (hid : Covered tasks r id) : Covered tasks r' id := by
  rcases hid with ⟨m, hm, hid⟩ | hid | ⟨j, hj, hleft, howes⟩
  · exact .inl ⟨m, h.log_subset hm, hid⟩
  · exact h.covered_queue hinforms hid
  · exact h.covered_owed hj hleft howes

omit [DecidableEq ι] in
/-- The cache goes on to hold results. -/
theorem Requested.cache (h : Requested r r' i op k) (hkept : Kept deviceID tasks r)
    (hinforms : Informs deviceID (tasks i).isWorker β op k ∨ Publishes β op) (id : String)
    (e : Entry Result) (m : Result) (he : r'.state.pool.shared.seen.entry id = some e)
    (hm : e.result = some m) : m.kind = .result := by
  rw [h.seen] at he
  cases op with
  | add id' => exact hkept.cache id e m (Cache.entry_of_entry_add he hm) hm
  | remove id' =>
      rw [Dispatcher.serve, Cache.entry_remove] at he
      split at he
      · cases he
      · exact hkept.cache id e m he hm
  | complete id' m' =>
      rw [Dispatcher.serve, Cache.entry_complete] at he
      split at he
      · obtain ⟨e', -, rfl⟩ := Option.map_eq_some_iff.mp he
        cases hm
        exact hinforms.resolve_right fun h ↦ h
      · exact hkept.cache id e m he hm
  | enqueue cmd =>
      rw [Dispatcher.serve] at he
      split at he <;> exact hkept.cache id e m he hm
  | dequeue =>
      rw [Dispatcher.serve] at he
      split at he <;> exact hkept.cache id e m he hm
  | cancelRunning id' =>
      rw [Dispatcher.serve] at he
      split at he <;> exact hkept.cache id e m he hm
  | _ => exact hkept.cache id e m he hm

omit [DecidableEq ι] in
/-- A task that has got a reply goes on, or has just queued its command. -/
theorem Requested.reliable (h : Requested r r' i op k) (hkept : Kept deviceID tasks r)
    (hinforms : Informs deviceID (tasks i).isWorker β op k)
    (hnext : ∀ reply, QueuesNothing β op reply →
      Always QueuesNothing (Informs deviceID (tasks i).isWorker) (k reply)) :
    Reliable deviceID tasks r' i := by
  rw [Reliable, h.self]
  cases op with
  | enqueue cmd =>
      by_cases hroom : r.state.pool.shared.queue.length < r.state.pool.shared.queueDepth
      · have hserve : r.state.pool.shared.serve (.enqueue cmd) = (true,
            { r.state.pool.shared with queue := r.state.pool.shared.queue ++ [cmd] }) := by
          rw [Dispatcher.serve, if_pos hroom]
        refine .inr ⟨cmd.id, ?_, .inr (.inl ?_)⟩
        · rw [hserve]
          exact hinforms
        · rw [h.queue, hserve, List.map_append]
          exact List.mem_append_right _ List.mem_cons_self
      · rw [Dispatcher.serve, if_neg hroom]
        refine .inl (hnext _ ?_)
        intro h
        cases h
  | cachedResult id =>
      refine .inl (hnext _ fun m running hm ↦ ?_)
      have hcached := Except.ok.inj hm
      rw [Dispatcher.serve, Cache.cachedResult] at hcached
      obtain ⟨e, he, heq⟩ := Option.map_eq_some_iff.mp hcached
      exact hkept.cache id e m he (congrArg Prod.fst heq)
  | _ => exact .inl (hnext _ trivial)

/-- What is published about a command that is queued is covered. -/
theorem Requested.kept (h : Requested r r' i op k) (hkept : Kept deviceID tasks r)
    (hinforms : Informs deviceID (tasks i).isWorker β op k ∨ Publishes β op)
    (hself : Reliable deviceID tasks r' i)
    (hpublished : ∀ m ∈ published β op, m.Queued → Covered tasks r m.id)
    (hqueue : r'.state.Waited tasks → r'.state.pool.shared.queue = []) :
    Kept deviceID tasks r' where
  reliable j := by
    by_cases hji : j = i
    · subst hji
      exact hself
    · rw [Reliable, h.other j hji]
      refine (hkept.reliable j).imp_right ?_
      rintro ⟨id, hj, hid⟩
      exact ⟨id, hj, h.covered hinforms hid⟩
  cache := h.cache hkept hinforms
  log m hm hqueued := by
    rw [h.log, List.mem_append] at hm
    rcases hm with hm | hm
    · exact h.covered hinforms (hkept.log m hm hqueued)
    · exact h.covered hinforms (hpublished m hm hqueued)
  queue := hqueue

omit [DecidableEq ι] in
/-- Once the workers have left an empty queue, it stays empty. -/
theorem Requested.queue_nil (h : Requested r r' i op k)
    (hguard : LeavesNothing tasks r.state (.pool (.run i .served)))
    (hqueue : r.state.Waited tasks → r.state.pool.shared.queue = [])
    (hwaited : r'.state.Waited tasks) : r'.state.pool.shared.queue = [] := by
  rw [Agency.Waited, h.stays] at hwaited
  have hnil := hqueue hwaited
  rw [h.queue]
  cases op with
  | enqueue cmd => exact absurd hwaited (hguard (by rw [h.request]; trivial))
  | dequeue =>
      rw [Dispatcher.serve, hnil]
      exact hnil
  | cancelRunning id =>
      rw [Dispatcher.serve]
      split <;> exact hnil
  | _ => exact hnil

theorem Kept.request (hkept : Kept deviceID tasks r) (h : Requested r r' i op k)
    (hguard : LeavesNothing tasks r.state (.pool (.run i .served))) :
    Kept deviceID tasks r' := by
  have hqueue := h.queue_nil hguard hkept.queue
  rcases hkept.reliable i with hi | ⟨id, hi, hid⟩
  · rw [h.request, always_call] at hi
    obtain ⟨hinforms, hnext⟩ := hi
    refine h.kept hkept (.inl hinforms) (h.reliable hkept hinforms hnext) ?_ hqueue
    intro m hm hqueued
    cases op with
    | publish m' =>
        obtain rfl := List.mem_singleton.mp hm
        exact absurd hqueued hinforms
    | _ => cases hm
  · obtain ⟨rfl, hop, hk⟩ := Prog.call.inj (h.request.symm.trans hi)
    obtain rfl := eq_of_heq hop
    obtain rfl := eq_of_heq hk
    refine h.kept hkept (.inr trivial) (.inl ?_) ?_ hqueue
    · rw [h.self]
      trivial
    · intro m hm _
      obtain rfl := List.mem_singleton.mp hm
      exact hid

end Request

/-- The last worker to leave has found the queue empty. -/
theorem Kept.step (hkept : Kept deviceID tasks r) {l : AgencyEvent ι}
    (hguard : LeavesNothing tasks r.state l) (hs : agencyStep r l = some r') :
    Kept deviceID tasks r' := by
  cases l with
  | pool l =>
      cases l with
      | run i f =>
          obtain ⟨β, op, k, h⟩ := agencyStep_run hs
          exact hkept.request h hguard
      | env ms =>
          obtain ⟨hstep, hlog⟩ := Recorded.step_eq_some hs
          rw [Agency.step, Agency.gone, if_neg Bool.false_ne_true] at hstep
          obtain ⟨pool, hpool, heq⟩ := Option.map_eq_some_iff.mp hstep
          obtain rfl := Pool.step_env hpool
          obtain ⟨hthread, hqueue, hseen⟩ := r.state.withPool_pool
            ⟨Dispatcher.tick ms r.state.pool.shared, r.state.pool.thread⟩
          rw [heq] at hthread hqueue hseen
          refine hkept.of_same hthread hqueue hseen ?_ (hlog.trans (List.append_nil _))
          rw [← heq]
          rfl
  | cancel =>
      obtain ⟨hstep, hlog⟩ := Recorded.step_eq_some hs
      obtain heq := Option.some.inj hstep
      refine hkept.of_same ?_ ?_ ?_ ?_ (hlog.trans (List.append_nil _)) <;> rw [← heq]
      · rfl
      · rfl
  | leave i =>
      obtain ⟨hstep, hlog⟩ := Recorded.step_eq_some hs
      rw [Agency.step] at hstep
      split at hstep
      · rename_i hleave
        have heq := Option.some.inj hstep
        have hleft : r'.state.left = Function.update r.state.left i true := by rw [← heq]
        have hpool : r'.state.pool = r.state.pool := by rw [← heq]
        refine hkept.of_covered (fun id hid ↦ ?_) (by rw [hpool]) (by rw [hpool])
          (hlog.trans (List.append_nil _)) fun hwaited ↦ ?_
        · rcases hid with ⟨m, hm, hid⟩ | hid | ⟨j, hj, hstays, howes⟩
          · exact .inl ⟨m, by rw [hlog]; exact List.mem_append_left _ hm, hid⟩
          · exact .inr (.inl (hpool ▸ hid))
          · refine .inr (.inr ⟨j, hj, ?_, hpool ▸ howes⟩)
            -- a worker that leaves is at its `select` and owes nothing
            have hne : j ≠ i := by
              rintro rfl
              exact not_owes_of_selects hleave.2.1 howes
            rw [hleft, Function.update_of_ne hne]
            exact hstays
        · rw [hpool]
          refine hguard fun j hj hne ↦ ?_
          have := hwaited j hj
          rwa [hleft, Function.update_of_ne hne] at this
      · cases hstep

end Run

/-- An agent that has just started. -/
def startAgency {ι : Type} (cfg : Config) (tasks : ι → Task) (clock : Int)
    (outcome : Nat → Outcome) (onUpdateGroups : List String → GroupUpdate) :
    Recorded (Agency ι) Result :=
  ⟨{ pool := start cfg tasks clock outcome onUpdateGroups }, []⟩

theorem Kept.start {ι : Type} (cfg : Config) (tasks : ι → Task) (clock : Int)
    (outcome : Nat → Outcome) (onUpdateGroups : List String → GroupUpdate) :
    Kept cfg.deviceID tasks (startAgency cfg tasks clock outcome onUpdateGroups) where
  reliable i := .inl (program_informs cfg (tasks i))
  cache id e m he hm := by cases he
  log m hm _ := by cases hm
  queue _ := rfl

/-- In every run in which the last worker that leaves finds the queue empty and nothing is queued
after that: once `Wait` has returned, every command that was said to be queued has got a
result. -/
theorem wait_answers {ι : Type} [DecidableEq ι] (cfg : Config) (tasks : ι → Task) (clock : Int)
    (outcome : Nat → Outcome) (onUpdateGroups : List String → GroupUpdate)
    {r : Recorded (Agency ι) Result}
    (hr : Reach agencyStep (fun r ↦ LeavesNothing tasks r.state)
      (startAgency cfg tasks clock outcome onUpdateGroups) r)
    (hwaited : r.state.Waited tasks) : Answers r.log := by
  have hkept : Kept cfg.deviceID tasks r :=
    hr.invariant (.start ..) fun _ _ _ h hg hs ↦ h.step hg hs
  intro m hm hqueued
  rcases hkept.log m hm hqueued with hresult | hqueue | ⟨i, hi, hleft, -⟩
  · exact hresult
  · rw [hkept.queue hwaited] at hqueue
    cases hqueue
  · rw [hwaited i hi] at hleft
    cases hleft

/-! ## A command in the queue -/

instance {β : Type} (op : AgentOp β) : Decidable (Enqueues β op) :=
  match op with
  | .enqueue _ => isTrue trivial
  | .now | .updateGroups _ | .add _ | .cachedResult _ | .remove _ | .complete .. | .dequeue
  | .storeRunning _ | .deleteRunning _ | .cancelRunning _ | .startRun .. | .endRun ..
  | .publish _ => isFalse fun h ↦ h

section Decidable

variable {ι : Type} [Fintype ι] [DecidableEq ι] (tasks : ι → Task) (x : Agency ι)

instance : Decidable (x.Waited tasks) := by
  unfold Agency.Waited; infer_instance

instance (l : AgencyEvent ι) : Decidable (LeavesNothing tasks x l) :=
  match l with
  | .pool (.run i _) =>
      inferInstanceAs (Decidable (AtRequest Enqueues (x.pool.thread i) → ¬ x.Waited tasks))
  | .pool (.env _) | .cancel => isTrue trivial
  | .leave i => inferInstanceAs (Decidable
      ((∀ j, (tasks j).isWorker → j ≠ i → x.left j = true) → x.pool.shared.queue = []))

instance (log : List Result) : Decidable (Answers log) := by
  unfold Answers; infer_instance

end Decidable

/-- A command and a worker. -/
def lastDate : Fin 2 → Task
  | 0 => .message (some dateCommand)
  | 1 => .worker 2

def lastDateStart : Recorded (Agency (Fin 2)) Result :=
  startAgency smallConfig lastDate 0 (fun _ ↦ {}) fun _ ↦ .unsupported

/-- The requests of the handler, up to the message that the command is queued. -/
def queueDate : List (AgencyEvent (Fin 2)) :=
  [.pool (.run 0 .served), .pool (.run 0 .served), .pool (.run 0 .served)]

/-- The worker runs the command before it leaves. -/
theorem wait_answers_run : ∃ r : Recorded (Agency (Fin 2)) Result,
    (∃ m ∈ r.log, m.Queued) ∧ r.state.Waited lastDate ∧ Answers r.log := by
  obtain ⟨r, hr, hqueued, hwaited⟩ : ∃ r : Recorded (Agency (Fin 2)) Result,
      Reach agencyStep (fun r ↦ LeavesNothing lastDate r.state) lastDateStart r ∧
      (∃ m ∈ r.log, m.Queued) ∧ r.state.Waited lastDate :=
    Reach.exists_of_exec (queueDate ++ [.cancel] ++
      List.replicate 7 (.pool (.run 1 .served)) ++ [.leave 1]) (by decide)
  exact ⟨r, hqueued, hwaited, wait_answers smallConfig lastDate 0 (fun _ ↦ {})
    (fun _ ↦ .unsupported) hr hwaited⟩

/-- The only worker leaves, and the command stays in the queue. -/
theorem wait_drops : ∃ r : Recorded (Agency (Fin 2)) Result,
    Reach agencyStep (fun _ _ ↦ True) lastDateStart r ∧ r.state.Waited lastDate ∧
    ¬ Answers r.log :=
  Reach.exists_of_exec (queueDate ++ [.cancel, .leave 1]) (by decide)

end Zenstier.Agent
