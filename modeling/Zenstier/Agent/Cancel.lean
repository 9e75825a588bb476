import Zenstier.Agent.Settling

/-!
# Canceling a command

A cancel does not go through the queue: the handler looks its target up in the map of the running
commands and cancels the context that it finds.  A worker puts a command there after it has taken
it from the queue.  So what has been accepted is out of reach as long as it is queued, and a
command that is done without a process is not stopped at all.
-/

namespace Zenstier.Agent

open Store Concurrent Prog

/-! ## Where a command is -/

/-- The handler cancels the command. -/
def Cancels (id : String) : ∀ β : Type, AgentOp β → Prop
  | _, .cancelRunning id' => id' = id
  | _, _ => False

/-- A worker that has taken the command from the queue puts it into the map. -/
def Stores (id : String) : ∀ β : Type, AgentOp β → Prop
  | _, .storeRunning id' => id' = id
  | _, _ => False

/-- The request starts a process for the command. -/
def StartsProcess (s : Dispatcher) (id : String) : ∀ β : Type, AgentOp β → Prop
  | _, .startRun ctx cmd => cmd.id = id ∧ (s.startShell ctx).isOk = true
  | _, _ => False

/-- The request waits for the process of the command in a context. -/
def AwaitsProcess (ctx : Nat) (id : String) : ∀ β : Type, AgentOp β → Prop
  | _, .endRun ctx' id' _ => ctx' = ctx ∧ id' = id
  | _, _ => False

/-- The request stores the result that the command is completed. -/
def Completes (id : String) : ∀ β : Type, AgentOp β → Prop
  | _, .complete id' r => id' = id ∧ r.status = some .completed
  | _, _ => False

/-- So it does, and there has been no process. -/
def CompletesAtOnce (id : String) : ∀ β : Type, AgentOp β → Prop
  | _, .complete id' r => id' = id ∧ r.status = some .completed ∧ r.startedAt = none
  | _, _ => False

/-- The request stores the result of a process. -/
def StoresExit (id : String) : ∀ β : Type, AgentOp β → Prop
  | _, .complete id' r => id' = id ∧ r.startedAt ≠ none
  | _, _ => False

/-- The handler queues the command. -/
def Queues (id : String) : ∀ β : Type, AgentOp β → Prop
  | _, .enqueue cmd => cmd.id = id
  | _, _ => False

/-- The request takes a command, or waits for a process. -/
def TakesOrAwaits : ∀ β : Type, AgentOp β → Prop
  | _, .add _ | _, .dequeue | _, .endRun .. => True
  | _, _ => False

/-- The task runs the command in the context, and has not waited for its process. -/
def Executing (ctx : Nat) (id : String) (p : AgentM Unit) : Prop :=
  Ahead Takes (AtRequest (AwaitsProcess ctx id)) p

/-- The process of the command has exited, and what has become of it has not been stored. -/
def Exited (id : String) (p : AgentM Unit) : Prop :=
  Ahead TakesOrAwaits (AtRequest (StoresExit id)) p

section Pool

variable {ι : Type}

/-- The command is queued, or a worker that has it has not stored a result for it. -/
def Accepted (tasks : ι → Task) (c : AgentPool ι) (id : String) : Prop :=
  id ∈ c.shared.queue.map (·.id) ∨
    ∃ i turns, tasks i = .worker turns ∧ Pends id (c.thread i)

/-- What a cancel can reach: the command has left the queue and has been put into the map by the
worker that executes it. -/
structure InReach (c : AgentPool ι) (id : String) : Prop where
  dequeued : id ∉ c.shared.queue.map (·.id)
  stored : ∀ i, ¬ AtRequest (Stores id) (c.thread i)
  /-- It is not completed without a process. -/
  process : ∀ i, ¬ AtRequest (CompletesAtOnce id) (c.thread i)
  /-- Its context in the map is the one in which it is executed. -/
  registered : ∀ i ctx, Executing ctx id (c.thread i) → c.shared.running.find? id = some ctx

/-- The command is not queued anew. -/
def NotQueued (id : String) (c : AgentPool ι) : Event ι Empty Nat → Prop
  | .run i _ => ¬ AtRequest (Queues id) (c.thread i)
  | .env _ => True

end Pool

/-! ## What a worker does once the context is canceled -/

/-- The replies to a worker after the cancel: the command is not in the queue, and in its context
no process is started and none ends well. -/
def Heeds (canceled : Option Nat) (id : String) :
    ∀ β : Type, AgentOp β → Except Empty β → Prop
  | _, .dequeue, r => ∀ cmd, r = .ok (some cmd) → cmd.id ≠ id
  | _, .startRun ctx _, r => some ctx = canceled → ∀ started, r ≠ .ok (.ok started)
  | _, .endRun ctx _ _, r => some ctx = canceled →
      ∀ res, r = .ok res → res.timedOut = true ∨ res.canceled = true
  | _, _, _ => True

/-- The worker starts the command only in the canceled context, and does not complete it unless
its process had exited. -/
def Spares (canceled : Option Nat) (id : String) (exited : Prop) :
    ∀ β : Type, AgentOp β → (Except Empty β → AgentM Unit) → Prop
  | _, .startRun ctx cmd, _ => cmd.id = id → some ctx = canceled
  | _, .complete id' r, _ => id' = id → r.status = some .completed → exited
  | _, _, _ => True

/-- The requests that have nothing to do with the command. -/
def Apart (id : String) : ∀ β : Type, AgentOp β → Prop
  | _, .startRun _ cmd => cmd.id ≠ id
  | _, .complete id' _ => id' ≠ id
  | _, .dequeue => False
  | _, _ => True

/-- The task does not start the command, nor complete it. -/
def Harmless (id : String) (p : AgentM Unit) : Prop :=
  ∀ canceled, Always (Heeds canceled id) (Spares canceled id False) p

/-- A cancel of the command stops the task. -/
def Stoppable (id : String) (p : AgentM Unit) : Prop :=
  ∀ canceled, ¬ AtRequest (Stores id) p → ¬ AtRequest (CompletesAtOnce id) p →
    (∀ ctx, Executing ctx id p → some ctx = canceled) →
    Always (Heeds canceled id) (Spares canceled id (Exited id p)) p

section Worker

variable {id deviceID : String} {turns : Nat}

theorem Spares.mono {canceled : Option Nat} {exited exited' : Prop} (himp : exited → exited')
    (β : Type) (op : AgentOp β) (k : Except Empty β → AgentM Unit)
    (h : Spares canceled id exited β op k) : Spares canceled id exited' β op k := by
  cases op with
  | complete id' r => exact fun hid hr ↦ himp (h hid hr)
  | _ => exact h

theorem spares_of_apart {canceled : Option Nat} {exited : Prop} (β : Type) (op : AgentOp β)
    (k : Except Empty β → AgentM Unit) (h : Apart id β op) : Spares canceled id exited β op k := by
  cases op with
  | complete id' r => exact fun hid ↦ absurd hid h
  | startRun ctx cmd => exact fun hid ↦ absurd hid h
  | _ => trivial

theorem Harmless.stoppable {p : AgentM Unit} (h : Harmless id p) : Stoppable id p :=
  fun canceled _ _ _ ↦ Always.mono (Spares.mono False.elim) (h canceled)

theorem Harmless.bind {α : Type} {p : AgentM α} {f : α → AgentM Unit} (hp : Only (Apart id) p)
    (hf : ∀ a, Harmless id (f a)) : Harmless id (p >>= f) :=
  fun canceled ↦ Always.bind hp (fun β op k h ↦ spares_of_apart β op k h) fun a ↦ hf a canceled

/-- A job of another command. -/
theorem run_apart {cmd : Command} (h : cmd.id ≠ id) : Only (Apart id) (run deviceID cmd) := by
  unfold run
  refine Only.await trivial fun ctx ↦ Only.bind ?_ fun _ ↦ (only_perform _).mpr trivial
  exact runJob_only trivial (fun _ _ ↦ h) (fun _ ↦ h) (fun _ _ ↦ trivial) (fun _ ↦ trivial) ctx

theorem worker_harmless (turns : Nat) : Harmless id (worker deviceID turns) := by
  induction turns with
  | zero => exact fun _ ↦ trivial
  | succ turns ih =>
      refine fun canceled ↦ ⟨trivial, ?_⟩
      rintro (e | _ | cmd) hreply
      · exact e.elim
      · exact ih canceled
      · show Always _ _ (run deviceID cmd >>= fun _ ↦ worker deviceID turns)
        exact Harmless.bind (run_apart (hreply cmd rfl)) (fun _ ↦ ih) canceled

theorem rest_harmless (turns : Nat) (cmd : Command) : Harmless id (rest deviceID turns cmd) :=
  Harmless.bind ((only_perform _).mpr trivial) fun _ ↦ worker_harmless turns

/-! ### A run of the command -/

theorem throughout_bind {α : Type} {p : AgentM α} {f : α → AgentM Unit} (hp : Only (Apart id) p)
    (hf : ∀ a, Harmless id (f a)) (hrest : ∀ a, Throughout (Stoppable id) (f a)) :
    Throughout (Stoppable id) (p >>= f) := by
  induction p with
  | pure a => exact hrest a
  | throw e => exact e.elim
  | call op k ih =>
      refine ⟨(Harmless.bind hp hf).stoppable, fun r ↦ ih r ?_⟩
      rw [only_call] at hp
      exact hp.2 r

variable {f : Unit → AgentM Unit} {canceled : Option Nat} {exited : Prop}

/-- A result that is stored and published. -/
theorem finish_spares {r : Result} (hr : r.id = id → r.status = some .completed → exited)
    (hf : Harmless id (f ())) :
    Always (Heeds canceled id) (Spares canceled id exited) (finish r >>= f) := by
  refine ⟨hr, ?_⟩
  rintro (e | u) -
  · exact e.elim
  refine ⟨trivial, ?_⟩
  rintro (e | u) -
  · exact e.elim
  · exact Always.mono (Spares.mono False.elim) (hf canceled)

/-- It is the result of a process, unless the command is completed at once. -/
theorem finish_throughout (r : Result) (hf : Harmless id (f ()))
    (hrest : Throughout (Stoppable id) (f ())) :
    Throughout (Stoppable id) (finish r >>= f) := by
  refine ⟨fun canceled _ hprocess _ ↦ finish_spares ?_ hf, ?_⟩
  · intro hid hstatus
    exact Ahead.of_self ⟨hid, fun hnone ↦ hprocess ⟨hid, hstatus, hnone⟩⟩
  · rintro (e | u)
    · exact e.elim
    · exact throughout_bind ((only_perform _).mpr trivial) (fun _ ↦ hf) fun _ ↦ hrest

variable {ctx : Nat} {cmd : Command} {startedAt : Int}

/-- What comes after the end of a process. -/
def exitExec (deviceID : String) (cmd : Command) (res : ExecResult) : AgentM Unit := do
  let finishedAt ← .perform .now
  finish (finalResult deviceID cmd.id res finishedAt)

theorem awaitExec_eq (chunks : List (OutputStream × String)) :
    awaitExec deviceID ctx cmd startedAt chunks =
      publishChunks deviceID cmd.id 0 (if cmd.stream then chunks else []) >>= fun _ ↦
        .perform (.endRun ctx cmd.id startedAt) >>= fun res ↦ exitExec deviceID cmd res := rfl

theorem exitExec_spares {res : ExecResult}
    (hres : res.timedOut = true ∨ res.canceled = true ∨ exited) (hf : Harmless id (f ())) :
    Always (Heeds canceled id) (Spares canceled id exited) (exitExec deviceID cmd res >>= f) := by
  refine ⟨trivial, ?_⟩
  rintro (e | finishedAt) -
  · exact e.elim
  refine finish_spares (fun _ hstatus ↦ ?_) hf
  rcases hres with h | h | h
  · simp [finalResult, h] at hstatus
  · cases htimeout : res.timedOut <;> simp [finalResult, h, htimeout] at hstatus
  · exact h

/-- Once the process has come to its end, its result may be stored. -/
theorem exitExec_throughout (res : ExecResult) (hf : Harmless cmd.id (f ()))
    (hrest : Throughout (Stoppable cmd.id) (f ())) :
    Throughout (Stoppable cmd.id) (exitExec deviceID cmd res >>= f) := by
  refine ⟨fun canceled _ _ _ ↦ exitExec_spares (.inr (.inr ?_)) hf, ?_⟩
  · exact .inr ⟨id, .ok 0, Ahead.of_self ⟨rfl, Option.some_ne_none _⟩⟩
  · rintro (e | finishedAt)
    · exact e.elim
    · exact finish_throughout _ hf hrest

/-- A process whose context is canceled does not end well. -/
theorem endRun_spares (hctx : some ctx = canceled) (hf : Harmless id (f ())) :
    Always (Heeds canceled id) (Spares canceled id exited)
      (.perform (.endRun ctx cmd.id startedAt) >>= fun res ↦ exitExec deviceID cmd res >>= f) := by
  refine ⟨trivial, ?_⟩
  rintro (e | res) hreply
  · exact e.elim
  · exact exitExec_spares ((hreply hctx res rfl).imp_right .inl) hf

theorem endRun_throughout (hf : Harmless cmd.id (f ()))
    (hrest : Throughout (Stoppable cmd.id) (f ())) :
    Throughout (Stoppable cmd.id)
      (.perform (.endRun ctx cmd.id startedAt) >>= fun res ↦ exitExec deviceID cmd res >>= f) := by
  refine ⟨fun canceled _ _ hexec ↦ endRun_spares (hexec ctx (.inl ⟨rfl, rfl⟩)) hf, ?_⟩
  rintro (e | res)
  · exact e.elim
  · exact exitExec_throughout res hf hrest

/-- The request publishes something. -/
def Publishes : ∀ β : Type, AgentOp β → Prop
  | _, .publish _ => True
  | _, _ => False

/-- What is published before a process ends. -/
theorem publishing_throughout {p : AgentM Unit} (hp : Only Publishes p)
    (hexec : Executing ctx cmd.id (f ()))
    (hf : ∀ canceled exited, some ctx = canceled →
      Always (Heeds canceled cmd.id) (Spares canceled cmd.id exited) (f ()))
    (hrest : Throughout (Stoppable cmd.id) (f ())) :
    Throughout (Stoppable cmd.id) (p >>= f) := by
  induction p with
  | pure u => exact hrest
  | throw e => exact e.elim
  | call op k ih =>
      refine ⟨fun canceled _ _ hstop ↦ ?_, fun r ↦ ih r ?_⟩
      · have hctx : some ctx = canceled := by
          refine hstop ctx (Ahead.bind Empty.elim hp (fun β op h ↦ ?_) fun _ ↦ hexec)
          cases op <;> first | exact h.elim | exact ⟨fun h ↦ h, ⟨()⟩⟩
        refine Always.bind hp (fun β op k h ↦ ?_) fun _ ↦ hf canceled _ hctx
        cases op <;> first | exact h.elim | trivial
      · rw [only_call] at hp
        exact hp.2 r

theorem publishChunks_publishes (seq : Nat) (chunks : List (OutputStream × String)) :
    Only Publishes (publishChunks deviceID cmd.id seq chunks) :=
  publishChunks_only (fun _ ↦ trivial) ..

theorem awaitExec_executing (chunks : List (OutputStream × String)) :
    Executing ctx cmd.id (awaitExec deviceID ctx cmd startedAt chunks >>= f) := by
  rw [awaitExec_eq, Prog.bind_assoc]
  refine Ahead.bind Empty.elim (publishChunks_publishes ..) (fun β op h ↦ ?_)
    fun _ ↦ .inl ⟨rfl, rfl⟩
  cases op <;> first | exact h.elim | exact ⟨fun h ↦ h, ⟨()⟩⟩

theorem awaitExec_throughout (chunks : List (OutputStream × String)) (hf : Harmless cmd.id (f ()))
    (hrest : Throughout (Stoppable cmd.id) (f ())) :
    Throughout (Stoppable cmd.id) (awaitExec deviceID ctx cmd startedAt chunks >>= f) := by
  rw [awaitExec_eq, Prog.bind_assoc]
  simp only [Prog.bind_assoc]
  exact publishing_throughout (publishChunks_publishes ..) (.inl ⟨rfl, rfl⟩)
    (fun _ _ hctx ↦ endRun_spares hctx hf) (endRun_throughout hf hrest)

/-- What follows on the attempt to start a process. -/
def started (deviceID : String) (ctx : Nat) (cmd : Command) :
    Except String (Int × List (OutputStream × String)) → AgentM Unit
  | .error err => finish (rejectedResult deviceID cmd.id .spawnFailed err)
  | .ok (startedAt, chunks) => awaitExec deviceID ctx cmd startedAt chunks

theorem runExec_eq : runExec deviceID ctx cmd =
    publish (acceptedResult deviceID cmd.id .running) >>= fun _ ↦
      .perform (.startRun ctx cmd) >>= started deviceID ctx cmd := rfl

theorem startRun_executing : Executing ctx cmd.id
    (.perform (.startRun ctx cmd) >>= fun r ↦ started deviceID ctx cmd r >>= f) :=
  .inr ⟨id, .ok (.ok (0, [])), awaitExec_executing []⟩

/-- A process is not started in a context that is canceled. -/
theorem startRun_spares (hctx : some ctx = canceled) (hf : Harmless cmd.id (f ())) :
    Always (Heeds canceled cmd.id) (Spares canceled cmd.id exited)
      (.perform (.startRun ctx cmd) >>= fun r ↦ started deviceID ctx cmd r >>= f) := by
  refine ⟨fun _ ↦ hctx, ?_⟩
  rintro (e | err | run) hreply
  · exact e.elim
  · refine finish_spares (fun _ hstatus ↦ ?_) hf
    cases hstatus
  · exact absurd rfl (hreply hctx run)

theorem startRun_throughout (hf : Harmless cmd.id (f ()))
    (hrest : Throughout (Stoppable cmd.id) (f ())) :
    Throughout (Stoppable cmd.id)
      (.perform (.startRun ctx cmd) >>= fun r ↦ started deviceID ctx cmd r >>= f) := by
  refine ⟨fun canceled _ _ hexec ↦ startRun_spares (hexec ctx startRun_executing) hf, ?_⟩
  rintro (e | err | ⟨startedAt, chunks⟩)
  · exact e.elim
  · exact finish_throughout _ hf hrest
  · exact awaitExec_throughout chunks hf hrest

/-- A job of the command. -/
theorem runJob_throughout (hf : Harmless cmd.id (f ()))
    (hrest : Throughout (Stoppable cmd.id) (f ())) :
    Throughout (Stoppable cmd.id) (runJob deviceID ctx cmd >>= f) := by
  unfold runJob
  split
  · exact finish_throughout _ hf hrest
  split
  · exact finish_throughout _ hf hrest
  rw [runExec_eq, Prog.bind_assoc]
  simp only [Prog.bind_assoc]
  exact publishing_throughout ((only_perform _).mpr trivial) startRun_executing
    (fun _ _ hctx ↦ startRun_spares hctx hf) (startRun_throughout hf hrest)

theorem run_throughout (cmd : Command)
    (hworker : Throughout (Stoppable id) (worker deviceID turns)) :
    Throughout (Stoppable id) (run deviceID cmd >>= fun _ ↦ worker deviceID turns) := by
  by_cases hid : cmd.id = id
  · subst hid
    rw [run_bind_worker]
    refine ⟨fun canceled hstored _ _ ↦ absurd rfl hstored, ?_⟩
    rintro (e | ctx)
    · exact e.elim
    · refine runJob_throughout (rest_harmless turns cmd) ?_
      exact throughout_bind ((only_perform _).mpr trivial) (fun _ ↦ worker_harmless turns)
        fun _ ↦ hworker
  · exact throughout_bind (run_apart hid) (fun _ ↦ worker_harmless turns) fun _ ↦ hworker

/-- Wherever a worker is, a cancel of the command stops it. -/
theorem worker_throughout (turns : Nat) : Throughout (Stoppable id) (worker deviceID turns) := by
  induction turns with
  | zero => exact Harmless.stoppable fun _ ↦ trivial
  | succ turns ih =>
      refine ⟨(worker_harmless (turns + 1)).stoppable, ?_⟩
      rintro (e | _ | cmd)
      · exact e.elim
      · exact ih
      · exact run_throughout cmd ih

end Worker

/-! ## The invariant -/

theorem getD_eq_true {l : List Bool} {n : Nat} : l.getD n false = true ↔ l[n]? = some true := by
  rw [List.getD_eq_getElem?_getD]
  cases l[n]? <;> simp

/-- A context that is canceled stays so. -/
theorem serve_contexts {β : Type} (op : AgentOp β) {s : Dispatcher} {ctx : Nat}
    (h : s.contexts.getD ctx false = true) : (s.serve op).2.contexts.getD ctx false = true := by
  cases op with
  | enqueue cmd =>
      rw [Dispatcher.serve]
      split <;> exact h
  | dequeue =>
      rw [Dispatcher.serve]
      split <;> exact h
  | storeRunning id =>
      rw [getD_eq_true] at h ⊢
      show (s.contexts ++ [false])[ctx]? = some true
      rwa [List.getElem?_append_left (List.getElem?_eq_some_iff.mp h).1]
  | cancelRunning id =>
      rw [getD_eq_true] at h ⊢
      rw [Dispatcher.serve]
      split
      · exact h
      · rename_i ctx' _
        show (s.contexts.set ctx' true)[ctx]? = some true
        rw [List.getElem?_set]
        split
        · rename_i heq
          subst heq
          rw [if_pos (List.getElem?_eq_some_iff.mp h).1]
        · exact h
  | _ => exact h

section Run

variable {ι : Type} {tasks : ι → Task} {c d : AgentPool ι} {id : String} {canceled : Option Nat}

/-- The dispatcher after the cancel of a command. -/
structure Canceled (tasks : ι → Task) (c : AgentPool ι) (id : String) (canceled : Option Nat)
    (d : AgentPool ι) : Prop where
  queue : id ∉ d.shared.queue.map (·.id)
  context : ∀ ctx, some ctx = canceled → d.shared.contexts.getD ctx false = true
  workers : ∀ j turns, tasks j = .worker turns →
    Always (Heeds canceled id) (Spares canceled id (Exited id (c.thread j))) (d.thread j)

/-- The replies after the cancel. -/
theorem Canceled.heeds (h : Canceled tasks c id canceled d) {β : Type} (op : AgentOp β) :
    Heeds canceled id β op (.ok (d.shared.serve op).1) := by
  cases op with
  | dequeue =>
      intro cmd hcmd hid
      have hqueue := h.queue
      rw [Dispatcher.serve] at hcmd
      cases hq : d.shared.queue with
      | nil =>
          rw [hq] at hcmd
          cases hcmd
      | cons cmd' queue =>
          rw [hq] at hcmd hqueue
          cases hcmd
          exact hqueue (List.mem_map.mpr ⟨cmd, List.mem_cons_self, hid⟩)
  | startRun ctx cmd =>
      intro hctx started hstarted
      have hcanceled := h.context ctx hctx
      rw [Dispatcher.serve, Dispatcher.startShell] at hstarted
      split at hstarted
      · cases hstarted
      · rw [if_pos hcanceled] at hstarted
        cases hstarted
  | endRun ctx id' startedAt =>
      intro hctx res hres
      obtain rfl := Except.ok.inj hres
      rw [Dispatcher.serve, h.context ctx hctx]
      cases htimeout : (d.shared.outcome ctx).timedOut
      · exact .inr (by simp [Dispatcher.execResult, htimeout])
      · exact .inl htimeout
  | _ => trivial

/-- Nothing but a handler puts a command into the queue. -/
theorem serve_not_queued {β : Type} {op : AgentOp β} {s : Dispatcher} (h : ¬ Queues id β op)
    (hqueue : id ∉ s.queue.map (·.id)) : id ∉ (s.serve op).2.queue.map (·.id) := by
  cases op with
  | enqueue cmd =>
      rw [Dispatcher.serve]
      split
      · rw [List.map_append, List.mem_append, not_or]
        refine ⟨hqueue, fun hmem ↦ h ?_⟩
        exact (List.mem_singleton.mp hmem).symm
      · exact hqueue
  | dequeue =>
      rw [Dispatcher.serve]
      split
      · exact hqueue
      · rename_i cmd queue hq
        rw [hq] at hqueue
        exact fun hmem ↦ hqueue (List.mem_cons_of_mem _ hmem)
  | cancelRunning id' =>
      rw [Dispatcher.serve]
      split <;> exact hqueue
  | _ => exact hqueue

variable [DecidableEq ι]

theorem Canceled.step (h : Canceled tasks c id canceled d) {d' : AgentPool ι}
    {l : Event ι Empty Nat} (hg : NotQueued id d l) (hs : agentStep d l = some d') :
    Canceled tasks c id canceled d' := by
  cases l with
  | env ms =>
      obtain rfl := Pool.step_env hs
      exact ⟨h.queue, h.context, h.workers⟩
  | run i f =>
      obtain ⟨β, op, k, hi, hshared, hself, hother⟩ := agentStep_run hs
      refine ⟨?_, fun ctx hctx ↦ ?_, fun j turns hj ↦ ?_⟩
      · rw [hshared]
        refine serve_not_queued ?_ h.queue
        rw [NotQueued, hi, atRequest_call] at hg
        exact hg
      · rw [hshared]
        exact serve_contexts op (h.context ctx hctx)
      · have hworker := h.workers j turns hj
        by_cases hji : j = i
        · subst hji
          rw [hi, always_call] at hworker
          rw [hself]
          exact hworker.2 _ (h.heeds op)
        · rw [hother j hji]
          exact hworker

variable {cfg : Config} {clock : Int} {outcome : Nat → Outcome}
  {onUpdateGroups : List String → GroupUpdate}

/-- Wherever a run has come to, a cancel stops the workers. -/
theorem workers_stoppable
    (hc : Reach agentStep (fun _ _ ↦ True) (start cfg tasks clock outcome onUpdateGroups) c)
    (id : String) {j : ι} {turns : Nat} (hj : tasks j = .worker turns) :
    Throughout (Stoppable id) (c.thread j) := by
  refine hc.invariant (I := fun c ↦ Throughout (Stoppable id) (c.thread j)) ?_ ?_
  · show Throughout (Stoppable id) ((tasks j).program cfg)
    rw [hj]
    exact worker_throughout turns
  · intro s l t h _ hs
    cases l with
    | env ms =>
        obtain rfl := Pool.step_env hs
        exact h
    | run i f =>
        obtain ⟨β, op, k, hi, -, hself, hother⟩ := agentStep_run hs
        by_cases hji : j = i
        · subst hji
          rw [hi] at h
          rw [hself]
          exact h.2 _
        · rwa [hother j hji]

/-- The contexts in the map have been made. -/
theorem running_made
    (hc : Reach agentStep (fun _ _ ↦ True) (start cfg tasks clock outcome onUpdateGroups) c)
    {ctx : Nat} (hctx : c.shared.running.find? id = some ctx) :
    ctx < c.shared.contexts.length := by
  refine hc.invariant (I := fun c ↦ ∀ id ctx, c.shared.running.find? id = some ctx →
    ctx < c.shared.contexts.length) ?_ ?_ id ctx hctx
  · intro id ctx h
    cases h
  · intro s l t h _ hs
    cases l with
    | env ms =>
        obtain rfl := Pool.step_env hs
        exact h
    | run i f =>
        obtain ⟨β, op, k, -, hshared, -, -⟩ := agentStep_run hs
        rw [hshared]
        cases op with
        | storeRunning id' =>
            intro id ctx hfind
            rw [Dispatcher.serve, Table.find?_put] at hfind
            show ctx < (s.shared.contexts ++ [false]).length
            rw [List.length_append, List.length_singleton]
            split at hfind
            · cases hfind
              exact Nat.lt_succ_self _
            · exact Nat.lt_succ_of_lt (h id ctx hfind)
        | deleteRunning id' =>
            intro id ctx hfind
            rw [Dispatcher.serve, Table.find?_delete] at hfind
            split at hfind
            · cases hfind
            · exact h id ctx hfind
        | cancelRunning id' =>
            rw [Dispatcher.serve]
            split
            · exact h
            · intro id ctx hfind
              show ctx < (s.shared.contexts.set _ true).length
              rw [List.length_set]
              exact h id ctx hfind
        | enqueue cmd =>
            rw [Dispatcher.serve]
            split <;> exact h
        | dequeue =>
            rw [Dispatcher.serve]
            split <;> exact h
        | _ => exact h

/-- A cancel of a command that it can reach. -/
theorem Canceled.of_cancel
    (hc : Reach agentStep (fun _ _ ↦ True) (start cfg tasks clock outcome onUpdateGroups) c)
    {i : ι} {f : Fate Empty} (hcancel : AtRequest (Cancels id) (c.thread i))
    (hreach : InReach c id) (hs : agentStep c (.run i f) = some d) :
    Canceled tasks c id (c.shared.running.find? id) d := by
  obtain ⟨β, op, k, hi, hshared, hself, hother⟩ := agentStep_run hs
  have hworkers : ∀ j turns, tasks j = .worker turns →
      Always (Heeds (c.shared.running.find? id) id)
        (Spares (c.shared.running.find? id) id (Exited id (c.thread j))) (c.thread j) := by
    intro j turns hj
    refine (workers_stoppable hc id hj).self _ (hreach.stored j) (hreach.process j) ?_
    exact fun ctx hexec ↦ (hreach.registered j ctx hexec).symm
  rw [hi] at hcancel
  cases op with
  | cancelRunning id' =>
      obtain rfl : id' = id := hcancel
      refine ⟨?_, fun ctx hctx ↦ ?_, fun j turns hj ↦ ?_⟩
      · rw [hshared]
        exact serve_not_queued (fun h ↦ h) hreach.dequeued
      · rw [hshared, Dispatcher.serve, ← hctx, getD_eq_true]
        show (c.shared.contexts.set ctx true)[ctx]? = some true
        rw [List.getElem?_set_self (running_made hc hctx.symm)]
      · have hworker := hworkers j turns hj
        by_cases hji : j = i
        · subst hji
          rw [hi, always_call] at hworker
          rw [hself, hi]
          exact hworker.2 _ trivial
        · rw [hother j hji]
          exact hworker
  | _ => exact hcancel.elim

end Run

/-- In every state of every run in which a cancel finds its command among the running ones,
whatever the workers and the handlers do afterwards: until the command is queued anew, no worker
starts it, and none completes it unless its process had exited. -/
theorem cancel_effective {ι : Type} [DecidableEq ι] (cfg : Config) (tasks : ι → Task) (clock : Int)
    (outcome : Nat → Outcome) (onUpdateGroups : List String → GroupUpdate) {c c' d : AgentPool ι}
    (hc : Reach agentStep (fun _ _ ↦ True) (start cfg tasks clock outcome onUpdateGroups) c)
    {id : String} {i : ι} {f : Fate Empty} (hcancel : AtRequest (Cancels id) (c.thread i))
    (hreach : InReach c id) (hs : agentStep c (.run i f) = some c')
    (hd : Reach agentStep (NotQueued id) c' d) {j : ι} {turns : Nat}
    (hj : tasks j = .worker turns) :
    ¬ AtRequest (StartsProcess d.shared id) (d.thread j) ∧
    (AtRequest (Completes id) (d.thread j) → Exited id (c.thread j)) := by
  have hinv : Canceled tasks c id (c.shared.running.find? id) d :=
    hd.invariant (.of_cancel hc hcancel hreach hs) fun _ _ _ h hg hs ↦ h.step hg hs
  have hworker := hinv.workers j turns hj
  cases hthread : d.thread j with
  | pure u => exact ⟨fun h ↦ h, fun h ↦ h.elim⟩
  | throw e => exact e.elim
  | call op k =>
      rw [hthread, always_call] at hworker
      refine ⟨fun hstart ↦ ?_, fun hcomplete ↦ ?_⟩
      · cases op with
        | startRun ctx cmd =>
            obtain ⟨hid, hok⟩ := hstart
            have hheeds := hinv.heeds (.startRun ctx cmd) (hworker.1 hid)
            rw [Dispatcher.serve] at hheeds
            cases hstarted : d.shared.startShell ctx with
            | error err =>
                rw [hstarted] at hok
                cases hok
            | ok started => exact hheeds started (congrArg Except.ok hstarted)
        | _ => exact hstart
      · cases op with
        | complete id' r => exact hworker.1 hcomplete.1 hcomplete.2
        | _ => exact hcomplete.elim

/-! ## A queued command -/

section Decidable

variable {id : String} {β : Type} (op : AgentOp β)

instance : Decidable (Cancels id β op) :=
  match op with
  | .cancelRunning id' => inferInstanceAs (Decidable (id' = id))
  | .now | .updateGroups _ | .add _ | .cachedResult _ | .remove _ | .complete .. | .enqueue _
  | .dequeue | .storeRunning _ | .deleteRunning _ | .startRun .. | .endRun .. | .publish _
      => isFalse fun h ↦ h

instance : Decidable (Queues id β op) :=
  match op with
  | .enqueue cmd => inferInstanceAs (Decidable (cmd.id = id))
  | .now | .updateGroups _ | .add _ | .cachedResult _ | .remove _ | .complete .. | .dequeue
  | .storeRunning _ | .deleteRunning _ | .cancelRunning _ | .startRun .. | .endRun ..
  | .publish _ => isFalse fun h ↦ h

instance (s : Dispatcher) : Decidable (StartsProcess s id β op) :=
  match op with
  | .startRun ctx cmd => inferInstanceAs
      (Decidable (cmd.id = id ∧ (s.startShell ctx).isOk = true))
  | .now | .updateGroups _ | .add _ | .cachedResult _ | .remove _ | .complete .. | .enqueue _
  | .dequeue | .storeRunning _ | .deleteRunning _ | .cancelRunning _ | .endRun .. | .publish _
      => isFalse fun h ↦ h

instance : Decidable (StoresExit id β op) :=
  match op with
  | .complete id' r => inferInstanceAs (Decidable (id' = id ∧ r.startedAt ≠ none))
  | .now | .updateGroups _ | .add _ | .cachedResult _ | .remove _ | .enqueue _ | .dequeue
  | .storeRunning _ | .deleteRunning _ | .cancelRunning _ | .startRun .. | .endRun ..
  | .publish _ => isFalse fun h ↦ h

instance {ι : Type} (c : AgentPool ι) (l : Event ι Empty Nat) : Decidable (NotQueued id c l) :=
  match l with
  | .run i _ => inferInstanceAs (Decidable (¬ AtRequest (Queues id) (c.thread i)))
  | .env _ => isTrue trivial

end Decidable

def cancelDate : Command := { v := 1, id := "cancel", type := "cancel", targetID := "cmd" }

/-- A command, a cancel of it, and a worker. -/
def canceledDate : Fin 3 → Task
  | 0 => .message (some dateCommand)
  | 1 => .message (some cancelDate)
  | 2 => .worker 1

def canceledDateStart : AgentPool (Fin 3) :=
  start smallConfig canceledDate 0 (fun _ ↦ {}) fun _ ↦ .unsupported

/-- The cancel of a command that is still queued does nothing: the worker starts the command after
it. -/
theorem cancel_queued : ¬ ∀ (cfg : Config) (tasks : Fin 3 → Task) (clock : Int)
    (outcome : Nat → Outcome) (onUpdateGroups : List String → GroupUpdate)
    (c c' d : AgentPool (Fin 3)) (id : String) (i j : Fin 3) (f : Fate Empty) (turns : Nat),
    Reach agentStep (fun _ _ ↦ True) (start cfg tasks clock outcome onUpdateGroups) c →
    Accepted tasks c id → AtRequest (Cancels id) (c.thread i) → agentStep c (.run i f) = some c' →
    Reach agentStep (NotQueued id) c' d → tasks j = .worker turns →
    ¬ AtRequest (StartsProcess d.shared id) (d.thread j) ∧
    (AtRequest (Completes id) (d.thread j) → Exited id (c.thread j)) := by
  intro hall
  obtain ⟨c, hc, hqueue, hcancel, hruns⟩ : ∃ c : AgentPool (Fin 3),
      Reach agentStep (fun _ _ ↦ True) canceledDateStart c ∧
      "cmd" ∈ c.shared.queue.map (·.id) ∧ AtRequest (Cancels "cmd") (c.thread 1) ∧
      ((agentStep c (.run 1 .served)).any fun c' ↦
        (exec agentStep (NotQueued "cmd") c' [.run 2 .served, .run 2 .served, .run 2 .served]).any
          fun d ↦ decide (AtRequest (StartsProcess d.shared "cmd") (d.thread 2))) = true :=
    Reach.exists_of_exec [.run 0 .served, .run 0 .served, .run 0 .served] (by decide)
  obtain ⟨c', hs, hstarts⟩ := (Option.any_eq_true ..).mp hruns
  obtain ⟨d, hd, hstart⟩ := Reach.exists_of_exec _ hstarts
  exact (hall smallConfig canceledDate 0 (fun _ ↦ {}) (fun _ ↦ .unsupported) c c' d "cmd" 1 2
    .served 1 hc (.inl hqueue) hcancel hs hd rfl).1 hstart

/-- The worker waits for the process of the command. -/
def runningDate : AgentPool (Fin 3) :=
  (exec agentStep (fun _ _ ↦ True) canceledDateStart
    [.run 0 .served, .run 0 .served, .run 0 .served, .run 2 .served, .run 2 .served,
      .run 2 .served, .run 2 .served]).get rfl

theorem runningDate_inReach : InReach runningDate "cmd" where
  dequeued := by decide
  stored i := by
    match i with
    | 0 | 1 | 2 => exact fun h ↦ h
  process i := by
    match i with
    | 0 | 1 | 2 => exact fun h ↦ h
  registered i ctx h := by
    match i, h with
    | 0, h => exact h.elim
    | 1, h =>
        rcases h with h | ⟨-, (e | u), h⟩
        · exact h.elim
        · exact e.elim
        · exact h.elim
    | 2, h =>
        rcases h with h | ⟨-, (e | res), h⟩
        · rw [← h.1]
          rfl
        · exact e.elim
        -- what is left is to store and publish the result, and to leave
        rcases h with h | ⟨-, (e | t), h | ⟨-, (e | u), h | ⟨-, (e | u), h | ⟨-, (e | u), h⟩⟩⟩⟩
        all_goals exact h.elim

/-- The process of a running command is canceled: the worker stores another result. -/
theorem cancel_effective_running : ∃ c' d : AgentPool (Fin 3),
    agentStep runningDate (.run 1 .served) = some c' ∧
    Reach agentStep (NotQueued "cmd") c' d ∧ AtRequest (StoresExit "cmd") (d.thread 2) ∧
    ¬ AtRequest (StartsProcess d.shared "cmd") (d.thread 2) ∧
    (AtRequest (Completes "cmd") (d.thread 2) → Exited "cmd" (runningDate.thread 2)) := by
  have hc : Reach agentStep (fun _ _ ↦ True) canceledDateStart runningDate :=
    Reach.start.of_exec (Option.some_get _).symm
  obtain ⟨d, hd, hstores⟩ : ∃ d : AgentPool (Fin 3), Reach agentStep (NotQueued "cmd")
      ((agentStep runningDate (.run 1 .served)).get rfl) d ∧
      AtRequest (StoresExit "cmd") (d.thread 2) :=
    Reach.exists_of_exec [.run 2 .served, .run 2 .served] (by decide)
  have hsome : (agentStep runningDate (.run 1 .served)).isSome = true := rfl
  have hs := (Option.some_get hsome).symm
  have hcancel : AtRequest (Cancels "cmd") (runningDate.thread 1) := rfl
  refine ⟨_, d, hs, hd, hstores, ?_⟩
  exact cancel_effective smallConfig canceledDate 0 (fun _ ↦ {}) (fun _ ↦ .unsupported) hc
    hcancel runningDate_inReach hs hd rfl

end Zenstier.Agent
