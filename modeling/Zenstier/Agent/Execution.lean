import Zenstier.Agent.Dispatcher

/-!
# At most one execution at a time

A command is *in flight* from when it is found new until the worker that runs it is done with
it.  The dispatcher relies on the dedupe cache to keep a duplicate of such a command out of
the queue.  The cache knows nothing of the queue: an entry that is pushed out, or that has
become too old, no longer holds a duplicate back.
-/

namespace Zenstier.Agent

open Store Concurrent Prog

/-! ## Where a command can be -/

/-- The request may hand a command to the task: it is found new, or taken from the queue. -/
def Takes : ∀ β : Type, AgentOp β → Prop
  | _, .add _ | _, .dequeue => True
  | _, _ => False

/-- The request is the last one of a run of the command. -/
def EndsRun (id : String) : ∀ β : Type, AgentOp β → Prop
  | _, .deleteRunning id' => id' = id
  | _, _ => False

/-- The task lets go of the command: it queues it, or is done with it. -/
def LetsGo (id : String) : ∀ β : Type, AgentOp β → Prop
  | _, .enqueue cmd => cmd.id = id
  | _, .deleteRunning id' => id' = id
  | _, _ => False

/-- The task is in a run of the command. -/
def Running (id : String) (p : AgentM Unit) : Prop := Ahead Takes (AtRequest (EndsRun id)) p

/-- The task has the command in hand: it is about to queue it, or in a run of it. -/
def Carries (id : String) (p : AgentM Unit) : Prop := Ahead Takes (AtRequest (LetsGo id)) p

theorem Running.carries {id : String} {p : AgentM Unit} (h : Running id p) : Carries id p := by
  refine Ahead.mono (fun _ _ h ↦ h) ?_ h
  intro q hq
  cases q with
  | pure u => exact hq
  | throw e => exact hq
  | call op k => cases op <;> first | exact hq | exact False.elim hq

theorem carries_call {id : String} {β : Type} (op : AgentOp β)
    (k : Except Empty β → AgentM Unit) :
    Carries id (.call op k) ↔ LetsGo id β op ∨ ¬ Takes β op ∧ ∃ r, Carries id (k r) :=
  ahead_call op k

/-- The command is in the queue, or in the hands of a task. -/
def InFlight {ι : Type} (c : AgentPool ι) (id : String) : Prop :=
  id ∈ c.shared.queue.map (·.id) ∨ ∃ i, Carries id (c.thread i)

/-! ## What the tasks do -/

/-- A task has only those commands in hand that it has found new or taken from the queue, and
only until it lets go of them. -/
def HandlesTaken : ∀ β : Type, AgentOp β → (Except Empty β → AgentM Unit) → Prop
  | _, .add id, k => ∀ r id', Carries id' (k r) → r = .ok true ∧ id' = id
  | _, .dequeue, k => ∀ r id, Carries id (k r) → ∃ cmd, r = .ok (some cmd) ∧ cmd.id = id
  | _, .enqueue _, k | _, .deleteRunning _, k => ∀ r id, ¬ Carries id (k r)
  | _, _, _ => True

/-- The requests that neither take a command nor let go of one. -/
def Neutral : ∀ β : Type, AgentOp β → Prop
  | _, .add _ | _, .dequeue | _, .enqueue _ | _, .deleteRunning _ => False
  | _, _ => True

theorem handlesTaken_of_neutral (β : Type) (op : AgentOp β) (k : Except Empty β → AgentM Unit)
    (h : Neutral β op) : HandlesTaken β op k := by
  cases op <;> first | exact h.elim | trivial

theorem not_letsGo_of_neutral {id : String} (β : Type) (op : AgentOp β) (h : Neutral β op) :
    ¬ LetsGo id β op := by
  cases op <;> first | exact h.elim | exact fun h ↦ h

/-- They leave the queue alone. -/
theorem serve_queue {β : Type} {op : AgentOp β} (h : Neutral β op) {s : Dispatcher} :
    (s.serve op).2.queue = s.queue := by
  cases op with
  | add => exact h.elim
  | dequeue => exact h.elim
  | enqueue => exact h.elim
  | cancelRunning id =>
      rw [Dispatcher.serve]
      split <;> rfl
  | _ => rfl

/-- No reply is excluded. -/
abbrev AnyReply : ∀ β : Type, AgentOp β → Except Empty β → Prop := fun _ _ _ ↦ True

/-- A task that does nothing to the commands in flight. -/
theorem handlesTaken_of_only {p : AgentM Unit} (h : Only Neutral p) :
    Always AnyReply HandlesTaken p := Always.of_only h handlesTaken_of_neutral

theorem not_carries_of_only {p : AgentM Unit} (h : Only Neutral p) (id : String) :
    ¬ Carries id p := Only.not_ahead not_letsGo_of_neutral h

section Handler

variable {deviceID : String}

theorem reject_neutral (id : String) (code : ErrorCode) (message : String) :
    Only Neutral (reject deviceID id code message) := reject_only (fun _ ↦ trivial) ..

theorem expired_neutral (cmd : Command) : Only Neutral (expired cmd) := expired_only trivial cmd

theorem cancel_neutral (id : String) : Only Neutral (.perform (.cancelRunning id) : AgentM Unit) :=
  (only_perform _).mpr trivial

theorem handleUpdateGroups_neutral (cmd : Command) :
    Only Neutral (handleUpdateGroups deviceID cmd) :=
  handleUpdateGroups_only (fun _ ↦ trivial) (fun _ _ ↦ trivial) (fun _ ↦ trivial) cmd

theorem replay_neutral (cmd : Command) : Only Neutral (replay deviceID cmd) :=
  replay_only (fun _ ↦ trivial) (fun _ ↦ trivial) cmd

/-- A command that is found new is queued, or given up. -/
theorem enqueue_handlesTaken (queueDepth maxConcurrent : Nat) (cmd : Command) :
    Always AnyReply HandlesTaken (enqueue deviceID queueDepth maxConcurrent cmd) := by
  refine ⟨?_, ?_⟩
  · rintro (e | queued) id
    · exact e.elim
    · exact not_carries_of_only (queued_only (fun _ ↦ trivial) (fun _ ↦ trivial) ..) id
  · rintro (e | queued) -
    · exact e.elim
    · exact handlesTaken_of_only (queued_only (fun _ ↦ trivial) (fun _ ↦ trivial) ..)

theorem enqueue_carries {queueDepth maxConcurrent : Nat} {cmd : Command} {id : String}
    (h : Carries id (enqueue deviceID queueDepth maxConcurrent cmd)) : id = cmd.id := by
  rcases (carries_call _ _).mp h with h | ⟨-, (e | queued), hr⟩
  · exact Eq.symm h
  · exact e.elim
  · refine absurd hr (not_carries_of_only ?_ id)
    exact queued_only (fun _ ↦ trivial) (fun _ ↦ trivial) ..

theorem enqueueOnce_handlesTaken (queueDepth maxConcurrent : Nat) (cmd : Command) :
    Always AnyReply HandlesTaken (enqueueOnce deviceID queueDepth maxConcurrent cmd) := by
  refine ⟨?_, ?_⟩
  · rintro (e | _ | _) id h
    · exact e.elim
    · exact absurd h (not_carries_of_only (replay_neutral cmd) id)
    · exact ⟨rfl, enqueue_carries h⟩
  · rintro (e | _ | _) -
    · exact e.elim
    · exact handlesTaken_of_only (replay_neutral cmd)
    · exact enqueue_handlesTaken ..

theorem handleCommand_handlesTaken (queueDepth maxConcurrent : Nat) (cmd : Command) :
    Always AnyReply HandlesTaken (handleCommand deviceID queueDepth maxConcurrent cmd) := by
  refine Always.bind (expired_neutral cmd) handlesTaken_of_neutral fun late ↦ ?_
  cases late with
  | true => exact handlesTaken_of_only (reject_neutral ..)
  | false =>
      rw [if_neg Bool.false_ne_true, handleLive]
      split
      · exact handlesTaken_of_only (cancel_neutral cmd.targetID)
      split
      · exact handlesTaken_of_only (handleUpdateGroups_neutral cmd)
      · exact enqueueOnce_handlesTaken ..

theorem not_carries_handleCommand (queueDepth maxConcurrent : Nat) (cmd : Command) (id : String) :
    ¬ Carries id (handleCommand deviceID queueDepth maxConcurrent cmd) := by
  refine not_ahead_bind (expired_neutral cmd) (fun β op k ↦ not_letsGo_of_neutral β op)
    (fun e ↦ e.elim) fun late ↦ ?_
  cases late with
  | true => exact not_carries_of_only (reject_neutral ..) id
  | false =>
      rw [if_neg Bool.false_ne_true, handleLive]
      split
      · exact not_carries_of_only (cancel_neutral cmd.targetID) id
      split
      · exact not_carries_of_only (handleUpdateGroups_neutral cmd) id
      · rintro (h | ⟨h, -⟩)
        · exact h
        · exact h trivial

/-- The handler of a message. -/
theorem handleMessage_handlesTaken (sha1 : List UInt8 → List UInt8) (queueDepth maxConcurrent : Nat)
    (payload : Option Command) :
    Always AnyReply HandlesTaken
      (handleMessage sha1 deviceID queueDepth maxConcurrent payload) ∧
    ∀ id, ¬ Carries id (handleMessage sha1 deviceID queueDepth maxConcurrent payload) := by
  refine handleMessage_cases (motive := fun p ↦ Always AnyReply HandlesTaken p ∧
    ∀ id, ¬ Carries id p) sha1 deviceID ⟨trivial, fun _ h ↦ h⟩ (fun cmd err ↦ ?_) (fun cmd ↦ ?_)
    payload
  · exact ⟨handlesTaken_of_only (reject_neutral ..), not_carries_of_only (reject_neutral ..)⟩
  · exact ⟨handleCommand_handlesTaken .., not_carries_handleCommand queueDepth maxConcurrent _⟩

end Handler

section Worker

variable {deviceID : String}

theorem runJob_neutral (ctx : Nat) (cmd : Command) : Only Neutral (runJob deviceID ctx cmd) :=
  runJob_only trivial (fun _ _ ↦ trivial) (fun _ ↦ trivial) (fun _ _ ↦ trivial) (fun _ ↦ trivial)
    ctx

theorem not_carries_worker (turns : Nat) (id : String) : ¬ Carries id (worker deviceID turns) := by
  cases turns with
  | zero => exact fun h ↦ h
  | succ turns =>
      rintro (h | ⟨h, -⟩)
      · exact h
      · exact h trivial

/-- The end of a run and what follows it. -/
theorem endRun_carries {turns : Nat} {cmdId id : String}
    (h : Carries id (.perform (.deleteRunning cmdId) >>= fun _ ↦ worker deviceID turns)) :
    id = cmdId := by
  rcases (carries_call _ _).mp h with h | ⟨-, (e | u), hr⟩
  · exact Eq.symm h
  · exact e.elim
  · exact absurd hr (not_carries_worker turns id)

/-- A worker has only the command in hand that it has taken. -/
theorem run_carries {turns : Nat} {cmd : Command} {id : String}
    (h : Carries id (run deviceID cmd >>= fun _ ↦ worker deviceID turns)) : cmd.id = id := by
  by_contra hne
  have hstore : Only Neutral (.perform (.storeRunning cmd.id) : AgentM Nat) :=
    (only_perform _).mpr trivial
  simp only [run, Prog.bind_assoc] at h
  refine not_ahead_bind hstore
    (fun β op k ↦ not_letsGo_of_neutral β op) (fun e ↦ e.elim) (fun ctx ↦ ?_) h
  refine not_ahead_bind (runJob_neutral ctx cmd) (fun β op k ↦ not_letsGo_of_neutral β op)
    (fun e ↦ e.elim) fun _ hrest ↦ hne (endRun_carries hrest).symm

theorem worker_handlesTaken (turns : Nat) :
    Always AnyReply HandlesTaken (worker deviceID turns) := by
  induction turns with
  | zero => trivial
  | succ turns ih =>
      refine ⟨?_, ?_⟩
      · rintro (e | _ | cmd) id h
        · exact e.elim
        · exact absurd h (not_carries_worker turns id)
        · exact ⟨cmd, rfl, run_carries h⟩
      · rintro (e | _ | cmd) -
        · exact e.elim
        · exact ih
        · show Always AnyReply HandlesTaken (run deviceID cmd >>= fun _ ↦ worker deviceID turns)
          rw [run, Prog.bind_assoc]
          refine Always.bind ((only_perform _).mpr trivial) handlesTaken_of_neutral fun ctx ↦ ?_
          rw [Prog.bind_assoc]
          refine Always.bind (runJob_neutral ctx cmd) handlesTaken_of_neutral fun _ ↦ ⟨?_, ?_⟩
          · rintro (e | u) id
            · exact e.elim
            · exact not_carries_worker turns id
          · rintro (e | u) -
            · exact e.elim
            · exact ih

end Worker

theorem program_handlesTaken (cfg : Config) (task : Task) :
    Always AnyReply HandlesTaken (task.program cfg) ∧ ∀ id, ¬ Carries id (task.program cfg) := by
  cases task with
  | message payload => exact handleMessage_handlesTaken ..
  | worker turns => exact ⟨worker_handlesTaken turns, not_carries_worker turns⟩

/-! ## Runs of the executor -/

/-- The request starts or ends a run of the executor for the command. -/
def Executes (id : String) : ∀ β : Type, AgentOp β → Prop
  | _, .startRun _ cmd => cmd.id = id
  | _, .endRun _ id' _ => id' = id
  | _, _ => False

/-- The executor runs a command only in a run of the command. -/
def ExecutesRunning : ∀ β : Type, AgentOp β → (Except Empty β → AgentM Unit) → Prop :=
  fun β op k ↦ ∀ id, Executes id β op → Running id (.call op k)

/-- The requests of a job. -/
def JobRequest (id : String) : ∀ β : Type, AgentOp β → Prop
  | _, .now | _, .complete .. | _, .publish _ => True
  | _, .startRun _ cmd => cmd.id = id
  | _, .endRun _ id' _ => id' = id
  | _, _ => False

section Executor

variable {deviceID : String}

theorem runJob_job (ctx : Nat) (cmd : Command) :
    Only (JobRequest cmd.id) (runJob deviceID ctx cmd) :=
  runJob_only trivial (fun _ _ ↦ trivial) (fun _ ↦ rfl) (fun _ _ ↦ rfl) (fun _ ↦ trivial) ctx

/-- A handler runs nothing. -/
theorem handleMessage_executesRunning (sha1 : List UInt8 → List UInt8)
    (queueDepth maxConcurrent : Nat) (payload : Option Command) :
    Always AnyReply ExecutesRunning
      (handleMessage sha1 deviceID queueDepth maxConcurrent payload) := by
  refine Always.of_only (P := fun β op ↦ ∀ id, ¬ Executes id β op) ?_
    fun β op k h id hid ↦ absurd hid (h id)
  refine handleMessage_cases sha1 deviceID (motive := Only fun β op ↦ ∀ id, ¬ Executes id β op)
    trivial (fun cmd err ↦ reject_only (fun _ _ h ↦ h) ..) (fun cmd ↦ ?_) payload
  refine Only.bind (expired_only (fun _ h ↦ h) _) fun late ↦ ?_
  split
  · exact reject_only (fun _ _ h ↦ h) ..
  unfold handleLive
  split
  · exact (only_perform _).mpr fun _ h ↦ h
  split
  · exact handleUpdateGroups_only (fun _ _ h ↦ h) (fun _ _ _ h ↦ h) (fun _ _ h ↦ h) _
  · refine Only.await (fun _ h ↦ h) fun first ↦ ?_
    split
    · exact Only.await (fun _ h ↦ h) fun queued ↦
        queued_only (fun _ _ h ↦ h) (fun _ _ h ↦ h) ..
    · exact replay_only (fun _ _ h ↦ h) (fun _ _ h ↦ h) _

theorem worker_executesRunning (turns : Nat) :
    Always AnyReply ExecutesRunning (worker deviceID turns) := by
  induction turns with
  | zero => trivial
  | succ turns ih =>
      refine ⟨fun _ h ↦ h.elim, ?_⟩
      rintro (e | _ | cmd) -
      · exact e.elim
      · exact ih
      · show Always AnyReply ExecutesRunning (run deviceID cmd >>= fun _ ↦ worker deviceID turns)
        rw [run, Prog.bind_assoc, perform_bind, always_call]
        refine ⟨fun _ h ↦ h.elim, ?_⟩
        rintro (e | ctx) -
        · exact e.elim
        rw [ofExcept_ok, Prog.pure_bind, Prog.bind_assoc]
        refine Always.bind_ahead (R := Takes) (T := AtRequest (EndsRun cmd.id))
          Empty.elim (runJob_job ctx cmd) ?_ (fun _ ↦ .inl rfl) ?_ fun _ ↦ ⟨fun _ h ↦ h.elim, ?_⟩
        · intro β op h
          cases op <;> first | exact h.elim | exact ⟨fun h ↦ h, ⟨default⟩⟩
        · intro β op k h hrunning id hid
          cases op with
          | startRun ctx' cmd' => exact Eq.trans (Eq.symm h) hid ▸ hrunning
          | endRun ctx' id' startedAt => exact Eq.trans (Eq.symm h) hid ▸ hrunning
          | _ => exact hid.elim
        · rintro (e | u) -
          · exact e.elim
          · exact ih

end Executor

/-! ## The invariant -/

section Run

variable {ι : Type}

/-- The request looks the command up in the dedupe cache. -/
def Adds (id : String) : ∀ β : Type, AgentOp β → Prop
  | _, .add id' => id' = id
  | _, _ => False

/-- A delivery of a command in flight finds the entry of the command, and finds it young
enough. -/
def FindsInFlight (c : AgentPool ι) : Event ι Empty Nat → Prop
  | .run i _ => ∀ id, AtRequest (Adds id) (c.thread i) → InFlight c id →
      ∃ e, (c.shared.seen.evict c.shared.clock).entry id = some e ∧
        c.shared.clock - e.seen < c.shared.seen.ttl
  | .env _ => True

/-- A command is in flight once. -/
structure OnceInFlight (c : AgentPool ι) : Prop where
  tasks : ∀ i, Always AnyReply HandlesTaken (c.thread i)
  queue : (c.shared.queue.map (·.id)).Nodup
  apart : ∀ i id, Carries id (c.thread i) → id ∉ c.shared.queue.map (·.id)
  single : ∀ i j id, Carries id (c.thread i) → Carries id (c.thread j) → i = j

variable {c d : AgentPool ι} {i : ι} {f : Fate Empty}

/-- A step that puts no command into the queue or into anyone's hands. -/
theorem OnceInFlight.calm (hc : OnceInFlight c)
    (htasks : ∀ i, Always AnyReply HandlesTaken (d.thread i))
    (hqueue : d.shared.queue = c.shared.queue)
    (hcarries : ∀ j id, Carries id (d.thread j) → Carries id (c.thread j)) : OnceInFlight d where
  tasks := htasks
  queue := by
    rw [hqueue]
    exact hc.queue
  apart j id h := by
    rw [hqueue]
    exact hc.apart j id (hcarries j id h)
  single j j' id h h' := hc.single j j' id (hcarries j id h) (hcarries j' id h')

/-- A step by which the task `i` gets hold of the command `id`, which nobody else has. -/
theorem OnceInFlight.take (hc : OnceInFlight c) (id : String)
    (htasks : ∀ i, Always AnyReply HandlesTaken (d.thread i))
    (hqueue : (d.shared.queue.map (·.id)).Nodup)
    (hsub : ∀ id', id' ∈ d.shared.queue.map (·.id) → id' ∈ c.shared.queue.map (·.id))
    (hnew : id ∉ d.shared.queue.map (·.id)) (hfree : ∀ j, j ≠ i → ¬ Carries id (c.thread j))
    (hcarries : ∀ j id', Carries id' (d.thread j) →
      j = i ∧ id' = id ∨ j ≠ i ∧ Carries id' (c.thread j)) : OnceInFlight d where
  tasks := htasks
  queue := hqueue
  apart j id' h := by
    rcases hcarries j id' h with ⟨-, rfl⟩ | ⟨-, h⟩
    · exact hnew
    · exact fun hmem ↦ hc.apart j id' h (hsub id' hmem)
  single j j' id' h h' := by
    rcases hcarries j id' h with ⟨rfl, rfl⟩ | ⟨hne, h⟩ <;>
      rcases hcarries j' id' h' with ⟨rfl, heq⟩ | ⟨hne', h'⟩
    · rfl
    · exact absurd h' (hfree j' hne')
    · exact absurd (heq ▸ h) (hfree j hne)
    · exact hc.single j j' id' h h'

/-- The task `i` has made a request, and goes on with what it has been answered. -/
structure Answered (c d : AgentPool ι) (i : ι) {β : Type} (op : AgentOp β)
    (k : Except Empty β → AgentM Unit) : Prop where
  request : c.thread i = .call op k
  handles : HandlesTaken β op k
  shared : d.shared = (c.shared.serve op).2
  tasks : ∀ j, Always AnyReply HandlesTaken (d.thread j)
  carries : ∀ j id, Carries id (d.thread j) →
    j = i ∧ Carries id (k (.ok (c.shared.serve op).1)) ∨ j ≠ i ∧ Carries id (c.thread j)

/-- A task that has nothing new in hand. -/
theorem OnceInFlight.keep {β : Type} {op : AgentOp β} {k : Except Empty β → AgentM Unit}
    (hc : OnceInFlight c) (h : Answered c d i op k) (hqueue : d.shared.queue = c.shared.queue)
    (hkept : ∀ id, Carries id (k (.ok (c.shared.serve op).1)) → Carries id (c.thread i)) :
    OnceInFlight d := by
  refine hc.calm h.tasks hqueue fun j id hid ↦ ?_
  rcases h.carries j id hid with ⟨rfl, hid⟩ | ⟨-, hid⟩
  · exact hkept id hid
  · exact hid

/-- A delivery takes its command in hand if nobody has it. -/
theorem OnceInFlight.add {id : String} {k : Except Empty Bool → AgentM Unit}
    (hc : OnceInFlight c) (hg : FindsInFlight c (.run i f)) (h : Answered c d i (.add id) k) :
    OnceInFlight d := by
  have hqueue : d.shared.queue = c.shared.queue := by
    rw [h.shared]
    rfl
  rcases Cache.add_cases c.shared.clock id c.shared.seen with ⟨hold, -⟩ | ⟨-, hexpired, -⟩
  · refine hc.keep h hqueue fun id' hid' ↦ ?_
    obtain ⟨hfirst, -⟩ := h.handles _ id' hid'
    exact absurd (Except.ok.inj hfirst) (by rw [Dispatcher.serve, hold]; decide)
  · have hfree : ¬ InFlight c id := by
      intro hflight
      obtain ⟨e, he, hyoung⟩ := hg id (by rw [h.request]; rfl) hflight
      have := hexpired e he
      omega
    refine hc.take (i := i) id h.tasks ?_ ?_ ?_ (fun j _ hj ↦ hfree (.inr ⟨j, hj⟩)) ?_
    · rw [hqueue]
      exact hc.queue
    · rw [hqueue]
      exact fun _ hmem ↦ hmem
    · rw [hqueue]
      exact fun hmem ↦ hfree (.inl hmem)
    · intro j id' hid'
      rcases h.carries j id' hid' with ⟨rfl, hid'⟩ | hid'
      · exact .inl ⟨rfl, (h.handles _ id' hid').2⟩
      · exact .inr hid'

/-- A worker takes the first command of the queue in hand. -/
theorem OnceInFlight.dequeue {k : Except Empty (Option Command) → AgentM Unit}
    (hc : OnceInFlight c) (h : Answered c d i .dequeue k) : OnceInFlight d := by
  cases hq : c.shared.queue with
  | nil =>
      have hserve : c.shared.serve .dequeue = (none, c.shared) := by
        rw [Dispatcher.serve, hq]
      refine hc.keep h (by rw [h.shared, hserve]) fun id hid ↦ ?_
      obtain ⟨cmd, hcmd, -⟩ := h.handles _ id hid
      rw [hserve] at hcmd
      cases hcmd
  | cons cmd queue =>
      have hserve : c.shared.serve .dequeue = (some cmd, { c.shared with queue }) := by
        rw [Dispatcher.serve, hq]
      have hqueue : d.shared.queue = queue := by rw [h.shared, hserve]
      have hnodup := hc.queue
      rw [hq, List.map_cons, List.nodup_cons] at hnodup
      refine hc.take (i := i) cmd.id h.tasks ?_ ?_ ?_ ?_ ?_
      · rw [hqueue]
        exact hnodup.2
      · rw [hqueue, hq, List.map_cons]
        exact fun _ hmem ↦ List.mem_cons_of_mem _ hmem
      · rw [hqueue]
        exact hnodup.1
      · intro j _ hj
        refine hc.apart j cmd.id hj ?_
        rw [hq, List.map_cons]
        exact List.mem_cons_self
      · intro j id' hid'
        rcases h.carries j id' hid' with ⟨rfl, hid'⟩ | hid'
        · obtain ⟨cmd', hcmd, rfl⟩ := h.handles _ id' hid'
          rw [hserve] at hcmd
          cases hcmd
          exact .inl ⟨rfl, rfl⟩
        · exact .inr hid'

/-- A command that is in hand goes into the queue, if there is room. -/
theorem OnceInFlight.enqueue {cmd : Command} {k : Except Empty Bool → AgentM Unit}
    (hc : OnceInFlight c) (h : Answered c d i (.enqueue cmd) k) : OnceInFlight d := by
  by_cases hroom : c.shared.queue.length < c.shared.queueDepth
  · have hserve : c.shared.serve (.enqueue cmd) =
        (true, { c.shared with queue := c.shared.queue ++ [cmd] }) := by
      rw [Dispatcher.serve, if_pos hroom]
    have hqueue : d.shared.queue.map (·.id) = c.shared.queue.map (·.id) ++ [cmd.id] := by
      rw [h.shared, hserve]
      exact List.map_append
    have hown : Carries cmd.id (c.thread i) := by
      rw [h.request]
      exact .inl rfl
    refine ⟨h.tasks, ?_, fun j id hid hmem ↦ ?_, fun j j' id hid hid' ↦ ?_⟩
    · rw [hqueue]
      refine List.nodup_append.mpr ⟨hc.queue, List.nodup_singleton _, ?_⟩
      intro id hmem id' hid'
      rw [List.mem_singleton] at hid'
      subst hid'
      exact ne_of_mem_of_not_mem hmem (hc.apart i _ hown)
    · rcases h.carries j id hid with ⟨-, hid⟩ | ⟨hj, hid⟩
      · exact h.handles _ id hid
      · rw [hqueue, List.mem_append, List.mem_singleton] at hmem
        rcases hmem with hmem | rfl
        · exact hc.apart j id hid hmem
        · exact hj (hc.single j i _ hid hown)
    · rcases h.carries j id hid with ⟨-, hid⟩ | ⟨-, hid⟩
      · exact absurd hid (h.handles _ id)
      rcases h.carries j' id hid' with ⟨-, hid'⟩ | ⟨-, hid'⟩
      · exact absurd hid' (h.handles _ id)
      exact hc.single j j' id hid hid'
  · refine hc.keep h ?_ fun id hid ↦ absurd hid (h.handles _ id)
    rw [h.shared, Dispatcher.serve, if_neg hroom]

variable [DecidableEq ι]

theorem OnceInFlight.answered (hc : OnceInFlight c) (hs : agentStep c (.run i f) = some d) :
    ∃ (β : Type) (op : AgentOp β) (k : Except Empty β → AgentM Unit), Answered c d i op k := by
  obtain ⟨β, op, k, hi, hshared, hself, hother⟩ := agentStep_run hs
  obtain ⟨hdisc, hnext⟩ : HandlesTaken β op k ∧
      ∀ r, AnyReply β op r → Always AnyReply HandlesTaken (k r) := by
    have := hc.tasks i
    rwa [hi, always_call] at this
  refine ⟨β, op, k, hi, hdisc, hshared, fun j ↦ ?_, fun j id h ↦ ?_⟩
  · by_cases hj : j = i
    · subst hj
      rw [hself]
      exact hnext _ trivial
    · rw [hother j hj]
      exact hc.tasks j
  · by_cases hj : j = i
    · subst hj
      rw [hself] at h
      exact .inl ⟨rfl, h⟩
    · rw [hother j hj] at h
      exact .inr ⟨hj, h⟩

theorem OnceInFlight.run (hc : OnceInFlight c) (hg : FindsInFlight c (.run i f))
    (hs : agentStep c (.run i f) = some d) : OnceInFlight d := by
  obtain ⟨β, op, k, h⟩ := hc.answered hs
  cases op with
  | add id => exact hc.add hg h
  | dequeue => exact hc.dequeue h
  | enqueue cmd => exact hc.enqueue h
  | deleteRunning id =>
      refine hc.keep h ?_ fun id' hid ↦ absurd hid (h.handles _ id')
      rw [h.shared]
      rfl
  | _ =>
      refine hc.keep h ?_ fun id' hid ↦ ?_
      · rw [h.shared]
        refine serve_queue ?_
        trivial
      · rw [h.request]
        exact (carries_call _ _).mpr (.inr ⟨fun hid ↦ hid, _, hid⟩)

theorem OnceInFlight.step (hc : OnceInFlight c) {l : Event ι Empty Nat} (hg : FindsInFlight c l)
    (hs : agentStep c l = some d) : OnceInFlight d := by
  cases l with
  | run i f => exact hc.run hg hs
  | env ms =>
      obtain rfl := Pool.step_env hs
      exact hc.calm hc.tasks rfl fun _ _ h ↦ h

end Run

theorem program_executesRunning (cfg : Config) (task : Task) :
    Always AnyReply ExecutesRunning (task.program cfg) := by
  cases task with
  | worker turns => exact worker_executesRunning turns
  | message payload => exact handleMessage_executesRunning ..

theorem OnceInFlight.start {ι : Type} (cfg : Config) (tasks : ι → Task) (clock : Int)
    (outcome : Nat → Outcome) (onUpdateGroups : List String → GroupUpdate) :
    OnceInFlight (start cfg tasks clock outcome onUpdateGroups) where
  tasks i := (program_handlesTaken cfg (tasks i)).1
  queue := List.nodup_nil
  apart i id h := absurd h ((program_handlesTaken cfg (tasks i)).2 id)
  single i _ id h := absurd h ((program_handlesTaken cfg (tasks i)).2 id)

/-- As long as every delivery of a command in flight finds the entry of the command, and finds
it young enough, no command is queued twice, queued while it runs, or run twice at a time. -/
theorem at_most_once_in_flight {ι : Type} [DecidableEq ι] (cfg : Config) (tasks : ι → Task)
    (clock : Int) (outcome : Nat → Outcome) (onUpdateGroups : List String → GroupUpdate)
    {c : AgentPool ι}
    (hc : Reach agentStep FindsInFlight (start cfg tasks clock outcome onUpdateGroups) c) :
    (c.shared.queue.map (·.id)).Nodup ∧
    (∀ i id, Running id (c.thread i) →
      id ∉ c.shared.queue.map (·.id) ∧ ∀ j, Running id (c.thread j) → j = i) ∧
    ∀ i id, AtRequest (Executes id) (c.thread i) → Running id (c.thread i) := by
  have hinv : OnceInFlight c ∧ ∀ i, Always AnyReply ExecutesRunning (c.thread i) := by
    refine hc.invariant (I := fun c ↦ OnceInFlight c ∧
      ∀ i, Always AnyReply ExecutesRunning (c.thread i))
      ⟨.start .., fun i ↦ program_executesRunning cfg (tasks i)⟩ ?_
    intro s l t hs hg hstep
    refine ⟨hs.1.step hg hstep, ?_⟩
    cases l with
    | env ms =>
        obtain rfl := Pool.step_env hstep
        exact hs.2
    | run i f =>
        obtain ⟨β, op, k, hi, rfl⟩ := Pool.step_run hstep
        have hthread := hs.2 i
        rw [hi, always_call] at hthread
        exact Pool.forall_resume hs.2 i f op k (hthread.2 _ trivial)
  refine ⟨hinv.1.queue, fun i id h ↦ ⟨hinv.1.apart i id h.carries,
    fun j hj ↦ hinv.1.single j i id hj.carries h.carries⟩, fun i id h ↦ ?_⟩
  have hthread := hinv.2 i
  cases hi : c.thread i with
  | pure u => simp [hi] at h
  | throw e => exact e.elim
  | call op k =>
      rw [hi, always_call] at hthread
      rw [hi, atRequest_call] at h
      exact hthread.1 id h

/-! ## Two deliveries of one command -/

instance (id : String) {β : Type} (op : AgentOp β) : Decidable (Executes id β op) := by
  cases op <;> unfold Executes <;> infer_instance

/-- The request adds an id that the cache knows. -/
def AddsKnown (s : Dispatcher) : ∀ β : Type, AgentOp β → Prop
  | _, .add id => ((s.seen.evict s.clock).entry id).any fun e ↦
      decide (s.clock - e.seen < s.seen.ttl)
  | _, _ => True

instance (s : Dispatcher) {β : Type} (op : AgentOp β) : Decidable (AddsKnown s β op) := by
  cases op <;> unfold AddsKnown <;> infer_instance

/-- Every delivery is of a command that the cache knows. -/
def Redelivers {ι : Type} (c : AgentPool ι) : Event ι Empty Nat → Prop
  | .run i _ => ¬ AtRequest (fun β op ↦ ¬ AddsKnown c.shared β op) (c.thread i)
  | .env _ => True

instance {ι : Type} (c : AgentPool ι) (l : Event ι Empty Nat) : Decidable (Redelivers c l) := by
  cases l <;> unfold Redelivers <;> infer_instance

theorem Redelivers.finds {ι : Type} {c : AgentPool ι} {i : ι} {f : Fate Empty} {id : String}
    (h : Redelivers c (.run i f)) (hid : AtRequest (Adds id) (c.thread i)) :
    ∃ e, (c.shared.seen.evict c.shared.clock).entry id = some e ∧
      c.shared.clock - e.seen < c.shared.seen.ttl := by
  cases hi : c.thread i with
  | pure u => simp [hi] at hid
  | throw e => exact e.elim
  | call op k =>
      rw [hi] at hid
      cases op with
      | add id' =>
          obtain rfl : id' = id := hid
          simp only [Redelivers, hi, atRequest_call, Decidable.not_not, AddsKnown] at h
          cases he : (c.shared.seen.evict c.shared.clock).entry id' with
          | none => simp [he] at h
          | some e => exact ⟨e, rfl, by simpa [he] using h⟩
      | _ => exact hid.elim

theorem Redelivers.findsInFlight {ι : Type} {c : AgentPool ι} {l : Event ι Empty Nat}
    (h : Redelivers c l) : FindsInFlight c l := by
  cases l with
  | env ms => trivial
  | run i f => exact fun id hid _ ↦ h.finds hid

/-- A command without an expiry. -/
def dateCommand : Command := { v := 1, id := "cmd", type := "exec", command := "date" }

/-- Two deliveries of one command, and two workers. -/
def twoDeliveries : Nat → Task
  | 0 | 2 => .message (some dateCommand)
  | _ => .worker 1

def smallConfig : Config where
  sha1 := id
  deviceID := "dev"

/-- The agent with these tasks, in which every shell succeeds. -/
def twoDeliveriesStart : AgentPool Nat :=
  start smallConfig twoDeliveries 0 (fun _ ↦ {}) fun _ ↦ .unsupported

/-- A duplicate that arrives while the command runs is not queued. -/
theorem at_most_once_in_flight_redelivered : ∃ c : AgentPool Nat,
    Reach agentStep FindsInFlight twoDeliveriesStart c ∧
    AtRequest (Executes "cmd") (c.thread 1) ∧ ∀ j, Running "cmd" (c.thread j) → j = 1 := by
  have hfirst : FindsInFlight twoDeliveriesStart (.run 0 .served) := by
    rintro id - (hmem | ⟨i, hi⟩)
    · cases hmem
    · exact absurd hi ((program_handlesTaken smallConfig (twoDeliveries i)).2 id)
  obtain ⟨c, hc, hexecutes⟩ : ∃ c : AgentPool Nat,
      Reach agentStep Redelivers ((agentStep twoDeliveriesStart (.run 0 .served)).get rfl) c ∧
      AtRequest (Executes "cmd") (c.thread 1) :=
    Reach.exists_of_exec [.run 0 .served, .run 0 .served, .run 1 .served, .run 1 .served,
      .run 1 .served, .run 1 .served, .env 60000, .run 2 .served, .run 2 .served,
      .run 2 .served] (by decide)
  have hreach : Reach agentStep FindsInFlight twoDeliveriesStart c :=
    (Reach.start.next _ hfirst (Option.some_get rfl).symm).extend hc
      fun _ _ ↦ Redelivers.findsInFlight
  obtain ⟨-, honce, hrunning⟩ := at_most_once_in_flight smallConfig twoDeliveries 0 (fun _ ↦ {})
    (fun _ ↦ .unsupported) hreach
  exact ⟨c, hreach, hexecutes, (honce 1 "cmd" (hrunning 1 "cmd" hexecutes)).2⟩

/-- After an hour, the cache has forgotten a command that is still running, and a duplicate
of it is run at the same time. -/
theorem run_twice_in_flight : ∃ c : AgentPool Nat,
    Reach agentStep (fun _ _ ↦ True) twoDeliveriesStart c ∧
    AtRequest (Executes "cmd") (c.thread 1) ∧ AtRequest (Executes "cmd") (c.thread 3) := by
  refine Reach.exists_of_exec [
    -- the first delivery is queued, taken and started
    .run 0 .served, .run 0 .served, .run 0 .served,
    .run 1 .served, .run 1 .served, .run 1 .served, .run 1 .served,
    -- a little more than an hour later, so is the second
    .env 3600001, .run 2 .served, .run 2 .served, .run 2 .served,
    .run 3 .served, .run 3 .served, .run 3 .served, .run 3 .served] ?_
  decide

end Zenstier.Agent
