import Zenstier.Agent.Execution

/-!
# Commands that expire in the queue

Whether a command has expired is checked when it is delivered.  It may then wait, in the
queue and before that in its handler, for as long as the workers are busy with other
commands, and nothing looks at its expiry again before its shell is started.
-/

namespace Zenstier.Agent

open Store Concurrent Prog

/-! ## Waiting -/

/-- The request reads the clock, or takes a job from the queue. -/
def ReadsClockOrQueue : ∀ β : Type, AgentOp β → Prop
  | _, .now | _, .dequeue => True
  | _, _ => False

/-- The request queues or starts a command that expires at `e`. -/
def Awaits (e : Int) : ∀ β : Type, AgentOp β → Prop
  | _, .enqueue cmd => cmd.expiresAt = some e
  | _, .startRun _ cmd => cmd.expiresAt = some e
  | _, _ => False

/-- The task is to queue or start a command that expires at `e`, and has made its check of the
expiry or taken the command from the queue. -/
def Waits (e : Int) (p : AgentM Unit) : Prop := Ahead ReadsClockOrQueue (AtRequest (Awaits e)) p

theorem waits_call {e : Int} {β : Type} (op : AgentOp β) (k : Except Empty β → AgentM Unit) :
    Waits e (.call op k) ↔ Awaits e β op ∨ ¬ ReadsClockOrQueue β op ∧ ∃ r, Waits e (k r) :=
  ahead_call op k

/-- A command that expires at `e` is waiting, in the queue or in the hands of a task. -/
def Waiting {ι : Type} (c : AgentPool ι) (e : Int) : Prop :=
  (∃ cmd ∈ c.shared.queue, cmd.expiresAt = some e) ∨ ∃ i, Waits e (c.thread i)

/-! ## What the tasks do -/

/-- A task waits with a command only if it has checked the expiry of the command against the
clock, or taken the command from the queue. -/
def ChecksExpiry : ∀ β : Type, AgentOp β → (Except Empty β → AgentM Unit) → Prop
  | _, .now, k => ∀ t e, Waits e (k (.ok t)) → t ≤ e
  | _, .dequeue, k => ∀ r e, Waits e (k (.ok r)) → ∃ cmd, r = some cmd ∧ cmd.expiresAt = some e
  | _, _, _ => True

/-- The requests of a task that does not wait: it neither queues nor starts a command. -/
def Idle : ∀ β : Type, AgentOp β → Prop
  | _, .enqueue _ | _, .startRun .. | _, .dequeue => False
  | _, _ => True

theorem not_awaits_of_idle {e : Int} (β : Type) (op : AgentOp β) (h : Idle β op) :
    ¬ Awaits e β op := by
  cases op <;> first | exact h.elim | exact fun h ↦ h

section Parts

variable {p : AgentM Unit} {f : Unit → AgentM Unit}

/-- What comes before a task that does not wait. -/
theorem not_waits_bind {α : Type} {p : AgentM α} {f : α → AgentM Unit} (hp : Only Idle p)
    (hf : ∀ a e, ¬ Waits e (f a)) (e : Int) : ¬ Waits e (p >>= f) :=
  not_ahead_bind hp (fun β op _ ↦ not_awaits_of_idle β op) (fun e ↦ e.elim) fun a ↦ hf a e

theorem not_waits_of_idle (hp : Only Idle p) (e : Int) : ¬ Waits e p :=
  Only.not_ahead not_awaits_of_idle hp

theorem checksExpiry_bind {α : Type} {p : AgentM α} {f : α → AgentM Unit} (hp : Only Idle p)
    (hf : ∀ a e, ¬ Waits e (f a)) (hf' : ∀ a, Always AnyReply ChecksExpiry (f a)) :
    Always AnyReply ChecksExpiry (p >>= f) := by
  induction p with
  | pure a => exact hf' a
  | throw e => exact e.elim
  | call op k ih =>
      rw [only_call] at hp
      refine ⟨?_, fun r _ ↦ ih r (hp.2 r)⟩
      have hafter : ∀ r e, ¬ Waits e (k r >>= f) := fun r ↦ not_waits_bind (hp.2 r) hf
      cases op with
      | now => exact fun t e h ↦ absurd h (hafter _ e)
      | dequeue => exact hp.1.elim
      | _ => trivial

theorem checksExpiry_of_idle (hp : Only Idle p) : Always AnyReply ChecksExpiry p := by
  induction p with
  | pure u => trivial
  | throw e => exact e.elim
  | call op k ih =>
      rw [only_call] at hp
      refine ⟨?_, fun r _ ↦ ih r (hp.2 r)⟩
      cases op with
      | now => exact fun t e h ↦ absurd h (not_waits_of_idle (hp.2 _) e)
      | dequeue => exact hp.1.elim
      | _ => trivial

end Parts

section Handler

variable {deviceID : String}

theorem reject_idle (id : String) (code : ErrorCode) (message : String) :
    Only Idle (reject deviceID id code message) := reject_only (fun _ ↦ trivial) ..

/-- The command that a handler queues is the one it handles. -/
theorem handleLive_waits {queueDepth maxConcurrent : Nat} {cmd : Command} {e : Int}
    (h : Waits e (handleLive deviceID queueDepth maxConcurrent cmd)) : cmd.expiresAt = some e := by
  by_contra hne
  have honly : Only (fun β op ↦ ¬ Awaits e β op)
      (handleLive deviceID queueDepth maxConcurrent cmd) := by
    unfold handleLive
    split
    · exact (only_perform _).mpr fun h ↦ h
    split
    · exact handleUpdateGroups_only (fun _ h ↦ h) (fun _ _ h ↦ h) (fun _ h ↦ h) cmd
    · refine Only.await (fun h ↦ h) fun first ↦ ?_
      split
      · exact Only.await hne fun queued ↦ queued_only (fun _ h ↦ h) (fun _ h ↦ h) ..
      · exact replay_only (fun _ h ↦ h) (fun _ h ↦ h) cmd
  exact Only.not_ahead (fun _ _ h ↦ h) honly h

theorem handleLive_checksExpiry (queueDepth maxConcurrent : Nat) (cmd : Command) :
    Always AnyReply ChecksExpiry (handleLive deviceID queueDepth maxConcurrent cmd) := by
  unfold handleLive
  split
  · exact ⟨trivial, fun r _ ↦ by cases r <;> trivial⟩
  split
  · exact checksExpiry_of_idle
      (handleUpdateGroups_only (fun _ ↦ trivial) (fun _ _ ↦ trivial) (fun _ ↦ trivial) cmd)
  refine ⟨trivial, ?_⟩
  rintro (e | _ | _) -
  · exact e.elim
  · exact checksExpiry_of_idle (replay_only (fun _ ↦ trivial) (fun _ ↦ trivial) cmd)
  · refine ⟨trivial, ?_⟩
    rintro (e | queued) -
    · exact e.elim
    · exact checksExpiry_of_idle (queued_only (fun _ ↦ trivial) (fun _ ↦ trivial) ..)

theorem handleCommand_checksExpiry (queueDepth maxConcurrent : Nat) (cmd : Command) :
    Always AnyReply ChecksExpiry (handleCommand deviceID queueDepth maxConcurrent cmd) ∧
    ∀ e, ¬ Waits e (handleCommand deviceID queueDepth maxConcurrent cmd) := by
  cases hexpiry : cmd.expiresAt with
  | none =>
      rw [handleCommand_unexpiring deviceID hexpiry]
      refine ⟨handleLive_checksExpiry .., fun e h ↦ ?_⟩
      have := handleLive_waits h
      simp [hexpiry] at this
  | some expiresAt =>
      rw [handleCommand_expiring deviceID hexpiry]
      refine ⟨⟨fun t e h ↦ ?_, ?_⟩, fun e h ↦ ?_⟩
      · simp only [ofExcept_ok, Prog.pure_bind] at h
        split at h
        · exact absurd h (not_waits_of_idle (reject_idle ..) e)
        · have := handleLive_waits h
          rw [hexpiry] at this
          cases this
          omega
      · rintro (e | t) -
        · exact e.elim
        simp only [ofExcept_ok, Prog.pure_bind]
        split
        · exact checksExpiry_of_idle (reject_idle ..)
        · exact handleLive_checksExpiry ..
      · rcases (waits_call _ _).mp h with h | ⟨h, -⟩
        · exact h
        · exact h trivial

theorem handleMessage_checksExpiry (sha1 : List UInt8 → List UInt8) (queueDepth maxConcurrent : Nat)
    (payload : Option Command) :
    Always AnyReply ChecksExpiry
      (handleMessage sha1 deviceID queueDepth maxConcurrent payload) ∧
    ∀ e, ¬ Waits e (handleMessage sha1 deviceID queueDepth maxConcurrent payload) := by
  refine handleMessage_cases (motive := fun p ↦ Always AnyReply ChecksExpiry p ∧
    ∀ e, ¬ Waits e p) sha1 deviceID ⟨trivial, fun _ h ↦ h⟩ (fun cmd err ↦ ?_) (fun cmd ↦ ?_) payload
  · exact ⟨checksExpiry_of_idle (reject_idle ..), not_waits_of_idle (reject_idle ..)⟩
  · exact handleCommand_checksExpiry ..

end Handler

section Worker

variable {deviceID : String}

theorem finish_idle (r : Result) : Only Idle (finish r) := finish_only r trivial trivial

theorem not_waits_worker (turns : Nat) (e : Int) : ¬ Waits e (worker deviceID turns) := by
  cases turns with
  | zero => exact fun h ↦ h
  | succ turns =>
      rintro (h | ⟨h, -⟩)
      · exact h
      · exact h trivial

theorem awaitExec_idle (ctx : Nat) (cmd : Command) (startedAt : Int)
    (chunks : List (OutputStream × String)) :
    Only Idle (awaitExec deviceID ctx cmd startedAt chunks) :=
  awaitExec_only trivial (fun _ _ ↦ trivial) (fun _ _ ↦ trivial) (fun _ ↦ trivial) ..

/-- The command that a worker starts is the one it has taken. -/
theorem runJob_waits {ctx : Nat} {cmd : Command} {e : Int} {f : Unit → AgentM Unit}
    (hf : ∀ u e, ¬ Waits e (f u)) (h : Waits e (runJob deviceID ctx cmd >>= f)) :
    cmd.expiresAt = some e := by
  by_contra hne
  refine not_ahead_bind (P := fun β op ↦ ¬ Awaits e β op) ?_ (fun _ _ _ h ↦ h) (fun e ↦ e.elim)
    (fun u ↦ hf u e) h
  exact runJob_only (fun h ↦ h) (fun _ _ h ↦ h) (fun _ ↦ hne) (fun _ _ h ↦ h) (fun _ h ↦ h) ctx

theorem runJob_checksExpiry (ctx : Nat) (cmd : Command) {f : Unit → AgentM Unit}
    (hf : ∀ u e, ¬ Waits e (f u)) (hf' : ∀ u, Always AnyReply ChecksExpiry (f u)) :
    Always AnyReply ChecksExpiry (runJob deviceID ctx cmd >>= f) := by
  unfold runJob
  split
  · exact checksExpiry_bind (finish_idle _) hf hf'
  split
  · exact checksExpiry_bind (finish_idle _) hf hf'
  refine ⟨trivial, ?_⟩
  rintro (e | u) -
  · exact e.elim
  refine ⟨trivial, ?_⟩
  rintro (e | _ | run) -
  · exact e.elim
  · exact checksExpiry_bind (finish_idle _) hf hf'
  · exact checksExpiry_bind (awaitExec_idle ..) hf hf'

theorem worker_checksExpiry (turns : Nat) :
    Always AnyReply ChecksExpiry (worker deviceID turns) := by
  induction turns with
  | zero => trivial
  | succ turns ih =>
      have hdelete : ∀ cmd : Command, Only Idle (.perform (.deleteRunning cmd.id) : AgentM Unit) :=
        fun _ ↦ (only_perform _).mpr trivial
      have hend : ∀ (cmd : Command) (u : Unit) (e : Int), ¬ Waits e
          (.perform (.deleteRunning cmd.id) >>= fun _ ↦ worker deviceID turns) := fun cmd _ e ↦
        not_waits_bind (hdelete cmd) (fun _ ↦ not_waits_worker turns) e
      have hend' : ∀ (cmd : Command) (u : Unit), Always AnyReply ChecksExpiry
          (.perform (.deleteRunning cmd.id) >>= fun _ ↦ worker deviceID turns) := fun cmd _ ↦
        checksExpiry_bind (hdelete cmd) (fun _ ↦ not_waits_worker turns) fun _ ↦ ih
      have hstore : ∀ cmd : Command, Only Idle (.perform (.storeRunning cmd.id) : AgentM Nat) :=
        fun _ ↦ (only_perform _).mpr trivial
      refine ⟨?_, ?_⟩
      · rintro (_ | cmd) e h
        · exact absurd h (not_waits_worker turns e)
        · refine ⟨cmd, rfl, ?_⟩
          by_contra hne
          have h : Waits e (run deviceID cmd >>= fun _ ↦ worker deviceID turns) := h
          simp only [run, Prog.bind_assoc] at h
          refine not_ahead_bind (hstore cmd) (fun β op _ ↦ not_awaits_of_idle β op)
            (fun e ↦ e.elim) (fun ctx h ↦ hne (runJob_waits (hend cmd) h)) h
      · rintro (e | _ | cmd) -
        · exact e.elim
        · exact ih
        · show Always AnyReply ChecksExpiry (run deviceID cmd >>= fun _ ↦ worker deviceID turns)
          simp only [run, Prog.bind_assoc]
          refine ⟨trivial, ?_⟩
          rintro (e | ctx) -
          · exact e.elim
          · exact runJob_checksExpiry ctx cmd (hend cmd) (hend' cmd)

end Worker

theorem program_checksExpiry (cfg : Config) (task : Task) :
    Always AnyReply ChecksExpiry (task.program cfg) ∧ ∀ e, ¬ Waits e (task.program cfg) := by
  cases task with
  | message payload => exact handleMessage_checksExpiry ..
  | worker turns => exact ⟨worker_checksExpiry turns, not_waits_worker turns⟩

/-! ## The invariant -/

section Run

variable {ι : Type}

/-- Notes when the executor is started for a command. -/
def watchStarts (_ : ι) : ∀ β : Type, AgentOp β → Dispatcher → List (Command × Int)
  | _, .startRun _ cmd, s => [(cmd, s.clock)]
  | _, _, _ => []

/-- The state of the agent, with the starts of the executor. -/
abbrev StartsRun (ι : Type) := Recorded (AgentPool ι) (Command × Int)

/-- Time does not pass the expiry of a command that is waiting. -/
def ExpiresNoneWaiting (r : StartsRun ι) : Event ι Empty Nat → Prop
  | .run _ _ => True
  | .env ms => ∀ e, Waiting r.state e → r.state.shared.clock + ms ≤ e

/-- No command that is waiting has expired, and none has been started that had. -/
structure StartsLive (r : StartsRun ι) : Prop where
  tasks : ∀ i, Always AnyReply ChecksExpiry (r.state.thread i)
  waiting : ∀ e, Waiting r.state e → r.state.shared.clock ≤ e
  started : ∀ n ∈ r.log, ∀ e, n.1.expiresAt = some e → n.2 ≤ e

/-- Only the environment moves the clock. -/
theorem serve_clock {β : Type} (op : AgentOp β) (s : Dispatcher) :
    (s.serve op).2.clock = s.clock := by
  cases op with
  | enqueue cmd =>
      rw [Dispatcher.serve]
      split <;> rfl
  | dequeue =>
      rw [Dispatcher.serve]
      split <;> rfl
  | cancelRunning id =>
      rw [Dispatcher.serve]
      split <;> rfl
  | _ => rfl

variable {r r' : StartsRun ι} {i : ι} {f : Fate Empty}

/-- Whatever waits after a request of a task waited before, or its expiry has just been
checked. -/
theorem StartsLive.waits_after (hr : StartsLive r) {β : Type} {op : AgentOp β}
    {k : Except Empty β → AgentM Unit} (hi : r.state.thread i = .call op k) {e : Int}
    (h : Waits e (k (.ok (r.state.shared.serve op).1))) : r.state.shared.clock ≤ e := by
  have hdisc : ChecksExpiry β op k := by
    have := hr.tasks i
    rw [hi, always_call] at this
    exact this.1
  have hkept : ¬ ReadsClockOrQueue β op → r.state.shared.clock ≤ e := by
    intro hop
    refine hr.waiting e (.inr ⟨i, ?_⟩)
    rw [hi]
    exact (waits_call _ _).mpr (.inr ⟨hop, _, h⟩)
  cases op with
  | now => exact hdisc _ e h
  | dequeue =>
      obtain ⟨cmd, hcmd, hexpiry⟩ := hdisc _ e h
      refine hr.waiting e (.inl ⟨cmd, ?_, hexpiry⟩)
      cases hq : r.state.shared.queue with
      | nil => simp [Dispatcher.serve, hq] at hcmd
      | cons cmd' queue =>
          simp only [Dispatcher.serve, hq, Option.some.injEq] at hcmd
          rw [hcmd]
          exact List.mem_cons_self
  | _ => exact hkept fun h ↦ h

/-- Whatever is in the queue after a request was there before, or is put there by it. -/
theorem mem_queue_serve {β : Type} {op : AgentOp β} {s : Dispatcher} {cmd : Command}
    (h : cmd ∈ (s.serve op).2.queue) :
    cmd ∈ s.queue ∨ ∀ e, cmd.expiresAt = some e → Awaits e β op := by
  by_cases hneutral : Neutral β op
  · rw [serve_queue hneutral] at h
    exact .inl h
  cases op with
  | enqueue cmd' =>
      rw [Dispatcher.serve] at h
      split at h
      · rcases List.mem_append.mp h with h | h
        · exact .inl h
        · rw [List.mem_singleton] at h
          subst h
          exact .inr fun _ h ↦ h
      · exact .inl h
  | dequeue =>
      left
      rw [Dispatcher.serve] at h
      split at h
      · exact h
      · rename_i hq
        rw [hq]
        exact List.mem_cons_of_mem _ h
  | add => exact .inl h
  | deleteRunning => exact .inl h
  | _ => exact absurd trivial hneutral

variable [DecidableEq ι]

theorem StartsLive.run (hr : StartsLive r)
    (hs : Recorded.step agentStep (Pool.observe watchStarts) r (.run i f) = some r') :
    StartsLive r' := by
  obtain ⟨β, op, k, hi, hshared, hself, hother, hlog⟩ := agentStep_recorded hs
  have hnow : ∀ e, Awaits e β op → r.state.shared.clock ≤ e := by
    intro e he
    refine hr.waiting e (.inr ⟨i, ?_⟩)
    rw [hi]
    exact .inl he
  refine ⟨fun j ↦ ?_, fun e he ↦ ?_, fun n hn e he ↦ ?_⟩
  · by_cases hj : j = i
    · subst hj
      have := hr.tasks j
      rw [hi, always_call] at this
      rw [hself]
      exact this.2 _ trivial
    · rw [hother j hj]
      exact hr.tasks j
  · rw [hshared, serve_clock]
    rcases he with ⟨cmd, hmem, hexpiry⟩ | ⟨j, hj⟩
    · rw [hshared] at hmem
      rcases mem_queue_serve hmem with hold | hnew
      · exact hr.waiting e (.inl ⟨cmd, hold, hexpiry⟩)
      · exact hnow e (hnew e hexpiry)
    · by_cases hji : j = i
      · subst hji
        rw [hself] at hj
        exact hr.waits_after hi hj
      · rw [hother j hji] at hj
        exact hr.waiting e (.inr ⟨j, hj⟩)
  · rw [hlog] at hn
    rcases List.mem_append.mp hn with hn | hn
    · exact hr.started n hn e he
    · cases op with
      | startRun ctx cmd =>
          rw [watchStarts, List.mem_singleton] at hn
          subst hn
          exact hnow e he
      | _ => cases hn

theorem StartsLive.step (hr : StartsLive r) {l : Event ι Empty Nat}
    (hg : ExpiresNoneWaiting r l)
    (hs : Recorded.step agentStep (Pool.observe watchStarts) r l = some r') : StartsLive r' := by
  cases l with
  | run i f => exact hr.run hs
  | env ms =>
      obtain rfl := Pool.recorded_env hs
      exact ⟨hr.tasks, fun e he ↦ hg e he, hr.started⟩

end Run

/-- As long as time does not pass the expiry of a command that is waiting to be run, no command
is run after it has expired. -/
theorem run_before_expiry {ι : Type} [DecidableEq ι] (cfg : Config) (tasks : ι → Task)
    (clock : Int) (outcome : Nat → Outcome) (onUpdateGroups : List String → GroupUpdate)
    {r : StartsRun ι}
    (hr : Reach (Recorded.step agentStep (Pool.observe watchStarts)) ExpiresNoneWaiting
      ⟨start cfg tasks clock outcome onUpdateGroups, []⟩ r) :
    ∀ n ∈ r.log, ∀ e, n.1.expiresAt = some e → n.2 ≤ e := by
  have hinv : StartsLive r := by
    refine hr.invariant ⟨fun i ↦ (program_checksExpiry cfg (tasks i)).1, ?_,
      fun n hn ↦ nomatch hn⟩ fun _ _ _ hs hg hstep ↦ hs.step hg hstep
    rintro e (⟨cmd, hmem, -⟩ | ⟨i, hi⟩)
    · cases hmem
    · exact absurd hi ((program_checksExpiry cfg (tasks i)).2 e)
  exact hinv.started

/-- One delivery of a command that expires after a second, and a worker. -/
def expiringDelivery : Bool → Task
  | false => .message (some { dateCommand with expiresAt := some 1000 })
  | true => .worker 1

def expiringStart : StartsRun Bool :=
  ⟨start smallConfig expiringDelivery 0 (fun _ ↦ {}) fun _ ↦ .unsupported, []⟩

/-- A command that is taken from the queue at once. -/
theorem run_before_expiry_at_once : ∃ r : StartsRun Bool,
    r.log.map (·.2) = [0] ∧ ∀ n ∈ r.log, ∀ e, n.1.expiresAt = some e → n.2 ≤ e := by
  obtain ⟨r, hr, hlog⟩ : ∃ r : StartsRun Bool,
      Reach (Recorded.step agentStep (Pool.observe watchStarts))
        (fun _ l ↦ l ∈ [.run false .served, .run true .served]) expiringStart r ∧
      r.log.map (·.2) = [0] :=
    Reach.exists_of_exec [.run false .served, .run false .served, .run false .served,
      .run true .served, .run true .served, .run true .served, .run true .served] (by decide)
  have hreach : Reach (Recorded.step agentStep (Pool.observe watchStarts)) ExpiresNoneWaiting
      expiringStart r := by
    refine hr.mono fun s l hl ↦ ?_
    rcases List.mem_pair.mp hl with rfl | rfl <;> trivial
  exact ⟨r, hlog, run_before_expiry smallConfig expiringDelivery 0 (fun _ ↦ {})
    (fun _ ↦ .unsupported) hreach⟩

/-- A command that waits in the queue until it has expired is run nevertheless. -/
theorem run_after_expiry : ∃ r : StartsRun Bool,
    Reach (Recorded.step agentStep (Pool.observe watchStarts)) (fun _ _ ↦ True)
      expiringStart r ∧
    r.log.map (fun n ↦ (n.1.expiresAt, n.2)) = [(some 1000, 2000)] := by
  refine Reach.exists_of_exec [
    -- the command is delivered and queued
    .run false .served, .run false .served, .run false .served,
    -- two seconds later, a worker takes and starts it
    .env 2000, .run true .served, .run true .served, .run true .served, .run true .served] ?_
  decide

end Zenstier.Agent
