import Zenstier.Agent.Execution

/-!
# Storing and publishing results

A worker stores the result of a command in the dedupe cache and then publishes it; the
handler of a duplicate publishes what it has read from the cache.  Everything else that is
published about a command is a refusal, or not a result.
-/

namespace Zenstier.Agent

open Store Concurrent Prog

/-! ## Results and their publication -/

/-- The result comes from executing the command, not from refusing it. -/
def Executed (r : Result) : Prop :=
  r.errorCode = none ∨ r.errorCode = some .timeout ∨ r.errorCode = some .spawnFailed

instance (r : Result) : Decidable (Executed r) := by unfold Executed; infer_instance

/-- The request publishes the result `r` of executing the command. -/
def Reports (id : String) (r : Result) : ∀ β : Type, AgentOp β → Prop
  | _, .publish r' => r' = r ∧ r.kind = .result ∧ r.id = id ∧ Executed r
  | _, _ => False

/-- The task is about to publish the result `r` of executing the command. -/
def Reporting (id : String) (r : Result) (p : AgentM Unit) : Prop := AtRequest (Reports id r) p

theorem reporting_id {id : String} {r : Result} {p : AgentM Unit} (h : Reporting id r p) :
    r.id = id ∧ Executed r := by
  cases p with
  | pure u => exact h.elim
  | throw e => exact e.elim
  | call op k => cases op <;> first | exact ⟨h.2.2.1, h.2.2.2⟩ | exact False.elim h

/-- The request hands the command to the queue, or stores its result. -/
def Gives (id : String) : ∀ β : Type, AgentOp β → Prop
  | _, .enqueue cmd => cmd.id = id
  | _, .complete id' _ => id' = id
  | _, _ => False

/-- The task has the command in hand and has not stored a result for it. -/
def Pends (id : String) (p : AgentM Unit) : Prop := Ahead Takes (AtRequest (Gives id)) p

theorem pends_call {id : String} {β : Type} (op : AgentOp β) (k : Except Empty β → AgentM Unit) :
    Pends id (.call op k) ↔ Gives id β op ∨ ¬ Takes β op ∧ ∃ r, Pends id (k r) :=
  ahead_call op k

/-- What a task does with the result of the command: it has the command in hand only if it has
found it new or taken it from the queue, it publishes a result only right after it has stored
it or read it from the cache, and it has nothing in hand after it has stored it. -/
def Settles (id : String) : ∀ β : Type, AgentOp β → (Except Empty β → AgentM Unit) → Prop
  | _, .add id', k => ∀ b, (Pends id (k (.ok b)) → b = true ∧ id' = id) ∧
      ∀ r, ¬ Reporting id r (k (.ok b))
  | _, .dequeue, k => ∀ j, (Pends id (k (.ok j)) → ∃ cmd, j = some cmd ∧ cmd.id = id) ∧
      ∀ r, ¬ Reporting id r (k (.ok j))
  | _, .enqueue _, k => ∀ b, ¬ Pends id (k (.ok b)) ∧ ∀ r, ¬ Reporting id r (k (.ok b))
  | _, .complete id' r, k => r.id = id' ∧ Executed r ∧ ¬ Pends id (k (.ok ())) ∧
      ∀ r', Reporting id r' (k (.ok ())) → r' = r
  | _, .cachedResult _, k => ∀ c r, Reporting id r (k (.ok c)) → c = some (some r, false)
  | _, _, k => ∀ a r, ¬ Reporting id r (k (.ok a))

/-! ## What the tasks do -/

section Tasks

variable {id deviceID : String}

/-- The codes under which `reject` refuses a command. -/
abbrev Refuses (code : ErrorCode) : Prop := code ≠ .spawnFailed ∧ code ≠ .timeout

theorem not_reporting_reject {id' : String} {code : ErrorCode} (hcode : Refuses code)
    (message : String) (r : Result) : ¬ Reporting id r (reject deviceID id' code message) := by
  unfold reject
  split
  · exact fun h ↦ h
  · rintro ⟨rfl, -, -, h | h | h⟩
    · cases h
    · exact hcode.2 (Option.some.inj h)
    · exact hcode.1 (Option.some.inj h)

theorem reject_settles {id' : String} {code : ErrorCode} (message : String) :
    Always AnyReply (Settles id) (reject deviceID id' code message) := by
  unfold reject
  split
  · trivial
  · exact ⟨fun _ _ h ↦ h, fun r _ ↦ by rcases r with e | u <;> trivial⟩

theorem not_pends_of_only {p : AgentM Unit} (h : Only (fun β op ↦ ¬ Gives id β op) p) :
    ¬ Pends id p := Only.not_ahead (fun _ _ h ↦ h) h

/-- Other messages are not results. -/
theorem not_reporting_publish {r' : Result} (h : r'.kind ≠ .result) {f : Unit → AgentM Unit}
    (r : Result) : ¬ Reporting id r (publish r' >>= f) := by
  rintro ⟨rfl, hkind, -⟩
  exact h hkind

theorem not_reporting_accepted (id' : String) (status : ResultStatus) (r : Result) :
    ¬ Reporting id r (publish (acceptedResult deviceID id' status)) := by
  rintro ⟨rfl, hkind, -⟩
  cases hkind

theorem perform_publish_settles (r : Result) : Always AnyReply (Settles id) (publish r) :=
  ⟨fun _ _ h ↦ h, fun r _ ↦ by rcases r with e | u <;> trivial⟩

/-- A publication that is not a result, and what follows it. -/
theorem publish_settles {r : Result} {f : Unit → AgentM Unit}
    (hf : Always AnyReply (Settles id) (f ())) (hreports : ∀ r, ¬ Reporting id r (f ())) :
    Always AnyReply (Settles id) (publish r >>= f) := by
  refine ⟨fun _ ↦ hreports, ?_⟩
  rintro (e | u) -
  · exact e.elim
  · exact hf

/-- A result that is stored and published. -/
theorem finish_settles {r : Result} (hr : Executed r) {f : Unit → AgentM Unit}
    (hf : Always AnyReply (Settles id) (f ())) (hpends : ¬ Pends id (f ()))
    (hreports : ∀ r, ¬ Reporting id r (f ())) :
    Always AnyReply (Settles id) (finish r >>= f) := by
  refine ⟨⟨rfl, hr, ?_, ?_⟩, ?_⟩
  · rintro (h | ⟨-, (e | u), hu⟩)
    · exact h
    · exact e.elim
    · exact hpends hu
  · rintro r' ⟨rfl, -⟩
    rfl
  · rintro (e | u) -
    · exact e.elim
    · exact publish_settles hf hreports

/-! ### Messages -/

theorem replay_settles (cmd : Command) : Always AnyReply (Settles id) (replay deviceID cmd) := by
  refine ⟨fun c r h ↦ ?_, ?_⟩
  · rcases c with _ | ⟨_ | cached, _ | _⟩
    · exact h.elim
    · exact h.elim
    · exact absurd h (not_reporting_accepted _ _ r)
    · obtain rfl : cached = r := h.1
      rfl
    · exact absurd h (not_reporting_accepted _ _ r)
  · rintro (e | _ | ⟨_ | cached, _ | _⟩) -
    · exact e.elim
    · trivial
    · trivial
    · exact perform_publish_settles _
    · exact perform_publish_settles _
    · exact perform_publish_settles _

theorem enqueue_settles (queueDepth maxConcurrent : Nat) (cmd : Command) :
    Always AnyReply (Settles id) (enqueue deviceID queueDepth maxConcurrent cmd) := by
  refine ⟨fun queued ↦ ⟨?_, ?_⟩, ?_⟩
  · exact not_pends_of_only (queued_only (fun _ h ↦ h) (fun _ h ↦ h) ..)
  · cases queued with
    | true => exact not_reporting_accepted _ _
    | false => exact fun r h ↦ h
  · rintro (e | _ | _) -
    · exact e.elim
    · refine ⟨fun _ ↦ not_reporting_reject (by decide) _, ?_⟩
      rintro (e | u) -
      · exact e.elim
      · exact reject_settles _
    · exact perform_publish_settles _

theorem enqueueOnce_settles (queueDepth maxConcurrent : Nat) (cmd : Command) :
    Always AnyReply (Settles id) (enqueueOnce deviceID queueDepth maxConcurrent cmd) := by
  refine ⟨fun first ↦ ⟨fun h ↦ ?_, ?_⟩, ?_⟩
  · cases first with
    | false =>
        refine absurd h (not_pends_of_only ?_)
        exact replay_only (fun _ h ↦ h) (fun _ h ↦ h) cmd
    | true =>
        refine ⟨rfl, ?_⟩
        rcases (pends_call _ _).mp h with h | ⟨-, (e | queued), hr⟩
        · exact h
        · exact e.elim
        · refine absurd hr (not_pends_of_only ?_)
          exact queued_only (fun _ h ↦ h) (fun _ h ↦ h) ..
  · cases first with
    | false => exact fun r h ↦ h
    | true => exact fun r h ↦ h
  · rintro (e | _ | _) -
    · exact e.elim
    · exact replay_settles cmd
    · exact enqueue_settles ..

theorem handleUpdateGroups_settles (cmd : Command) :
    Always AnyReply (Settles id) (handleUpdateGroups deviceID cmd) := by
  refine ⟨fun outcome ↦ ?_, ?_⟩
  · cases outcome with
    | unsupported => exact not_reporting_reject (by decide) _
    | failed err => exact not_reporting_reject (by decide) _
    | done => exact fun r h ↦ h
  · rintro (e | _ | err | _) -
    · exact e.elim
    · exact reject_settles _
    · exact reject_settles _
    · refine ⟨⟨rfl, .inl rfl, fun h ↦ ?_, fun r h ↦ h.1.symm⟩, ?_⟩
      · have honly : Only (fun β op ↦ ¬ Gives id β op)
            (publish (completedResult deviceID cmd.id "")) := (only_perform _).mpr fun h ↦ h
        exact not_pends_of_only honly h
      · rintro (e | u) -
        · exact e.elim
        · exact perform_publish_settles _

/-- The command goes through the queue. -/
def Command.Queued (cmd : Command) : Prop := cmd.type ≠ "cancel" ∧ cmd.type ≠ "update_groups"

theorem handleLive_settles (id deviceID : String) (queueDepth maxConcurrent : Nat)
    (cmd : Command) :
    Always AnyReply (Settles id) (handleLive deviceID queueDepth maxConcurrent cmd) ∧
    ∀ r, ¬ Reporting id r (handleLive deviceID queueDepth maxConcurrent cmd) := by
  unfold handleLive
  split
  · exact ⟨⟨fun _ _ h ↦ h, fun r _ ↦ by rcases r with e | u <;> trivial⟩, fun r h ↦ h⟩
  split
  · exact ⟨handleUpdateGroups_settles cmd, fun r h ↦ h⟩
  · exact ⟨enqueueOnce_settles .., fun r h ↦ h⟩

theorem not_pends_handleLive (deviceID : String) {cmd : Command} (h : cmd.id = id → cmd.Queued)
    (queueDepth maxConcurrent : Nat) :
    ¬ Pends id (handleLive deviceID queueDepth maxConcurrent cmd) := by
  unfold handleLive
  split
  · exact not_pends_of_only ((only_perform _).mpr fun h ↦ h)
  split
  · rename_i htype
    have hne : cmd.id ≠ id := fun hid ↦ (h hid).2 htype
    rintro (h | ⟨-, (e | _ | err | _), hr⟩)
    · exact h
    · exact e.elim
    · exact not_pends_of_only (reject_only (fun _ h ↦ h) ..) hr
    · exact not_pends_of_only (reject_only (fun _ h ↦ h) ..) hr
    · exact not_pends_of_only (finish_only (completedResult deviceID cmd.id "") hne fun h ↦ h) hr
  · rintro (h | ⟨h, -⟩)
    · exact h
    · exact h trivial

/-- The handler of a message. -/
theorem handleMessage_settles (sha1 : List UInt8 → List UInt8) (queueDepth maxConcurrent : Nat)
    (payload : Option Command) :
    Always AnyReply (Settles id)
      (handleMessage sha1 deviceID queueDepth maxConcurrent payload) := by
  refine handleMessage_cases sha1 deviceID (motive := Always AnyReply (Settles id)) trivial
    (fun cmd err ↦ reject_settles _) (fun cmd ↦ ?_) payload
  obtain ⟨hlive, hreports⟩ := handleLive_settles id deviceID queueDepth maxConcurrent cmd
  cases hexpiry : cmd.expiresAt with
  | none =>
      rw [handleCommand_unexpiring deviceID hexpiry]
      exact hlive
  | some expiresAt =>
      rw [handleCommand_expiring deviceID hexpiry]
      refine ⟨fun now r ↦ ?_, ?_⟩
      · simp only [ofExcept_ok, Prog.pure_bind]
        split
        · exact not_reporting_reject (by decide) _ r
        · exact hreports r
      · rintro (e | now) -
        · exact e.elim
        simp only [ofExcept_ok, Prog.pure_bind]
        split
        · exact reject_settles _
        · exact hlive

theorem not_pends_handleMessage {sha1 : List UInt8 → List UInt8} {msg : Command}
    (h : (msg.normalize sha1 deviceID).id = id → (msg.normalize sha1 deviceID).Queued)
    (queueDepth maxConcurrent : Nat) :
    ¬ Pends id (handleMessage sha1 deviceID queueDepth maxConcurrent (some msg)) ∧
    ∀ r, ¬ Reporting id r (handleMessage sha1 deviceID queueDepth maxConcurrent (some msg)) := by
  dsimp only [handleMessage]
  cases (msg.normalize sha1 deviceID).validate with
  | some err =>
      exact ⟨not_pends_of_only (reject_only (fun _ h ↦ h) ..), not_reporting_reject (by decide) _⟩
  | none =>
      generalize msg.normalize sha1 deviceID = cmd at h ⊢
      have hlive := not_pends_handleLive deviceID h queueDepth maxConcurrent
      obtain ⟨-, hreports⟩ := handleLive_settles id deviceID queueDepth maxConcurrent cmd
      cases hexpiry : cmd.expiresAt with
      | none =>
          dsimp only
          rw [handleCommand_unexpiring deviceID hexpiry]
          exact ⟨hlive, hreports⟩
      | some expiresAt =>
          dsimp only
          rw [handleCommand_expiring deviceID hexpiry]
          refine ⟨?_, fun r h ↦ h⟩
          rintro (h | ⟨-, (e | now), hr⟩)
          · exact h
          · exact e.elim
          · simp only [ofExcept_ok, Prog.pure_bind] at hr
            split at hr
            · exact not_pends_of_only (reject_only (fun _ h ↦ h) ..) hr
            · exact hlive hr

/-! ### Workers -/

section Worker

variable {turns : Nat}

theorem not_reporting_worker (r : Result) : ¬ Reporting id r (worker deviceID turns) := by
  cases turns <;> exact fun h ↦ h

theorem not_pends_worker : ¬ Pends id (worker deviceID turns) := by
  cases turns with
  | zero => exact fun h ↦ h
  | succ turns =>
      rintro (h | ⟨h, -⟩)
      · exact h
      · exact h trivial

/-- What follows a run of a command. -/
def rest (deviceID : String) (turns : Nat) (cmd : Command) : AgentM Unit :=
  .perform (.deleteRunning cmd.id) >>= fun _ ↦ worker deviceID turns

theorem not_pends_rest (deviceID : String) (turns : Nat) (cmd : Command) :
    ¬ Pends id (rest deviceID turns cmd) := by
  rintro (h | ⟨-, (e | u), hr⟩)
  · exact h
  · exact e.elim
  · exact not_pends_worker hr

theorem rest_settles (hworker : Always AnyReply (Settles id) (worker deviceID turns))
    (cmd : Command) : Always AnyReply (Settles id) (rest deviceID turns cmd) := by
  refine ⟨fun _ ↦ not_reporting_worker, ?_⟩
  rintro (e | u) -
  · exact e.elim
  · exact hworker

variable {f : Unit → AgentM Unit}

theorem finalResult_executed (id' : String) (res : ExecResult) (finishedAt : Int) :
    Executed (finalResult deviceID id' res finishedAt) := by
  unfold Executed finalResult
  cases res.timedOut
  · exact .inl rfl
  · exact .inr (.inl rfl)

theorem publishChunks_settles (hf : Always AnyReply (Settles id) (f ()))
    (hreports : ∀ r, ¬ Reporting id r (f ())) (id' : String) (seq : Nat)
    (chunks : List (OutputStream × String)) :
    Always AnyReply (Settles id) (publishChunks deviceID id' seq chunks >>= f) ∧
    ∀ r, ¬ Reporting id r (publishChunks deviceID id' seq chunks >>= f) := by
  induction chunks generalizing seq with
  | nil => exact ⟨hf, hreports⟩
  | cons chunk chunks ih =>
      obtain ⟨hrest, hnext⟩ := ih (seq + 1)
      rw [publishChunks, Prog.bind_assoc]
      refine ⟨publish_settles hrest hnext, not_reporting_publish ?_⟩
      intro h
      cases h

/-- The run of a shell that has been started. -/
theorem awaitExec_settles (hf : Always AnyReply (Settles id) (f ())) (hpends : ¬ Pends id (f ()))
    (hreports : ∀ r, ¬ Reporting id r (f ())) (ctx : Nat) (cmd : Command) (startedAt : Int)
    (chunks : List (OutputStream × String)) :
    Always AnyReply (Settles id) (awaitExec deviceID ctx cmd startedAt chunks >>= f) ∧
    ∀ r, ¬ Reporting id r (awaitExec deviceID ctx cmd startedAt chunks >>= f) := by
  rw [awaitExec, Prog.bind_assoc]
  refine publishChunks_settles ?_ ?_ ..
  · refine ⟨fun _ _ h ↦ h, ?_⟩
    rintro (e | res) -
    · exact e.elim
    refine ⟨fun _ _ h ↦ h, ?_⟩
    rintro (e | finishedAt) -
    · exact e.elim
    · exact finish_settles (finalResult_executed ..) hf hpends hreports
  · exact fun r h ↦ h

theorem runJob_settles (hf : Always AnyReply (Settles id) (f ())) (hpends : ¬ Pends id (f ()))
    (hreports : ∀ r, ¬ Reporting id r (f ())) (ctx : Nat) (cmd : Command) :
    Always AnyReply (Settles id) (runJob deviceID ctx cmd >>= f) ∧
    ∀ r, ¬ Reporting id r (runJob deviceID ctx cmd >>= f) := by
  unfold runJob
  split
  · exact ⟨finish_settles (.inl rfl) hf hpends hreports, fun r h ↦ h⟩
  split
  · exact ⟨finish_settles (.inl rfl) hf hpends hreports, fun r h ↦ h⟩
  rw [runExec, Prog.bind_assoc]
  refine ⟨publish_settles ?_ fun r h ↦ h, not_reporting_publish (by intro h; cases h)⟩
  refine ⟨fun started ↦ ?_, ?_⟩
  · rcases started with err | ⟨startedAt, chunks⟩
    · exact fun r h ↦ h
    · exact (awaitExec_settles hf hpends hreports ctx cmd startedAt chunks).2
  · rintro (e | err | ⟨startedAt, chunks⟩) -
    · exact e.elim
    · exact finish_settles (.inr (.inr rfl)) hf hpends hreports
    · exact (awaitExec_settles hf hpends hreports ctx cmd startedAt chunks).1

theorem run_bind_worker (cmd : Command) :
    (run deviceID cmd >>= fun _ ↦ worker deviceID turns) =
      .perform (.storeRunning cmd.id) >>= fun ctx ↦
        runJob deviceID ctx cmd >>= fun _ ↦ rest deviceID turns cmd := by
  simp only [run, rest, Prog.bind_assoc]

/-- A worker has only the command in hand that it has taken. -/
theorem run_pends {cmd : Command}
    (h : Pends id (run deviceID cmd >>= fun _ ↦ worker deviceID turns)) : cmd.id = id := by
  by_contra hne
  rw [run_bind_worker] at h
  rcases (pends_call _ _).mp h with h | ⟨-, (e | ctx), hr⟩
  · exact h
  · exact e.elim
  refine not_ahead_bind (P := fun β op ↦ ¬ Gives id β op) ?_ (fun _ _ _ h ↦ h) (fun e ↦ e.elim)
    (fun _ ↦ not_pends_rest deviceID turns cmd) hr
  exact runJob_only (fun h ↦ h) (fun _ _ ↦ hne) (fun _ h ↦ h) (fun _ _ h ↦ h) (fun _ h ↦ h) ctx

theorem worker_settles (turns : Nat) : Always AnyReply (Settles id) (worker deviceID turns) := by
  induction turns with
  | zero => trivial
  | succ turns ih =>
      refine ⟨fun job ↦ ?_, ?_⟩
      · cases job with
        | none => exact ⟨fun h ↦ absurd h not_pends_worker, not_reporting_worker⟩
        | some cmd => exact ⟨fun h ↦ ⟨cmd, rfl, run_pends h⟩, fun r h ↦ h⟩
      · rintro (e | _ | cmd) -
        · exact e.elim
        · exact ih
        · show Always AnyReply (Settles id) (run deviceID cmd >>= fun _ ↦ worker deviceID turns)
          have hjob : ∀ ctx, Always AnyReply (Settles id)
                (runJob deviceID ctx cmd >>= fun _ ↦ rest deviceID turns cmd) ∧
              ∀ r, ¬ Reporting id r
                (runJob deviceID ctx cmd >>= fun _ ↦ rest deviceID turns cmd) := by
            refine fun ctx ↦ runJob_settles (rest_settles ih cmd)
              (not_pends_rest deviceID turns cmd) ?_ ctx cmd
            exact fun r h ↦ h
          rw [run_bind_worker]
          refine ⟨fun ctx ↦ (hjob ctx).2, ?_⟩
          rintro (e | ctx) -
          · exact e.elim
          · exact (hjob ctx).1

end Worker

/-- The tasks, as far as the commands with this id are queued. -/
theorem program_settles (cfg : Config) (task : Task)
    (hqueued : ∀ msg, task = .message (some msg) →
      (msg.normalize cfg.sha1 cfg.deviceID).id = id →
      (msg.normalize cfg.sha1 cfg.deviceID).Queued) :
    Always AnyReply (Settles id) (task.program cfg) ∧ ¬ Pends id (task.program cfg) ∧
    ∀ r, ¬ Reporting id r (task.program cfg) := by
  cases task with
  | worker turns => exact ⟨worker_settles turns, not_pends_worker, not_reporting_worker⟩
  | message payload =>
      refine ⟨handleMessage_settles .., ?_⟩
      cases payload with
      | none => exact ⟨fun h ↦ h, fun _ h ↦ h⟩
      | some msg => exact not_pends_handleMessage (hqueued msg rfl) ..

end Tasks

end Zenstier.Agent
