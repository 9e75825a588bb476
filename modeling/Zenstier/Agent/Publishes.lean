import Zenstier.Agent.Dispatcher
import Zenstier.Concurrent.Worlds
import Zenstier.Worker.ResultSchema
import Mathlib

/-!
# What the dispatcher publishes

Every result that is published, in any run, is one that the schema of the backend takes.  The ids
are those of commands that have been validated, or a rejection is not sent at all; and a duration
is the time from a start that has been, so it is never negative.  The world that the programs live
in is the clock.
-/

namespace Zenstier.Agent

open Store Concurrent Prog

/-! ## Results -/

/-- A result of the device that can be published at some time. -/
structure Result.Due (deviceID : String) (now : Int) (r : Result) : Prop where
  v : r.v = version
  id : r.id ≠ ""
  deviceID : r.deviceID = deviceID
  exitCode : ∀ c ∈ r.exitCode, Safe c
  droppedBytes : Safe r.droppedBytes
  durationMS : ∀ d ∈ r.durationMS, 0 ≤ d ∧ d ≤ now
  seq : Safe r.seq
  stream : r.kind = .chunk → r.stream.isSome

theorem Result.Due.later {deviceID : String} {now now' : Int} {r : Result}
    (h : r.Due deviceID now) (hle : now ≤ now') : r.Due deviceID now' :=
  { h with durationMS := fun d hd ↦ ⟨(h.durationMS d hd).1, (h.durationMS d hd).2.trans hle⟩ }

/-- The clock would have to run for very long before a duration is not safe. -/
theorem Result.Due.sound {deviceID : String} {now : Int} {r : Result} (h : r.Due deviceID now)
    (hdevice : deviceID ≠ "") (hnow : now ≤ MAX_SAFE_INTEGER) : r.Sound where
  v := h.v
  id := h.id
  deviceID := h.deviceID ▸ hdevice
  exitCode := h.exitCode
  droppedBytes := h.droppedBytes
  durationMS d hd := by
    obtain ⟨hpos, hle⟩ := h.durationMS d hd
    refine ⟨hpos, ?_, hle.trans hnow⟩
    unfold MAX_SAFE_INTEGER
    omega
  seq := h.seq

/-- What a shell leaves can be written in numbers that a double holds. -/
structure Outcome.Sane (o : Outcome) : Prop where
  exitCode : Safe o.exitCode
  dropped : Safe o.dropped
  chunks : o.chunks.length ≤ MAX_SAFE_INTEGER

/-! ## The discipline -/

/-- The requests that the tasks make, at some time. -/
def Keeping (deviceID : String) (now : Int) : ∀ β : Type, AgentOp β → Prop
  | _, .publish r | _, .complete _ r => r.Due deviceID now
  | _, .enqueue cmd => cmd.id ≠ ""
  | _, .endRun _ _ startedAt => 0 ≤ startedAt ∧ startedAt ≤ now
  | _, _ => True

/-- What the tasks are answered, at some time. -/
def Answering (deviceID : String) (now : Int) : ∀ β : Type, AgentOp β → Except Empty β → Prop
  | _, .cachedResult _, r => ∀ cached running, r = .ok (some (some cached, running)) →
      cached.Due deviceID now
  | _, .dequeue, r => ∀ cmd, r = .ok (some cmd) → cmd.id ≠ ""
  | _, .startRun .., r => ∀ startedAt chunks, r = .ok (.ok (startedAt, chunks)) →
      0 ≤ startedAt ∧ startedAt ≤ now ∧ chunks.length ≤ MAX_SAFE_INTEGER
  | _, .endRun .., r => ∀ res, r = .ok res →
      Safe res.exitCode ∧ Safe res.dropped ∧ 0 ≤ res.durationMS ∧ res.durationMS ≤ now
  | _, _, _ => True

section Programs

variable {deviceID : String} {now : Int}

/-- The program keeps to the discipline from some time on. -/
abbrev Keeps (deviceID : String) (now : Int) (p : AgentM Unit) : Prop :=
  Onward (Answering deviceID) (Keeping deviceID) now p

theorem keeping_later (now now' : Int) (hle : now ≤ now') (β : Type) (op : AgentOp β)
    (h : Keeping deviceID now β op) : Keeping deviceID now' β op := by
  cases op with
  | publish r => exact Result.Due.later h hle
  | complete id r => exact Result.Due.later h hle
  | enqueue cmd => exact h
  | endRun ctx id startedAt => exact ⟨h.1, h.2.trans hle⟩
  | _ => trivial

theorem safe_zero : Safe 0 := by decide

/-- A result with neither an exit code nor a duration. -/
theorem due_plain {r : Result} (hv : r.v = version) (hid : r.id ≠ "")
    (hdevice : r.deviceID = deviceID) (hexit : r.exitCode = none) (hdropped : r.droppedBytes = 0)
    (hduration : r.durationMS = none) (hseq : r.seq = 0) (hkind : r.kind ≠ .chunk) :
    r.Due deviceID now where
  v := hv
  id := hid
  deviceID := hdevice
  exitCode c hc := by
    rw [hexit] at hc
    cases hc
  droppedBytes := by
    rw [hdropped]
    exact safe_zero
  durationMS d hd := by
    rw [hduration] at hd
    cases hd
  seq := by
    rw [hseq]
    exact safe_zero
  stream h := absurd h hkind

theorem accepted_due {id : String} (h : id ≠ "") (status : ResultStatus) :
    (acceptedResult deviceID id status).Due deviceID now :=
  due_plain rfl h rfl rfl rfl rfl rfl fun h ↦ by cases h

theorem completed_due {id : String} (h : id ≠ "") (stdout : String) :
    (completedResult deviceID id stdout).Due deviceID now :=
  due_plain rfl h rfl rfl rfl rfl rfl fun h ↦ by cases h

theorem rejected_due {id : String} (h : id ≠ "") (code : ErrorCode) (message : String) :
    (rejectedResult deviceID id code message).Due deviceID now :=
  due_plain rfl h rfl rfl rfl rfl rfl fun h ↦ by cases h

/-- A rejection without an id is not sent. -/
theorem reject_keeps (id : String) (code : ErrorCode) (message : String) :
    Keeps deviceID now (reject deviceID id code message) := by
  unfold reject
  split
  · trivial
  · rename_i hid
    exact onward_perform (rejected_due hid code message)

theorem finish_keeps {r : Result} (h : r.Due deviceID now) : Keeps deviceID now (finish r) :=
  Onward.await h fun _ hle _ _ ↦ onward_perform (h.later hle)

theorem expired_await {f : Bool → AgentM Unit} (cmd : Command)
    (hf : ∀ now', now ≤ now' → ∀ b, Keeps deviceID now' (f b)) :
    Keeps deviceID now (expired cmd >>= f) := by
  unfold expired
  split
  · exact hf now le_rfl false
  · rw [Prog.bind_assoc]
    exact Onward.await trivial fun now' hle _ _ ↦ hf now' hle _

theorem handleUpdateGroups_keeps {cmd : Command} (hid : cmd.id ≠ "") :
    Keeps deviceID now (handleUpdateGroups deviceID cmd) := by
  refine Onward.await trivial fun now' hle outcome _ ↦ ?_
  cases outcome with
  | unsupported => exact reject_keeps ..
  | failed err => exact reject_keeps ..
  | done => exact finish_keeps (completed_due hid "")

/-- A result that is published again was fit to be published before. -/
theorem replay_keeps {cmd : Command} (hid : cmd.id ≠ "") :
    Keeps deviceID now (replay deviceID cmd) := by
  refine Onward.await trivial fun now' hle cached hcached ↦ ?_
  split
  · exact onward_perform (accepted_due hid .running)
  · rename_i cached
    exact onward_perform (hcached cached false rfl)
  · trivial
  · trivial

theorem enqueueOnce_keeps {cmd : Command} (hid : cmd.id ≠ "") (queueDepth maxConcurrent : Nat) :
    Keeps deviceID now (enqueueOnce deviceID queueDepth maxConcurrent cmd) := by
  refine Onward.await trivial fun now' _ first _ ↦ ?_
  split
  · refine Onward.await hid fun now'' _ queued _ ↦ ?_
    split
    · exact onward_perform (accepted_due hid .queued)
    · exact Onward.await trivial fun _ _ _ _ ↦ reject_keeps ..
  · exact replay_keeps hid

theorem handleLive_keeps {cmd : Command} (hid : cmd.id ≠ "") (queueDepth maxConcurrent : Nat) :
    Keeps deviceID now (handleLive deviceID queueDepth maxConcurrent cmd) := by
  unfold handleLive
  split
  · exact onward_perform trivial
  split
  · exact handleUpdateGroups_keeps hid
  · exact enqueueOnce_keeps hid queueDepth maxConcurrent

/-- A command that is handled has passed the validation, and so it has an id. -/
theorem handleMessage_keeps (sha1 : List UInt8 → List UInt8) (queueDepth maxConcurrent : Nat)
    (payload : Option Command) :
    Keeps deviceID now (handleMessage sha1 deviceID queueDepth maxConcurrent payload) := by
  unfold handleMessage
  split
  · trivial
  dsimp only
  split
  · exact reject_keeps ..
  · rename_i hvalid
    refine expired_await _ fun now' _ late ↦ ?_
    split
    · exact reject_keeps ..
    · exact handleLive_keeps (Command.id_ne_of_validate hvalid) queueDepth maxConcurrent

/-! ### Running a command -/

/-- The chunks are numbered from 0, so no number exceeds how many there are. -/
theorem publishChunks_await {id : String} (hid : id ≠ "") {f : Unit → AgentM Unit}
    (hf : ∀ now', now ≤ now' → Keeps deviceID now' (f ())) (seq : Nat)
    (chunks : List (OutputStream × String)) (hseq : seq + chunks.length ≤ MAX_SAFE_INTEGER) :
    Keeps deviceID now (publishChunks deviceID id seq chunks >>= f) := by
  induction chunks generalizing seq now with
  | nil => exact hf now le_rfl
  | cons chunk chunks ih =>
      obtain ⟨stream, data⟩ := chunk
      rw [List.length_cons] at hseq
      have hdue : Result.Due deviceID now
          { id, deviceID, kind := .chunk, seq, stream := some stream, data } :=
        { accepted_due hid .running with
          seq := by
            show Safe (seq : Int)
            unfold Safe MAX_SAFE_INTEGER at *
            push_cast at hseq
            omega
          stream := fun _ ↦ rfl }
      rw [publishChunks, Prog.bind_assoc]
      refine Onward.await hdue fun now' hle _ _ ↦ ?_
      refine ih (fun now'' hle' ↦ hf now'' (le_trans hle hle')) (seq + 1) ?_
      push_cast at hseq ⊢
      omega

theorem finalResult_due {id : String} (hid : id ≠ "") {res : ExecResult}
    (h : Safe res.exitCode ∧ Safe res.dropped ∧ 0 ≤ res.durationMS ∧ res.durationMS ≤ now)
    (finishedAt : Int) : (finalResult deviceID id res finishedAt).Due deviceID now where
  v := rfl
  id := hid
  deviceID := rfl
  exitCode c hc := by
    cases hc
    exact h.1
  droppedBytes := h.2.1
  durationMS d hd := by
    cases hd
    exact h.2.2
  seq := safe_zero
  stream h := by cases h

theorem awaitExec_keeps {cmd : Command} (hid : cmd.id ≠ "") (ctx : Nat) {startedAt : Int}
    {chunks : List (OutputStream × String)} (hstart : 0 ≤ startedAt ∧ startedAt ≤ now)
    (hchunks : chunks.length ≤ MAX_SAFE_INTEGER) :
    Keeps deviceID now (awaitExec deviceID ctx cmd startedAt chunks) := by
  unfold awaitExec
  have hstreamed : ((0 : Nat) : Int) + (if cmd.stream then chunks else []).length ≤
      MAX_SAFE_INTEGER := by
    split
    · push_cast
      omega
    · decide
  refine publishChunks_await hid (fun now' hle ↦ ?_) 0 _ hstreamed
  refine Onward.await ⟨hstart.1, hstart.2.trans hle⟩ fun now'' _ res hres ↦ ?_
  refine Onward.await trivial fun _ hle' finishedAt _ ↦ ?_
  exact finish_keeps ((finalResult_due hid (hres res rfl) finishedAt).later hle')

theorem runJob_keeps {cmd : Command} (hid : cmd.id ≠ "") (ctx : Nat) :
    Keeps deviceID now (runJob deviceID ctx cmd) := by
  unfold runJob
  split
  · exact finish_keeps (completed_due hid "pong")
  split
  · exact finish_keeps (completed_due hid "")
  refine Onward.await (accepted_due hid .running) fun _ _ _ _ ↦ ?_
  refine Onward.await trivial fun _ _ started hstarted ↦ ?_
  cases started with
  | error err => exact finish_keeps (rejected_due hid .spawnFailed err)
  | ok run =>
      obtain ⟨hpos, hle, hchunks⟩ := hstarted run.1 run.2 rfl
      exact awaitExec_keeps hid ctx ⟨hpos, hle⟩ hchunks

theorem worker_keeps (turns : Nat) : Keeps deviceID now (worker deviceID turns) := by
  induction turns generalizing now with
  | zero => trivial
  | succ turns ih =>
      refine Onward.await trivial fun now' _ job hjob ↦ ?_
      cases job with
      | none => exact ih
      | some cmd =>
          have hid : cmd.id ≠ "" := hjob cmd rfl
          have hrun : Keeps deviceID now' (run deviceID cmd) :=
            Onward.await trivial fun _ _ ctx _ ↦
              (runJob_keeps hid ctx).bind fun _ _ _ ↦ onward_perform trivial
          exact hrun.bind fun _ _ _ ↦ ih

theorem program_keeps (cfg : Config) (task : Task) :
    Keeps cfg.deviceID now (task.program cfg) := by
  cases task with
  | message payload => exact handleMessage_keeps ..
  | worker turns => exact worker_keeps turns

end Programs

/-! ## Every run -/

/-- The state that the tasks share. -/
structure Stocked (deviceID : String) (s : Dispatcher) : Prop where
  clock : 0 ≤ s.clock
  outcome : ∀ ctx, (s.outcome ctx).Sane
  queue : ∀ cmd ∈ s.queue, cmd.id ≠ ""
  cached : ∀ id e r, s.seen.entry id = some e → e.result = some r → r.Due deviceID s.clock

theorem Stocked.answers {deviceID : String} {s : Dispatcher} (h : Stocked deviceID s) {β : Type}
    {op : AgentOp β} (hop : Keeping deviceID s.clock β op) :
    Answering deviceID s.clock β op (.ok (s.serve op).1) := by
  cases op with
  | cachedResult id =>
      intro cached running heq
      obtain ⟨e, he, hpair⟩ := Option.map_eq_some_iff.mp (Except.ok.inj heq)
      exact h.cached id e cached he (Prod.mk.inj hpair).1
  | dequeue =>
      intro cmd heq
      have hserved : (s.serve .dequeue).1 = some cmd := Except.ok.inj heq
      simp only [Dispatcher.serve] at hserved
      split at hserved
      · cases hserved
      · rename_i cmd' queue hqueue
        cases hserved
        exact h.queue cmd (hqueue ▸ List.mem_cons_self)
  | startRun ctx cmd =>
      intro startedAt chunks heq
      have hserved : s.startShell ctx = .ok (startedAt, chunks) := Except.ok.inj heq
      unfold Dispatcher.startShell at hserved
      split at hserved
      · cases hserved
      split at hserved
      · cases hserved
      · cases hserved
        exact ⟨h.clock, le_rfl, (h.outcome ctx).chunks⟩
  | endRun ctx id startedAt =>
      intro res heq
      have hserved := Except.ok.inj heq
      subst hserved
      refine ⟨?_, (h.outcome ctx).dropped, Int.sub_nonneg_of_le hop.2, Int.sub_le_self _ hop.1⟩
      simp only [Dispatcher.serve, Dispatcher.execResult]
      split
      · decide
      split
      · decide
      · exact (h.outcome ctx).exitCode
  | _ => trivial

theorem Stocked.serve {deviceID : String} {s : Dispatcher} (h : Stocked deviceID s) {β : Type}
    {op : AgentOp β} (hop : Keeping deviceID s.clock β op) :
    Stocked deviceID (s.serve op).2 ∧ (s.serve op).2.clock = s.clock := by
  cases op with
  | add id =>
      refine ⟨{ h with cached := fun id' e r he hr ↦ ?_ }, rfl⟩
      exact h.cached id' e r (Cache.entry_of_entry_add he hr) hr
  | remove id =>
      refine ⟨{ h with cached := fun id' e r he hr ↦ ?_ }, rfl⟩
      have hentry : (s.seen.remove id).entry id' = some e := he
      rw [Cache.entry_remove] at hentry
      split at hentry
      · cases hentry
      · exact h.cached id' e r hentry hr
  | complete id result =>
      refine ⟨{ h with cached := fun id' e r he hr ↦ ?_ }, rfl⟩
      have hentry : (s.seen.complete id result).entry id' = some e := he
      rw [Cache.entry_complete] at hentry
      split at hentry
      · obtain ⟨e', -, rfl⟩ := Option.map_eq_some_iff.mp hentry
        cases hr
        exact hop
      · exact h.cached id' e r hentry hr
  | enqueue cmd =>
      simp only [Dispatcher.serve]
      split
      · refine ⟨{ h with queue := fun cmd' hmem ↦ ?_ }, rfl⟩
        rcases List.mem_append.mp hmem with hmem | hmem
        · exact h.queue cmd' hmem
        · exact List.mem_singleton.mp hmem ▸ hop
      · exact ⟨h, rfl⟩
  | dequeue =>
      simp only [Dispatcher.serve]
      split
      · exact ⟨h, rfl⟩
      · rename_i cmd queue hqueue
        refine ⟨{ h with queue := fun cmd' hmem ↦ ?_ }, rfl⟩
        exact h.queue cmd' (hqueue ▸ List.mem_cons_of_mem cmd hmem)
  | cancelRunning id =>
      simp only [Dispatcher.serve]
      split
      · exact ⟨h, rfl⟩
      · exact ⟨{ h with }, rfl⟩
  | storeRunning id => exact ⟨{ h with }, rfl⟩
  | deleteRunning id => exact ⟨{ h with }, rfl⟩
  | _ => exact ⟨h, rfl⟩

/-- Every task keeps to the discipline from the present on. -/
structure Disciplined {ι : Type} (deviceID : String) (c : AgentPool ι) : Prop where
  shared : Stocked deviceID c.shared
  tasks : ∀ i, Keeps deviceID c.shared.clock (c.thread i)

theorem Disciplined.step {ι : Type} [DecidableEq ι] {deviceID : String} {c d : AgentPool ι}
    (hc : Disciplined deviceID c) {e : Event ι Empty Nat} (h : agentStep c e = some d) :
    Disciplined deviceID d := by
  cases e with
  | run i f =>
      obtain ⟨β, op, k, hi, hshared, hself, hother⟩ := agentStep_run h
      have hcall : Keeps deviceID c.shared.clock (.call op k) := hi ▸ hc.tasks i
      obtain ⟨hstocked, hclock⟩ := hc.shared.serve hcall.1
      refine ⟨hshared ▸ hstocked, fun j ↦ ?_⟩
      rw [hshared, hclock]
      by_cases hj : j = i
      · subst hj
        rw [hself]
        exact hcall.2 c.shared.clock le_rfl _ (hc.shared.answers hcall.1)
      · rw [hother j hj]
        exact hc.tasks j
  | env ms =>
      have hd : d = ⟨c.shared.tick ms, c.thread⟩ := Pool.step_env h
      have hle : c.shared.clock ≤ (c.shared.tick ms).clock :=
        Int.le_add_of_nonneg_right (Int.natCast_nonneg ms)
      subst hd
      refine ⟨{ hc.shared with
        clock := hc.shared.clock.trans hle
        cached := fun id e r he hr ↦ (hc.shared.cached id e r he hr).later hle }, fun i ↦ ?_⟩
      exact (hc.tasks i).later keeping_later hle

theorem Disciplined.start {ι : Type} {cfg : Config} {clock : Int} {outcome : Nat → Outcome}
    (hclock : 0 ≤ clock) (houtcome : ∀ ctx, (outcome ctx).Sane) (tasks : ι → Task)
    (onUpdateGroups : List String → GroupUpdate) :
    Disciplined cfg.deviceID (start cfg tasks clock outcome onUpdateGroups) where
  shared :=
    { clock := hclock
      outcome := houtcome
      queue := fun cmd h ↦ absurd h List.not_mem_nil
      cached := fun id e r h _ ↦ by cases h }
  tasks i := program_keeps cfg (tasks i)

/-- Whatever is published in a run is due. -/
theorem published_due {ι : Type} [DecidableEq ι] {cfg : Config} {clock : Int}
    {outcome : Nat → Outcome} (hclock : 0 ≤ clock) (houtcome : ∀ ctx, (outcome ctx).Sane)
    {tasks : ι → Task} {onUpdateGroups : List String → GroupUpdate}
    {guard : AgentPool ι → Event ι Empty Nat → Prop} {c : AgentPool ι}
    (hc : Reach agentStep guard (start cfg tasks clock outcome onUpdateGroups) c) {i : ι}
    {r : Result} {k : Except Empty Unit → AgentM Unit} (hi : c.thread i = .call (.publish r) k) :
    r.Due cfg.deviceID c.shared.clock := by
  have hdisciplined : Disciplined cfg.deviceID c :=
    hc.invariant (Disciplined.start hclock houtcome tasks onUpdateGroups)
      fun _ _ _ hs _ hstep ↦ hs.step hstep
  have htask := hdisciplined.tasks i
  rw [hi] at htask
  exact htask.1

end Zenstier.Agent
