import Zenstier.Agent.Dedupe
import Zenstier.Agent.Protocol
import Zenstier.Concurrent.History

/-!
# The dispatcher

`HandleMessage` and the workers of `dispatcher.go`.  Every message is handled by a program
of its own, since paho calls the handler without an order, and every worker takes jobs from
the queue one after the other.  What they share is the dedupe cache, the queue and the map
of running commands; each access to one of them is a request, as are the start and the end
of a shell.  None of them fails: an error of a publish is only logged, and whether a message
gets anywhere is up to the broker.

A worker is given a number of turns, which bounds how often it looks at the queue.
-/

namespace Zenstier.Agent

open Store Concurrent

/-! ## The requests -/

/-- `executor.Result`. -/
structure ExecResult where
  exitCode : Int
  stdout : String
  stderr : String
  truncated : Bool
  dropped : Nat
  timedOut : Bool
  canceled : Bool
  startedAt : Int
  durationMS : Int
deriving DecidableEq, Repr, Inhabited

/-- How a shell fares. -/
structure Outcome where
  /-- Why it cannot be started. -/
  spawnError : Option String := none
  /-- What it writes while it runs. -/
  chunks : List (OutputStream × String) := []
  exitCode : Int := 0
  stdout : String := ""
  stderr : String := ""
  truncated : Bool := false
  dropped : Nat := 0
  timedOut : Bool := false
  /-- The agent shuts down while it runs. -/
  shutdown : Bool := false
deriving DecidableEq, Repr

/-- What becomes of a change of groups. -/
inductive GroupUpdate
  | unsupported
  | failed (err : String)
  | done
deriving DecidableEq, Repr

inductive AgentOp : Type → Type
  | now : AgentOp Int
  | updateGroups (groups : List String) : AgentOp GroupUpdate
  /-- `seen.Add`. -/
  | add (id : String) : AgentOp Bool
  /-- `seen.CachedResult`. -/
  | cachedResult (id : String) : AgentOp (Option (Option Result × Bool))
  /-- `seen.Remove`. -/
  | remove (id : String) : AgentOp Unit
  /-- `seen.Complete`. -/
  | complete (id : String) (result : Result) : AgentOp Unit
  /-- Puts a job into the queue, unless it is full. -/
  | enqueue (cmd : Command) : AgentOp Bool
  /-- Takes a job from the queue, if there is one. -/
  | dequeue : AgentOp (Option Command)
  /-- `running.Store`, for a new context. -/
  | storeRunning (id : String) : AgentOp Nat
  /-- `running.Delete`. -/
  | deleteRunning (id : String) : AgentOp Unit
  /-- Cancels the context of a running command. -/
  | cancelRunning (id : String) : AgentOp Unit
  /-- `exec.Run` is called: why the shell cannot be started, or when it is and what it will
  write. -/
  | startRun (ctx : Nat) (cmd : Command) :
      AgentOp (Except String (Int × List (OutputStream × String)))
  /-- `exec.Run` returns. -/
  | endRun (ctx : Nat) (id : String) (startedAt : Int) : AgentOp ExecResult
  | publish (result : Result) : AgentOp Unit

/-! ## The shared state -/

/-- What the handlers and the workers share. -/
structure Dispatcher where
  clock : Int
  seen : Cache Result
  queue : List Command
  queueDepth : Nat
  /-- Command id to context. -/
  running : Table String Nat
  /-- The contexts, by whether they are canceled. -/
  contexts : List Bool
  /-- How the shell of a context fares. -/
  outcome : Nat → Outcome
  /-- `onUpdateGroups`. -/
  onUpdateGroups : List String → GroupUpdate

namespace Dispatcher

/-- What a shell returns, if its context is canceled or not. -/
def execResult (o : Outcome) (canceled : Bool) (startedAt now : Int) : ExecResult where
  exitCode := if o.timedOut then 124 else if canceled then 125 else o.exitCode
  stdout := o.stdout
  stderr := o.stderr
  truncated := o.truncated
  dropped := o.dropped
  timedOut := o.timedOut
  canceled := !o.timedOut && canceled
  startedAt
  durationMS := now - startedAt

/-- Why the shell of a context cannot be started, or when it is and what it will write.  It is not
started any more once the context is canceled. -/
def startShell (s : Dispatcher) (ctx : Nat) :
    Except String (Int × List (OutputStream × String)) :=
  match (s.outcome ctx).spawnError with
  | some err => .error err
  | none =>
      if s.contexts.getD ctx false then .error "context canceled"
      else .ok (s.clock, (s.outcome ctx).chunks)

/-- One request. -/
def serve {β : Type} (s : Dispatcher) : AgentOp β → β × Dispatcher
  | .now => (s.clock, s)
  | .updateGroups groups => (s.onUpdateGroups groups, s)
  | .add id => ((s.seen.add s.clock id).1, { s with seen := (s.seen.add s.clock id).2 })
  | .cachedResult id => (s.seen.cachedResult id, s)
  | .remove id => ((), { s with seen := s.seen.remove id })
  | .complete id result => ((), { s with seen := s.seen.complete id result })
  | .enqueue cmd =>
      if s.queue.length < s.queueDepth then (true, { s with queue := s.queue ++ [cmd] })
      else (false, s)
  | .dequeue => match s.queue with
      | [] => (none, s)
      | cmd :: queue => (some cmd, { s with queue })
  | .storeRunning id =>
      (s.contexts.length, { s with
        running := s.running.put id s.contexts.length
        contexts := s.contexts ++ [false] })
  | .deleteRunning id => ((), { s with running := s.running.delete id })
  | .cancelRunning id => match s.running.find? id with
      | none => ((), s)
      | some ctx => ((), { s with contexts := s.contexts.set ctx true })
  | .startRun ctx _ => (s.startShell ctx, s)
  | .endRun ctx _ startedAt =>
      (execResult (s.outcome ctx) (s.contexts.getD ctx false || (s.outcome ctx).shutdown)
        startedAt s.clock, s)
  | .publish _ => ((), s)

/-- Time passes. -/
def tick (ms : Nat) (s : Dispatcher) : Dispatcher := { s with clock := s.clock + ms }

end Dispatcher

/-- The dispatcher as a server of its handlers and workers; no request fails. -/
def agentServer : Server AgentOp Empty Dispatcher where
  serve op s := (.ok (s.serve op).1, (s.serve op).2)

/-- Programs of the agent. -/
abbrev AgentM := Prog AgentOp Empty

/-! ## Publishing -/

section Programs

variable (sha1 : List UInt8 → List UInt8) (deviceID : String)

def publish (r : Result) : AgentM Unit := .perform (.publish r)

/-- The message that a command is queued or running. -/
def acceptedResult (id : String) (status : ResultStatus) : Result :=
  { id, deviceID, kind := .accepted, status := some status }

/-- The result of a command that is done without a shell. -/
def completedResult (id stdout : String) : Result :=
  { id, deviceID, kind := .result, status := some .completed, stdout }

/-- The result of a command that is not run, or cannot be. -/
def rejectedResult (id : String) (code : ErrorCode) (message : String) : Result :=
  { id, deviceID, kind := .result, status := some .rejected, errorCode := some code
    error := message }

def reject (id : String) (code : ErrorCode) (message : String) : AgentM Unit :=
  if id = "" then return else publish (rejectedResult deviceID id code message)

def finish (r : Result) : AgentM Unit := do
  .perform (.complete r.id r)
  publish r

/-! ## Handling a message -/

/-- The command is handled after it has expired. -/
def expired (cmd : Command) : AgentM Bool :=
  match cmd.expiresAt with
  | none => return false
  | some expiresAt => do
      let now ← .perform .now
      return decide (expiresAt < now)

def handleUpdateGroups (cmd : Command) : AgentM Unit := do
  match ← .perform (.updateGroups cmd.groups) with
  | .unsupported => reject deviceID cmd.id .unsupportedType "group updates not supported"
  | .failed err => reject deviceID cmd.id .internal err
  | .done => finish (completedResult deviceID cmd.id "")

/-- Answers a duplicate: with the result, if there is one. -/
def replay (cmd : Command) : AgentM Unit := do
  match ← .perform (.cachedResult cmd.id) with
  | some (_, true) => publish (acceptedResult deviceID cmd.id .running)
  | some (some cached, false) => publish cached
  | some (none, false) | none => return

/-- The text of a rejection for overload. -/
def queueFull (queueDepth maxConcurrent : Nat) : String :=
  s!"queue full ({queueDepth} queued, {maxConcurrent} workers)"

/-- Queues a command that has not been seen before. -/
def enqueue (queueDepth maxConcurrent : Nat) (cmd : Command) : AgentM Unit := do
  let queued ← .perform (.enqueue cmd)
  if queued then publish (acceptedResult deviceID cmd.id .queued)
  else do
    -- Overload: reject loudly.
    .perform (.remove cmd.id)
    reject deviceID cmd.id .agentBusy (queueFull queueDepth maxConcurrent)

/-- Handles a command that is to be executed, unless it is a duplicate. -/
def enqueueOnce (queueDepth maxConcurrent : Nat) (cmd : Command) : AgentM Unit := do
  let first ← .perform (.add cmd.id)
  if first then enqueue deviceID queueDepth maxConcurrent cmd else replay deviceID cmd

/-- Handles a command that has not expired. -/
def handleLive (queueDepth maxConcurrent : Nat) (cmd : Command) : AgentM Unit :=
  if cmd.type = "cancel" then
    .perform (.cancelRunning cmd.targetID)
  else if cmd.type = "update_groups" then
    handleUpdateGroups deviceID cmd
  else enqueueOnce deviceID queueDepth maxConcurrent cmd

/-- Handles a command that is valid. -/
def handleCommand (queueDepth maxConcurrent : Nat) (cmd : Command) : AgentM Unit := do
  -- Defence in depth: never run a command whose operational context has expired.
  if ← expired cmd then
    reject deviceID cmd.id .expired "command expired before delivery"
  else handleLive deviceID queueDepth maxConcurrent cmd

/-- A command that does not expire. -/
theorem handleCommand_unexpiring {cmd : Command} (h : cmd.expiresAt = none)
    (queueDepth maxConcurrent : Nat) : handleCommand deviceID queueDepth maxConcurrent cmd =
      handleLive deviceID queueDepth maxConcurrent cmd := by
  simp [handleCommand, expired, h]

/-- A command that expires. -/
theorem handleCommand_expiring {cmd : Command} {expiresAt : Int}
    (h : cmd.expiresAt = some expiresAt) (queueDepth maxConcurrent : Nat) :
    handleCommand deviceID queueDepth maxConcurrent cmd =
      .call .now fun r ↦ .ofExcept r >>= fun now ↦
        if expiresAt < now then reject deviceID cmd.id .expired "command expired before delivery"
        else handleLive deviceID queueDepth maxConcurrent cmd := by
  simp [handleCommand, expired, h]

/-- `HandleMessage`, of a message that may be malformed. -/
def handleMessage (queueDepth maxConcurrent : Nat) : Option Command → AgentM Unit
  | none => return
  | some msg =>
      let cmd := msg.normalize sha1 deviceID
      match cmd.validate with
      | some err => reject deviceID cmd.id .invalidCommand err
      | none => handleCommand deviceID queueDepth maxConcurrent cmd

/-- What a message leads to. -/
theorem handleMessage_cases {motive : AgentM Unit → Prop} {queueDepth maxConcurrent : Nat}
    (malformed : motive (pure ()))
    (invalid : ∀ (cmd : Command) (err : String),
      motive (reject deviceID cmd.id .invalidCommand err))
    (valid : ∀ cmd, motive (handleCommand deviceID queueDepth maxConcurrent cmd))
    (payload : Option Command) :
    motive (handleMessage sha1 deviceID queueDepth maxConcurrent payload) := by
  cases payload with
  | none => exact malformed
  | some msg =>
      dsimp only [handleMessage]
      cases (msg.normalize sha1 deviceID).validate with
      | some err => exact invalid _ err
      | none => exact valid _

/-! ## Running a command -/

/-- The result of a shell that has run. -/
def finalResult (id : String) (res : ExecResult) (finishedAt : Int) : Result where
  id
  deviceID
  kind := .result
  status :=
    if res.timedOut then some .timeout
    else if res.canceled then some .canceled
    else if res.exitCode ≠ 0 then some .failed
    else some .completed
  exitCode := some res.exitCode
  stdout := res.stdout
  stderr := res.stderr
  truncated := res.truncated
  droppedBytes := res.dropped
  startedAt := some res.startedAt
  finishedAt := some finishedAt
  durationMS := some res.durationMS
  errorCode := if res.timedOut then some .timeout else none

/-- Publishes what a shell writes, numbered across both streams. -/
def publishChunks (id : String) : Nat → List (OutputStream × String) → AgentM Unit
  | _, [] => return
  | seq, (stream, data) :: chunks => do
      publish { id, deviceID, kind := .chunk, seq, stream := some stream, data }
      publishChunks id (seq + 1) chunks

/-- Waits for a shell that has been started. -/
def awaitExec (ctx : Nat) (cmd : Command) (startedAt : Int)
    (chunks : List (OutputStream × String)) : AgentM Unit := do
  publishChunks deviceID cmd.id 0 (if cmd.stream then chunks else [])
  let res ← .perform (.endRun ctx cmd.id startedAt)
  let finishedAt ← .perform .now
  finish (finalResult deviceID cmd.id res finishedAt)

/-- Runs the shell of a command. -/
def runExec (ctx : Nat) (cmd : Command) : AgentM Unit := do
  publish (acceptedResult deviceID cmd.id .running)
  match ← .perform (.startRun ctx cmd) with
  | .error err => finish (rejectedResult deviceID cmd.id .spawnFailed err)
  | .ok (startedAt, chunks) => awaitExec deviceID ctx cmd startedAt chunks

/-- Runs a command by its type. -/
def runJob (ctx : Nat) (cmd : Command) : AgentM Unit :=
  if cmd.type = "ping" then finish (completedResult deviceID cmd.id "pong")
  else if cmd.type = "collect_facts" then finish (completedResult deviceID cmd.id "")
  else runExec deviceID ctx cmd

/-- `run`. -/
def run (cmd : Command) : AgentM Unit := do
  let ctx ← .perform (.storeRunning cmd.id)
  runJob deviceID ctx cmd
  .perform (.deleteRunning cmd.id)

/-- The loop of a worker, for some turns. -/
def worker : Nat → AgentM Unit
  | 0 => return
  | turns + 1 => do
      match ← .perform .dequeue with
      | none => worker turns
      | some cmd => do
          run deviceID cmd
          worker turns

end Programs

/-! ## The requests of the parts -/

section Requests

open Prog

variable {P : ∀ β : Type, AgentOp β → Prop} {deviceID : String}

theorem reject_only (hpublish : ∀ r, P Unit (.publish r)) (id : String) (code : ErrorCode)
    (message : String) : Only P (reject deviceID id code message) := by
  unfold reject
  split
  · trivial
  · exact (only_perform _).mpr (hpublish _)

theorem finish_only (r : Result) (hcomplete : P Unit (.complete r.id r))
    (hpublish : P Unit (.publish r)) : Only P (finish r) :=
  Only.await hcomplete fun _ ↦ (only_perform _).mpr hpublish

theorem expired_only (hnow : P Int .now) (cmd : Command) : Only P (expired cmd) := by
  unfold expired
  split
  · trivial
  · exact Only.await hnow fun _ ↦ trivial

theorem handleUpdateGroups_only (hgroups : ∀ groups, P GroupUpdate (.updateGroups groups))
    (hcomplete : ∀ id r, P Unit (.complete id r)) (hpublish : ∀ r, P Unit (.publish r))
    (cmd : Command) : Only P (handleUpdateGroups deviceID cmd) := by
  refine Only.await (hgroups _) fun outcome ↦ ?_
  cases outcome with
  | unsupported => exact reject_only hpublish ..
  | failed err => exact reject_only hpublish ..
  | done => exact finish_only _ (hcomplete ..) (hpublish _)

theorem replay_only (hcached : ∀ id, P (Option (Option Result × Bool)) (.cachedResult id))
    (hpublish : ∀ r, P Unit (.publish r)) (cmd : Command) : Only P (replay deviceID cmd) := by
  refine Only.await (hcached _) fun cached ↦ ?_
  split
  · exact (only_perform _).mpr (hpublish _)
  · exact (only_perform _).mpr (hpublish _)
  · trivial
  · trivial

/-- What follows on the attempt to queue a command. -/
theorem queued_only (hremove : ∀ id, P Unit (.remove id)) (hpublish : ∀ r, P Unit (.publish r))
    (queueDepth maxConcurrent : Nat) (cmd : Command) (queued : Bool) :
    Only P (if queued then publish (acceptedResult deviceID cmd.id .queued)
    else do
      .perform (.remove cmd.id)
      reject deviceID cmd.id .agentBusy (queueFull queueDepth maxConcurrent)) := by
  split
  · exact (only_perform _).mpr (hpublish _)
  · exact Only.await (hremove _) fun _ ↦ reject_only hpublish ..

theorem publishChunks_only (hpublish : ∀ r, P Unit (.publish r)) (id : String) (seq : Nat)
    (chunks : List (OutputStream × String)) : Only P (publishChunks deviceID id seq chunks) := by
  induction chunks generalizing seq with
  | nil => trivial
  | cons chunk chunks ih => exact Only.await (hpublish _) fun _ ↦ ih _

theorem awaitExec_only {cmd : Command} (hnow : P Int .now)
    (hcomplete : ∀ r, r.id = cmd.id → P Unit (.complete cmd.id r))
    (hend : ∀ ctx t, P ExecResult (.endRun ctx cmd.id t)) (hpublish : ∀ r, P Unit (.publish r))
    (ctx : Nat) (startedAt : Int) (chunks : List (OutputStream × String)) :
    Only P (awaitExec deviceID ctx cmd startedAt chunks) := by
  refine Only.bind (publishChunks_only hpublish ..) fun _ ↦ ?_
  refine Only.await (hend ctx startedAt) fun _ ↦ Only.await hnow fun _ ↦ ?_
  exact finish_only _ (hcomplete _ rfl) (hpublish _)

theorem runJob_only {cmd : Command} (hnow : P Int .now)
    (hcomplete : ∀ r, r.id = cmd.id → P Unit (.complete cmd.id r))
    (hstart : ∀ ctx, P (Except String (Int × List (OutputStream × String))) (.startRun ctx cmd))
    (hend : ∀ ctx t, P ExecResult (.endRun ctx cmd.id t)) (hpublish : ∀ r, P Unit (.publish r))
    (ctx : Nat) : Only P (runJob deviceID ctx cmd) := by
  unfold runJob
  split
  · exact finish_only _ (hcomplete _ rfl) (hpublish _)
  split
  · exact finish_only _ (hcomplete _ rfl) (hpublish _)
  refine Only.await (hpublish _) fun _ ↦ Only.await (hstart ctx) fun started ↦ ?_
  cases started with
  | error err => exact finish_only _ (hcomplete _ rfl) (hpublish _)
  | ok run => exact awaitExec_only hnow hcomplete hend hpublish ..

end Requests

/-! ## The agent -/

/-- What runs in the agent: the handler of a message, or a worker. -/
inductive Task
  | message (payload : Option Command)
  | worker (turns : Nat)
deriving DecidableEq, Repr

/-- The settings of the agent. -/
structure Config where
  sha1 : List UInt8 → List UInt8
  deviceID : String
  queueDepth : Nat := 32
  maxConcurrent : Nat := 4

/-- The program of a task. -/
def Task.program (cfg : Config) : Task → AgentM Unit
  | .message payload =>
      handleMessage cfg.sha1 cfg.deviceID cfg.queueDepth cfg.maxConcurrent payload
  | .worker turns => Agent.worker cfg.deviceID turns

/-- The agent with all its tasks. -/
abbrev AgentPool (ι : Type) := Pool ι AgentOp Empty Unit Dispatcher

/-- An agent that has just started. -/
def start {ι : Type} (cfg : Config) (tasks : ι → Task) (clock : Int) (outcome : Nat → Outcome)
    (onUpdateGroups : List String → GroupUpdate) : AgentPool ι where
  shared :=
    { clock, seen := .new, queue := [], queueDepth := cfg.queueDepth, running := ∅
      contexts := [], outcome, onUpdateGroups }
  thread i := (tasks i).program cfg

/-- The events of the agent: a request of a task, or passing time. -/
def agentStep {ι : Type} [DecidableEq ι] :
    AgentPool ι → Event ι Empty Nat → Option (AgentPool ι) :=
  Pool.step agentServer Dispatcher.tick

/-- No request fails. -/
theorem agentServer_reply {β : Type} (f : Fate Empty) (op : AgentOp β) (s : Dispatcher) :
    agentServer.reply f op s = .ok (s.serve op).1 ∧ agentServer.after f op s = (s.serve op).2 := by
  cases f with
  | served => exact ⟨rfl, rfl⟩
  | refused e => exact e.elim
  | unanswered e => exact e.elim

/-- A request of a task. -/
theorem agentStep_run {ι : Type} [DecidableEq ι] {c d : AgentPool ι} {i : ι} {f : Fate Empty}
    (h : agentStep c (.run i f) = some d) :
    ∃ (β : Type) (op : AgentOp β) (k : Except Empty β → AgentM Unit),
      c.thread i = .call op k ∧ d.shared = (c.shared.serve op).2 ∧
      d.thread i = k (.ok (c.shared.serve op).1) ∧ ∀ j, j ≠ i → d.thread j = c.thread j := by
  obtain ⟨β, op, k, hi, rfl⟩ := Pool.step_run h
  obtain ⟨hreply, hafter⟩ := agentServer_reply f op c.shared
  refine ⟨β, op, k, hi, hafter, ?_, fun j hj ↦ Pool.resume_thread_of_ne c hj f op k⟩
  rw [Pool.resume_thread_self, hreply]

/-- A recorded request of a task. -/
theorem agentStep_recorded {ι O : Type} [DecidableEq ι]
    {watch : ι → ∀ β : Type, AgentOp β → Dispatcher → List O} {r r' : Recorded (AgentPool ι) O}
    {i : ι} {f : Fate Empty}
    (h : Recorded.step agentStep (Pool.observe watch) r (.run i f) = some r') :
    ∃ (β : Type) (op : AgentOp β) (k : Except Empty β → AgentM Unit),
      r.state.thread i = .call op k ∧ r'.state.shared = (r.state.shared.serve op).2 ∧
      r'.state.thread i = k (.ok (r.state.shared.serve op).1) ∧
      (∀ j, j ≠ i → r'.state.thread j = r.state.thread j) ∧
      r'.log = r.log ++ watch i β op r.state.shared := by
  obtain ⟨hstep, hlog⟩ := Recorded.step_eq_some h
  obtain ⟨β, op, k, hi, hshared, hself, hother⟩ := agentStep_run hstep
  refine ⟨β, op, k, hi, hshared, hself, hother, hlog.trans ?_⟩
  simp only [Pool.observe, hi]
  cases f with
  | served => rfl
  | refused e => exact e.elim
  | unanswered e => exact e.elim

end Zenstier.Agent
