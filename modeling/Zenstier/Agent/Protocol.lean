import Zenstier.Commands.Protocol
import Zenstier.Runtime

/-!
# The agent's side of the wire protocol

The commands and results of `protocol.go`, as far as the dispatcher looks at them.  A time
that may be zero is an `Option`, and so is a pointer.  What only the executor reads (the
shell, the environment, the limits) is left out.
-/

namespace Zenstier.Agent

/-- `Version`. -/
def version : Int := 1

/-! ## Commands -/

/-- `Command`, as the backend publishes it. -/
structure Command where
  v : Int
  id : String
  batchID : String := ""
  type : String
  expiresAt : Option Int := none
  command : String := ""
  stream : Bool := false
  /-- For `cancel`. -/
  targetID : String := ""
  /-- For `update_groups`. -/
  groups : List String := []
deriving DecidableEq, Repr

/-- What must hold before a command is queued, or why it does not. -/
def Command.validate (c : Command) : Option String :=
  if c.v ≠ version then some s!"unsupported protocol version {c.v}"
  else if c.id = "" then some "missing command id"
  else if c.type = "" ∨ c.type = "exec" then
    if c.command = "" then some "empty command" else none
  else if c.type = "cancel" then
    if c.targetID = "" then some "cancel requires target_id" else none
  else if c.type = "update_groups" ∨ c.type = "ping" ∨ c.type = "collect_facts" then none
  else some ("unsupported type " ++ c.type.quote)

/-- Every command that passes has an id. -/
theorem Command.id_ne_of_validate {c : Command} (h : c.validate = none) : c.id ≠ "" := by
  unfold validate at h
  split at h
  · cases h
  split at h
  · cases h
  · assumption

/-- The command as the dispatcher handles it: `exec` if it has no type, and under an id of its
own if it is a broadcast. -/
def Command.normalize (sha1 : List UInt8 → List UInt8) (deviceID : String) (c : Command) :
    Command :=
  { c with
    type := if c.type = "" then "exec" else c.type
    id := if c.id = "" ∧ c.batchID ≠ "" then deriveCommandID sha1 c.batchID deviceID else c.id }

/-! ## Results -/

inductive ErrorCode
  | agentBusy
  | invalidCommand
  | expired
  | unsupportedType
  | spawnFailed
  | timeout
  | internal
deriving DecidableEq, Repr

/-- `Result`, as the agent publishes it. -/
structure Result where
  v : Int := version
  id : String
  deviceID : String
  kind : ResultKind
  status : Option ResultStatus := none
  exitCode : Option Int := none
  stdout : String := ""
  stderr : String := ""
  truncated : Bool := false
  droppedBytes : Nat := 0
  startedAt : Option Int := none
  finishedAt : Option Int := none
  durationMS : Option Int := none
  errorCode : Option ErrorCode := none
  error : String := ""
  seq : Nat := 0
  stream : Option OutputStream := none
  data : String := ""
deriving DecidableEq

/-- A field that is omitted when it is empty. -/
def omitEmpty (s : String) : Option String := if s = "" then none else some s

/-- The result as the worker parses it. -/
def Result.payload (r : Result) : ResultPayload where
  id := r.id
  kind := r.kind
  status := r.status
  exitCode := r.exitCode
  stdout := omitEmpty r.stdout
  stderr := omitEmpty r.stderr
  truncated := if r.truncated then some true else none
  startedAt := r.startedAt
  finishedAt := r.finishedAt
  durationMs := r.durationMS
  error := omitEmpty r.error
  seq := if r.seq = 0 then none else some r.seq
  stream := r.stream
  data := omitEmpty r.data

end Zenstier.Agent
