import Zenstier.Commands.CommandId
import Zenstier.Schema

/-!
# The wire protocol

The topics and payloads of `protocol.ts`, as far as commands and their results need them,
and what an agent does with a command it receives.  Timestamps are milliseconds.
-/

namespace Zenstier

def PROTOCOL_VERSION : Nat := 1

/-! ## Topics -/

/-- The topics the backend publishes to. -/
inductive Topic
  | command (deviceId : String)
  | broadcastCommand (groupId : String)
deriving DecidableEq, Repr

/-- `topics`. -/
def Topic.path : Topic → String
  | .command deviceId => "zenstier/" ++ deviceId ++ "/command"
  | .broadcastCommand groupId => "zenstier/broadcast/" ++ groupId ++ "/command"

private theorem append_inj {a b c d : String} (h : a ++ b ++ d = a ++ c ++ d) : b = c :=
  (String.append_right_inj a).mp ((String.append_left_inj d).mp h)

theorem Topic.command_path_inj {d d' : String}
    (h : (Topic.command d).path = (Topic.command d').path) : d = d' := append_inj h

theorem Topic.broadcast_path_inj {g g' : String}
    (h : (Topic.broadcastCommand g).path = (Topic.broadcastCommand g').path) : g = g' :=
  append_inj h

/-- A broadcast topic is the command topic of a device whose id starts with
`broadcast/`. -/
theorem Topic.command_path_eq_broadcast {d g : String} :
    (Topic.command d).path = (Topic.broadcastCommand g).path ↔ d = "broadcast/" ++ g := by
  have hpath : (Topic.broadcastCommand g).path = (Topic.command ("broadcast/" ++ g)).path := by
    show "zenstier/broadcast/" ++ g ++ "/command" = "zenstier/" ++ ("broadcast/" ++ g) ++ "/command"
    have hsplit : "zenstier/broadcast/" = "zenstier/" ++ "broadcast/" := by decide
    rw [hsplit, @String.append_assoc "zenstier/" "broadcast/" g]
  rw [hpath]
  exact ⟨Topic.command_path_inj, fun h ↦ h ▸ rfl⟩

/-- The topics a device reports on. -/
inductive ReportTopic
  | status
  | result
deriving DecidableEq, Repr

/-- `topics.status` and `topics.result`. -/
def ReportTopic.path : ReportTopic → String → String
  | .status, deviceId => "zenstier/" ++ deviceId ++ "/status"
  | .result, deviceId => "zenstier/" ++ deviceId ++ "/result"

/-- The last level of the topic. -/
def ReportTopic.level : ReportTopic → String
  | .status => "status"
  | .result => "result"

theorem ReportTopic.path_eq (topic : ReportTopic) (u : String) :
    topic.path u = "zenstier" ++ "/" ++ u ++ "/" ++ topic.level := by
  have hsplit : "zenstier/" = "zenstier" ++ "/" := by decide
  have hstatus : "/status" = "/" ++ "status" := by decide
  have hresult : "/result" = "/" ++ "result" := by decide
  cases topic with
  | status => rw [path, hsplit, hstatus, level, ← String.append_assoc]
  | result => rw [path, hsplit, hresult, level, ← String.append_assoc]

/-! ## Commands -/

/-- The payload of an `exec` command. -/
structure CommandPayload where
  v : Nat
  /-- Absent on a broadcast: each agent derives its own. -/
  id : Option String
  batchId : String
  type : String
  issuedAt : Int
  expiresAt : Int
  issuedBy : String
  command : String
  timeoutSec : Int
  stream : Bool
deriving DecidableEq, Repr

/-- The payload of an `update_groups` command. -/
structure GroupsPayload where
  v : Nat
  id : String
  type : String
  issuedAt : Int
  expiresAt : Int
  groups : List String
deriving DecidableEq, Repr

/-- A connected agent: its device id and the groups it has subscribed to. -/
structure Agent where
  deviceId : String
  groups : List String
deriving DecidableEq, Repr

/-- A publish to the topic reaches the agent. -/
def Agent.Receives (a : Agent) : Topic → Prop
  | .command deviceId => a.deviceId = deviceId
  | .broadcastCommand groupId => groupId ∈ a.groups

instance (a : Agent) (t : Topic) : Decidable (a.Receives t) := by
  cases t <;> unfold Agent.Receives <;> infer_instance

/-- The id under which the agent runs a command: a broadcast carries only the batch id. -/
def Agent.commandID (sha1 : List UInt8 → List UInt8) (a : Agent) (p : CommandPayload) : String :=
  match p.id with
  | some id => if id = "" ∧ p.batchId ≠ "" then deriveCommandID sha1 p.batchId a.deviceId else id
  | none => if p.batchId ≠ "" then deriveCommandID sha1 p.batchId a.deviceId else ""

/-! ## Results -/

inductive ResultKind
  | accepted
  | chunk
  | result
deriving DecidableEq, Repr

inductive ResultStatus
  | queued
  | running
  | completed
  | failed
  | timeout
  | canceled
  | rejected
deriving DecidableEq, Repr

/-- What an agent reports about a command. -/
structure ResultPayload where
  id : String
  kind : ResultKind
  status : Option ResultStatus := none
  exitCode : Option Int := none
  stdout : Option String := none
  stderr : Option String := none
  truncated : Option Bool := none
  startedAt : Option Int := none
  finishedAt : Option Int := none
  durationMs : Option Int := none
  error : Option String := none
  seq : Option Nat := none
  stream : Option OutputStream := none
  data : Option String := none
deriving DecidableEq, Repr

/-- Events for the browser, as far as commands and presence raise them. -/
inductive SseEvent
  | commandAccepted (commandId deviceId : String) (running : Bool)
  | commandChunk (commandId deviceId : String) (stream : OutputStream) (seq : Nat)
      (data : String)
  | commandResult (commandId deviceId : String) (status : CommandStatus)
      (exitCode : Option Int) (stdout stderr : String) (truncated : Bool)
      (durationMs : Option Int) (error : Option String)
  | deviceStatus (deviceId : String) (status : DeviceStatus)
  | deviceMetrics (deviceId : String) (recordedAt : Int)
deriving DecidableEq, Repr

/-- The Redis channel of a device. -/
def deviceChannel (deviceId : String) : String := "zenstier:dev:" ++ deviceId

end Zenstier
