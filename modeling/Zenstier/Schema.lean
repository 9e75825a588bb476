/-!
# The database schema

The enumerations and rows of `prisma/schema.prisma`, as far as the modelled services
read or write them.  A row does not repeat its primary key: that is the key of the table
holding it.  Times are milliseconds since the epoch; an optional column is an `Option`.
Columns that are only rendered (a role's description, an audit entry's metadata) are
left out.
-/

namespace Zenstier

/-! ## Enumerations -/

inductive DeviceStatus
  | online
  | offline
  | unknown
deriving DecidableEq, Repr, Inhabited

inductive TokenStatus
  | active
  | revoked
  | consumed
deriving DecidableEq, Repr, Inhabited

inductive CommandStatus
  /-- Persisted, not yet published to the broker. -/
  | pending
  /-- Published to MQTT, awaiting agent acknowledgement. -/
  | dispatched
  /-- The agent reported it started executing. -/
  | running
  /-- Exit code 0. -/
  | succeeded
  /-- Non-zero exit code. -/
  | failed
  /-- Agent or server timed out the command. -/
  | timeout
  | canceled
deriving DecidableEq, Repr, Inhabited

inductive OutputStream
  | stdout
  | stderr
deriving DecidableEq, Repr, Inhabited

inductive ScheduleStatus
  | active
  | paused
deriving DecidableEq, Repr, Inhabited

inductive AuditAction
  | deviceEnrolled
  | tokenCreated
  | tokenRevoked
  | commandDispatched
  | commandRateLimited
  | teamMemberInvited
  | teamMemberJoined
  | teamMemberRemoved
  | teamMemberRoleChanged
  | teamRoleCreated
  | teamRoleUpdated
  | teamRoleDeleted
  | teamInviteRevoked
  | teamCreated
  | scheduleCreated
  | scheduleUpdated
  | scheduleRan
  | scheduleDeleted
  | user2faEnabled
  | user2faDisabled
  | user2faRecoveryUsed
  | deviceGroupCreated
  | deviceGroupUpdated
  | deviceGroupDeleted
  | alertRuleCreated
  | alertRuleUpdated
  | alertRuleDeleted
  | alertFired
deriving DecidableEq, Repr, Inhabited

/-! ## Identity, teams and roles -/

structure User where
  email : String
  /-- The team selected in the UI. -/
  activeTeamId : Option String := none
deriving DecidableEq, Repr, Inhabited

structure Team where
  name : String
  isPersonal : Bool := false
deriving DecidableEq, Repr, Inhabited

structure Role where
  teamId : String
  name : String
  /-- Permission slugs. -/
  permissions : List String
  isSystem : Bool := false
  /-- Higher rank wins when comparing authority. -/
  rank : Int := 0
deriving DecidableEq, Repr, Inhabited

structure TeamMember where
  teamId : String
  userId : String
  roleId : String
  joinedAt : Int := 0
deriving DecidableEq, Repr, Inhabited

structure TeamInvite where
  teamId : String
  email : String
  roleId : String
  /-- Only the hash is stored; the raw invite link is shown once. -/
  tokenHash : String
  invitedById : String
  expiresAt : Int
  acceptedAt : Option Int := none
  revokedAt : Option Int := none
deriving DecidableEq, Repr, Inhabited

/-! ## Fleet -/

structure DeviceGroup where
  userId : String
  teamId : String
  name : String
deriving DecidableEq, Repr, Inhabited

structure Device where
  userId : String
  teamId : String
  /-- Public identifier used in MQTT topics. -/
  deviceId : String
  name : String
  status : DeviceStatus := .unknown
  lastSeenAt : Option Int := none
  /-- The agent's current MQTT session. -/
  currentSessionId : Option String := none
  hostname : Option String := none
  osName : Option String := none
  osVersion : Option String := none
  kernel : Option String := none
  arch : Option String := none
  agentVersion : Option String := none
  groupId : Option String := none
deriving DecidableEq, Repr, Inhabited

structure AuthToken where
  userId : String
  teamId : String
  /-- The row of the device the token enrolls. -/
  deviceId : Option String
  tokenPrefix : String
  /-- SHA-256 of the full enrollment token. -/
  tokenHash : String
  mqttUsername : String
  mqttPasswordHash : String
  status : TokenStatus := .active
  label : Option String := none
  expiresAt : Option Int := none
  consumedAt : Option Int := none
  revokedAt : Option Int := none
  lastUsedAt : Option Int := none
deriving DecidableEq, Repr, Inhabited

/-! ## Command execution -/

structure CommandBatch where
  userId : String
  teamId : String
  command : String
  groupId : Option String := none
deriving DecidableEq, Repr, Inhabited

structure Command where
  userId : String
  teamId : String
  /-- The row of the device the command is for. -/
  deviceId : String
  batchId : Option String
  correlationId : String
  command : String
  status : CommandStatus := .pending
  exitCode : Option Int := none
  stdout : Option String := none
  stderr : Option String := none
  truncated : Bool := false
  error : Option String := none
  timeoutMs : Int := 60000
  dispatchedAt : Option Int := none
  startedAt : Option Int := none
  finishedAt : Option Int := none
  durationMs : Option Int := none
  /-- Set by the database. -/
  createdAt : Int := 0
deriving DecidableEq, Repr, Inhabited

structure CommandOutput where
  deviceId : String
  stream : OutputStream
  chunk : String
deriving DecidableEq, Repr, Inhabited

/-! ## Scheduled commands -/

structure Schedule where
  userId : String
  teamId : String
  name : String
  command : String
  /-- Five-field cron expression, evaluated in UTC. -/
  cron : String
  status : ScheduleStatus := .active
  groupId : Option String := none
  deviceIds : List String := []
  timeoutMs : Int := 60000
  lastRunAt : Option Int := none
  lastStatus : Option String := none
  nextRunAt : Option Int := none
  runCount : Nat := 0
deriving DecidableEq, Repr, Inhabited

/-! ## Audit -/

structure AuditLog where
  userId : Option String
  teamId : Option String
  action : AuditAction
  targetType : String
  targetId : Option String
deriving DecidableEq, Repr, Inhabited

end Zenstier
