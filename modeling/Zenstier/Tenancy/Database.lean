import Zenstier.Alerts.Rules
import Zenstier.Execution.Services
import Zenstier.Groups.Service
import Zenstier.Tokens.Service

/-!
# One database

The tables that the services of a team work on, together.  Every service has its own view of them,
and its requests are served in that view.  `TenantCall` lists the functions that are called for a
team.
-/

namespace Zenstier

open Store Concurrent

structure Database where
  clock : Int
  users : Table String User
  teams : Table String Team
  roles : Table String Role
  members : Table String TeamMember
  invites : Table String TeamInvite
  deviceGroups : Table String DeviceGroup
  devices : Table String Device
  schedules : Table String Schedule
  rules : Table String AlertRule
  /-- Under the ids of the rule and of the device. -/
  states : Table (String × String) AlertRuleState
  tokens : Table String AuthToken
  auditLogs : List AuditLog
  redis : Table String RedisEntry
  broker : Broker
  /-- Why `assertPublicUrl` throws a `BlockedUrlError`, if it does. -/
  blocked : String → Option String

inductive DatabaseOp (β : Type)
  | team (op : TeamOp β)
  | group (op : GroupOp β)
  | schedule (op : ScheduleOp β)
  | deletion (op : DeletionOp β)
  | rule (op : RuleOp β)
  | token (op : TokenOp β)

namespace Database

/-! ## The views -/

section Views

variable (s : Database)

def teamStore : TeamStore where
  clock := s.clock
  users := s.users
  teams := s.teams
  roles := s.roles
  members := s.members
  invites := s.invites
  auditLogs := s.auditLogs

def withTeam (x : TeamStore) : Database :=
  { s with
    clock := x.clock, users := x.users, teams := x.teams, roles := x.roles, members := x.members
    invites := x.invites, auditLogs := x.auditLogs }

def groupStore : GroupStore where
  clock := s.clock
  deviceGroups := s.deviceGroups
  devices := s.devices
  schedules := s.schedules
  auditLogs := s.auditLogs
  broker := s.broker

def withGroups (x : GroupStore) : Database :=
  { s with
    clock := x.clock, deviceGroups := x.deviceGroups, devices := x.devices
    schedules := x.schedules, auditLogs := x.auditLogs, broker := x.broker }

/-- Nothing is dispatched here. -/
def scheduleStore : ScheduleStore where
  clock := s.clock
  deviceGroups := s.deviceGroups
  devices := s.devices
  schedules := s.schedules
  auditLogs := s.auditLogs
  outcome _ _ _ := ⟨"", [], []⟩

def withSchedules (x : ScheduleStore) : Database :=
  { s with
    clock := x.clock, deviceGroups := x.deviceGroups, devices := x.devices
    schedules := x.schedules, auditLogs := x.auditLogs }

def ruleStore : RuleStore where
  rules := s.rules
  states := s.states
  auditLogs := s.auditLogs
  blocked := s.blocked

def withRules (x : RuleStore) : Database :=
  { s with rules := x.rules, states := x.states, auditLogs := x.auditLogs }

def backend : Backend where
  clock := s.clock
  users := s.users
  teams := s.teams
  deviceGroups := s.deviceGroups
  devices := s.devices
  tokens := s.tokens
  auditLogs := s.auditLogs
  redis := s.redis
  broker := s.broker

def withBackend (x : Backend) : Database :=
  { s with
    clock := x.clock, users := x.users, teams := x.teams, deviceGroups := x.deviceGroups
    devices := x.devices, tokens := x.tokens, auditLogs := x.auditLogs, redis := x.redis
    broker := x.broker }

def serveDeletion {β : Type} : DeletionOp β → Except Err β × Database
  | .deleteSchedule id =>
      if (s.schedules.find? id).isNone then (.error .recordNotFound, s)
      else (.ok (), { s with schedules := s.schedules.delete id })

/-- Serves one request, in the view of its service. -/
def serve {β : Type} : DatabaseOp β → Except Err β × Database
  | .team op => ((s.teamStore.serve op).1, s.withTeam (s.teamStore.serve op).2)
  | .group op => ((s.groupStore.serve op).1, s.withGroups (s.groupStore.serve op).2)
  | .schedule op => ((s.scheduleStore.serve op).1, s.withSchedules (s.scheduleStore.serve op).2)
  | .deletion op => s.serveDeletion op
  | .rule op => ((s.ruleStore.serve op).1, s.withRules (s.ruleStore.serve op).2)
  | .token op => ((s.backend.serve op).1, s.withBackend (s.backend.serve op).2)

end Views

end Database

def databaseServer : Server DatabaseOp Err Database := ⟨fun op s ↦ s.serve op⟩

abbrev DatabaseM := Prog DatabaseOp Err

/-! ## The calls -/

/-- `deleteSchedule`, on the whole database. -/
def Database.deleteSchedule (userId teamId scheduleId : String) : DatabaseM Unit := do
  match ← .perform (.schedule (.findSchedule scheduleId teamId)) with
  | none => throw (.schedule "Schedule not found")
  | some _ =>
      .perform (.deletion (.deleteSchedule scheduleId))
      .perform (.schedule (.createAuditLog
        { userId, teamId, action := .scheduleDeleted, targetType := "schedule"
          targetId := scheduleId }))

/-- What can be called for a team, with whatever ids the caller supplies. -/
inductive TenantCall
  | createRole (id actorId : String) (input : RoleInput)
  | updateRole (actorId : String) (actorRank : Int) (roleId : String) (input : RoleData)
  | deleteRole (actorId : String) (actorRank : Int) (roleId : String)
  | changeMemberRole (actorId : String) (actorRank : Int) (memberId roleId : String)
  | removeMember (actorId : String) (actorRank : Int) (memberId : String)
  | inviteMember (draws : InviteDraws) (actorId : String) (actorRank : Int) (email roleId : String)
  | revokeInvite (actorId inviteId : String)
  | createGroup (id actorId name : String)
  | renameGroup (actorId groupId name : String)
  | deleteGroup (notifyId : String → String) (actorId groupId : String)
  | setDeviceGroup (notifyId actorId deviceId : String) (groupId : Option String)
  | createSchedule (id userId : String) (input : ScheduleInput)
  | setScheduleStatus (userId scheduleId : String) (status : ScheduleStatus)
  | deleteSchedule (userId scheduleId : String)
  | createRule (id userId : String) (input : RuleInput)
  | setRuleEnabled (userId ruleId : String) (enabled : Bool)
  | deleteRule (userId ruleId : String)
  | revokeToken (userId tokenId : String)

/-- The program of a call, with `teamId` for the team. -/
def TenantCall.prog (parse : CronParser) (dig : Digests) (teamId : String) :
    TenantCall → DatabaseM Unit
  | .createRole id actorId input => (Zenstier.createRole id actorId teamId input).lift fun _ ↦ .team
  | .updateRole actorId actorRank roleId input =>
      (Zenstier.updateRole actorId actorRank teamId roleId input).lift fun _ ↦ .team
  | .deleteRole actorId actorRank roleId =>
      (Zenstier.deleteRole actorId actorRank teamId roleId).lift fun _ ↦ .team
  | .changeMemberRole actorId actorRank memberId roleId =>
      (Zenstier.changeMemberRole actorId actorRank teamId memberId roleId).lift fun _ ↦ .team
  | .removeMember actorId actorRank memberId =>
      (Zenstier.removeMember actorId actorRank teamId memberId).lift fun _ ↦ .team
  | .inviteMember draws actorId actorRank email roleId =>
      (Zenstier.inviteMember dig draws actorId actorRank teamId email roleId >>=
        fun _ ↦ return).lift fun _ ↦ .team
  | .revokeInvite actorId inviteId =>
      (Zenstier.revokeInvite actorId teamId inviteId).lift fun _ ↦ .team
  | .createGroup id actorId name =>
      (Zenstier.createGroup id actorId teamId name).lift fun _ ↦ .group
  | .renameGroup actorId groupId name =>
      (Zenstier.renameGroup actorId teamId groupId name).lift fun _ ↦ .group
  | .deleteGroup notifyId actorId groupId =>
      (Zenstier.deleteGroup notifyId actorId teamId groupId).lift fun _ ↦ .group
  | .setDeviceGroup notifyId actorId deviceId groupId =>
      (Zenstier.setDeviceGroup notifyId actorId teamId deviceId groupId).lift fun _ ↦ .group
  | .createSchedule id userId input =>
      (Zenstier.createSchedule parse id userId teamId input).lift fun _ ↦ .schedule
  | .setScheduleStatus userId scheduleId status =>
      (Zenstier.setScheduleStatus parse userId teamId scheduleId status).lift fun _ ↦ .schedule
  | .deleteSchedule userId scheduleId => Database.deleteSchedule userId teamId scheduleId
  | .createRule id userId input => (Zenstier.createRule id userId teamId input).lift fun _ ↦ .rule
  | .setRuleEnabled userId ruleId enabled =>
      (Zenstier.setRuleEnabled userId teamId ruleId enabled).lift fun _ ↦ .rule
  | .deleteRule userId ruleId => (Zenstier.deleteRule userId teamId ruleId).lift fun _ ↦ .rule
  | .revokeToken userId tokenId => (Zenstier.revokeToken userId teamId tokenId).lift fun _ ↦ .token

end Zenstier
