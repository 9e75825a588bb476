import Zenstier.Concurrent.Logic
import Zenstier.Runtime
import Zenstier.Schema
import Zenstier.Store.Table
import Zenstier.Teams.Permissions

/-!
# The team tables

Teams, their roles, members and invites, as `team.service.ts` reads and writes them.
`TeamOp` lists the requests: single statements, and the two transactions that create a team
and accept an invite.
-/

namespace Zenstier

open Store Concurrent

structure TeamStore where
  clock : Int
  users : Table String User
  teams : Table String Team
  roles : Table String Role
  members : Table String TeamMember
  invites : Table String TeamInvite
  auditLogs : List AuditLog

/-- A membership with its role and team. -/
structure Membership where
  id : String
  member : TeamMember
  role : Role
  team : Team
deriving DecidableEq, Repr

/-- The ids the database assigns to the rows of a new team. -/
structure TeamIds where
  teamId : String
  /-- By the name of the role. -/
  roleId : String → String
  memberId : String

/-- What an update changes in a role. -/
structure RoleData where
  name : Option String := none
  permissions : Option (List String) := none
  rank : Option Int := none

def RoleData.apply (d : RoleData) (role : Role) : Role :=
  { role with
    name := d.name.getD role.name
    permissions := d.permissions.getD role.permissions
    rank := d.rank.getD role.rank }

inductive TeamOp : Type → Type
  | now : TeamOp Int
  | findUser (id : String) : TeamOp (Option User)
  | findUserByEmail (email : String) : TeamOp (Option (String × User))
  /-- A membership of a user, in a given team if there is one. -/
  | findMembership (userId : String) (teamId : Option String) : TeamOp (Option Membership)
  /-- The membership that a user joined first. -/
  | findOldestMembership (userId : String) : TeamOp (Option Membership)
  | findMember (id teamId : String) : TeamOp (Option Membership)
  | findRole (id teamId : String) : TeamOp (Option Role)
  | findRoleByName (teamId name : String) : TeamOp (Option (String × Role))
  /-- A role with the number of its members. -/
  | findRoleWithCount (id teamId : String) : TeamOp (Option (Role × Nat))
  | countOwners (teamId : String) : TeamOp Nat
  | findInvite (id teamId : String) : TeamOp (Option TeamInvite)
  | findInviteByHash (tokenHash : String) : TeamOp (Option (String × TeamInvite))
  /-- The transaction that creates a team, its system roles and its Owner. -/
  | createTeam (ids : TeamIds) (ownerId name : String) (isPersonal : Bool) : TeamOp Unit
  | setActiveTeam (userId teamId : String) : TeamOp Unit
  | createRole (id : String) (row : Role) : TeamOp Unit
  | updateRole (id : String) (data : RoleData) : TeamOp Unit
  | deleteRole (id : String) : TeamOp Unit
  | updateMember (id roleId : String) : TeamOp Unit
  | deleteMember (id : String) : TeamOp Unit
  /-- Leaves no user pointing at a team they are no longer in. -/
  | detachUser (userId teamId : String) : TeamOp Unit
  /-- Creates the invite of an address to a team, or overwrites it. -/
  | upsertInvite (id : String) (row : TeamInvite) : TeamOp String
  | revokeInvite (id : String) (revokedAt : Int) : TeamOp Unit
  /-- The transaction that accepts an invite. -/
  | acceptInvite (inviteId memberId userId teamId roleId : String) (acceptedAt : Int)
      (audit : AuditLog) : TeamOp Unit
  | createAuditLog (row : AuditLog) : TeamOp Unit

namespace TeamStore

variable (s : TeamStore)

/-! ## Reads -/

def withRole (e : String × TeamMember) : Option Membership := do
  let role ← s.roles.find? e.2.roleId
  let team ← s.teams.find? e.2.teamId
  return ⟨e.1, e.2, role, team⟩

def findMembership (userId : String) (teamId : Option String) : Option Membership :=
  (s.members.findFirst fun _ m ↦ m.userId = userId ∧ teamId.all (· = m.teamId)).bind s.withRole

def findOldestMembership (userId : String) : Option Membership :=
  (s.members.findEarliest (fun _ m ↦ m.userId = userId) (·.joinedAt)).bind s.withRole

def findMember (id teamId : String) : Option Membership :=
  ((s.members.find? id).filter (·.teamId = teamId)).bind fun m ↦ s.withRole (id, m)

def findRole (id teamId : String) : Option Role := (s.roles.find? id).filter (·.teamId = teamId)

/-- The number of members with a role. -/
def memberCount (roleId : String) : Nat := (s.members.findMany fun _ m ↦ m.roleId = roleId).length

def countOwners (teamId : String) : Nat :=
  (s.members.findMany fun _ m ↦ m.teamId = teamId ∧
    (s.roles.find? m.roleId).any (·.name = OWNER_ROLE)).length

/-! ## Writes -/

/-- Inserts rows one by one; an id that is taken undoes all. -/
def insertRoles (roles : Table String Role) : List (String × Role) → Option (Table String Role)
  | [] => some roles
  | (id, row) :: rows => (roles.insert id row).bind fun roles ↦ insertRoles roles rows

/-- The system roles of a new team. -/
def systemRoles (ids : TeamIds) : List (String × Role) :=
  SYSTEM_ROLES.map fun role ↦ (ids.roleId role.name,
    { teamId := ids.teamId, name := role.name, permissions := role.permissions
      isSystem := true, rank := role.rank })

def createTeam (ids : TeamIds) (ownerId name : String) (isPersonal : Bool) :
    Except Err TeamStore :=
  if (s.users.find? ownerId).isNone then .error .foreignKeyViolation
  else match s.teams.insert ids.teamId { name, isPersonal } with
    | none => .error .uniqueViolation
    | some teams => match insertRoles s.roles (systemRoles ids) with
      | none => .error .uniqueViolation
      | some roles =>
          match s.members.insert ids.memberId { teamId := ids.teamId, userId := ownerId
                                                roleId := ids.roleId OWNER_ROLE
                                                joinedAt := s.clock } with
          | none => .error .uniqueViolation
          | some members => .ok { s with
              teams, roles, members
              auditLogs := s.auditLogs ++ [{ userId := ownerId, teamId := ids.teamId
                                             action := .teamCreated, targetType := "team"
                                             targetId := ids.teamId }] }

def setActiveTeam (userId teamId : String) : Except Err TeamStore :=
  if (s.users.find? userId).isNone then .error .recordNotFound
  else .ok { s with users := s.users.update userId ({ · with activeTeamId := teamId }) }

/-- Another role of the team has the name. -/
def nameTaken (id : String) (row : Role) : Bool :=
  (s.roles.findFirst fun k r ↦ k ≠ id ∧ r.teamId = row.teamId ∧ r.name = row.name).isSome

def createRole (id : String) (row : Role) : Except Err TeamStore :=
  if s.nameTaken id row then .error .uniqueViolation
  else match s.roles.insert id row with
    | none => .error .uniqueViolation
    | some roles => .ok { s with roles }

def updateRole (id : String) (data : RoleData) : Except Err TeamStore :=
  match s.roles.find? id with
  | none => .error .recordNotFound
  | some role =>
      if s.nameTaken id (data.apply role) then .error .uniqueViolation
      else .ok { s with roles := s.roles.update id data.apply }

/-- A role that members have cannot be deleted; its invites are deleted with it. -/
def deleteRole (id : String) : Except Err TeamStore :=
  if (s.roles.find? id).isNone then .error .recordNotFound
  else if s.memberCount id ≠ 0 then .error .foreignKeyViolation
  else .ok { s with
    roles := s.roles.delete id
    invites := s.invites.deleteMany fun _ inv ↦ inv.roleId = id }

def updateMember (id roleId : String) : Except Err TeamStore :=
  if (s.members.find? id).isNone then .error .recordNotFound
  else if (s.roles.find? roleId).isNone then .error .foreignKeyViolation
  else .ok { s with members := s.members.update id ({ · with roleId }) }

def deleteMember (id : String) : Except Err TeamStore :=
  if (s.members.find? id).isNone then .error .recordNotFound
  else .ok { s with members := s.members.delete id }

/-- The id the invite is stored under, and the tables with it. -/
def upsertInvite (id : String) (row : TeamInvite) : Except Err (String × TeamStore) :=
  if (s.roles.find? row.roleId).isNone then .error .foreignKeyViolation
  else match s.invites.findFirst fun _ inv ↦ inv.teamId = row.teamId ∧ inv.email = row.email with
    | some (k, _) =>
        if (s.invites.findFirst fun k' inv ↦ k' ≠ k ∧ inv.tokenHash = row.tokenHash).isSome then
          .error .uniqueViolation
        else .ok (k, { s with
          invites := s.invites.update k ({ · with
            roleId := row.roleId, tokenHash := row.tokenHash, invitedById := row.invitedById
            expiresAt := row.expiresAt, acceptedAt := none, revokedAt := none }) })
    | none =>
        if (s.invites.findFirst fun _ inv ↦ inv.tokenHash = row.tokenHash).isSome then
          .error .uniqueViolation
        else match s.invites.insert id row with
          | none => .error .uniqueViolation
          | some invites => .ok (id, { s with invites })

def revokeInvite (id : String) (revokedAt : Int) : Except Err TeamStore :=
  if (s.invites.find? id).isNone then .error .recordNotFound
  else .ok { s with invites := s.invites.update id ({ · with revokedAt := some revokedAt }) }

/-- Creates the membership of a user in a team, or changes its role. -/
def upsertMember (id teamId userId roleId : String) : Except Err (Table String TeamMember) :=
  if (s.roles.find? roleId).isNone then .error .foreignKeyViolation
  else match s.members.findFirst fun _ m ↦ m.teamId = teamId ∧ m.userId = userId with
    | some (k, _) => .ok (s.members.update k ({ · with roleId }))
    | none => match s.members.insert id { teamId, userId, roleId, joinedAt := s.clock } with
      | some members => .ok members
      | none => .error .uniqueViolation

def acceptInvite (inviteId memberId userId teamId roleId : String) (acceptedAt : Int)
    (audit : AuditLog) : Except Err TeamStore :=
  match s.upsertMember memberId teamId userId roleId with
  | .error e => .error e
  | .ok members =>
      if (s.invites.find? inviteId).isNone ∨ (s.users.find? userId).isNone then
        .error .recordNotFound
      else .ok { s with
        members
        invites := s.invites.update inviteId ({ · with acceptedAt := some acceptedAt })
        users := s.users.update userId ({ · with activeTeamId := teamId })
        auditLogs := s.auditLogs ++ [audit] }

/-- The reply to a write and the state it leaves: a failed write leaves the old one. -/
def commit : Except Err TeamStore → Except Err Unit × TeamStore
  | .ok s' => (.ok (), s')
  | .error e => (.error e, s)

@[simp] theorem commit_ok (s' : TeamStore) : s.commit (.ok s') = (.ok (), s') := rfl

@[simp] theorem commit_error (e : Err) : s.commit (.error e) = (.error e, s) := rfl

/-! ## The server -/

/-- Serves one request. -/
def serve {β : Type} : TeamOp β → Except Err β × TeamStore
  | .now => (.ok s.clock, s)
  | .findUser id => (.ok (s.users.find? id), s)
  | .findUserByEmail email => (.ok (s.users.findFirst fun _ u ↦ u.email = email), s)
  | .findMembership userId teamId => (.ok (s.findMembership userId teamId), s)
  | .findOldestMembership userId => (.ok (s.findOldestMembership userId), s)
  | .findMember id teamId => (.ok (s.findMember id teamId), s)
  | .findRole id teamId => (.ok (s.findRole id teamId), s)
  | .findRoleByName teamId name =>
      (.ok (s.roles.findFirst fun _ r ↦ r.teamId = teamId ∧ r.name = name), s)
  | .findRoleWithCount id teamId =>
      (.ok ((s.findRole id teamId).map fun role ↦ (role, s.memberCount id)), s)
  | .countOwners teamId => (.ok (s.countOwners teamId), s)
  | .findInvite id teamId => (.ok ((s.invites.find? id).filter (·.teamId = teamId)), s)
  | .findInviteByHash tokenHash =>
      (.ok (s.invites.findFirst fun _ inv ↦ inv.tokenHash = tokenHash), s)
  | .createTeam ids ownerId name isPersonal =>
      s.commit (s.createTeam ids ownerId name isPersonal)
  | .setActiveTeam userId teamId => s.commit (s.setActiveTeam userId teamId)
  | .createRole id row => s.commit (s.createRole id row)
  | .updateRole id data => s.commit (s.updateRole id data)
  | .deleteRole id => s.commit (s.deleteRole id)
  | .updateMember id roleId => s.commit (s.updateMember id roleId)
  | .deleteMember id => s.commit (s.deleteMember id)
  | .detachUser userId teamId =>
      (.ok (), { s with
        users := s.users.updateMany (fun k u ↦ k = userId ∧ u.activeTeamId = some teamId)
          ({ · with activeTeamId := none }) })
  | .upsertInvite id row => match s.upsertInvite id row with
      | .ok (k, s') => (.ok k, s')
      | .error e => (.error e, s)
  | .revokeInvite id revokedAt => s.commit (s.revokeInvite id revokedAt)
  | .acceptInvite inviteId memberId userId teamId roleId acceptedAt audit =>
      s.commit (s.acceptInvite inviteId memberId userId teamId roleId acceptedAt audit)
  | .createAuditLog row => (.ok (), { s with auditLogs := s.auditLogs ++ [row] })

/-- Time passes. -/
def tick (ms : Nat) (s : TeamStore) : TeamStore := { s with clock := s.clock + ms }

end TeamStore

/-- The tables as a server. -/
def teamServer : Server TeamOp Err TeamStore := ⟨fun op s ↦ s.serve op⟩

@[simp] theorem teamServer_serve {β : Type} (op : TeamOp β) (s : TeamStore) :
    teamServer.serve op s = s.serve op := rfl

end Zenstier
