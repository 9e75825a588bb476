import Zenstier.Teams.Store

/-!
# Roles, members and invites

The functions of `team.service.ts` that the team page calls, and `getTeamContext`, as
programs over the team tables.  The service compares ranks; which permission an operation
needs is checked by the actions.  Ids that the database assigns and random bytes are
arguments.
-/

namespace Zenstier

open Concurrent

/-- Programs of the team page. -/
abbrev TeamM := Prog TeamOp Err

/-! ## The caller -/

structure SessionUser where
  id : String
  name : Option String := none
  email : String
deriving DecidableEq, Repr

structure TeamContext where
  user : SessionUser
  teamId : String
  rank : Int
  permissions : List String
deriving DecidableEq, Repr

/-- Ensures a user has at least one team, creating a personal one if not. -/
def ensurePersonalTeam (ids : TeamIds) (userId displayName : String) : TeamM Unit := do
  match ← .perform (.findMembership userId none) with
  | some _ => return
  | none =>
      .perform (.createTeam ids userId (displayName ++ "'s team") true)
      .perform (.setActiveTeam userId ids.teamId)

/-- `email.split("@")[0]`. -/
def localPart (email : String) : String := String.ofList (email.toList.takeWhile (· ≠ '@'))

/-- The membership a user acts under: that of the active team, else the oldest one, else that
of a personal team made for the occasion. -/
def resolveMembership (ids : TeamIds) (user : SessionUser) : TeamM Membership := do
  let found ← .perform (.findUser user.id)
  let active := truthy (found.bind (·.activeTeamId))
  match ← .perform (.findMembership user.id active) with
  | some membership => return membership
  | none =>
      match ← .perform (.findOldestMembership user.id) with
      | some membership => return membership
      | none =>
          ensurePersonalTeam ids user.id (user.name.getD (localPart user.email))
          match ← .perform (.findMembership user.id none) with
          | some membership => return membership
          | none => throw .recordNotFound

/-- Resolves the caller's active team and effective permissions. -/
def getTeamContext (ids : TeamIds) (user : SessionUser) : TeamM TeamContext := do
  let membership ← resolveMembership ids user
  return { user, teamId := membership.member.teamId, rank := membership.role.rank
           permissions := membership.role.permissions }

/-- Guards an action. -/
def requirePermission (ids : TeamIds) (user : SessionUser) (permission : String) :
    TeamM TeamContext := do
  let ctx ← getTeamContext ids user
  if permission ∈ ctx.permissions then return ctx
  else throw (.forbidden permission)

/-! ## Roles -/

/-- The permissions without repetitions, if all of them are known. -/
def validatePermissions (permissions : List String) : Except Err (List String) :=
  let invalid := permissions.filter fun p ↦ !isPermission p
  if invalid ≠ [] then
    .error (.team ("Unknown permission(s): " ++ String.intercalate ", " invalid))
  else .ok permissions.eraseDups

structure RoleInput where
  name : String
  permissions : List String
  rank : Int
deriving DecidableEq, Repr

/-- The audit entry of a change to a role. -/
def roleAudit (actorId teamId roleId : String) (action : AuditAction) : AuditLog where
  userId := actorId
  teamId
  action
  targetType := "role"
  targetId := roleId

/-- `id` is the id of the new row. -/
def createRole (id actorId teamId : String) (input : RoleInput) : TeamM Unit := do
  let permissions ← .ofExcept (validatePermissions input.permissions)
  let name := trim input.name
  if name = "" then throw (.team "Role name is required")
  else match ← .perform (.findRoleByName teamId name) with
    | some _ => throw (.team ("A role named \"" ++ name ++ "\" already exists"))
    | none =>
        .perform (.createRole id { teamId, name, permissions, isSystem := false
                                   rank := input.rank })
        .perform (.createAuditLog (roleAudit actorId teamId id .teamRoleCreated))

/-- Why a role must not be updated as asked. -/
def updateRefusal (actorRank : Int) (role : Role) (input : RoleData) : Option String :=
  -- Without this, anyone holding team:manage_roles could edit their OWN role.
  if role.rank ≥ actorRank then some "You cannot edit a role at or above your own rank"
  else if ∃ rank ∈ input.rank, rank ≥ actorRank then
    some "You cannot raise a role to or above your own rank"
  else if role.isSystem ∧ ((truthy input.name).isSome ∨ input.rank.isSome) then
    some "System roles cannot be renamed or re-ranked"
  else if role.name = OWNER_ROLE ∧ input.permissions.isSome then
    some "The Owner role must keep all permissions"
  else none

def updateRole (actorId : String) (actorRank : Int) (teamId roleId : String)
    (input : RoleData) : TeamM Unit := do
  match ← .perform (.findRole roleId teamId) with
  | none => throw (.team "Role not found")
  | some role => match updateRefusal actorRank role input with
      | some message => throw (.team message)
      | none =>
          let permissions ← .ofExcept (input.permissions.mapM validatePermissions)
          .perform (.updateRole roleId
            { name := (truthy input.name).map trim, permissions, rank := input.rank })
          .perform (.createAuditLog (roleAudit actorId teamId roleId .teamRoleUpdated))

def deleteRole (actorId : String) (actorRank : Int) (teamId roleId : String) : TeamM Unit := do
  match ← .perform (.findRoleWithCount roleId teamId) with
  | none => throw (.team "Role not found")
  | some (role, members) =>
      if role.rank ≥ actorRank then
        throw (.team "You cannot delete a role at or above your own rank")
      else if role.isSystem then throw (.team "System roles cannot be deleted")
      else if members > 0 then
        throw (.team (toString members ++ " member(s) still use this role. Reassign them first."))
      else do
        .perform (.deleteRole roleId)
        .perform (.createAuditLog (roleAudit actorId teamId roleId .teamRoleDeleted))

/-! ## Membership -/

/-- A team must never be left without an Owner. -/
def ensureNotLastOwner (teamId roleName : String) : TeamM Unit :=
  if roleName ≠ OWNER_ROLE then return
  else do
    let owners ← .perform (.countOwners teamId)
    if owners ≤ 1 then throw (.team "A team must always have at least one Owner")
    else return

/-- The audit entry of a change to a membership. -/
def memberAudit (actorId teamId memberId : String) (action : AuditAction) : AuditLog where
  userId := actorId
  teamId
  action
  targetType := "member"
  targetId := memberId

/-- Why a member must not be given a role: you cannot touch a peer or senior, nor promote
above yourself. -/
def assignRefusal (actorId : String) (actorRank : Int) (found : Membership) (role : Role) :
    Option String :=
  if found.role.rank ≥ actorRank then
    some "You cannot change the role of an equal or senior member"
  else if role.rank ≥ actorRank then some "You cannot assign a role at or above your own"
  else if found.member.userId = actorId then some "You cannot change your own role"
  else none

def changeMemberRole (actorId : String) (actorRank : Int) (teamId memberId roleId : String) :
    TeamM Unit := do
  match ← .perform (.findMember memberId teamId) with
  | none => throw (.team "Member not found")
  | some found => match ← .perform (.findRole roleId teamId) with
      | none => throw (.team "Role not found")
      | some role => match assignRefusal actorId actorRank found role with
          | some message => throw (.team message)
          | none =>
              ensureNotLastOwner teamId found.role.name
              .perform (.updateMember memberId roleId)
              .perform (.createAuditLog
                (memberAudit actorId teamId memberId .teamMemberRoleChanged))

/-- Deletes a membership and detaches its user. -/
def dropMember (actorId teamId : String) (found : Membership) : TeamM Unit := do
  ensureNotLastOwner teamId found.role.name
  .perform (.deleteMember found.id)
  .perform (.detachUser found.member.userId teamId)
  .perform (.createAuditLog (memberAudit actorId teamId found.id .teamMemberRemoved))

def removeMember (actorId : String) (actorRank : Int) (teamId memberId : String) :
    TeamM Unit := do
  match ← .perform (.findMember memberId teamId) with
  | none => throw (.team "Member not found")
  | some found =>
      if found.role.rank ≥ actorRank ∧ found.member.userId ≠ actorId then
        throw (.team "You cannot remove an equal or senior member")
      else dropMember actorId teamId found

/-- A member removing themselves.  The last Owner may not leave. -/
def leaveTeam (userId teamId : String) : TeamM Unit := do
  match ← .perform (.findMembership userId (some teamId)) with
  | none => throw (.team "You are not a member of that team")
  | some found =>
      if found.team.isPersonal then throw (.team "You cannot leave your personal team")
      else dropMember userId teamId found

/-! ## Invites -/

/-- What `inviteMember` draws at random, and the id of a new row. -/
structure InviteDraws where
  id : String
  tokenBytes : List UInt8

/-- The audit entry of a change to an invite. -/
def inviteAudit (actorId teamId inviteId : String) (action : AuditAction) : AuditLog where
  userId := actorId
  teamId
  action
  targetType := "invite"
  targetId := inviteId

/-- The address is that of a member already. -/
def ensureNotMember (teamId email : String) : TeamM Unit := do
  match ← .perform (.findUserByEmail email) with
  | none => return
  | some (userId, _) => match ← .perform (.findMembership userId (some teamId)) with
      | none => return
      | some _ => throw (.team "That person is already a member")

/-- Returns the token and the id of the invite. -/
def inviteMember (dig : Digests) (draws : InviteDraws) (actorId : String) (actorRank : Int)
    (teamId email roleId : String) : TeamM (String × String) := do
  let normalised := toLowerCase (trim email)
  match ← .perform (.findRole roleId teamId) with
  | none => throw (.team "Role not found")
  | some role =>
      if role.rank ≥ actorRank then
        throw (.team "You cannot invite someone at or above your own role")
      else do
        ensureNotMember teamId normalised
        let token := "zst_inv_" ++ b64url draws.tokenBytes
        let now ← .perform .now
        let inviteId ← .perform (.upsertInvite draws.id
          { teamId, email := normalised, roleId, tokenHash := dig.sha256 token
            invitedById := actorId, expiresAt := now + 7 * 24 * 60 * 60 * 1000 })
        .perform (.createAuditLog (inviteAudit actorId teamId inviteId .teamMemberInvited))
        return (token, inviteId)

def revokeInvite (actorId teamId inviteId : String) : TeamM Unit := do
  match ← .perform (.findInvite inviteId teamId) with
  | none => throw (.team "Invite not found")
  | some _ =>
      let revokedAt ← .perform .now
      .perform (.revokeInvite inviteId revokedAt)
      .perform (.createAuditLog (inviteAudit actorId teamId inviteId .teamInviteRevoked))

/-- Why an invite cannot be accepted at a time. -/
def inviteRefusal (now : Int) (invite : TeamInvite) : Option String :=
  if invite.revokedAt.isSome then some "Invite has been revoked"
  else if invite.acceptedAt.isSome then some "Invite has already been used"
  else if invite.expiresAt < now then some "Invite has expired"
  else none

/-- `memberId` is the id of a new membership. -/
def acceptInvite (dig : Digests) (memberId userId token : String) : TeamM Unit := do
  match ← .perform (.findInviteByHash (dig.sha256 token)) with
  | none => throw (.team "Invite link is not valid")
  | some (inviteId, invite) =>
      let now ← .perform .now
      match inviteRefusal now invite with
      | some message => throw (.team message)
      | none => match ← .perform (.findUser userId) with
          | none => throw .recordNotFound
          | some user =>
              if toLowerCase user.email ≠ invite.email then
                throw (.team ("This invite was issued for " ++ invite.email ++
                  ". Sign in with that address to accept it."))
              else do
                let acceptedAt ← .perform .now
                .perform (.acceptInvite inviteId memberId userId invite.teamId invite.roleId
                  acceptedAt (memberAudit userId invite.teamId userId .teamMemberJoined))

end Zenstier
