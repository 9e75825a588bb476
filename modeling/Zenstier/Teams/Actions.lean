import Zenstier.Teams.Service

/-!
# Actions of the team page

The server actions of `_actions/teams.ts`.  Each resolves the caller's context, demands a
permission if it needs one, checks its form, and calls the service with the rank of the
caller's role.  What `safeParse` makes of a form is an argument: the input, or the message
of the first issue.
-/

namespace Zenstier

open Concurrent

structure ActionState where
  ok : Bool := false
  error : Option String := none
  /-- Shown once, never stored in plaintext. -/
  inviteToken : Option String := none
  inviteEmail : Option String := none
deriving DecidableEq, Repr

/-- A `TeamError` or `ForbiddenError` becomes a message; everything else is thrown on. -/
def fail : Err → TeamM ActionState
  | .team message => return { error := some message }
  | .forbidden _ => return { error := some "You do not have permission to do that" }
  | err => throw err

/-- Runs a service function, whose `TeamError` becomes a message. -/
def guarded (service : TeamM Unit) : TeamM ActionState :=
  tryCatch (service >>= fun _ ↦ return { ok := true }) fail

/-- What `inviteSchema` accepts. -/
structure InviteInput where
  /-- Trimmed, in lower case, and an address. -/
  email : String
  roleId : String
  email_normal : toLowerCase (trim email) = email
  roleId_nonempty : roleId ≠ ""

/-- What `roleSchema` accepts. -/
structure RoleForm extends RoleInput where
  name_trimmed : trim name = name
  name_length : 1 ≤ utf16Length name ∧ utf16Length name ≤ 60
  permissions_known : ∀ p ∈ permissions, isPermission p
  rank_range : 1 ≤ rank ∧ rank ≤ 99

section Actions

variable (dig : Digests) (ids : TeamIds) (user : SessionUser)

def inviteMemberAction (draws : InviteDraws) (parsed : Except String InviteInput) :
    TeamM ActionState := do
  let ctx ← requirePermission ids user "team:manage_members"
  match parsed with
  | .error message => return { error := some message }
  | .ok data => tryCatch (do
      let (token, _) ← inviteMember dig draws ctx.user.id ctx.rank ctx.teamId data.email data.roleId
      return { ok := true, inviteToken := some token, inviteEmail := some data.email }) fail

def revokeInviteAction (inviteId : String) : TeamM ActionState := do
  let ctx ← requirePermission ids user "team:manage_members"
  guarded (revokeInvite ctx.user.id ctx.teamId inviteId)

def changeMemberRoleAction (memberId roleId : String) : TeamM ActionState := do
  let ctx ← requirePermission ids user "team:manage_members"
  guarded (changeMemberRole ctx.user.id ctx.rank ctx.teamId memberId roleId)

def removeMemberAction (memberId : String) : TeamM ActionState := do
  let ctx ← requirePermission ids user "team:manage_members"
  guarded (removeMember ctx.user.id ctx.rank ctx.teamId memberId)

def createRoleAction (roleId : String) (parsed : Except String RoleForm) :
    TeamM ActionState := do
  let ctx ← requirePermission ids user "team:manage_roles"
  match parsed with
  | .error message => return { error := some message }
  | .ok data =>
      -- A member must never be able to mint a role more powerful than their own.
      if data.rank ≥ ctx.rank then
        return { error := some "You cannot create a role at or above your own rank" }
      else guarded (createRole roleId ctx.user.id ctx.teamId data.toRoleInput)

def updateRolePermissionsAction (roleId : String) (permissions : List String) :
    TeamM ActionState := do
  let ctx ← requirePermission ids user "team:manage_roles"
  guarded (updateRole ctx.user.id ctx.rank ctx.teamId roleId { permissions := some permissions })

def deleteRoleAction (roleId : String) : TeamM ActionState := do
  let ctx ← requirePermission ids user "team:manage_roles"
  guarded (deleteRole ctx.user.id ctx.rank ctx.teamId roleId)

def acceptInviteAction (memberId token : String) : TeamM ActionState := do
  let ctx ← getTeamContext ids user
  let token := trim token
  if token = "" then return { error := some "Paste an invite link or token" }
  else guarded (acceptInvite dig memberId ctx.user.id token)

/-- Leaves the dashboard afterwards. -/
def leaveTeamAction : TeamM ActionState := do
  let ctx ← getTeamContext ids user
  guarded (leaveTeam ctx.user.id ctx.teamId)

end Actions

/-- One of the actions, with its form. -/
inductive TeamCall
  | inviteMember (draws : InviteDraws) (parsed : Except String InviteInput)
  | revokeInvite (inviteId : String)
  | changeMemberRole (memberId roleId : String)
  | removeMember (memberId : String)
  | createRole (roleId : String) (parsed : Except String RoleForm)
  | updateRolePermissions (roleId : String) (permissions : List String)
  | deleteRole (roleId : String)
  | leaveTeam
  | acceptInvite (memberId token : String)

def TeamCall.prog (dig : Digests) (ids : TeamIds) (user : SessionUser) :
    TeamCall → TeamM ActionState
  | .inviteMember draws parsed => inviteMemberAction dig ids user draws parsed
  | .revokeInvite inviteId => revokeInviteAction ids user inviteId
  | .changeMemberRole memberId roleId => changeMemberRoleAction ids user memberId roleId
  | .removeMember memberId => removeMemberAction ids user memberId
  | .createRole roleId parsed => createRoleAction ids user roleId parsed
  | .updateRolePermissions roleId permissions =>
      updateRolePermissionsAction ids user roleId permissions
  | .deleteRole roleId => deleteRoleAction ids user roleId
  | .leaveTeam => leaveTeamAction ids user
  | .acceptInvite memberId token => acceptInviteAction dig ids user memberId token

end Zenstier
