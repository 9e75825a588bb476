/-!
# Permission catalogue

Permissions are plain slugs stored on a role.  Keeping them as data, rather than hard-coded
role checks, is what lets an admin compose arbitrary roles.
-/

namespace Zenstier

def PERMISSIONS : List String :=
  ["device:read", "device:create", "device:update", "device:delete", "device:revoke",
    "command:read", "command:execute", "ai:use", "audit:read", "team:read",
    "team:manage_members", "team:manage_roles", "team:manage_settings"]

def isPermission (value : String) : Bool := value ∈ PERMISSIONS

/-- A role seeded into every new team.  `rank` decides authority: a member can never edit,
remove or out-rank someone whose role ranks at or above their own. -/
structure SystemRoleSpec where
  name : String
  rank : Int
  permissions : List String
deriving DecidableEq, Repr

def OWNER_ROLE : String := "Owner"

def SYSTEM_ROLES : List SystemRoleSpec :=
  [{ name := OWNER_ROLE, rank := 100, permissions := PERMISSIONS },
    { name := "Admin", rank := 80
      permissions := PERMISSIONS.filter (· ≠ "team:manage_settings") },
    { name := "Operator", rank := 50
      permissions := ["device:read", "device:create", "device:update", "command:read",
        "command:execute", "ai:use", "audit:read", "team:read"] },
    { name := "Viewer", rank := 10
      permissions := ["device:read", "command:read", "audit:read", "team:read"] }]

/-- System roles hold known permissions only. -/
theorem isPermission_of_system {role : SystemRoleSpec} (h : role ∈ SYSTEM_ROLES) :
    ∀ p ∈ role.permissions, isPermission p := by
  have hall : ∀ role ∈ SYSTEM_ROLES, ∀ p ∈ role.permissions, isPermission p := by decide
  exact hall role h

end Zenstier
