import Zenstier.Teams.Confinement

/-!
# Which permissions a coalition can gain

Authority is rank.  Permissions are data on roles, and nobody is asked to hold the
permissions that they put on a role below their own, or hand to someone by such a role.  So a
coalition with the means to write or assign roles can gain permissions that none of it had:
exactly the rank of the role they come with bounds it.  Without these means it gains nothing.
-/

namespace Zenstier

open Store Concurrent TeamStore

variable {dig : Digests} {T : String} {C₀ C : Set String} {s₀ s : TeamStore} {r : Int}

/-- What the roles below a rank give. -/
def TeamView.permissionsBelow (v : TeamView) (r : Int) : Set String :=
  {p | ∃ id role, v.roles id = some role ∧ role.rank < r ∧ p ∈ role.permissions}

namespace TeamView

variable {v v₀ : TeamView}

/-- While roles are what they were, a coalition gains what roles below it had to give. -/
theorem Confined.permissions_subset (h : Confined C₀ r v₀ C v) (hroles : v.roles = v₀.roles) :
    v.permissions C ⊆ v₀.permissions C₀ ∪ v₀.permissionsBelow r := by
  rintro p ⟨u, hu, role, hown, hp⟩
  by_cases hold : p ∈ v₀.permissions C₀
  · exact .inl hold
  · have hrank := h.rank_lt_of_gained hu hown hp hold
    obtain ⟨mid, m, -, -, hrole⟩ := hown
    exact .inr ⟨m.roleId, role, hroles ▸ hrole, hrank, hp⟩

end TeamView

/-- What a coalition gains in a team depends on what it may manage there: nothing if it may
manage neither members nor roles; what roles below it give from the start if neither it nor
these roles may manage roles.  In any case it is gained through roles below its rank. -/
theorem permissions_gained (h₀ : s₀.Settled T)
    (hr : ∀ u ∈ C₀, ∀ role, (s₀.view T).Holds u role → role.rank ≤ r)
    (h : Collusion dig T C₀ s₀ C s) :
    ("team:manage_members" ∉ (s₀.view T).permissions C₀ →
      "team:manage_roles" ∉ (s₀.view T).permissions C₀ →
      (s.view T).permissions C ⊆ (s₀.view T).permissions C₀) ∧
    ("team:manage_roles" ∉ (s₀.view T).permissions C₀ →
      "team:manage_roles" ∉ (s₀.view T).permissionsBelow r →
      (s.view T).permissions C ⊆
        (s₀.view T).permissions C₀ ∪ (s₀.view T).permissionsBelow r) ∧
    (∀ u ∈ C, ∀ role, (s.view T).Holds u role →
      ∀ p ∈ role.permissions, p ∉ (s₀.view T).permissions C₀ → role.rank < r) := by
  have hc := h.confined h₀ hr
  obtain ⟨-, hcolludes⟩ := h.simulates h₀
  refine ⟨fun hmembers hroles ↦ ?_, fun hroles hbelow ↦ ?_, fun u hu role hown p hp hnew ↦ ?_⟩
  · exact hcolludes.permissions_subset h₀.not_pending hmembers hroles
  · have hconfined := TeamView.Confined.start h₀.sound h₀.not_pending hr
    refine hc.permissions_subset (hcolludes.roles_eq hconfined hroles ?_)
    intro id role hrole hrank hp
    exact hbelow ⟨id, role, hrole, hrank, hp⟩
  · exact hc.rank_lt_of_gained hu hown hp hnew

/-- The Viewer has come to manage settings. -/
theorem widenedTeam_gained :
    "team:manage_settings" ∈ (widenedTeam.view "t").permissions {"a", "v"} := by
  have hm : (widenedTeam.view "t").members "mv" =
      some { teamId := "t", userId := "v", roleId := "viewer" } := by decide
  have hrole : (widenedTeam.view "t").roles "viewer" =
      some { teamId := "t", name := "Viewer", rank := 10
             permissions := ["team:manage_settings"] } := by decide
  exact ⟨"v", .inr rfl, _, ⟨"mv", _, hm, rfl, hrole⟩, by decide⟩

theorem permissions_gained_widened :
    "team:manage_settings" ∈ (widenedTeam.view "t").permissions {"a", "v"} ∧
    ∀ u ∈ ({"a", "v"} : Set String), ∀ role, (widenedTeam.view "t").Holds u role →
      ∀ p ∈ role.permissions, p ∉ (smallTeam.view "t").permissions {"a", "v"} → role.rank < 80 :=
  ⟨widenedTeam_gained,
    (permissions_gained smallTeam_settled smallTeam_ranks smallTeam_widened).2.2⟩

/-- One edit of a role below it gives a coalition a permission that none of it had. -/
theorem permissions_amplified :
    smallTeam.Settled "t" ∧
    Collusion ⟨id, id⟩ "t" {"a", "v"} smallTeam {"a", "v"} widenedTeam ∧
    "team:manage_settings" ∈ (widenedTeam.view "t").permissions {"a", "v"} ∧
    "team:manage_settings" ∉ (smallTeam.view "t").permissions {"a", "v"} := by
  refine ⟨smallTeam_settled, smallTeam_widened, widenedTeam_gained, ?_⟩
  have hnone : ∀ e ∈ smallTeam.members.entries, e.2.userId = "a" ∨ e.2.userId = "v" →
      ∀ role ∈ (smallTeam.view "t").roles e.2.roleId,
        "team:manage_settings" ∉ role.permissions := by decide
  rintro ⟨u, hu, role, ⟨mid, m, hm, rfl, hrole⟩, hp⟩
  exact hnone (mid, m) (Table.find?_eq_some.mp (view_members_eq_some.mp hm).1) hu role hrole hp

end Zenstier
