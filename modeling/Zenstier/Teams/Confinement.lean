import Zenstier.Teams.Refinement

/-!
# Rank confinement

Several accounts that act together, one action after the other, however the requests of an
action fare.  `Collusion` collects the states they reach, and the coalition they have grown
to by then: who accepts one of its invites belongs to it.  It simulates
`TeamView.Colludes`, so the invariants of that relation hold of the tables.
-/

namespace Zenstier

open Store Concurrent TeamStore

/-- The states that a coalition reaches, and its members by then. -/
inductive Collusion (dig : Digests) (T : String) (C₀ : Set String) (s₀ : TeamStore) :
    Set String → TeamStore → Prop
  | start : Collusion dig T C₀ s₀ C₀ s₀
  /-- One of the coalition performs an action. -/
  | act {C : Set String} {s t : TeamStore} {r : Except Err ActionState} {user : SessionUser}
      (ids : TeamIds) (call : TeamCall) (h : Collusion dig T C₀ s₀ C s) (hu : user.id ∈ C)
      (hrun : Eval teamServer anyFate (call.prog dig ids user) s r t) :
      Collusion dig T C₀ s₀ C t
  /-- Someone accepts an invite to the team that the coalition has issued. -/
  | join {C : Set String} {s t : TeamStore} {r : Except Err ActionState} {user : SessionUser}
      {id : String} {inv inv' : TeamInvite} (ids : TeamIds) (memberId token : String)
      (h : Collusion dig T C₀ s₀ C s)
      (hrun : Eval teamServer anyFate (acceptInviteAction dig ids user memberId token) s r t)
      (hinv : s.invites.find? id = some inv) (hT : inv.teamId = T) (hby : inv.invitedById ∈ C)
      (hopen : inv.acceptedAt = none) (hinv' : t.invites.find? id = some inv')
      (haccepted : inv'.acceptedAt.isSome) : Collusion dig T C₀ s₀ (insert user.id C) t
  /-- Between actions time passes, accounts are made and change the team they look at. -/
  | pause {C : Set String} {s t : TeamStore} (h : Collusion dig T C₀ s₀ C s)
      (hteams : t.teams = s.teams) (hroles : t.roles = s.roles)
      (hmembers : t.members = s.members) (hinvites : t.invites = s.invites) :
      Collusion dig T C₀ s₀ C t

variable {dig : Digests} {T : String} {C₀ C : Set String} {s₀ s : TeamStore} {r : Int}

/-- The tables of the team as a coalition may find them: the team exists, its members and
invites have roles of its own, nobody is a member twice, and no invite is pending. -/
structure TeamStore.Settled (s : TeamStore) (T : String) : Prop where
  exists_team : (s.teams.find? T).isSome
  sound : (s.view T).Sound
  none_pending : ∀ id inv, s.invites.find? id = some inv → inv.teamId = T → ¬ inv.Pending

theorem TeamStore.Settled.not_pending (h : s.Settled T) (id : String) (inv : TeamInvite)
    (hinv : (s.view T).invites id = some inv) : ¬ inv.Pending := by
  obtain ⟨hfind, hT⟩ := view_invites_eq_some.mp hinv
  exact h.none_pending id inv hfind hT

/-- A coalition at work on the tables is one at work on the view of the team. -/
theorem Collusion.simulates (h₀ : s₀.Settled T) (h : Collusion dig T C₀ s₀ C s) :
    (s.teams.find? T).isSome ∧ TeamView.Colludes C₀ (s₀.view T) C (s.view T) := by
  induction h with
  | start => exact ⟨h₀.exists_team, .start⟩
  | @act C s t r user ids call _ hu hrun ih =>
      have hsound := ih.2.sound h₀.sound
      obtain ⟨hteam, hsame | hstep⟩ := hrun.of_wp (call.moves ⟨ih.1, rfl⟩ hsound dig ids user)
      · exact ⟨hteam, hsame ▸ ih.2⟩
      · exact ⟨hteam, ih.2.act hu hstep⟩
  | @join C s t r user id inv inv' ids memberId token _ hrun hinv hinvT hby hopen hinv' hacc ih =>
      have hsound := ih.2.sound h₀.sound
      obtain ⟨hteam, hsame | haccepts⟩ := hrun.of_wp
        (acceptInviteAction_moves ⟨ih.1, rfl⟩ hsound dig ids user memberId token)
      · -- an invite of the team has been accepted, so its view is not the same
        have hkept : (t.view T).invites id = some inv :=
          hsame ▸ view_invites_eq_some.mpr ⟨hinv, hinvT⟩
        obtain rfl := Option.some.inj ((view_invites_eq_some.mp hkept).1.symm.trans hinv')
        rw [hopen] at hacc
        cases hacc
      · exact ⟨hteam, ih.2.join haccepts⟩
  | pause _ hteams hroles hmembers hinvites ih =>
      rw [hteams, view_congr hroles hmembers hinvites]
      exact ih

/-- The invariant of rank confinement holds of the view of the team. -/
theorem Collusion.confined (h₀ : s₀.Settled T)
    (hr : ∀ u ∈ C₀, ∀ role, (s₀.view T).Holds u role → role.rank ≤ r)
    (h : Collusion dig T C₀ s₀ C s) : TeamView.Confined C₀ r (s₀.view T) C (s.view T) :=
  (h.simulates h₀).2.confined (.start h₀.sound h₀.not_pending hr)

/-- A coalition that ranks at most `r` never ranks above, leaves the roles from `r` on as they
were, and so it leaves the other members that have one. -/
theorem rank_confined (h₀ : s₀.Settled T)
    (hr : ∀ u ∈ C₀, ∀ role, (s₀.view T).Holds u role → role.rank ≤ r)
    (h : Collusion dig T C₀ s₀ C s) :
    (∀ u ∈ C, ∀ role, (s.view T).Holds u role → role.rank ≤ r) ∧
    (∀ id role, s₀.roles.find? id = some role → role.teamId = T → r ≤ role.rank →
      s.roles.find? id = some role) ∧
    (∀ mid m role, s₀.members.find? mid = some m → m.teamId = T → m.userId ∉ C →
      s₀.roles.find? m.roleId = some role → r ≤ role.rank → s.members.find? mid = some m) := by
  have hc := h.confined h₀ hr
  refine ⟨fun u hu role hown ↦ hc.rank_le hu hown, fun id role hrole hT hrank ↦ ?_,
    fun mid m role hm hT hu hrole hrank ↦ ?_⟩
  · have hrole' := (hc.roles id role hrank).mpr (view_roles_eq_some.mpr ⟨hrole, hT⟩)
    exact (view_roles_eq_some.mp hrole').1
  · have hm₀ := view_members_eq_some.mpr ⟨hm, hT⟩
    have hkept := hc.others mid m role hm₀ hu (role_of_member h₀.sound hm₀ hrole) hrank
    exact (view_members_eq_some.mp hkept).1

/-! ## A small team -/

/-- A team with an Owner, an Admin and a Viewer, who look at it. -/
def smallTeam : TeamStore where
  clock := 0
  users := ⟨[("o", { email := "o@x", activeTeamId := some "t" }),
    ("a", { email := "a@x", activeTeamId := some "t" }),
    ("v", { email := "v@x", activeTeamId := some "t" })], by decide⟩
  teams := ⟨[("t", { name := "t" })], List.nodup_singleton "t"⟩
  roles := ⟨[("owner", { teamId := "t", name := "Owner", permissions := PERMISSIONS, rank := 100 }),
    ("admin", { teamId := "t", name := "Admin", rank := 80
                permissions := PERMISSIONS.filter (· ≠ "team:manage_settings") }),
    ("viewer", { teamId := "t", name := "Viewer", permissions := ["device:read"], rank := 10 })],
    by decide⟩
  members := ⟨[("mo", { teamId := "t", userId := "o", roleId := "owner" }),
    ("ma", { teamId := "t", userId := "a", roleId := "admin" }),
    ("mv", { teamId := "t", userId := "v", roleId := "viewer" })], by decide⟩
  invites := ∅
  auditLogs := []

theorem smallTeam_settled : smallTeam.Settled "t" where
  exists_team := by decide
  sound := by
    have hroles : ∀ e ∈ smallTeam.members.entries,
        ((smallTeam.view "t").roles e.2.roleId).isSome := by decide
    have husers : ∀ e ∈ smallTeam.members.entries, ∀ e' ∈ smallTeam.members.entries,
        e.2.userId = e'.2.userId → e.1 = e'.1 := by decide
    refine ⟨fun mid m hm ↦ ?_, fun id inv hinv ↦ ?_, fun mid mid' m m' hm hm' hu ↦ ?_⟩
    · exact Option.isSome_iff_exists.mp
        (hroles (mid, m) (Table.find?_eq_some.mp (view_members_eq_some.mp hm).1))
    · cases (view_invites_eq_some.mp hinv).1
    · exact husers (mid, m) (Table.find?_eq_some.mp (view_members_eq_some.mp hm).1) (mid', m')
        (Table.find?_eq_some.mp (view_members_eq_some.mp hm').1) hu
  none_pending _ _ hinv := nomatch hinv

/-- The Admin and the Viewer rank at most 80. -/
theorem smallTeam_ranks : ∀ u ∈ ({"a", "v"} : Set String), ∀ role,
    (smallTeam.view "t").Holds u role → role.rank ≤ 80 := by
  have hranks : ∀ e ∈ smallTeam.members.entries, e.2.userId = "a" ∨ e.2.userId = "v" →
      ∀ role ∈ (smallTeam.view "t").roles e.2.roleId, role.rank ≤ 80 := by decide
  rintro u hu role ⟨mid, m, hm, rfl, hrole⟩
  exact hranks (mid, m) (Table.find?_eq_some.mp (view_members_eq_some.mp hm).1) hu role hrole

/-- The tables after the Admin has given the Viewers the permission to manage settings. -/
def widenedTeam : TeamStore :=
  (run teamServer [] ((TeamCall.updateRolePermissions "viewer" ["team:manage_settings"]).prog
    ⟨id, id⟩ ⟨"", id, ""⟩ { id := "a", email := "a@x" }) smallTeam).2

theorem smallTeam_widened :
    Collusion ⟨id, id⟩ "t" {"a", "v"} smallTeam {"a", "v"} widenedTeam :=
  .act ⟨"", id, ""⟩ (.updateRolePermissions "viewer" ["team:manage_settings"])
    .start (.inl rfl) (.of_run fun _ _ _ _ _ ↦ trivial)

theorem rank_confined_widened :
    widenedTeam.roles.find? "viewer" ≠ smallTeam.roles.find? "viewer" ∧
    (∀ u ∈ ({"a", "v"} : Set String), ∀ role,
      (widenedTeam.view "t").Holds u role → role.rank ≤ 80) ∧
    (∀ id role, smallTeam.roles.find? id = some role → role.teamId = "t" → 80 ≤ role.rank →
      widenedTeam.roles.find? id = some role) ∧
    (∀ mid m role, smallTeam.members.find? mid = some m → m.teamId = "t" →
      m.userId ∉ ({"a", "v"} : Set String) → smallTeam.roles.find? m.roleId = some role →
      80 ≤ role.rank → widenedTeam.members.find? mid = some m) :=
  ⟨by decide, rank_confined smallTeam_settled smallTeam_ranks smallTeam_widened⟩

end Zenstier
