import Zenstier.Teams.Authority
import Zenstier.Teams.Store

/-!
# One team of the store

`TeamStore.view` abstracts the tables to the rows of one team.  Every write is characterised
by what it does to the view: a write to a row of the team is the write of the same name to
the view, a write to a row of another team does nothing.
-/

namespace Zenstier

open Store

namespace TeamStore

/-- The rows of the team. -/
def view (T : String) (s : TeamStore) : TeamView where
  roles := s.roles.restrict (·.teamId = T)
  members := s.members.restrict (·.teamId = T)
  invites := s.invites.restrict (·.teamId = T)

variable {s t : TeamStore} {T : String}

/-- The view is a function of three tables. -/
theorem view_congr (hroles : t.roles = s.roles) (hmembers : t.members = s.members)
    (hinvites : t.invites = s.invites) : t.view T = s.view T := by
  rw [view, hroles, hmembers, hinvites, view]

theorem view_roles_eq_some {id : String} {role : Role} :
    (s.view T).roles id = some role ↔ s.roles.find? id = some role ∧ role.teamId = T := by
  rw [view, Table.restrict_eq_some, decide_eq_true_eq]

theorem view_members_eq_some {id : String} {m : TeamMember} :
    (s.view T).members id = some m ↔ s.members.find? id = some m ∧ m.teamId = T := by
  rw [view, Table.restrict_eq_some, decide_eq_true_eq]

theorem view_invites_eq_some {id : String} {inv : TeamInvite} :
    (s.view T).invites id = some inv ↔ s.invites.find? id = some inv ∧ inv.teamId = T := by
  rw [view, Table.restrict_eq_some, decide_eq_true_eq]

/-- The role of a member is a role of the team. -/
theorem role_of_member (hsound : (s.view T).Sound) {mid : String} {m : TeamMember}
    (hm : (s.view T).members mid = some m) {role : Role}
    (hrole : s.roles.find? m.roleId = some role) : (s.view T).roles m.roleId = some role := by
  obtain ⟨role', hrole'⟩ := hsound.memberRole hm
  have := (view_roles_eq_some.mp hrole').1
  obtain rfl := Option.some.inj (hrole.symm.trans this)
  exact hrole'

/-! ## Writes to roles -/

/-- A new role. -/
theorem view_createRole {id : String} {row : Role} (h : s.createRole id row = .ok t) :
    t.teams = s.teams ∧ (s.view T).roles id = none ∧
      t.view T = if row.teamId = T then (s.view T).setRole id (some row) else s.view T := by
  unfold createRole at h
  split at h
  · cases h
  · split at h
    · cases h
    · rename_i roles hroles
      cases h
      refine ⟨rfl, Table.restrict_eq_none (Table.insert_eq_some hroles).1, ?_⟩
      simp only [view, Table.restrict_insert hroles, decide_eq_true_eq]
      split <;> rfl

theorem view_updateRole {id : String} {data : RoleData} {role : Role}
    (hrole : s.roles.find? id = some role) (h : s.updateRole id data = .ok t) :
    t.teams = s.teams ∧ t.view T =
      if role.teamId = T then (s.view T).setRole id (some (data.apply role)) else s.view T := by
  rw [updateRole, hrole] at h
  dsimp only at h
  split at h
  · cases h
  · cases h
    refine ⟨rfl, ?_⟩
    simp only [view, decide_eq_true_eq,
      Table.restrict_update (p := (·.teamId = T)) (f := data.apply) hrole rfl]
    split <;> rfl

/-- A role that is deleted has no members left.  It takes its invites along, which in a sound
team are invites to the same team. -/
theorem view_deleteRole {id : String} {role : Role} (hrole : s.roles.find? id = some role)
    (hsound : (s.view T).Sound) (h : s.deleteRole id = .ok t) :
    t.teams = s.teams ∧ (∀ mid m, (s.view T).members mid = some m → m.roleId ≠ id) ∧
      t.view T = if role.teamId = T then (s.view T).dropRole id else s.view T := by
  unfold deleteRole at h
  split at h
  · cases h
  · split at h
    · cases h
    · rename_i hcount
      have hfree : ∀ mid m, s.members.find? mid = some m → m.roleId ≠ id := by
        intro mid m hm hid
        have hmem := (Table.mem_findMany (p := fun _ m ↦ decide (m.roleId = id))).mpr
          ⟨hm, decide_eq_true hid⟩
        have hnil : s.members.findMany (fun _ m ↦ decide (m.roleId = id)) = [] :=
          List.length_eq_zero_iff.mp (not_not.mp hcount)
        rw [hnil] at hmem
        cases hmem
      cases h
      refine ⟨rfl, fun mid m hm ↦ hfree mid m (view_members_eq_some.mp hm).1, ?_⟩
      have hinvites : (s.invites.deleteMany fun _ inv ↦ inv.roleId = id).restrict
          (·.teamId = T) = fun k ↦ ((s.view T).invites k).filter (·.roleId ≠ id) := by
        funext k
        rw [Table.restrict_deleteMany]
        congr 1
        funext inv
        exact (decide_not).symm
      simp only [view, Table.restrict_delete hrole, decide_eq_true_eq, hinvites]
      split
      · rfl
      · rename_i hT
        have hnone : (s.view T).roles id = none := by
          refine Option.eq_none_iff_forall_ne_some.mpr fun role' hrole' ↦ ?_
          obtain ⟨hfind, hteam⟩ := view_roles_eq_some.mp hrole'
          exact hT (Option.some.inj (hrole.symm.trans hfind) ▸ hteam)
        exact congrArg (TeamView.mk _ _) (funext (hsound.invites_elsewhere hnone))

/-! ## Writes to members -/

theorem view_updateMember {id roleId : String} {m : TeamMember}
    (hm : s.members.find? id = some m) (h : s.updateMember id roleId = .ok t) :
    t.teams = s.teams ∧ t.view T =
      if m.teamId = T then (s.view T).setMember id (some { m with roleId }) else s.view T := by
  unfold updateMember at h
  split at h
  · cases h
  · split at h
    · cases h
    · cases h
      refine ⟨rfl, ?_⟩
      simp only [view, decide_eq_true_eq,
        Table.restrict_update (p := (·.teamId = T)) (f := fun m ↦ { m with roleId }) hm rfl]
      split <;> rfl

theorem view_deleteMember {id : String} {m : TeamMember} (hm : s.members.find? id = some m)
    (h : s.deleteMember id = .ok t) :
    t.teams = s.teams ∧
      t.view T = if m.teamId = T then (s.view T).setMember id none else s.view T := by
  unfold deleteMember at h
  split at h
  · cases h
  · cases h
    refine ⟨rfl, ?_⟩
    simp only [view, Table.restrict_delete hm, decide_eq_true_eq]
    split <;> rfl

/-! ## Writes to invites -/

/-- Whether it is new or overwrites an older one, the invite that is stored is the one given,
as far as team, role and sender go. -/
theorem view_upsertInvite {id k : String} {row : TeamInvite}
    (h : s.upsertInvite id row = .ok (k, t)) :
    t.teams = s.teams ∧ ∃ inv, inv.roleId = row.roleId ∧ inv.invitedById = row.invitedById ∧
      t.view T = if row.teamId = T then (s.view T).setInvite k (some inv) else s.view T := by
  unfold upsertInvite at h
  split at h
  · cases h
  · split at h
    · rename_i k' old hold
      split at h
      · cases h
      · cases h
        obtain ⟨hold, hsame⟩ := Table.findFirst_eq_some hold
        rw [decide_eq_true_eq] at hsame
        refine ⟨rfl, { old with
          roleId := row.roleId, tokenHash := row.tokenHash, invitedById := row.invitedById
          expiresAt := row.expiresAt, acceptedAt := none, revokedAt := none }, rfl, rfl, ?_⟩
        rw [view, Table.restrict_update (p := (·.teamId = T)) hold rfl, ← hsame.1, view]
        simp only [decide_eq_true_eq]
        split <;> rfl
    · split at h
      · cases h
      · split at h
        · cases h
        · rename_i invites hinvites
          cases h
          refine ⟨rfl, row, rfl, rfl, ?_⟩
          simp only [view, Table.restrict_insert hinvites, decide_eq_true_eq]
          split <;> rfl

theorem view_revokeInvite {id : String} {revokedAt : Int} {inv : TeamInvite}
    (hinv : s.invites.find? id = some inv) (h : s.revokeInvite id revokedAt = .ok t) :
    t.teams = s.teams ∧ t.view T =
      if inv.teamId = T then
        (s.view T).setInvite id (some { inv with revokedAt := some revokedAt })
      else s.view T := by
  unfold revokeInvite at h
  split at h
  · cases h
  · cases h
    refine ⟨rfl, ?_⟩
    simp only [view, decide_eq_true_eq,
      Table.restrict_update (p := (·.teamId = T))
        (f := fun inv ↦ { inv with revokedAt := some revokedAt }) hinv rfl]
    split <;> rfl

/-! ## The transactions -/

/-- The membership that accepting an invite writes: a new one, or that of the user with
another role. -/
theorem upsertMember_ok {id teamId userId roleId : String} {members : Table String TeamMember}
    (h : s.upsertMember id teamId userId roleId = .ok members) :
    ∃ mid m, m.userId = userId ∧ m.roleId = roleId ∧
      (members.restrict (·.teamId = T) =
        if teamId = T then ((s.view T).setMember mid (some m)).members else (s.view T).members) ∧
      ((s.members.find? mid = none ∧
          ∀ k m, s.members.find? k = some m → m.teamId = teamId → m.userId ≠ userId) ∨
        ∃ old, s.members.find? mid = some old ∧ old.teamId = teamId ∧ old.userId = userId) := by
  unfold upsertMember at h
  split at h
  · cases h
  · split at h
    · rename_i k old hold
      cases h
      obtain ⟨hold, hsame⟩ := Table.findFirst_eq_some hold
      rw [decide_eq_true_eq] at hsame
      refine ⟨k, { old with roleId }, hsame.2, rfl, ?_, .inr ⟨old, hold, hsame⟩⟩
      rw [Table.restrict_update (p := (·.teamId = T)) hold rfl, ← hsame.1]
      simp only [decide_eq_true_eq]
      rfl
    · rename_i hnone
      split at h
      · rename_i members' hmembers
        cases h
        refine ⟨id, { teamId, userId, roleId, joinedAt := s.clock }, rfl, rfl, ?_,
          .inl ⟨(Table.insert_eq_some hmembers).1, fun k m hm hteam huser ↦ ?_⟩⟩
        · rw [Table.restrict_insert hmembers]
          simp only [decide_eq_true_eq]
          rfl
        · simpa [hteam, huser] using Table.findFirst_eq_none hnone hm
      · cases h

/-- An account accepts an invite. -/
theorem view_acceptInvite {inviteId memberId userId : String} {inv : TeamInvite}
    {acceptedAt : Int} {audit : AuditLog} (hinv : s.invites.find? inviteId = some inv)
    (hpending : inv.Pending)
    (h : s.acceptInvite inviteId memberId userId inv.teamId inv.roleId acceptedAt audit = .ok t) :
    t.teams = s.teams ∧ (inv.teamId ≠ T → t.view T = s.view T) ∧
      (inv.teamId = T → (s.view T).Accepts userId (t.view T)) := by
  unfold acceptInvite at h
  split at h
  · cases h
  · rename_i members hmembers
    split at h
    · cases h
    · cases h
      obtain ⟨mid, m, hu, hrole, hview, hold⟩ := upsertMember_ok (T := T) hmembers
      refine ⟨rfl, fun hT ↦ ?_, fun hT ↦ ?_⟩
      · rw [if_neg hT] at hview
        simp only [view, hview, decide_eq_true_eq, if_neg hT,
          Table.restrict_update (p := (·.teamId = T))
            (f := fun inv ↦ { inv with acceptedAt := some acceptedAt }) hinv rfl]
      · rw [if_pos hT] at hview
        have hinv' : (s.view T).invites inviteId = some inv := view_invites_eq_some.mpr ⟨hinv, hT⟩
        have hmade : ({ s with
            members
            invites := s.invites.update inviteId ({ · with acceptedAt := some acceptedAt })
            users := s.users.update userId ({ · with activeTeamId := some inv.teamId })
            auditLogs := s.auditLogs ++ [audit] } : TeamStore).view T =
            ((s.view T).setMember mid (some m)).setInvite inviteId
              (some { inv with acceptedAt := some acceptedAt }) := by
          simp only [view, hview, decide_eq_true_eq, if_pos hT,
            Table.restrict_update (p := (·.teamId = T))
              (f := fun inv ↦ { inv with acceptedAt := some acceptedAt }) hinv rfl]
          rfl
        rw [hmade]
        have haccepted : ¬ TeamInvite.Pending { inv with acceptedAt := some acceptedAt } :=
          fun hp ↦ Option.some_ne_none _ hp.1
        rcases hold with ⟨hnone, hother⟩ | ⟨old, hold, hteam, huser⟩
        · refine .join hinv' hpending rfl haccepted (Table.restrict_eq_none hnone) ?_ hu hrole
          intro k m' hm'
          obtain ⟨hm', hteam⟩ := view_members_eq_some.mp hm'
          exact hother k m' hm' (hteam.trans hT.symm)
        · exact .change hinv' hpending rfl haccepted
            (view_members_eq_some.mpr ⟨hold, hteam.trans hT⟩) huser hu hrole

/-- Inserting the rows of other teams. -/
theorem restrict_insertRoles {rows : List (String × Role)} {roles roles' : Table String Role}
    (h : insertRoles roles rows = some roles') (hT : ∀ e ∈ rows, e.2.teamId ≠ T) :
    roles'.restrict (·.teamId = T) = roles.restrict (·.teamId = T) := by
  induction rows generalizing roles with
  | nil =>
      cases h
      rfl
  | cons e rows ih =>
      obtain ⟨roles₁, hroles₁, h⟩ := Option.bind_eq_some_iff.mp h
      rw [ih h fun e' he' ↦ hT e' (List.mem_cons_of_mem e he'), Table.restrict_insert hroles₁,
        if_neg (by simpa using hT e List.mem_cons_self)]

/-- A new team has nothing to do with one that exists. -/
theorem view_createTeam {ids : TeamIds} {ownerId name : String} {isPersonal : Bool}
    (h : s.createTeam ids ownerId name isPersonal = .ok t) (hT : (s.teams.find? T).isSome) :
    (t.teams.find? T).isSome ∧ t.view T = s.view T := by
  unfold createTeam at h
  split at h
  · cases h
  · split at h
    · cases h
    · rename_i teams hteams
      split at h
      · cases h
      · rename_i roles hroles
        split at h
        · cases h
        · rename_i members hmembers
          cases h
          have hne : ids.teamId ≠ T := by
            rintro rfl
            rw [(Table.insert_eq_some hteams).1] at hT
            cases hT
          refine ⟨?_, ?_⟩
          · rwa [Table.find?_insert hteams, if_neg hne.symm]
          · have hsystem : ∀ e ∈ systemRoles ids, e.2.teamId ≠ T := by
              intro e he
              obtain ⟨role, -, rfl⟩ := List.mem_map.mp he
              exact hne
            simp only [view, restrict_insertRoles hroles hsystem, Table.restrict_insert hmembers,
              decide_eq_true_eq, if_neg hne]

end TeamStore

end Zenstier
