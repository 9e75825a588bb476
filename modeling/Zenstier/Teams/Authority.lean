import Mathlib.Data.Set.Insert
import Mathlib.Logic.Function.Basic
import Zenstier.Schema

/-!
# What a member can do to a team

A team as far as authority goes: its roles, its members and its invites.  `Step` lists
everything one account can do to it, each time under the condition that the rank of a role
the account holds allows it.  It does not say which requests do it: that is for the actions
to refine.

Two invariants of runs of several colluding accounts follow from the list.  Everything at or
above the rank `r` of the coalition is out of its reach (`Confined`).  And the permissions
its members come to hold are those they had and those of the roles below `r`.
-/

namespace Zenstier

/-- The roles, members and invites of one team, by their ids. -/
@[ext]
structure TeamView where
  roles : String → Option Role
  members : String → Option TeamMember
  invites : String → Option TeamInvite

/-- The invite can still be accepted, time permitting. -/
def TeamInvite.Pending (inv : TeamInvite) : Prop := inv.acceptedAt = none ∧ inv.revokedAt = none

namespace TeamView

/-- The account has the role in the team. -/
def Holds (v : TeamView) (u : String) (role : Role) : Prop :=
  ∃ mid m, v.members mid = some m ∧ m.userId = u ∧ v.roles m.roleId = some role

/-- Members and invites have roles of the team, and nobody is a member twice. -/
structure Sound (v : TeamView) : Prop where
  memberRole : ∀ ⦃mid m⦄, v.members mid = some m → ∃ role, v.roles m.roleId = some role
  inviteRole : ∀ ⦃id inv⦄, v.invites id = some inv → ∃ role, v.roles inv.roleId = some role
  single : ∀ ⦃mid mid' m m'⦄, v.members mid = some m → v.members mid' = some m' →
    m.userId = m'.userId → mid = mid'

variable (v : TeamView)

def setRole (id : String) (role : Option Role) : TeamView :=
  { v with roles := Function.update v.roles id role }

def setMember (id : String) (m : Option TeamMember) : TeamView :=
  { v with members := Function.update v.members id m }

def setInvite (id : String) (inv : Option TeamInvite) : TeamView :=
  { v with invites := Function.update v.invites id inv }

/-- Without a role and the invites to it. -/
def dropRole (id : String) : TeamView :=
  { v with
    roles := Function.update v.roles id none
    invites := fun k ↦ (v.invites k).filter (·.roleId ≠ id) }

variable {v} in
/-- No invite is to a role that the team does not have. -/
theorem Sound.invites_elsewhere (h : v.Sound) {id : String} (hnone : v.roles id = none)
    (k : String) : (v.invites k).filter (·.roleId ≠ id) = v.invites k := by
  cases hinv : v.invites k with
  | none => rfl
  | some inv =>
      obtain ⟨role, hrole⟩ := h.inviteRole hinv
      refine Option.filter_eq_some_iff.mpr ⟨rfl, decide_eq_true fun hid ↦ ?_⟩
      rw [hid, hnone] at hrole
      cases hrole

/-- An account accepts a pending invite, and is a member in its role from then on. -/
inductive Accepts (v : TeamView) (u : String) : TeamView → Prop
  /-- The account becomes a member. -/
  | join {id : String} {inv inv' : TeamInvite} {mid : String} {m : TeamMember}
      (hinv : v.invites id = some inv) (hpending : inv.Pending)
      (hrole : inv'.roleId = inv.roleId) (haccepted : ¬ inv'.Pending)
      (hnew : v.members mid = none) (hnone : ∀ k m, v.members k = some m → m.userId ≠ u)
      (hm : m.userId = u) (hmrole : m.roleId = inv.roleId) :
      Accepts v u ((v.setMember mid (some m)).setInvite id (some inv'))
  /-- The account is a member already, and changes its role. -/
  | change {id : String} {inv inv' : TeamInvite} {mid : String} {m m' : TeamMember}
      (hinv : v.invites id = some inv) (hpending : inv.Pending)
      (hrole : inv'.roleId = inv.roleId) (haccepted : ¬ inv'.Pending)
      (hm : v.members mid = some m) (hu : m.userId = u)
      (hm' : m'.userId = u) (hmrole : m'.roleId = inv.roleId) :
      Accepts v u ((v.setMember mid (some m')).setInvite id (some inv'))

/-- One thing that the account `u` does to the team. -/
inductive Step (v : TeamView) (u : String) : TeamView → Prop
  /-- Creates a role below its own. -/
  | createRole {own : Role} {id : String} {role : Role} (hown : v.Holds u own)
      (hp : "team:manage_roles" ∈ own.permissions) (hnew : v.roles id = none)
      (hrank : role.rank < own.rank) : Step v u (v.setRole id (some role))
  /-- Changes a role below its own, which stays there. -/
  | editRole {own : Role} {id : String} {role role' : Role} (hown : v.Holds u own)
      (hp : "team:manage_roles" ∈ own.permissions) (hrole : v.roles id = some role)
      (hrank : role.rank < own.rank) (hrank' : role'.rank < own.rank) :
      Step v u (v.setRole id (some role'))
  /-- Deletes a role below its own that no member has. -/
  | deleteRole {own : Role} {id : String} {role : Role} (hown : v.Holds u own)
      (hp : "team:manage_roles" ∈ own.permissions) (hrole : v.roles id = some role)
      (hrank : role.rank < own.rank) (hfree : ∀ mid m, v.members mid = some m → m.roleId ≠ id) :
      Step v u (v.dropRole id)
  /-- Gives a member ranking below a role below its own. -/
  | assign {own : Role} {mid : String} {m : TeamMember} {old new : Role} {roleId : String}
      (hown : v.Holds u own) (hp : "team:manage_members" ∈ own.permissions)
      (hm : v.members mid = some m) (hold : v.roles m.roleId = some old)
      (hrank : old.rank < own.rank) (hnew : v.roles roleId = some new)
      (hrank' : new.rank < own.rank) : Step v u (v.setMember mid (some { m with roleId }))
  /-- Removes a member ranking below. -/
  | remove {own : Role} {mid : String} {m : TeamMember} {old : Role} (hown : v.Holds u own)
      (hp : "team:manage_members" ∈ own.permissions) (hm : v.members mid = some m)
      (hold : v.roles m.roleId = some old) (hrank : old.rank < own.rank) :
      Step v u (v.setMember mid none)
  /-- Leaves. -/
  | leave {mid : String} {m : TeamMember} (hm : v.members mid = some m) (hu : m.userId = u) :
      Step v u (v.setMember mid none)
  /-- Invites someone to a role below its own. -/
  | invite {own : Role} {id : String} {inv : TeamInvite} {role : Role} (hown : v.Holds u own)
      (hp : "team:manage_members" ∈ own.permissions) (hrole : v.roles inv.roleId = some role)
      (hrank : role.rank < own.rank) (hby : inv.invitedById = u) :
      Step v u (v.setInvite id (some inv))
  /-- Revokes an invite. -/
  | revoke {own : Role} {id : String} {inv inv' : TeamInvite} (hown : v.Holds u own)
      (hp : "team:manage_members" ∈ own.permissions) (hinv : v.invites id = some inv)
      (hrole : inv'.roleId = inv.roleId) (hrevoked : ¬ inv'.Pending) :
      Step v u (v.setInvite id (some inv'))
  | accept {w : TeamView} (h : Accepts v u w) : Step v u w

/-! ## Soundness -/

section Soundness

variable {v w : TeamView} {u : String}

theorem setRole_roles {id k : String} {role role' : Role}
    (hk : (v.setRole id (some role)).roles k = some role') :
    (k = id ∧ role' = role) ∨ (k ≠ id ∧ v.roles k = some role') := by
  by_cases hid : k = id
  · subst hid
    exact .inl ⟨rfl, by simpa [TeamView.setRole, eq_comm] using hk⟩
  · exact .inr ⟨hid, by simpa [TeamView.setRole, Function.update_of_ne hid] using hk⟩

/-- A role that is there, perhaps with other data, after a role has been written. -/
theorem exists_setRole {id k : String} {role : Role} (h : ∃ role', v.roles k = some role') :
    ∃ role', (v.setRole id (some role)).roles k = some role' := by
  obtain ⟨role', hk⟩ := h
  by_cases hid : k = id
  · subst hid
    exact ⟨role, by simp [TeamView.setRole]⟩
  · exact ⟨role', by simpa [TeamView.setRole, Function.update_of_ne hid] using hk⟩

theorem setMember_members {id k : String} {new : Option TeamMember} {m : TeamMember}
    (hk : (v.setMember id new).members k = some m) :
    (k = id ∧ m ∈ new) ∨ (k ≠ id ∧ v.members k = some m) := by
  by_cases hid : k = id
  · subst hid
    exact .inl ⟨rfl, by simpa [TeamView.setMember] using hk⟩
  · exact .inr ⟨hid, by simpa [TeamView.setMember, Function.update_of_ne hid] using hk⟩

theorem setInvite_invites {id k : String} {inv inv' : TeamInvite}
    (hk : (v.setInvite id (some inv)).invites k = some inv') :
    inv' = inv ∨ v.invites k = some inv' := by
  by_cases hid : k = id
  · subst hid
    exact .inl (by simpa [TeamView.setInvite, eq_comm] using hk)
  · exact .inr (by simpa [TeamView.setInvite, Function.update_of_ne hid] using hk)

theorem dropRole_roles {id k : String} (hk : k ≠ id) : (v.dropRole id).roles k = v.roles k :=
  Function.update_of_ne hk ..

theorem dropRole_invites {id k : String} {inv : TeamInvite}
    (hk : (v.dropRole id).invites k = some inv) : v.invites k = some inv ∧ inv.roleId ≠ id := by
  obtain ⟨hinv, hne⟩ := Option.filter_eq_some_iff.mp hk
  exact ⟨hinv, by simpa using hne⟩

theorem Sound.setRole (h : v.Sound) (id : String) (role : Role) :
    (v.setRole id (some role)).Sound where
  memberRole _ _ hm := exists_setRole (h.memberRole hm)
  inviteRole _ _ hinv := exists_setRole (h.inviteRole hinv)
  single := h.single

theorem Sound.dropRole (h : v.Sound) {id : String}
    (hfree : ∀ mid m, v.members mid = some m → m.roleId ≠ id) : (v.dropRole id).Sound where
  memberRole mid m hm := by
    rw [dropRole_roles (hfree mid m hm)]
    exact h.memberRole hm
  inviteRole k inv hk := by
    obtain ⟨hinv, hne⟩ := dropRole_invites hk
    rw [dropRole_roles hne]
    exact h.inviteRole hinv
  single := h.single

theorem Sound.setMember (h : v.Sound) {mid : String} {new : Option TeamMember}
    (hrole : ∀ m ∈ new, ∃ role, v.roles m.roleId = some role)
    (hsingle : ∀ m ∈ new, ∀ k m', k ≠ mid → v.members k = some m' → m'.userId ≠ m.userId) :
    (v.setMember mid new).Sound where
  memberRole k m hk := by
    rcases setMember_members hk with ⟨-, hm⟩ | ⟨-, hm⟩
    · exact hrole m hm
    · exact h.memberRole hm
  inviteRole := h.inviteRole
  single k k' m m' hk hk' hu := by
    rcases setMember_members hk with ⟨rfl, hm⟩ | ⟨hne, hm⟩ <;>
      rcases setMember_members hk' with ⟨rfl, hm'⟩ | ⟨hne', hm'⟩
    · rfl
    · exact absurd hu.symm (hsingle m hm k' m' hne' hm')
    · exact absurd hu (hsingle m' hm' k m hne hm)
    · exact h.single hm hm' hu

theorem Sound.setInvite (h : v.Sound) {id : String} {inv : TeamInvite}
    (hrole : ∃ role, v.roles inv.roleId = some role) : (v.setInvite id (some inv)).Sound where
  memberRole := h.memberRole
  inviteRole k inv' hk := by
    rcases setInvite_invites hk with rfl | hk
    · exact hrole
    · exact h.inviteRole hk
  single := h.single

/-- The other members are other accounts. -/
theorem Sound.ne_of_ne (h : v.Sound) {mid : String} {m : TeamMember}
    (hm : v.members mid = some m) (k : String) (n : TeamMember) (hne : k ≠ mid)
    (hn : v.members k = some n) : n.userId ≠ m.userId := fun hu ↦
  hne (h.single hn hm hu)

theorem Sound.accept (h : v.Sound) (ha : Accepts v u w) : w.Sound := by
  cases ha with
  | @join id inv inv' mid m hinv _ hrole _ _ hnone hm hmrole =>
      refine (h.setMember ?_ ?_).setInvite ?_
      · rintro _ ⟨⟩
        rw [hmrole]
        exact h.inviteRole hinv
      · rintro _ ⟨⟩ k m' _ hm'
        rw [hm]
        exact hnone k m' hm'
      · rw [hrole]
        exact h.inviteRole hinv
  | @change id inv inv' mid m m' hinv _ hrole _ hm hu hm' hmrole =>
      refine (h.setMember ?_ ?_).setInvite ?_
      · rintro _ ⟨⟩
        rw [hmrole]
        exact h.inviteRole hinv
      · rintro _ ⟨⟩ k n hne hn
        rw [hm', ← hu]
        exact h.ne_of_ne hm k n hne hn
      · rw [hrole]
        exact h.inviteRole hinv

/-- Every step keeps a team sound. -/
theorem Sound.step (h : v.Sound) (hs : Step v u w) : w.Sound := by
  cases hs with
  | createRole | editRole => exact h.setRole _ _
  | deleteRole _ _ _ _ hfree => exact h.dropRole hfree
  | @assign own mid m old new roleId _ _ hm _ _ hnew _ =>
      refine h.setMember ?_ ?_
      · rintro _ ⟨⟩
        exact ⟨new, hnew⟩
      · rintro _ ⟨⟩ k n hne hn
        exact h.ne_of_ne hm k n hne hn
  | remove | leave => exact h.setMember (fun _ hm ↦ nomatch hm) fun _ hm ↦ nomatch hm
  | @invite own id inv role _ _ hrole _ _ => exact h.setInvite ⟨role, hrole⟩
  | revoke _ _ hinv hrole _ =>
      refine h.setInvite ?_
      rw [hrole]
      exact h.inviteRole hinv
  | accept ha => exact h.accept ha

end Soundness

/-! ## Rank confinement -/

/-- The role of a member or an invite ranks below `r`. -/
def Low (v : TeamView) (r : Int) (roleId : String) : Prop :=
  ∃ role, v.roles roleId = some role ∧ role.rank < r

/-- What a coalition of rank `r` has left alone since `v₀`, when it had the members `C₀`.
It has the members `C` by now. -/
structure Confined (C₀ : Set String) (r : Int) (v₀ : TeamView) (C : Set String)
    (v : TeamView) : Prop where
  sound : v.Sound
  /-- The roles from `r` on are those of the start. -/
  roles : ∀ id role, r ≤ role.rank → (v.roles id = some role ↔ v₀.roles id = some role)
  /-- The coalition ranks at most `r`. -/
  ranks : ∀ mid m role, v.members mid = some m → m.userId ∈ C →
    v.roles m.roleId = some role → role.rank ≤ r
  /-- Those of the coalition that rank `r` did so at the start. -/
  top : ∀ mid m role, v.members mid = some m → m.userId ∈ C → v.roles m.roleId = some role →
    r ≤ role.rank → v₀.members mid = some m ∧ m.userId ∈ C₀
  /-- The members from `r` on that are outside the coalition are still there. -/
  others : ∀ mid m role, v₀.members mid = some m → m.userId ∉ C →
    v₀.roles m.roleId = some role → r ≤ role.rank → v.members mid = some m
  /-- Every invite is to a role below `r`. -/
  invites : ∀ id inv, v.invites id = some inv → inv.Pending → v.Low r inv.roleId

section Confinement

variable {v v₀ w : TeamView} {r : Int} {C C' C₀ : Set String} {u : String}

/-- At the start the coalition has left everything alone. -/
theorem Confined.start (hsound : v₀.Sound)
    (hnone : ∀ id inv, v₀.invites id = some inv → ¬ inv.Pending)
    (hr : ∀ u ∈ C₀, ∀ role, v₀.Holds u role → role.rank ≤ r) : Confined C₀ r v₀ C₀ v₀ where
  sound := hsound
  roles _ _ _ := Iff.rfl
  ranks mid m role hm hu hrole := hr m.userId hu role ⟨mid, m, hm, rfl, hrole⟩
  top _ _ _ hm hu _ _ := ⟨hm, hu⟩
  others _ _ _ hm _ _ _ := hm
  invites id inv hinv hpending := absurd hpending (hnone id inv hinv)

theorem Confined.rank_le (h : Confined C₀ r v₀ C v) (hu : u ∈ C) {own : Role}
    (hown : v.Holds u own) : own.rank ≤ r := by
  obtain ⟨mid, m, hm, rfl, hrole⟩ := hown
  exact h.ranks mid m own hm hu hrole

/-- A role below `r` may be written where there is none from `r` on. -/
theorem Confined.setRole (h : Confined C₀ r v₀ C v) {id : String} {role : Role}
    (hlow : role.rank < r) (hold : ∀ old, v.roles id = some old → old.rank < r) :
    Confined C₀ r v₀ C (v.setRole id (some role)) where
  sound := h.sound.setRole id role
  roles k role' hr := by
    by_cases hid : k = id
    · subst hid
      have hnot : v₀.roles k ≠ some role' := fun h₀ ↦
        absurd (hold role' ((h.roles k role' hr).mpr h₀)) (by omega)
      have hnot' : (v.setRole k (some role)).roles k ≠ some role' := by
        intro hk
        rcases setRole_roles hk with ⟨-, rfl⟩ | ⟨hne, -⟩
        · omega
        · exact hne rfl
      exact iff_of_false hnot' hnot
    · rw [← h.roles k role' hr]
      simp [TeamView.setRole, Function.update_of_ne hid]
  ranks mid m role' hm hu hrole' := by
    rcases setRole_roles hrole' with ⟨-, rfl⟩ | ⟨-, hrole'⟩
    · exact hlow.le
    · exact h.ranks mid m role' hm hu hrole'
  top mid m role' hm hu hrole' hr := by
    rcases setRole_roles hrole' with ⟨-, rfl⟩ | ⟨-, hrole'⟩
    · omega
    · exact h.top mid m role' hm hu hrole' hr
  others := h.others
  invites k inv hinv hpending := by
    obtain ⟨role', hrole', hlow'⟩ := h.invites k inv hinv hpending
    by_cases hid : inv.roleId = id
    · exact ⟨role, by simp [TeamView.setRole, hid], hlow⟩
    · exact ⟨role', by simpa [TeamView.setRole, Function.update_of_ne hid] using hrole', hlow'⟩

/-- A role below `r` that nobody has may be dropped. -/
theorem Confined.dropRole (h : Confined C₀ r v₀ C v) {id : String} {role : Role}
    (hrole : v.roles id = some role) (hlow : role.rank < r)
    (hfree : ∀ mid m, v.members mid = some m → m.roleId ≠ id) :
    Confined C₀ r v₀ C (v.dropRole id) where
  sound := h.sound.dropRole hfree
  roles k role' hr := by
    by_cases hid : k = id
    · subst hid
      rw [← h.roles k role' hr, hrole]
      have hne : role ≠ role' := by
        rintro rfl
        omega
      simp [TeamView.dropRole, hne]
    · rw [dropRole_roles hid]
      exact h.roles k role' hr
  ranks mid m role' hm hu hrole' := by
    rw [dropRole_roles (hfree mid m hm)] at hrole'
    exact h.ranks mid m role' hm hu hrole'
  top mid m role' hm hu hrole' hr := by
    rw [dropRole_roles (hfree mid m hm)] at hrole'
    exact h.top mid m role' hm hu hrole' hr
  others := h.others
  invites k inv hinv hpending := by
    obtain ⟨hinv, hne⟩ := dropRole_invites hinv
    obtain ⟨role', hrole', hlow'⟩ := h.invites k inv hinv hpending
    exact ⟨role', by rwa [dropRole_roles hne], hlow'⟩

/-- A membership may be written to a role below `r`, or deleted, if it is one of the coalition
or ranks below `r` as well.  A new member of the coalition has no other membership. -/
theorem Confined.setMember (h : Confined C₀ r v₀ C v) (hC : C ⊆ C') {mid : String}
    {new : Option TeamMember} (hlow : ∀ m ∈ new, v.Low r m.roleId)
    (hold : ∀ m, v.members mid = some m → m.userId ∈ C' ∨ v.Low r m.roleId)
    (hjoin : ∀ k m, k ≠ mid → v.members k = some m → m.userId ∈ C' → m.userId ∈ C)
    (hsingle : ∀ m ∈ new, ∀ k m', k ≠ mid → v.members k = some m' → m'.userId ≠ m.userId) :
    Confined C₀ r v₀ C' (v.setMember mid new) where
  sound := h.sound.setMember (fun m hm ↦ (hlow m hm).imp fun _ ↦ And.left) hsingle
  roles := h.roles
  ranks k m role hk hu hrole := by
    rcases setMember_members hk with ⟨-, hm⟩ | ⟨hne, hm⟩
    · obtain ⟨role', hrole', hlow⟩ := hlow m hm
      obtain rfl : role' = role := Option.some.inj (hrole'.symm.trans hrole)
      exact hlow.le
    · exact h.ranks k m role hm (hjoin k m hne hm hu) hrole
  top k m role hk hu hrole hr := by
    rcases setMember_members hk with ⟨-, hm⟩ | ⟨hne, hm⟩
    · obtain ⟨role', hrole', hlow⟩ := hlow m hm
      obtain rfl : role' = role := Option.some.inj (hrole'.symm.trans hrole)
      omega
    · exact h.top k m role hm (hjoin k m hne hm hu) hrole hr
  others k m role hm hu hrole hr := by
    have hkept := h.others k m role hm (fun hC₀ ↦ hu (hC hC₀)) hrole hr
    by_cases hid : k = mid
    · subst hid
      rcases hold m hkept with hin | ⟨role', hrole', hlow⟩
      · exact absurd hin hu
      · have := (h.roles m.roleId role hr).mpr hrole
        obtain rfl : role' = role := Option.some.inj (hrole'.symm.trans this)
        omega
    · simpa [TeamView.setMember, Function.update_of_ne hid] using hkept
  invites := h.invites

/-- An invite may be written that is to a role below `r`, or cannot be accepted. -/
theorem Confined.setInvite (h : Confined C₀ r v₀ C v) {id : String} {inv : TeamInvite}
    (hrole : ∃ role, v.roles inv.roleId = some role)
    (hlow : inv.Pending → v.Low r inv.roleId) :
    Confined C₀ r v₀ C (v.setInvite id (some inv)) where
  sound := h.sound.setInvite hrole
  roles := h.roles
  ranks := h.ranks
  top := h.top
  others := h.others
  invites k inv' hk hpending := by
    rcases setInvite_invites hk with rfl | hk
    · exact hlow hpending
    · exact h.invites k inv' hk hpending

/-- Whoever accepts an invite joins the coalition, below `r`. -/
theorem Confined.accept (h : Confined C₀ r v₀ C v) (ha : Accepts v u w) :
    Confined C₀ r v₀ (insert u C) w := by
  cases ha with
  | @join id inv inv' mid m hinv hpending hrole haccepted hnew hnone hm hmrole =>
      have hlow := h.invites id inv hinv hpending
      have hjoined : Confined C₀ r v₀ (insert u C) (v.setMember mid (some m)) := by
        refine h.setMember (Set.subset_insert u C) ?_ ?_ ?_ ?_
        · rintro _ ⟨⟩
          rwa [hmrole]
        · intro m' hm'
          rw [hnew] at hm'
          cases hm'
        · intro k m' _ hm' hu
          exact Set.mem_of_mem_insert_of_ne hu (hnone k m' hm')
        · rintro _ ⟨⟩ k m' _ hm'
          rw [hm]
          exact hnone k m' hm'
      refine hjoined.setInvite ?_ fun hp ↦ absurd hp haccepted
      rw [hrole]
      exact hlow.imp fun _ ↦ And.left
  | @change id inv inv' mid m m' hinv hpending hrole haccepted hm hu hm' hmrole =>
      have hlow := h.invites id inv hinv hpending
      have hone : ∀ k n, k ≠ mid → v.members k = some n → n.userId ≠ u :=
        hu ▸ h.sound.ne_of_ne hm
      have hchanged : Confined C₀ r v₀ (insert u C) (v.setMember mid (some m')) := by
        refine h.setMember (Set.subset_insert u C) ?_ ?_ ?_ ?_
        · rintro _ ⟨⟩
          rwa [hmrole]
        · intro n hn
          obtain rfl : n = m := Option.some.inj (hn.symm.trans hm)
          exact .inl (hu ▸ Set.mem_insert u C)
        · intro k n hne hn hnC
          exact Set.mem_of_mem_insert_of_ne hnC (hone k n hne hn)
        · rintro _ ⟨⟩ k n hne hn
          rw [hm']
          exact hone k n hne hn
      refine hchanged.setInvite ?_ fun hp ↦ absurd hp haccepted
      rw [hrole]
      exact hlow.imp fun _ ↦ And.left

/-- Nothing that the coalition does gets out of its confinement. -/
theorem Confined.step (h : Confined C₀ r v₀ C v) (hu : u ∈ C) (hs : Step v u w) :
    Confined C₀ r v₀ C w := by
  cases hs with
  | createRole hown _ hnew hrank =>
      have := h.rank_le hu hown
      refine h.setRole (by omega) fun old hold ↦ ?_
      rw [hnew] at hold
      cases hold
  | editRole hown _ hrole hrank hrank' =>
      have := h.rank_le hu hown
      refine h.setRole (by omega) fun old hold ↦ ?_
      obtain rfl := Option.some.inj (hold.symm.trans hrole)
      omega
  | deleteRole hown _ hrole hrank hfree =>
      have := h.rank_le hu hown
      exact h.dropRole hrole (by omega) hfree
  | @assign own mid m old new roleId hown _ hm hold hrank hnew hrank' =>
      have := h.rank_le hu hown
      refine h.setMember subset_rfl ?_ ?_ (fun _ _ _ _ hC ↦ hC) ?_
      · rintro _ ⟨⟩
        exact ⟨new, hnew, by omega⟩
      · intro m' hm'
        obtain rfl := Option.some.inj (hm'.symm.trans hm)
        exact .inr ⟨old, hold, by omega⟩
      · rintro _ ⟨⟩ k m' hne hm'
        exact h.sound.ne_of_ne hm k m' hne hm'
  | @remove own mid m old hown _ hm hold hrank =>
      have := h.rank_le hu hown
      refine h.setMember subset_rfl (fun _ hm' ↦ nomatch hm') ?_ (fun _ _ _ _ hC ↦ hC)
        (fun _ hm' ↦ nomatch hm')
      intro m' hm'
      obtain rfl := Option.some.inj (hm'.symm.trans hm)
      exact .inr ⟨old, hold, by omega⟩
  | @leave mid m hm hself =>
      refine h.setMember subset_rfl (fun _ hm' ↦ nomatch hm') ?_ (fun _ _ _ _ hC ↦ hC)
        (fun _ hm' ↦ nomatch hm')
      intro m' hm'
      obtain rfl := Option.some.inj (hm'.symm.trans hm)
      exact .inl (hself ▸ hu)
  | @invite own id inv role hown _ hrole hrank hby =>
      have := h.rank_le hu hown
      exact h.setInvite ⟨role, hrole⟩ fun _ ↦ ⟨role, hrole, by omega⟩
  | revoke _ _ hinv hrole hrevoked =>
      refine h.setInvite ?_ fun hp ↦ absurd hp hrevoked
      rw [hrole]
      exact h.sound.inviteRole hinv
  | accept ha => exact Set.insert_eq_of_mem hu ▸ h.accept ha

end Confinement

/-! ## Runs of a coalition -/

/-- What a coalition has made of the team `v₀`, and who it has grown to since it had the
members `C₀`. -/
inductive Colludes (C₀ : Set String) (v₀ : TeamView) : Set String → TeamView → Prop
  | start : Colludes C₀ v₀ C₀ v₀
  | act {C : Set String} {v w : TeamView} {u : String} (h : Colludes C₀ v₀ C v) (hu : u ∈ C)
      (hs : Step v u w) : Colludes C₀ v₀ C w
  | join {C : Set String} {v w : TeamView} {u : String} (h : Colludes C₀ v₀ C v)
      (ha : Accepts v u w) : Colludes C₀ v₀ (insert u C) w

section Runs

variable {v v₀ : TeamView} {r : Int} {C C₀ : Set String}

theorem Colludes.sound (h : Colludes C₀ v₀ C v) (h₀ : v₀.Sound) : v.Sound := by
  induction h with
  | start => exact h₀
  | act _ _ hs ih => exact ih.step hs
  | join _ ha ih => exact ih.accept ha

/-- Rank confinement: a coalition has no power over what ranks from `r` on, and no member of
it comes to rank above. -/
theorem Colludes.confined (h : Colludes C₀ v₀ C v) (h₀ : Confined C₀ r v₀ C₀ v₀) :
    Confined C₀ r v₀ C v := by
  induction h with
  | start => exact h₀
  | act _ hu hs ih => exact ih.step hu hs
  | join _ ha ih => exact ih.accept ha

/-! ## Permissions -/

/-- The permissions that some account of a coalition has. -/
def permissions (v : TeamView) (C : Set String) : Set String :=
  {p | ∃ u ∈ C, ∃ role, v.Holds u role ∧ p ∈ role.permissions}

theorem Holds.mem_permissions {u : String} {role : Role} {p : String} (h : v.Holds u role)
    (hu : u ∈ C) (hp : p ∈ role.permissions) : p ∈ v.permissions C :=
  ⟨u, hu, role, h, hp⟩

/-- A role from `r` on that the coalition has, it has had from the start. -/
theorem Confined.holds_start (h : Confined C₀ r v₀ C v) {u : String} (hu : u ∈ C)
    {role : Role} (hown : v.Holds u role) (hr : r ≤ role.rank) : u ∈ C₀ ∧ v₀.Holds u role := by
  obtain ⟨mid, m, hm, rfl, hrole⟩ := hown
  obtain ⟨hm₀, hu₀⟩ := h.top mid m role hm hu hrole hr
  exact ⟨hu₀, mid, m, hm₀, rfl, (h.roles m.roleId role hr).mp hrole⟩

/-- A permission that the coalition did not have at the start comes from a role below `r`. -/
theorem Confined.rank_lt_of_gained (h : Confined C₀ r v₀ C v) {u p : String} (hu : u ∈ C)
    {role : Role} (hown : v.Holds u role) (hp : p ∈ role.permissions)
    (hnew : p ∉ v₀.permissions C₀) : role.rank < r := by
  by_contra hr
  obtain ⟨hu₀, hown₀⟩ := h.holds_start hu hown (by omega)
  exact hnew (hown₀.mem_permissions hu₀ hp)

/-- A coalition that may manage neither members nor roles can only leave. -/
structure Idle (C₀ : Set String) (v₀ : TeamView) (C : Set String) (v : TeamView) : Prop where
  accounts : C = C₀
  roles : v.roles = v₀.roles
  members : ∀ ⦃mid m⦄, v.members mid = some m → v₀.members mid = some m
  invites : ∀ id inv, v.invites id = some inv → ¬ inv.Pending

theorem Idle.permissions_subset (h : Idle C₀ v₀ C v) : v.permissions C ⊆ v₀.permissions C₀ := by
  rintro p ⟨u, hu, role, ⟨mid, m, hm, hmu, hrole⟩, hp⟩
  exact ⟨u, h.accounts ▸ hu, role, ⟨mid, m, h.members hm, hmu, h.roles ▸ hrole⟩, hp⟩

theorem Idle.not_accepts (h : Idle C₀ v₀ C v) {u : String} {w : TeamView} :
    ¬ Accepts v u w := by
  rintro (⟨hinv, hpending, -, -, -, -, -, -⟩ | ⟨hinv, hpending, -, -, -, -, -, -⟩)
  · exact h.invites _ _ hinv hpending
  · exact h.invites _ _ hinv hpending

theorem Idle.step (h : Idle C₀ v₀ C v) (hmembers : "team:manage_members" ∉ v₀.permissions C₀)
    (hroles : "team:manage_roles" ∉ v₀.permissions C₀) {u : String} (hu : u ∈ C)
    {w : TeamView} (hs : Step v u w) : Idle C₀ v₀ C w := by
  have hno : ∀ {own p}, v.Holds u own → p ∉ v₀.permissions C₀ → p ∉ own.permissions :=
    fun hown hp hmem ↦ hp (h.permissions_subset (hown.mem_permissions hu hmem))
  cases hs with
  | createRole hown hp _ _ => exact absurd hp (hno hown hroles)
  | editRole hown hp _ _ _ => exact absurd hp (hno hown hroles)
  | deleteRole hown hp _ _ _ => exact absurd hp (hno hown hroles)
  | assign hown hp _ _ _ _ _ => exact absurd hp (hno hown hmembers)
  | remove hown hp _ _ _ => exact absurd hp (hno hown hmembers)
  | invite hown hp _ _ _ => exact absurd hp (hno hown hmembers)
  | revoke hown hp _ _ _ => exact absurd hp (hno hown hmembers)
  | @leave mid m hm hself =>
      refine ⟨h.accounts, h.roles, fun k m' hk ↦ ?_, h.invites⟩
      by_cases hid : k = mid
      · subst hid
        simp [TeamView.setMember] at hk
      · exact h.members (by simpa [TeamView.setMember, Function.update_of_ne hid] using hk)
  | accept ha => exact absurd ha h.not_accepts

/-- Such a coalition gains no permission. -/
theorem Colludes.permissions_subset (h : Colludes C₀ v₀ C v)
    (hnone : ∀ id inv, v₀.invites id = some inv → ¬ inv.Pending)
    (hmembers : "team:manage_members" ∉ v₀.permissions C₀)
    (hroles : "team:manage_roles" ∉ v₀.permissions C₀) :
    v.permissions C ⊆ v₀.permissions C₀ := by
  have hidle : Idle C₀ v₀ C v := by
    induction h with
    | start => exact ⟨rfl, rfl, fun _ _ hm ↦ hm, hnone⟩
    | act _ hu hs ih => exact ih.step hmembers hroles hu hs
    | join _ ha ih => exact absurd ha ih.not_accepts
  exact hidle.permissions_subset

/-- Roles are changed by those that may manage them. -/
theorem Step.roles_eq {u : String} {w : TeamView} (hs : Step v u w)
    (hno : ∀ own, v.Holds u own → "team:manage_roles" ∉ own.permissions) :
    w.roles = v.roles := by
  cases hs with
  | createRole hown hp _ _ => exact absurd hp (hno _ hown)
  | editRole hown hp _ _ _ => exact absurd hp (hno _ hown)
  | deleteRole hown hp _ _ _ => exact absurd hp (hno _ hown)
  | assign | remove | invite | revoke | leave => rfl
  | accept ha => cases ha <;> rfl

/-- A coalition to which no role below `r` gives the management of roles leaves all roles
alone. -/
theorem Colludes.roles_eq (h : Colludes C₀ v₀ C v) (h₀ : Confined C₀ r v₀ C₀ v₀)
    (hroles : "team:manage_roles" ∉ v₀.permissions C₀)
    (hbelow : ∀ id role, v₀.roles id = some role → role.rank < r →
      "team:manage_roles" ∉ role.permissions) : v.roles = v₀.roles := by
  induction h with
  | start => rfl
  | @act C v w u h hu hs ih =>
      have hno : ∀ own, v.Holds u own → "team:manage_roles" ∉ own.permissions := by
        rintro own hown hp
        have hrank := (h.confined h₀).rank_lt_of_gained hu hown hp hroles
        obtain ⟨mid, m, -, -, hrole⟩ := hown
        exact hbelow m.roleId own (ih ▸ hrole) hrank hp
      exact (hs.roles_eq hno).trans ih
  | join _ ha ih =>
      refine Eq.trans ?_ ih
      cases ha <;> rfl

end Runs

end TeamView

end Zenstier
