import Zenstier.Concurrent.Contract
import Zenstier.Teams.Refinement

/-!
# The founder of a team

A team has one Owner, its founder, whom nobody outranks: the rank of a custom role is below
that of the Owner's, nobody assigns a role at or above their own, and no invite is made out to
the founder, who is a member already.  `Founding.Holds` says so of the tables.  It comes with
what calls in flight may ask of the tables (`Allows`) and what they may rely on (`Replies`).

A call acts on what it has read.  So the ids in its hands may be those of rows that are gone,
and it matters that the database never assigns the id of a row again.
-/

namespace Zenstier

open Store Concurrent Prog TeamStore

/-! ## The ids of rows -/

/-- The id of a row whose team a call relies on. -/
inductive RowId
  | role (id : String)
  | member (id : String)
deriving DecidableEq, Repr

namespace TeamStore

variable {s t : TeamStore}

/-- The roles and members, each with its team. -/
def rows (s : TeamStore) : List (RowId × String) :=
  s.roles.entries.map (fun e ↦ (.role e.1, e.2.teamId)) ++
    s.members.entries.map fun e ↦ (.member e.1, e.2.teamId)

theorem mem_rows_role {id : String} {role : Role} (h : s.roles.find? id = some role) :
    (.role id, role.teamId) ∈ s.rows :=
  List.mem_append_left _ (List.mem_map.mpr ⟨_, Table.find?_eq_some.mp h, rfl⟩)

theorem mem_rows_member {id : String} {m : TeamMember} (h : s.members.find? id = some m) :
    (.member id, m.teamId) ∈ s.rows :=
  List.mem_append_right _ (List.mem_map.mpr ⟨_, Table.find?_eq_some.mp h, rfl⟩)

theorem nodup_rows (s : TeamStore) : (s.rows.map Prod.fst).Nodup := by
  rw [rows, List.map_append, List.map_map, List.map_map]
  refine List.nodup_append.mpr ⟨?_, ?_, ?_⟩
  · have := s.roles.nodupKeys.map (f := RowId.role) fun _ _ h ↦ RowId.role.inj h
    rwa [List.map_map] at this
  · have := s.members.nodupKeys.map (f := RowId.member) fun _ _ h ↦ RowId.member.inj h
    rwa [List.map_map] at this
  · intro a ha b hb hab
    obtain ⟨e, -, rfl⟩ := List.mem_map.mp ha
    obtain ⟨e', -, rfl⟩ := List.mem_map.mp hb
    cases hab

end TeamStore

/-- The ids that the database assigns in serving a request, with the teams of their rows. -/
def assigned {ι : Type} (_ : ι) (β : Type) (op : TeamOp β) (s : TeamStore) :
    List (RowId × String) :=
  (s.serve op).2.rows.filter (· ∉ s.rows)

/-- No id is assigned twice. -/
def NeverReused {ι : Type} [DecidableEq ι] {η : Type}
    (r : Recorded (Pool ι TeamOp Err ActionState TeamStore) (RowId × String))
    (l : Event ι Err η) : Prop :=
  ((r.log ++ Pool.observe assigned r.state l).map Prod.fst).Nodup

/-! ## The founder and the others -/

/-- The founding of a team, with the ids that are ever assigned. -/
structure Founding where
  team : String
  roleId : String
  memberId : String
  userId : String
  email : String
  log : List (RowId × String)
  nodup : (log.map Prod.fst).Nodup
  email_lower : toLowerCase email = email

namespace Founding

variable (F : Founding)

/-- The row belongs to the team, now or later or until it was deleted. -/
def Home (id : RowId) : Prop := (id, F.team) ∈ F.log

/-- The role is one of the team, but not the Owner's. -/
def Grantable (roleId : String) : Prop := F.Home (.role roleId) ∧ roleId ≠ F.roleId

/-- The founder is the one Owner of the team, and no invite is for them or makes another. -/
structure Holds (s : TeamStore) : Prop where
  team : (s.teams.find? F.team).isSome
  rows : s.rows ⊆ F.log
  owner : ∃ role, s.roles.find? F.roleId = some role ∧ role.teamId = F.team ∧
    role.name = OWNER_ROLE ∧ role.rank = 100
  ranks : ∀ id role, s.roles.find? id = some role → role.teamId = F.team →
    role.rank ≤ 100 ∧ (role.name = OWNER_ROLE → id = F.roleId)
  founder : ∃ m, s.members.find? F.memberId = some m ∧ m.teamId = F.team ∧
    m.userId = F.userId ∧ m.roleId = F.roleId
  members : ∀ id m, s.members.find? id = some m → m.teamId = F.team → id ≠ F.memberId →
    m.userId ≠ F.userId ∧ F.Grantable m.roleId
  invites : ∀ id inv, s.invites.find? id = some inv → inv.teamId = F.team →
    F.Grantable inv.roleId ∧ inv.email ≠ F.email
  account : ∃ u, s.users.find? F.userId = some u ∧ u.email = F.email
  emails : ∀ id u, s.users.find? id = some u → u.email = F.email → id = F.userId

/-- What the calls ask of the tables. -/
def Allows : ∀ β : Type, TeamOp β → Prop
  | _, .createRole _ row => row.teamId = F.team → row.rank ≤ 100
  | _, .updateRole _ data => data.name = none ∧ data.rank = none
  | _, .updateMember id roleId => id ≠ F.memberId ∧ (F.Home (.member id) → F.Grantable roleId)
  | _, .deleteMember id => id ≠ F.memberId
  | _, .upsertInvite _ row =>
      row.teamId = F.team → F.Grantable row.roleId ∧ row.email ≠ F.email
  | _, .acceptInvite _ _ userId teamId roleId _ _ =>
      teamId = F.team → F.Grantable roleId ∧ userId ≠ F.userId
  | _, _ => True

/-- A membership as a call has read it. -/
structure Sees (found : Membership) : Prop where
  home : F.Home (.member found.id) ↔ found.member.teamId = F.team
  rank : found.member.teamId = F.team → found.role.rank ≤ 100
  owner : found.id = F.memberId → found.member.teamId = F.team ∧ found.role.rank = 100 ∧
    found.role.name = OWNER_ROLE

/-- What the calls rely on. -/
def Replies : ∀ β : Type, TeamOp β → Except Err β → Prop
  | _, .findUser id, .ok (some u) => id = F.userId → u.email = F.email
  | _, .findUserByEmail email, .ok found => email = F.email → ∃ u, found = some (F.userId, u)
  | _, .findMembership userId teamId, .ok none => userId = F.userId → teamId ≠ some F.team
  | _, .findMembership _ teamId, .ok (some found) =>
      F.Sees found ∧ teamId.all (· = found.member.teamId)
  | _, .findOldestMembership _, .ok (some found) => F.Sees found
  | _, .findMember id teamId, .ok (some found) =>
      F.Sees found ∧ found.id = id ∧ found.member.teamId = teamId
  | _, .findRole id teamId, .ok (some role) =>
      (F.Home (.role id) ↔ teamId = F.team) ∧ (id = F.roleId → role.rank = 100)
  | _, .countOwners teamId, .ok n => teamId = F.team → n ≤ 1
  | _, .findInviteByHash _, .ok (some (_, inv)) =>
      inv.teamId = F.team → F.Grantable inv.roleId ∧ inv.email ≠ F.email
  | _, _, _ => True

section Invariant

variable {F} {s t : TeamStore} {β : Type}

/-! ## Replies -/

/-- A row has the team that the log assigned its id to. -/
theorem Holds.home_iff (h : F.Holds s) {id : RowId} {team : String} (hrow : (id, team) ∈ s.rows) :
    F.Home id ↔ team = F.team := by
  constructor
  · intro hhome
    exact congrArg Prod.snd (List.inj_on_of_nodup_map F.nodup (h.rows hrow) hhome rfl)
  · rintro rfl
    exact h.rows hrow

theorem Holds.home_role (h : F.Holds s) {id : String} {role : Role}
    (hrole : s.roles.find? id = some role) : F.Home (.role id) ↔ role.teamId = F.team :=
  h.home_iff (mem_rows_role hrole)

theorem Holds.home_member (h : F.Holds s) {id : String} {m : TeamMember}
    (hm : s.members.find? id = some m) : F.Home (.member id) ↔ m.teamId = F.team :=
  h.home_iff (mem_rows_member hm)

theorem Holds.owner_role (h : F.Holds s) {role : Role}
    (hrole : s.roles.find? F.roleId = some role) :
    role.teamId = F.team ∧ role.name = OWNER_ROLE ∧ role.rank = 100 := by
  obtain ⟨role', hrole', howner⟩ := h.owner
  obtain rfl := Option.some.inj (hrole.symm.trans hrole')
  exact howner

theorem Holds.founder_member (h : F.Holds s) {m : TeamMember}
    (hm : s.members.find? F.memberId = some m) :
    m.teamId = F.team ∧ m.userId = F.userId ∧ m.roleId = F.roleId := by
  obtain ⟨m', hm', hfounder⟩ := h.founder
  obtain rfl := Option.some.inj (hm.symm.trans hm')
  exact hfounder

theorem Holds.sees (h : F.Holds s) {found : Membership} (hreads : s.Reads found) :
    F.Sees found where
  home := h.home_member hreads.member
  rank hT := by
    have hrole := hreads.role
    by_cases hid : found.id = F.memberId
    · obtain ⟨-, -, hroleId⟩ := h.founder_member (hid ▸ hreads.member)
      rw [hroleId] at hrole
      exact (h.owner_role hrole).2.2.le
    · obtain ⟨-, hhome, -⟩ := h.members _ _ hreads.member hT hid
      exact (h.ranks _ _ hrole ((h.home_role hrole).mp hhome)).1
  owner hid := by
    have hrole := hreads.role
    obtain ⟨hT, -, hroleId⟩ := h.founder_member (hid ▸ hreads.member)
    rw [hroleId] at hrole
    obtain ⟨-, hname, hrank⟩ := h.owner_role hrole
    exact ⟨hT, hrank, hname⟩

/-- The founder is found to be a member. -/
theorem Holds.findMembership_founder (h : F.Holds s) :
    s.findMembership F.userId (some F.team) ≠ none := by
  obtain ⟨m, hm, hT, hu, hroleId⟩ := h.founder
  obtain ⟨role, hrole, -⟩ := h.owner
  obtain ⟨team, hteam⟩ := Option.isSome_iff_exists.mp h.team
  intro hnone
  rw [TeamStore.findMembership, Option.bind_eq_none_iff] at hnone
  cases hfirst : s.members.findFirst fun _ m ↦
      m.userId = F.userId ∧ (some F.team).all (· = m.teamId) with
  | none => simpa [hT, hu] using Table.findFirst_eq_none hfirst hm
  | some e =>
      obtain ⟨hfind, hsame⟩ := Table.findFirst_eq_some hfirst
      simp only [Option.all_some, decide_eq_true_eq] at hsame
      have hid : e.1 = F.memberId := by
        by_contra hne
        exact (h.members _ _ hfind hsame.2.symm hne).1 hsame.1
      rw [hid, hm, Option.some.injEq] at hfind
      have hwith := hnone e hfirst
      rw [TeamStore.withRole, ← hfind, hroleId, hrole, hT, hteam] at hwith
      cases hwith

/-- There is one Owner to count. -/
theorem Holds.countOwners_le (h : F.Holds s) : s.countOwners F.team ≤ 1 := by
  unfold TeamStore.countOwners
  set owners := s.members.findMany fun _ m ↦
    m.teamId = F.team ∧ (s.roles.find? m.roleId).any (·.name = OWNER_ROLE) with howners
  have hall : ∀ e ∈ owners, e.1 = F.memberId := by
    rintro ⟨id, m⟩ he
    obtain ⟨hm, hp⟩ := Table.mem_findMany.mp (howners ▸ he)
    rw [decide_eq_true_eq] at hp
    by_contra hne
    obtain ⟨-, hhome, hother⟩ := h.members id m hm hp.1 hne
    obtain ⟨role, hrole, hname⟩ := (Option.any_eq_true _ _).mp hp.2
    exact hother ((h.ranks _ _ hrole ((h.home_role hrole).mp hhome)).2 (decide_eq_true_eq.mp hname))
  have hnodup : (owners.map Prod.fst).Nodup :=
    s.members.nodupKeys.sublist (List.filter_sublist.map _)
  have hkeys : owners.map Prod.fst = List.replicate owners.length F.memberId :=
    List.eq_replicate_iff.mpr ⟨List.length_map _, by simpa using hall⟩
  rw [hkeys, List.nodup_replicate] at hnodup
  exact hnodup

/-- The tables answer as the calls rely on. -/
theorem Holds.replies (h : F.Holds s) (op : TeamOp β) : F.Replies β op (s.serve op).1 := by
  cases op with
  | findUser id =>
      cases hu : s.users.find? id with
      | none => simp only [serve, hu, Replies]
      | some u =>
          simp only [serve, hu, Replies]
          rintro rfl
          obtain ⟨u', hu', hemail⟩ := h.account
          obtain rfl := Option.some.inj (hu.symm.trans hu')
          exact hemail
  | findUserByEmail email =>
      rintro rfl
      obtain ⟨u, hu, hemail⟩ := h.account
      cases hfound : s.users.findFirst fun _ u ↦ u.email = F.email with
      | none => simpa [hemail] using Table.findFirst_eq_none hfound hu
      | some e =>
          obtain ⟨hfind, hsame⟩ := Table.findFirst_eq_some hfound
          have hid : e.1 = F.userId := h.emails _ _ hfind (decide_eq_true_eq.mp hsame)
          exact ⟨e.2, hid ▸ rfl⟩
  | findMembership userId teamId =>
      cases hfound : s.findMembership userId teamId with
      | none =>
          simp only [serve, hfound, Replies]
          rintro rfl rfl
          exact h.findMembership_founder hfound
      | some found =>
          simp only [serve, hfound, Replies]
          obtain ⟨hreads, -, hteam⟩ := reads_of_findMembership hfound
          exact ⟨h.sees hreads, hteam⟩
  | findOldestMembership userId =>
      cases hfound : s.findOldestMembership userId with
      | none => simp only [serve, hfound, Replies]
      | some found =>
          simp only [serve, hfound, Replies]
          exact h.sees (reads_of_findOldestMembership hfound).1
  | findMember id teamId =>
      cases hfound : s.findMember id teamId with
      | none => simp only [serve, hfound, Replies]
      | some found =>
          simp only [serve, hfound, Replies]
          obtain ⟨hreads, hsame⟩ := reads_of_findMember hfound
          exact ⟨h.sees hreads, hsame⟩
  | findRole id teamId =>
      cases hfound : s.findRole id teamId with
      | none => simp only [serve, hfound, Replies]
      | some role =>
          simp only [serve, hfound, Replies]
          obtain ⟨hrole, rfl⟩ := findRole_eq_some.mp hfound
          refine ⟨h.home_role hrole, ?_⟩
          rintro rfl
          exact (h.owner_role hrole).2.2
  | countOwners teamId =>
      rintro rfl
      exact h.countOwners_le
  | findInviteByHash tokenHash =>
      cases hfound : s.invites.findFirst fun _ inv ↦ inv.tokenHash = tokenHash with
      | none => simp only [serve, hfound, Replies]
      | some e =>
          simp only [serve, hfound, Replies]
          exact h.invites _ _ (Table.findFirst_eq_some hfound).1
  | now | findRoleByName | findRoleWithCount | findInvite | createTeam | setActiveTeam
  | createRole | updateRole | deleteRole | updateMember | deleteMember | detachUser
  | upsertInvite | revokeInvite | acceptInvite | createAuditLog => trivial

/-! ## Writes -/

theorem Holds.createRole (h : F.Holds s) {id : String} {row : Role}
    (hop : row.teamId = F.team → row.rank ≤ 100) (ht : s.createRole id row = .ok t)
    (hrows : t.rows ⊆ F.log) : F.Holds t := by
  unfold TeamStore.createRole at ht
  split at ht
  · cases ht
  · rename_i hfree
    split at ht
    · cases ht
    · rename_i roles hroles
      cases ht
      obtain ⟨role, hrole, hT, hname, hrank⟩ := h.owner
      have hne : F.roleId ≠ id := by
        rintro rfl
        rw [(Table.insert_eq_some hroles).1] at hrole
        cases hrole
      refine { h with rows := hrows, owner := ⟨role, ?_, hT, hname, hrank⟩, ranks := ?_ }
      · rw [Table.find?_insert hroles, if_neg hne, hrole]
      · intro k role' hrole' hT'
        rw [Table.find?_insert hroles] at hrole'
        split at hrole'
        · cases hrole'
          refine ⟨hop hT', fun hname' ↦ absurd ?_ hfree⟩
          rw [nameTaken, Option.isSome_iff_ne_none]
          intro hnone
          have := Table.findFirst_eq_none hnone hrole
          simp [hne, hT, hT', hname, hname'] at this
        · exact h.ranks k role' hrole' hT'

theorem Holds.updateRole (h : F.Holds s) {id : String} {data : RoleData} (hname : data.name = none)
    (hrank : data.rank = none) (ht : s.updateRole id data = .ok t) (hrows : t.rows ⊆ F.log) :
    F.Holds t := by
  unfold TeamStore.updateRole at ht
  split at ht
  · cases ht
  · split at ht
    · cases ht
    · cases ht
      have hkept : ∀ k role', (s.roles.update id data.apply).find? k = some role' →
          ∃ role, s.roles.find? k = some role ∧ role'.teamId = role.teamId ∧
            role'.name = role.name ∧ role'.rank = role.rank := by
        intro k role' hrole'
        rcases Table.find?_update_eq_some hrole' with ⟨role, -, hrole, rfl⟩ | ⟨-, hrole⟩
        · exact ⟨role, hrole, rfl, by simp [RoleData.apply, hname],
            by simp [RoleData.apply, hrank]⟩
        · exact ⟨role', hrole, rfl, rfl, rfl⟩
      have howner : ∃ role', (s.roles.update id data.apply).find? F.roleId = some role' := by
        obtain ⟨role, hrole, -⟩ := h.owner
        rw [Table.find?_update, hrole]
        split
        · exact ⟨_, rfl⟩
        · exact ⟨_, rfl⟩
      refine { h with rows := hrows, owner := ?_, ranks := ?_ }
      · obtain ⟨role', hrole'⟩ := howner
        obtain ⟨role, hrole, hteam, hname', hrank'⟩ := hkept _ _ hrole'
        obtain ⟨hT, hn, hr⟩ := h.owner_role hrole
        exact ⟨role', hrole', hteam.trans hT, hname'.trans hn, hrank'.trans hr⟩
      · intro k role' hrole' hT
        obtain ⟨role, hrole, hteam, hname', hrank'⟩ := hkept _ _ hrole'
        rw [hname', hrank']
        exact h.ranks k role hrole (hteam ▸ hT)

/-- The role of the founder has a member. -/
theorem Holds.deleteRole (h : F.Holds s) {id : String} (ht : s.deleteRole id = .ok t)
    (hrows : t.rows ⊆ F.log) : F.Holds t := by
  unfold TeamStore.deleteRole at ht
  split at ht
  · cases ht
  · split at ht
    · cases ht
    · rename_i hcount
      cases ht
      have hne : F.roleId ≠ id := by
        rintro rfl
        obtain ⟨m, hm, -, -, hroleId⟩ := h.founder
        have hmem := (Table.mem_findMany (p := fun _ m ↦ decide (m.roleId = F.roleId))).mpr
          ⟨hm, decide_eq_true hroleId⟩
        exact absurd (List.length_eq_zero_iff.mp (not_not.mp hcount))
          (List.ne_nil_of_mem hmem)
      refine { h with rows := hrows, owner := ?_, ranks := ?_, invites := ?_ }
      · dsimp only
        rw [Table.find?_delete, if_neg hne]
        exact h.owner
      · intro k role hrole
        rw [Table.find?_delete] at hrole
        split at hrole
        · cases hrole
        · exact h.ranks k role hrole
      · intro k inv hinv
        rw [Table.find?_deleteMany] at hinv
        exact h.invites k inv (Option.filter_eq_some_iff.mp hinv).1

theorem Holds.updateMember (h : F.Holds s) {id roleId : String} (hne : id ≠ F.memberId)
    (hop : F.Home (.member id) → F.Grantable roleId) (ht : s.updateMember id roleId = .ok t)
    (hrows : t.rows ⊆ F.log) : F.Holds t := by
  unfold TeamStore.updateMember at ht
  split at ht
  · cases ht
  · split at ht
    · cases ht
    · cases ht
      refine { h with rows := hrows, founder := ?_, members := ?_ }
      · dsimp only
        rw [Table.find?_update, if_neg hne.symm]
        exact h.founder
      · intro k m hm hT hk
        rcases Table.find?_update_eq_some hm with ⟨m', hid, hm', rfl⟩ | ⟨-, hm⟩
        · exact ⟨(h.members k m' hm' hT hk).1, hop (hid ▸ (h.home_member hm').mpr hT)⟩
        · exact h.members k m hm hT hk

theorem Holds.deleteMember (h : F.Holds s) {id : String} (hne : id ≠ F.memberId)
    (ht : s.deleteMember id = .ok t) (hrows : t.rows ⊆ F.log) : F.Holds t := by
  unfold TeamStore.deleteMember at ht
  split at ht
  · cases ht
  · cases ht
    refine { h with rows := hrows, founder := ?_, members := ?_ }
    · dsimp only
      rw [Table.find?_delete, if_neg hne.symm]
      exact h.founder
    · intro k m hm
      rw [Table.find?_delete] at hm
      split at hm
      · cases hm
      · exact h.members k m hm

theorem Holds.upsertInvite (h : F.Holds s) {id k : String} {row : TeamInvite}
    (hop : row.teamId = F.team → F.Grantable row.roleId ∧ row.email ≠ F.email)
    (ht : s.upsertInvite id row = .ok (k, t)) : F.Holds t := by
  unfold TeamStore.upsertInvite at ht
  split at ht
  · cases ht
  · split at ht
    · rename_i old hold
      split at ht
      · cases ht
      · cases ht
        refine { h with rows := h.rows, invites := ?_ }
        intro k' inv hinv hT
        rcases Table.find?_update_eq_some hinv with ⟨inv', hid, hinv', rfl⟩ | ⟨-, hinv⟩
        · obtain ⟨hfind, hsame⟩ := Table.findFirst_eq_some hold
          obtain rfl := Option.some.inj (hinv'.symm.trans (hid ▸ hfind))
          rw [decide_eq_true_eq] at hsame
          obtain ⟨hgrant, -⟩ := hop (hsame.1 ▸ hT)
          exact ⟨hgrant, (h.invites k' inv' hinv' hT).2⟩
        · exact h.invites k' inv hinv hT
    · split at ht
      · cases ht
      · split at ht
        · cases ht
        · rename_i invites hinvites
          cases ht
          refine { h with rows := h.rows, invites := ?_ }
          intro k' inv hinv hT
          rw [Table.find?_insert hinvites] at hinv
          split at hinv
          · cases hinv
            exact hop hT
          · exact h.invites k' inv hinv hT

theorem Holds.revokeInvite (h : F.Holds s) {id : String} {revokedAt : Int}
    (ht : s.revokeInvite id revokedAt = .ok t) : F.Holds t := by
  unfold TeamStore.revokeInvite at ht
  split at ht
  · cases ht
  · cases ht
    refine { h with rows := h.rows, invites := ?_ }
    intro k inv hinv
    rcases Table.find?_update_eq_some hinv with ⟨inv', -, hinv', rfl⟩ | ⟨-, hinv⟩
    · exact h.invites k inv' hinv'
    · exact h.invites k inv hinv

/-- The membership that an invite makes is not an Owner's, nor is it the founder's. -/
theorem Holds.upsertMember (h : F.Holds s) {id teamId userId roleId : String}
    {members : Table String TeamMember}
    (hop : teamId = F.team → F.Grantable roleId ∧ userId ≠ F.userId)
    (hm : s.upsertMember id teamId userId roleId = .ok members) :
    members.find? F.memberId = s.members.find? F.memberId ∧
      ∀ k m, members.find? k = some m → m.teamId = F.team → k ≠ F.memberId →
        m.userId ≠ F.userId ∧ F.Grantable m.roleId := by
  unfold TeamStore.upsertMember at hm
  split at hm
  · cases hm
  · split at hm
    · rename_i k old hold
      cases hm
      obtain ⟨hold, hsame⟩ := Table.findFirst_eq_some hold
      rw [decide_eq_true_eq] at hsame
      refine ⟨?_, fun k' m hm hT hk' ↦ ?_⟩
      · rw [Table.find?_update, if_neg]
        rintro rfl
        obtain ⟨hT, hu, -⟩ := h.founder_member hold
        exact (hop (hsame.1 ▸ hT)).2 (hsame.2 ▸ hu)
      · rcases Table.find?_update_eq_some hm with ⟨m', hid, hm', rfl⟩ | ⟨-, hm⟩
        · obtain rfl := Option.some.inj (hm'.symm.trans (hid ▸ hold))
          exact ⟨(h.members k' m' hm' hT hk').1, (hop (hsame.1 ▸ hT)).1⟩
        · exact h.members k' m hm hT hk'
    · split at hm
      · rename_i members' hmembers
        cases hm
        refine ⟨?_, fun k m hm hT hk ↦ ?_⟩
        · obtain ⟨m, hm, -⟩ := h.founder
          rw [hm, Table.find?_of_insert hmembers hm]
        · rw [Table.find?_insert hmembers] at hm
          split at hm
          · cases hm
            exact ⟨(hop hT).2, (hop hT).1⟩
          · exact h.members k m hm hT hk
      · cases hm

/-- Nothing that is done to accounts changes their addresses. -/
theorem Holds.updateUsers (h : F.Holds s) (p : String → User → Bool) {f : User → User}
    (hf : ∀ u, (f u).email = u.email) : F.Holds { s with users := s.users.updateMany p f } := by
  have hemail : ∀ k u, (if p k u then f u else u).email = u.email := by
    intro k u
    split
    · exact hf u
    · rfl
  refine { h with rows := h.rows, account := ?_, emails := ?_ }
  · obtain ⟨u, hu, heq⟩ := h.account
    dsimp only
    rw [Table.find?_updateMany, hu]
    exact ⟨_, rfl, (hemail _ u).trans heq⟩
  · intro k u hu heq
    rw [Table.find?_updateMany] at hu
    obtain ⟨u', hu', rfl⟩ := Option.map_eq_some_iff.mp hu
    exact h.emails k u' hu' ((hemail k u').symm.trans heq)

theorem Holds.acceptInvite (h : F.Holds s) {inviteId memberId userId teamId roleId : String}
    {acceptedAt : Int} {audit : AuditLog}
    (hop : teamId = F.team → F.Grantable roleId ∧ userId ≠ F.userId)
    (ht : s.acceptInvite inviteId memberId userId teamId roleId acceptedAt audit = .ok t)
    (hrows : t.rows ⊆ F.log) : F.Holds t := by
  unfold TeamStore.acceptInvite at ht
  split at ht
  · cases ht
  · rename_i members hmembers
    split at ht
    · cases ht
    · cases ht
      obtain ⟨hfounder, hothers⟩ := h.upsertMember hop hmembers
      have husers := h.updateUsers (fun k _ ↦ k = userId)
        (f := ({ · with activeTeamId := some teamId })) fun _ ↦ rfl
      refine { husers with rows := hrows, founder := ?_, members := hothers, invites := ?_ }
      · dsimp only
        rw [hfounder]
        exact h.founder
      · intro k inv hinv
        rcases Table.find?_update_eq_some hinv with ⟨inv', -, hinv', rfl⟩ | ⟨-, hinv⟩
        · exact h.invites k inv' hinv'
        · exact h.invites k inv hinv

/-- Another team is created. -/
theorem Holds.createTeam (h : F.Holds s) {ids : TeamIds} {ownerId name : String}
    {isPersonal : Bool} (ht : s.createTeam ids ownerId name isPersonal = .ok t)
    (hrows : t.rows ⊆ F.log) : F.Holds t := by
  obtain ⟨hteam, hview⟩ := view_createTeam ht h.team
  have husers : t.users = s.users := by
    unfold TeamStore.createTeam at ht
    repeat' split at ht
    all_goals cases ht
    rfl
  have hrole : ∀ id role, t.roles.find? id = some role ∧ role.teamId = F.team ↔
      s.roles.find? id = some role ∧ role.teamId = F.team := by
    intro id role
    rw [← view_roles_eq_some, hview, view_roles_eq_some]
  have hmember : ∀ id m, t.members.find? id = some m ∧ m.teamId = F.team ↔
      s.members.find? id = some m ∧ m.teamId = F.team := by
    intro id m
    rw [← view_members_eq_some, hview, view_members_eq_some]
  have hinvite : ∀ id inv, t.invites.find? id = some inv ∧ inv.teamId = F.team ↔
      s.invites.find? id = some inv ∧ inv.teamId = F.team := by
    intro id inv
    rw [← view_invites_eq_some, hview, view_invites_eq_some]
  obtain ⟨role, howner, hT, hname⟩ := h.owner
  obtain ⟨m, hm, hmT, hrest⟩ := h.founder
  exact {
    team := hteam
    rows := hrows
    owner := ⟨role, ((hrole _ _).mpr ⟨howner, hT⟩).1, hT, hname⟩
    ranks := fun id role hrole' hT ↦ h.ranks id role ((hrole _ _).mp ⟨hrole', hT⟩).1 hT
    founder := ⟨m, ((hmember _ _).mpr ⟨hm, hmT⟩).1, hmT, hrest⟩
    members := fun id m hm hT ↦ h.members id m ((hmember _ _).mp ⟨hm, hT⟩).1 hT
    invites := fun id inv hinv hT ↦ h.invites id inv ((hinvite _ _).mp ⟨hinv, hT⟩).1 hT
    account := husers ▸ h.account
    emails := husers ▸ h.emails }

theorem Holds.commit (h : F.Holds s) {r : Except Err TeamStore}
    (hrows : (s.commit r).2.rows ⊆ F.log)
    (hok : ∀ t, r = .ok t → t.rows ⊆ F.log → F.Holds t) : F.Holds (s.commit r).2 := by
  cases r with
  | error e => exact h
  | ok t => exact hok t rfl hrows

/-- Every request that is allowed keeps the founder in place. -/
theorem Holds.serve (h : F.Holds s) {op : TeamOp β} (hop : F.Allows β op)
    (hrows : (s.serve op).2.rows ⊆ F.log) : F.Holds (s.serve op).2 := by
  cases op with
  | createTeam => exact h.commit hrows fun t ht ↦ h.createTeam ht
  | setActiveTeam userId teamId =>
      refine h.commit hrows fun t ht _ ↦ ?_
      unfold TeamStore.setActiveTeam at ht
      split at ht
      · cases ht
      · cases ht
        exact h.updateUsers _ fun _ ↦ rfl
  | createRole => exact h.commit hrows fun t ht ↦ h.createRole hop ht
  | updateRole => exact h.commit hrows fun t ht ↦ h.updateRole hop.1 hop.2 ht
  | deleteRole => exact h.commit hrows fun t ht ↦ h.deleteRole ht
  | updateMember => exact h.commit hrows fun t ht ↦ h.updateMember hop.1 hop.2 ht
  | deleteMember => exact h.commit hrows fun t ht ↦ h.deleteMember hop ht
  | detachUser => exact h.updateUsers _ fun _ ↦ rfl
  | upsertInvite id row =>
      cases ht : s.upsertInvite id row with
      | error e => simpa only [TeamStore.serve, ht] using h
      | ok r => simpa only [TeamStore.serve, ht] using h.upsertInvite hop ht
  | revokeInvite => exact h.commit hrows fun t ht _ ↦ h.revokeInvite ht
  | acceptInvite => exact h.commit hrows fun t ht ↦ h.acceptInvite hop ht
  | createAuditLog => exact { h with }
  | now | findUser | findUserByEmail | findMembership | findOldestMembership | findMember
  | findRole | findRoleByName | findRoleWithCount | countOwners | findInvite
  | findInviteByHash => exact h

theorem upholds : teamServer.Upholds F.Holds F.Replies where
  reply op _ h := h.replies op
  error op _ := by cases op <;> trivial

end Invariant

end Founding

end Zenstier
