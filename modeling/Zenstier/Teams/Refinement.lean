import Zenstier.Teams.Actions
import Zenstier.Teams.View

/-!
# The actions refine the steps of an account

Seen through the view of a team, whatever an action does, however its requests fare, is
nothing or one `TeamView.Step` of its caller.  The reads of an action leave the tables alone,
so its one write meets the state they were answered in; what comes after the write does not
touch the team.
-/

namespace Zenstier

open Store Concurrent Prog

/-- The team exists, with the view `v`. -/
structure TeamStore.At (T : String) (v : TeamView) (s : TeamStore) : Prop where
  exists_team : (s.teams.find? T).isSome
  view_eq : s.view T = v

/-- The team exists, and its view is still `v` or one with `R`. -/
def TeamStore.Moved (T : String) (v : TeamView) (R : TeamView → Prop) (s : TeamStore) : Prop :=
  (s.teams.find? T).isSome ∧ (s.view T = v ∨ R (s.view T))

/-- Every run of the program ends in a state with `I`. -/
abbrev Ends {α : Type} (I : TeamStore → Prop) (p : TeamM α) (s : TeamStore) : Prop :=
  wp teamServer anyFate (fun _ _ _ ↦ True) (fun _ t ↦ I t) p s

/-- Requests that leave teams, roles, members and invites alone. -/
def TeamOp.Quiet : ∀ β : Type, TeamOp β → Prop
  | _, .createTeam .. | _, .createRole .. | _, .updateRole .. | _, .deleteRole ..
  | _, .updateMember .. | _, .deleteMember .. | _, .upsertInvite .. | _, .revokeInvite ..
  | _, .acceptInvite .. => False
  | _, _ => True

open TeamStore

variable {α β : Type} {T : String} {v : TeamView} {R : TeamView → Prop} {s t : TeamStore}

theorem TeamStore.At.moved (h : s.At T v) : s.Moved T v R := ⟨h.exists_team, .inl h.view_eq⟩

/-- What a write to a row does to the view of a team. -/
theorem TeamStore.At.write (h : s.At T v) {c : Prop} [Decidable c] {w : TeamView}
    (hteams : t.teams = s.teams) (hview : t.view T = if c then w else s.view T) (hR : c → R w) :
    t.Moved T v R := by
  refine ⟨hteams ▸ h.exists_team, ?_⟩
  split at hview
  · rename_i hc
    exact .inr (hview ▸ hR hc)
  · exact .inl (hview.trans h.view_eq)

theorem TeamStore.Moved.commit (h : s.Moved T v R) {r : Except Err TeamStore}
    (hok : ∀ t, r = .ok t → t.Moved T v R) : (s.commit r).2.Moved T v R := by
  cases r with
  | error e => exact h
  | ok t => exact hok t rfl

/-- Quiet requests leave every team alone. -/
theorem TeamOp.Quiet.serve {op : TeamOp β} (hop : TeamOp.Quiet β op) (s : TeamStore) :
    (s.serve op).2.teams = s.teams ∧ (s.serve op).2.view T = s.view T := by
  cases op with
  | createTeam | createRole | updateRole | deleteRole | updateMember | deleteMember
  | upsertInvite | revokeInvite | acceptInvite => exact hop.elim
  | setActiveTeam userId teamId =>
      unfold TeamStore.serve TeamStore.setActiveTeam
      dsimp only
      split <;> exact ⟨rfl, rfl⟩
  | now | findUser | findUserByEmail | findMembership | findOldestMembership | findMember
  | findRole | findRoleByName | findRoleWithCount | countOwners | findInvite
  | findInviteByHash | detachUser | createAuditLog => exact ⟨rfl, rfl⟩

theorem TeamOp.Quiet.after {op : TeamOp β} (hop : TeamOp.Quiet β op) (f : Fate Err)
    (s : TeamStore) : (teamServer.after f op s).teams = s.teams ∧
      (teamServer.after f op s).view T = s.view T :=
  Server.after_of (fun t : TeamStore ↦ t.teams = s.teams ∧ t.view T = s.view T) ⟨rfl, rfl⟩
    (hop.serve s) f

theorem TeamStore.At.quiet (h : s.At T v) {op : TeamOp β} (hop : TeamOp.Quiet β op)
    (f : Fate Err) : (teamServer.after f op s).At T v := by
  obtain ⟨hteams, hview⟩ := hop.after (T := T) f s
  exact ⟨hteams ▸ h.exists_team, hview.trans h.view_eq⟩

/-! ## Programs that write once -/

theorem Ends.read {I : TeamStore → Prop} {op : TeamOp β} {k : β → TeamM α} {b : β}
    (hserve : s.serve op = (.ok b, s)) (hs : I s) (hk : Ends I (k b) s) :
    Ends I (.perform op >>= k) s :=
  wp_await_read trivial hserve hk fun _ ↦ hs

theorem Ends.quiet {p : TeamM α} (hp : Only TeamOp.Quiet p) (hs : s.Moved T v R) :
    Ends (Moved T v R) p s := by
  refine wp_of_only (fun β op s f hop hs _ ↦ ?_) (fun _ _ _ _ _ ↦ trivial) hp hs
  obtain ⟨hteams, hview⟩ := hop.after (T := T) f s
  rw [Moved, hteams, hview]
  exact hs

/-- The write of a program, and the quiet rest. -/
theorem Ends.write {op : TeamOp β} {k : β → TeamM α} (hs : s.Moved T v R)
    (hop : (s.serve op).2.Moved T v R) (hk : ∀ b, Only TeamOp.Quiet (k b)) :
    Ends (Moved T v R) (.perform op >>= k) s := by
  refine wp_await trivial (fun _ ↦ ?_) (fun _ _ ↦ hs) fun _ _ ↦ hop
  refine Ends.quiet ?_ hop
  exact Only.bind ((only_ofExcept _).mpr trivial) hk

/-- A `TeamError` that becomes a message leaves no traces. -/
theorem Ends.catching {I : TeamStore → Prop} {p : TeamM ActionState} (h : Ends I p s) :
    Ends I (p.tryCatch fail) s := by
  refine (wp_tryCatch _ _ _).mpr (wp_mono h ?_)
  intro r t ht
  cases r with
  | ok a => exact ht
  | error e =>
      dsimp only
      unfold fail
      split <;> exact ht

theorem Ends.guarded {I : TeamStore → Prop} {service : TeamM Unit} (h : Ends I service s) :
    Ends I (guarded service) s := by
  refine Ends.catching ((wp_bind _ _ _).mpr (wp_mono h ?_))
  intro r t ht
  cases r <;> exact ht

/-! ## The caller -/

/-- A membership as the tables have it. -/
structure TeamStore.Reads (s : TeamStore) (found : Membership) : Prop where
  member : s.members.find? found.id = some found.member
  role : s.roles.find? found.member.roleId = some found.role

theorem TeamStore.reads_of_withRole {e : String × TeamMember} {found : Membership}
    (he : s.members.find? e.1 = some e.2) (h : s.withRole e = some found) :
    s.Reads found ∧ found.id = e.1 ∧ found.member = e.2 := by
  obtain ⟨role, hrole, h⟩ := Option.bind_eq_some_iff.mp h
  obtain ⟨team, -, h⟩ := Option.bind_eq_some_iff.mp h
  cases h
  exact ⟨⟨he, hrole⟩, rfl, rfl⟩

theorem TeamStore.reads_of_findMembership {userId : String} {teamId : Option String}
    {found : Membership} (h : s.findMembership userId teamId = some found) :
    s.Reads found ∧ found.member.userId = userId ∧ teamId.all (· = found.member.teamId) := by
  obtain ⟨e, he, h⟩ := Option.bind_eq_some_iff.mp h
  obtain ⟨hfind, hsame⟩ := Table.findFirst_eq_some he
  obtain ⟨hreads, -, hmember⟩ := reads_of_withRole hfind h
  rw [decide_eq_true_eq] at hsame
  exact ⟨hreads, hmember ▸ hsame⟩

theorem TeamStore.reads_of_findOldestMembership {userId : String} {found : Membership}
    (h : s.findOldestMembership userId = some found) :
    s.Reads found ∧ found.member.userId = userId := by
  obtain ⟨e, he, h⟩ := Option.bind_eq_some_iff.mp h
  obtain ⟨hfind, hsame⟩ := Table.findEarliest_eq_some he
  obtain ⟨hreads, -, hmember⟩ := reads_of_withRole hfind h
  exact ⟨hreads, hmember ▸ decide_eq_true_eq.mp hsame⟩

theorem TeamStore.reads_of_findMember {id teamId : String} {found : Membership}
    (h : s.findMember id teamId = some found) :
    s.Reads found ∧ found.id = id ∧ found.member.teamId = teamId := by
  obtain ⟨m, hm, h⟩ := Option.bind_eq_some_iff.mp h
  obtain ⟨hfind, hteam⟩ := Option.filter_eq_some_iff.mp hm
  obtain ⟨hreads, hid, hmember⟩ := reads_of_withRole hfind h
  exact ⟨hreads, hid, hmember ▸ decide_eq_true_eq.mp hteam⟩

theorem TeamStore.findRole_eq_some {id teamId : String} {role : Role} :
    s.findRole id teamId = some role ↔ s.roles.find? id = some role ∧ role.teamId = teamId := by
  rw [findRole, Option.filter_eq_some_iff, decide_eq_true_eq]

/-- A member of the team that the tables have is one of its view, with its role. -/
theorem TeamStore.At.reads (h : s.At T v) (hsound : v.Sound) {found : Membership}
    (hreads : s.Reads found) (hT : found.member.teamId = T) :
    v.members found.id = some found.member ∧ v.roles found.member.roleId = some found.role := by
  have hm : (s.view T).members found.id = some found.member :=
    view_members_eq_some.mpr ⟨hreads.member, hT⟩
  have hrole := role_of_member (h.view_eq ▸ hsound) hm hreads.role
  exact ⟨h.view_eq ▸ hm, h.view_eq ▸ hrole⟩

/-- Requests that leave the teams alone that there are. -/
def TeamOp.Founding : ∀ β : Type, TeamOp β → Prop
  | _, .createTeam .. => True
  | β, op => TeamOp.Quiet β op

theorem TeamStore.At.founding (h : s.At T v) {op : TeamOp β} (hop : TeamOp.Founding β op)
    (f : Fate Err) : (teamServer.after f op s).At T v := by
  cases op with
  | createTeam ids ownerId name isPersonal =>
      refine Server.after_of (At T v) h ?_ f
      show (s.commit (s.createTeam ids ownerId name isPersonal)).2.At T v
      cases hc : s.createTeam ids ownerId name isPersonal with
      | error e => exact h
      | ok t =>
          obtain ⟨hteam, hview⟩ := view_createTeam hc h.exists_team
          exact ⟨hteam, hview.trans h.view_eq⟩
  | _ =>
      refine h.quiet ?_ f
      exact hop

theorem resolveMembership_only (ids : TeamIds) (user : SessionUser) :
    Only TeamOp.Founding (resolveMembership ids user) := by
  unfold resolveMembership ensurePersonalTeam
  refine Only.await trivial fun found ↦ Only.await trivial fun membership ↦ ?_
  cases membership with
  | some membership => trivial
  | none =>
      refine Only.await trivial fun membership ↦ ?_
      cases membership with
      | some membership => trivial
      | none =>
          refine Only.bind (Only.await trivial fun found ↦ ?_) fun _ ↦
            Only.await trivial fun membership ↦ by cases membership <;> trivial
          cases found with
          | some found => trivial
          | none => exact Only.await trivial fun _ ↦ (only_perform _).mpr trivial

/-- The caller acts under a membership of theirs. -/
theorem resolveMembership_reads (ids : TeamIds) (user : SessionUser) (s : TeamStore) :
    wp teamServer anyFate (fun _ _ _ ↦ True) (fun r t ↦ ∀ found, r = .ok found →
      t.Reads found ∧ found.member.userId = user.id) (resolveMembership ids user) s := by
  have hfails : ∀ {t : TeamStore} {e : Err} (found),
      (.error e : Except Err Membership) = .ok found →
        t.Reads found ∧ found.member.userId = user.id := fun _ h ↦ (nomatch h)
  unfold resolveMembership
  refine wp_await_read trivial rfl ?_ fun _ ↦ hfails
  refine wp_await_read trivial rfl ?_ fun _ ↦ hfails
  split
  · rename_i found hfound
    rintro _ ⟨⟩
    exact (reads_of_findMembership hfound).imp id And.left
  · refine wp_await_read trivial rfl ?_ fun _ ↦ hfails
    split
    · rename_i found hfound
      rintro _ ⟨⟩
      exact reads_of_findOldestMembership hfound
    · refine (wp_bind _ _ _).mpr (wp_mono (wp_of_only (I := fun _ ↦ True) (K := fun _ _ ↦ True)
        (fun _ _ _ _ _ _ _ ↦ trivial) (fun _ _ _ _ _ ↦ trivial)
        (Only.of_forall (fun _ _ ↦ trivial) _) trivial) ?_)
      intro r t _
      cases r with
      | error e => exact hfails
      | ok _ =>
          refine wp_await_read trivial rfl ?_ fun _ ↦ hfails
          split
          · rename_i found hfound
            rintro _ ⟨⟩
            exact (reads_of_findMembership hfound).imp id And.left
          · exact hfails

theorem resolveMembership_at (h : s.At T v) (ids : TeamIds) (user : SessionUser) :
    wp teamServer anyFate (fun _ _ _ ↦ True) (fun r t ↦ t.At T v ∧
      ∀ found, r = .ok found → t.Reads found ∧ found.member.userId = user.id)
      (resolveMembership ids user) s :=
  wp_and (wp_of_only (fun _ _ _ f hop hs _ ↦ hs.founding hop f) (fun _ _ _ _ _ ↦ trivial)
    (resolveMembership_only ids user) h) (resolveMembership_reads ids user s)

/-- What a context vouches for in the team `T`: its rank and permissions are those of a role
that the caller has. -/
def TeamContext.Vouches (ctx : TeamContext) (T : String) (v : TeamView) : Prop :=
  ctx.teamId = T → ∃ own, v.Holds ctx.user.id own ∧ own.rank = ctx.rank ∧
    own.permissions = ctx.permissions

/-- An action starts by resolving the context of its caller. -/
theorem Ends.context (h : s.At T v) (hsound : v.Sound) (ids : TeamIds) (user : SessionUser)
    {f : TeamContext → TeamM α} (hf : ∀ t ctx, t.At T v → ctx.user = user → ctx.Vouches T v →
      Ends (Moved T v R) (f ctx) t) :
    Ends (Moved T v R) (getTeamContext ids user >>= f) s := by
  unfold getTeamContext
  rw [Prog.bind_assoc]
  refine (wp_bind _ _ _).mpr (wp_mono (resolveMembership_at h ids user) ?_)
  rintro r t ⟨ht, hfound⟩
  cases r with
  | error e => exact ht.moved
  | ok found =>
      obtain ⟨hreads, huser⟩ := hfound found rfl
      refine hf t _ ht rfl fun hT ↦ ?_
      obtain ⟨hm, hrole⟩ := ht.reads hsound hreads hT
      exact ⟨found.role, ⟨found.id, found.member, hm, huser, hrole⟩, rfl, rfl⟩

/-- In the team `T`, the actor has a role of the rank and with the permission. -/
def Backed (T : String) (v : TeamView) (actorId teamId : String) (rank : Int) (p : String) :
    Prop :=
  teamId = T → ∃ own, v.Holds actorId own ∧ own.rank = rank ∧ p ∈ own.permissions

/-- Most demand a permission first. -/
theorem Ends.permitted (h : s.At T v) (hsound : v.Sound) (ids : TeamIds) (user : SessionUser)
    (p : String) {f : TeamContext → TeamM α} (hf : ∀ t ctx, t.At T v → ctx.user = user →
      Backed T v user.id ctx.teamId ctx.rank p → Ends (Moved T v R) (f ctx) t) :
    Ends (Moved T v R) (requirePermission ids user p >>= f) s := by
  unfold requirePermission
  rw [Prog.bind_assoc]
  refine .context h hsound ids user fun t ctx ht hu hv ↦ ?_
  split
  · rename_i hp
    refine hf t ctx ht hu fun hT ↦ ?_
    obtain ⟨own, hown, hrank, hperms⟩ := hv hT
    exact ⟨own, hu ▸ hown, hrank, hperms ▸ hp⟩
  · exact ht.moved

/-! ## Roles -/

/-- The audit entry at the end of an operation. -/
theorem quiet_audit (row : AuditLog) :
    Only TeamOp.Quiet (.perform (.createAuditLog row) : TeamM Unit) :=
  (only_perform _).mpr trivial

theorem createRole_moves (h : s.At T v) {id actorId teamId : String} {actorRank : Int}
    {input : RoleInput} (hauth : Backed T v actorId teamId actorRank "team:manage_roles")
    (hrank : input.rank < actorRank) :
    Ends (Moved T v (v.Step actorId)) (createRole id actorId teamId input) s := by
  unfold createRole
  refine (wp_bind _ _ _).mpr ?_
  rw [wp_ofExcept]
  cases validatePermissions input.permissions with
  | error e => exact h.moved
  | ok permissions =>
      dsimp only
      split
      · exact h.moved
      · refine Ends.read rfl h.moved ?_
        split
        · exact h.moved
        · refine .write h.moved (h.moved.commit fun t ht ↦ ?_) fun _ ↦ quiet_audit _
          obtain ⟨hteams, hnew, hview⟩ := view_createRole (T := T) ht
          refine h.write hteams hview fun hT ↦ ?_
          obtain ⟨own, hown, rfl, hp⟩ := hauth hT
          rw [h.view_eq] at hnew ⊢
          exact .createRole hown hp hnew hrank

/-- What `updateRole` lets through is below the actor's rank, and stays there. -/
theorem rank_lt_of_updateRefusal {actorRank : Int} {role : Role} {input : RoleData}
    (h : updateRefusal actorRank role input = none) :
    role.rank < actorRank ∧ input.rank.getD role.rank < actorRank := by
  unfold updateRefusal at h
  split at h
  · cases h
  · split at h
    · cases h
    · rename_i hrank hinput
      refine ⟨by omega, ?_⟩
      cases hr : input.rank with
      | none =>
          rw [Option.getD_none]
          omega
      | some rank =>
          have : ¬ rank ≥ actorRank := fun hle ↦ hinput ⟨rank, hr, hle⟩
          rw [Option.getD_some]
          omega

theorem updateRole_moves (h : s.At T v) {actorId teamId roleId : String} {actorRank : Int}
    {input : RoleData} (hauth : Backed T v actorId teamId actorRank "team:manage_roles") :
    Ends (Moved T v (v.Step actorId)) (updateRole actorId actorRank teamId roleId input) s := by
  unfold updateRole
  refine .read rfl h.moved ?_
  split
  · exact h.moved
  · rename_i role hfound
    split
    · exact h.moved
    · rename_i hnone
      refine (wp_bind _ _ _).mpr ?_
      rw [wp_ofExcept]
      split
      · rename_i permissions _
        obtain ⟨hrole, hteam⟩ := findRole_eq_some.mp hfound
        obtain ⟨hrank, hrank'⟩ := rank_lt_of_updateRefusal hnone
        refine Ends.write h.moved (h.moved.commit fun t ht ↦ ?_) fun _ ↦ quiet_audit _
        obtain ⟨hteams, hview⟩ := view_updateRole (T := T) hrole ht
        refine h.write hteams hview fun hT ↦ ?_
        obtain ⟨own, hown, rfl, hp⟩ := hauth (hteam.symm.trans hT)
        have hrole' := view_roles_eq_some.mpr ⟨hrole, hT⟩
        rw [h.view_eq] at hrole' ⊢
        exact .editRole hown hp hrole' hrank hrank'
      · exact h.moved

theorem deleteRole_moves (h : s.At T v) (hsound : v.Sound) {actorId teamId roleId : String}
    {actorRank : Int} (hauth : Backed T v actorId teamId actorRank "team:manage_roles") :
    Ends (Moved T v (v.Step actorId)) (deleteRole actorId actorRank teamId roleId) s := by
  unfold deleteRole
  refine .read rfl h.moved ?_
  split
  · exact h.moved
  · rename_i role members hfound
    obtain ⟨role', hfound', hpair⟩ := Option.map_eq_some_iff.mp hfound
    obtain ⟨rfl, -⟩ := Prod.mk.inj hpair
    obtain ⟨hrole, hteam⟩ := findRole_eq_some.mp hfound'
    split
    · exact h.moved
    · split
      · exact h.moved
      · split
        · exact h.moved
        · rename_i hrank _ _
          refine .write h.moved (h.moved.commit fun t ht ↦ ?_) fun _ ↦ quiet_audit _
          obtain ⟨hteams, hfree, hview⟩ := view_deleteRole hrole (h.view_eq ▸ hsound) ht
          refine h.write hteams hview fun hT ↦ ?_
          obtain ⟨own, hown, rfl, hp⟩ := hauth (hteam.symm.trans hT)
          have hrole' := view_roles_eq_some.mpr ⟨hrole, hT⟩
          rw [h.view_eq] at hrole' hfree ⊢
          exact .deleteRole hown hp hrole' (by omega) hfree

/-! ## Membership -/

theorem Ends.lastOwner {I : TeamStore → Prop} {teamId roleName : String} {k : PUnit → TeamM α}
    (hs : I s) (hk : Ends I (k ⟨⟩) s) : Ends I (ensureNotLastOwner teamId roleName >>= k) s := by
  unfold ensureNotLastOwner
  split
  · exact hk
  · rw [Prog.bind_assoc]
    refine .read rfl hs ?_
    split
    · exact hs
    · exact hk

/-- What `changeMemberRole` lets through is below the actor's rank. -/
theorem rank_lt_of_assignRefusal {actorId : String} {actorRank : Int} {found : Membership}
    {role : Role} (h : assignRefusal actorId actorRank found role = none) :
    found.role.rank < actorRank ∧ role.rank < actorRank := by
  unfold assignRefusal at h
  split at h
  · cases h
  · split at h
    · cases h
    · omega

theorem changeMemberRole_moves (h : s.At T v) (hsound : v.Sound)
    {actorId teamId memberId roleId : String} {actorRank : Int}
    (hauth : Backed T v actorId teamId actorRank "team:manage_members") :
    Ends (Moved T v (v.Step actorId))
      (changeMemberRole actorId actorRank teamId memberId roleId) s := by
  unfold changeMemberRole
  refine .read rfl h.moved ?_
  split
  · exact h.moved
  · rename_i found hfound
    refine .read rfl h.moved ?_
    split
    · exact h.moved
    · rename_i role hfoundRole
      split
      · exact h.moved
      · rename_i hnone
        obtain ⟨hreads, rfl, hteam⟩ := reads_of_findMember hfound
        obtain ⟨hrole, hroleTeam⟩ := findRole_eq_some.mp hfoundRole
        obtain ⟨hrank, hrank'⟩ := rank_lt_of_assignRefusal hnone
        refine .lastOwner h.moved
          (.write h.moved (h.moved.commit fun t ht ↦ ?_) fun _ ↦ quiet_audit _)
        obtain ⟨hteams, hview⟩ := view_updateMember (T := T) hreads.member ht
        refine h.write hteams hview fun hT ↦ ?_
        obtain ⟨own, hown, rfl, hp⟩ := hauth (hteam.symm.trans hT)
        obtain ⟨hm, hold⟩ := h.reads hsound hreads hT
        have hrole' := view_roles_eq_some.mpr ⟨hrole, hroleTeam.trans (hteam.symm.trans hT)⟩
        rw [h.view_eq] at hrole' ⊢
        exact .assign hown hp hm hold hrank hrole' hrank'

theorem dropMember_moves (h : s.At T v) {actorId teamId u : String} {found : Membership}
    (hreads : s.Reads found)
    (hstep : found.member.teamId = T → v.Step u (v.setMember found.id none)) :
    Ends (Moved T v (v.Step u)) (dropMember actorId teamId found) s := by
  unfold dropMember
  refine .lastOwner h.moved (.write h.moved (h.moved.commit fun t ht ↦ ?_) fun _ ↦
    Only.await trivial fun _ ↦ quiet_audit _)
  obtain ⟨hteams, hview⟩ := view_deleteMember (T := T) hreads.member ht
  refine h.write hteams hview fun hT ↦ ?_
  rw [h.view_eq]
  exact hstep hT

theorem removeMember_moves (h : s.At T v) (hsound : v.Sound) {actorId teamId memberId : String}
    {actorRank : Int} (hauth : Backed T v actorId teamId actorRank "team:manage_members") :
    Ends (Moved T v (v.Step actorId)) (removeMember actorId actorRank teamId memberId) s := by
  unfold removeMember
  refine .read rfl h.moved ?_
  split
  · exact h.moved
  · rename_i found hfound
    split
    · exact h.moved
    · rename_i hallowed
      obtain ⟨hreads, -, hteam⟩ := reads_of_findMember hfound
      refine dropMember_moves h hreads fun hT ↦ ?_
      obtain ⟨hm, hold⟩ := h.reads hsound hreads hT
      by_cases hself : found.member.userId = actorId
      · exact .leave hm hself
      · obtain ⟨own, hown, rfl, hp⟩ := hauth (hteam.symm.trans hT)
        have hrank : ¬ found.role.rank ≥ own.rank := fun hle ↦ hallowed ⟨hle, hself⟩
        exact .remove hown hp hm hold (by omega)

theorem leaveTeam_moves (h : s.At T v) (hsound : v.Sound) {userId teamId : String} :
    Ends (Moved T v (v.Step userId)) (leaveTeam userId teamId) s := by
  unfold leaveTeam
  refine .read rfl h.moved ?_
  split
  · exact h.moved
  · rename_i found hfound
    split
    · exact h.moved
    · obtain ⟨hreads, hself, -⟩ := reads_of_findMembership hfound
      exact dropMember_moves h hreads fun hT ↦ .leave (h.reads hsound hreads hT).1 hself

/-! ## Invites -/

theorem Ends.notMember {I : TeamStore → Prop} {teamId email : String} {k : PUnit → TeamM α}
    (hs : I s) (hk : Ends I (k ⟨⟩) s) : Ends I (ensureNotMember teamId email >>= k) s := by
  unfold ensureNotMember
  rw [Prog.bind_assoc]
  refine .read rfl hs ?_
  split
  · exact hk
  · rw [Prog.bind_assoc]
    refine .read rfl hs ?_
    split
    · exact hk
    · exact hs

theorem inviteMember_moves (h : s.At T v) {dig : Digests} {draws : InviteDraws}
    {actorId teamId email roleId : String} {actorRank : Int}
    (hauth : Backed T v actorId teamId actorRank "team:manage_members") :
    Ends (Moved T v (v.Step actorId))
      (inviteMember dig draws actorId actorRank teamId email roleId) s := by
  unfold inviteMember
  refine .read rfl h.moved ?_
  split
  · exact h.moved
  · rename_i role hfound
    split
    · exact h.moved
    · rename_i hrank
      obtain ⟨hrole, hteam⟩ := findRole_eq_some.mp hfound
      refine .notMember h.moved (.read rfl h.moved ?_)
      refine .write h.moved ?_ fun _ ↦ Only.await trivial fun _ ↦ trivial
      unfold serve
      dsimp only
      split
      · rename_i k t ht
        obtain ⟨hteams, inv, hinvRole, hby, hview⟩ := view_upsertInvite (T := T) ht
        refine h.write hteams hview fun hT ↦ ?_
        obtain ⟨own, hown, rfl, hp⟩ := hauth hT
        have hrole' := view_roles_eq_some.mpr ⟨hrole, hteam.trans hT⟩
        rw [← show inv.roleId = roleId from hinvRole, h.view_eq] at hrole'
        rw [h.view_eq]
        exact .invite hown hp hrole' (by omega) hby
      · exact h.moved

theorem revokeInvite_moves (h : s.At T v) {actorId teamId inviteId : String} {rank : Int}
    (hauth : Backed T v actorId teamId rank "team:manage_members") :
    Ends (Moved T v (v.Step actorId)) (revokeInvite actorId teamId inviteId) s := by
  unfold revokeInvite
  refine .read rfl h.moved ?_
  split
  · exact h.moved
  · rename_i inv hfound
    obtain ⟨hinv, hteam⟩ := Option.filter_eq_some_iff.mp hfound
    rw [decide_eq_true_eq] at hteam
    refine .read rfl h.moved ?_
    refine .write h.moved (h.moved.commit fun t ht ↦ ?_) fun _ ↦ quiet_audit _
    obtain ⟨hteams, hview⟩ := view_revokeInvite (T := T) hinv ht
    refine h.write hteams hview fun hT ↦ ?_
    obtain ⟨own, hown, -, hp⟩ := hauth (hteam.symm.trans hT)
    have hinv' := view_invites_eq_some.mpr ⟨hinv, hT⟩
    rw [h.view_eq] at hinv' ⊢
    exact .revoke hown hp hinv' rfl fun hpending ↦ nomatch hpending.2

/-- What `acceptInvite` lets through is pending. -/
theorem pending_of_inviteRefusal {now : Int} {inv : TeamInvite}
    (h : inviteRefusal now inv = none) : inv.Pending := by
  unfold inviteRefusal at h
  split at h
  · cases h
  · split at h
    · cases h
    · rename_i hrevoked haccepted
      exact ⟨by simpa using haccepted, by simpa using hrevoked⟩

theorem acceptInvite_moves (h : s.At T v) {dig : Digests} {memberId userId token : String} :
    Ends (Moved T v (v.Accepts userId)) (acceptInvite dig memberId userId token) s := by
  unfold acceptInvite
  refine .read rfl h.moved ?_
  split
  · exact h.moved
  · rename_i inviteId inv hfound
    refine .read rfl h.moved ?_
    split
    · exact h.moved
    · rename_i hnone
      refine .read rfl h.moved ?_
      split
      · exact h.moved
      · split
        · exact h.moved
        · refine .read rfl h.moved ?_
          refine (wp_perform _ _).mpr ⟨trivial, fun f _ ↦ ?_⟩
          refine Server.after_of (Moved T v (v.Accepts userId)) h.moved ?_ f
          refine h.moved.commit fun t ht ↦ ?_
          obtain ⟨hinv, -⟩ := Table.findFirst_eq_some hfound
          obtain ⟨hteams, helse, haccepts⟩ :=
            view_acceptInvite (T := T) hinv (pending_of_inviteRefusal hnone) ht
          refine ⟨hteams ▸ h.exists_team, ?_⟩
          by_cases hT : inv.teamId = T
          · exact .inr (h.view_eq ▸ haccepts hT)
          · exact .inl ((helse hT).trans h.view_eq)

/-! ## The actions -/

theorem Ends.mono {I J : TeamStore → Prop} {p : TeamM α} (h : Ends I p s) (hJ : ∀ t, I t → J t) :
    Ends J p s :=
  wp_mono h fun _ t ht ↦ hJ t ht

theorem TeamStore.Moved.mono {R' : TeamView → Prop} (hR : ∀ w, R w → R' w)
    (h : s.Moved T v R) : s.Moved T v R' :=
  h.imp id (Or.imp id (hR _))

/-- Accepting an invite. -/
theorem acceptInviteAction_moves (h : s.At T v) (hsound : v.Sound) (dig : Digests)
    (ids : TeamIds) (user : SessionUser) (memberId token : String) :
    Ends (Moved T v (v.Accepts user.id)) (acceptInviteAction dig ids user memberId token) s := by
  unfold acceptInviteAction
  refine .context h hsound ids user fun t ctx ht hu _ ↦ ?_
  dsimp only
  split
  · exact ht.moved
  · rw [hu]
    exact (acceptInvite_moves ht).guarded

/-- Every action takes at most one step. -/
theorem TeamCall.moves (h : s.At T v) (hsound : v.Sound) (dig : Digests) (ids : TeamIds)
    (user : SessionUser) (call : TeamCall) :
    Ends (Moved T v (v.Step user.id)) (call.prog dig ids user) s := by
  cases call with
  | inviteMember draws parsed =>
      refine .permitted h hsound ids user _ fun t ctx ht hu hauth ↦ ?_
      cases parsed with
      | error message => exact ht.moved
      | ok data =>
          refine .catching ((wp_bind _ _ _).mpr (wp_mono (inviteMember_moves ht ?_) ?_))
          · exact hu ▸ hauth
          · rintro (e | x) t' ht'
            · exact hu ▸ ht'
            · exact hu ▸ ht'
  | revokeInvite inviteId =>
      refine .permitted h hsound ids user _ fun t ctx ht hu hauth ↦ ?_
      rw [hu]
      exact (revokeInvite_moves ht hauth).guarded
  | changeMemberRole memberId roleId =>
      refine .permitted h hsound ids user _ fun t ctx ht hu hauth ↦ ?_
      rw [hu]
      exact (changeMemberRole_moves ht hsound hauth).guarded
  | removeMember memberId =>
      refine .permitted h hsound ids user _ fun t ctx ht hu hauth ↦ ?_
      rw [hu]
      exact (removeMember_moves ht hsound hauth).guarded
  | createRole roleId parsed =>
      refine .permitted h hsound ids user _ fun t ctx ht hu hauth ↦ ?_
      cases parsed with
      | error message => exact ht.moved
      | ok data =>
          dsimp only
          split
          · exact ht.moved
          · rename_i hrank
            rw [hu]
            exact (createRole_moves ht hauth (by omega)).guarded
  | updateRolePermissions roleId permissions =>
      refine .permitted h hsound ids user _ fun t ctx ht hu hauth ↦ ?_
      rw [hu]
      exact (updateRole_moves ht hauth).guarded
  | deleteRole roleId =>
      refine .permitted h hsound ids user _ fun t ctx ht hu hauth ↦ ?_
      rw [hu]
      exact (deleteRole_moves ht hsound hauth).guarded
  | leaveTeam =>
      refine .context h hsound ids user fun t ctx ht hu _ ↦ ?_
      rw [hu]
      exact (leaveTeam_moves ht hsound).guarded
  | acceptInvite memberId token =>
      exact (acceptInviteAction_moves h hsound dig ids user memberId token).mono fun t ht ↦
        ht.mono fun _ ↦ .accept

end Zenstier
