import Zenstier.Teams.Founder

/-!
# A team always has an Owner

`ensureNotLastOwner` counts the Owners and the write comes later, so two calls may both have
counted before either of them writes.  What keeps a team from losing its Owners is its founder:
every call keeps to what `Founding.Allows`, and so nothing that is in flight touches their
membership or makes another Owner.
-/

namespace Zenstier

open Store Concurrent Prog TeamStore

namespace Founding

section Calls

variable {F : Founding}

/-! ## The calls -/

/-- As long as the tables answer as they should, the program asks for what is allowed. -/
abbrev Keeps {α : Type} (F : Founding) (Q : α → Prop) (p : TeamM α) : Prop :=
  Meets F.Replies F.Allows Q p

/-- In the team, nobody ranks above the Owner. -/
def Bounded (F : Founding) (teamId : String) (rank : Int) : Prop := teamId = F.team → rank ≤ 100

theorem resolveMembership_keeps (ids : TeamIds) (user : SessionUser) :
    F.Keeps F.Sees (resolveMembership ids user) := by
  unfold resolveMembership
  refine .await trivial fun found _ ↦ .await trivial fun membership hfound ↦ ?_
  cases membership with
  | some membership => exact hfound.1
  | none =>
      refine .await trivial fun membership hfound ↦ ?_
      cases membership with
      | some membership => exact hfound
      | none =>
          have hpersonal : F.Keeps (fun _ ↦ True)
              (ensurePersonalTeam ids user.id (user.name.getD (localPart user.email))) := by
            unfold ensurePersonalTeam
            refine .await trivial fun found _ ↦ ?_
            cases found with
            | some found => trivial
            | none => exact .await trivial fun _ _ ↦ .perform trivial fun _ _ ↦ trivial
          refine hpersonal.bind fun _ _ ↦ .await trivial fun membership hfound ↦ ?_
          cases membership with
          | some membership => exact hfound.1
          | none => trivial

theorem getTeamContext_keeps (ids : TeamIds) (user : SessionUser) :
    F.Keeps (fun ctx ↦ F.Bounded ctx.teamId ctx.rank) (getTeamContext ids user) :=
  (resolveMembership_keeps ids user).bind fun _ hfound ↦ hfound.rank

theorem requirePermission_keeps (ids : TeamIds) (user : SessionUser) (permission : String) :
    F.Keeps (fun ctx ↦ F.Bounded ctx.teamId ctx.rank) (requirePermission ids user permission) := by
  refine (getTeamContext_keeps ids user).bind fun ctx hctx ↦ ?_
  split
  · exact hctx
  · trivial

/-- What is caught becomes a message. -/
theorem catching_keeps {p : TeamM ActionState} (h : F.Keeps (fun _ ↦ True) p) :
    F.Keeps (fun _ ↦ True) (tryCatch p fail) := by
  refine h.tryCatch fun e ↦ ?_
  unfold fail
  split <;> trivial

theorem guarded_keeps {service : TeamM Unit} (h : F.Keeps (fun _ ↦ True) service) :
    F.Keeps (fun _ ↦ True) (guarded service) :=
  catching_keeps (h.bind fun _ _ ↦ trivial)

/-- The audit entry at the end of an operation. -/
theorem audit_keeps (row : AuditLog) :
    F.Keeps (fun _ ↦ True) (.perform (.createAuditLog row) : TeamM Unit) :=
  .perform trivial fun _ _ ↦ trivial

theorem createRole_keeps {id actorId teamId : String} {input : RoleInput}
    (hrank : input.rank ≤ 100) : F.Keeps (fun _ ↦ True) (createRole id actorId teamId input) := by
  refine Meets.bind (Q := fun _ ↦ True) (.ofExcept fun _ _ ↦ trivial) fun permissions _ ↦ ?_
  dsimp only
  split
  · trivial
  · refine .await trivial fun found _ ↦ ?_
    cases found with
    | some e => trivial
    | none => exact .await (fun _ ↦ hrank) fun _ _ ↦ audit_keeps _

theorem updateRole_keeps {actorId teamId roleId : String} {actorRank : Int}
    {permissions : List String} : F.Keeps (fun _ ↦ True)
      (updateRole actorId actorRank teamId roleId { permissions := some permissions }) := by
  refine .await trivial fun found _ ↦ ?_
  cases found with
  | none => trivial
  | some role =>
      dsimp only
      split
      · trivial
      · refine Meets.bind (Q := fun _ ↦ True) (.ofExcept fun _ _ ↦ trivial) fun permissions _ ↦ ?_
        exact .await ⟨rfl, rfl⟩ fun _ _ ↦ audit_keeps _

theorem deleteRole_keeps {actorId teamId roleId : String} {actorRank : Int} :
    F.Keeps (fun _ ↦ True) (deleteRole actorId actorRank teamId roleId) := by
  refine .await trivial fun found _ ↦ ?_
  rcases found with _ | ⟨role, members⟩
  · trivial
  · dsimp only
    repeat' split
    · trivial
    · trivial
    · trivial
    · exact .await trivial fun _ _ ↦ audit_keeps _

/-- Past the count, the role is not the Owner's of the team. -/
theorem ensureNotLastOwner_keeps (teamId roleName : String) :
    F.Keeps (fun _ ↦ teamId = F.team → roleName ≠ OWNER_ROLE)
      (ensureNotLastOwner teamId roleName) := by
  unfold ensureNotLastOwner
  split
  · rename_i hne
    exact fun _ ↦ hne
  · refine .await trivial fun owners howners ↦ ?_
    split
    · trivial
    · rename_i hmany
      exact fun hT ↦ absurd (howners hT) hmany

theorem changeMemberRole_keeps {actorId teamId memberId roleId : String} {actorRank : Int}
    (hrank : F.Bounded teamId actorRank) :
    F.Keeps (fun _ ↦ True) (changeMemberRole actorId actorRank teamId memberId roleId) := by
  refine .await trivial fun found hfound ↦ ?_
  cases found with
  | none => trivial
  | some found =>
      obtain ⟨hsees, rfl, rfl⟩ := hfound
      refine .await trivial fun role hrole ↦ ?_
      cases role with
      | none => trivial
      | some role =>
          dsimp only
          cases hrefused : assignRefusal actorId actorRank found role with
          | some message => trivial
          | none =>
              have hbelow : found.role.rank < actorRank ∧ role.rank < actorRank := by
                unfold assignRefusal at hrefused
                split at hrefused
                · cases hrefused
                · split at hrefused
                  · cases hrefused
                  · omega
              obtain ⟨hhome, howner⟩ := hrole
              refine (ensureNotLastOwner_keeps _ _).bind fun _ _ ↦ .await ⟨?_, ?_⟩ fun _ _ ↦
                audit_keeps _
              · intro hid
                obtain ⟨hT, hfounder, -⟩ := hsees.owner hid
                have := hrank hT
                omega
              · intro hmember
                have hT := hsees.home.mp hmember
                refine ⟨hhome.mpr hT, fun hid ↦ ?_⟩
                have := hrank hT
                have := howner hid
                omega

/-- The founder is not dropped: there is one Owner to count. -/
theorem dropMember_keeps {actorId : String} {found : Membership} (hsees : F.Sees found) :
    F.Keeps (fun _ ↦ True) (dropMember actorId found.member.teamId found) := by
  refine (ensureNotLastOwner_keeps _ _).bind fun _ hnot ↦ .await ?_ fun _ _ ↦
    .await trivial fun _ _ ↦ audit_keeps _
  intro hid
  obtain ⟨hT, -, hname⟩ := hsees.owner hid
  exact hnot hT hname

theorem removeMember_keeps {actorId teamId memberId : String} {actorRank : Int} :
    F.Keeps (fun _ ↦ True) (removeMember actorId actorRank teamId memberId) := by
  refine .await trivial fun found hfound ↦ ?_
  cases found with
  | none => trivial
  | some found =>
      obtain ⟨hsees, -, rfl⟩ := hfound
      dsimp only
      split
      · trivial
      · exact dropMember_keeps hsees

theorem leaveTeam_keeps {userId teamId : String} :
    F.Keeps (fun _ ↦ True) (leaveTeam userId teamId) := by
  refine .await trivial fun found hfound ↦ ?_
  cases found with
  | none => trivial
  | some found =>
      obtain ⟨hsees, hteam⟩ := hfound
      obtain rfl : teamId = found.member.teamId := by simpa using hteam
      dsimp only
      split
      · trivial
      · exact dropMember_keeps hsees

/-- Past the check, the address is not that of the founder. -/
theorem ensureNotMember_keeps (teamId email : String) :
    F.Keeps (fun _ ↦ teamId = F.team → email ≠ F.email) (ensureNotMember teamId email) := by
  refine .await trivial fun found hfound ↦ ?_
  cases found with
  | none =>
      rintro - rfl
      obtain ⟨u, hu⟩ := hfound rfl
      cases hu
  | some e =>
      refine .await trivial fun membership hmember ↦ ?_
      cases membership with
      | some membership => trivial
      | none =>
          rintro rfl rfl
          obtain ⟨u, hu⟩ := hfound rfl
          cases hu
          exact hmember rfl rfl

theorem inviteMember_keeps {dig : Digests} {draws : InviteDraws}
    {actorId teamId email roleId : String} {actorRank : Int} (hrank : F.Bounded teamId actorRank) :
    F.Keeps (fun _ ↦ True) (inviteMember dig draws actorId actorRank teamId email roleId) := by
  refine .await trivial fun role hrole ↦ ?_
  cases role with
  | none => trivial
  | some role =>
      dsimp only
      split
      · trivial
      · rename_i hbelow
        obtain ⟨hhome, howner⟩ := hrole
        refine (ensureNotMember_keeps _ _).bind fun _ hemail ↦ .await trivial fun now _ ↦
          .await (fun hT ↦ ⟨⟨hhome.mpr hT, fun hid ↦ ?_⟩, hemail hT⟩) fun inviteId _ ↦
            (audit_keeps _).bind fun _ _ ↦ trivial
        have := hrank hT
        have := howner hid
        omega

theorem revokeInvite_keeps {actorId teamId inviteId : String} :
    F.Keeps (fun _ ↦ True) (revokeInvite actorId teamId inviteId) := by
  refine .await trivial fun found _ ↦ ?_
  cases found with
  | none => trivial
  | some inv => exact .await trivial fun _ _ ↦ .await trivial fun _ _ ↦ audit_keeps _

/-- The founder accepts no invite to the team: none was issued for their address. -/
theorem acceptInvite_keeps {dig : Digests} {memberId userId token : String} :
    F.Keeps (fun _ ↦ True) (acceptInvite dig memberId userId token) := by
  refine .await trivial fun found hfound ↦ ?_
  rcases found with _ | ⟨inviteId, invite⟩
  · trivial
  · refine .await trivial fun now _ ↦ ?_
    split
    · trivial
    · refine .await trivial fun user huser ↦ ?_
      cases user with
      | none => trivial
      | some user =>
          dsimp only
          split
          · trivial
          · rename_i hsame
            refine .await trivial fun acceptedAt _ ↦ .perform (fun hT ↦ ?_) fun _ _ ↦ trivial
            obtain ⟨hgrant, hother⟩ := hfound hT
            refine ⟨hgrant, fun hid ↦ hother ?_⟩
            rw [← not_not.mp hsame, huser hid, F.email_lower]

/-- Every call keeps to what is allowed. -/
theorem call_keeps (call : TeamCall) (dig : Digests) (ids : TeamIds) (user : SessionUser) :
    F.Keeps (fun _ ↦ True) (call.prog dig ids user) := by
  cases call with
  | inviteMember draws parsed =>
      refine (requirePermission_keeps ids user _).bind fun ctx hctx ↦ ?_
      cases parsed with
      | error message => trivial
      | ok data => exact catching_keeps ((inviteMember_keeps hctx).bind fun _ _ ↦ trivial)
  | revokeInvite inviteId =>
      exact (requirePermission_keeps ids user _).bind fun _ _ ↦ guarded_keeps revokeInvite_keeps
  | changeMemberRole memberId roleId =>
      exact (requirePermission_keeps ids user _).bind fun _ hctx ↦
        guarded_keeps (changeMemberRole_keeps hctx)
  | removeMember memberId =>
      exact (requirePermission_keeps ids user _).bind fun _ _ ↦ guarded_keeps removeMember_keeps
  | createRole roleId parsed =>
      refine (requirePermission_keeps ids user _).bind fun ctx hctx ↦ ?_
      cases parsed with
      | error message => trivial
      | ok data =>
          dsimp only
          split
          · trivial
          · have hrank := data.rank_range
            exact guarded_keeps (createRole_keeps (by omega))
  | updateRolePermissions roleId permissions =>
      exact (requirePermission_keeps ids user _).bind fun _ _ ↦ guarded_keeps updateRole_keeps
  | deleteRole roleId =>
      exact (requirePermission_keeps ids user _).bind fun _ _ ↦ guarded_keeps deleteRole_keeps
  | leaveTeam =>
      exact (getTeamContext_keeps ids user).bind fun _ _ ↦ guarded_keeps leaveTeam_keeps
  | acceptInvite memberId token =>
      refine (getTeamContext_keeps ids user).bind fun ctx _ ↦ ?_
      dsimp only
      split
      · trivial
      · exact guarded_keeps acceptInvite_keeps

end Calls

end Founding

/-! ## Runs -/

/-- What the database promises of every state, and registration of the accounts: rows belong
to teams that exist, no address has two accounts, and addresses are in lower case. -/
structure TeamStore.Consistent (s : TeamStore) : Prop where
  roleTeam : ∀ id role, s.roles.find? id = some role → (s.teams.find? role.teamId).isSome
  memberTeam : ∀ id m, s.members.find? id = some m → (s.teams.find? m.teamId).isSome
  inviteTeam : ∀ id inv, s.invites.find? id = some inv → (s.teams.find? inv.teamId).isSome
  email_unique : s.users.UniqueOn (·.email)
  email_lower : ∀ id u, s.users.find? id = some u → toLowerCase u.email = u.email

namespace TeamStore

variable {s t : TeamStore}

theorem insertRoles_find? {rows : List (String × Role)} {roles roles' : Table String Role}
    (h : insertRoles roles rows = some roles') :
    (∀ id role, roles.find? id = some role → roles'.find? id = some role) ∧
    (∀ e ∈ rows, roles'.find? e.1 = some e.2) ∧
    ∀ id role, roles'.find? id = some role → roles.find? id = some role ∨ (id, role) ∈ rows := by
  induction rows generalizing roles with
  | nil =>
      cases h
      exact ⟨fun _ _ ↦ id, fun _ he ↦ absurd he List.not_mem_nil, fun _ _ ↦ .inl⟩
  | cons e rows ih =>
      obtain ⟨roles₁, hroles₁, h⟩ := Option.bind_eq_some_iff.mp h
      obtain ⟨hold, hnew, hall⟩ := ih h
      refine ⟨fun id role hrole ↦ hold id role (Table.find?_of_insert hroles₁ hrole), ?_, ?_⟩
      · refine List.forall_mem_cons.mpr ⟨hold _ _ ?_, hnew⟩
        rw [Table.find?_insert hroles₁, if_pos rfl]
      · intro id role hrole
        rcases hall id role hrole with hrole | hmem
        · rw [Table.find?_insert hroles₁] at hrole
          split at hrole
          · rename_i hid
            cases hrole
            exact .inr (hid ▸ List.mem_cons_self)
          · exact .inl hrole
        · exact .inr (List.mem_cons_of_mem _ hmem)

/-- A new team has its founder. -/
theorem Consistent.founded (h : s.Consistent) {ids : TeamIds} {ownerId name : String}
    {isPersonal : Bool} (ht : s.createTeam ids ownerId name isPersonal = .ok t) {F : Founding}
    (hteam : F.team = ids.teamId) (hrole : F.roleId = ids.roleId OWNER_ROLE)
    (hmember : F.memberId = ids.memberId) (huser : F.userId = ownerId)
    (hemail : ∃ u, s.users.find? ownerId = some u ∧ u.email = F.email) (hrows : t.rows ⊆ F.log) :
    F.Holds t := by
  unfold TeamStore.createTeam at ht
  split at ht
  · cases ht
  · split at ht
    · cases ht
    · rename_i teams hteams
      split at ht
      · cases ht
      · rename_i roles hroles
        split at ht
        · cases ht
        · rename_i members hmembers
          cases ht
          -- the team is new, so no row belongs to it yet
          have hfresh : s.teams.find? F.team = none := by
            rw [hteam]
            exact (Table.insert_eq_some hteams).1
          have hnone : ∀ team, (s.teams.find? team).isSome → team ≠ F.team := by
            rintro team hsome rfl
            rw [hfresh] at hsome
            cases hsome
          obtain ⟨-, hsystem, hall⟩ := insertRoles_find? hroles
          have hranks : ∀ role ∈ SYSTEM_ROLES, role.rank ≤ 100 := by decide
          obtain ⟨u, hu, hue⟩ := hemail
          have hfounder := Table.find?_insert hmembers
          exact {
            team := by
              dsimp only
              rw [hteam, Table.find?_insert hteams, if_pos rfl]
              rfl
            rows := hrows
            owner := by
              rw [hrole, hteam]
              exact ⟨_, hsystem (ids.roleId OWNER_ROLE, _)
                (List.mem_map.mpr ⟨_, List.mem_cons_self, rfl⟩), rfl, rfl, rfl⟩
            ranks := by
              intro id role hfind hT
              rcases hall id role hfind with hold | hmem
              · exact absurd hT (hnone _ (h.roleTeam id role hold))
              · obtain ⟨spec, hspec, heq⟩ := List.mem_map.mp hmem
                cases heq
                refine ⟨hranks spec hspec, fun hname ↦ ?_⟩
                rw [hrole]
                exact congrArg ids.roleId hname
            founder := by
              dsimp only
              rw [hmember, hfounder, if_pos rfl]
              exact ⟨_, rfl, hteam.symm, huser.symm, hrole.symm⟩
            members := by
              intro id m hm hT hid
              dsimp only at hm
              rw [hfounder, if_neg (hmember ▸ hid)] at hm
              exact absurd hT (hnone _ (h.memberTeam id m hm))
            invites := fun id inv hinv hT ↦ absurd hT (hnone _ (h.inviteTeam id inv hinv))
            account := ⟨u, huser ▸ hu, hue⟩
            emails := fun id u' hu' he ↦ huser ▸ h.email_unique hu' hu (he.trans hue.symm) }

end TeamStore

section Runs

variable {ι : Type} [DecidableEq ι] {dig : Digests} {s₀ s₁ : TeamStore} {ids : TeamIds}
  {ownerId name : String} {isPersonal : Bool}

/-- Calls of the team page, each by a user, with the ids of a personal team made for the
occasion. -/
def teamPool (dig : Digests) (calls : ι → TeamIds × SessionUser × TeamCall) (s : TeamStore) :
    Pool ι TeamOp Err ActionState TeamStore :=
  ⟨s, fun i ↦ (calls i).2.2.prog dig (calls i).1 (calls i).2.1⟩

/-- One event of the calls keeps the founder in place, as far as it assigns ids of the log. -/
theorem Founding.Holds.step {F : Founding} {c d : Pool ι TeamOp Err ActionState TeamStore}
    (h : F.Holds c.shared) (hkeeps : ∀ i, F.Keeps (fun _ ↦ True) (c.thread i))
    {l : Event ι Err Nat} (hlog : Pool.observe assigned c l ⊆ F.log)
    (hs : Pool.step teamServer tick c l = some d) :
    F.Holds d.shared ∧ ∀ i, F.Keeps (fun _ ↦ True) (d.thread i) := by
  cases l with
  | env ms =>
      obtain rfl := Pool.step_env hs
      exact ⟨{ h with rows := h.rows }, hkeeps⟩
  | run i f =>
      refine Pool.meets_run upholds h hkeeps (fun op k hi hop ↦ ?_) hs
      have hserved : Pool.observe assigned c (.run i f : Event ι Err Nat) =
          assigned i _ op c.shared → F.Holds (c.shared.serve op).2 := by
        intro hobserve
        refine h.serve hop fun n hn ↦ ?_
        by_cases hold : n ∈ c.shared.rows
        · exact h.rows hold
        · rw [hobserve] at hlog
          exact hlog (List.mem_filter.mpr ⟨hn, decide_eq_true hold⟩)
      cases f with
      | refused e => exact h
      | served => exact hserved (by simp only [Pool.observe, hi])
      | unanswered e => exact hserved (by simp only [Pool.observe, hi])

/-- From its creation on, whatever any users do to it by the actions of the team page, and in
whatever order their requests are served, a team has a member with its role named Owner. -/
theorem team_keeps_an_owner (h₀ : s₀.Consistent)
    (hnew : s₀.createTeam ids ownerId name isPersonal = .ok s₁)
    (calls : ι → TeamIds × SessionUser × TeamCall)
    {r : Recorded (Pool ι TeamOp Err ActionState TeamStore) (RowId × String)}
    (h : Reach (Recorded.step (Pool.step teamServer tick) (Pool.observe assigned)) NeverReused
      ⟨teamPool dig calls s₁, s₁.rows⟩ r) :
    (r.state.shared.teams.find? ids.teamId).isSome ∧
    ∃ mid m role, r.state.shared.members.find? mid = some m ∧ m.teamId = ids.teamId ∧
      r.state.shared.roles.find? m.roleId = some role ∧ role.teamId = ids.teamId ∧
      role.name = OWNER_ROLE := by
  have hnodup : (r.log.map Prod.fst).Nodup := by
    cases h with
    | start => exact nodup_rows s₁
    | next l _ hg hs =>
        rw [(Recorded.step_eq_some hs).2]
        exact hg
  obtain ⟨u, hu⟩ : ∃ u, s₀.users.find? ownerId = some u := by
    unfold TeamStore.createTeam at hnew
    split at hnew
    · cases hnew
    · rename_i hsome
      exact Option.ne_none_iff_exists'.mp (by simpa using hsome)
  let F : Founding := {
    team := ids.teamId, roleId := ids.roleId OWNER_ROLE, memberId := ids.memberId
    userId := ownerId, email := u.email, log := r.log, nodup := hnodup
    email_lower := h₀.email_lower ownerId u hu }
  -- in hindsight, the run only assigns the ids in the log at its end
  have hrun := Recorded.reach_of_log h (List.Subset.refl _)
  have hstart : F.Holds s₁ :=
    h₀.founded hnew rfl rfl rfl rfl ⟨u, hu, rfl⟩ (Recorded.log_subset h)
  have hinv : F.Holds r.state.shared ∧ ∀ i, F.Keeps (fun _ ↦ True) (r.state.thread i) := by
    refine Reach.invariant (I := fun c : Pool ι TeamOp Err ActionState TeamStore ↦
      F.Holds c.shared ∧ ∀ i, F.Keeps (fun _ ↦ True) (c.thread i)) ?_ ?_ hrun
    · exact ⟨hstart, fun i ↦ Founding.call_keeps _ dig _ _⟩
    · exact fun c l d hc hg hs ↦ hc.1.step hc.2 hg hs
  obtain ⟨m, hm, hmT, -, hroleId⟩ := hinv.1.founder
  obtain ⟨role, hrole, hT, hname, -⟩ := hinv.1.owner
  exact ⟨hinv.1.team, F.memberId, m, role, hm, hmT, hroleId ▸ hrole, hT, hname⟩

instance {η : Type} (r : Recorded (Pool ι TeamOp Err ActionState TeamStore) (RowId × String))
    (l : Event ι Err η) : Decidable (NeverReused r l) :=
  inferInstanceAs (Decidable (List.Nodup _))

end Runs

/-! ## A founder who wants to leave -/

/-- One account, and no team yet. -/
def lonelyUser : TeamStore where
  clock := 0
  users := ⟨[("o", { email := "o@x", activeTeamId := some "t" })], by decide⟩
  teams := ∅
  roles := ∅
  members := ∅
  invites := ∅
  auditLogs := []

theorem lonelyUser_consistent : lonelyUser.Consistent where
  roleTeam _ _ h := by cases h
  memberTeam _ _ h := by cases h
  inviteTeam _ _ h := by cases h
  email_unique := .of_nodup (by decide)
  email_lower id u hu := by
    have hall : ∀ e ∈ lonelyUser.users.entries, toLowerCase e.2.email = e.2.email := by decide
    exact hall (id, u) (Table.find?_eq_some.mp hu)

/-- The team that the account has founded. -/
def foundedTeam : TeamStore :=
  match lonelyUser.createTeam ⟨"t", id, "m"⟩ "o" "Ops" false with
  | .ok s => s
  | .error _ => lonelyUser

/-- The founder leaves and, at the same time, takes all permissions from the Viewers. -/
def leavingCalls (i : Bool) : TeamIds × SessionUser × TeamCall :=
  (⟨"", id, ""⟩, { id := "o", email := "o@x" },
    if i then .updateRolePermissions "Viewer" [] else .leaveTeam)

/-- The permissions are gone, the founder has been told why they cannot leave. -/
def foundersFarewell : Recorded (Pool Bool TeamOp Err ActionState TeamStore) (RowId × String) →
    Prop := fun r ↦ (r.state.shared.roles.find? "Viewer").map (·.permissions) = some [] ∧
  Prog.Returned (·.error = some "A team must always have at least one Owner")
    (r.state.thread false)

instance : DecidablePred foundersFarewell := fun r ↦
  inferInstanceAs (Decidable (_ ∧ Prog.Returned _ (r.state.thread false)))

theorem foundedTeam_keeps_an_owner : ∃ r, foundersFarewell r ∧
    (r.state.shared.teams.find? "t").isSome ∧
    ∃ mid m role, r.state.shared.members.find? mid = some m ∧ m.teamId = "t" ∧
      r.state.shared.roles.find? m.roleId = some role ∧ role.teamId = "t" ∧
      role.name = OWNER_ROLE := by
  have hrun : ∃ r, Reach (Recorded.step (Pool.step teamServer tick) (Pool.observe assigned))
      NeverReused ⟨teamPool ⟨id, id⟩ leavingCalls foundedTeam, foundedTeam.rows⟩ r ∧
      foundersFarewell r :=
    Reach.exists_of_exec
      [.run true .served, .run false .served, .run false .served, .run false .served,
        .run true .served, .run true .served, .run true .served, .run false .served,
        .run true .served] (by decide +kernel)
  have hfounded : lonelyUser.createTeam ⟨"t", id, "m"⟩ "o" "Ops" false = .ok foundedTeam := rfl
  obtain ⟨r, hr, hfarewell⟩ := hrun
  exact ⟨r, hfarewell, team_keeps_an_owner lonelyUser_consistent hfounded leavingCalls hr⟩

end Zenstier
