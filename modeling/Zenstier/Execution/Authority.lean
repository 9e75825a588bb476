import Zenstier.Concurrent.Fates
import Zenstier.Execution.Services
import Zenstier.Schedules.Pause
import Zenstier.Teams.Confinement

/-!
# Whose commands are executed

Whoever creates a schedule or resumes one is a member who may execute commands.  What happens to
the members later does not reach the schedules, which go on to run for the user who has created
them.  So the rows that are created are those of members who may execute commands as long as
nobody loses that permission who has a schedule running, and nobody's schedule is resumed who
has lost it.
-/

namespace Zenstier

open Store Concurrent Prog

/-! ## The permission -/

namespace TeamStore

variable {s t : TeamStore} {userId teamId : String}

/-- The role exists and contains `command:execute`. -/
def RoleExecutes (s : TeamStore) (roleId : String) : Prop :=
  ∃ role ∈ s.roles.find? roleId, "command:execute" ∈ role.permissions

/-- The user is a member of the team with a role that contains `command:execute`. -/
def MayExecute (s : TeamStore) (userId teamId : String) : Prop :=
  ∃ mid m, s.members.find? mid = some m ∧ m.userId = userId ∧ m.teamId = teamId ∧
    s.RoleExecutes m.roleId

/-- The request takes `command:execute` from the user in the team, or the membership itself. -/
def TakesExecute (s : TeamStore) (userId teamId : String) : ∀ β : Type, TeamOp β → Prop
  | _, .deleteMember id => ∃ m ∈ s.members.find? id, m.userId = userId ∧ m.teamId = teamId
  | _, .updateMember id roleId =>
      (∃ m ∈ s.members.find? id, m.userId = userId ∧ m.teamId = teamId) ∧ ¬ s.RoleExecutes roleId
  | _, .updateRole id data =>
      (∃ e ∈ s.members.entries, e.2.userId = userId ∧ e.2.teamId = teamId ∧ e.2.roleId = id) ∧
        ∃ permissions ∈ data.permissions, "command:execute" ∉ permissions
  | _, .acceptInvite _ _ userId' teamId' roleId _ _ =>
      userId' = userId ∧ teamId' = teamId ∧ ¬ s.RoleExecutes roleId
  | _, _ => False

/-- A membership that is still there, with a role that still suffices. -/
theorem MayExecute.mono (h : s.MayExecute userId teamId)
    (hkept : ∀ mid m, s.members.find? mid = some m → m.userId = userId → m.teamId = teamId →
      s.RoleExecutes m.roleId → ∃ roleId, t.members.find? mid = some { m with roleId } ∧
        t.RoleExecutes roleId) : t.MayExecute userId teamId := by
  obtain ⟨mid, m, hm, huser, hteam, hrole⟩ := h
  obtain ⟨roleId, hm', hrole'⟩ := hkept mid m hm huser hteam hrole
  exact ⟨mid, _, hm', huser, hteam, hrole'⟩

/-- A role that is still there as it was. -/
theorem RoleExecutes.mono {roleId : String} (h : s.RoleExecutes roleId)
    (hroles : ∀ role, s.roles.find? roleId = some role → t.roles.find? roleId = some role) :
    t.RoleExecutes roleId := by
  obtain ⟨role, hrole, hexec⟩ := h
  exact ⟨role, hroles role hrole, hexec⟩

theorem find?_insertRoles {rows : List (String × Role)} {roles roles' : Table String Role}
    (h : insertRoles roles rows = some roles') {id : String} {role : Role}
    (hrole : roles.find? id = some role) : roles'.find? id = some role := by
  induction rows generalizing roles with
  | nil =>
      cases h
      exact hrole
  | cons e rows ih =>
      obtain ⟨roles₁, hins, h⟩ := Option.bind_eq_some_iff.mp h
      exact ih h (Table.find?_of_insert hins hrole)

theorem mayExecute_createTeam {ids : TeamIds} {ownerId name : String} {isPersonal : Bool}
    (hok : s.createTeam ids ownerId name isPersonal = .ok t) (h : s.MayExecute userId teamId) :
    t.MayExecute userId teamId := by
  unfold createTeam at hok
  split at hok
  · cases hok
  split at hok
  · cases hok
  split at hok
  · cases hok
  rename_i roles hroles
  split at hok
  · cases hok
  rename_i members hmembers
  cases hok
  refine h.mono fun mid m hm _ _ hrole ↦ ⟨m.roleId, Table.find?_of_insert hmembers hm, ?_⟩
  exact hrole.mono fun role hrole ↦ find?_insertRoles hroles hrole

theorem mayExecute_createRole {id : String} {row : Role} (hok : s.createRole id row = .ok t)
    (h : s.MayExecute userId teamId) : t.MayExecute userId teamId := by
  unfold createRole at hok
  split at hok
  · cases hok
  split at hok
  · cases hok
  rename_i roles hroles
  cases hok
  refine h.mono fun mid m hm _ _ hrole ↦ ⟨m.roleId, hm, ?_⟩
  exact hrole.mono fun role hrole ↦ Table.find?_of_insert hroles hrole

theorem mayExecute_updateRole {id : String} {data : RoleData}
    (hok : s.updateRole id data = .ok t)
    (hkept : ¬ s.TakesExecute userId teamId _ (.updateRole id data))
    (h : s.MayExecute userId teamId) : t.MayExecute userId teamId := by
  unfold updateRole at hok
  split at hok
  · cases hok
  split at hok
  · cases hok
  cases hok
  refine h.mono fun mid m hm huser hteam hrole ↦ ⟨m.roleId, hm, ?_⟩
  obtain ⟨role, hrole, hexec⟩ := hrole
  by_cases hid : m.roleId = id
  · refine ⟨data.apply role, ?_, ?_⟩
    · show (s.roles.update id data.apply).find? m.roleId = _
      rw [Table.find?_update, if_pos hid, hrole, Option.map_some]
    · show "command:execute" ∈ data.permissions.getD role.permissions
      cases hperms : data.permissions with
      | none => exact hexec
      | some permissions =>
          by_contra hlost
          exact hkept ⟨⟨(mid, m), Table.find?_eq_some.mp hm, huser, hteam, hid⟩, permissions,
            hperms, hlost⟩
  · refine ⟨role, ?_, hexec⟩
    show (s.roles.update id data.apply).find? m.roleId = _
    rw [Table.find?_update, if_neg hid]
    exact hrole

theorem mayExecute_deleteRole {id : String} (hok : s.deleteRole id = .ok t)
    (h : s.MayExecute userId teamId) : t.MayExecute userId teamId := by
  unfold deleteRole at hok
  split at hok
  · cases hok
  split at hok
  · cases hok
  rename_i hcount
  cases hok
  refine h.mono fun mid m hm _ _ hrole ↦ ⟨m.roleId, hm, hrole.mono fun role hrole ↦ ?_⟩
  show (s.roles.delete id).find? m.roleId = _
  rw [Table.find?_delete, if_neg]
  · exact hrole
  · -- a role that somebody has is not deleted
    rintro rfl
    have hmem : (mid, m) ∈ s.members.findMany fun _ m' ↦ m'.roleId = m.roleId :=
      Table.mem_findMany.mpr ⟨hm, decide_eq_true rfl⟩
    exact hcount fun hzero ↦ List.ne_nil_of_mem hmem (List.eq_nil_of_length_eq_zero hzero)

theorem mayExecute_updateMember {id roleId : String} (hok : s.updateMember id roleId = .ok t)
    (hkept : ¬ s.TakesExecute userId teamId _ (.updateMember id roleId))
    (h : s.MayExecute userId teamId) : t.MayExecute userId teamId := by
  unfold updateMember at hok
  split at hok
  · cases hok
  split at hok
  · cases hok
  cases hok
  refine h.mono fun mid m hm huser hteam hrole ↦ ?_
  show ∃ roleId', (s.members.update id _).find? mid = _ ∧ s.RoleExecutes roleId'
  rw [Table.find?_update, hm]
  by_cases hid : mid = id
  · refine ⟨roleId, if_pos hid, by_contra fun hlost ↦ ?_⟩
    exact hkept ⟨⟨m, hid ▸ hm, huser, hteam⟩, hlost⟩
  · exact ⟨m.roleId, if_neg hid, hrole⟩

theorem mayExecute_deleteMember {id : String} (hok : s.deleteMember id = .ok t)
    (hkept : ¬ s.TakesExecute userId teamId _ (.deleteMember id))
    (h : s.MayExecute userId teamId) : t.MayExecute userId teamId := by
  unfold deleteMember at hok
  split at hok
  · cases hok
  cases hok
  refine h.mono fun mid m hm huser hteam hrole ↦ ⟨m.roleId, ?_, hrole⟩
  show (s.members.delete id).find? mid = _
  rw [Table.find?_delete, if_neg]
  · exact hm
  · rintro rfl
    exact hkept ⟨m, hm, huser, hteam⟩

theorem mayExecute_acceptInvite {inviteId memberId userId' teamId' roleId : String}
    {acceptedAt : Int} {audit : AuditLog}
    (hok : s.acceptInvite inviteId memberId userId' teamId' roleId acceptedAt audit = .ok t)
    (hkept : ¬ s.TakesExecute userId teamId _
      (.acceptInvite inviteId memberId userId' teamId' roleId acceptedAt audit))
    (h : s.MayExecute userId teamId) : t.MayExecute userId teamId := by
  unfold acceptInvite at hok
  split at hok
  · cases hok
  rename_i members hmembers
  split at hok
  · cases hok
  cases hok
  unfold upsertMember at hmembers
  split at hmembers
  · cases hmembers
  split at hmembers
  · rename_i k old hold
    cases hmembers
    obtain ⟨hold, hsame⟩ := Table.findFirst_eq_some hold
    rw [decide_eq_true_eq] at hsame
    refine h.mono fun mid m hm huser hteam hrole ↦ ?_
    show ∃ roleId', (s.members.update k _).find? mid = _ ∧ s.RoleExecutes roleId'
    rw [Table.find?_update, hm]
    by_cases hid : mid = k
    · subst hid
      obtain rfl : old = m := Option.some.inj (hold.symm.trans hm)
      refine ⟨roleId, if_pos rfl, by_contra fun hlost ↦ ?_⟩
      exact hkept ⟨hsame.2.symm.trans huser, hsame.1.symm.trans hteam, hlost⟩
    · exact ⟨m.roleId, if_neg hid, hrole⟩
  · split at hmembers
    · rename_i members' hins
      cases hmembers
      exact h.mono fun mid m hm _ _ hrole ↦ ⟨m.roleId, Table.find?_of_insert hins hm, hrole⟩
    · cases hmembers

/-- Invites are no memberships. -/
theorem mayExecute_upsertInvite {id : String} {row : TeamInvite} (h : s.MayExecute userId teamId) :
    (s.serve (.upsertInvite id row)).2.MayExecute userId teamId := by
  have hsame : (s.serve (.upsertInvite id row)).2.members = s.members ∧
      (s.serve (.upsertInvite id row)).2.roles = s.roles := by
    unfold TeamStore.serve TeamStore.upsertInvite
    dsimp only
    split
    · rename_i k s' hok
      split at hok
      · cases hok
      split at hok
      · split at hok
        · cases hok
        · cases hok
          exact ⟨rfl, rfl⟩
      · split at hok
        · cases hok
        split at hok
        · cases hok
        · cases hok
          exact ⟨rfl, rfl⟩
    · exact ⟨rfl, rfl⟩
  refine h.mono fun mid m hm _ _ hrole ↦ ⟨m.roleId, hsame.1 ▸ hm, hrole.mono fun role hrole ↦ ?_⟩
  rw [hsame.2]
  exact hrole

theorem mayExecute_commit {r : Except Err TeamStore} (h : s.MayExecute userId teamId)
    (hok : ∀ t, r = .ok t → t.MayExecute userId teamId) :
    (s.commit r).2.MayExecute userId teamId := by
  cases r with
  | error e => exact h
  | ok t => exact hok t rfl

/-- A request that does not take the permission leaves it. -/
theorem MayExecute.serve {β : Type} {op : TeamOp β} (h : s.MayExecute userId teamId)
    (hkept : ¬ s.TakesExecute userId teamId β op) :
    (s.serve op).2.MayExecute userId teamId := by
  cases op with
  | createTeam ids ownerId name isPersonal =>
      exact mayExecute_commit h fun t hok ↦ mayExecute_createTeam hok h
  | createRole id row => exact mayExecute_commit h fun t hok ↦ mayExecute_createRole hok h
  | updateRole id data => exact mayExecute_commit h fun t hok ↦ mayExecute_updateRole hok hkept h
  | deleteRole id => exact mayExecute_commit h fun t hok ↦ mayExecute_deleteRole hok h
  | updateMember id roleId =>
      exact mayExecute_commit h fun t hok ↦ mayExecute_updateMember hok hkept h
  | deleteMember id => exact mayExecute_commit h fun t hok ↦ mayExecute_deleteMember hok hkept h
  | acceptInvite inviteId memberId userId' teamId' roleId acceptedAt audit =>
      exact mayExecute_commit h fun t hok ↦ mayExecute_acceptInvite hok hkept h
  | setActiveTeam userId' teamId' =>
      refine mayExecute_commit h fun t hok ↦ ?_
      unfold setActiveTeam at hok
      split at hok
      · cases hok
      · cases hok
        exact h
  | upsertInvite id row => exact mayExecute_upsertInvite h
  | revokeInvite id revokedAt =>
      refine mayExecute_commit h fun t hok ↦ ?_
      unfold revokeInvite at hok
      split at hok
      · cases hok
      · cases hok
        exact h
  | now | findUser | findUserByEmail | findMembership | findOldestMembership | findMember
  | findRole | findRoleByName | findRoleWithCount | countOwners | findInvite
  | findInviteByHash | detachUser | createAuditLog => exact h

end TeamStore

/-! ## Schedules that run -/

namespace Services

/-- Who has a schedule running is a member who may execute commands, and so were those whose
commands have been created. -/
structure Authorized (s : Services) : Prop where
  active : ∀ id row, s.schedules.find? id = some row → row.status = .active →
    s.team.MayExecute row.userId row.teamId
  created : ∀ e ∈ s.created, e.1.MayExecute e.2.userId e.2.teamId

/-- Nobody loses `command:execute` who has a schedule running, and no schedule is resumed whose
creator has lost it. -/
def Careful (s : Services) : ∀ β : Type, ServiceOp β → Prop
  | β, .team op => ∀ id row, s.schedules.find? id = some row → row.status = .active →
      ¬ s.team.TakesExecute row.userId row.teamId β op
  | _, .schedule (.updateStatus id .active _) => ∀ row, s.schedules.find? id = some row →
      s.team.MayExecute row.userId row.teamId
  | _, _ => True

/-- Requests that take effect are careful. -/
def careful : Admits ServiceOp Err Services
  | β, op, f, s => (∃ e, f = .refused e) ∨ s.Careful β op

variable {s : Services}

/-- The request gives nobody a schedule or a command who may not execute one. -/
def Sanctioned (T : TeamStore) : ∀ β : Type, ServiceOp β → Prop
  | _, .command (.insertBatch _ _ rows _) => ∀ e ∈ rows, T.MayExecute e.2.userId e.2.teamId
  | _, .schedule (.createSchedule _ row) => T.MayExecute row.userId row.teamId
  | _, _ => True

/-- The request leaves the team tables alone. -/
def Elsewhere : ∀ β : Type, ServiceOp β → Prop
  | _, .team _ => False
  | _, _ => True

theorem team_serve {β : Type} {op : ServiceOp β} (hop : Elsewhere β op) :
    (s.serve op).2.team = s.team := by
  cases op with
  | team op => exact hop.elim
  | command op => rfl
  | schedule op => rfl
  | deletion op =>
      cases op with
      | deleteSchedule id =>
          show (s.serveDeletion (.deleteSchedule id)).2.team = s.team
          unfold serveDeletion
          dsimp only
          split <;> rfl

end Services

/-- A row that an update leaves has been there. -/
theorem ScheduleStore.find?_updateSchedule {x : ScheduleStore} {id k : String}
    {f : Schedule → Schedule} {row' : Schedule}
    (h : (x.updateSchedule id f).2.schedules.find? k = some row') :
    ∃ row, x.schedules.find? k = some row ∧ (row' = row ∨ k = id ∧ row' = f row) := by
  unfold updateSchedule at h
  split at h
  · exact ⟨row', h, .inl rfl⟩
  · rcases Table.find?_update_eq_some h with ⟨row, hk, hrow, hf⟩ | ⟨-, hrow⟩
    · exact ⟨row, hrow, .inr ⟨hk, hf.symm⟩⟩
    · exact ⟨row', hrow, .inl rfl⟩

theorem ScheduleStore.find?_createSchedule {x : ScheduleStore} {id k : String}
    {row row' : Schedule} (h : (x.createSchedule id row).2.schedules.find? k = some row') :
    x.schedules.find? k = some row' ∨ row' = row := by
  unfold createSchedule at h
  split at h
  · exact .inl h
  split at h
  · exact .inl h
  · rename_i schedules hins
    rw [Table.find?_insert hins] at h
    split at h
    · exact .inr (Option.some.inj h).symm
    · exact .inl h

theorem ScheduleStore.find?_claim {x : ScheduleStore} {id k : String} {seen : Option Int}
    {next : Int} {row' : Schedule} (h : (x.claim id seen next).2.schedules.find? k = some row') :
    ∃ row, x.schedules.find? k = some row ∧
      (row' = row ∨ k = id ∧ row' = { row with nextRunAt := some next }) := by
  unfold claim at h
  split at h
  · exact ⟨row', h, .inl rfl⟩
  · rcases Table.find?_update_eq_some h with ⟨row, hk, hrow, hf⟩ | ⟨-, hrow⟩
    · exact ⟨row, hrow, .inr ⟨hk, hf.symm⟩⟩
    · exact ⟨row', hrow, .inl rfl⟩

namespace Services

variable {s : Services}

/-- The schedules after a request of the schedule service. -/
theorem Authorized.schedule {β : Type} {op : ScheduleOp β} (h : s.Authorized)
    (hcareful : s.Careful β (.schedule op)) (hop : Sanctioned s.team β (.schedule op))
    {id : String} {row' : Schedule}
    (hrow' : (s.scheduleStore.serve op).2.schedules.find? id = some row')
    (hactive : row'.status = .active) : s.team.MayExecute row'.userId row'.teamId := by
  cases op with
  | createSchedule id' row =>
      rcases ScheduleStore.find?_createSchedule hrow' with hrow | rfl
      · exact h.active id row' hrow hactive
      · exact hop
  | updateStatus id' status next =>
      obtain ⟨row, hrow, rfl | ⟨rfl, rfl⟩⟩ := ScheduleStore.find?_updateSchedule hrow'
      · exact h.active id _ hrow hactive
      · obtain rfl : status = .active := hactive
        exact hcareful row hrow
  | claim id' seen next =>
      obtain ⟨row, hrow, rfl | ⟨rfl, rfl⟩⟩ := ScheduleStore.find?_claim hrow'
      · exact h.active id _ hrow hactive
      · exact h.active _ row hrow hactive
  | recordRun id' lastRunAt lastStatus runs =>
      obtain ⟨row, hrow, rfl | ⟨rfl, rfl⟩⟩ := ScheduleStore.find?_updateSchedule hrow'
      · exact h.active id _ hrow hactive
      · exact h.active _ row hrow hactive
  | now | findGroup | countDevices | findSchedule | findDue | dispatch | createAuditLog =>
      exact h.active id row' hrow' hactive

/-- The rows that a sanctioned request creates. -/
theorem mayExecute_creates {β : Type} {op : CommandOp β} {T : TeamStore}
    (hop : Sanctioned T β (.command op)) {row : Command} (hrow : row ∈ s.creates op) :
    T.MayExecute row.userId row.teamId := by
  cases op with
  | insertBatch batchId batch rows audit =>
      unfold creates at hrow
      dsimp only at hrow
      split at hrow
      · obtain ⟨e, he, rfl⟩ := List.mem_map.mp hrow
        exact hop e he
      · cases hrow
  | _ => cases hrow

/-- A careful and sanctioned request. -/
theorem Authorized.serve {β : Type} {op : ServiceOp β} (h : s.Authorized)
    (hcareful : s.Careful β op) (hop : Sanctioned s.team β op) : (s.serve op).2.Authorized := by
  cases op with
  | team op =>
      exact ⟨fun id row hrow hactive ↦ (h.active id row hrow hactive).serve
        (hcareful id row hrow hactive), h.created⟩
  | command op =>
      refine ⟨h.active, fun e he ↦ ?_⟩
      rcases List.mem_append.mp he with he | he
      · exact h.created e he
      · obtain ⟨row, hrow, rfl⟩ := List.mem_map.mp he
        exact mayExecute_creates hop hrow
  | schedule op => exact ⟨fun id row' hrow' ↦ h.schedule hcareful hop hrow', h.created⟩
  | deletion op =>
      cases op with
      | deleteSchedule id =>
          show (s.serveDeletion (.deleteSchedule id)).2.Authorized
          unfold serveDeletion
          dsimp only
          split
          · exact h
          · refine ⟨fun id' row hrow hactive ↦ ?_, h.created⟩
            dsimp only at hrow
            rw [Table.find?_delete] at hrow
            split at hrow
            · cases hrow
            · exact h.active id' row hrow hactive

theorem Authorized.after {β : Type} {op : ServiceOp β} (h : s.Authorized) {f : Fate Err}
    (hf : careful β op f s) (hop : Sanctioned s.team β op) :
    (serviceServer.after f op s).Authorized := by
  rcases hf with ⟨e, rfl⟩ | hcareful
  · exact h
  · exact Server.after_of Authorized h (h.serve hcareful hop) f

/-! ## The calls -/

/-- Every run of the program, if its requests are careful, ends in a state with `I`. -/
abbrev Safely {α : Type} (I : Services → Prop) (p : ServiceM α) (s : Services) : Prop :=
  wp serviceServer careful (fun _ _ _ ↦ True) (fun _ t ↦ I t) p s

/-- Requests of the team page. -/
def OnTeam : ∀ β : Type, ServiceOp β → Prop
  | _, .team _ => True
  | _, _ => False

theorem onTeam_only {α : Type} (p : TeamM α) : Only OnTeam (onTeam p) :=
  Only.lift (fun _ _ _ ↦ trivial) (Only.of_forall (fun _ _ ↦ trivial : ∀ β (_ : TeamOp β), True) p)

/-- What the team page does keeps everything in order, if it is careful. -/
theorem safely_onTeam {α : Type} (h : s.Authorized) (p : TeamM α) :
    Safely Authorized (onTeam p) s := by
  refine wp_of_only ?_ (fun _ _ _ _ _ ↦ trivial) (onTeam_only p) h
  intro β op s f hop hs hf
  refine hs.after hf ?_
  cases op with
  | team op => trivial
  | command op | schedule op | deletion op => exact hop.elim

/-- Requests of the other services, which give nothing to anybody but members of `T` who may
execute commands. -/
def Within (T : TeamStore) (β : Type) (op : ServiceOp β) : Prop :=
  Elsewhere β op ∧ Sanctioned T β op

theorem safely_within {α : Type} {T : TeamStore} (h : s.Authorized) (hT : s.team = T)
    {p : ServiceM α} (hp : Only (Within T) p) :
    Safely (fun t ↦ t.Authorized ∧ t.team = T) p s := by
  refine wp_of_only ?_ (fun _ _ _ _ _ ↦ trivial) hp ⟨h, hT⟩
  rintro β op s f ⟨helsewhere, hsanctioned⟩ ⟨hs, rfl⟩ hf
  exact ⟨hs.after hf hsanctioned,
    Server.after_of (fun t : Services ↦ t.team = s.team) rfl (team_serve helsewhere) f⟩

/-- An action that demands the permission goes on for a member who has it. -/
theorem safely_permitted {α : Type} (h : s.Authorized) (ids : TeamIds) (user : SessionUser)
    {f : TeamContext → ServiceM α} (hf : ∀ (T : TeamStore) ctx,
      T.MayExecute ctx.user.id ctx.teamId → Only (Within T) (f ctx)) :
    Safely Authorized (onTeam (requirePermission ids user "command:execute") >>= f) s := by
  have hctx : wp teamServer anyFate (fun _ _ _ ↦ True) (fun r t ↦ ∀ ctx, r = .ok ctx →
      t.MayExecute ctx.user.id ctx.teamId) (requirePermission ids user "command:execute")
      s.team := by
    unfold requirePermission getTeamContext
    rw [Prog.bind_assoc]
    refine (wp_bind _ _ _).mpr (wp_mono (resolveMembership_reads ids user _) ?_)
    intro r t hfound
    cases r with
    | error e => exact nofun
    | ok found =>
        obtain ⟨hreads, huser⟩ := hfound found rfl
        show wp _ _ _ _ (if _ then _ else _) t
        split
        · rename_i hexec
          rintro _ ⟨⟩
          exact ⟨found.id, found.member, hreads.member, huser, rfl, found.role, hreads.role, hexec⟩
        · exact nofun
  refine (wp_bind _ _ _).mpr (wp_mono (wp_and (safely_onTeam h _) (wp_lift teamPart hctx)) ?_)
  rintro r t ⟨ht, T, rfl, hT⟩
  cases r with
  | error e => exact ht
  | ok ctx => exact wp_mono (safely_within ht rfl (hf T ctx (hT ctx rfl))) fun _ _ h ↦ h.1

/-! ### Schedules -/

section Calls

variable {T : TeamStore} {userId teamId : String}

/-- A message in place of an error. -/
theorem reported_only {P : ∀ β : Type, ServiceOp β → Prop} {service : ServiceM Unit}
    (h : Only P service) : Only P (reported service) := by
  refine Only.tryCatch (h.bind fun _ ↦ trivial) fun e ↦ ?_
  cases e <;> trivial

theorem onSchedules_only {α : Type} {p : ScheduleM α}
    (hp : Only (fun β op ↦ Sanctioned T β (.schedule op)) p) : Only (Within T) (onSchedules p) :=
  Only.lift (fun _ _ h ↦ ⟨trivial, h⟩) hp

theorem onFleet_only {α : Type} {p : CommandM α}
    (hp : Only (fun β op ↦ Sanctioned T β (.command op)) p) : Only (Within T) (onFleet p) :=
  Only.lift (fun _ _ h ↦ ⟨trivial, h⟩) hp

/-- A request that sets no times creates no schedule. -/
theorem sanctioned_of_not_setsTiming {β : Type} {op : ScheduleOp β}
    (h : ¬ ScheduleStore.SetsTiming β op) : Sanctioned T β (.schedule op) := by
  cases op with
  | createSchedule => exact absurd trivial h
  | _ => trivial

-- Unfolding, unification would run into the comparison of the name.
attribute [local irreducible] Prog.Always in
theorem createSchedule_only (hT : T.MayExecute userId teamId) (parse : CronParser)
    (scheduleId : String) (input : ScheduleInput) :
    Only (fun β op ↦ Sanctioned T β (.schedule op))
      (createSchedule parse scheduleId userId teamId input) := by
  unfold createSchedule
  split
  · exact (only_throw _).mpr trivial
  split
  · exact (only_throw _).mpr trivial
  refine Only.await trivial fun now ↦ Only.bind ((only_ofExcept _).mpr trivial) fun next ↦ ?_
  refine Only.bind ((validateTargets_only teamId input).mono fun _ _ ↦
    sanctioned_of_not_setsTiming) fun _ ↦ ?_
  exact Only.await hT fun _ ↦ (only_perform _).mpr trivial

theorem setScheduleStatus_only (parse : CronParser) (scheduleId : String)
    (status : ScheduleStatus) : Only (fun β op ↦ Sanctioned T β (.schedule op))
      (setScheduleStatus parse userId teamId scheduleId status) := by
  unfold setScheduleStatus
  refine Only.await trivial fun found ↦ ?_
  cases found with
  | none => trivial
  | some schedule =>
      refine Only.bind ?_ fun next ↦ Only.await trivial fun _ ↦ (only_perform _).mpr trivial
      cases status with
      | active =>
          exact Only.await trivial fun now ↦
            Only.bind ((only_ofExcept _).mpr trivial) fun next ↦ trivial
      | paused => trivial

theorem deleteSchedule_only (scheduleId : String) :
    Only (Within T) (deleteSchedule userId teamId scheduleId) := by
  refine Only.await ⟨trivial, trivial⟩ fun found ↦ ?_
  cases found with
  | none => trivial
  | some schedule =>
      exact Only.await ⟨trivial, trivial⟩ fun _ ↦ (only_perform _).mpr ⟨trivial, trivial⟩

/-! ### Commands -/

theorem publishBatch_sanctioned (sha1 : List UInt8 → List UInt8) (batchId : String)
    (input : DispatchCommandInput) (issuedAt : Int) (finalTargets : List Target) :
    Only (fun β op ↦ Sanctioned T β (.command op))
      (publishBatch sha1 batchId userId input issuedAt finalTargets) := by
  unfold publishBatch
  split
  · exact Only.await trivial fun _ ↦ trivial
  · refine Only.awaitAll fun p hp ↦ ?_
    obtain ⟨t, -, rfl⟩ := List.mem_map.mp hp
    exact Only.await trivial fun _ ↦ trivial

/-- All rows of a dispatch are those of its user. -/
theorem dispatchCommand_only (hT : T.MayExecute userId teamId)
    (sha1 : List UInt8 → List UInt8) (batchId : String) (input : DispatchCommandInput) :
    Only (fun β op ↦ Sanctioned T β (.command op))
      (dispatchCommand sha1 batchId userId teamId input) := by
  unfold dispatchCommand dispatchTargets
  refine Only.await trivial fun targets ↦ ?_
  split
  · trivial
  split
  · trivial
  refine Only.bind (Only.await trivial fun _ ↦ trivial) fun limit ↦ ?_
  unfold dispatchAllowed
  split
  · exact Only.await trivial fun _ ↦ trivial
  split
  · trivial
  unfold dispatchBatch
  refine Only.await trivial fun issuedAt ↦ Only.await ?_ fun _ ↦ ?_
  · intro e he
    obtain ⟨t, -, rfl⟩ := List.mem_map.mp he
    exact hT
  · refine (publishBatch_sanctioned sha1 batchId input issuedAt _).bind fun dispatched ↦ ?_
    exact Only.await trivial fun _ ↦ Only.await trivial fun _ ↦ trivial

/-! ### Passes -/

/-- What is shown to a pass belongs to members who may execute commands. -/
def ShowsAuthorized (T : TeamStore) : ∀ β : Type, ScheduleOp β → Except Err β → Prop
  | _, .findDue _ _, .ok due => ∀ e ∈ due, T.MayExecute e.2.userId e.2.teamId
  | _, _, _ => True

/-- A pass dispatches what it has been shown, and neither creates nor resumes schedules. -/
def DispatchesAuthorized (T : TeamStore) : ∀ β : Type, ScheduleOp β → Prop
  | _, .dispatch _ userId teamId _ => T.MayExecute userId teamId
  | _, .createSchedule .. | _, .updateStatus .. => False
  | _, _ => True

theorem runSchedules_only (parse : CronParser) (now : Int) {due : List (String × Schedule)}
    (hdue : ∀ e ∈ due, T.MayExecute e.2.userId e.2.teamId) (dispatched : Nat) :
    Only (DispatchesAuthorized T) (runSchedules parse now due dispatched) := by
  induction due generalizing dispatched with
  | nil => trivial
  | cons e due ih =>
      have hrest := ih fun e he ↦ hdue e (List.mem_cons_of_mem _ he)
      refine Only.bind ((only_ofExcept _).mpr trivial) fun next ↦ Only.await trivial fun count ↦ ?_
      split
      · exact hrest _
      refine Only.bind (Only.tryCatch ?_ fun err ↦ ?_) fun ran ↦ hrest _
      · refine Only.bind ?_ fun _ ↦ trivial
        refine Only.await (hdue e List.mem_cons_self) fun result ↦ ?_
        exact Only.await trivial fun _ ↦ (only_perform _).mpr trivial
      · exact Only.await trivial fun _ ↦ trivial

theorem runDueSchedules_dispatches (parse : CronParser) (now : Int) :
    Always (ShowsAuthorized T) (fun β op _ ↦ DispatchesAuthorized T β op)
      (runDueSchedules parse now) := by
  refine ⟨trivial, ?_⟩
  rintro (e | due) hdue
  · trivial
  · exact Always.of_only (runSchedules_only parse now hdue 0) fun _ _ _ h ↦ h

/-- A request of a pass, with the dispatch that it may be. -/
theorem safely_scheduleRequest (sha1 : List UInt8 → List UInt8) (batchIds : String → String)
    {β : Type} {op : ScheduleOp β} (hop : DispatchesAuthorized T β op) (h : s.Authorized)
    (hT : s.team = T) :
    wp serviceServer careful (fun _ _ _ ↦ True)
      (fun r t ↦ ShowsAuthorized T β op r ∧ t.Authorized ∧ t.team = T)
      (scheduleRequest sha1 batchIds β op) s := by
  have hperform (hsanctioned : Sanctioned T β (.schedule op)) :
      Safely (fun t ↦ t.Authorized ∧ t.team = T) (.perform (.schedule op)) s :=
    safely_within h hT ((only_perform _).mpr ⟨trivial, hsanctioned⟩)
  cases op with
  | dispatch id userId teamId input =>
      exact wp_mono (safely_within h hT (onFleet_only (dispatchCommand_only hop sha1 _ input)))
        fun r t ht ↦ ⟨trivial, ht⟩
  | createSchedule | updateStatus => exact hop.elim
  | findDue now take =>
      have hshown : wp serviceServer careful (fun _ _ _ ↦ True)
          (fun r _ ↦ ShowsAuthorized T _ (.findDue now take) r)
          (.perform (.schedule (.findDue now take))) s := by
        refine (wp_perform _ _).mpr ⟨trivial, fun f _ ↦ ?_⟩
        cases f with
        | refused e | unanswered e => trivial
        | served =>
            intro e he
            obtain ⟨hrow, hdue⟩ := Table.mem_findMany.mp (List.mem_of_mem_take he)
            rw [← hT]
            exact h.active e.1 e.2 hrow (of_decide_eq_true hdue).1
      exact wp_and hshown (hperform trivial)
  | now | findGroup | countDevices | findSchedule | claim | recordRun | createAuditLog =>
      exact wp_mono (hperform trivial) fun r t ht ↦ ⟨trivial, ht⟩

/-- An answer that nobody waits for. -/
theorem safely_done {α : Type} {p : ServiceM α} (hp : Safely Authorized p s) :
    Safely Authorized (p >>= fun _ ↦ (.pure () : ServiceM Unit)) s := by
  refine (wp_bind _ _ _).mpr (wp_mono hp fun r t ht ↦ ?_)
  cases r <;> exact ht

theorem safely_runPass (h : s.Authorized) (parse : CronParser) (sha1 : List UInt8 → List UInt8)
    (batchIds : String → String) : Safely Authorized (runPass parse sha1 batchIds) s := by
  refine wp_await_read trivial rfl ?_ fun _ ↦ h
  have hpass := @runDueSchedules_dispatches s.team parse s.fleet.clock
  refine wp_mono (wp_interpret (I := fun t ↦ t.Authorized ∧ t.team = s.team) ?_ hpass ⟨h, rfl⟩)
    fun _ _ ht ↦ ht.1
  rintro β op k t hop ⟨ht, hT⟩
  exact safely_scheduleRequest sha1 batchIds hop ht hT

/-! ### Actions -/

section Actions

variable (h : s.Authorized) (parse : CronParser) (sha1 : List UInt8 → List UInt8) (ids : TeamIds)
  (user : SessionUser)

include h

-- Unfolding, unification would run into the comparison of the name.
attribute [local irreducible] Prog.Always in
theorem safely_createScheduleAction (scheduleId : String) (parsed : Except String ScheduleInput) :
    Safely Authorized (createScheduleAction parse ids user scheduleId parsed) s := by
  refine safely_permitted h ids user fun T ctx hT ↦ ?_
  cases parsed with
  | error message => exact (only_pure _).mpr trivial
  | ok data =>
      have hservice := createSchedule_only hT parse scheduleId data
      exact reported_only (onSchedules_only hservice)

theorem safely_toggleScheduleAction (scheduleId : String) (active : Bool) :
    Safely Authorized (toggleScheduleAction parse ids user scheduleId active) s := by
  refine safely_permitted h ids user fun T ctx _ ↦ ?_
  refine reported_only ?_
  exact onSchedules_only (setScheduleStatus_only parse scheduleId _)

theorem safely_deleteScheduleAction (scheduleId : String) :
    Safely Authorized (deleteScheduleAction ids user scheduleId) s := by
  refine safely_permitted h ids user fun T ctx _ ↦ ?_
  refine reported_only ?_
  exact deleteSchedule_only scheduleId

theorem safely_runCommandAction (batchId : String)
    (parsed : Except String DispatchCommandInput) :
    Safely Authorized (runCommandAction sha1 ids user batchId parsed) s := by
  refine safely_permitted h ids user fun T ctx hT ↦ ?_
  cases parsed with
  | error message => trivial
  | ok data =>
      have hdispatch := onFleet_only (dispatchCommand_only hT sha1 batchId data)
      refine Only.tryCatch ?_ fun _ ↦ trivial
      exact hdispatch.bind fun _ ↦ trivial

end Actions

/-- No call breaks the order, if its requests are careful. -/
theorem safely_call (h : s.Authorized) (dig : Digests) (parse : CronParser)
    (sha1 : List UInt8 → List UInt8) (call : ServiceCall) :
    Safely Authorized (call.prog dig parse sha1) s := by
  cases call with
  | team ids user call =>
      have hcall := safely_onTeam h (call.prog dig ids user)
      exact safely_done hcall
  | createSchedule ids user scheduleId parsed =>
      have hcall := safely_createScheduleAction h parse ids user scheduleId parsed
      exact safely_done hcall
  | toggleSchedule ids user scheduleId active =>
      have hcall := safely_toggleScheduleAction h parse ids user scheduleId active
      exact safely_done hcall
  | deleteSchedule ids user scheduleId =>
      have hcall := safely_deleteScheduleAction h ids user scheduleId
      exact safely_done hcall
  | runCommand ids user batchId parsed =>
      have hcall := safely_runCommandAction h sha1 ids user batchId parsed
      exact safely_done hcall
  | runDueSchedules batchIds =>
      have hcall := safely_runPass h parse sha1 batchIds
      exact safely_done hcall

end Calls

end Services

/-- What happens elsewhere is no matter of authority. -/
theorem Services.Authorized.event {s : Services} (h : s.Authorized) (x : ServiceEvent) :
    (x.apply s).Authorized := by
  cases x with
  | tick ms => exact ⟨h.active, h.created⟩
  | elsewhere fleet => exact ⟨h.active, h.created⟩

/-! ## Histories -/

/-- In every history of calls whose requests are careful, all commands that have been created are
those of members who were allowed to execute them. -/
theorem executions_authorized (dig : Digests) (parse : CronParser)
    (sha1 : List UInt8 → List UInt8) {s₀ s : Services} (h₀ : s₀.Authorized)
    (h : Serial serviceServer (ServiceCall.prog dig parse sha1) (fun _ ↦ Services.careful)
      ServiceEvent.apply s₀ s) :
    ∀ e ∈ s.created, e.1.MayExecute e.2.userId e.2.teamId :=
  (h.invariant h₀ (fun call _ hs ↦ Services.safely_call hs dig parse sha1 call)
    fun x _ hs ↦ hs.event x).created

/-! ## A schedule of a member who leaves -/

instance {s : TeamStore} (roleId : String) : Decidable (s.RoleExecutes roleId) :=
  inferInstanceAs (Decidable (∃ role ∈ s.roles.find? roleId, _))

instance {s : TeamStore} (userId teamId : String) : Decidable (s.MayExecute userId teamId) :=
  decidable_of_iff (∃ e ∈ s.members.entries, e.2.userId = userId ∧ e.2.teamId = teamId ∧
    s.RoleExecutes e.2.roleId)
    ⟨fun ⟨e, he, h⟩ ↦ ⟨e.1, e.2, Table.find?_eq_some.mpr he, h⟩,
      fun ⟨mid, m, hm, h⟩ ↦ ⟨(mid, m), Table.find?_eq_some.mp hm, h⟩⟩

instance {s : TeamStore} {userId teamId : String} {β : Type} (op : TeamOp β) :
    Decidable (s.TakesExecute userId teamId β op) := by
  cases op <;> unfold TeamStore.TakesExecute <;> infer_instance

instance {s : Services} : ∀ {β : Type} (op : ServiceOp β), Decidable (s.Careful β op)
  | β, .team op =>
      decidable_of_iff (∀ e ∈ s.schedules.entries, e.2.status = .active →
        ¬ s.team.TakesExecute e.2.userId e.2.teamId β op)
        ⟨fun h id row hrow ↦ h (id, row) (Table.find?_eq_some.mp hrow),
          fun h e he ↦ h e.1 e.2 (Table.find?_eq_some.mpr he)⟩
  | _, .schedule (.updateStatus id .active _) =>
      inferInstanceAs (Decidable (∀ row ∈ s.schedules.find? id,
        s.team.MayExecute row.userId row.teamId))
  | _, .schedule (.updateStatus _ .paused _) | _, .schedule .now | _, .schedule (.findGroup ..)
  | _, .schedule (.countDevices ..) | _, .schedule (.findSchedule ..) | _, .schedule (.findDue ..)
  | _, .schedule (.createSchedule ..) | _, .schedule (.claim ..) | _, .schedule (.recordRun ..)
  | _, .schedule (.dispatch ..) | _, .schedule (.createAuditLog ..)
  | _, .command _ | _, .deletion _ => .isTrue trivial

/-- The small team has a device, and no schedule yet. -/
def unscheduled : Services where
  team := smallTeam
  fleet :=
    { clock := 0, deviceGroups := ∅, batches := ∅, commands := ∅, outputs := ∅, auditLogs := []
      limiter := fun _ _ ↦ [], graceUntil := 0, connected := true
      devices := ⟨[("row", { userId := "o", teamId := "t", deviceId := "dev", name := "host"
                             status := .online })], List.nodup_singleton _⟩ }
  schedules := ∅
  created := []

theorem unscheduled_authorized : unscheduled.Authorized where
  active _ _ hrow := nomatch hrow
  created _ he := nomatch he

/-- The Admin schedules a command for every minute. -/
def scheduleUptime : ServiceCall :=
  .createSchedule ⟨"", id, ""⟩ { id := "a", email := "a@x" } "sched"
    (.ok { name := "Uptime", command := "uptime", cron := "* * * * *", deviceIds := some ["dev"] })

def unscheduleUptime : ServiceCall :=
  .deleteSchedule ⟨"", id, ""⟩ { id := "a", email := "a@x" } "sched"

/-- The Owner removes the Admin. -/
def removeAdmin : ServiceCall :=
  .team ⟨"", id, ""⟩ { id := "o", email := "o@x" } (.removeMember "ma")

def nextPass : ServiceCall := .runDueSchedules id

def exampleProg : ServiceCall → ServiceM Unit :=
  ServiceCall.prog ⟨id, id⟩ everyMinute List.reverse

/-- The services after a call none of whose requests fails. -/
def afterCall (s : Services) (call : ServiceCall) : Services :=
  (run serviceServer [] (exampleProg call) s).2

/-- A minute later. -/
def afterMinute (s : Services) : Services := (ServiceEvent.tick 60000).apply s

/-- The Admin leaves no schedule behind. -/
def orderlyRemoval : Services :=
  afterCall (afterCall (afterCall (afterMinute (afterCall unscheduled scheduleUptime)) nextPass)
    unscheduleUptime) removeAdmin

theorem executions_authorized_orderly :
    Serial serviceServer exampleProg (fun _ ↦ Services.careful) ServiceEvent.apply unscheduled
      orderlyRemoval ∧ orderlyRemoval.created.map (·.2.userId) = ["a"] ∧
    ∀ e ∈ orderlyRemoval.created, e.1.MayExecute e.2.userId e.2.teamId := by
  have hcall : ∀ call s, Along serviceServer (fun β op s ↦ s.Careful β op) (exampleProg call) s →
      Eval serviceServer Services.careful (exampleProg call) s
        (run serviceServer [] (exampleProg call) s).1 (afterCall s call) :=
    fun call s h ↦ Eval.of_along (fun _ _ _ hop ↦ .inr hop) h
  have hserial : Serial serviceServer exampleProg (fun _ ↦ Services.careful) ServiceEvent.apply
      unscheduled orderlyRemoval := by
    refine Serial.call removeAdmin ?_ (hcall _ _ (by decide))
    refine Serial.call unscheduleUptime ?_ (hcall _ _ (by decide))
    refine Serial.call nextPass ?_ (hcall _ _ (by decide))
    refine Serial.env (ServiceEvent.tick 60000) ?_
    exact Serial.call scheduleUptime Serial.start (hcall _ _ (by decide))
  exact ⟨hserial, by decide, executions_authorized _ _ _ unscheduled_authorized hserial⟩

/-- The Admin is removed, and the schedule runs on. -/
def leftBehind : Services :=
  afterCall (afterMinute (afterCall (afterCall unscheduled scheduleUptime) removeAdmin)) nextPass

/-- A command is created for a user who is no member any more. -/
theorem executions_unauthorized :
    Serial serviceServer exampleProg (fun _ ↦ anyFate) ServiceEvent.apply unscheduled leftBehind ∧
    unscheduled.Authorized ∧ leftBehind.created.map (·.2.userId) = ["a"] ∧
    ¬ ∀ e ∈ leftBehind.created, e.1.MayExecute e.2.userId e.2.teamId := by
  refine ⟨?_, unscheduled_authorized, by decide, by decide⟩
  have hcall : ∀ call s, Eval serviceServer anyFate (exampleProg call) s
      (run serviceServer [] (exampleProg call) s).1 (afterCall s call) :=
    fun _ _ ↦ Eval.of_run fun _ _ _ _ _ ↦ trivial
  refine Serial.call nextPass (Serial.env (ServiceEvent.tick 60000) ?_) (hcall _ _)
  exact (Serial.start.call scheduleUptime (hcall _ _)).call removeAdmin (hcall _ _)

end Zenstier
