import Zenstier.Concurrent.Worlds
import Zenstier.Tenancy.Frame

/-!
# Requests on behalf of a team

When a single request is fit to be made for a team, and what its reply tells: of a row that has been
found for the team one knows from then on that its id is not that of another team's row.  A fit
request keeps the rows of the other teams, and keeps the foreign keys within the teams.
-/

namespace Zenstier

open Store Store.Table Concurrent Database

/-- A state that a call for the team has come to. -/
structure Stage (t : String) where
  db : Database
  separate : db.Separate

namespace Stage

variable {t : String} {β : Type}

/-- The rows of the other teams stay what they are. -/
instance : Preorder (Stage t) where
  le w w' := w.db.Frame t w'.db
  le_refl w := .refl t w.db
  le_trans _ _ _ := Database.Frame.trans

section Fits

variable (w : Stage t)

/-! ## Rows of the team -/

abbrev OwnsRole (id : String) : Prop := Owned Role.teamId t w.db.roles id

abbrev OwnsMember (id : String) : Prop := Owned TeamMember.teamId t w.db.members id

abbrev OwnsInvite (id : String) : Prop := Owned TeamInvite.teamId t w.db.invites id

abbrev OwnsGroup (id : String) : Prop := Owned DeviceGroup.teamId t w.db.deviceGroups id

abbrev OwnsDevice (id : String) : Prop := Owned Device.teamId t w.db.devices id

abbrev OwnsSchedule (id : String) : Prop := Owned Schedule.teamId t w.db.schedules id

abbrev OwnsRule (id : String) : Prop := Owned AlertRule.teamId t w.db.rules id

abbrev OwnsToken (id : String) : Prop := Owned AuthToken.teamId t w.db.tokens id

/-! ## What a request may be, and what it tells -/

def TeamFits : ∀ β : Type, TeamOp β → Prop
  | _, .createTeam .. | _, .setActiveTeam .. | _, .acceptInvite .. => False
  | _, .createRole _ row => row.teamId = t
  | _, .updateRole id _ | _, .deleteRole id => w.OwnsRole id
  | _, .updateMember id roleId => w.OwnsMember id ∧ w.OwnsRole roleId
  | _, .deleteMember id => w.OwnsMember id
  | _, .upsertInvite _ row => row.teamId = t ∧ w.OwnsRole row.roleId
  | _, .revokeInvite id _ => w.OwnsInvite id
  | _, .createAuditLog row => row.teamId = some t
  | _, _ => True

def TeamTells : ∀ β : Type, TeamOp β → Except Err β → Prop
  | _, .findMember id teamId, .ok (some found) => teamId = t → w.OwnsMember id ∧ found.id = id
  | _, .findRole id teamId, .ok (some _) => teamId = t → w.OwnsRole id
  | _, .findRoleWithCount id teamId, .ok (some _) => teamId = t → w.OwnsRole id
  | _, .findInvite id teamId, .ok (some _) => teamId = t → w.OwnsInvite id
  | _, _, _ => True

def GroupFits : ∀ β : Type, GroupOp β → Prop
  | _, .createGroup _ row => row.teamId = t
  | _, .updateGroup id _ | _, .deleteGroup id => w.OwnsGroup id
  | _, .updateDevice id groupId => w.OwnsDevice id ∧ ∀ g ∈ groupId, w.OwnsGroup g
  | _, .createAuditLog row => row.teamId = some t
  | _, _ => True

def GroupTells : ∀ β : Type, GroupOp β → Except Err β → Prop
  | _, .findGroup id teamId, .ok (some _) => teamId = t → w.OwnsGroup id
  | _, .findGroupWithDevices id teamId, .ok (some _) => teamId = t → w.OwnsGroup id
  | _, .findDevice _ teamId, .ok (some (id, _)) => teamId = t → w.OwnsDevice id
  | _, .createGroup id row, .ok _ => row.teamId = t → w.OwnsGroup id
  | _, _, _ => True

def ScheduleFits : ∀ β : Type, ScheduleOp β → Prop
  | _, .createSchedule _ row => row.teamId = t ∧ ∀ g ∈ row.groupId, w.OwnsGroup g
  | _, .updateStatus id _ _ | _, .claim id _ _ | _, .recordRun id _ _ _ => w.OwnsSchedule id
  | _, .createAuditLog row => row.teamId = some t
  | _, _ => True

def ScheduleTells : ∀ β : Type, ScheduleOp β → Except Err β → Prop
  | _, .findGroup id teamId, .ok (some _) => teamId = t → w.OwnsGroup id
  | _, .findSchedule id teamId, .ok (some _) => teamId = t → w.OwnsSchedule id
  | _, _, _ => True

def RuleFits : ∀ β : Type, RuleOp β → Prop
  | _, .createRule _ row => row.teamId = t
  | _, .updateRule id _ | _, .deleteStates id | _, .deleteRule id => w.OwnsRule id
  | _, .createAuditLog row => row.teamId = some t
  | _, _ => True

def RuleTells : ∀ β : Type, RuleOp β → Except Err β → Prop
  | _, .findRule id teamId, .ok (some _) => teamId = t → w.OwnsRule id
  | _, _, _ => True

def TokenFits : ∀ β : Type, TokenOp β → Prop
  | _, .createDevice .. | _, .createToken .. | _, .markConsumed .. | _, .deleteDevice ..
  | _, .detachUsers .. | _, .deleteTeam .. => False
  | _, .markRevoked tokenId deviceId _ audit =>
      w.OwnsToken tokenId ∧ (∀ d ∈ deviceId, w.OwnsDevice d) ∧ audit.teamId = some t
  | _, .createAuditLog row => row.teamId = some t
  | _, _ => True

def TokenTells : ∀ β : Type, TokenOp β → Except Err β → Prop
  | _, .findToken _ teamId, .ok (some found) => teamId = t →
      w.OwnsToken found.id ∧ ∀ d ∈ found.device.map (·.1), w.OwnsDevice d
  | _, _, _ => True

def Fits : ∀ β : Type, DatabaseOp β → Prop
  | _, .team op => w.TeamFits _ op
  | _, .group op => w.GroupFits _ op
  | _, .schedule op => w.ScheduleFits _ op
  | _, .deletion (.deleteSchedule id) => w.OwnsSchedule id
  | _, .rule op => w.RuleFits _ op
  | _, .token op => w.TokenFits _ op

def Tells : ∀ β : Type, DatabaseOp β → Except Err β → Prop
  | _, .team op, r => w.TeamTells _ op r
  | _, .group op, r => w.GroupTells _ op r
  | _, .schedule op, r => w.ScheduleTells _ op r
  | _, .deletion _, _ => True
  | _, .rule op, r => w.RuleTells _ op r
  | _, .token op, r => w.TokenTells _ op r

end Fits

/-! ## What is told stays true -/

section Later

variable {w w' : Stage t}

theorem TeamTells.later (hle : w ≤ w') {op : TeamOp β} {r : Except Err β}
    (h : w.TeamTells β op r) : w'.TeamTells β op r := by
  rcases r with e | a
  · cases op <;> trivial
  cases op with
  | findMember id teamId =>
      cases a with
      | none => trivial
      | some found => exact fun ht ↦ ⟨(h ht).1.later hle.members, (h ht).2⟩
  | findRole id teamId =>
      cases a with
      | none => trivial
      | some role => exact fun ht ↦ (h ht).later hle.roles
  | findRoleWithCount id teamId =>
      cases a with
      | none => trivial
      | some role => exact fun ht ↦ (h ht).later hle.roles
  | findInvite id teamId =>
      cases a with
      | none => trivial
      | some inv => exact fun ht ↦ (h ht).later hle.invites
  | _ => trivial

theorem GroupTells.later (hle : w ≤ w') {op : GroupOp β} {r : Except Err β}
    (h : w.GroupTells β op r) : w'.GroupTells β op r := by
  rcases r with e | a
  · cases op <;> trivial
  cases op with
  | findGroup id teamId =>
      cases a with
      | none => trivial
      | some g => exact fun ht ↦ (h ht).later hle.deviceGroups
  | findGroupWithDevices id teamId =>
      cases a with
      | none => trivial
      | some g => exact fun ht ↦ (h ht).later hle.deviceGroups
  | findDevice deviceId teamId =>
      cases a with
      | none => trivial
      | some found => exact fun ht ↦ (h ht).later hle.devices
  | createGroup id row => exact fun ht ↦ (h ht).later hle.deviceGroups
  | _ => trivial

theorem ScheduleTells.later (hle : w ≤ w') {op : ScheduleOp β} {r : Except Err β}
    (h : w.ScheduleTells β op r) : w'.ScheduleTells β op r := by
  rcases r with e | a
  · cases op <;> trivial
  cases op with
  | findGroup id teamId =>
      cases a with
      | none => trivial
      | some g => exact fun ht ↦ (h ht).later hle.deviceGroups
  | findSchedule id teamId =>
      cases a with
      | none => trivial
      | some r => exact fun ht ↦ (h ht).later hle.schedules
  | _ => trivial

theorem RuleTells.later (hle : w ≤ w') {op : RuleOp β} {r : Except Err β}
    (h : w.RuleTells β op r) : w'.RuleTells β op r := by
  rcases r with e | a
  · cases op <;> trivial
  cases op with
  | findRule id teamId =>
      cases a with
      | none => trivial
      | some rule => exact fun ht ↦ (h ht).later hle.rules
  | _ => trivial

theorem TokenTells.later (hle : w ≤ w') {op : TokenOp β} {r : Except Err β}
    (h : w.TokenTells β op r) : w'.TokenTells β op r := by
  rcases r with e | a
  · cases op <;> trivial
  cases op with
  | findToken id teamId =>
      cases a with
      | none => trivial
      | some found =>
          intro ht
          obtain ⟨htoken, hdevice⟩ := h ht
          exact ⟨htoken.later hle.tokens, fun d hd ↦ (hdevice d hd).later hle.devices⟩
  | _ => trivial

theorem Tells.later (hle : w ≤ w') {op : DatabaseOp β} {r : Except Err β}
    (h : w.Tells β op r) : w'.Tells β op r := by
  cases op with
  | team op => exact TeamTells.later hle h
  | group op => exact GroupTells.later hle h
  | schedule op => exact ScheduleTells.later hle h
  | deletion op => trivial
  | rule op => exact RuleTells.later hle h
  | token op => exact TokenTells.later hle h

/-- A failure tells nothing. -/
theorem tells_error (w : Stage t) (op : DatabaseOp β) (e : Err) : w.Tells β op (.error e) := by
  rcases op with op | op | op | op | op | op <;> cases op <;> trivial

end Later

/-! ## What is told is true -/

section Serve

variable (w : Stage t)

theorem team_tells (op : TeamOp β) : w.TeamTells β op (w.db.teamStore.serve op).1 := by
  cases op with
  | findMember id teamId =>
      rw [TeamStore.serve]
      cases hfound : w.db.teamStore.findMember id teamId with
      | none => trivial
      | some found =>
          obtain ⟨m, hm, hrole⟩ := Option.bind_eq_some_iff.mp hfound
          intro ht
          subst ht
          refine ⟨.of_filter hm, ?_⟩
          obtain ⟨role, -, hteam⟩ := Option.bind_eq_some_iff.mp hrole
          obtain ⟨team, -, heq⟩ := Option.bind_eq_some_iff.mp hteam
          cases heq
          rfl
  | findRole id teamId =>
      rw [TeamStore.serve]
      cases hfound : w.db.teamStore.findRole id teamId with
      | none => trivial
      | some role =>
          intro ht
          subst ht
          exact .of_filter hfound
  | findRoleWithCount id teamId =>
      rw [TeamStore.serve]
      cases hfound : w.db.teamStore.findRole id teamId with
      | none => trivial
      | some role =>
          intro ht
          subst ht
          exact .of_filter hfound
  | findInvite id teamId =>
      rw [TeamStore.serve]
      cases hfound : (w.db.invites.find? id).filter (·.teamId = teamId) with
      | none => simp only [Database.teamStore, hfound]; trivial
      | some inv =>
          simp only [Database.teamStore, hfound]
          intro ht
          subst ht
          exact .of_filter hfound
  | _ => trivial

theorem group_tells (op : GroupOp β) : w.GroupTells β op (w.db.groupStore.serve op).1 := by
  cases op with
  | findGroup id teamId =>
      rw [GroupStore.serve]
      cases hfound : w.db.groupStore.findGroup id teamId with
      | none => trivial
      | some g =>
          intro ht
          subst ht
          exact .of_filter hfound
  | findGroupWithDevices id teamId =>
      rw [GroupStore.serve]
      cases hfound : w.db.groupStore.findGroup id teamId with
      | none => trivial
      | some g =>
          intro ht
          subst ht
          exact .of_filter hfound
  | findDevice deviceId teamId =>
      rw [GroupStore.serve]
      cases hfound : w.db.groupStore.devices.findFirst fun _ d ↦
          d.deviceId = deviceId ∧ d.teamId = teamId with
      | none => trivial
      | some found =>
          intro ht
          obtain ⟨hfind, hp⟩ := findFirst_eq_some hfound
          exact .of_find? hfind ((of_decide_eq_true hp).2.trans ht)
  | createGroup id row =>
      rw [GroupStore.serve, GroupStore.createGroup]
      split
      · trivial
      split
      · trivial
      · rename_i deviceGroups hins
        exact fun _ ↦ .of_insert hins
  | _ => trivial

theorem schedule_tells (op : ScheduleOp β) :
    w.ScheduleTells β op (w.db.scheduleStore.serve op).1 := by
  cases op with
  | findGroup id teamId =>
      rw [ScheduleStore.serve]
      cases hfound : (w.db.deviceGroups.find? id).filter (·.teamId = teamId) with
      | none => simp only [Database.scheduleStore, hfound]; trivial
      | some g =>
          simp only [Database.scheduleStore, hfound]
          intro ht
          subst ht
          exact .of_filter hfound
  | findSchedule id teamId =>
      rw [ScheduleStore.serve]
      cases hfound : (w.db.schedules.find? id).filter (·.teamId = teamId) with
      | none => simp only [Database.scheduleStore, hfound]; trivial
      | some r =>
          simp only [Database.scheduleStore, hfound]
          intro ht
          subst ht
          exact .of_filter hfound
  | _ => trivial

theorem rule_tells (op : RuleOp β) : w.RuleTells β op (w.db.ruleStore.serve op).1 := by
  cases op with
  | findRule id teamId =>
      rw [RuleStore.serve]
      cases hfound : (w.db.rules.find? id).filter (·.teamId = teamId) with
      | none => simp only [Database.ruleStore, hfound]; trivial
      | some rule =>
          simp only [Database.ruleStore, hfound]
          intro ht
          subst ht
          exact .of_filter hfound
  | _ => trivial

/-- The device of a token is of the same team. -/
theorem token_tells (op : TokenOp β) : w.TokenTells β op (w.db.backend.serve op).1 := by
  cases op with
  | findToken id teamId =>
      rw [Backend.serve]
      cases hfound : w.db.backend.tokens.findFirst fun k token ↦
          k = id ∧ token.teamId = teamId with
      | none => trivial
      | some found =>
          obtain ⟨k, token⟩ := found
          intro ht
          subst ht
          obtain ⟨hfind, hp⟩ := findFirst_eq_some hfound
          have hteam : token.teamId = teamId := (of_decide_eq_true hp).2
          refine ⟨.of_find? hfind hteam, fun d hd ↦ ?_⟩
          obtain ⟨e, he, rfl⟩ := Option.mem_map.mp hd
          obtain ⟨id, hid, hdevice⟩ := Option.bind_eq_some_iff.mp he
          obtain ⟨device, -, rfl⟩ := Option.map_eq_some_iff.mp hdevice
          obtain ⟨device', hdevice', howner⟩ := w.separate.tokens k token hfind id hid
          exact .of_find? hdevice' (howner.trans hteam)
  | _ => trivial

theorem tells_serve (op : DatabaseOp β) : w.Tells β op (w.db.serve op).1 := by
  cases op with
  | team op => exact w.team_tells op
  | group op => exact w.group_tells op
  | schedule op => exact w.schedule_tells op
  | deletion op => trivial
  | rule op => exact w.rule_tells op
  | token op => exact w.token_tells op

/-! ## What is fit keeps the rows -/

variable {w}

theorem exists_of_not_isNone {α : Type} {o : Option α} (h : ¬ o.isNone) : ∃ a, o = some a :=
  Option.ne_none_iff_exists'.mp (mt Option.isNone_iff_eq_none.mpr h)

/-- A failed write leaves everything. -/
theorem team_commit {r : Except Err TeamStore}
    (h : ∀ x, r = .ok x → w.db.Kept t (w.db.withTeam x)) :
    w.db.Kept t (w.db.withTeam (w.db.teamStore.commit r).2) := by
  cases r with
  | error e => exact .refl t w.separate
  | ok x => exact h x rfl

theorem createRole_kept {id : String} {row : Role} (h : w.TeamFits Unit (.createRole id row)) :
    w.db.Kept t (w.db.withTeam (w.db.teamStore.serve (.createRole id row)).2) := by
  refine team_commit fun x hx ↦ ?_
  rw [TeamStore.createRole] at hx
  split at hx
  · cases hx
  split at hx
  · cases hx
  · rename_i roles hins
    cases hx
    exact .createRole w.separate hins h

theorem updateRole_kept {id : String} {data : RoleData}
    (h : w.TeamFits Unit (.updateRole id data)) :
    w.db.Kept t (w.db.withTeam (w.db.teamStore.serve (.updateRole id data)).2) := by
  refine team_commit fun x hx ↦ ?_
  rw [TeamStore.updateRole] at hx
  split at hx
  · cases hx
  split at hx
  · cases hx
  · cases hx
    exact .updateRole w.separate h fun _ ↦ rfl

theorem deleteRole_kept {id : String} (h : w.TeamFits Unit (.deleteRole id)) :
    w.db.Kept t (w.db.withTeam (w.db.teamStore.serve (.deleteRole id)).2) := by
  refine team_commit fun x hx ↦ ?_
  rw [TeamStore.deleteRole] at hx
  split at hx
  · cases hx
  split at hx
  · cases hx
  · rename_i hcount
    cases hx
    refine .deleteRole w.separate h fun k m hm hrole ↦ ?_
    have hnil : (w.db.members.findMany fun _ m ↦ m.roleId = id) = [] :=
      List.eq_nil_of_length_eq_zero (not_not.mp hcount)
    have hmem : (k, m) ∈ w.db.members.findMany fun _ m ↦ m.roleId = id :=
      mem_findMany.mpr ⟨hm, decide_eq_true hrole⟩
    rw [hnil] at hmem
    cases hmem

theorem updateMember_kept {id roleId : String} (h : w.TeamFits Unit (.updateMember id roleId)) :
    w.db.Kept t (w.db.withTeam (w.db.teamStore.serve (.updateMember id roleId)).2) := by
  refine team_commit fun x hx ↦ ?_
  rw [TeamStore.updateMember] at hx
  split at hx
  · cases hx
  split at hx
  · cases hx
  · rename_i hrole
    cases hx
    obtain ⟨role, hfind⟩ := exists_of_not_isNone hrole
    exact .updateMember w.separate h.1 h.2 hfind

theorem deleteMember_kept {id : String} (h : w.TeamFits Unit (.deleteMember id)) :
    w.db.Kept t (w.db.withTeam (w.db.teamStore.serve (.deleteMember id)).2) := by
  refine team_commit fun x hx ↦ ?_
  rw [TeamStore.deleteMember] at hx
  split at hx
  · cases hx
  · cases hx
    exact .deleteMember w.separate h

/-- An invite that is there already is overwritten with one of the same team. -/
theorem upsertInvite_kept {id : String} {row : TeamInvite}
    (h : w.TeamFits String (.upsertInvite id row)) :
    w.db.Kept t (w.db.withTeam (w.db.teamStore.serve (.upsertInvite id row)).2) := by
  obtain ⟨hrow, hrole⟩ := h
  rw [TeamStore.serve, TeamStore.upsertInvite]
  by_cases hnone : (w.db.teamStore.roles.find? row.roleId).isNone
  · rw [if_pos hnone]
    exact .refl t w.separate
  obtain ⟨role, hfind⟩ := exists_of_not_isNone hnone
  rw [if_neg hnone]
  cases hold : w.db.teamStore.invites.findFirst fun _ inv ↦
      inv.teamId = row.teamId ∧ inv.email = row.email with
  | some found =>
      obtain ⟨k, old⟩ := found
      obtain ⟨hfound, hp⟩ := findFirst_eq_some hold
      dsimp only
      split
      · rename_i hok
        split at hok
        · cases hok
        · cases hok
          have hk : w.OwnsInvite k := .of_find? hfound ((of_decide_eq_true hp).1.trans hrow)
          let f (inv : TeamInvite) : TeamInvite :=
            { inv with
              roleId := row.roleId, tokenHash := row.tokenHash, invitedById := row.invitedById
              expiresAt := row.expiresAt, acceptedAt := none, revokedAt := none }
          refine Kept.updateInvite w.separate hk (f := f) (fun _ ↦ rfl) fun _ ↦ .inr ?_
          exact ⟨role, hfind, hrole role hfind⟩
      · exact .refl t w.separate
  | none =>
      dsimp only
      split
      · rename_i hok
        split at hok
        · cases hok
        split at hok
        · cases hok
        · rename_i invites hins
          cases hok
          exact .createInvite w.separate hins hrow hrole hfind
      · exact .refl t w.separate

theorem revokeInvite_kept {id : String} {revokedAt : Int}
    (h : w.TeamFits Unit (.revokeInvite id revokedAt)) :
    w.db.Kept t (w.db.withTeam (w.db.teamStore.serve (.revokeInvite id revokedAt)).2) := by
  refine team_commit fun x hx ↦ ?_
  rw [TeamStore.revokeInvite] at hx
  split at hx
  · cases hx
  · cases hx
    exact Kept.updateInvite w.separate h (f := fun inv ↦ { inv with revokedAt := some revokedAt })
      (fun _ ↦ rfl) fun _ ↦ .inl rfl

theorem team_kept {op : TeamOp β} (h : w.TeamFits β op) :
    w.db.Kept t (w.db.withTeam (w.db.teamStore.serve op).2) := by
  cases op with
  | createTeam => exact h.elim
  | setActiveTeam => exact h.elim
  | acceptInvite => exact h.elim
  | createRole id row => exact createRole_kept h
  | updateRole id data => exact updateRole_kept h
  | deleteRole id => exact deleteRole_kept h
  | updateMember id roleId => exact updateMember_kept h
  | deleteMember id => exact deleteMember_kept h
  | detachUser userId teamId => exact .aside w.separate _ _ _ _
  | upsertInvite id row => exact upsertInvite_kept h
  | revokeInvite id revokedAt => exact revokeInvite_kept h
  | createAuditLog row => exact .createAuditLog w.separate h
  | _ => exact .refl t w.separate

theorem group_commit {r : Except Err GroupStore}
    (h : ∀ x, r = .ok x → w.db.Kept t (w.db.withGroups x)) :
    w.db.Kept t (w.db.withGroups (w.db.groupStore.commit r).2) := by
  cases r with
  | error e => exact .refl t w.separate
  | ok x => exact h x rfl

theorem createGroup_kept {id : String} {row : DeviceGroup}
    (h : w.GroupFits Unit (.createGroup id row)) :
    w.db.Kept t (w.db.withGroups (w.db.groupStore.serve (.createGroup id row)).2) := by
  refine group_commit fun x hx ↦ ?_
  rw [GroupStore.createGroup] at hx
  split at hx
  · cases hx
  split at hx
  · cases hx
  · rename_i deviceGroups hins
    cases hx
    exact .createGroup w.separate hins h

theorem updateGroup_kept {id name : String} (h : w.GroupFits Unit (.updateGroup id name)) :
    w.db.Kept t (w.db.withGroups (w.db.groupStore.serve (.updateGroup id name)).2) := by
  refine group_commit fun x hx ↦ ?_
  rw [GroupStore.updateGroup] at hx
  split at hx
  · cases hx
  split at hx
  · cases hx
  · cases hx
    exact .updateGroup w.separate h (f := fun g ↦ { g with name }) fun _ ↦ rfl

theorem deleteGroup_kept {id : String} (h : w.GroupFits Unit (.deleteGroup id)) :
    w.db.Kept t (w.db.withGroups (w.db.groupStore.serve (.deleteGroup id)).2) := by
  refine group_commit fun x hx ↦ ?_
  rw [GroupStore.deleteGroup] at hx
  split at hx
  · cases hx
  · cases hx
    exact .deleteGroup w.separate h

/-- A foreign key that has been checked, to a group of the team. -/
theorem exists_group {groupId : Option String}
    (hall : ¬ groupId.any fun g ↦ (w.db.deviceGroups.find? g).isNone)
    (howns : ∀ g ∈ groupId, w.OwnsGroup g) (g : String) (hg : g ∈ groupId) :
    ∃ group, w.db.deviceGroups.find? g = some group ∧ group.teamId = t := by
  have hnone : ¬ (w.db.deviceGroups.find? g).isNone := fun hnone ↦
    hall (by rw [Option.mem_def.mp hg]; exact hnone)
  obtain ⟨group, hfind⟩ := exists_of_not_isNone hnone
  exact ⟨group, hfind, howns g hg group hfind⟩

theorem updateDevice_kept {id : String} {groupId : Option String}
    (h : w.GroupFits Unit (.updateDevice id groupId)) :
    w.db.Kept t (w.db.withGroups (w.db.groupStore.serve (.updateDevice id groupId)).2) := by
  refine group_commit fun x hx ↦ ?_
  rw [GroupStore.updateDevice] at hx
  split at hx
  · cases hx
  split at hx
  · cases hx
  · rename_i hall
    cases hx
    exact .updateDevice w.separate h.1 (exists_group hall h.2)

theorem group_kept {op : GroupOp β} (h : w.GroupFits β op) :
    w.db.Kept t (w.db.withGroups (w.db.groupStore.serve op).2) := by
  cases op with
  | createGroup id row => exact createGroup_kept h
  | updateGroup id name => exact updateGroup_kept h
  | deleteGroup id => exact deleteGroup_kept h
  | updateDevice id groupId => exact updateDevice_kept h
  | dynsecSend commands => exact .aside w.separate _ _ _ _
  | createAuditLog row => exact .createAuditLog w.separate h
  | _ => exact .refl t w.separate

theorem createSchedule_kept {id : String} {row : Schedule}
    (h : w.ScheduleFits Unit (.createSchedule id row)) :
    w.db.Kept t (w.db.withSchedules (w.db.scheduleStore.createSchedule id row).2) := by
  rw [ScheduleStore.createSchedule]
  split
  · exact .refl t w.separate
  rename_i hall
  split
  · exact .refl t w.separate
  · rename_i schedules hins
    exact .createSchedule w.separate hins h.1 (exists_group hall h.2)

theorem updateSchedule_kept {id : String} (h : w.OwnsSchedule id) {f : Schedule → Schedule}
    (hf : ∀ r, (f r).teamId = r.teamId ∧ (f r).groupId = r.groupId) :
    w.db.Kept t (w.db.withSchedules (w.db.scheduleStore.updateSchedule id f).2) := by
  rw [ScheduleStore.updateSchedule]
  split
  · exact .refl t w.separate
  · exact .updateSchedule w.separate h hf

theorem claim_kept {id : String} (h : w.OwnsSchedule id) (seen : Option Int) (next : Int) :
    w.db.Kept t (w.db.withSchedules (w.db.scheduleStore.claim id seen next).2) := by
  rw [ScheduleStore.claim]
  split
  · exact .refl t w.separate
  · exact Kept.updateSchedule w.separate h (f := fun r ↦ { r with nextRunAt := some next })
      fun _ ↦ ⟨rfl, rfl⟩

theorem schedule_kept {op : ScheduleOp β} (h : w.ScheduleFits β op) :
    w.db.Kept t (w.db.withSchedules (w.db.scheduleStore.serve op).2) := by
  cases op with
  | createSchedule id row => exact createSchedule_kept h
  | updateStatus id status nextRunAt => exact updateSchedule_kept h fun _ ↦ ⟨rfl, rfl⟩
  | claim id seen next => exact claim_kept h seen next
  | recordRun id lastRunAt lastStatus runs => exact updateSchedule_kept h fun _ ↦ ⟨rfl, rfl⟩
  | createAuditLog row => exact .createAuditLog w.separate h
  | _ => exact .refl t w.separate

theorem deletion_kept {id : String} (h : w.OwnsSchedule id) :
    w.db.Kept t (w.db.serveDeletion (.deleteSchedule id)).2 := by
  rw [serveDeletion]
  split
  · exact .refl t w.separate
  · exact .deleteSchedule w.separate h

theorem rule_kept {op : RuleOp β} (h : w.RuleFits β op) :
    w.db.Kept t (w.db.withRules (w.db.ruleStore.serve op).2) := by
  cases op with
  | createRule id row =>
      rw [RuleStore.serve, RuleStore.createRule]
      split
      · exact .refl t w.separate
      · rename_i rules hins
        exact .createRule w.separate hins h
  | updateRule id enabled =>
      rw [RuleStore.serve, RuleStore.updateRule]
      split
      · exact .refl t w.separate
      · exact Kept.updateRule w.separate h (f := fun rule ↦ { rule with enabled }) fun _ ↦ rfl
  | deleteStates ruleId => exact .deleteStates w.separate h
  | deleteRule id =>
      rw [RuleStore.serve, RuleStore.deleteRule]
      split
      · exact .refl t w.separate
      · exact .deleteRule w.separate h
  | createAuditLog row => exact .createAuditLog w.separate h
  | _ => exact .refl t w.separate

theorem token_kept {op : TokenOp β} (h : w.TokenFits β op) :
    w.db.Kept t (w.db.withBackend (w.db.backend.serve op).2) := by
  cases op with
  | createDevice => exact h.elim
  | createToken => exact h.elim
  | markConsumed => exact h.elim
  | deleteDevice => exact h.elim
  | detachUsers => exact h.elim
  | deleteTeam => exact h.elim
  | markRevoked tokenId deviceId revokedAt audit =>
      rw [Backend.serve]
      cases hx : w.db.backend.markRevoked tokenId deviceId revokedAt audit with
      | error e => exact .refl t w.separate
      | ok x =>
          rw [Backend.markRevoked] at hx
          split at hx
          · cases hx
          · cases hx
            exact .markRevoked w.separate h.1 h.2.1 revokedAt h.2.2
  | redisSet key value seconds => exact .aside w.separate _ _ _ _
  | redisDel key => exact .aside w.separate _ _ _ _
  | dynsecSend commands => exact .aside w.separate _ _ _ _
  | createAuditLog row => exact .createAuditLog w.separate h
  | _ => exact .refl t w.separate

theorem serve_kept {op : DatabaseOp β} (h : w.Fits β op) : w.db.Kept t (w.db.serve op).2 := by
  cases op with
  | team op => exact team_kept h
  | group op => exact group_kept h
  | schedule op => exact schedule_kept h
  | deletion op =>
      cases op with
      | deleteSchedule id => exact deletion_kept h
  | rule op => exact rule_kept h
  | token op => exact token_kept h

/-- One request, whatever becomes of it. -/
theorem step {op : DatabaseOp β} (h : w.Fits β op) (f : Fate Err) : ∃ w', w ≤ w' ∧
    w'.Tells β op (databaseServer.reply f op w.db) ∧ databaseServer.after f op w.db = w'.db := by
  have hkept : w.db.Kept t (databaseServer.after f op w.db) :=
    Server.after_of (w.db.Kept t) (.refl t w.separate) (serve_kept h) f
  refine ⟨⟨_, hkept.separate⟩, hkept.frame, ?_, rfl⟩
  cases hreply : databaseServer.reply f op w.db with
  | error e => exact tells_error _ op e
  | ok a =>
      have htells : w.Tells β op (.ok a) := by
        have hserved := w.tells_serve op
        have heq : (databaseServer.serve op w.db).1 = .ok a :=
          (Server.served_of_reply_ok hreply).2
        exact heq ▸ hserved
      exact htells.later hkept.frame

end Serve

end Stage

end Zenstier
