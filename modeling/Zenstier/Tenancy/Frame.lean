import Zenstier.Store.Owner
import Zenstier.Tenancy.Database

/-!
# Rows of a team

What a request on behalf of a team has to keep: the rows of all other teams, and that no foreign key
crosses teams.  A row is rewritten or deleted by its id only, so the id has to be that of a row of
the team; and a row that names another one has to name one of its own team.  What goes with a row
(the invites of a role, the states of a rule, the members of a group) is the team's as well.
-/

namespace Zenstier

open Store Store.Table

namespace Database

/-! ## What is to be kept -/

/-- No foreign key crosses teams. -/
structure Separate (s : Database) : Prop where
  devices : Refers Device.teamId DeviceGroup.teamId (fun _ d ↦ d.groupId) s.devices s.deviceGroups
  schedules : Refers Schedule.teamId DeviceGroup.teamId (fun _ r ↦ r.groupId)
    s.schedules s.deviceGroups
  members : Refers TeamMember.teamId Role.teamId (fun _ m ↦ some m.roleId) s.members s.roles
  invites : Refers TeamInvite.teamId Role.teamId (fun _ i ↦ some i.roleId) s.invites s.roles
  tokens : Refers AuthToken.teamId Device.teamId (fun _ t ↦ t.deviceId) s.tokens s.devices
  /-- A state belongs to the team of its rule. -/
  states : ∀ key state, s.states.find? key = some state → ∃ rule device,
    s.rules.find? key.1 = some rule ∧ s.devices.find? key.2 = some device ∧
      device.teamId = rule.teamId

/-- No row of another team is created, modified or deleted. -/
structure Frame (t : String) (s s' : Database) : Prop where
  teams : s'.teams = s.teams
  roles : Untouched Role.teamId t s.roles s'.roles
  members : Untouched TeamMember.teamId t s.members s'.members
  invites : Untouched TeamInvite.teamId t s.invites s'.invites
  deviceGroups : Untouched DeviceGroup.teamId t s.deviceGroups s'.deviceGroups
  devices : Untouched Device.teamId t s.devices s'.devices
  schedules : Untouched Schedule.teamId t s.schedules s'.schedules
  rules : Untouched AlertRule.teamId t s.rules s'.rules
  states : ∀ key rule, s.rules.find? key.1 = some rule → rule.teamId ≠ t →
    s'.states.find? key = s.states.find? key
  tokens : Untouched AuthToken.teamId t s.tokens s'.tokens
  auditLogs : s'.auditLogs.filter (fun l ↦ l.teamId ≠ some t) =
    s.auditLogs.filter fun l ↦ l.teamId ≠ some t

variable {t : String} {s s' s'' : Database}

theorem Frame.refl (t : String) (s : Database) : s.Frame t s where
  teams := rfl
  roles _ _ _ := Iff.rfl
  members _ _ _ := Iff.rfl
  invites _ _ _ := Iff.rfl
  deviceGroups _ _ _ := Iff.rfl
  devices _ _ _ := Iff.rfl
  schedules _ _ _ := Iff.rfl
  rules _ _ _ := Iff.rfl
  states _ _ _ _ := rfl
  tokens _ _ _ := Iff.rfl
  auditLogs := rfl

theorem Frame.trans (h : s.Frame t s') (h' : s'.Frame t s'') : s.Frame t s'' where
  teams := h'.teams.trans h.teams
  roles := h.roles.trans h'.roles
  members := h.members.trans h'.members
  invites := h.invites.trans h'.invites
  deviceGroups := h.deviceGroups.trans h'.deviceGroups
  devices := h.devices.trans h'.devices
  schedules := h.schedules.trans h'.schedules
  rules := h.rules.trans h'.rules
  states key rule hrule hne := by
    have hrule' : s'.rules.find? key.1 = some rule := (h.rules key.1 rule hne).mpr hrule
    exact (h'.states key rule hrule' hne).trans (h.states key rule hrule hne)
  tokens := h.tokens.trans h'.tokens
  auditLogs := h'.auditLogs.trans h.auditLogs

/-- A state of which no row of another team differs, and in which no foreign key crosses teams. -/
structure Kept (t : String) (s s' : Database) : Prop where
  frame : s.Frame t s'
  separate : s'.Separate

theorem Kept.refl (t : String) (h : s.Separate) : s.Kept t s := ⟨.refl t s, h⟩

/-- What no table of a team has a part in. -/
theorem Kept.aside (h : s.Separate) (clock : Int) (users : Table String User)
    (redis : Table String RedisEntry) (broker : Broker) :
    s.Kept t { s with clock, users, redis, broker } :=
  ⟨{ Frame.refl t s with }, { h with }⟩

theorem Kept.createAuditLog (h : s.Separate) {row : AuditLog} (hrow : row.teamId = some t) :
    s.Kept t { s with auditLogs := s.auditLogs ++ [row] } := by
  refine ⟨{ Frame.refl t s with auditLogs := ?_ }, { h with }⟩
  rw [List.filter_append, List.filter_singleton, hrow]
  simp

/-! ## Roles, members and invites -/

section Teams

variable {id roleId : String}

theorem Kept.createRole (h : s.Separate) {row : Role} {roles : Table String Role}
    (hins : s.roles.insert id row = some roles) (hrow : row.teamId = t) :
    s.Kept t { s with roles } where
  frame := { Frame.refl t s with roles := Untouched.insert hins hrow }
  separate :=
    { h with
      members := h.members.target_insert hins
      invites := h.invites.target_insert hins }

theorem Kept.updateRole (h : s.Separate) (hid : Owned Role.teamId t s.roles id) {f : Role → Role}
    (hf : ∀ role, (f role).teamId = role.teamId) :
    s.Kept t { s with roles := s.roles.update id f } where
  frame := { Frame.refl t s with roles := Untouched.update hid fun role _ ↦ hf role }
  separate :=
    { h with
      members := h.members.target_updateMany hf
      invites := h.invites.target_updateMany hf }

/-- No member is left without a role, and the invites that go with it are the team's. -/
theorem Kept.deleteRole (h : s.Separate) (hid : Owned Role.teamId t s.roles id)
    (hcount : ∀ k m, s.members.find? k = some m → m.roleId ≠ id) :
    s.Kept t { s with
      roles := s.roles.delete id
      invites := s.invites.deleteMany fun _ inv ↦ inv.roleId = id } where
  frame :=
    { Frame.refl t s with
      roles := Untouched.delete hid
      invites := by simpa only [Option.some.injEq] using Untouched.cascade h.invites hid }
  separate :=
    { h with
      members := h.members.target_delete fun k m hm ↦ by simpa using hcount k m hm
      invites := by simpa only [Option.some.injEq] using h.invites.cascade }

/-- A member gets a role of their own team. -/
theorem Kept.updateMember (h : s.Separate) (hid : Owned TeamMember.teamId t s.members id)
    (hrole : Owned Role.teamId t s.roles roleId) {role : Role}
    (hfind : s.roles.find? roleId = some role) :
    s.Kept t { s with members := s.members.update id ({ · with roleId }) } where
  frame := { Frame.refl t s with members := Untouched.update hid fun _ _ ↦ rfl }
  separate :=
    { h with
      members := by
        refine h.members.update fun m hm l hl ↦ ?_
        cases hl
        exact ⟨role, hfind, (hrole role hfind).trans (hid m hm).symm⟩ }

theorem Kept.deleteMember (h : s.Separate) (hid : Owned TeamMember.teamId t s.members id) :
    s.Kept t { s with members := s.members.delete id } where
  frame := { Frame.refl t s with members := Untouched.delete hid }
  separate := { h with members := h.members.deleteMany _ }

theorem Kept.createInvite (h : s.Separate) {row : TeamInvite} {invites : Table String TeamInvite}
    (hins : s.invites.insert id row = some invites) (hrow : row.teamId = t)
    (hrole : Owned Role.teamId t s.roles row.roleId) {role : Role}
    (hfind : s.roles.find? row.roleId = some role) : s.Kept t { s with invites } where
  frame := { Frame.refl t s with invites := Untouched.insert hins hrow }
  separate :=
    { h with
      invites := by
        refine h.invites.insert hins fun l hl ↦ ?_
        cases hl
        exact ⟨role, hfind, (hrole role hfind).trans hrow.symm⟩ }

/-- An invite is overwritten with one of the same team, or keeps its role. -/
theorem Kept.updateInvite (h : s.Separate) (hid : Owned TeamInvite.teamId t s.invites id)
    {f : TeamInvite → TeamInvite} (hf : ∀ inv, (f inv).teamId = inv.teamId)
    (hrole : ∀ inv, (f inv).roleId = inv.roleId ∨ ∃ role,
      s.roles.find? (f inv).roleId = some role ∧ role.teamId = t) :
    s.Kept t { s with invites := s.invites.update id f } where
  frame := { Frame.refl t s with invites := Untouched.update hid fun inv _ ↦ hf inv }
  separate :=
    { h with
      invites := by
        refine h.invites.update fun inv hinv l hl ↦ ?_
        cases hl
        rw [hf inv]
        rcases hrole inv with hsame | ⟨role, hfind, hteam⟩
        · exact hsame ▸ h.invites id inv hinv inv.roleId rfl
        · exact ⟨role, hfind, hteam.trans (hid inv hinv).symm⟩ }

end Teams

/-! ## Groups, devices and schedules -/

section Groups

variable {id : String}

theorem Kept.createGroup (h : s.Separate) {row : DeviceGroup}
    {deviceGroups : Table String DeviceGroup}
    (hins : s.deviceGroups.insert id row = some deviceGroups) (hrow : row.teamId = t) :
    s.Kept t { s with deviceGroups } where
  frame := { Frame.refl t s with deviceGroups := Untouched.insert hins hrow }
  separate :=
    { h with
      devices := h.devices.target_insert hins
      schedules := h.schedules.target_insert hins }

theorem Kept.updateGroup (h : s.Separate) (hid : Owned DeviceGroup.teamId t s.deviceGroups id)
    {f : DeviceGroup → DeviceGroup} (hf : ∀ g, (f g).teamId = g.teamId) :
    s.Kept t { s with deviceGroups := s.deviceGroups.update id f } where
  frame := { Frame.refl t s with deviceGroups := Untouched.update hid fun g _ ↦ hf g }
  separate :=
    { h with
      devices := h.devices.target_updateMany hf
      schedules := h.schedules.target_updateMany hf }

/-- A device that is rewritten still names the team of its states. -/
theorem Separate.states_updateMany (h : s.Separate) (p : String → Device → Bool)
    {f : Device → Device} (hf : ∀ d, (f d).teamId = d.teamId) (key : String × String)
    (state : AlertRuleState) (hstate : s.states.find? key = some state) : ∃ rule device,
      s.rules.find? key.1 = some rule ∧ (s.devices.updateMany p f).find? key.2 = some device ∧
        device.teamId = rule.teamId := by
  obtain ⟨rule, device, hrule, hdevice, hteam⟩ := h.states key state hstate
  refine ⟨rule, if p key.2 device then f device else device, hrule, ?_, ?_⟩
  · rw [find?_updateMany, hdevice, Option.map_some]
  · split
    · exact (hf device).trans hteam
    · exact hteam

/-- The devices and the schedules that are left without the group are the team's. -/
theorem Kept.deleteGroup (h : s.Separate) (hid : Owned DeviceGroup.teamId t s.deviceGroups id) :
    s.Kept t { s with
      deviceGroups := s.deviceGroups.delete id
      devices := s.devices.updateMany (fun _ d ↦ d.groupId = some id) ({ · with groupId := none })
      schedules := s.schedules.updateMany (fun _ r ↦ r.groupId = some id)
        ({ · with groupId := none }) } where
  frame :=
    { Frame.refl t s with
      deviceGroups := Untouched.delete hid
      devices := Untouched.unlink h.devices hid fun _ ↦ rfl
      schedules := Untouched.unlink h.schedules hid fun _ ↦ rfl }
  separate :=
    { h with
      devices := h.devices.unlink fun _ _ ↦ rfl
      schedules := h.schedules.unlink fun _ _ ↦ rfl
      tokens := h.tokens.target_updateMany fun _ ↦ rfl
      states := h.states_updateMany _ fun _ ↦ rfl }

/-- A device is moved within its own team. -/
theorem Kept.updateDevice (h : s.Separate) (hid : Owned Device.teamId t s.devices id)
    {groupId : Option String}
    (hgroup : ∀ g ∈ groupId, ∃ group, s.deviceGroups.find? g = some group ∧ group.teamId = t) :
    s.Kept t { s with devices := s.devices.update id ({ · with groupId }) } where
  frame := { Frame.refl t s with devices := Untouched.update hid fun _ _ ↦ rfl }
  separate :=
    { h with
      devices := by
        refine h.devices.update fun d hd l hl ↦ ?_
        obtain ⟨group, hfind, hteam⟩ := hgroup l hl
        exact ⟨group, hfind, hteam.trans (hid d hd).symm⟩
      tokens := h.tokens.target_updateMany fun _ ↦ rfl
      states := h.states_updateMany _ fun _ ↦ rfl }

theorem Kept.createSchedule (h : s.Separate) {row : Schedule} {schedules : Table String Schedule}
    (hins : s.schedules.insert id row = some schedules) (hrow : row.teamId = t)
    (hgroup : ∀ g ∈ row.groupId, ∃ group,
      s.deviceGroups.find? g = some group ∧ group.teamId = t) :
    s.Kept t { s with schedules } where
  frame := { Frame.refl t s with schedules := Untouched.insert hins hrow }
  separate :=
    { h with
      schedules := by
        refine h.schedules.insert hins fun l hl ↦ ?_
        obtain ⟨group, hfind, hteam⟩ := hgroup l hl
        exact ⟨group, hfind, hteam.trans hrow.symm⟩ }

/-- A schedule keeps its group and its team. -/
theorem Kept.updateSchedule (h : s.Separate) (hid : Owned Schedule.teamId t s.schedules id)
    {f : Schedule → Schedule}
    (hf : ∀ r, (f r).teamId = r.teamId ∧ (f r).groupId = r.groupId) :
    s.Kept t { s with schedules := s.schedules.update id f } where
  frame := { Frame.refl t s with schedules := Untouched.update hid fun r _ ↦ (hf r).1 }
  separate :=
    { h with
      schedules := by
        refine h.schedules.update fun r hr l hl ↦ ?_
        rw [(hf r).2] at hl
        rw [(hf r).1]
        exact h.schedules id r hr l hl }

theorem Kept.deleteSchedule (h : s.Separate) (hid : Owned Schedule.teamId t s.schedules id) :
    s.Kept t { s with schedules := s.schedules.delete id } where
  frame := { Frame.refl t s with schedules := Untouched.delete hid }
  separate := { h with schedules := h.schedules.deleteMany _ }

end Groups

/-! ## Rules and their states -/

section Rules

variable {id : String}

theorem Kept.createRule (h : s.Separate) {row : AlertRule} {rules : Table String AlertRule}
    (hins : s.rules.insert id row = some rules) (hrow : row.teamId = t) :
    s.Kept t { s with rules } where
  frame := { Frame.refl t s with rules := Untouched.insert hins hrow }
  separate :=
    { h with
      states := by
        intro key state hstate
        obtain ⟨rule, device, hrule, hdevice, hteam⟩ := h.states key state hstate
        exact ⟨rule, device, find?_of_insert hins hrule, hdevice, hteam⟩ }

theorem Kept.updateRule (h : s.Separate) (hid : Owned AlertRule.teamId t s.rules id)
    {f : AlertRule → AlertRule} (hf : ∀ rule, (f rule).teamId = rule.teamId) :
    s.Kept t { s with rules := s.rules.update id f } where
  frame := { Frame.refl t s with rules := Untouched.update hid fun rule _ ↦ hf rule }
  separate :=
    { h with
      states := by
        intro key state hstate
        obtain ⟨rule, device, hrule, hdevice, hteam⟩ := h.states key state hstate
        refine ⟨if key.1 = id then f rule else rule, device, ?_, hdevice, ?_⟩
        · rw [find?_update, hrule]
          split <;> rfl
        · split
          · exact hteam.trans (hf rule).symm
          · exact hteam }

/-- The states of a rule of the team, and no others, are deleted. -/
theorem Frame.states_deleteMany (hid : Owned AlertRule.teamId t s.rules id)
    (key : String × String) (rule : AlertRule) (hrule : s.rules.find? key.1 = some rule)
    (hne : rule.teamId ≠ t) :
    (s.states.deleteMany fun key _ ↦ key.1 = id).find? key = s.states.find? key := by
  have hkey : key.1 ≠ id := fun heq ↦ hne (hid rule (heq ▸ hrule))
  rw [find?_deleteMany]
  cases s.states.find? key with
  | none => rfl
  | some state => rw [Option.filter_some, if_pos (by simpa using hkey)]

theorem Kept.deleteStates (h : s.Separate) (hid : Owned AlertRule.teamId t s.rules id) :
    s.Kept t { s with states := s.states.deleteMany fun key _ ↦ key.1 = id } where
  frame := { Frame.refl t s with states := Frame.states_deleteMany hid }
  separate :=
    { h with
      states := by
        intro key state hstate
        rw [find?_deleteMany, Option.filter_eq_some_iff] at hstate
        exact h.states key state hstate.1 }

theorem Kept.deleteRule (h : s.Separate) (hid : Owned AlertRule.teamId t s.rules id) :
    s.Kept t { s with
      rules := s.rules.delete id
      states := s.states.deleteMany fun key _ ↦ key.1 = id } where
  frame :=
    { Frame.refl t s with
      rules := Untouched.delete hid
      states := Frame.states_deleteMany hid }
  separate :=
    { h with
      states := by
        intro key state hstate
        rw [find?_deleteMany, Option.filter_eq_some_iff] at hstate
        obtain ⟨rule, device, hrule, hdevice, hteam⟩ := h.states key state hstate.1
        refine ⟨rule, device, ?_, hdevice, hteam⟩
        rw [find?_delete, if_neg (by simpa using hstate.2)]
        exact hrule }

end Rules

/-! ## Tokens -/

/-- A token is marked together with its device. -/
theorem Kept.markRevoked (h : s.Separate) {tokenId : String} {deviceId : Option String}
    (hid : Owned AuthToken.teamId t s.tokens tokenId)
    (hdevice : ∀ d ∈ deviceId, Owned Device.teamId t s.devices d) (revokedAt : Int)
    {row : AuditLog} (hrow : row.teamId = some t) :
    s.Kept t { s with
      tokens := s.tokens.update tokenId fun token ↦
        { token with status := .revoked, revokedAt := some revokedAt }
      devices := s.devices.updateMany (fun k _ ↦ some k = deviceId) fun d ↦
        { d with status := .offline }
      auditLogs := s.auditLogs ++ [row] } where
  frame :=
    { Frame.refl t s with
      tokens := Untouched.update hid fun _ _ ↦ rfl
      devices := by
        refine Untouched.updateMany fun k d hd hk ↦ ?_
        have hteam : d.teamId = t := hdevice k (by simpa using (of_decide_eq_true hk).symm) d hd
        exact ⟨hteam, hteam⟩
      auditLogs := (Kept.createAuditLog h hrow).frame.auditLogs }
  separate :=
    { h with
      devices := h.devices.updateMany fun k d hd _ ↦ h.devices k d hd
      tokens := by
        refine (h.tokens.update fun token htoken ↦ ?_).target_updateMany fun _ ↦ rfl
        exact h.tokens tokenId token htoken
      states := h.states_updateMany _ fun _ ↦ rfl }

end Database

end Zenstier
