import Zenstier.Commands.Protocol
import Zenstier.Mqtt.Acl
import Zenstier.Mqtt.Dynsec
import Zenstier.Tokens.Service

/-!
# Isolation of devices at the broker

Every enrolled device has the same role, whose topics are patterns of its user name, and the
name is the id of the device.  Broadcast groups have a role each, for their own broadcast topic.
Nothing is allowed by default.  So a device publishes on its own result and status topics, and
receives on its own command topic and on the broadcast topics of its groups, and that is all:
a generated id and the id of a group contain none of the characters that mean something in a
filter.
-/

namespace Zenstier

open Mqtt Store

/-! ## Roles -/

/-- The role for the broadcasts of a device group. -/
def broadcastRoleName (groupId : String) : String := "zenstier-bcast-" ++ groupId

/-- Both gates are closed by default. -/
def defaultAclAccess : AclType → Bool
  | .publishClientSend => false
  | .publishClientReceive => false
  | .subscribePattern => false
  | .unsubscribePattern => true

def deviceRole : List Acl :=
  [ -- Receive commands addressed to this device only.
    { acltype := .subscribePattern, topic := "zenstier/%u/command", priority := 0, allow := true },
    { acltype := .publishClientReceive, topic := "zenstier/%u/command", priority := 0
      allow := true },
    { acltype := .unsubscribePattern, topic := "zenstier/%u/command", priority := 0
      allow := true },
    -- Report results and presence for this device only.
    { acltype := .publishClientSend, topic := "zenstier/%u/result", priority := 0, allow := true },
    { acltype := .publishClientSend, topic := "zenstier/%u/status", priority := 0, allow := true },
    -- Devices may never reach the control plane or broker internals.
    { acltype := .publishClientSend, topic := "$CONTROL/#", priority := 100, allow := false },
    { acltype := .subscribePattern, topic := "$CONTROL/#", priority := 100, allow := false },
    { acltype := .subscribePattern, topic := "$SYS/#", priority := 100, allow := false }]

/-- The role that `provisionBrokerGroup` creates. -/
def broadcastRole (groupId : String) : List Acl :=
  [.subscribePattern, .publishClientReceive, .unsubscribePattern].map fun acltype ↦
    { acltype, topic := (Topic.broadcastCommand groupId).path, priority := 0, allow := true }

/-! ## The access control of the broker -/

/-- The roles, and the roles of the groups. -/
structure AccessControl where
  roles : Table String (List Acl)
  groups : Table String (List String)

/-- The control commands of the life of a device group. -/
inductive GroupCommand
  | createRole (groupId : String)
  | createGroup (groupId : String)
  | deleteGroup (groupId : String)
  | deleteRole (groupId : String)
deriving DecidableEq, Repr

/-- What `provisionBrokerGroup` sends. -/
def provisionBrokerGroup (groupId : String) : List GroupCommand :=
  [.createRole groupId, .createGroup groupId]

/-- What `deleteGroup` sends. -/
def removeBrokerGroup (groupId : String) : List GroupCommand :=
  [.deleteGroup groupId, .deleteRole groupId]

namespace AccessControl

/-- Carries out a command.  A name that is taken stays as it is, and a group needs its role;
a role that is deleted is taken from the groups. -/
def apply (a : AccessControl) : GroupCommand → AccessControl
  | .createRole groupId =>
      if (a.roles.find? (broadcastRoleName groupId)).isSome then a
      else { a with roles := a.roles.put (broadcastRoleName groupId) (broadcastRole groupId) }
  | .createGroup groupId =>
      if (a.groups.find? (broadcastGroupName groupId)).isSome then a
      else if (a.roles.find? (broadcastRoleName groupId)).isNone then a
      else { a with
        groups := a.groups.put (broadcastGroupName groupId) [broadcastRoleName groupId] }
  | .deleteGroup groupId =>
      { a with groups := a.groups.delete (broadcastGroupName groupId) }
  | .deleteRole groupId =>
      { roles := a.roles.delete (broadcastRoleName groupId)
        groups := a.groups.updateMany (fun _ _ ↦ true)
          (·.filter (· ≠ broadcastRoleName groupId)) }

/-- The broker once it has been seeded, as far as devices are concerned. -/
def seeded : AccessControl where
  roles := ⟨[(DEVICE_ROLE, deviceRole)], List.nodup_singleton _⟩
  groups := ∅

/-- The ACLs of an account: those of its own roles, then those of the roles of its groups. -/
def acls (a : AccessControl) (account : Account) : List Acl :=
  (account.roles ++ account.groups.flatMap fun g ↦ (a.groups.find? g).getD []).flatMap
    fun r ↦ (a.roles.find? r).getD []

/-- The roles and the groups are what their names say. -/
structure Provisioned (a : AccessControl) : Prop where
  device : a.roles.find? DEVICE_ROLE = some deviceRole
  role : ∀ groupId acls, a.roles.find? (broadcastRoleName groupId) = some acls →
    acls = broadcastRole groupId
  group : ∀ groupId roles, a.groups.find? (broadcastGroupName groupId) = some roles →
    ∀ r ∈ roles, r = broadcastRoleName groupId

theorem broadcastRoleName_inj {g g' : String}
    (h : broadcastRoleName g = broadcastRoleName g') : g = g' := (String.append_right_inj _).mp h

theorem broadcastGroupName_inj {g g' : String}
    (h : broadcastGroupName g = broadcastGroupName g') : g = g' := (String.append_right_inj _).mp h

theorem broadcastRoleName_ne_device (g : String) : broadcastRoleName g ≠ DEVICE_ROLE := by
  intro h
  have hchar := congrArg (fun s : String ↦ s.toList[9]?) h
  dsimp only [broadcastRoleName] at hchar
  rw [String.toList_append, List.getElem?_append_left (by decide)] at hchar
  exact absurd hchar (by decide)

theorem Provisioned.seeded : Provisioned seeded where
  device := rfl
  role groupId acls h := by
    have hname : DEVICE_ROLE = broadcastRoleName groupId := by
      have hmem := Table.find?_eq_some.mp h
      exact (Prod.mk.inj (List.mem_singleton.mp hmem)).1.symm
    exact absurd hname.symm (broadcastRoleName_ne_device groupId)
  group _ _ h := nomatch h

/-- Whatever the services send about groups, roles and groups stay what their names say. -/
theorem Provisioned.apply {a : AccessControl} (ha : a.Provisioned) (cmd : GroupCommand) :
    (a.apply cmd).Provisioned := by
  cases cmd with
  | createRole g =>
      rw [AccessControl.apply]
      split
      · exact ha
      constructor
      case device =>
        rw [Table.find?_put, if_neg (broadcastRoleName_ne_device g).symm]
        exact ha.device
      case role =>
        intro g' acls h
        rw [Table.find?_put] at h
        split at h
        · rename_i hname
          rw [broadcastRoleName_inj hname]
          exact (Option.some.inj h).symm
        · exact ha.role g' acls h
      case group => exact ha.group
  | createGroup g =>
      rw [AccessControl.apply]
      split
      · exact ha
      split
      · exact ha
      constructor
      case device => exact ha.device
      case role => exact ha.role
      case group =>
        intro g' roles h
        rw [Table.find?_put] at h
        split at h
        · rename_i hname
          obtain rfl := Option.some.inj h
          rw [broadcastGroupName_inj hname]
          exact fun r hr ↦ List.mem_singleton.mp hr
        · exact ha.group g' roles h
  | deleteGroup g =>
      constructor
      case device => exact ha.device
      case role => exact ha.role
      case group =>
        intro g' roles h
        rw [AccessControl.apply, Table.find?_delete] at h
        split at h
        · cases h
        · exact ha.group g' roles h
  | deleteRole g =>
      constructor
      case device =>
        rw [AccessControl.apply, Table.find?_delete, if_neg (broadcastRoleName_ne_device g).symm]
        exact ha.device
      case role =>
        intro g' acls h
        rw [AccessControl.apply, Table.find?_delete] at h
        split at h
        · cases h
        · exact ha.role g' acls h
      case group =>
        intro g' roles h
        rw [AccessControl.apply, Table.find?_updateMany] at h
        obtain ⟨roles', hfind, rfl⟩ := Option.map_eq_some_iff.mp h
        exact fun r hr ↦ ha.group g' roles' hfind r (List.mem_of_mem_filter hr)

theorem Provisioned.run (cmds : List GroupCommand) :
    (cmds.foldl AccessControl.apply AccessControl.seeded).Provisioned := by
  suffices h : ∀ a : AccessControl, a.Provisioned →
      (cmds.foldl AccessControl.apply a).Provisioned from h _ .seeded
  induction cmds with
  | nil => exact fun a ha ↦ ha
  | cons cmd cmds ih => exact fun a ha ↦ ih _ (ha.apply cmd)

end AccessControl

/-! ## Devices and groups -/

/-- The id of a row, as the database client makes it up (`cuid()`): lower-case letters and
digits. -/
structure Cuid where
  val : String
  alphanum : ∀ c ∈ val.toList, c.isLower ∨ c.isDigit

/-- The account that `provisionBrokerCredential` creates, with the groups that the device is
in. -/
def deviceAccount (deviceId password : String) (groups : List String) : Account where
  password
  clientid := deviceId
  roles := [DEVICE_ROLE]
  groups := groups.map broadcastGroupName

/-- The device, connected. -/
def AccessControl.client (a : AccessControl) (deviceId password : String)
    (groups : List String) : Client where
  username := deviceId
  clientid := deviceId
  acls := a.acls (deviceAccount deviceId password groups)

/-- The ACLs of a device. -/
theorem AccessControl.mem_client_acls {a : AccessControl} (ha : a.Provisioned)
    {deviceId password : String} {groups : List String} {acl : Acl}
    (h : acl ∈ (a.client deviceId password groups).acls) :
    acl ∈ deviceRole ∨ ∃ g ∈ groups, acl ∈ broadcastRole g := by
  obtain ⟨r, hr, hacl⟩ := List.mem_flatMap.mp h
  rcases List.mem_append.mp hr with hr | hr
  · obtain rfl := List.mem_singleton.mp hr
    rw [ha.device] at hacl
    exact .inl hacl
  · obtain ⟨name, hname, hr⟩ := List.mem_flatMap.mp hr
    obtain ⟨g, hg, rfl⟩ := List.mem_map.mp hname
    refine .inr ⟨g, hg, ?_⟩
    cases hgroup : a.groups.find? (broadcastGroupName g) with
    | none =>
        rw [hgroup] at hr
        cases hr
    | some roles =>
        rw [hgroup] at hr
        obtain rfl := ha.group g roles hgroup r hr
        cases hrole : a.roles.find? (broadcastRoleName g) with
        | none =>
            rw [hrole] at hacl
            cases hacl
        | some acls =>
            rw [hrole] at hacl
            exact ha.role g acls hrole ▸ hacl

theorem AccessControl.deviceRole_subset {a : AccessControl} (ha : a.Provisioned)
    (deviceId password : String) (groups : List String) {acl : Acl} (h : acl ∈ deviceRole) :
    acl ∈ (a.client deviceId password groups).acls := by
  refine List.mem_flatMap.mpr ⟨DEVICE_ROLE, List.mem_append_left _ List.mem_cons_self, ?_⟩
  rw [ha.device]
  exact h

/-! ## Ids mean nothing in a filter -/

/-- A string without the characters that mean something in a filter or a pattern. -/
def Plain (s : String) : Prop := ∀ c ∈ s.toList, c ∉ ['/', '+', '#', '%']

theorem plain_of_alphanum {s : String}
    (h : ∀ c ∈ s.toList, c.isLower ∨ c.isDigit ∨ c = '-') : Plain s := by
  intro c hc hmem
  have hplain := h c hc
  simp only [List.mem_cons, List.not_mem_nil, or_false] at hmem
  rcases hmem with rfl | rfl | rfl | rfl <;> exact absurd hplain (by decide)

theorem Cuid.plain (g : Cuid) : Plain g.val :=
  plain_of_alphanum fun c hc ↦ (g.alphanum c hc).imp id .inl

theorem b64Char_toLower (n : Nat) :
    (b64Char n).toLower.isLower ∨ (b64Char n).toLower.isDigit ∨ b64Char n ∈ ['-', '_'] := by
  by_cases h : n < 62
  · have hall : ∀ n : Fin 62, (b64Char n).toLower.isLower ∨ (b64Char n).toLower.isDigit := by
      decide
    exact (hall ⟨n, h⟩).imp id .inl
  · refine .inr (.inr ?_)
    rw [b64Char, if_neg (by omega), if_neg (by omega), if_neg h]
    split <;> decide

theorem exists_of_mem_b64Chars {bytes : List UInt8} {c : Char} (h : c ∈ b64Chars bytes) :
    ∃ n, c = b64Char n := by
  induction bytes using b64Chars.induct with
  | case1 a b d rest ih =>
      rw [b64Chars] at h
      simp only [List.mem_cons] at h
      rcases h with h | h | h | h | h
      · exact ⟨_, h⟩
      · exact ⟨_, h⟩
      · exact ⟨_, h⟩
      · exact ⟨_, h⟩
      · exact ih h
  | case2 a b =>
      simp only [b64Chars, List.mem_cons, List.not_mem_nil, or_false] at h
      rcases h with h | h | h <;> exact ⟨_, h⟩
  | case3 a =>
      simp only [b64Chars, List.mem_cons, List.not_mem_nil, or_false] at h
      rcases h with h | h <;> exact ⟨_, h⟩
  | case4 => cases h

/-- A generated device id is one level of a topic. -/
theorem generateDeviceId_plain (bytes : List UInt8) : Plain (generateDeviceId bytes) := by
  refine plain_of_alphanum fun c hc ↦ ?_
  rw [generateDeviceId, String.toList_append] at hc
  rcases List.mem_append.mp hc with hc | hc
  · have hdev : "dev-".toList = ['d', 'e', 'v', '-'] := by decide
    rw [hdev] at hc
    simp only [List.mem_cons, List.not_mem_nil, or_false] at hc
    rcases hc with rfl | rfl | rfl | rfl <;> decide
  · rw [toLowerCase, String.toList_ofList, String.toList_ofList] at hc
    obtain ⟨d, hd, rfl⟩ := List.mem_map.mp hc
    obtain ⟨hd, hkeep⟩ := List.mem_filter.mp hd
    rw [b64url, String.toList_ofList] at hd
    obtain ⟨n, rfl⟩ := exists_of_mem_b64Chars hd
    rcases b64Char_toLower n with h | h | h
    · exact .inl h
    · exact .inr (.inl h)
    · have hne := of_decide_eq_true hkeep
      simp only [List.mem_cons, List.not_mem_nil, or_false] at h
      exact absurd h (not_or.mpr hne)

theorem literal_path {a s b : String} (ha : Literal a) (hs : Plain s) (hb : Literal b) :
    Literal (a ++ s ++ b) := by
  constructor
  · rw [String.toList_append, String.toList_append, List.mem_append, List.mem_append]
    rintro ((h | h) | h)
    · exact ha.1 h
    · exact hs '+' h (by decide)
    · exact hb.1 h
  · rw [String.toList_append, String.toList_append, List.mem_append, List.mem_append]
    rintro ((h | h) | h)
    · exact ha.2 h
    · exact hs '#' h (by decide)
    · exact hb.2 h

theorem literal_of_decide {s : String} (h : '+' ∉ s.toList ∧ '#' ∉ s.toList) : Literal s := h

theorem literal_command {u : String} (h : Plain u) : Literal (Topic.command u).path :=
  literal_path (literal_of_decide (by decide)) h (literal_of_decide (by decide))

theorem literal_broadcast {g : String} (h : Plain g) : Literal (Topic.broadcastCommand g).path :=
  literal_path (literal_of_decide (by decide)) h (literal_of_decide (by decide))

theorem ReportTopic.literal_path (topic : ReportTopic) {u : String} (h : Plain u) :
    Literal (topic.path u) := by
  cases topic with
  | status =>
      exact Zenstier.literal_path (literal_of_decide (by decide)) h (literal_of_decide (by decide))
  | result =>
      exact Zenstier.literal_path (literal_of_decide (by decide)) h (literal_of_decide (by decide))

/-! ## The patterns of the roles -/

section Patterns

variable (c : Client)

theorem pattern_command : c.pattern "zenstier/%u/command" = (Topic.command c.username).path := by
  have hsplit : "zenstier/%u/command" = "zenstier/" ++ "%u" ++ "/command" := by decide
  rw [hsplit, c.pattern_username (by decide) (by decide)]
  rfl

/-- The topics that a device may publish to, as its role has them. -/
def ReportTopic.pattern : ReportTopic → String
  | .status => "zenstier/%u/status"
  | .result => "zenstier/%u/result"

theorem pattern_report (topic : ReportTopic) :
    c.pattern topic.pattern = topic.path c.username := by
  have hstatus : "zenstier/%u/status" = "zenstier/" ++ "%u" ++ "/status" := by decide
  have hresult : "zenstier/%u/result" = "zenstier/" ++ "%u" ++ "/result" := by decide
  cases topic with
  | status =>
      rw [ReportTopic.pattern, hstatus, c.pattern_username (by decide) (by decide)]
      rfl
  | result =>
      rw [ReportTopic.pattern, hresult, c.pattern_username (by decide) (by decide)]
      rfl

theorem pattern_broadcast {g : String} (hg : Plain g) :
    c.pattern (Topic.broadcastCommand g).path = (Topic.broadcastCommand g).path := by
  have hpct : ∀ {a b : String}, '%' ∉ a.toList → '%' ∉ b.toList → '%' ∉ (a ++ g ++ b).toList := by
    intro a b ha hb
    rw [String.toList_append, String.toList_append, List.mem_append, List.mem_append]
    rintro ((h | h) | h)
    · exact ha h
    · exact hg '%' h (by decide)
    · exact hb h
  exact c.pattern_of_notMem (hpct (by decide) (by decide))

end Patterns

theorem deviceRole_send : ∀ acl ∈ deviceRole, acl.acltype = .publishClientSend →
    acl.allow = true → acl.topic = ReportTopic.result.pattern ∨
      acl.topic = ReportTopic.status.pattern := by decide

theorem deviceRole_receive : ∀ acl ∈ deviceRole, acl.acltype = .publishClientReceive →
    acl.topic = "zenstier/%u/command" ∧ acl.allow = true := by decide

/-- What the role of a device forbids is reserved to the broker. -/
theorem deviceRole_forbidden : ∀ acl ∈ deviceRole, acl.allow = false →
    '%' ∉ acl.topic.toList ∧ isReserved acl.topic = true := by decide

theorem mem_broadcastRole {g : String} {acl : Acl} (h : acl ∈ broadcastRole g) :
    acl.acltype ≠ .publishClientSend ∧ acl.topic = (Topic.broadcastCommand g).path ∧
      acl.allow = true := by
  obtain ⟨acltype, htype, rfl⟩ := List.mem_map.mp h
  refine ⟨?_, rfl, rfl⟩
  rintro rfl
  exact absurd htype (by decide)

/-! ## Verdicts -/

section Verdicts

variable {a : AccessControl} {u password : String} {groups : List String}

/-- An ACL that applies to a topic under `zenstier/` forbids nothing. -/
theorem allow_of_applies (ha : a.Provisioned) {acl : Acl}
    (hacl : acl ∈ (a.client u password groups).acls) {applies : String → Bool}
    (h : ∀ pattern, isReserved pattern = true → applies pattern = false)
    (happlies : applies ((a.client u password groups).pattern acl.topic) = true) :
    acl.allow = true := by
  rcases AccessControl.mem_client_acls ha hacl with hmem | ⟨g, -, hmem⟩
  · by_contra hallow
    obtain ⟨hpct, hreserved⟩ := deviceRole_forbidden acl hmem (Bool.eq_false_iff.mpr hallow)
    rw [Client.pattern_of_notMem _ hpct, h _ hreserved] at happlies
    cases happlies
  · exact (mem_broadcastRole hmem).2.2

/-- What an ACL of the device says is so, under `zenstier/`. -/
theorem decides_of_mem (ha : a.Provisioned) {acl : Acl} {applies : String → Bool}
    (h : ∀ pattern, isReserved pattern = true → applies pattern = false)
    (hacl : acl ∈ (a.client u password groups).acls)
    (happlies : applies ((a.client u password groups).pattern acl.topic) = true) :
    (a.client u password groups).decides defaultAclAccess acl.acltype applies = true :=
  Client.decides_of_exists (fun _ hb _ hmatch ↦ allow_of_applies ha hb h hmatch) hacl rfl happlies

/-- A topic under `zenstier/` is matched by no pattern that is reserved to the broker. -/
theorem isReserved_path (u b : String) : isReserved ("zenstier/" ++ u ++ b) = false := by
  have hlist : ("zenstier/" ++ u ++ b).toList =
      'z' :: ("enstier/".toList ++ u.toList ++ b.toList) := by
    rw [String.toList_append, String.toList_append]
    rfl
  rw [isReserved, hlist]
  rfl

/-- A device publishes on its result and status topics only. -/
theorem mayPublish_iff (ha : a.Provisioned) (hu : Plain u) (t : String) :
    (a.client u password groups).mayPublish defaultAclAccess t ↔
      t = ReportTopic.result.path u ∨ t = ReportTopic.status.path u := by
  constructor
  · intro h
    obtain ⟨acl, hacl, htype, hallow, hmatch⟩ := Client.exists_of_decides rfl h
    rcases AccessControl.mem_client_acls ha hacl with hmem | ⟨g, -, hmem⟩
    · rcases deviceRole_send acl hmem htype hallow with htopic | htopic
      · rw [htopic, pattern_report] at hmatch
        exact .inl ((matchTopic_literal (ReportTopic.literal_path .result hu) t).mp hmatch)
      · rw [htopic, pattern_report] at hmatch
        exact .inr ((matchTopic_literal (ReportTopic.literal_path .status hu) t).mp hmatch)
    · exact absurd htype (mem_broadcastRole hmem).1
  · intro h
    obtain ⟨topic, rfl⟩ : ∃ topic : ReportTopic, t = topic.path u := by
      rcases h with rfl | rfl
      · exact ⟨.result, rfl⟩
      · exact ⟨.status, rfl⟩
    have hmem : ({ acltype := .publishClientSend, topic := topic.pattern, priority := 0
                   allow := true } : Acl) ∈ deviceRole := by
      cases topic <;> decide
    have hacl := AccessControl.deviceRole_subset ha u password groups hmem
    refine decides_of_mem ha ?_ hacl ?_
    · intro pattern hreserved
      have htopic : isReserved (topic.path u) = false := by
        cases topic <;> exact isReserved_path u _
      rw [matchTopic, hreserved, htopic]
      rfl
    · rw [pattern_report]
      exact (matchTopic_literal (topic.literal_path hu) _).mpr rfl

/-- A device receives on its command topic and the broadcast topics of its groups only. -/
theorem eq_of_mayReceive (ha : a.Provisioned) (hu : Plain u) (hgroups : ∀ g ∈ groups, Plain g)
    {t : String} (h : (a.client u password groups).mayReceive defaultAclAccess t) :
    t = (Topic.command u).path ∨ ∃ g ∈ groups, t = (Topic.broadcastCommand g).path := by
  obtain ⟨acl, hacl, htype, -, hmatch⟩ := Client.exists_of_decides rfl h.1
  rcases AccessControl.mem_client_acls ha hacl with hmem | ⟨g, hg, hmem⟩
  · rw [(deviceRole_receive acl hmem htype).1, pattern_command] at hmatch
    exact .inl ((matchTopic_literal (literal_command hu) t).mp hmatch)
  · rw [(mem_broadcastRole hmem).2.1, pattern_broadcast _ (hgroups g hg)] at hmatch
    have hliteral := literal_broadcast (hgroups g hg)
    exact .inr ⟨g, hg, (matchTopic_literal hliteral t).mp hmatch⟩

/-- The commands for a device reach it. -/
theorem mayReceive_command (ha : a.Provisioned) (hu : Plain u) :
    (a.client u password groups).mayReceive defaultAclAccess (Topic.command u).path := by
  have htopic : isReserved (Topic.command u).path = false := isReserved_path u _
  have hself : matchTopic (Topic.command u).path (Topic.command u).path = true :=
    (matchTopic_literal (literal_command hu) _).mpr rfl
  have hmem : ∀ acltype ∈ [AclType.publishClientReceive, .subscribePattern],
      ({ acltype, topic := "zenstier/%u/command", priority := 0, allow := true } : Acl) ∈
        (a.client u password groups).acls := by
    intro acltype htype
    refine AccessControl.deviceRole_subset ha u password groups ?_
    revert acltype
    decide
  constructor
  · refine decides_of_mem ha ?_ (hmem .publishClientReceive (by decide)) ?_
    · intro pattern hreserved
      rw [matchTopic, hreserved, htopic]
      rfl
    · rw [pattern_command]
      exact hself
  · refine ⟨(Topic.command u).path, decides_of_mem ha ?_ (hmem .subscribePattern (by decide)) ?_,
      hself⟩
    · intro pattern hreserved
      rw [covers, hreserved, htopic]
      rfl
    · rw [pattern_command]
      exact covers_self _

end Verdicts

/-! ## Isolation -/

theorem getLast?_append (a b : String) (hb : b.toList ≠ []) :
    (a ++ b).toList.getLast? = b.toList.getLast? := by
  rw [String.toList_append, List.getLast?_append_of_ne_nil _ hb]

theorem Topic.path_ne_report (topic : Topic) (report : ReportTopic) (v : String) :
    topic.path ≠ report.path v := by
  intro h
  have hcommand : topic.path.toList.getLast? = some 'd' := by
    cases topic <;> exact getLast?_append _ "/command" (by decide)
  have hreport : (report.path v).toList.getLast? ≠ some 'd' := by
    cases report with
    | status =>
        rw [ReportTopic.path, getLast?_append _ "/status" (by decide)]
        decide
    | result =>
        rw [ReportTopic.path, getLast?_append _ "/result" (by decide)]
        decide
  exact hreport (h ▸ hcommand)

/-- What a device may do at the broker, whatever groups have come and gone there: it publishes
on its own result and status topics, and receives on its own command topic and on the
broadcast topics of its groups.  It can send no commands, and it sees nothing of other
devices. -/
theorem devices_isolated (cmds : List GroupCommand) (bytes : List UInt8) (password : String)
    (groups : List Cuid) (t : String) :
    let u := generateDeviceId bytes
    let c := (cmds.foldl AccessControl.apply .seeded).client u password (groups.map (·.val))
    (c.mayPublish defaultAclAccess t ↔
      t = ReportTopic.result.path u ∨ t = ReportTopic.status.path u) ∧
    (c.mayReceive defaultAclAccess t →
      t = (Topic.command u).path ∨ ∃ g ∈ groups, t = (Topic.broadcastCommand g.val).path) ∧
    (∀ topic : Topic, ¬ c.mayPublish defaultAclAccess topic.path) ∧
    (∀ bytes', generateDeviceId bytes' ≠ u →
      ¬ c.mayReceive defaultAclAccess (Topic.command (generateDeviceId bytes')).path) ∧
    ∀ (report : ReportTopic) (v : String), ¬ c.mayReceive defaultAclAccess (report.path v) := by
  intro u c
  have ha := AccessControl.Provisioned.run cmds
  have hu : Plain u := generateDeviceId_plain bytes
  have hpublish : ∀ t, c.mayPublish defaultAclAccess t ↔
      t = ReportTopic.result.path u ∨ t = ReportTopic.status.path u := mayPublish_iff ha hu
  have hreceive : ∀ {t}, c.mayReceive defaultAclAccess t →
      t = (Topic.command u).path ∨ ∃ g ∈ groups, t = (Topic.broadcastCommand g.val).path := by
    intro t h
    have hgroups : ∀ g ∈ groups.map (·.val), Plain g := by
      intro g hg
      obtain ⟨g, -, rfl⟩ := List.mem_map.mp hg
      exact g.plain
    refine (eq_of_mayReceive ha hu hgroups h).imp id ?_
    rintro ⟨id, hid, rfl⟩
    obtain ⟨g, hg, rfl⟩ := List.mem_map.mp hid
    exact ⟨g, hg, rfl⟩
  refine ⟨hpublish t, hreceive, ?_, ?_, ?_⟩
  · intro topic h
    rcases (hpublish _).mp h with h | h
    · exact topic.path_ne_report .result u h
    · exact topic.path_ne_report .status u h
  · intro bytes' hne h
    rcases hreceive h with h | ⟨g, -, h⟩
    · exact hne (Topic.command_path_inj h)
    · have hslash : '/' ∈ (generateDeviceId bytes').toList := by
        rw [Topic.command_path_eq_broadcast.mp h, String.toList_append, List.mem_append]
        exact .inl (by decide)
      exact generateDeviceId_plain bytes' '/' hslash (by decide)
  · intro report v h
    rcases hreceive h with h | ⟨g, -, h⟩
    · exact (Topic.command u).path_ne_report report v h.symm
    · exact (Topic.broadcastCommand g.val).path_ne_report report v h.symm

end Zenstier
