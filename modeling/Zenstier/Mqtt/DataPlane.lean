import Zenstier.Mqtt.Accounts

/-!
# Who may talk to whom at the broker

What the ACLs of the three roles come to, for the accounts of a well-formed broker.  A client of
the broker may do nothing on topics that its account is not there for (`accounts_confined`), and
what the backend and the devices have to say to each other gets through (`dataPlane_open`).
-/

namespace Zenstier

open Store Mqtt

/-! ## The topics -/

theorem levels_path (topic : Topic) : (levels topic.path).getLast? = some "command" := by
  have hjoin : ∀ s : String, (levels (s ++ "/command")).getLast? = some "command" := by
    intro s
    have hsplit : s ++ "/command" = s ++ "/" ++ "command" := by
      rw [String.append_assoc]
      exact congrArg (s ++ ·) (by decide)
    have hlast : levels "command" = ["command"] := levels_of_notMem (by decide)
    rw [hsplit, levels_join, hlast, List.getLast?_concat]
  cases topic with
  | command deviceId => exact hjoin _
  | broadcastCommand groupId => exact hjoin _

theorem levels_report (report : ReportTopic) (v : String) :
    (levels (report.path v)).getLast? = some report.level := by
  have hlevel : '/' ∉ report.level.toList := by cases report <;> decide
  rw [ReportTopic.path_eq, levels_join, levels_of_notMem hlevel, List.getLast?_concat]

/-- The topic of a report names the device. -/
theorem ReportTopic.path_inj {report report' : ReportTopic} {u v : String}
    (h : report.path u = report'.path v) : u = v := by
  have hlevel : report.level = report'.level := by
    have hlast := levels_report report u
    rw [h, levels_report] at hlast
    exact (Option.some.inj hlast).symm
  rw [path_eq, path_eq, hlevel, String.append_left_inj, String.append_left_inj,
    String.append_right_inj] at h
  exact h

/-- A filter matches topics with its own last level only. -/
theorem getLast?_of_matchTopic {filter t l : String} (hhash : '#' ∉ filter.toList)
    (hl : (levels filter).getLast? = some l) (hplus : l ≠ "+") (h : matchTopic filter t = true) :
    (levels t).getLast? = some l := by
  rw [matchTopic, Bool.and_eq_true] at h
  refine getLast?_of_matchLevels (fun hmem ↦ ?_) hl hplus h.2
  exact hhash (mem_of_mem_levels hmem (by decide))

/-- What the broker reserves is matched by reserved filters only. -/
theorem isReserved_of_matchTopic {filter t : String} (h : matchTopic filter t = true) :
    isReserved filter = isReserved t := by
  rw [matchTopic, Bool.and_eq_true] at h
  exact of_decide_eq_true h.1

/-- What is nothing but a level between two others. -/
theorem levels_around {a s b : String} (hs : '/' ∉ s.toList) (hb : '/' ∉ b.toList) :
    levels (a ++ "/" ++ s ++ "/" ++ b) = levels a ++ [s, b] := by
  rw [levels_join, levels_join, levels_of_notMem hs, levels_of_notMem hb, List.append_assoc]
  rfl

/-! ## The roles of the services -/

/-- What the backend may publish to. -/
theorem serverRole_send : ∀ acl ∈ serverRole, acl.acltype = .publishClientSend →
    acl.allow = true → '#' ∉ acl.topic.toList ∧ isReserved acl.topic = false ∧
      ((levels acl.topic).getLast? = some "command" ∨
        (levels acl.topic).getLast? = some "status") := by decide

/-- What the backend may receive. -/
theorem serverRole_receive : ∀ acl ∈ serverRole, acl.acltype = .publishClientReceive →
    acl.topic = "zenstier/+/result" ∨ acl.topic = "zenstier/+/status" ∨
      acl.topic = "$SYS/broker/uptime" := by decide

/-- What is forbidden to the backend is reserved to the broker, or a result. -/
theorem serverRole_forbidden : ∀ acl ∈ serverRole, acl.allow = false →
    isReserved acl.topic = true ∨
      acl.acltype = .publishClientSend ∧ acl.topic = "zenstier/+/result" := by decide

theorem serverRole_literal : ∀ acl ∈ serverRole, '%' ∉ acl.topic.toList := by decide

theorem provisionerRole_send : ∀ acl ∈ provisionerRole, acl.acltype = .publishClientSend →
    acl.allow = true → acl.topic = CONTROL := by decide

theorem provisionerRole_receive : ∀ acl ∈ provisionerRole, acl.acltype = .publishClientReceive →
    acl.topic = RESPONSE := by decide

theorem matchTopic_control {t : String} (h : matchTopic CONTROL t = true) : t = CONTROL :=
  (matchTopic_literal (literal_of_decide (by decide)) t).mp h

theorem matchTopic_response {t : String} (h : matchTopic RESPONSE t = true) : t = RESPONSE :=
  (matchTopic_literal (literal_of_decide (by decide)) t).mp h

namespace DynamicSecurity

/-- A client that is connected with an account. -/
def client (d : DynamicSecurity) (u : String) (account : Account) (clientid : String) : Client where
  username := u
  clientid
  acls := d.accessControl.acls account

variable {d₀ d : DynamicSecurity} {u own clientid t : String} {account : Account}

/-- The ACLs of an account of ours. -/
theorem WellFormed.mem_acls (h : WellFormed d₀ d) (hk : d.Kept u account)
    (hroles : account.roles = [own]) {acl : Acl} (hmem : acl ∈ d.accessControl.acls account) :
    (∃ acls, d.roles.find? own = some acls ∧ acl ∈ acls) ∨
      ∃ g : Cuid, broadcastGroupName g.val ∈ account.groups ∧ acl ∈ broadcastRole g.val := by
  obtain ⟨r, hr, hacl⟩ := List.mem_flatMap.mp hmem
  rcases List.mem_append.mp hr with hr | hr
  · rw [hroles, List.mem_singleton] at hr
    subst hr
    cases hfind : d.roles.find? r with
    | none =>
        rw [accessControl, hfind] at hacl
        cases hacl
    | some acls =>
        rw [accessControl, hfind] at hacl
        exact .inl ⟨acls, rfl, hacl⟩
  · obtain ⟨name, hname, hr⟩ := List.mem_flatMap.mp hr
    obtain ⟨gs, hgs⟩ := hk.groups
    obtain ⟨g, -, rfl⟩ := List.mem_map.mp (hgs ▸ hname)
    refine .inr ⟨g, hname, ?_⟩
    cases hgroup : d.groups.find? (broadcastGroupName g.val) with
    | none =>
        rw [accessControl, hgroup] at hr
        cases hr
    | some roles =>
        rw [accessControl, hgroup] at hr
        obtain rfl := (h.group g.val roles hgroup).2 r hr
        cases hrole : d.roles.find? (broadcastRoleName g.val) with
        | none =>
            rw [accessControl, hrole] at hacl
            cases hacl
        | some acls =>
            rw [accessControl, hrole] at hacl
            exact (h.role _ acls hrole).broadcast g.val rfl ▸ hacl

/-- What an account of ours publishes, its own role allows. -/
theorem WellFormed.publish_cases (h : WellFormed d₀ d) (hk : d.Kept u account)
    (hroles : account.roles = [own])
    (hpublish : (d.client u account clientid).mayPublish defaultAclAccess t) :
    ∃ acls, d.roles.find? own = some acls ∧ ∃ acl ∈ acls, acl.acltype = .publishClientSend ∧
      acl.allow = true ∧ matchTopic ((d.client u account clientid).pattern acl.topic) t = true := by
  obtain ⟨acl, hacl, htype, hallow, hmatch⟩ := Client.exists_of_decides rfl hpublish
  rcases h.mem_acls hk hroles hacl with ⟨acls, hfind, hmem⟩ | ⟨g, -, hmem⟩
  · exact ⟨acls, hfind, acl, hmem, htype, hallow, hmatch⟩
  · exact absurd htype (mem_broadcastRole hmem).1

/-- What an account of ours receives, its own role allows, or it is a broadcast to one of its
groups. -/
theorem WellFormed.receive_cases (h : WellFormed d₀ d) (hk : d.Kept u account)
    (hroles : account.roles = [own])
    (hreceive : (d.client u account clientid).mayReceive defaultAclAccess t) :
    (∃ acls, d.roles.find? own = some acls ∧ ∃ acl ∈ acls, acl.acltype = .publishClientReceive ∧
      matchTopic ((d.client u account clientid).pattern acl.topic) t = true) ∨
    ∃ g : Cuid, broadcastGroupName g.val ∈ account.groups ∧
      t = (Topic.broadcastCommand g.val).path := by
  obtain ⟨acl, hacl, htype, -, hmatch⟩ := Client.exists_of_decides rfl hreceive.1
  rcases h.mem_acls hk hroles hacl with ⟨acls, hfind, hmem⟩ | ⟨g, hg, hmem⟩
  · exact .inl ⟨acls, hfind, acl, hmem, htype, hmatch⟩
  · rw [(mem_broadcastRole hmem).2.1, pattern_broadcast _ g.plain] at hmatch
    exact .inr ⟨g, hg, (matchTopic_literal (literal_broadcast g.plain) t).mp hmatch⟩

/-! ## Each of the three -/

section Kinds

variable (h : WellFormed d₀ d) (hk : d.Kept u account)
include h hk

/-- The backend publishes commands and statuses. -/
theorem WellFormed.server_publish (hroles : account.roles = [SERVER_ROLE])
    (hpublish : (d.client u account clientid).mayPublish defaultAclAccess t) :
    isReserved t = false ∧
      ((levels t).getLast? = some "command" ∨ (levels t).getLast? = some "status") := by
  obtain ⟨acls, hfind, acl, hmem, htype, hallow, hmatch⟩ := h.publish_cases hk hroles hpublish
  obtain rfl := (h.role _ acls hfind).server rfl
  rw [Client.pattern_of_notMem _ (serverRole_literal acl hmem)] at hmatch
  obtain ⟨hhash, hreserved, hlast⟩ := serverRole_send acl hmem htype hallow
  refine ⟨isReserved_of_matchTopic hmatch ▸ hreserved, ?_⟩
  exact hlast.imp (fun hl ↦ getLast?_of_matchTopic hhash hl (by decide) hmatch)
    fun hl ↦ getLast?_of_matchTopic hhash hl (by decide) hmatch

/-- The backend receives what devices report, and the uptime of the broker. -/
theorem WellFormed.server_receive (hroles : account.roles = [SERVER_ROLE])
    (hreceive : (d.client u account clientid).mayReceive defaultAclAccess t) :
    (isReserved t = false ∧
      ((levels t).getLast? = some "result" ∨ (levels t).getLast? = some "status")) ∨
    t = "$SYS/broker/uptime" ∨
    ∃ g : Cuid, broadcastGroupName g.val ∈ account.groups ∧
      t = (Topic.broadcastCommand g.val).path := by
  rcases h.receive_cases hk hroles hreceive with ⟨acls, hfind, acl, hmem, htype, hmatch⟩ | hg
  · obtain rfl := (h.role _ acls hfind).server rfl
    rw [Client.pattern_of_notMem _ (serverRole_literal acl hmem)] at hmatch
    rcases serverRole_receive acl hmem htype with htopic | htopic | htopic <;>
      rw [htopic] at hmatch
    · exact .inl ⟨isReserved_of_matchTopic hmatch ▸ by decide,
        .inl (getLast?_of_matchTopic (by decide) (by decide) (by decide) hmatch)⟩
    · exact .inl ⟨isReserved_of_matchTopic hmatch ▸ by decide,
        .inr (getLast?_of_matchTopic (by decide) (by decide) (by decide) hmatch)⟩
    · exact .inr (.inl ((matchTopic_literal (literal_of_decide (by decide)) t).mp hmatch))
  · exact .inr (.inr hg)

/-- The provisioner publishes control commands only. -/
theorem WellFormed.provisioner_publish (hroles : account.roles = [PROVISIONER_ROLE])
    (hpublish : (d.client u account clientid).mayPublish defaultAclAccess t) : t = CONTROL := by
  obtain ⟨acls, hfind, acl, hmem, htype, hallow, hmatch⟩ := h.publish_cases hk hroles hpublish
  obtain rfl := (h.role _ acls hfind).provisioner rfl
  rw [provisionerRole_send acl hmem htype hallow, Client.pattern_of_notMem _ (by decide)] at hmatch
  exact matchTopic_control hmatch

theorem WellFormed.provisioner_receive (hroles : account.roles = [PROVISIONER_ROLE])
    (hreceive : (d.client u account clientid).mayReceive defaultAclAccess t) :
    t = RESPONSE ∨ ∃ g : Cuid, broadcastGroupName g.val ∈ account.groups ∧
      t = (Topic.broadcastCommand g.val).path := by
  rcases h.receive_cases hk hroles hreceive with ⟨acls, hfind, acl, hmem, htype, hmatch⟩ | hg
  · obtain rfl := (h.role _ acls hfind).provisioner rfl
    rw [provisionerRole_receive acl hmem htype, Client.pattern_of_notMem _ (by decide)] at hmatch
    exact .inl (matchTopic_response hmatch)
  · exact .inr hg

variable (hu : ∃ bytes, u = generateDeviceId bytes)
include hu

/-- A device publishes its own results and statuses. -/
theorem WellFormed.device_publish (hroles : account.roles = [DEVICE_ROLE])
    (hpublish : (d.client u account clientid).mayPublish defaultAclAccess t) :
    ∃ report : ReportTopic, t = report.path u := by
  obtain ⟨bytes, hbytes⟩ := hu
  have hplain : Plain u := hbytes ▸ generateDeviceId_plain bytes
  obtain ⟨acls, hfind, acl, hmem, htype, hallow, hmatch⟩ := h.publish_cases hk hroles hpublish
  obtain rfl := (h.role _ acls hfind).device rfl
  rcases deviceRole_send acl hmem htype hallow with htopic | htopic <;>
    rw [htopic, pattern_report] at hmatch
  · exact ⟨.result, (matchTopic_literal (ReportTopic.literal_path .result hplain) t).mp hmatch⟩
  · exact ⟨.status, (matchTopic_literal (ReportTopic.literal_path .status hplain) t).mp hmatch⟩

/-- A device receives its own commands, and broadcasts to its groups. -/
theorem WellFormed.device_receive (hroles : account.roles = [DEVICE_ROLE])
    (hreceive : (d.client u account clientid).mayReceive defaultAclAccess t) :
    t = (Topic.command u).path ∨ ∃ g : Cuid, broadcastGroupName g.val ∈ account.groups ∧
      t = (Topic.broadcastCommand g.val).path := by
  obtain ⟨bytes, hbytes⟩ := hu
  have hplain : Plain u := hbytes ▸ generateDeviceId_plain bytes
  rcases h.receive_cases hk hroles hreceive with ⟨acls, hfind, acl, hmem, htype, hmatch⟩ | hg
  · obtain rfl := (h.role _ acls hfind).device rfl
    rw [(deviceRole_receive acl hmem htype).1, pattern_command] at hmatch
    exact .inl ((matchTopic_literal (literal_command hplain) t).mp hmatch)
  · exact .inr hg

end Kinds

end DynamicSecurity

/-! ## Everyone keeps to their part -/

/-- A broadcast topic is the command topic of no device. -/
theorem command_ne_broadcast {u : String} (hu : Plain u) (g : String) :
    (Topic.command u).path ≠ (Topic.broadcastCommand g).path := by
  intro h
  have hslash : '/' ∈ u.toList := by
    rw [Topic.command_path_eq_broadcast.mp h, String.toList_append, List.mem_append]
    exact .inl (by decide)
  exact hu '/' hslash (by decide)

theorem isReserved_topic (topic : Topic) : isReserved topic.path = false := by
  cases topic with
  | command deviceId => exact isReserved_path deviceId _
  | broadcastCommand groupId =>
      rw [← Topic.command_path_eq_broadcast.mpr rfl]
      exact isReserved_path _ _

theorem isReserved_report (report : ReportTopic) (v : String) :
    isReserved (report.path v) = false := by
  cases report <;> exact isReserved_path v _

/-- What a connected account may do at most. -/
structure Confined (access : AclType → Bool) (u : String) (account : Account) (c : Client) :
    Prop where
  /-- Commands come from the backend. -/
  commands : ∀ topic : Topic, c.mayPublish access topic.path → account.roles = [SERVER_ROLE]
  /-- The results of a device come from the device: the backend cannot make them up. -/
  results : ∀ v, c.mayPublish access (ReportTopic.result.path v) →
    account.roles = [DEVICE_ROLE] ∧ v = u
  /-- The backend may clear the status of a device. -/
  statuses : ∀ v, c.mayPublish access (ReportTopic.status.path v) →
    account.roles = [SERVER_ROLE] ∨ account.roles = [DEVICE_ROLE] ∧ v = u
  control : ∀ t, isReserved t = true → c.mayPublish access t →
    account.roles = [PROVISIONER_ROLE] ∧ t = CONTROL
  receivesCommand : ∀ bytes, c.mayReceive access (Topic.command (generateDeviceId bytes)).path →
    account.roles = [DEVICE_ROLE] ∧ generateDeviceId bytes = u
  receivesBroadcast : ∀ g, c.mayReceive access (Topic.broadcastCommand g).path →
    broadcastGroupName g ∈ account.groups
  receivesReport : ∀ (report : ReportTopic) v, c.mayReceive access (report.path v) →
    account.roles = [SERVER_ROLE]
  receivesReserved : ∀ t, isReserved t = true → c.mayReceive access t →
    account.roles = [PROVISIONER_ROLE] ∧ t = RESPONSE ∨
      account.roles = [SERVER_ROLE] ∧ t = "$SYS/broker/uptime"

namespace DynamicSecurity

variable {d₀ d : DynamicSecurity} {u clientid : String} {account : Account}

theorem WellFormed.server_confined (h : WellFormed d₀ d) (hk : d.Kept u account)
    (hroles : account.roles = [SERVER_ROLE]) :
    Confined defaultAclAccess u account (d.client u account clientid) where
  commands _ _ := hroles
  results v hp := by
    have hlast := (h.server_publish hk hroles hp).2
    rw [levels_report] at hlast
    exact absurd hlast (by decide)
  statuses _ _ := .inl hroles
  control t hreserved hp := by
    rw [(h.server_publish hk hroles hp).1] at hreserved
    cases hreserved
  receivesCommand bytes hr := by
    have hplain := generateDeviceId_plain bytes
    rcases h.server_receive hk hroles hr with ⟨-, hlast⟩ | huptime | ⟨g, -, hg⟩
    · rw [levels_path] at hlast
      exact absurd hlast (by decide)
    · have hreserved := isReserved_topic (.command (generateDeviceId bytes))
      rw [huptime] at hreserved
      cases hreserved
    · exact absurd hg (command_ne_broadcast hplain g.val)
  receivesBroadcast g hr := by
    rcases h.server_receive hk hroles hr with ⟨-, hlast⟩ | huptime | ⟨g', hg', hg⟩
    · rw [levels_path] at hlast
      exact absurd hlast (by decide)
    · have hreserved := isReserved_topic (.broadcastCommand g)
      rw [huptime] at hreserved
      cases hreserved
    · exact Topic.broadcast_path_inj hg ▸ hg'
  receivesReport _ _ _ := hroles
  receivesReserved t hreserved hr := by
    rcases h.server_receive hk hroles hr with ⟨hnot, -⟩ | huptime | ⟨g, -, rfl⟩
    · rw [hnot] at hreserved
      cases hreserved
    · exact .inr ⟨hroles, huptime⟩
    · rw [isReserved_topic] at hreserved
      cases hreserved

theorem WellFormed.provisioner_confined (h : WellFormed d₀ d) (hk : d.Kept u account)
    (hroles : account.roles = [PROVISIONER_ROLE]) :
    Confined defaultAclAccess u account (d.client u account clientid) := by
  have hpublish : ∀ {t}, isReserved t = false →
      ¬ (d.client u account clientid).mayPublish defaultAclAccess t := by
    intro t hnot hp
    rw [h.provisioner_publish hk hroles hp] at hnot
    exact absurd hnot (by decide)
  have hresponse : ∀ {t}, isReserved t = false → t ≠ RESPONSE := by
    rintro t hnot rfl
    exact absurd hnot (by decide)
  constructor
  case commands => exact fun topic hp ↦ absurd hp (hpublish (isReserved_topic topic))
  case results => exact fun v hp ↦ absurd hp (hpublish (isReserved_report _ v))
  case statuses => exact fun v hp ↦ absurd hp (hpublish (isReserved_report _ v))
  case control => exact fun t _ hp ↦ ⟨hroles, h.provisioner_publish hk hroles hp⟩
  case receivesCommand =>
    intro bytes hr
    rcases h.provisioner_receive hk hroles hr with heq | ⟨g, -, hg⟩
    · exact absurd heq (hresponse (isReserved_topic _))
    · exact absurd hg (command_ne_broadcast (generateDeviceId_plain bytes) g.val)
  case receivesBroadcast =>
    intro g hr
    rcases h.provisioner_receive hk hroles hr with heq | ⟨g', hg', hg⟩
    · exact absurd heq (hresponse (isReserved_topic _))
    · exact Topic.broadcast_path_inj hg ▸ hg'
  case receivesReport =>
    intro report v hr
    rcases h.provisioner_receive hk hroles hr with heq | ⟨g, -, hg⟩
    · exact absurd heq (hresponse (isReserved_report _ _))
    · exact absurd hg.symm ((Topic.broadcastCommand g.val).path_ne_report report v)
  case receivesReserved =>
    intro t hreserved hr
    rcases h.provisioner_receive hk hroles hr with heq | ⟨g, -, rfl⟩
    · exact .inl ⟨hroles, heq⟩
    · rw [isReserved_topic] at hreserved
      cases hreserved

theorem WellFormed.device_within (h : WellFormed d₀ d) (hk : d.Kept u account)
    (hroles : account.roles = [DEVICE_ROLE]) (hu : ∃ bytes, u = generateDeviceId bytes) :
    Confined defaultAclAccess u account (d.client u account clientid) where
  commands topic hp := by
    obtain ⟨report, hreport⟩ := h.device_publish hk hu hroles hp
    exact absurd hreport (topic.path_ne_report report u)
  results v hp := by
    obtain ⟨report, hreport⟩ := h.device_publish hk hu hroles hp
    exact ⟨hroles, ReportTopic.path_inj hreport⟩
  statuses v hp := by
    obtain ⟨report, hreport⟩ := h.device_publish hk hu hroles hp
    exact .inr ⟨hroles, ReportTopic.path_inj hreport⟩
  control t hreserved hp := by
    obtain ⟨report, rfl⟩ := h.device_publish hk hu hroles hp
    rw [isReserved_report] at hreserved
    cases hreserved
  receivesCommand bytes hr := by
    rcases h.device_receive hk hu hroles hr with hpath | ⟨g, -, hg⟩
    · exact ⟨hroles, Topic.command_path_inj hpath⟩
    · exact absurd hg (command_ne_broadcast (generateDeviceId_plain bytes) g.val)
  receivesBroadcast g hr := by
    obtain ⟨bytes, rfl⟩ := hu
    rcases h.device_receive hk ⟨bytes, rfl⟩ hroles hr with hpath | ⟨g', hg', hg⟩
    · exact absurd hpath.symm (command_ne_broadcast (generateDeviceId_plain bytes) g)
    · exact Topic.broadcast_path_inj hg ▸ hg'
  receivesReport report v hr := by
    rcases h.device_receive hk hu hroles hr with hpath | ⟨g, -, hg⟩
    · exact absurd hpath.symm (Topic.path_ne_report _ report v)
    · exact absurd hg.symm (Topic.path_ne_report _ report v)
  receivesReserved t hreserved hr := by
    rcases h.device_receive hk hu hroles hr with rfl | ⟨g, -, rfl⟩ <;>
      rw [isReserved_topic] at hreserved <;> cases hreserved

/-- Every account of ours keeps to its part. -/
theorem WellFormed.confined (h : WellFormed d₀ d) (hk : d.Kept u account) (clientid : String) :
    Confined defaultAclAccess u account (d.client u account clientid) := by
  rcases hk.kind with ⟨hroles, -, hu⟩ | hroles | hroles
  · exact h.device_within hk hroles hu
  · exact h.server_confined hk hroles
  · exact h.provisioner_confined hk hroles

/-- The defaults stay closed. -/
theorem access_apply (hd : d.defaultACLAccess = defaultAclAccess) {c : ControlCommand}
    (hc : Sent c) : (d.apply c).2.defaultACLAccess = defaultAclAccess := by
  have hgroup : ∀ c, (d.apply (.group c)).2.defaultACLAccess = d.defaultACLAccess := by
    intro c
    rw [apply_group]
    split
    · cases c <;> rfl
    · rfl
  cases hc with
  | defaults => rfl
  | role hmem =>
      simp only [seedRoles, List.mem_cons, List.not_mem_nil, or_false] at hmem
      rcases hmem with rfl | rfl | rfl <;> exact (hgroup _).trans hd
  | serviceAccount | password | device | disable | enable | delete => exact hd
  | createRole | createGroup | deleteGroup | deleteRole | join | leave => exact (hgroup _).trans hd

theorem access_after (hd : d.defaultACLAccess = defaultAclAccess) {cs : List ControlCommand}
    (hcs : ∀ c ∈ cs, Sent c) : (d.after cs).defaultACLAccess = defaultAclAccess := by
  induction cs generalizing d with
  | nil => exact hd
  | cons c cs ih =>
      exact ih (access_apply hd (hcs c List.mem_cons_self))
        fun c' hc' ↦ hcs c' (List.mem_cons_of_mem c hc')

end DynamicSecurity

/-- The broker has been operated by the seed and the services, in whatever order, and at some time
its defaults have been set. -/
def Operated (d₀ d : DynamicSecurity) : Prop :=
  ∃ before after, (∀ c ∈ before ++ after, Sent c) ∧
    d = d₀.after (before ++ .setDefaultACLAccess defaultAclAccess :: after)

open DynamicSecurity

theorem Operated.wellFormed {d₀ d : DynamicSecurity} (h₀ : d₀.Unclaimed) (h : Operated d₀ d) :
    WellFormed d₀ d := by
  obtain ⟨before, after, hsent, rfl⟩ := h
  refine h₀.wellFormed.after fun c hc ↦ ?_
  rcases List.mem_append.mp hc with hc | hc
  · exact hsent c (List.mem_append_left _ hc)
  · rcases List.mem_cons.mp hc with rfl | hc
    · exact .defaults
    · exact hsent c (List.mem_append_right _ hc)

theorem Operated.access {d₀ d : DynamicSecurity} (h : Operated d₀ d) :
    d.defaultACLAccess = defaultAclAccess := by
  obtain ⟨before, after, hsent, rfl⟩ := h
  rw [after_append, after_cons]
  exact access_after rfl fun c hc ↦ hsent c (List.mem_append_right _ hc)

theorem matchTopic_command {u : String} (hu : Plain u) :
    matchTopic "zenstier/+/command" (Topic.command u).path = true := by
  have hpath : (Topic.command u).path = "zenstier" ++ "/" ++ u ++ "/" ++ "command" := by
    have hleft : "zenstier/" = "zenstier" ++ "/" := by decide
    have hright : "/command" = "/" ++ "command" := by decide
    show "zenstier/" ++ u ++ "/command" = _
    rw [hleft, hright, ← String.append_assoc]
  have hlevels : levels "zenstier/+/command" = ["zenstier", "+", "command"] := by decide
  have hfirst : levels "zenstier" = ["zenstier"] := by decide
  rw [matchTopic, isReserved_topic, hlevels, hpath,
    levels_around (fun h ↦ hu '/' h (by decide)) (by decide), hfirst]
  simp [matchLevels, isReserved]

theorem matchTopic_broadcast {g : String} (hg : Plain g) :
    matchTopic "zenstier/broadcast/+/command" (Topic.broadcastCommand g).path = true := by
  have hpath : (Topic.broadcastCommand g).path =
      "zenstier/broadcast" ++ "/" ++ g ++ "/" ++ "command" := by
    have hleft : "zenstier/broadcast/" = "zenstier/broadcast" ++ "/" := by decide
    have hright : "/command" = "/" ++ "command" := by decide
    show "zenstier/broadcast/" ++ g ++ "/command" = _
    rw [hleft, hright, ← String.append_assoc]
  have hlevels : levels "zenstier/broadcast/+/command" =
      ["zenstier", "broadcast", "+", "command"] := by decide
  have hfirst : levels "zenstier/broadcast" = ["zenstier", "broadcast"] := by decide
  rw [matchTopic, isReserved_topic, hlevels, hpath,
    levels_around (fun h ↦ hg '/' h (by decide)) (by decide), hfirst]
  simp [matchLevels, isReserved]

/-- The filter of the backend for a kind of report. -/
def ReportTopic.filter : ReportTopic → String
  | .status => "zenstier/+/status"
  | .result => "zenstier/+/result"

theorem ReportTopic.matchTopic_filter (report : ReportTopic) {u : String} (hu : Plain u) :
    matchTopic report.filter (report.path u) = true := by
  have hlevel : '/' ∉ report.level.toList := by cases report <;> decide
  have hlevels : levels report.filter = ["zenstier", "+", report.level] := by
    cases report <;> decide
  have hfirst : levels "zenstier" = ["zenstier"] := by decide
  have hreserved : isReserved report.filter = false := by cases report <;> decide
  rw [matchTopic, isReserved_report, hreserved, hlevels, report.path_eq,
    levels_around (fun h ↦ hu '/' h (by decide)) hlevel, hfirst]
  simp [matchLevels]

namespace DynamicSecurity

variable {d₀ d : DynamicSecurity} {u clientid : String} {account : Account}

/-- The ACLs of a role are among those of an account that has it. -/
theorem mem_acls_of_role {own : String} {acls : List Acl} (hroles : account.roles = [own])
    (hfind : d.roles.find? own = some acls) {acl : Acl} (h : acl ∈ acls) :
    acl ∈ (d.client u account clientid).acls := by
  refine List.mem_flatMap.mpr
    ⟨own, List.mem_append_left _ (hroles ▸ List.mem_singleton_self own), ?_⟩
  rw [accessControl, hfind]
  exact h

/-- So are those of the role of its groups. -/
theorem mem_acls_of_group {g : String} {roles : List String} {acls : List Acl}
    (hg : broadcastGroupName g ∈ account.groups)
    (hgroup : d.groups.find? (broadcastGroupName g) = some roles)
    (hmem : broadcastRoleName g ∈ roles)
    (hrole : d.roles.find? (broadcastRoleName g) = some acls) {acl : Acl} (h : acl ∈ acls) :
    acl ∈ (d.client u account clientid).acls := by
  refine List.mem_flatMap.mpr ⟨broadcastRoleName g, List.mem_append_right _ ?_, ?_⟩
  · refine List.mem_flatMap.mpr ⟨_, hg, ?_⟩
    rw [accessControl, hgroup]
    exact hmem
  · rw [accessControl, hrole]
    exact h

/-- Outside of what is reserved to the broker, nothing but a result is forbidden to an account of
ours. -/
theorem WellFormed.allow (h : WellFormed d₀ d) (hk : d.Kept u account) {own : String}
    (hroles : account.roles = [own]) (hown : own ≠ PROVISIONER_ROLE) {acl : Acl}
    (hmem : acl ∈ (d.client u account clientid).acls) {applies : String → Bool}
    (hreserved : ∀ pattern, isReserved pattern = true → applies pattern = false)
    (hresult : acl.acltype = .publishClientSend → own = SERVER_ROLE →
      applies "zenstier/+/result" = false)
    (happlies : applies ((d.client u account clientid).pattern acl.topic) = true) :
    acl.allow = true := by
  by_contra hallow
  rw [Bool.not_eq_true] at hallow
  have hno : ∀ {topic : String}, '%' ∉ topic.toList → acl.topic = topic →
      applies topic = true := by
    rintro topic hpct rfl
    rwa [Client.pattern_of_notMem _ hpct] at happlies
  rcases h.mem_acls hk hroles hmem with ⟨acls, hfind, hacl⟩ | ⟨g, -, hacl⟩
  · rcases hk.kind with ⟨hr, -⟩ | hr | hr <;> rw [hroles, List.cons.injEq] at hr <;>
      obtain ⟨rfl, -⟩ := hr
    · obtain rfl := (h.role _ acls hfind).device rfl
      obtain ⟨hpct, hres⟩ := deviceRole_forbidden acl hacl hallow
      exact absurd (hno hpct rfl) (by rw [hreserved _ hres]; exact Bool.false_ne_true)
    · obtain rfl := (h.role _ acls hfind).server rfl
      have hpct := serverRole_literal acl hacl
      rcases serverRole_forbidden acl hacl hallow with hres | ⟨htype, htopic⟩
      · exact absurd (hno hpct rfl) (by rw [hreserved _ hres]; exact Bool.false_ne_true)
      · exact absurd (hno hpct rfl) (by rw [htopic, hresult htype rfl]; exact Bool.false_ne_true)
    · exact hown rfl
  · rw [(mem_broadcastRole hacl).2.2] at hallow
    cases hallow

/-- A filter that is reserved to the broker matches no topic of ours. -/
theorem reserved_matchTopic {t : String} (ht : isReserved t = false) (pattern : String)
    (h : isReserved pattern = true) : matchTopic pattern t = false := by
  rw [matchTopic, h, ht]
  rfl

theorem reserved_covers {subscription : String} (ht : isReserved subscription = false)
    (pattern : String) (h : isReserved pattern = true) : covers pattern subscription = false := by
  rw [covers, h, ht]
  rfl

/-- A topic that the role of an account allows to publish to, or that a group does. -/
theorem WellFormed.mayPublish (h : WellFormed d₀ d) (hk : d.Kept u account) {own : String}
    (hroles : account.roles = [own]) (hown : own ≠ PROVISIONER_ROLE) {t : String}
    (ht : isReserved t = false)
    (hresult : own = SERVER_ROLE → matchTopic "zenstier/+/result" t = false)
    {acl : Acl} (hmem : acl ∈ (d.client u account clientid).acls)
    (htype : acl.acltype = .publishClientSend)
    (happlies : matchTopic ((d.client u account clientid).pattern acl.topic) t = true) :
    (d.client u account clientid).mayPublish defaultAclAccess t :=
  Client.decides_of_exists (fun _ hb _ hmatch ↦ h.allow hk hroles hown hb
    (reserved_matchTopic ht) (fun _ hs ↦ hresult hs) hmatch) hmem htype happlies

/-- What an account may subscribe to and receive, by a pair of ACLs with the same topic. -/
theorem WellFormed.mayReceive (h : WellFormed d₀ d) (hk : d.Kept u account) {own : String}
    (hroles : account.roles = [own]) (hown : own ≠ PROVISIONER_ROLE) {t topic : String}
    (ht : isReserved t = false) (htopic : isReserved
      ((d.client u account clientid).pattern topic) = false)
    (hreceive : { acltype := .publishClientReceive, topic, priority := 0, allow := true } ∈
      (d.client u account clientid).acls)
    (hsubscribe : { acltype := .subscribePattern, topic, priority := 0, allow := true } ∈
      (d.client u account clientid).acls)
    (happlies : matchTopic ((d.client u account clientid).pattern topic) t = true) :
    (d.client u account clientid).mayReceive defaultAclAccess t := by
  constructor
  · refine Client.decides_of_exists (fun b hb htype hmatch ↦ ?_) hreceive rfl happlies
    refine h.allow hk hroles hown hb (reserved_matchTopic ht) (fun hsend _ ↦ ?_) hmatch
    rw [htype] at hsend
    cases hsend
  · refine ⟨_, Client.decides_of_exists (fun b hb htype hmatch ↦ ?_) hsubscribe rfl (covers_self _),
      happlies⟩
    refine h.allow hk hroles hown hb (reserved_covers htopic) (fun hsend _ ↦ ?_) hmatch
    rw [htype] at hsend
    cases hsend

end DynamicSecurity

/-- The broker as `mosquitto_ctrl dynsec init` leaves it, as far as it matters here. -/
def initialised : DynamicSecurity where
  defaultACLAccess acltype := acltype = .publishClientReceive ∨ acltype = .unsubscribePattern
  roles := ⟨[("admin", [{ acltype := .publishClientSend, topic := "$CONTROL/dynamic-security/#"
                          priority := 0, allow := true }])], List.nodup_singleton _⟩
  groups := ∅
  clients :=
    ⟨[("admin", { password := "secret", clientid := "", roles := ["admin"], groups := [] })],
      List.nodup_singleton _⟩

theorem initialised_unclaimed : initialised.Unclaimed where
  role := by decide
  broadcast g := by
    rw [Table.find?_eq_none]
    intro acls hmem
    have hname : broadcastRoleName g = "admin" := (Prod.mk.inj (List.mem_singleton.mp hmem)).1
    have hhead : (broadcastRoleName g).toList.head? = some 'z' := by
      rw [broadcastRoleName, String.toList_append]
      rfl
    rw [hname] at hhead
    exact absurd hhead (by decide)
  group _ := rfl

/-- The seed, a device, and its group. -/
def operation : List ControlCommand :=
  seedRoles ++
  [createServiceAccount "backend" "secret" SERVER_ROLE,
    .group (.createRole (broadcastRoleName "g1") (broadcastRole "g1")),
    .group (.createGroup (broadcastGroupName "g1") [broadcastRoleName "g1"]),
    .client (.createClient (generateDeviceId [1, 2, 3]) "BwgJ" (generateDeviceId [1, 2, 3])
      [DEVICE_ROLE] (["g1"].map broadcastGroupName))]

/-- A small broker in operation. -/
def operated : DynamicSecurity :=
  initialised.after ([] ++ .setDefaultACLAccess defaultAclAccess :: operation)

theorem operated_initialised : Operated initialised operated := by
  have hcuid : ∀ c ∈ "g1".toList, c.isLower ∨ c.isDigit :=
    List.forall_mem_cons.mpr ⟨by decide, List.forall_mem_singleton.mpr (by decide)⟩
  refine ⟨[], operation, fun c hc ↦ ?_, rfl⟩
  replace hc : c ∈ operation := hc
  rcases List.mem_append.mp hc with hc | hc
  · exact .role hc
  · simp only [List.mem_cons, List.not_mem_nil, or_false] at hc
    rcases hc with rfl | rfl | rfl | rfl
    · exact .serviceAccount _ _ (by decide)
    · exact .createRole ⟨"g1", hcuid⟩
    · exact .createGroup ⟨"g1", hcuid⟩
    · exact .device _ _ _

/-- What the backend and a device have to say to each other gets through: commands and broadcasts
one way, results and statuses the other. -/
theorem dataPlane_open {d₀ d : DynamicSecurity} (h₀ : d₀.Unclaimed) (h : Operated d₀ d)
    {s u : String} {backend device : Account} (hs : d.clients.find? s = some backend)
    (hsnew : d₀.clients.find? s = none) (hbackend : backend.roles = [SERVER_ROLE])
    (hu : d.clients.find? u = some device) (hunew : d₀.clients.find? u = none)
    (hdevice : device.roles = [DEVICE_ROLE]) (clientid : String) :
    let b := d.client s backend clientid
    let c := d.client u device device.clientid
    (b.mayPublish d.defaultACLAccess (Topic.command u).path ∧
      c.mayReceive d.defaultACLAccess (Topic.command u).path) ∧
    (∀ report : ReportTopic, c.mayPublish d.defaultACLAccess (report.path u) ∧
      b.mayReceive d.defaultACLAccess (report.path u)) ∧
    ∀ g roles, broadcastGroupName g ∈ device.groups →
      d.groups.find? (broadcastGroupName g) = some roles → broadcastRoleName g ∈ roles →
      (d.roles.find? (broadcastRoleName g)).isSome →
      b.mayPublish d.defaultACLAccess (Topic.broadcastCommand g).path ∧
        c.mayReceive d.defaultACLAccess (Topic.broadcastCommand g).path := by
  intro b c
  have hd := h.wellFormed h₀
  have hkb := hd.account s backend hs hsnew
  have hkc := hd.account u device hu hunew
  rw [h.access]
  obtain ⟨bytes, hbytes⟩ : ∃ bytes, u = generateDeviceId bytes := by
    rcases hkc.kind with ⟨-, -, hbytes⟩ | hroles | hroles
    · exact hbytes
    all_goals
      rw [hdevice] at hroles
      exact absurd hroles (by decide)
  have hplain : Plain u := hbytes ▸ generateDeviceId_plain bytes
  -- the roles of the two are as the source has them
  obtain ⟨bacls, hb⟩ := Option.isSome_iff_exists.mp
    (hkb.role SERVER_ROLE (hbackend ▸ List.mem_singleton_self _))
  obtain ⟨cacls, hc⟩ := Option.isSome_iff_exists.mp
    (hkc.role DEVICE_ROLE (hdevice ▸ List.mem_singleton_self _))
  obtain rfl := (hd.role _ bacls hb).server rfl
  obtain rfl := (hd.role _ cacls hc).device rfl
  have hbmem : ∀ acl ∈ serverRole, acl ∈ b.acls := fun acl ↦ mem_acls_of_role hbackend hb
  have hcmem : ∀ acl ∈ deviceRole, acl ∈ c.acls := fun acl ↦ mem_acls_of_role hdevice hc
  have hfilter : ∀ report : ReportTopic, b.pattern report.filter = report.filter := fun report ↦
    b.pattern_of_notMem (by cases report <;> decide)
  have hresult : ∀ topic : Topic, matchTopic "zenstier/+/result" topic.path = false := by
    intro topic
    by_contra hmatch
    rw [Bool.not_eq_false] at hmatch
    have hlast := getLast?_of_matchTopic (by decide) (by decide) (by decide : "result" ≠ "+") hmatch
    rw [levels_path] at hlast
    exact absurd hlast (by decide)
  have hself : ∀ {t : String}, Literal t → matchTopic t t = true :=
    fun ht ↦ (matchTopic_literal ht _).mpr rfl
  refine ⟨⟨?_, ?_⟩, fun report ↦ ⟨?_, ?_⟩, fun g roles hg hgroup hmem hrole ↦ ⟨?_, ?_⟩⟩
  · refine hd.mayPublish hkb hbackend (by decide) (isReserved_topic _) (fun _ ↦ hresult _)
      (hbmem { acltype := .publishClientSend, topic := "zenstier/+/command", priority := 0
               allow := true } (by decide)) rfl ?_
    show matchTopic (b.pattern "zenstier/+/command") _ = true
    rw [b.pattern_of_notMem (by decide)]
    exact matchTopic_command hplain
  · refine hd.mayReceive hkc hdevice (by decide) (isReserved_topic _) ?_
      (hcmem { acltype := .publishClientReceive, topic := "zenstier/%u/command", priority := 0
               allow := true } (by decide)) (hcmem _ (by decide)) ?_
    · exact (pattern_command c).symm ▸ isReserved_topic (.command u)
    · exact (pattern_command c).symm ▸ hself (literal_command hplain)
  · refine hd.mayPublish hkc hdevice (by decide) (isReserved_report _ _)
      (fun hs ↦ absurd hs (by decide))
      (hcmem { acltype := .publishClientSend, topic := report.pattern, priority := 0
               allow := true } (by cases report <;> decide)) rfl ?_
    exact (pattern_report c report).symm ▸ hself (report.literal_path hplain)
  · refine hd.mayReceive hkb hbackend (by decide) (isReserved_report _ _) ?_
      (hbmem { acltype := .publishClientReceive, topic := report.filter, priority := 0
               allow := true } (by cases report <;> decide))
      (hbmem _ (by cases report <;> decide)) ?_
    · show isReserved (b.pattern report.filter) = false
      rw [hfilter]
      cases report <;> decide
    · show matchTopic (b.pattern report.filter) _ = true
      rw [hfilter]
      exact report.matchTopic_filter hplain
  · obtain ⟨⟨gid, rfl⟩, -⟩ := hd.group g roles hgroup
    refine hd.mayPublish hkb hbackend (by decide) (isReserved_topic _) (fun _ ↦ hresult _)
      (hbmem { acltype := .publishClientSend, topic := "zenstier/broadcast/+/command"
               priority := 0, allow := true } (by decide)) rfl ?_
    show matchTopic (b.pattern "zenstier/broadcast/+/command") _ = true
    rw [b.pattern_of_notMem (by decide)]
    exact matchTopic_broadcast gid.plain
  · obtain ⟨⟨gid, rfl⟩, -⟩ := hd.group g roles hgroup
    obtain ⟨acls, hacls⟩ := Option.isSome_iff_exists.mp hrole
    obtain rfl := (hd.role _ acls hacls).broadcast gid.val rfl
    have hgmem : ∀ acltype ∈ [AclType.subscribePattern, .publishClientReceive],
        ({ acltype, topic := (Topic.broadcastCommand gid.val).path, priority := 0
           allow := true } : Acl) ∈ c.acls := by
      refine fun acltype htype ↦ mem_acls_of_group hg hgroup hmem hacls (List.mem_map.mpr
        ⟨acltype, ?_, rfl⟩)
      revert acltype
      decide
    refine hd.mayReceive hkc hdevice (by decide) (isReserved_topic _) ?_
      (hgmem .publishClientReceive (by decide)) (hgmem .subscribePattern (by decide)) ?_
    · exact (pattern_broadcast c gid.plain).symm ▸ isReserved_topic (.broadcastCommand gid.val)
    · exact (pattern_broadcast c gid.plain).symm ▸ hself (literal_broadcast gid.plain)

theorem dataPlane_open_operated :
    (operated.client "backend" ⟨"secret", "", false, [SERVER_ROLE], []⟩ "worker").mayPublish
        operated.defaultACLAccess (Topic.command (generateDeviceId [1, 2, 3])).path ∧
      (operated.client (generateDeviceId [1, 2, 3]) ⟨"BwgJ", generateDeviceId [1, 2, 3], false,
        [DEVICE_ROLE], [broadcastGroupName "g1"]⟩ (generateDeviceId [1, 2, 3])).mayReceive
        operated.defaultACLAccess (Topic.command (generateDeviceId [1, 2, 3])).path := by
  have hs : operated.clients.find? "backend" = some ⟨"secret", "", false, [SERVER_ROLE], []⟩ := by
    decide
  exact (dataPlane_open initialised_unclaimed operated_initialised hs (by decide) rfl (by decide)
    (by decide) rfl "worker").1

end Zenstier
