import Zenstier.Mqtt.DynamicSecurity

/-!
# What the accounts of the broker may do

Whatever the seed and the services have sent, in whatever order, and whatever was on the broker
before: an account that they have created is that of a device, of the backend, or of the
provisioner, and each of the three may do only what it is there for.  Commands come from the
backend only, the results of a device from that device only, and control commands from the
provisioner only.

The invariant (`WellFormed`) says that a role or group with a name of ours is what the name says,
and that every account of ours has one of the three roles and is in broadcast groups only.
-/

namespace Zenstier

open Store Concurrent Mqtt

/-! ## What is sent -/

/-- The control commands that the seed, the services and the scripts send. -/
inductive Sent : ControlCommand → Prop
  | defaults : Sent (.setDefaultACLAccess defaultAclAccess)
  | role {c : ControlCommand} (h : c ∈ seedRoles) : Sent c
  | serviceAccount (username password : String) {role : String}
      (h : role ∈ [SERVER_ROLE, PROVISIONER_ROLE]) :
      Sent (createServiceAccount username password role)
  | password (username password : String) : Sent (.setClientPassword username password)
  | device (bytes : List UInt8) (password : String) (groups : List String) :
      Sent (.client (.createClient (generateDeviceId bytes) password (generateDeviceId bytes)
        [DEVICE_ROLE] (groups.map broadcastGroupName)))
  | disable (username : String) : Sent (.client (.disableClient username))
  | enable (username : String) : Sent (.client (.enableClient username))
  | delete (username : String) : Sent (.client (.deleteClient username))
  | createRole (g : Cuid) :
      Sent (.group (.createRole (broadcastRoleName g.val) (broadcastRole g.val)))
  | createGroup (g : Cuid) :
      Sent (.group (.createGroup (broadcastGroupName g.val) [broadcastRoleName g.val]))
  | deleteGroup (g : String) : Sent (.group (.deleteGroup (broadcastGroupName g)))
  | deleteRole (g : String) : Sent (.group (.deleteRole (broadcastRoleName g)))
  | join (g username : String) : Sent (.group (.addGroupClient (broadcastGroupName g) username))
  | leave (g username : String) :
      Sent (.group (.removeGroupClient (broadcastGroupName g) username))

/-! ### The programs send nothing else -/

/-- The control commands in a request of the token service are among them. -/
def SendsClient : ∀ β : Type, TokenOp β → Prop
  | _, .dynsecSend commands => ∀ c ∈ commands, Sent (.client c)
  | _, _ => True

/-- The control commands in a request of the group service are among them. -/
def SendsGroup : ∀ β : Type, GroupOp β → Prop
  | _, .dynsecSend commands => ∀ c ∈ commands, Sent (.group c)
  | _, _ => True

theorem seedDynsec_sends (env : SeedEnv) : Prog.Only (Sends Sent) (seedDynsec env) := by
  refine (seedDynsec_only env).mono fun β op hop ↦ ?_
  cases op with
  | send commands =>
      intro c hc
      have hmem := hop c hc
      simp only [SeedEnv.commands, List.mem_cons, List.mem_append, SeedEnv.accounts,
        SeedEnv.passwords, List.not_mem_nil, or_false] at hmem
      rcases hmem with rfl | (hmem | rfl | rfl) | rfl | rfl
      · exact .defaults
      · exact .role hmem
      · exact .serviceAccount _ _ (by decide)
      · exact .serviceAccount _ _ (by decide)
      · exact .password _ _
      · exact .password _ _

section Tokens

variable (dig : Digests)

theorem provisionBrokerCredential_sends (bytes : List UInt8) (password : String)
    (groupId : Option String) :
    Prog.Only SendsClient
      (provisionBrokerCredential (generateDeviceId bytes) password groupId) := by
  unfold provisionBrokerCredential
  refine Prog.Only.await ?_ fun _ ↦ Prog.Only.bind ((Prog.only_ofExcept _).mpr trivial) fun _ ↦
    Prog.Only.await ?_ fun _ ↦ (Prog.only_ofExcept _).mpr trivial
  · intro c hc
    rw [List.mem_singleton.mp hc]
    exact .device bytes _ _
  · intro c hc
    rw [List.mem_singleton.mp hc]
    exact .disable _

theorem createEnrollmentToken_sends (draws : EnrollmentDraws) (userId teamId deviceName : String)
    (label groupId : Option String) : Prog.Only SendsClient
      (createEnrollmentToken dig draws userId teamId deviceName label groupId) := by
  unfold createEnrollmentToken stashPendingSecret
  exact Prog.Only.await trivial fun _ ↦ Prog.Only.await trivial fun _ ↦
    Prog.Only.await trivial fun _ ↦ Prog.Only.await trivial fun _ ↦
    Prog.Only.bind (provisionBrokerCredential_sends draws.deviceBytes _ groupId) fun _ ↦
    Prog.Only.await trivial fun _ ↦ trivial

theorem consumeEnrollmentToken_sends (plaintextToken : String) (facts : HostFacts) :
    Prog.Only SendsClient (consumeEnrollmentToken dig plaintextToken facts) := by
  refine (consumeEnrollmentToken_only dig plaintextToken facts).mono fun β op hop ↦ ?_
  cases op with
  | dynsecSend commands =>
      rcases commands with _ | ⟨c, _ | ⟨c', cs⟩⟩
      · exact fun c hc ↦ nomatch hc
      · cases c with
        | enableClient username =>
            intro c hc
            rw [List.mem_singleton.mp hc]
            exact .enable username
        | createClient | disableClient | deleteClient => exact hop.elim
      · cases c <;> exact hop.elim
  | _ => trivial

theorem deleteBrokerClient_sends (username : String) :
    Prog.Only SendsClient (deleteBrokerClient username) := by
  unfold deleteBrokerClient
  refine Prog.Only.bind ((Prog.only_perform _).mpr ?_) fun _ ↦ (Prog.only_ofExcept _).mpr trivial
  intro c hc
  rw [List.mem_singleton.mp hc]
  exact .delete username

theorem evictRetainedStatus_sends (device : Option Device) :
    Prog.Only SendsClient (evictRetainedStatus device) :=
  evictRetainedStatus_only (fun _ ↦ trivial) device

theorem revokeToken_sends (userId teamId tokenId : String) :
    Prog.Only SendsClient (revokeToken userId teamId tokenId) := by
  unfold revokeToken
  refine Prog.Only.await trivial fun found ↦ ?_
  cases found with
  | none => trivial
  | some found =>
      unfold revokeFound
      refine (deleteBrokerClient_sends _).bind fun _ ↦ Prog.Only.await trivial fun _ ↦
        Prog.Only.await trivial fun _ ↦ (evictRetainedStatus_sends _).bind fun _ ↦
        (takePendingSecret_only _ trivial trivial).bind fun _ ↦ trivial

theorem deleteDeviceAction_sends (userId teamId deviceId : String) :
    Prog.Only SendsClient (deleteDeviceAction userId teamId deviceId) := by
  unfold deleteDeviceAction
  refine Prog.Only.await trivial fun found ↦ ?_
  cases found with
  | none => trivial
  | some found =>
      refine (Prog.Only.forM _ fun token _ ↦ ?_).bind fun _ ↦ (Prog.only_perform _).mpr trivial
      exact (revokeToken_sends userId teamId token.1).attempt.bind fun _ ↦ trivial

theorem deleteTeam_sends (teamId : String) :
    Prog.Only SendsClient (Zenstier.deleteTeam teamId) := by
  unfold Zenstier.deleteTeam
  refine Prog.Only.await trivial fun found ↦ ?_
  cases found with
  | none => trivial
  | some found =>
      dsimp only
      split
      · trivial
      refine (Prog.Only.forM _ fun token _ ↦ ?_).bind fun _ ↦
        (Prog.Only.forM _ fun device _ ↦ evictRetainedStatus_sends _).bind fun _ ↦
        Prog.Only.await trivial fun _ ↦ (Prog.only_perform _).mpr trivial
      exact (deleteBrokerClient_sends _).tryCatch fun _ ↦ trivial

end Tokens

section Groups

theorem sendControl_sends {command : GroupControl} (h : Sent (.group command))
    (tolerate : List String) : Prog.Only SendsGroup (sendControl command tolerate) := by
  unfold sendControl
  refine Prog.Only.bind ((Prog.only_perform _).mpr ?_) fun _ ↦ (Prog.only_ofExcept _).mpr trivial
  intro c hc
  rw [List.mem_singleton.mp hc]
  exact h

theorem notifyGroupsChanged_sends (id deviceId : String) (groups : List String) :
    Prog.Only SendsGroup (notifyGroupsChanged id deviceId groups) := by
  unfold notifyGroupsChanged
  exact Prog.Only.await trivial fun _ ↦ Prog.Only.await trivial fun _ ↦
    (Prog.only_perform _).mpr trivial

theorem logged_sends {p : GroupM Unit} (h : Prog.Only SendsGroup p) :
    Prog.Only SendsGroup (logged p) := h.tryCatch fun _ ↦ trivial

/-- The id of a new group is one that the database client makes up. -/
theorem createGroup_sends (id : Cuid) (actorId teamId name : String) :
    Prog.Only SendsGroup (createGroup id.val actorId teamId name) := by
  unfold createGroup
  dsimp only
  split
  · trivial
  refine Prog.Only.await trivial fun found ↦ ?_
  cases found with
  | some found => trivial
  | none =>
      refine Prog.Only.await trivial fun _ ↦ Prog.Only.bind ?_ fun _ ↦
        (Prog.only_perform _).mpr trivial
      refine Prog.Only.tryCatch ?_ fun err ↦ Prog.Only.await trivial fun _ ↦ trivial
      exact (sendControl_sends (.createRole id) _).bind fun _ ↦
        sendControl_sends (.createGroup id) _

theorem renameGroup_sends (actorId teamId groupId name : String) :
    Prog.Only SendsGroup (renameGroup actorId teamId groupId name) := by
  unfold renameGroup
  dsimp only
  split
  · trivial
  refine Prog.Only.await trivial fun found ↦ ?_
  cases found with
  | none => trivial
  | some found => exact Prog.Only.await trivial fun _ ↦ (Prog.only_perform _).mpr trivial

theorem deleteGroup_sends (notifyId : String → String) (actorId teamId groupId : String) :
    Prog.Only SendsGroup (deleteGroup notifyId actorId teamId groupId) := by
  unfold deleteGroup
  refine Prog.Only.await trivial fun found ↦ ?_
  cases found with
  | none => trivial
  | some found =>
      refine (Prog.Only.forM _ fun d _ ↦ logged_sends (sendControl_sends (.leave _ _) _)).bind
        fun _ ↦ (sendControl_sends (.deleteGroup groupId) _).bind fun _ ↦
        (sendControl_sends (.deleteRole groupId) _).bind fun _ ↦ Prog.Only.await trivial fun _ ↦
        (Prog.Only.forM _ fun d _ ↦ logged_sends (notifyGroupsChanged_sends _ _ _)).bind
        fun _ ↦ (Prog.only_perform _).mpr trivial

theorem setDeviceGroup_sends (notifyId actorId teamId deviceId : String)
    (groupId : Option String) :
    Prog.Only SendsGroup (setDeviceGroup notifyId actorId teamId deviceId groupId) := by
  have hcheck : Prog.Only SendsGroup (checkTarget teamId groupId) := by
    unfold checkTarget
    split
    · trivial
    · refine Prog.Only.await trivial fun found ↦ ?_
      cases found <;> trivial
  unfold setDeviceGroup
  refine Prog.Only.await trivial fun found ↦ ?_
  cases found with
  | none => trivial
  | some found =>
      refine hcheck.bind fun _ ↦ Prog.Only.bind ?_ fun _ ↦ Prog.Only.bind ?_ fun _ ↦ ?_
      · unfold leaveOldGroup
        split
        · split
          · exact sendControl_sends (.leave _ _) _
          · trivial
        · trivial
      · unfold joinNewGroup
        split
        · split
          · exact sendControl_sends (.join _ _) _
          · trivial
        · trivial
      · exact Prog.Only.await trivial fun _ ↦
          (logged_sends (notifyGroupsChanged_sends _ _ _)).bind fun _ ↦
          (Prog.only_perform _).mpr trivial

end Groups

/-! ## The invariant -/

/-- The role is as the source defines it, if the name is one that the source uses. -/
structure Designed (name : String) (acls : List Acl) : Prop where
  device : name = DEVICE_ROLE → acls = deviceRole
  server : name = SERVER_ROLE → acls = serverRole
  provisioner : name = PROVISIONER_ROLE → acls = provisionerRole
  broadcast : ∀ g, name = broadcastRoleName g → acls = broadcastRole g

/-- The roles that the seed creates are not those of broadcast groups. -/
theorem broadcastRoleName_ne_seeded (g : String) :
    broadcastRoleName g ∉ [DEVICE_ROLE, SERVER_ROLE, PROVISIONER_ROLE] := by
  intro h
  have hchar : (broadcastRoleName g).toList[9]? = some 'b' := by
    rw [broadcastRoleName, String.toList_append, List.getElem?_append_left (by decide)]
    decide
  simp only [List.mem_cons, List.not_mem_nil, or_false] at h
  rcases h with h | h | h <;> exact absurd (h ▸ hchar) (by decide)

theorem Designed.broadcastRole (g : String) :
    Designed (broadcastRoleName g) (Zenstier.broadcastRole g) := by
  have hne := broadcastRoleName_ne_seeded g
  simp only [List.mem_cons, List.not_mem_nil, or_false, not_or] at hne
  exact ⟨fun h ↦ absurd h hne.1, fun h ↦ absurd h hne.2.1, fun h ↦ absurd h hne.2.2,
    fun g' h ↦ by rw [AccessControl.broadcastRoleName_inj h]⟩

/-- Whatever the seed creates is as the source defines it. -/
theorem Designed.seeded {name : String} {acls : List Acl}
    (h : ControlCommand.group (.createRole name acls) ∈ seedRoles) : Designed name acls := by
  simp only [seedRoles, List.mem_cons, List.not_mem_nil, or_false, ControlCommand.group.injEq,
    GroupControl.createRole.injEq] at h
  have hbroadcast : ∀ g, name ≠ broadcastRoleName g := by
    rintro g rfl
    refine broadcastRoleName_ne_seeded g ?_
    rcases h with ⟨h, -⟩ | ⟨h, -⟩ | ⟨h, -⟩ <;> rw [h] <;> decide
  refine ⟨?_, ?_, ?_, fun g hg ↦ absurd hg (hbroadcast g)⟩ <;>
    rcases h with ⟨rfl, rfl⟩ | ⟨rfl, rfl⟩ | ⟨rfl, rfl⟩ <;>
    first | exact fun _ ↦ rfl | exact fun h ↦ absurd h (by decide)

/-- Generated ids, one by one. -/
theorem exists_cuids {groups : List String} (h : ∀ g ∈ groups, ∃ c : Cuid, c.val = g) :
    ∃ gs : List Cuid, groups.map broadcastGroupName = gs.map fun g ↦ broadcastGroupName g.val := by
  induction groups with
  | nil => exact ⟨[], rfl⟩
  | cons g groups ih =>
      obtain ⟨gs, hgs⟩ := ih fun g' hg' ↦ h g' (List.mem_cons_of_mem g hg')
      obtain ⟨c, rfl⟩ := h g List.mem_cons_self
      exact ⟨c :: gs, congrArg (broadcastGroupName c.val :: ·) hgs⟩

namespace DynamicSecurity

/-- An account that the seed or the services have created. -/
structure Kept (d : DynamicSecurity) (u : String) (account : Account) : Prop where
  kind : account.roles = [DEVICE_ROLE] ∧ account.clientid = u ∧
      (∃ bytes, u = generateDeviceId bytes)
    ∨ account.roles = [SERVER_ROLE] ∨ account.roles = [PROVISIONER_ROLE]
  role : ∀ r ∈ account.roles, (d.roles.find? r).isSome
  groups : ∃ gs : List Cuid, account.groups = gs.map fun g ↦ broadcastGroupName g.val

/-- Nothing on the broker has a name that the source uses. -/
structure Unclaimed (d : DynamicSecurity) : Prop where
  role : ∀ name ∈ [DEVICE_ROLE, SERVER_ROLE, PROVISIONER_ROLE], d.roles.find? name = none
  broadcast : ∀ g, d.roles.find? (broadcastRoleName g) = none
  group : ∀ g, d.groups.find? (broadcastGroupName g) = none

/-- Names of ours mean what they say, and so do the accounts that were not there at the start. -/
structure WellFormed (d₀ d : DynamicSecurity) : Prop where
  role : ∀ name acls, d.roles.find? name = some acls → Designed name acls
  group : ∀ g roles, d.groups.find? (broadcastGroupName g) = some roles →
    (∃ c : Cuid, c.val = g) ∧ ∀ r ∈ roles, r = broadcastRoleName g
  account : ∀ u account, d.clients.find? u = some account → d₀.clients.find? u = none →
    d.Kept u account

variable {d₀ d : DynamicSecurity}

theorem Unclaimed.wellFormed (h : d₀.Unclaimed) : WellFormed d₀ d₀ where
  role name acls hacls := by
    have hnone : ∀ n, n = name → d₀.roles.find? n ≠ none := by
      rintro n rfl
      rw [hacls]
      exact Option.some_ne_none acls
    refine ⟨?_, ?_, ?_, fun g hg ↦ absurd (h.broadcast g) (hnone _ hg.symm)⟩ <;>
      exact fun hn ↦ absurd (h.role _ (by decide)) (hnone _ hn.symm)
  group g roles hroles := by
    rw [h.group] at hroles
    cases hroles
  account u account hu hnone := by
    rw [hnone] at hu
    cases hu

/-- An account stays kept where no role is lost. -/
theorem Kept.mono {d' : DynamicSecurity} {u : String} {account : Account} (h : d.Kept u account)
    (hroles : ∀ r ∈ account.roles, (d.roles.find? r).isSome → (d'.roles.find? r).isSome) :
    d'.Kept u account :=
  ⟨h.kind, fun r hr ↦ hroles r hr (h.role r hr), h.groups⟩

/-- What only the roles, the client id and the groups of an account matter for. -/
theorem Kept.congr {u : String} {account account' : Account} (h : d.Kept u account)
    (hroles : account'.roles = account.roles) (hid : account'.clientid = account.clientid)
    (hgroups : account'.groups = account.groups) : d.Kept u account' := by
  constructor
  · rw [hroles, hid]
    exact h.kind
  · rw [hroles]
    exact h.role
  · rw [hgroups]
    exact h.groups

/-- An account may leave groups. -/
theorem Kept.filter {u : String} {account : Account} (h : d.Kept u account) (name : String) :
    d.Kept u { account with groups := account.groups.filter (· ≠ name) } := by
  refine ⟨h.kind, h.role, ?_⟩
  obtain ⟨gs, hgs⟩ := h.groups
  refine ⟨gs.filter fun g ↦ broadcastGroupName g.val ≠ name, ?_⟩
  rw [hgs, List.filter_map]
  rfl

/-- An account may join the group of a device group. -/
theorem Kept.join {u : String} {account : Account} (h : d.Kept u account) (g : Cuid) :
    d.Kept u { account with groups := broadcastGroupName g.val :: account.groups } := by
  refine ⟨h.kind, h.role, ?_⟩
  obtain ⟨gs, hgs⟩ := h.groups
  exact ⟨g :: gs, by rw [hgs]; rfl⟩

/-- No account has the role of a device group as its own. -/
theorem Kept.broadcastRole_notMem {u : String} {account : Account} (h : d.Kept u account)
    (g : String) : broadcastRoleName g ∉ account.roles := by
  have hne := broadcastRoleName_ne_seeded g
  simp only [List.mem_cons, List.not_mem_nil, or_false, not_or] at hne
  rcases h.kind with ⟨hroles, -⟩ | hroles | hroles <;> rw [hroles, List.mem_singleton]
  · exact hne.1
  · exact hne.2.1
  · exact hne.2.2

/-! ## One command -/

@[simp] theorem apply_client (c : DynsecCommand) :
    (d.apply (.client c)).2 = { d with clients := (d.broker.apply c).2.clients } := rfl

@[simp] theorem apply_password (u password : String) :
    (d.apply (.setClientPassword u password)).2 = { d with
      clients := (d.broker.modify "setClientPassword" u
        (·.update u ({ · with password }))).2.clients } := rfl

/-- What only changes accounts, into kept ones. -/
theorem WellFormed.accounts (h : WellFormed d₀ d) {clients : Table String Account}
    (hc : ∀ u account, clients.find? u = some account → d₀.clients.find? u = none →
      d.Kept u account) (access : AclType → Bool) :
    WellFormed d₀ { d with clients, defaultACLAccess := access } :=
  ⟨h.role, h.group, fun u account hu hnew ↦ (hc u account hu hnew).mono fun _ _ hr ↦ hr⟩

/-- What rewrites the account of a name, if there is one. -/
theorem WellFormed.modify (h : WellFormed d₀ d) (command u : String) {f : Account → Account}
    (hf : ∀ v account, d.Kept v account → d.Kept v (f account)) :
    WellFormed d₀ { d with clients := (d.broker.modify command u (·.update u f)).2.clients } := by
  refine h.accounts (fun v account hv hnew ↦ ?_) d.defaultACLAccess
  unfold Broker.modify at hv
  split at hv
  · rcases Table.find?_update_eq_some hv with ⟨account', -, hfind, rfl⟩ | ⟨-, hfind⟩
    · exact hf v account' (h.account v account' hfind hnew)
    · exact h.account v account hfind hnew
  · exact h.account v account hv hnew

/-- An account that is created has a role and groups that exist. -/
theorem WellFormed.createClient (h : WellFormed d₀ d) {u password clientid role : String}
    (groups : List String)
    (hkind : role = DEVICE_ROLE ∧ clientid = u ∧ (∃ bytes, u = generateDeviceId bytes) ∨
      role ∈ [SERVER_ROLE, PROVISIONER_ROLE]) :
    WellFormed d₀ (d.apply (.client (.createClient u password clientid [role]
      (groups.map broadcastGroupName)))).2 := by
  rw [apply_client]
  refine h.accounts (fun v account hv hnew ↦ ?_) d.defaultACLAccess
  rcases d.broker.createClient_cases u password clientid [role] (groups.map broadcastGroupName)
    with heq | ⟨hroles, hgroups, heq⟩
  · rw [heq] at hv
    exact h.account v account hv hnew
  rw [heq, Table.find?_put] at hv
  split at hv
  · rename_i huv
    subst huv
    obtain rfl := Option.some.inj hv
    refine ⟨?_, fun r hr ↦ Table.mem_keys.mp (hroles r hr), ?_⟩
    · rcases hkind with ⟨rfl, hid, hu⟩ | hrole
      · exact .inl ⟨rfl, hid, hu⟩
      · simp only [List.mem_cons, List.not_mem_nil, or_false] at hrole
        rcases hrole with rfl | rfl
        · exact .inr (.inl rfl)
        · exact .inr (.inr rfl)
    · refine exists_cuids fun g hg ↦ ?_
      have hmem := Table.mem_keys.mp (hgroups _ (List.mem_map_of_mem hg))
      obtain ⟨roles, hfind⟩ := Option.isSome_iff_exists.mp hmem
      exact (h.group g roles hfind).1
  · exact h.account v account hv hnew

theorem apply_group (c : GroupControl) :
    (d.apply (.group c)).2 = { (if (d.broker.control c).1.error.isNone then d.define c else d) with
      clients := (d.broker.control c).2.clients } := rfl

theorem WellFormed.createRole (h : WellFormed d₀ d) {name : String} {acls : List Acl}
    (hacls : Designed name acls) :
    WellFormed d₀ (d.apply (.group (.createRole name acls))).2 := by
  rw [apply_group]
  by_cases hname : name ∈ d.broker.roles
  · rw [Broker.control, if_pos hname]
    exact h
  rw [Broker.control, if_neg hname]
  constructor
  case role =>
    intro name' acls' hfind
    replace hfind : (d.roles.put name acls).find? name' = some acls' := hfind
    rw [Table.find?_put] at hfind
    split at hfind
    · rename_i heq
      obtain rfl := Option.some.inj hfind
      exact heq ▸ hacls
    · exact h.role name' acls' hfind
  case group => exact h.group
  case account =>
    refine fun u account hu hnew ↦ (h.account u account hu hnew).mono fun r _ hr ↦ ?_
    show ((d.roles.put name acls).find? r).isSome
    rw [Table.find?_put]
    split
    · rfl
    · exact hr

theorem WellFormed.createGroup (h : WellFormed d₀ d) (g : Cuid) :
    WellFormed d₀ (d.apply (.group (.createGroup (broadcastGroupName g.val)
      [broadcastRoleName g.val]))).2 := by
  rw [apply_group, Broker.control]
  split
  · exact h
  split
  · exact h
  constructor
  case role => exact h.role
  case group =>
    intro g' roles hfind
    replace hfind : (d.groups.put (broadcastGroupName g.val) [broadcastRoleName g.val]).find?
      (broadcastGroupName g') = some roles := hfind
    rw [Table.find?_put] at hfind
    split at hfind
    · rename_i heq
      obtain rfl := AccessControl.broadcastGroupName_inj heq
      obtain rfl := Option.some.inj hfind
      exact ⟨⟨g, rfl⟩, fun r hr ↦ List.mem_singleton.mp hr⟩
    · exact h.group g' roles hfind
  case account =>
    exact fun u account hu hnew ↦ (h.account u account hu hnew).mono fun _ _ hr ↦ hr

/-- Accounts of which some group is taken away. -/
theorem find?_regrouped {clients : Table String Account} {f : Account → Account} {u : String}
    {account : Account} (h : (clients.updateMany (fun _ _ ↦ true) f).find? u = some account) :
    ∃ account', clients.find? u = some account' ∧ f account' = account := by
  rw [Table.find?_updateMany, Option.map_eq_some_iff] at h
  exact h

theorem WellFormed.deleteGroup (h : WellFormed d₀ d) (name : String) :
    WellFormed d₀ (d.apply (.group (.deleteGroup name))).2 := by
  rw [apply_group, Broker.control]
  split
  · exact h
  constructor
  case role => exact h.role
  case group =>
    intro g roles hfind
    replace hfind : (d.groups.delete name).find? (broadcastGroupName g) = some roles := hfind
    rw [Table.find?_delete] at hfind
    split at hfind
    · cases hfind
    · exact h.group g roles hfind
  case account =>
    intro u account hu hnew
    obtain ⟨account', hfind, rfl⟩ := find?_regrouped hu
    exact ((h.account u account' hfind hnew).filter name).mono fun _ _ hr ↦ hr

theorem WellFormed.deleteRole (h : WellFormed d₀ d) (g : String) :
    WellFormed d₀ (d.apply (.group (.deleteRole (broadcastRoleName g)))).2 := by
  rw [apply_group, Broker.control]
  split
  · exact h
  constructor
  case role =>
    intro name acls hfind
    replace hfind : (d.roles.delete (broadcastRoleName g)).find? name = some acls := hfind
    rw [Table.find?_delete] at hfind
    split at hfind
    · cases hfind
    · exact h.role name acls hfind
  case group =>
    intro g' roles hfind
    replace hfind : (d.groups.updateMany (fun _ _ ↦ true)
      (·.filter (· ≠ broadcastRoleName g))).find? (broadcastGroupName g') = some roles := hfind
    rw [Table.find?_updateMany, Option.map_eq_some_iff] at hfind
    obtain ⟨roles', hroles, rfl⟩ := hfind
    exact ⟨(h.group g' roles' hroles).1,
      fun r hr ↦ (h.group g' roles' hroles).2 r (List.mem_of_mem_filter hr)⟩
  case account =>
    intro u account hu hnew
    obtain ⟨account', hfind, rfl⟩ := find?_regrouped hu
    have hkept := h.account u account' hfind hnew
    -- the role is that of no account, so no account loses a role
    have hsame : account'.roles.filter (· ≠ broadcastRoleName g) = account'.roles :=
      List.filter_eq_self.mpr fun r hr ↦
        decide_eq_true fun heq ↦ hkept.broadcastRole_notMem g (heq ▸ hr)
    have hlost : d.Kept u
        { account' with roles := account'.roles.filter (· ≠ broadcastRoleName g) } :=
      hkept.congr hsame rfl rfl
    refine hlost.mono fun r hr hsome ↦ ?_
    show ((d.roles.delete (broadcastRoleName g)).find? r).isSome
    rw [Table.find?_delete, if_neg]
    · exact hsome
    · rintro rfl
      rw [hsame] at hr
      exact hkept.broadcastRole_notMem g hr

/-- What rewrites the groups of an account, where there is such a group. -/
theorem WellFormed.regroup (h : WellFormed d₀ d) (command u g : String)
    {f : List String → List String}
    (hf : ∀ (c : Cuid) v account, c.val = g → d.Kept v account →
      d.Kept v { account with groups := f account.groups }) :
    WellFormed d₀ { d with
      clients := (d.broker.regroup command u (broadcastGroupName g) f).2.clients } := by
  refine h.accounts (fun v account hv hnew ↦ ?_) d.defaultACLAccess
  by_cases hjoin : d.broker.CanJoin u g
  · rw [Broker.regroup_of_canJoin hjoin] at hv
    obtain ⟨roles, hroles⟩ := Option.isSome_iff_exists.mp (Table.mem_keys.mp hjoin.2)
    obtain ⟨c, hc⟩ := (h.group g roles hroles).1
    rcases Table.find?_update_eq_some hv with ⟨account', -, hfind, rfl⟩ | ⟨-, hfind⟩
    · exact hf c v account' hc (h.account v account' hfind hnew)
    · exact h.account v account hfind hnew
  · rw [(Broker.regroup_of_not_canJoin hjoin _ _).1] at hv
    exact h.account v account hv hnew

/-- Whatever is sent leaves a broker well-formed. -/
theorem WellFormed.apply (h : WellFormed d₀ d) {c : ControlCommand} (hc : Sent c) :
    WellFormed d₀ (d.apply c).2 := by
  cases hc with
  | defaults => exact h.accounts h.account defaultAclAccess
  | role hmem =>
      simp only [seedRoles, List.mem_cons, List.not_mem_nil, or_false] at hmem
      rcases hmem with rfl | rfl | rfl <;> exact h.createRole (.seeded (by simp [seedRoles]))
  | serviceAccount username password hrole => exact h.createClient [] (.inr hrole)
  | password username password =>
      rw [apply_password]
      exact h.modify _ username fun v account hk ↦ hk.congr rfl rfl rfl
  | device bytes password groups => exact h.createClient groups (.inl ⟨rfl, rfl, bytes, rfl⟩)
  | disable username =>
      rw [apply_client]
      exact h.modify _ username fun v account hk ↦ hk.congr rfl rfl rfl
  | enable username =>
      rw [apply_client]
      exact h.modify _ username fun v account hk ↦ hk.congr rfl rfl rfl
  | delete username =>
      rw [apply_client, Broker.apply]
      refine h.accounts (fun v account hv hnew ↦ ?_) d.defaultACLAccess
      unfold Broker.modify at hv
      split at hv
      · replace hv : (d.clients.delete username).find? v = some account := hv
        rw [Table.find?_delete] at hv
        split at hv
        · cases hv
        · exact h.account v account hv hnew
      · exact h.account v account hv hnew
  | createRole g => exact h.createRole (.broadcastRole g.val)
  | createGroup g => exact h.createGroup g
  | deleteGroup g => exact h.deleteGroup _
  | deleteRole g => exact h.deleteRole g
  | join g username =>
      rw [apply_group, Broker.control]
      split
      · exact h
      · split
        all_goals
          refine h.regroup _ username g fun c v account hcg hk ↦ ?_
          exact hcg ▸ hk.join c
  | leave g username =>
      rw [apply_group, Broker.control]
      split
      all_goals exact h.regroup _ username g fun c v account _ hk ↦ hk.filter _

theorem WellFormed.after (h : WellFormed d₀ d) {cs : List ControlCommand} (hcs : ∀ c ∈ cs, Sent c) :
    WellFormed d₀ (d.after cs) := by
  induction cs generalizing d with
  | nil => exact h
  | cons c cs ih =>
      exact ih (h.apply (hcs c List.mem_cons_self)) fun c' hc' ↦ hcs c' (List.mem_cons_of_mem c hc')

end DynamicSecurity

end Zenstier
