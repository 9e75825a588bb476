import Zenstier.Concurrent.Logic
import Zenstier.Mqtt.Isolation

/-!
# The stores behind device groups

A device group is a row in the database and, at the broker, a group whose members may receive
the broadcasts of the device group.  The broker knows a device by its account, and an account
has the list of the groups it is in.  `GroupStore` is what the group service reads and writes
of the two, and there is no transaction across them.
-/

namespace Zenstier

open Store Concurrent Mqtt

/-! ## The broker -/

/-- The control commands of the group service. -/
inductive GroupControl
  | createRole (rolename : String) (acls : List Acl)
  | createGroup (groupname : String) (roles : List String)
  | deleteGroup (groupname : String)
  | deleteRole (rolename : String)
  | addGroupClient (groupname username : String)
  | removeGroupClient (groupname username : String)
deriving DecidableEq, Repr

namespace Broker

/-- Rewrites the groups of an account, if there are such an account and such a group. -/
def regroup (b : Broker) (command username groupname : String)
    (f : List String → List String) : DynsecResponse × Broker :=
  if (b.clients.find? username).isNone then ({ command, error := "Client not found" }, b)
  else if groupname ∉ b.groups then ({ command, error := "Group not found" }, b)
  else ({ command }, { b with
    clients := b.clients.update username fun a ↦ { a with groups := f a.groups } })

/-- Carries out one control command. -/
def control (b : Broker) : GroupControl → DynsecResponse × Broker
  | .createRole rolename _ =>
      if rolename ∈ b.roles then ({ command := "createRole", error := "Role already exists" }, b)
      else ({ command := "createRole" }, { b with roles := rolename :: b.roles })
  | .createGroup groupname roles =>
      if groupname ∈ b.groups then
        ({ command := "createGroup", error := "Group already exists" }, b)
      else if roles.any fun r ↦ r ∉ b.roles then
        ({ command := "createGroup", error := "Role not found" }, b)
      else ({ command := "createGroup" }, { b with groups := groupname :: b.groups })
  | .deleteGroup groupname =>
      if groupname ∉ b.groups then ({ command := "deleteGroup", error := "Group not found" }, b)
      else ({ command := "deleteGroup" }, { b with
        groups := b.groups.filter (· ≠ groupname)
        clients := b.clients.updateMany (fun _ _ ↦ true) fun a ↦
          { a with groups := a.groups.filter (· ≠ groupname) } })
  | .deleteRole rolename =>
      if rolename ∉ b.roles then ({ command := "deleteRole", error := "Role not found" }, b)
      else ({ command := "deleteRole" }, { b with
        roles := b.roles.filter (· ≠ rolename)
        clients := b.clients.updateMany (fun _ _ ↦ true) fun a ↦
          { a with roles := a.roles.filter (· ≠ rolename) } })
  | .addGroupClient groupname username =>
      if groupname ∈ b.groups ∧ ∃ a ∈ b.clients.find? username, groupname ∈ a.groups then
        ({ command := "addGroupClient", error := "Client is already in this group" }, b)
      else b.regroup "addGroupClient" username groupname (groupname :: ·)
  | .removeGroupClient groupname username =>
      b.regroup "removeGroupClient" username groupname (·.filter (· ≠ groupname))

/-- Carries out a batch: one response for each command, in order. -/
def controlAll (b : Broker) : List GroupControl → List DynsecResponse × Broker
  | [] => ([], b)
  | c :: cs =>
      let (r, b') := b.control c
      let (rs, b'') := b'.controlAll cs
      (r :: rs, b'')

@[simp] theorem controlAll_singleton (b : Broker) (c : GroupControl) :
    b.controlAll [c] = ([(b.control c).1], (b.control c).2) := rfl

end Broker

/-! ## The stores -/

structure GroupStore where
  clock : Int
  deviceGroups : Table String DeviceGroup
  devices : Table String Device
  schedules : Table String Schedule
  auditLogs : List AuditLog
  broker : Broker

inductive GroupOp : Type → Type
  | now : GroupOp Int
  | findGroup (id teamId : String) : GroupOp (Option DeviceGroup)
  | findGroupByName (teamId name : String) : GroupOp (Option (String × DeviceGroup))
  /-- A group with its devices. -/
  | findGroupWithDevices (id teamId : String) :
      GroupOp (Option (DeviceGroup × List (String × Device)))
  | createGroup (id : String) (row : DeviceGroup) : GroupOp Unit
  | updateGroup (id name : String) : GroupOp Unit
  | deleteGroup (id : String) : GroupOp Unit
  /-- A device, by its public id. -/
  | findDevice (deviceId teamId : String) : GroupOp (Option (String × Device))
  | updateDevice (id : String) (groupId : Option String) : GroupOp Unit
  | createAuditLog (row : AuditLog) : GroupOp Unit
  | dynsecSend (commands : List GroupControl) : GroupOp (List DynsecResponse)
  | publishCommand (topic : Topic) (payload : GroupsPayload) : GroupOp Unit

namespace GroupStore

variable (s : GroupStore)

def findGroup (id teamId : String) : Option DeviceGroup :=
  (s.deviceGroups.find? id).filter (·.teamId = teamId)

/-- Another group of the user has the name. -/
def nameTaken (id userId name : String) : Bool :=
  (s.deviceGroups.findFirst fun k g ↦ k ≠ id ∧ g.userId = userId ∧ g.name = name).isSome

def createGroup (id : String) (row : DeviceGroup) : Except Err GroupStore :=
  if s.nameTaken id row.userId row.name then .error .uniqueViolation
  else match s.deviceGroups.insert id row with
    | none => .error .uniqueViolation
    | some deviceGroups => .ok { s with deviceGroups }

def updateGroup (id name : String) : Except Err GroupStore :=
  match s.deviceGroups.find? id with
  | none => .error .recordNotFound
  | some row =>
      if s.nameTaken id row.userId name then .error .uniqueViolation
      else .ok { s with deviceGroups := s.deviceGroups.update id ({ · with name }) }

/-- The devices and the schedules of the group are left without one. -/
def deleteGroup (id : String) : Except Err GroupStore :=
  if (s.deviceGroups.find? id).isNone then .error .recordNotFound
  else .ok { s with
    deviceGroups := s.deviceGroups.delete id
    devices := s.devices.updateMany (fun _ d ↦ d.groupId = some id) ({ · with groupId := none })
    schedules := s.schedules.updateMany (fun _ r ↦ r.groupId = some id)
      ({ · with groupId := none }) }

/-- Moves a device to a group, which must exist. -/
def updateDevice (id : String) (groupId : Option String) : Except Err GroupStore :=
  if (s.devices.find? id).isNone then .error .recordNotFound
  else if groupId.any fun g ↦ (s.deviceGroups.find? g).isNone then .error .foreignKeyViolation
  else .ok { s with devices := s.devices.update id ({ · with groupId }) }

/-- The reply to a write and the state it leaves: a failed write leaves the old one. -/
def commit : Except Err GroupStore → Except Err Unit × GroupStore
  | .ok s' => (.ok (), s')
  | .error e => (.error e, s)

@[simp] theorem commit_ok (s' : GroupStore) : s.commit (.ok s') = (.ok (), s') := rfl

@[simp] theorem commit_error (e : Err) : s.commit (.error e) = (.error e, s) := rfl

/-- Serves one request. -/
def serve {β : Type} : GroupOp β → Except Err β × GroupStore
  | .now => (.ok s.clock, s)
  | .findGroup id teamId => (.ok (s.findGroup id teamId), s)
  | .findGroupByName teamId name =>
      (.ok (s.deviceGroups.findFirst fun _ g ↦ g.teamId = teamId ∧ g.name = name), s)
  | .findGroupWithDevices id teamId =>
      (.ok ((s.findGroup id teamId).map fun g ↦
        (g, s.devices.findMany fun _ d ↦ d.groupId = some id)), s)
  | .createGroup id row => s.commit (s.createGroup id row)
  | .updateGroup id name => s.commit (s.updateGroup id name)
  | .deleteGroup id => s.commit (s.deleteGroup id)
  | .findDevice deviceId teamId =>
      (.ok (s.devices.findFirst fun _ d ↦ d.deviceId = deviceId ∧ d.teamId = teamId), s)
  | .updateDevice id groupId => s.commit (s.updateDevice id groupId)
  | .createAuditLog row => (.ok (), { s with auditLogs := s.auditLogs ++ [row] })
  | .dynsecSend commands =>
      (.ok (s.broker.controlAll commands).1,
        { s with broker := (s.broker.controlAll commands).2 })
  | .publishCommand _ _ => (.ok (), s)

end GroupStore

/-- The stores as a server. -/
def groupServer : Server GroupOp Err GroupStore := ⟨fun op s ↦ s.serve op⟩

@[simp] theorem groupServer_serve {β : Type} (op : GroupOp β) (s : GroupStore) :
    groupServer.serve op s = s.serve op := rfl

/-! ## Membership -/

namespace Broker

variable {b : Broker} {u v g h : String}

/-- The account is in the group of a device group. -/
def Member (b : Broker) (u g : String) : Prop :=
  broadcastGroupName g ∈ b.groups ∧ ∃ a ∈ b.clients.find? u, broadcastGroupName g ∈ a.groups

/-- There are an account and a group for it to be in. -/
def CanJoin (b : Broker) (u g : String) : Prop := b.Has u ∧ broadcastGroupName g ∈ b.groups

instance (b : Broker) (u g : String) : Decidable (b.Member u g) :=
  inferInstanceAs (Decidable (_ ∧ ∃ a ∈ b.clients.find? u, _))

instance (b : Broker) (u g : String) : Decidable (b.CanJoin u g) :=
  inferInstanceAs (Decidable (_ ∧ _))

theorem Member.canJoin (h : b.Member u g) : b.CanJoin u g := by
  obtain ⟨hg, a, ha, -⟩ := h
  exact ⟨Option.isSome_of_mem ha, hg⟩

theorem regroup_of_canJoin (h : b.CanJoin u g) (command : String)
    (f : List String → List String) :
    b.regroup command u (broadcastGroupName g) f = ({ command }, { b with
      clients := b.clients.update u fun a ↦ { a with groups := f a.groups } }) := by
  rw [regroup, if_neg, if_neg (not_not_intro h.2)]
  rw [Option.isNone_iff_eq_none, ← Option.not_isSome_iff_eq_none]
  exact not_not_intro h.1

/-- Where there is nothing to be in, nothing is done about it. -/
theorem regroup_of_not_canJoin (h : ¬ b.CanJoin u g) (command : String)
    (f : List String → List String) :
    (b.regroup command u (broadcastGroupName g) f).2 = b ∧
      ((b.regroup command u (broadcastGroupName g) f).1.error = some "Client not found" ∨
        (b.regroup command u (broadcastGroupName g) f).1.error = some "Group not found") := by
  unfold regroup
  split
  · exact ⟨rfl, .inl rfl⟩
  rename_i hclient
  split
  · exact ⟨rfl, .inr rfl⟩
  rename_i hgroup
  refine absurd ⟨?_, not_not.mp hgroup⟩ h
  rwa [Option.isNone_iff_eq_none, ← Option.not_isSome_iff_eq_none, not_not] at hclient

/-- Rewriting the groups of one account changes what that account is in. -/
theorem member_update {f : List String → List String} :
    { b with clients := b.clients.update u fun a ↦ { a with groups := f a.groups } }.Member v h ↔
      broadcastGroupName h ∈ b.groups ∧ ∃ a ∈ b.clients.find? v,
        broadcastGroupName h ∈ if v = u then f a.groups else a.groups := by
  unfold Member
  dsimp only
  rw [Table.find?_update]
  refine and_congr_right fun _ ↦ ?_
  by_cases hv : v = u
  · simp [hv]
  · simp [hv]

/-- Whom a `removeGroupClient` leaves in which groups. -/
theorem member_removeGroupClient :
    (b.control (.removeGroupClient (broadcastGroupName g) u)).2.Member v h ↔
      b.Member v h ∧ ¬ (v = u ∧ h = g) := by
  by_cases hjoin : b.CanJoin u g
  · rw [control, regroup_of_canJoin hjoin, member_update]
    by_cases hv : v = u
    · by_cases hh : h = g
      · simp [hv, hh]
      · have hname : broadcastGroupName h ≠ broadcastGroupName g :=
          fun heq ↦ hh (AccessControl.broadcastGroupName_inj heq)
        simp [Member, hv, hh, hname]
    · simp [Member, hv]
  · rw [control, (regroup_of_not_canJoin hjoin _ _).1]
    refine ⟨fun hm ↦ ⟨hm, ?_⟩, fun hm ↦ hm.1⟩
    rintro ⟨rfl, rfl⟩
    exact hjoin hm.canJoin

/-- Whom an `addGroupClient` leaves in which groups. -/
theorem member_addGroupClient :
    (b.control (.addGroupClient (broadcastGroupName g) u)).2.Member v h ↔
      b.Member v h ∨ (v = u ∧ h = g ∧ b.CanJoin u g) := by
  rw [control]
  split
  · rename_i hin
    refine ⟨.inl, fun hm ↦ hm.elim id ?_⟩
    rintro ⟨rfl, rfl, -⟩
    exact hin
  by_cases hjoin : b.CanJoin u g
  · rw [regroup_of_canJoin hjoin, member_update]
    obtain ⟨a, ha⟩ := Option.isSome_iff_exists.mp hjoin.1
    by_cases hv : v = u
    · by_cases hh : h = g
      · simp [hv, hh, ha, hjoin, hjoin.2]
      · have hname : broadcastGroupName h ≠ broadcastGroupName g :=
          fun heq ↦ hh (AccessControl.broadcastGroupName_inj heq)
        simp [Member, hv, hh, hname]
    · simp [Member, hv]
  · rw [(regroup_of_not_canJoin hjoin _ _).1]
    simp [hjoin]

/-- Accounts and groups stay what they are. -/
theorem canJoin_regroup (command : String) (f : List String → List String) :
    (b.regroup command u (broadcastGroupName g) f).2.CanJoin v h ↔ b.CanJoin v h := by
  by_cases hjoin : b.CanJoin u g
  · rw [regroup_of_canJoin hjoin]
    simp only [CanJoin, Has, Table.find?_update]
    split <;> simp
  · rw [(regroup_of_not_canJoin hjoin _ _).1]

theorem canJoin_removeGroupClient :
    (b.control (.removeGroupClient (broadcastGroupName g) u)).2.CanJoin v h ↔ b.CanJoin v h :=
  canJoin_regroup _ _

theorem canJoin_addGroupClient :
    (b.control (.addGroupClient (broadcastGroupName g) u)).2.CanJoin v h ↔ b.CanJoin v h := by
  rw [control]
  split
  · exact Iff.rfl
  · exact canJoin_regroup _ _

/-- A device that cannot have been in a group counts as removed from it. -/
theorem removeGroupClient_ok :
    assertDynsecOk [(b.control (.removeGroupClient (broadcastGroupName g) u)).1]
      ["not found", "not in group"] = .ok () := by
  by_cases hjoin : b.CanJoin u g
  · rw [control, regroup_of_canJoin hjoin]
    rfl
  rw [control]
  unfold regroup
  split
  · rfl
  split
  · rfl
  · rfl

/-- A device that is in the group already counts as added to it. -/
theorem addGroupClient_ok :
    assertDynsecOk [(b.control (.addGroupClient (broadcastGroupName g) u)).1] ["already"] = .ok () ↔
      b.CanJoin u g := by
  rw [control]
  split
  · rename_i hin
    exact iff_of_true rfl (Member.canJoin hin)
  by_cases hjoin : b.CanJoin u g
  · rw [regroup_of_canJoin hjoin]
    exact iff_of_true rfl hjoin
  refine iff_of_false ?_ hjoin
  unfold regroup
  split
  · intro hok
    cases hok
  split
  · intro hok
    cases hok
  · rename_i hclient hgroup
    refine absurd ⟨?_, not_not.mp hgroup⟩ hjoin
    rwa [Option.isNone_iff_eq_none, ← Option.not_isSome_iff_eq_none, not_not] at hclient

end Broker

end Zenstier
