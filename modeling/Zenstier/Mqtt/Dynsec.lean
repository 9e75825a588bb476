import Zenstier.Runtime
import Zenstier.Store.Table

/-!
# Broker accounts

Mosquitto's dynamic-security plugin keeps one account for each MQTT username.  The
backend changes the accounts with batches of control commands; each command is answered
by a response that repeats its name and carries an error text when it was not carried
out.  A created account is enabled at once.

`assertDynsecOk` is how the services read such an answer: an error text that says the
account already exists never counts as a failure, whatever the command was.
-/

namespace Zenstier

open Store

/-- The role of every enrolled device. -/
def DEVICE_ROLE : String := "zenstier-device"

/-- The broker group whose members may subscribe to the broadcasts of a device group. -/
def broadcastGroupName (groupId : String) : String := "zenstier-grp-" ++ groupId

/-- The control commands of the credential lifecycle. -/
inductive DynsecCommand
  | createClient (username password clientid : String) (roles groups : List String)
  | disableClient (username : String)
  | enableClient (username : String)
  | deleteClient (username : String)
deriving DecidableEq, Repr

structure DynsecResponse where
  command : String
  error : Option String := none
deriving DecidableEq, Repr

/-- A broker account. -/
structure Account where
  password : String
  clientid : String
  disabled : Bool := false
  roles : List String
  groups : List String
deriving DecidableEq, Repr

/-- The accounts of the broker, and the roles and groups they may refer to. -/
structure Broker where
  roles : List String
  groups : List String
  clients : Table String Account

namespace Broker

/-- Rewrites or removes an existing account. -/
def modify (b : Broker) (command username : String)
    (f : Table String Account → Table String Account) : DynsecResponse × Broker :=
  if (b.clients.find? username).isSome then ({ command }, { b with clients := f b.clients })
  else ({ command, error := "Client not found" }, b)

/-- Carries out one control command. -/
def apply (b : Broker) : DynsecCommand → DynsecResponse × Broker
  | .createClient username password clientid roles groups =>
      if (b.clients.find? username).isSome then
        ({ command := "createClient", error := "Client already exists" }, b)
      else if roles.any fun r ↦ r ∉ b.roles then
        ({ command := "createClient", error := "Role not found" }, b)
      else if groups.any fun g ↦ g ∉ b.groups then
        ({ command := "createClient", error := "Group not found" }, b)
      else
        ({ command := "createClient" },
          { b with clients := b.clients.put username { password, clientid, roles, groups } })
  | .disableClient username =>
      b.modify "disableClient" username (·.update username ({ · with disabled := true }))
  | .enableClient username =>
      b.modify "enableClient" username (·.update username ({ · with disabled := false }))
  | .deleteClient username => b.modify "deleteClient" username (·.delete username)

/-- Carries out a batch: one response for each command, in order. -/
def send (b : Broker) : List DynsecCommand → List DynsecResponse × Broker
  | [] => ([], b)
  | c :: cs =>
      let (r, b') := b.apply c
      let (rs, b'') := b'.send cs
      (r :: rs, b'')

@[simp] theorem send_singleton (b : Broker) (c : DynsecCommand) :
    b.send [c] = ([(b.apply c).1], (b.apply c).2) := rfl

/-- There is an account with this name. -/
def Has (b : Broker) (u : String) : Prop := (b.clients.find? u).isSome

instance (b : Broker) (u : String) : Decidable (b.Has u) := inferInstanceAs (Decidable (_ = _))

/-- There is an enabled device credential with this name. -/
def Live (b : Broker) (u : String) : Prop :=
  ∃ a, b.clients.find? u = some a ∧ a.disabled = false ∧ DEVICE_ROLE ∈ a.roles

instance (b : Broker) (u : String) : Decidable (b.Live u) :=
  match h : b.clients.find? u with
  | none => .isFalse fun ⟨a, ha, _⟩ ↦ by simp [h] at ha
  | some a => decidable_of_iff (a.disabled = false ∧ DEVICE_ROLE ∈ a.roles)
      ⟨fun hl ↦ ⟨a, h, hl⟩, fun ⟨a', ha', hl⟩ ↦ by
        rw [h] at ha'
        cases ha'
        exact hl⟩

theorem Live.has {b : Broker} {u : String} (h : b.Live u) : b.Has u := by
  obtain ⟨a, ha, -⟩ := h
  simp [Has, ha]

end Broker

/-! ## Reading a response -/

/-- Whether a response counts as a failure. -/
def DynsecResponse.fatal (tolerate : List String) (r : DynsecResponse) : Bool :=
  match truthy r.error with
  | none => false
  | some error =>
      let msg := toLowerCase error
      !includes msg "already exists" && !tolerate.any fun t ↦ includes msg (toLowerCase t)

/-- Treats "already exists" style errors as success so calls stay idempotent. -/
def assertDynsecOk (responses : List DynsecResponse) (tolerate : List String := []) :
    Except Err Unit :=
  let fatal := responses.filter (·.fatal tolerate)
  if fatal.isEmpty then .ok ()
  else .error (.error ("dynsec command failed: " ++
    "; ".intercalate (fatal.map fun f ↦ f.command ++ ": " ++ f.error.getD "undefined")))

@[simp] theorem assertDynsecOk_done (command : String) (tolerate : List String) :
    assertDynsecOk [{ command }] tolerate = .ok () := rfl

theorem assertDynsecOk_notFound (command : String) :
    ∃ e, assertDynsecOk [{ command, error := "Client not found" }] = .error e := ⟨_, rfl⟩

@[simp] theorem assertDynsecOk_tolerated (command : String) :
    assertDynsecOk [{ command, error := "Client not found" }] ["not found"] = .ok () := rfl

/-- Only a response with an error text is taken for a failure. -/
theorem error_of_assertDynsecOk {r : DynsecResponse} {tolerate : List String} {e : Err}
    (h : assertDynsecOk [r] tolerate = .error e) : r.error.isSome := by
  obtain ⟨command, error⟩ := r
  cases error with
  | none => cases h
  | some text => rfl

/-! ## What the commands do to the accounts -/

namespace Broker

variable {b : Broker} {u v : String}

theorem not_live_of_not_has (h : ¬ b.Has u) : ¬ b.Live u := fun hl ↦ h hl.has

theorem modify_of_has (h : b.Has u) (command : String)
    (f : Table String Account → Table String Account) :
    b.modify command u f = ({ command }, { b with clients := f b.clients }) := if_pos h

theorem modify_of_not_has (h : ¬ b.Has u) (command : String)
    (f : Table String Account → Table String Account) :
    b.modify command u f = ({ command, error := "Client not found" }, b) := if_neg h

/-- A created account is enabled; no other account becomes so. -/
theorem live_createClient {pw cid : String} {rs gs : List String}
    (h : (b.apply (.createClient u pw cid rs gs)).2.Live v) :
    b.Live v ∨ (v = u ∧ ¬ b.Has u) := by
  simp only [apply] at h
  split at h
  · exact .inl h
  split at h
  · exact .inl h
  split at h
  · exact .inl h
  · rename_i hnot _ _
    obtain ⟨a, ha, hrest⟩ := h
    rw [Table.find?_put] at ha
    split at ha
    · exact .inr ⟨‹_›, hnot⟩
    · exact .inl ⟨a, ha, hrest⟩

/-- A creation that is answered by an error creates nothing. -/
theorem createClient_error {pw cid : String} {rs gs : List String}
    (h : (b.apply (.createClient u pw cid rs gs)).1.error.isSome) :
    (b.apply (.createClient u pw cid rs gs)).2 = b := by
  simp only [apply] at h ⊢
  split at h
  · rw [if_pos ‹_›]
  rw [if_neg ‹_›]
  split at h
  · rw [if_pos ‹_›]
  rw [if_neg ‹_›]
  split at h
  · rw [if_pos ‹_›]
  · cases h

/-- Disabling ends the credential of that name and brings up no other. -/
theorem live_disableClient (h : (b.apply (.disableClient u)).2.Live v) : b.Live v ∧ v ≠ u := by
  by_cases hu : b.Has u
  · simp only [apply, modify_of_has hu] at h
    obtain ⟨a, ha, hd, hr⟩ := h
    rcases Table.find?_update_eq_some ha with ⟨a', -, -, rfl⟩ | ⟨hv, ha⟩
    · cases hd
    · exact ⟨⟨a, ha, hd, hr⟩, hv⟩
  · simp only [apply, modify_of_not_has hu] at h
    exact ⟨h, fun e ↦ not_live_of_not_has hu (e ▸ h)⟩

/-- Enabling brings up at most the credential of that name. -/
theorem live_enableClient (h : (b.apply (.enableClient u)).2.Live v) :
    b.Live v ∨ (v = u ∧ b.Has u) := by
  by_cases hu : b.Has u
  · simp only [apply, modify_of_has hu] at h
    by_cases hv : v = u
    · exact .inr ⟨hv, hu⟩
    · obtain ⟨a, ha, hrest⟩ := h
      rw [Table.find?_update, if_neg hv] at ha
      exact .inl ⟨a, ha, hrest⟩
  · simp only [apply, modify_of_not_has hu] at h
    exact .inl h

/-- After a deletion there is no account of that name, and no new one. -/
theorem has_deleteClient (h : (b.apply (.deleteClient u)).2.Has v) : b.Has v ∧ v ≠ u := by
  by_cases hu : b.Has u
  · simp only [apply, modify_of_has hu, Has, Table.find?_delete] at h
    split at h
    · simp at h
    · exact ⟨h, ‹_›⟩
  · simp only [apply, modify_of_not_has hu] at h
    exact ⟨h, fun e ↦ hu (e ▸ h)⟩

theorem live_deleteClient (h : (b.apply (.deleteClient u)).2.Live v) : b.Live v ∧ v ≠ u := by
  refine ⟨?_, (has_deleteClient h.has).2⟩
  by_cases hu : b.Has u
  · simp only [apply, modify_of_has hu] at h
    obtain ⟨a, ha, hrest⟩ := h
    rw [Table.find?_delete] at ha
    split at ha
    · contradiction
    · exact ⟨a, ha, hrest⟩
  · simpa only [apply, modify_of_not_has hu] using h

/-- Accounts other than a created one keep to what there was. -/
theorem has_enableClient : (b.apply (.enableClient u)).2.Has v ↔ b.Has v := by
  by_cases hu : b.Has u
  · simp only [apply, modify_of_has hu, Has, Table.find?_update]
    split <;> simp
  · simp only [apply, modify_of_not_has hu]

end Broker

end Zenstier
