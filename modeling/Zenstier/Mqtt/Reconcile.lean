import Zenstier.Groups.Store
import Zenstier.Tokens.Service

/-!
# Reconciling the broker with the database

Anything that edits the database directly leaves accounts or roles behind on the broker: an account
of a device whose token is gone or revoked, and a broadcast role whose group is gone.  The script
reads the groups and the tokens, then what is on the broker, and removes what is on the broker and
not in the database.

However a run ends, it touches nothing but these orphans, and a run that ends well has left none.
-/

namespace Zenstier

open Store Concurrent

/-! ## The script -/

/-- The requests of the script. -/
inductive ReconcileOp : Type → Type
  /-- The ids of the groups. -/
  | findGroups : ReconcileOp (List String)
  /-- The MQTT usernames of the tokens that are not REVOKED. -/
  | findTokens : ReconcileOp (List String)
  | listRoles : ReconcileOp (List String)
  | listClients : ReconcileOp (List String)
  | sendGroup (command : GroupControl) : ReconcileOp (List DynsecResponse)
  | sendClient (command : DynsecCommand) : ReconcileOp (List DynsecResponse)

/-- `s.startsWith(prefix)`. -/
def startsWith (s start : String) : Bool := start.toList.isPrefixOf s.toList

/-- The prefix of the roles of broadcast groups. -/
def BROADCAST_PREFIX : String := "zenstier-bcast-"

/-- `role.replace("zenstier-bcast-", "")`, on a role that starts with it. -/
def groupIdOf (role : String) : String :=
  String.ofList (role.toList.drop BROADCAST_PREFIX.toList.length)

namespace Backend

variable (s : Backend)

/-- A token that is not REVOKED has the username. -/
def Known (u : String) : Prop :=
  ∃ e ∈ s.tokens.entries, e.2.mqttUsername = u ∧ e.2.status ≠ .revoked

instance (u : String) : Decidable (s.Known u) := inferInstanceAs (Decidable (∃ e ∈ _, _))

/-- Serves one request of the script. -/
def serveScript {β : Type} : ReconcileOp β → Except Err β × Backend
  | .findGroups => (.ok s.deviceGroups.keys, s)
  | .findTokens =>
      (.ok ((s.tokens.findMany fun _ t ↦ t.status ≠ .revoked).map (·.2.mqttUsername)), s)
  | .listRoles => (.ok s.broker.roles, s)
  | .listClients => (.ok s.broker.clients.keys, s)
  | .sendGroup command =>
      (.ok [(s.broker.control command).1], { s with broker := (s.broker.control command).2 })
  | .sendClient command =>
      (.ok [(s.broker.apply command).1], { s with broker := (s.broker.apply command).2 })

end Backend

def reconcileServer : Server ReconcileOp Err Backend := ⟨fun op s ↦ s.serveScript op⟩

@[simp] theorem reconcileServer_serve {β : Type} (op : ReconcileOp β) (s : Backend) :
    reconcileServer.serve op s = s.serveScript op := rfl

abbrev ReconcileM := Prog ReconcileOp Err

/-- Sends a command; it does not matter if there is nothing to remove. -/
def remove (op : ReconcileOp (List DynsecResponse)) : ReconcileM Unit := do
  let responses ← .perform op
  .ofExcept (assertDynsecOk responses ["not found"])

/-- Removes a broadcast role and its group. -/
def removeRole (role : String) : ReconcileM Unit := do
  remove (.sendGroup (.deleteGroup (broadcastGroupName (groupIdOf role))))
  remove (.sendGroup (.deleteRole (broadcastRoleName (groupIdOf role))))

/-- Removes the account of a device. -/
def removeClient (client : String) : ReconcileM Unit :=
  remove (.sendClient (.deleteClient client))

/-- What follows once the database has been read.  Returns the exit code. -/
def reconcileWith (fix : Bool) (knownGroups knownClients : List String) : ReconcileM Nat := do
  let roles ← .perform .listRoles
  let clients ← .perform .listClients
  let broadcastRoles := roles.filter (startsWith · BROADCAST_PREFIX)
  -- Service accounts are seeded, not derived from a token, so exclude them.
  let deviceClients := clients.filter fun c ↦ startsWith c "dev-" ∧ c ∉ knownClients
  let orphanRoles := broadcastRoles.filter fun r ↦ groupIdOf r ∉ knownGroups
  if orphanRoles = [] ∧ deviceClients = [] then return 0
  else if !fix then return 1
  else
    orphanRoles.forM removeRole
    deviceClients.forM removeClient
    return 0

/-- The body of the script. -/
def reconcileBody (fix : Bool) : ReconcileM Nat := do
  let groups ← .perform .findGroups
  let tokens ← .perform .findTokens
  reconcileWith fix groups tokens

/-- The script: an error ends it with exit code 1. -/
def reconcile (fix : Bool) : ReconcileM Nat :=
  (reconcileBody fix).tryCatch fun _ ↦ return 1

/-! ## Orphans -/

section Orphans

variable (s : Backend)

/-- An account of a device that has no token any more. -/
structure OrphanClient (u : String) : Prop where
  device : startsWith u "dev-" = true
  has : s.broker.Has u
  unknown : ¬ s.Known u

/-- A broadcast role whose group is gone. -/
structure OrphanRole (r : String) : Prop where
  broadcast : startsWith r BROADCAST_PREFIX = true
  mem : r ∈ s.broker.roles
  unknown : s.deviceGroups.find? (groupIdOf r) = none

end Orphans

/-- The name of a broadcast role, from the id of its group. -/
theorem broadcastRoleName_groupIdOf {r : String} (h : startsWith r BROADCAST_PREFIX = true) :
    broadcastRoleName (groupIdOf r) = r := by
  obtain ⟨rest, hrest⟩ := List.isPrefixOf_iff_prefix.mp h
  refine String.toList_injective ?_
  have hname : broadcastRoleName (groupIdOf r) = BROADCAST_PREFIX ++ groupIdOf r := rfl
  rw [hname, String.toList_append, groupIdOf, String.toList_ofList, ← hrest,
    List.drop_left]

/-- What the script may do to a state: the database stays, and of the broker, all but orphans. -/
structure SparesKnown (s t : Backend) : Prop where
  database : t = { s with broker := t.broker }
  /-- Nothing is created. -/
  has : ∀ u, t.broker.Has u → s.broker.Has u
  role : ∀ r ∈ t.broker.roles, r ∈ s.broker.roles
  group : ∀ g ∈ t.broker.groups, g ∈ s.broker.groups
  /-- The account of a device with a token stays, and so does every other account. -/
  account : ∀ u a, s.broker.clients.find? u = some a → ¬ OrphanClient s u →
    ∃ roles groups, t.broker.clients.find? u = some { a with roles, groups } ∧
      roles ⊆ a.roles ∧ groups ⊆ a.groups ∧ (∀ r ∈ a.roles, ¬ OrphanRole s r → r ∈ roles) ∧
      ∀ g ∈ a.groups, (∀ r, OrphanRole s r → g ≠ broadcastGroupName (groupIdOf r)) → g ∈ groups
  keepsRole : ∀ r ∈ s.broker.roles, ¬ OrphanRole s r → r ∈ t.broker.roles
  keepsGroup : ∀ g ∈ s.broker.groups,
    (∀ r, OrphanRole s r → g ≠ broadcastGroupName (groupIdOf r)) → g ∈ t.broker.groups

namespace SparesKnown

variable {s t : Backend}

theorem refl (s : Backend) : SparesKnown s s :=
  ⟨rfl, fun _ h ↦ h, fun _ h ↦ h, fun _ h ↦ h,
    fun _ a h _ ↦ ⟨a.roles, a.groups, h, .refl _, .refl _, fun _ hr _ ↦ hr, fun _ hg _ ↦ hg⟩,
    fun _ h _ ↦ h, fun _ h _ ↦ h⟩

theorem deleteGroup (h : SparesKnown s t) {r : String} (hr : OrphanRole s r) :
    SparesKnown s { t with
      broker := (t.broker.control (.deleteGroup (broadcastGroupName (groupIdOf r)))).2 } := by
  have hne : ∀ g, (∀ r, OrphanRole s r → g ≠ broadcastGroupName (groupIdOf r)) →
      decide (g ≠ broadcastGroupName (groupIdOf r)) = true := fun g hg ↦ decide_eq_true (hg r hr)
  rw [Broker.control]
  split
  · exact ⟨h.database, h.has, h.role, h.group, h.account, h.keepsRole, h.keepsGroup⟩
  constructor
  case database =>
    rw [h.database]
  case has =>
    refine fun u hu ↦ h.has u ?_
    simpa [Broker.Has, Table.find?_updateMany] using hu
  case role => exact h.role
  case group => exact fun g hg ↦ h.group g (List.mem_of_mem_filter hg)
  case account =>
    intro u a hu hnot
    obtain ⟨roles, groups, hfind, hsub, hsub', hroles, hgroups⟩ := h.account u a hu hnot
    refine ⟨roles, groups.filter (· ≠ broadcastGroupName (groupIdOf r)), ?_, hsub,
      List.Subset.trans (List.filter_subset_self _) hsub', hroles, ?_⟩
    · simp [Table.find?_updateMany, hfind]
    · exact fun g hg hkeep ↦ List.mem_filter.mpr ⟨hgroups g hg hkeep, hne g hkeep⟩
  case keepsRole => exact h.keepsRole
  case keepsGroup =>
    exact fun g hg hkeep ↦ List.mem_filter.mpr ⟨h.keepsGroup g hg hkeep, hne g hkeep⟩

theorem deleteRole (h : SparesKnown s t) {r : String} (hr : OrphanRole s r) :
    SparesKnown s { t with broker := (t.broker.control (.deleteRole r)).2 } := by
  have hne : ∀ r', ¬ OrphanRole s r' → decide (r' ≠ r) = true := by
    intro r' hnot
    refine decide_eq_true ?_
    rintro rfl
    exact hnot hr
  rw [Broker.control]
  split
  · exact ⟨h.database, h.has, h.role, h.group, h.account, h.keepsRole, h.keepsGroup⟩
  constructor
  case database =>
    rw [h.database]
  case has =>
    refine fun u hu ↦ h.has u ?_
    simpa [Broker.Has, Table.find?_updateMany] using hu
  case role => exact fun r' hr' ↦ h.role r' (List.mem_of_mem_filter hr')
  case group => exact h.group
  case account =>
    intro u a hu hnot
    obtain ⟨roles, groups, hfind, hsub, hsub', hroles, hgroups⟩ := h.account u a hu hnot
    refine ⟨roles.filter (· ≠ r), groups, ?_, List.Subset.trans (List.filter_subset_self _) hsub,
      hsub', ?_, hgroups⟩
    · simp [Table.find?_updateMany, hfind]
    · exact fun r' hr' hkeep ↦ List.mem_filter.mpr ⟨hroles r' hr' hkeep, hne r' hkeep⟩
  case keepsRole =>
    exact fun r' hr' hkeep ↦ List.mem_filter.mpr ⟨h.keepsRole r' hr' hkeep, hne r' hkeep⟩
  case keepsGroup => exact h.keepsGroup

theorem deleteClient (h : SparesKnown s t) {u : String} (hu : OrphanClient s u) :
    SparesKnown s { t with broker := (t.broker.apply (.deleteClient u)).2 } := by
  rw [Broker.apply, Broker.modify]
  split
  · constructor
    case database =>
      rw [h.database]
    case has =>
      intro v hv
      refine h.has v ?_
      rw [Broker.Has, Table.find?_delete] at hv
      split at hv
      · cases hv
      · exact hv
    case role => exact h.role
    case group => exact h.group
    case account =>
      intro v a hv hnot
      obtain ⟨roles, groups, hfind, hkeep⟩ := h.account v a hv hnot
      refine ⟨roles, groups, ?_, hkeep⟩
      rw [Table.find?_delete, if_neg]
      · exact hfind
      · rintro rfl
        exact hnot hu
    case keepsRole => exact h.keepsRole
    case keepsGroup => exact h.keepsGroup
  · exact ⟨h.database, h.has, h.role, h.group, h.account, h.keepsRole, h.keepsGroup⟩

/-- A role that is gone stays gone. -/
theorem not_orphanRole (h : SparesKnown s t) (hgone : ∀ r, OrphanRole s r → r ∉ t.broker.roles)
    (r : String) : ¬ OrphanRole t r := by
  intro hr
  have hunknown := hr.unknown
  rw [h.database] at hunknown
  exact hgone r ⟨hr.broadcast, h.role r hr.mem, hunknown⟩ hr.mem

theorem not_orphanClient (h : SparesKnown s t) (hgone : ∀ u, OrphanClient s u → ¬ t.broker.Has u)
    (u : String) : ¬ OrphanClient t u := by
  intro hu
  have hunknown := hu.unknown
  rw [h.database] at hunknown
  exact hgone u ⟨hu.device, h.has u hu.has, hunknown⟩ hu.has

end SparesKnown

/-! ## What the script finds -/

section Finds

variable (s : Backend)

/-- The roles that the script removes, by what it has read. -/
theorem mem_orphanRoles {r : String} :
    r ∈ (s.broker.roles.filter (startsWith · BROADCAST_PREFIX)).filter
      (fun r ↦ groupIdOf r ∉ s.deviceGroups.keys) ↔ OrphanRole s r := by
  rw [List.mem_filter, List.mem_filter, decide_eq_true_iff, Table.mem_keys,
    Option.not_isSome_iff_eq_none]
  exact ⟨fun h ↦ ⟨h.1.2, h.1.1, h.2⟩, fun h ↦ ⟨⟨h.mem, h.broadcast⟩, h.unknown⟩⟩

/-- The usernames that the script keeps. -/
theorem mem_usernames {u : String} :
    u ∈ (s.tokens.findMany fun _ t ↦ t.status ≠ .revoked).map (·.2.mqttUsername) ↔ s.Known u := by
  simp only [Table.findMany, List.mem_map, List.mem_filter, decide_eq_true_eq]
  constructor
  · rintro ⟨e, ⟨he, hne⟩, hu⟩
    exact ⟨e, he, hu, hne⟩
  · rintro ⟨e, he, hu, hne⟩
    exact ⟨e, ⟨he, hne⟩, hu⟩

/-- The accounts that the script removes. -/
theorem mem_deviceClients {u : String} :
    u ∈ s.broker.clients.keys.filter (fun c ↦ startsWith c "dev-" ∧
      c ∉ (s.tokens.findMany fun _ t ↦ t.status ≠ .revoked).map (·.2.mqttUsername)) ↔
      OrphanClient s u := by
  rw [List.mem_filter, decide_eq_true_iff, Table.mem_keys, mem_usernames]
  exact ⟨fun h ↦ ⟨h.2.1, h.1, h.2.2⟩, fun h ↦ ⟨h.has, h.device, h.unknown⟩⟩

end Finds

/-! ## What the script removes -/

namespace Broker

variable {b : Broker}

theorem roles_deleteGroup (g : String) : (b.control (.deleteGroup g)).2.roles = b.roles := by
  rw [control]
  split <;> rfl

theorem has_deleteGroup {g u : String} :
    (b.control (.deleteGroup g)).2.Has u ↔ b.Has u := by
  rw [control]
  split
  · rfl
  · simp [Has, Table.find?_updateMany]

theorem roles_deleteRole (r : String) :
    (b.control (.deleteRole r)).2.roles = b.roles.filter (· ≠ r) := by
  rw [control]
  split
  · rename_i hr
    refine (List.filter_eq_self.mpr fun r' hr' ↦ decide_eq_true ?_).symm
    rintro rfl
    exact hr hr'
  · rfl

theorem has_deleteRole {r u : String} : (b.control (.deleteRole r)).2.Has u ↔ b.Has u := by
  rw [control]
  split
  · rfl
  · simp [Has, Table.find?_updateMany]

end Broker

section Removals

variable {adm : Admits ReconcileOp Err Backend}

/-- A removal: it is served, whatever there is to remove, or it fails before or after. -/
theorem wp_remove {Q : Except Err Unit → Backend → Prop} {op : ReconcileOp (List DynsecResponse)}
    {response : DynsecResponse} {t t' : Backend} (hserve : t.serveScript op = (.ok [response], t'))
    (hok : assertDynsecOk [response] ["not found"] = .ok ()) (hdone : Q (.ok ()) t')
    (hrefused : ∀ e, Q (.error e) t) (hunanswered : ∀ e, Q (.error e) t') :
    wp reconcileServer adm (fun _ _ _ ↦ True) Q (remove op) t := by
  refine wp_await trivial (fun _ ↦ ?_) (fun e _ ↦ hrefused e) fun e _ ↦ ?_
  · rw [reconcileServer_serve, hserve]
    refine (wp_bind _ _ _).mpr ?_
    rw [wp_ofExcept]
    dsimp only
    rw [hok, wp_ofExcept]
    exact hdone
  · rw [reconcileServer_serve, hserve]
    exact hunanswered e

theorem deleteGroup_ok (b : Broker) (g : String) :
    assertDynsecOk [(b.control (.deleteGroup g)).1] ["not found"] = .ok () := by
  rw [Broker.control]
  split <;> rfl

theorem deleteRole_ok (b : Broker) (r : String) :
    assertDynsecOk [(b.control (.deleteRole r)).1] ["not found"] = .ok () := by
  rw [Broker.control]
  split <;> rfl

theorem deleteClient_ok (b : Broker) (u : String) :
    assertDynsecOk [(b.apply (.deleteClient u)).1] ["not found"] = .ok () := by
  rw [Broker.apply, Broker.modify]
  split <;> rfl

/-- The removal of an orphaned role. -/
theorem wp_removeRole {s t : Backend} {r : String} (h : SparesKnown s t) (hr : OrphanRole s r) :
    wp reconcileServer adm (fun _ _ _ ↦ True) (fun res t' ↦ SparesKnown s t' ∧
      (∀ r' ∈ t'.broker.roles, r' ∈ t.broker.roles) ∧ (res = .ok () → r ∉ t'.broker.roles))
      (removeRole r) t := by
  have hgroup := h.deleteGroup hr
  have hroles : ∀ r' ∈ (t.broker.control (.deleteGroup (broadcastGroupName
      (groupIdOf r)))).2.roles, r' ∈ t.broker.roles := fun r' hr' ↦ by
    rwa [Broker.roles_deleteGroup] at hr'
  unfold removeRole
  rw [broadcastRoleName_groupIdOf hr.broadcast, wp_bind]
  refine wp_remove rfl (deleteGroup_ok _ _) ?_ (fun e ↦ ⟨h, fun _ h ↦ h, fun he ↦ nomatch he⟩)
    fun e ↦ ⟨hgroup, hroles, fun he ↦ nomatch he⟩
  have hrole := hgroup.deleteRole hr
  have hroles' : ∀ r' ∈ ((t.broker.control (.deleteGroup (broadcastGroupName
      (groupIdOf r)))).2.control (.deleteRole r)).2.roles, r' ∈ t.broker.roles ∧ r' ≠ r := by
    intro r' hr'
    rw [Broker.roles_deleteRole, List.mem_filter, decide_eq_true_iff] at hr'
    exact ⟨hroles r' hr'.1, hr'.2⟩
  refine wp_remove rfl (deleteRole_ok _ _) ?_ (fun e ↦ ⟨hgroup, hroles, fun he ↦ nomatch he⟩)
    fun e ↦ ⟨hrole, fun r' hr' ↦ (hroles' r' hr').1, fun he ↦ nomatch he⟩
  exact ⟨hrole, fun r' hr' ↦ (hroles' r' hr').1, fun _ hmem ↦ (hroles' r hmem).2 rfl⟩

/-- The removal of an orphaned account. -/
theorem wp_removeClient {s t : Backend} {u : String} (h : SparesKnown s t) (hu : OrphanClient s u) :
    wp reconcileServer adm (fun _ _ _ ↦ True) (fun res t' ↦ SparesKnown s t' ∧
      t'.broker.roles = t.broker.roles ∧ (∀ v, t'.broker.Has v → t.broker.Has v) ∧
      (res = .ok () → ¬ t'.broker.Has u)) (removeClient u) t := by
  have hclient := h.deleteClient hu
  have hroles : (t.broker.apply (.deleteClient u)).2.roles = t.broker.roles := by
    rw [Broker.apply, Broker.modify]
    split <;> rfl
  have hhas : ∀ v, (t.broker.apply (.deleteClient u)).2.Has v → t.broker.Has v ∧ v ≠ u :=
    fun v ↦ Broker.has_deleteClient
  refine wp_remove rfl (deleteClient_ok _ _) ?_ (fun e ↦ ⟨h, rfl, fun _ h ↦ h, by rintro ⟨⟩⟩)
    fun e ↦ ⟨hclient, hroles, fun v hv ↦ (hhas v hv).1, by rintro ⟨⟩⟩
  exact ⟨hclient, hroles, fun v hv ↦ (hhas v hv).1, fun _ hmem ↦ (hhas u hmem).2 rfl⟩

end Removals

/-! ## A whole run -/

section Run

variable {adm : Admits ReconcileOp Err Backend} {s : Backend}

/-- The roles are removed one by one. -/
theorem wp_removeRoles {roles : List String} (hroles : ∀ r ∈ roles, OrphanRole s r) {t : Backend}
    (ht : SparesKnown s t) : wp reconcileServer adm (fun _ _ _ ↦ True)
      (fun res t' ↦ SparesKnown s t' ∧ (res = .ok ⟨⟩ → ∀ r ∈ roles, r ∉ t'.broker.roles))
      (roles.forM removeRole) t := by
  -- the roles that are no longer to come are gone
  let I (rest : List String) (t : Backend) : Prop :=
    SparesKnown s t ∧ (∀ r ∈ rest, OrphanRole s r) ∧ ∀ r ∈ roles, r ∉ rest → r ∉ t.broker.roles
  refine wp_forM (I := I) roles ?_ ?_ ⟨ht, hroles, fun r hr hnot ↦ absurd hr hnot⟩
  · rintro r rest t ⟨ht, horphans, hgone⟩
    refine wp_mono (wp_removeRole ht (horphans r List.mem_cons_self)) ?_
    rintro (e | _) t' ⟨ht', hshrink, hr⟩
    · exact ⟨ht', fun he ↦ nomatch he⟩
    · refine ⟨ht', fun r' hr' ↦ horphans r' (List.mem_cons_of_mem r hr'), fun r' hmem hnot ↦ ?_⟩
      by_cases heq : r' = r
      · rw [heq]
        exact hr rfl
      · exact fun hin ↦ hgone r' hmem (fun h ↦ (List.mem_cons.mp h).elim heq hnot) (hshrink r' hin)
  · rintro t ⟨ht, -, hgone⟩
    exact ⟨ht, fun _ r hr ↦ hgone r hr List.not_mem_nil⟩

/-- So are the accounts, and the roles stay as they are. -/
theorem wp_removeClients {clients : List String} (hclients : ∀ u ∈ clients, OrphanClient s u)
    {t : Backend} (ht : SparesKnown s t) : wp reconcileServer adm (fun _ _ _ ↦ True)
      (fun res t' ↦ SparesKnown s t' ∧ t'.broker.roles = t.broker.roles ∧
        (res = .ok ⟨⟩ → ∀ u ∈ clients, ¬ t'.broker.Has u)) (clients.forM removeClient) t := by
  let I (rest : List String) (t' : Backend) : Prop := SparesKnown s t' ∧
    t'.broker.roles = t.broker.roles ∧ (∀ u ∈ rest, OrphanClient s u) ∧
    ∀ u ∈ clients, u ∉ rest → ¬ t'.broker.Has u
  refine wp_forM (I := I) clients ?_ ?_ ⟨ht, rfl, hclients, fun u hu hnot ↦ absurd hu hnot⟩
  · rintro u rest t' ⟨ht', hroles, horphans, hgone⟩
    refine wp_mono (wp_removeClient ht' (horphans u List.mem_cons_self)) ?_
    rintro (e | _) t'' ⟨ht'', hroles', hshrink, hu⟩
    · exact ⟨ht'', hroles'.trans hroles, fun he ↦ nomatch he⟩
    · refine ⟨ht'', hroles'.trans hroles,
        fun u' hu' ↦ horphans u' (List.mem_cons_of_mem u hu'), fun u' hmem hnot ↦ ?_⟩
      by_cases heq : u' = u
      · rw [heq]
        exact hu rfl
      · exact fun hin ↦ hgone u' hmem (fun h ↦ (List.mem_cons.mp h).elim heq hnot) (hshrink u' hin)
  · rintro t' ⟨ht', hroles, -, hgone⟩
    exact ⟨ht', hroles, fun _ u hu ↦ hgone u hu List.not_mem_nil⟩

/-- There is nothing to remove. -/
def Reconciled (t : Backend) : Prop := (∀ u, ¬ OrphanClient t u) ∧ ∀ r, ¬ OrphanRole t r

/-- A run of the body: it removes orphans only, and all of them if it returns 0. -/
theorem wp_reconcileBody (fix : Bool) (s : Backend) :
    wp reconcileServer adm (fun _ _ _ ↦ True) (fun res t ↦ SparesKnown s t ∧
      (fix = false → t = s) ∧ (res = .ok 0 → Reconciled t)) (reconcileBody fix) s := by
  have hfail : ∀ e, SparesKnown s s ∧ (fix = false → s = s) ∧
      ((.error e : Except Err Nat) = .ok 0 → Reconciled s) :=
    fun e ↦ ⟨.refl s, fun _ ↦ rfl, fun he ↦ nomatch he⟩
  unfold reconcileBody
  refine wp_await_read trivial rfl ?_ hfail
  refine wp_await_read trivial rfl ?_ hfail
  unfold reconcileWith
  refine wp_await_read trivial rfl ?_ hfail
  refine wp_await_read trivial rfl ?_ hfail
  dsimp only
  have hroles := fun r ↦ mem_orphanRoles s (r := r)
  have hclients := fun u ↦ mem_deviceClients s (u := u)
  generalize s.broker.clients.keys.filter _ = deviceClients at hclients ⊢
  generalize (s.broker.roles.filter _).filter _ = orphanRoles at hroles ⊢
  split
  · rename_i hnil
    refine ⟨.refl s, fun _ ↦ rfl, fun _ ↦ ⟨fun u hu ↦ ?_, fun r hr ↦ ?_⟩⟩
    · exact absurd ((hclients u).mpr hu) (hnil.2 ▸ List.not_mem_nil)
    · exact absurd ((hroles r).mpr hr) (hnil.1 ▸ List.not_mem_nil)
  cases fix with
  | false => exact ⟨.refl s, fun _ ↦ rfl, fun he ↦ nomatch he⟩
  | true =>
      refine (wp_bind _ _ _).mpr (wp_mono
        (wp_removeRoles (fun r hr ↦ (hroles r).mp hr) (.refl s)) ?_)
      rintro (e | _) t ⟨ht, hgone⟩
      · exact ⟨ht, fun he ↦ absurd he (by decide), fun he ↦ nomatch he⟩
      refine (wp_bind _ _ _).mpr (wp_mono
        (wp_removeClients (fun u hu ↦ (hclients u).mp hu) ht) ?_)
      rintro (e | _) t' ⟨ht', hsame, hgone'⟩
      · exact ⟨ht', fun he ↦ absurd he (by decide), fun he ↦ nomatch he⟩
      refine ⟨ht', fun he ↦ absurd he (by decide), fun _ ↦ ⟨?_, ?_⟩⟩
      · exact ht'.not_orphanClient fun u hu ↦ hgone' rfl u ((hclients u).mpr hu)
      · exact ht'.not_orphanRole fun r hr ↦ hsame ▸ hgone rfl r ((hroles r).mpr hr)

/-- What a run of the script comes to. -/
theorem wp_reconcile (fix : Bool) (s : Backend) :
    wp reconcileServer adm (fun _ _ _ ↦ True) (fun res t ↦ SparesKnown s t ∧
      (fix = false → t = s) ∧ (res = .ok 0 → Reconciled t)) (reconcile fix) s := by
  refine (wp_tryCatch _ _ _).mpr (wp_mono (wp_reconcileBody fix s) ?_)
  rintro (e | code) t ⟨ht, hreport, hcode⟩
  · exact ⟨ht, hreport, fun he ↦ nomatch he⟩
  · exact ⟨ht, hreport, hcode⟩

/-- If there is nothing to remove, a run that nothing fails says so, and changes nothing. -/
theorem wp_reconcile_reconciled (fix : Bool) (hs : Reconciled s) :
    wp reconcileServer noFailure (fun _ _ _ ↦ True) (fun res t ↦ res = .ok 0 ∧ t = s)
      (reconcile fix) s := by
  refine (wp_tryCatch _ _ _).mpr ?_
  unfold reconcileBody reconcileWith
  refine wp_await_served trivial rfl (wp_await_served trivial rfl
    (wp_await_served trivial rfl (wp_await_served trivial rfl ?_)))
  dsimp only
  rw [if_pos]
  · exact ⟨rfl, rfl⟩
  constructor
  · exact List.eq_nil_iff_forall_not_mem.mpr fun r hr ↦ hs.2 r ((mem_orphanRoles s).mp hr)
  · exact List.eq_nil_iff_forall_not_mem.mpr fun u hu ↦ hs.1 u ((mem_deviceClients s).mp hu)

/-- A removal that nothing fails is one. -/
theorem wp_remove_served {Q : Except Err Unit → Backend → Prop}
    {op : ReconcileOp (List DynsecResponse)} {response : DynsecResponse} {t t' : Backend}
    (hserve : t.serveScript op = (.ok [response], t'))
    (hok : assertDynsecOk [response] ["not found"] = .ok ()) (hdone : Q (.ok ()) t') :
    wp reconcileServer noFailure (fun _ _ _ ↦ True) Q (remove op) t := by
  refine wp_await_served trivial hserve ?_
  rw [hok, wp_ofExcept]
  exact hdone

/-- If nothing fails, the roles are removed, and no account appears. -/
theorem wp_removeRoles_served (roles : List String) (t : Backend) :
    wp reconcileServer noFailure (fun _ _ _ ↦ True) (fun res t' ↦ res = .ok ⟨⟩ ∧
      t'.tokens = t.tokens ∧ ∀ u, t'.broker.Has u → t.broker.Has u) (roles.forM removeRole) t := by
  let I (_ : List String) (t' : Backend) : Prop := t'.tokens = t.tokens ∧
    ∀ u, t'.broker.Has u → t.broker.Has u
  refine wp_forM (I := I) roles ?_ (fun t' ht' ↦ ⟨rfl, ht'⟩) ⟨rfl, fun _ hu ↦ hu⟩
  rintro r rest t' ⟨htokens, hhas⟩
  refine (wp_bind _ _ _).mpr (wp_remove_served rfl (deleteGroup_ok _ _) ?_)
  refine wp_remove_served rfl (deleteRole_ok _ _) ⟨htokens, fun u hu ↦ hhas u ?_⟩
  exact Broker.has_deleteGroup.mp (Broker.has_deleteRole.mp hu)

/-- So are the accounts. -/
theorem wp_removeClients_served (clients : List String) (t : Backend) :
    wp reconcileServer noFailure (fun _ _ _ ↦ True) (fun res t' ↦ res = .ok ⟨⟩ ∧
      t'.tokens = t.tokens ∧ ∀ u, t'.broker.Has u → t.broker.Has u ∧ u ∉ clients)
      (clients.forM removeClient) t := by
  let I (rest : List String) (t' : Backend) : Prop := t'.tokens = t.tokens ∧
    ∀ u, t'.broker.Has u → t.broker.Has u ∧ (u ∈ clients → u ∈ rest)
  refine wp_forM (I := I) clients ?_ ?_ ⟨rfl, fun _ hu ↦ ⟨hu, id⟩⟩
  · rintro v rest t' ⟨htokens, hhas⟩
    refine wp_remove_served rfl (deleteClient_ok _ _) ⟨htokens, fun u hu ↦ ?_⟩
    obtain ⟨hu, hne⟩ := Broker.has_deleteClient hu
    exact ⟨(hhas u hu).1, fun hmem ↦ ((List.mem_cons.mp ((hhas u hu).2 hmem))).resolve_left hne⟩
  · rintro t' ⟨htokens, hhas⟩
    exact ⟨rfl, htokens, fun u hu ↦ ⟨(hhas u hu).1, fun hmem ↦
      absurd ((hhas u hu).2 hmem) List.not_mem_nil⟩⟩

/-- If nothing fails, a run that is to repair returns 0, and leaves no account of a device but
those it has seen in the database. -/
theorem wp_reconcileWith_served (knownGroups knownClients : List String) (s : Backend) :
    wp reconcileServer noFailure (fun _ _ _ ↦ True) (fun res t ↦ res = .ok 0 ∧
      t.tokens = s.tokens ∧ ∀ u, t.broker.Has u → startsWith u "dev-" → u ∈ knownClients)
      (reconcileWith true knownGroups knownClients) s := by
  unfold reconcileWith
  refine wp_await_served trivial rfl (wp_await_served trivial rfl ?_)
  dsimp only
  have hclients : ∀ u, s.broker.Has u → startsWith u "dev-" → u ∉ s.broker.clients.keys.filter
      (fun c ↦ startsWith c "dev-" ∧ c ∉ knownClients) → u ∈ knownClients := by
    intro u hu hdevice hnot
    by_contra hunknown
    exact hnot (List.mem_filter.mpr ⟨Table.mem_keys.mpr hu, decide_eq_true ⟨hdevice, hunknown⟩⟩)
  generalize s.broker.clients.keys.filter _ = deviceClients at hclients ⊢
  generalize (s.broker.roles.filter _).filter _ = orphanRoles
  split
  · rename_i hnil
    exact ⟨rfl, rfl, fun u hu hdevice ↦ hclients u hu hdevice (hnil.2 ▸ List.not_mem_nil)⟩
  refine (wp_bind _ _ _).mpr (wp_mono (wp_removeRoles_served orphanRoles s) ?_)
  rintro r t ⟨rfl, htokens, hhas⟩
  refine (wp_bind _ _ _).mpr (wp_mono (wp_removeClients_served deviceClients t) ?_)
  rintro r t' ⟨rfl, htokens', hhas'⟩
  refine ⟨rfl, htokens'.trans htokens, fun u hu hdevice ↦ ?_⟩
  exact hclients u (hhas u (hhas' u hu).1) hdevice (hhas' u hu).2

theorem wp_reconcile_served (s : Backend) :
    wp reconcileServer noFailure (fun _ _ _ ↦ True) (fun res _ ↦ res = .ok 0)
      (reconcile true) s := by
  refine (wp_tryCatch _ _ _).mpr (wp_await_served trivial rfl (wp_await_served trivial rfl ?_))
  refine wp_mono (wp_reconcileWith_served _ _ s) ?_
  rintro r t ⟨rfl, -⟩
  rfl

end Run

/-- However a run of the script ends, and whatever fails on the way, it touches nothing but
orphans, and without `--fix` nothing at all.  If it returns 0 there are none left, and a run with
`--fix` that nothing fails returns 0; so does every later run, which then changes nothing. -/
theorem reconcile_converges (s : Backend) :
    (∀ fix, wp reconcileServer anyFate (fun _ _ _ ↦ True) (fun res t ↦ SparesKnown s t ∧
      (fix = false → t = s) ∧ (res = .ok 0 → Reconciled t)) (reconcile fix) s) ∧
    wp reconcileServer noFailure (fun _ _ _ ↦ True) (fun res t ↦ res = .ok 0 ∧ Reconciled t ∧
      ∀ fix, wp reconcileServer noFailure (fun _ _ _ ↦ True) (fun res' t' ↦ res' = .ok 0 ∧ t' = t)
        (reconcile fix) t) (reconcile true) s := by
  refine ⟨fun fix ↦ wp_reconcile fix s, ?_⟩
  refine wp_mono (wp_and (wp_reconcile true s) (wp_reconcile_served s)) ?_
  rintro res t ⟨⟨-, -, hcode⟩, rfl⟩
  exact ⟨rfl, hcode rfl, fun fix ↦ wp_reconcile_reconciled fix (hcode rfl)⟩

end Zenstier
