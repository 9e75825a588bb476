import Zenstier.Groups.Service

/-!
# The dynamic security of the broker

Everything the plugin keeps: the defaults, the roles with their ACLs, the groups with their roles,
and the accounts.  `Broker` and `AccessControl` are parts of it: what a command does to accounts
and how it is answered is what it does to the `Broker`, and the roles and groups are the
`AccessControl`.

The broker is seeded with three roles and two service accounts.  The seed can be sown again: what
exists already is left alone, except for the passwords.
-/

namespace Zenstier

open Store Concurrent Mqtt

/-! ## The roles of the backend -/

def SERVER_ROLE : String := "zenstier-server"

def PROVISIONER_ROLE : String := "zenstier-provisioner"

/-- Backend data plane: dispatch commands, ingest results. -/
def serverRole : List Acl :=
  [ { acltype := .publishClientSend, topic := "zenstier/+/command", priority := 0, allow := true },
    { acltype := .publishClientSend, topic := "zenstier/broadcast/+/command", priority := 0
      allow := true },
    { acltype := .publishClientSend, topic := "zenstier/+/status", priority := 0, allow := true },
    { acltype := .subscribePattern, topic := "zenstier/+/result", priority := 0, allow := true },
    { acltype := .subscribePattern, topic := "zenstier/+/status", priority := 0, allow := true },
    { acltype := .publishClientReceive, topic := "zenstier/+/result", priority := 0
      allow := true },
    { acltype := .publishClientReceive, topic := "zenstier/+/status", priority := 0
      allow := true },
    { acltype := .unsubscribePattern, topic := "zenstier/#", priority := 0, allow := true },
    { acltype := .subscribePattern, topic := "$SYS/broker/uptime", priority := 0, allow := true },
    { acltype := .publishClientReceive, topic := "$SYS/broker/uptime", priority := 0
      allow := true },
    -- A compromised worker must not be able to forge command output, nor mint credentials.
    { acltype := .publishClientSend, topic := "zenstier/+/result", priority := 100
      allow := false },
    { acltype := .publishClientSend, topic := "$CONTROL/#", priority := 100, allow := false },
    { acltype := .subscribePattern, topic := "$CONTROL/#", priority := 100, allow := false }]

def CONTROL : String := "$CONTROL/dynamic-security/v1"

def RESPONSE : String := "$CONTROL/dynamic-security/v1/response"

/-- Credential lifecycle only.  No access to application topics. -/
def provisionerRole : List Acl :=
  [ { acltype := .publishClientSend, topic := CONTROL, priority := 0, allow := true },
    { acltype := .subscribePattern, topic := RESPONSE, priority := 0, allow := true },
    { acltype := .publishClientReceive, topic := RESPONSE, priority := 0, allow := true },
    { acltype := .unsubscribePattern, topic := RESPONSE, priority := 0, allow := true },
    { acltype := .publishClientSend, topic := "zenstier/#", priority := 100, allow := false },
    { acltype := .subscribePattern, topic := "zenstier/#", priority := 100, allow := false }]

/-! ## The state of the plugin -/

structure DynamicSecurity where
  defaultACLAccess : AclType → Bool
  roles : Table String (List Acl)
  groups : Table String (List String)
  clients : Table String Account

/-- The control commands of the backend and of the seed. -/
inductive ControlCommand
  | setDefaultACLAccess (access : AclType → Bool)
  | setClientPassword (username password : String)
  /-- A command of the credential lifecycle. -/
  | client (command : DynsecCommand)
  /-- A command of the life of a group, or the creation of a role. -/
  | group (command : GroupControl)

namespace DynamicSecurity

variable (d : DynamicSecurity)

/-- The accounts, and the names they may refer to. -/
def broker : Broker where
  roles := d.roles.keys
  groups := d.groups.keys
  clients := d.clients

/-- The roles, and the roles of the groups. -/
def accessControl : AccessControl := ⟨d.roles, d.groups⟩

/-- What a command that is carried out does to roles and groups. -/
def define : GroupControl → DynamicSecurity
  | .createRole rolename acls => { d with roles := d.roles.put rolename acls }
  | .createGroup groupname roles => { d with groups := d.groups.put groupname roles }
  | .deleteGroup groupname => { d with groups := d.groups.delete groupname }
  | .deleteRole rolename =>
      { d with
        roles := d.roles.delete rolename
        groups := d.groups.updateMany (fun _ _ ↦ true) (·.filter (· ≠ rolename)) }
  | .addGroupClient .. | .removeGroupClient .. => d

/-- Carries out one control command. -/
def apply : ControlCommand → DynsecResponse × DynamicSecurity
  | .setDefaultACLAccess access =>
      ({ command := "setDefaultACLAccess" }, { d with defaultACLAccess := access })
  | .setClientPassword username password =>
      let (r, b) := d.broker.modify "setClientPassword" username
        (·.update username ({ · with password }))
      (r, { d with clients := b.clients })
  | .client command =>
      let (r, b) := d.broker.apply command
      (r, { d with clients := b.clients })
  | .group command =>
      let (r, b) := d.broker.control command
      (r, { (if r.error.isNone then d.define command else d) with clients := b.clients })

/-- Carries out a batch: one response for each command, in order. -/
def applyAll (d : DynamicSecurity) : List ControlCommand → List DynsecResponse × DynamicSecurity
  | [] => ([], d)
  | c :: cs =>
      let (r, d') := d.apply c
      let (rs, d'') := d'.applyAll cs
      (r :: rs, d'')

/-- The broker after some commands. -/
def after (commands : List ControlCommand) : DynamicSecurity := (d.applyAll commands).2

variable {d}

@[simp] theorem after_nil : d.after [] = d := rfl

@[simp] theorem after_cons (c : ControlCommand) (cs : List ControlCommand) :
    d.after (c :: cs) = (d.apply c).2.after cs := rfl

theorem after_append (cs cs' : List ControlCommand) :
    d.after (cs ++ cs') = (d.after cs).after cs' := by
  induction cs generalizing d with
  | nil => rfl
  | cons c cs ih => exact ih

end DynamicSecurity

/-! ## Seeding -/

/-- The settings of the seed. -/
structure SeedEnv where
  MQTT_BACKEND_USERNAME : String
  MQTT_BACKEND_PASSWORD : String
  MQTT_PROVISIONER_USERNAME : String
  MQTT_PROVISIONER_PASSWORD : String
deriving DecidableEq, Repr

/-- A batch of control commands, sent to the broker. -/
inductive ControlOp : Type → Type
  | send (commands : List ControlCommand) : ControlOp (List DynsecResponse)

def DynamicSecurity.serve {β : Type} (d : DynamicSecurity) :
    ControlOp β → Except Err β × DynamicSecurity
  | .send commands => (.ok (d.applyAll commands).1, d.after commands)

def controlServer : Server ControlOp Err DynamicSecurity := ⟨fun op d ↦ d.serve op⟩

@[simp] theorem controlServer_serve {β : Type} (op : ControlOp β) (d : DynamicSecurity) :
    controlServer.serve op d = d.serve op := rfl

/-- The first response with an error that is not about something that exists already. -/
def checkResponses (label : String) (responses : List DynsecResponse) : Except Err Unit :=
  match responses.find? fun r ↦ (truthy r.error).any fun e ↦
      !includes (toLowerCase e) "already exists" with
  | some r => .error (.error (label ++ " → " ++ r.command ++ ": " ++ r.error.getD ""))
  | none => .ok ()

/-- Sends a batch and checks the responses. -/
def sow (label : String) (commands : List ControlCommand) : Prog ControlOp Err Unit := do
  let responses ← .perform (.send commands)
  .ofExcept (checkResponses label responses)

/-- A service account is created without a client id. -/
def createServiceAccount (username password role : String) : ControlCommand :=
  .client (.createClient username password "" [role] [])

/-- The roles, as the seed creates them. -/
def seedRoles : List ControlCommand :=
  [.group (.createRole DEVICE_ROLE deviceRole), .group (.createRole SERVER_ROLE serverRole),
    .group (.createRole PROVISIONER_ROLE provisionerRole)]

namespace SeedEnv

variable (env : SeedEnv)

def accounts : List ControlCommand :=
  [createServiceAccount env.MQTT_BACKEND_USERNAME env.MQTT_BACKEND_PASSWORD SERVER_ROLE,
    createServiceAccount env.MQTT_PROVISIONER_USERNAME env.MQTT_PROVISIONER_PASSWORD
      PROVISIONER_ROLE]

/-- Re-asserts the passwords, so a re-run repairs drift from a rotated `.env`. -/
def passwords : List ControlCommand :=
  [.setClientPassword env.MQTT_BACKEND_USERNAME env.MQTT_BACKEND_PASSWORD,
    .setClientPassword env.MQTT_PROVISIONER_USERNAME env.MQTT_PROVISIONER_PASSWORD]

/-- All that the seed sends. -/
def commands : List ControlCommand :=
  .setDefaultACLAccess defaultAclAccess :: (seedRoles ++ env.accounts ++ env.passwords)

end SeedEnv

/-- Seeds dynamic security with the roles and the two service accounts. -/
def seedDynsec (env : SeedEnv) : Prog ControlOp Err Unit := do
  sow "defaults" [.setDefaultACLAccess defaultAclAccess]
  sow "roles" seedRoles
  sow "clients" env.accounts
  sow "passwords" env.passwords

/-- What is created, is created with roles and groups that exist. -/
theorem Broker.createClient_cases (b : Broker) (u password clientid : String)
    (roles groups : List String) :
    (b.apply (.createClient u password clientid roles groups)).2 = b ∨
      (∀ r ∈ roles, r ∈ b.roles) ∧ (∀ g ∈ groups, g ∈ b.groups) ∧
        (b.apply (.createClient u password clientid roles groups)).2 =
          { b with clients := b.clients.put u { password, clientid, roles, groups } } := by
  have hany : ∀ {l names : List String},
      ¬ (l.any fun r ↦ r ∉ names) = true → ∀ r ∈ l, r ∈ names := by
    intro l names h r hr
    by_contra hnot
    exact h (List.any_eq_true.mpr ⟨r, hr, decide_eq_true hnot⟩)
  rw [apply]
  split
  · exact .inl rfl
  split
  · exact .inl rfl
  rename_i hroles
  split
  · exact .inl rfl
  rename_i hgroups
  exact .inr ⟨hany hroles, hany hgroups, rfl⟩

/-- All the commands of a batch satisfy `P`. -/
def Sends (P : ControlCommand → Prop) : ∀ β : Type, ControlOp β → Prop
  | _, .send commands => ∀ c ∈ commands, P c

theorem sow_only {P : ControlCommand → Prop} (label : String) {commands : List ControlCommand}
    (h : ∀ c ∈ commands, P c) : Prog.Only (Sends P) (sow label commands) := by
  unfold sow
  exact Prog.Only.bind ((Prog.only_perform _).mpr h) fun _ ↦ (Prog.only_ofExcept _).mpr trivial

theorem seedDynsec_only (env : SeedEnv) :
    Prog.Only (Sends (· ∈ env.commands)) (seedDynsec env) := by
  unfold seedDynsec
  refine (sow_only _ fun c hc ↦ ?_).bind fun _ ↦ (sow_only _ fun c hc ↦ ?_).bind fun _ ↦
    (sow_only _ fun c hc ↦ ?_).bind fun _ ↦ sow_only _ fun c hc ↦ ?_
  · exact List.mem_cons.mpr (.inl (List.mem_singleton.mp hc))
  · exact List.mem_cons_of_mem _ (List.mem_append_left _ (List.mem_append_left _ hc))
  · exact List.mem_cons_of_mem _ (List.mem_append_left _ (List.mem_append_right _ hc))
  · exact List.mem_cons_of_mem _ (List.mem_append_right _ hc)

/-! ## Seeding again -/

namespace DynamicSecurity

variable (d : DynamicSecurity)

/-- Creates a role, unless there is one of the name. -/
def ensureRole (name : String) (acls : List Acl) : DynamicSecurity :=
  if (d.roles.find? name).isSome then d else { d with roles := d.roles.put name acls }

/-- The account of a service: any client id will do. -/
def serviceAccount (password role : String) : Account :=
  { password, clientid := "", roles := [role], groups := [] }

/-- Creates a service account, unless there is an account of the name. -/
def ensureAccount (username password role : String) : DynamicSecurity :=
  if (d.clients.find? username).isSome then d
  else { d with clients := d.clients.put username (serviceAccount password role) }

def setPassword (username password : String) : DynamicSecurity :=
  { d with clients := d.clients.update username ({ · with password }) }

/-- The roles that the seed leaves. -/
def withRoles : DynamicSecurity :=
  ((d.ensureRole DEVICE_ROLE deviceRole).ensureRole SERVER_ROLE serverRole).ensureRole
    PROVISIONER_ROLE provisionerRole

def withAccounts (env : SeedEnv) : DynamicSecurity :=
  (d.ensureAccount env.MQTT_BACKEND_USERNAME env.MQTT_BACKEND_PASSWORD SERVER_ROLE).ensureAccount
    env.MQTT_PROVISIONER_USERNAME env.MQTT_PROVISIONER_PASSWORD PROVISIONER_ROLE

def withPasswords (env : SeedEnv) : DynamicSecurity :=
  (d.setPassword env.MQTT_BACKEND_USERNAME env.MQTT_BACKEND_PASSWORD).setPassword
    env.MQTT_PROVISIONER_USERNAME env.MQTT_PROVISIONER_PASSWORD

/-- What the seed comes to. -/
def seeded (env : SeedEnv) : DynamicSecurity :=
  (({ d with defaultACLAccess := defaultAclAccess }.withRoles).withAccounts env).withPasswords env

variable {d}

/-! ### One command -/

theorem apply_createRole (name : String) (acls : List Acl) :
    d.apply (.group (.createRole name acls)) =
      (⟨"createRole", if (d.roles.find? name).isSome then some "Role already exists" else none⟩,
        d.ensureRole name acls) := by
  have hmem : name ∈ d.broker.roles ↔ (d.roles.find? name).isSome := Table.mem_keys
  rw [apply, Broker.control, ensureRole]
  by_cases h : (d.roles.find? name).isSome
  · rw [if_pos (hmem.mpr h), if_pos h, if_pos h]
    rfl
  · rw [if_neg (hmem.not.mpr h), if_neg h, if_neg h]
    rfl

theorem apply_createServiceAccount (username password : String) {role : String}
    (hrole : (d.roles.find? role).isSome) :
    d.apply (createServiceAccount username password role) =
      (⟨"createClient",
        if (d.clients.find? username).isSome then some "Client already exists" else none⟩,
        d.ensureAccount username password role) := by
  have hmem : role ∈ d.broker.roles := Table.mem_keys.mpr hrole
  rw [createServiceAccount, apply, Broker.apply, ensureAccount]
  by_cases h : (d.clients.find? username).isSome
  · have hb : (d.broker.clients.find? username).isSome := h
    rw [if_pos hb, if_pos h, if_pos h]
    rfl
  · have hb : ¬ (d.broker.clients.find? username).isSome := h
    have hany : ¬ ([role].any fun r ↦ r ∉ d.broker.roles) = true := by simp [hmem]
    rw [if_neg hb, if_neg hany, List.any_nil, if_neg Bool.false_ne_true, if_neg h, if_neg h]
    rfl

theorem apply_setClientPassword {username : String} (password : String)
    (h : (d.clients.find? username).isSome) :
    d.apply (.setClientPassword username password) =
      ({ command := "setClientPassword" }, d.setPassword username password) := by
  have hhas : d.broker.Has username := h
  rw [apply, Broker.modify_of_has hhas]
  rfl

/-! ### What exists already -/

theorem ensureRole_roles (name name' : String) (acls : List Acl) :
    (d.ensureRole name acls).roles.find? name' =
      if name' = name then some ((d.roles.find? name).getD acls) else d.roles.find? name' := by
  unfold ensureRole
  cases h : d.roles.find? name with
  | none =>
      rw [if_neg (by simp), Table.find?_put]
      rfl
  | some acls' =>
      rw [Option.isSome_some, if_pos rfl]
      split
      · rename_i heq
        rw [heq, h]
        rfl
      · rfl

@[simp] theorem ensureRole_clients (name : String) (acls : List Acl) :
    (d.ensureRole name acls).clients = d.clients := by
  unfold ensureRole
  split <;> rfl

@[simp] theorem ensureAccount_roles (u pw role : String) :
    (d.ensureAccount u pw role).roles = d.roles := by
  unfold ensureAccount
  split <;> rfl

theorem ensureAccount_clients (u pw role v : String) :
    (d.ensureAccount u pw role).clients.find? v =
      if v = u then some ((d.clients.find? u).getD (serviceAccount pw role))
      else d.clients.find? v := by
  unfold ensureAccount
  cases h : d.clients.find? u with
  | none =>
      rw [if_neg (by simp), Table.find?_put]
      rfl
  | some account =>
      rw [Option.isSome_some, if_pos rfl]
      split
      · rename_i heq
        rw [heq, h]
        rfl
      · rfl

theorem setPassword_clients (u pw v : String) :
    (d.setPassword u pw).clients.find? v = if v = u
      then (d.clients.find? v).map ({ · with password := pw }) else d.clients.find? v :=
  Table.find?_update _ _ _ _

/-- A role that was there before is as it was. -/
theorem ensureRole_of_find {name : String} {acls : List Acl} (h : d.roles.find? name = some acls)
    (name' : String) (acls' : List Acl) :
    (d.ensureRole name' acls').roles.find? name = some acls := by
  rw [ensureRole_roles]
  split
  · rename_i heq
    rw [← heq, h]
    rfl
  · exact h

/-- An account that was there before is as it was. -/
theorem ensureAccount_of_find {u : String} {account : Account}
    (h : d.clients.find? u = some account) (v pw role : String) :
    (d.ensureAccount v pw role).clients.find? u = some account := by
  rw [ensureAccount_clients]
  split
  · rename_i heq
    rw [← heq, h]
    rfl
  · exact h

/-- A role that exists is left alone. -/
theorem ensureRole_of_exists {name : String} (h : (d.roles.find? name).isSome) (acls : List Acl) :
    d.ensureRole name acls = d := if_pos h

theorem ensureAccount_of_exists {u : String} (h : (d.clients.find? u).isSome) (pw role : String) :
    d.ensureAccount u pw role = d := if_pos h

/-! ### The whole seed -/

/-- Every role of the seed is there afterwards. -/
theorem withRoles_exists {name : String}
    (h : name ∈ [DEVICE_ROLE, SERVER_ROLE, PROVISIONER_ROLE]) :
    (d.withRoles.roles.find? name).isSome := by
  simp only [withRoles, ensureRole_roles]
  simp only [List.mem_cons, List.not_mem_nil, or_false] at h
  rcases h with rfl | rfl | rfl <;> simp [DEVICE_ROLE, SERVER_ROLE, PROVISIONER_ROLE]

@[simp] theorem withRoles_clients : d.withRoles.clients = d.clients := by simp [withRoles]

@[simp] theorem withAccounts_roles (env : SeedEnv) : (d.withAccounts env).roles = d.roles := by
  simp [withAccounts]

/-- What exists is not created again. -/
theorem withRoles_eq_self (h : ∀ name ∈ [DEVICE_ROLE, SERVER_ROLE, PROVISIONER_ROLE],
    (d.roles.find? name).isSome) : d.withRoles = d := by
  rw [withRoles, ensureRole_of_exists (h _ (by decide)), ensureRole_of_exists (h _ (by decide)),
    ensureRole_of_exists (h _ (by decide))]

theorem withAccounts_eq_self {env : SeedEnv}
    (hb : (d.clients.find? env.MQTT_BACKEND_USERNAME).isSome)
    (hp : (d.clients.find? env.MQTT_PROVISIONER_USERNAME).isSome) : d.withAccounts env = d := by
  rw [withAccounts, ensureAccount_of_exists hb, ensureAccount_of_exists hp]

/-- Both service accounts are there. -/
theorem withAccounts_exists (env : SeedEnv) {u : String}
    (h : u ∈ [env.MQTT_BACKEND_USERNAME, env.MQTT_PROVISIONER_USERNAME]) :
    ((d.withAccounts env).clients.find? u).isSome := by
  simp only [withAccounts, ensureAccount_clients]
  simp only [List.mem_cons, List.not_mem_nil, or_false] at h
  split
  · rfl
  rename_i hne
  split
  · rfl
  rename_i hne'
  rcases h with h | h
  · exact absurd h hne'
  · exact absurd h hne

/-- Setting passwords a second time changes nothing. -/
theorem withPasswords_withPasswords (env : SeedEnv) :
    (d.withPasswords env).withPasswords env = d.withPasswords env := by
  obtain ⟨access, roles, groups, clients⟩ := d
  simp only [withPasswords, setPassword, Table.update, Table.updateMany, List.map_map,
    mk.injEq, Table.mk.injEq, true_and]
  refine List.map_congr_left fun e _ ↦ ?_
  simp only [Function.comp_apply, decide_eq_true_eq]
  split <;> split <;> rfl

theorem withPasswords_roles (env : SeedEnv) : (d.withPasswords env).roles = d.roles := rfl

/-- Only the password of an account may be another one. -/
theorem setPassword_of_find {u : String} {account : Account}
    (h : d.clients.find? u = some account) (v pw : String) : ∃ password,
      (d.setPassword v pw).clients.find? u = some { account with password } := by
  rw [setPassword_clients, h]
  split
  · exact ⟨pw, rfl⟩
  · exact ⟨account.password, rfl⟩

theorem withPasswords_of_find {env : SeedEnv} {u : String} {account : Account}
    (h : d.clients.find? u = some account) : ∃ password,
      (d.withPasswords env).clients.find? u = some { account with password } := by
  obtain ⟨password, hfind⟩ := setPassword_of_find h env.MQTT_BACKEND_USERNAME
    env.MQTT_BACKEND_PASSWORD
  exact setPassword_of_find hfind _ _

@[simp] theorem ensureRole_access (name : String) (acls : List Acl) :
    (d.ensureRole name acls).defaultACLAccess = d.defaultACLAccess := by
  unfold ensureRole
  split <;> rfl

@[simp] theorem ensureAccount_access (u pw role : String) :
    (d.ensureAccount u pw role).defaultACLAccess = d.defaultACLAccess := by
  unfold ensureAccount
  split <;> rfl

@[simp] theorem seeded_access (env : SeedEnv) :
    (d.seeded env).defaultACLAccess = defaultAclAccess := by
  simp [seeded, withPasswords, setPassword, withAccounts, withRoles]

/-- What the seed leaves, another seed leaves as it is. -/
theorem seeded_seeded (env : SeedEnv) : (d.seeded env).seeded env = d.seeded env := by
  have hroles : ∀ name ∈ [DEVICE_ROLE, SERVER_ROLE, PROVISIONER_ROLE],
      ((d.seeded env).roles.find? name).isSome := by
    intro name hname
    rw [seeded, withPasswords_roles, withAccounts_roles]
    exact withRoles_exists hname
  have haccounts : ∀ u ∈ [env.MQTT_BACKEND_USERNAME, env.MQTT_PROVISIONER_USERNAME],
      ((d.seeded env).clients.find? u).isSome := by
    intro u hu
    obtain ⟨account, haccount⟩ := Option.isSome_iff_exists.mp
      ({ d with defaultACLAccess := defaultAclAccess }.withRoles.withAccounts_exists env hu)
    obtain ⟨password, hpassword⟩ := withPasswords_of_find haccount
    rw [seeded, hpassword]
    rfl
  have hagain : (d.seeded env).seeded env = (d.seeded env).withPasswords env := by
    have haccess : { d.seeded env with defaultACLAccess := defaultAclAccess } = d.seeded env := by
      rw [← seeded_access env]
    rw [seeded, haccess, withRoles_eq_self hroles,
      withAccounts_eq_self (haccounts _ (by simp)) (haccounts _ (by simp))]
  rw [hagain, seeded, withPasswords_withPasswords]

end DynamicSecurity

/-- No response has an error but about what exists already. -/
def Welcome (responses : List DynsecResponse) : Prop :=
  ∀ r ∈ responses, r.error = none ∨ r.error = some "Role already exists" ∨
    r.error = some "Client already exists"

theorem checkResponses_of_welcome (label : String) {responses : List DynsecResponse}
    (h : Welcome responses) : checkResponses label responses = .ok () := by
  have hnone : (responses.find? fun r ↦ (truthy r.error).any fun e ↦
      !includes (toLowerCase e) "already exists") = none := by
    rw [List.find?_eq_none]
    intro r hr
    rcases h r hr with herr | herr | herr <;> rw [herr] <;> decide
  rw [checkResponses, hnone]

theorem wp_sow {Q : Except Err Unit → DynamicSecurity → Prop} {label : String}
    {commands : List ControlCommand} {d : DynamicSecurity} (h : Welcome (d.applyAll commands).1)
    (hQ : Q (.ok ()) (d.after commands)) :
    wp controlServer noFailure (fun _ _ _ ↦ True) Q (sow label commands) d := by
  refine wp_await_served trivial (b := (d.applyAll commands).1) rfl ?_
  rw [checkResponses_of_welcome label h]
  exact hQ

namespace DynamicSecurity

variable {d : DynamicSecurity}

theorem applyAll_seedRoles :
    Welcome (d.applyAll seedRoles).1 ∧ d.after seedRoles = d.withRoles := by
  have happly : ∀ (d : DynamicSecurity) name acls,
      (d.apply (.group (.createRole name acls))).1.error = none ∨
        (d.apply (.group (.createRole name acls))).1.error = some "Role already exists" := by
    intro d name acls
    rw [apply_createRole]
    dsimp only
    split
    · exact .inr rfl
    · exact .inl rfl
  constructor
  · intro r hr
    simp only [seedRoles, applyAll, List.mem_cons, List.not_mem_nil, or_false] at hr
    rcases hr with rfl | rfl | rfl <;> exact (happly _ _ _).imp id .inl
  · simp only [seedRoles, after_cons, after_nil, apply_createRole, withRoles]

theorem applyAll_accounts (env : SeedEnv)
    (h : ∀ role ∈ [SERVER_ROLE, PROVISIONER_ROLE], (d.roles.find? role).isSome) :
    Welcome (d.applyAll env.accounts).1 ∧ d.after env.accounts = d.withAccounts env := by
  have happly : ∀ (d : DynamicSecurity) u pw role, (d.roles.find? role).isSome →
      (d.apply (createServiceAccount u pw role)).1.error = none ∨
        (d.apply (createServiceAccount u pw role)).1.error = some "Client already exists" := by
    intro d u pw role hrole
    rw [apply_createServiceAccount u pw hrole]
    dsimp only
    split
    · exact .inr rfl
    · exact .inl rfl
  have hserver := h SERVER_ROLE (by decide)
  have hprovisioner := h PROVISIONER_ROLE (by decide)
  have hfirst : (d.apply (createServiceAccount env.MQTT_BACKEND_USERNAME env.MQTT_BACKEND_PASSWORD
      SERVER_ROLE)).2 = d.ensureAccount env.MQTT_BACKEND_USERNAME env.MQTT_BACKEND_PASSWORD
      SERVER_ROLE := by rw [apply_createServiceAccount _ _ hserver]
  have hlater : ((d.ensureAccount env.MQTT_BACKEND_USERNAME env.MQTT_BACKEND_PASSWORD
      SERVER_ROLE).roles.find? PROVISIONER_ROLE).isSome := by
    rw [ensureAccount_roles]
    exact hprovisioner
  constructor
  · intro r hr
    simp only [SeedEnv.accounts, applyAll, List.mem_cons, List.not_mem_nil, or_false] at hr
    rcases hr with rfl | rfl
    · exact (happly _ _ _ _ hserver).imp id .inr
    · rw [hfirst]
      exact (happly _ _ _ _ hlater).imp id .inr
  · rw [SeedEnv.accounts, after_cons, hfirst, after_cons, apply_createServiceAccount _ _ hlater,
      after_nil, withAccounts]

theorem applyAll_passwords (env : SeedEnv)
    (h : ∀ u ∈ [env.MQTT_BACKEND_USERNAME, env.MQTT_PROVISIONER_USERNAME],
      (d.clients.find? u).isSome) :
    Welcome (d.applyAll env.passwords).1 ∧ d.after env.passwords = d.withPasswords env := by
  have hfirst := apply_setClientPassword env.MQTT_BACKEND_PASSWORD
    (h env.MQTT_BACKEND_USERNAME (by simp))
  have hlater : ((d.setPassword env.MQTT_BACKEND_USERNAME
      env.MQTT_BACKEND_PASSWORD).clients.find? env.MQTT_PROVISIONER_USERNAME).isSome := by
    obtain ⟨account, haccount⟩ := Option.isSome_iff_exists.mp
      (h env.MQTT_PROVISIONER_USERNAME (by simp))
    obtain ⟨password, hpassword⟩ := setPassword_of_find haccount env.MQTT_BACKEND_USERNAME
      env.MQTT_BACKEND_PASSWORD
    rw [hpassword]
    rfl
  have hsecond := apply_setClientPassword env.MQTT_PROVISIONER_PASSWORD hlater
  constructor
  · intro r hr
    simp only [SeedEnv.passwords, applyAll, List.mem_cons, List.not_mem_nil, or_false, hfirst,
      hsecond] at hr
    rcases hr with rfl | rfl <;> exact .inl rfl
  · rw [SeedEnv.passwords, after_cons, hfirst, after_cons, hsecond, after_nil, withPasswords]

/-- As long as no request fails, the seed succeeds on any broker. -/
theorem wp_seedDynsec (env : SeedEnv) : wp controlServer noFailure (fun _ _ _ ↦ True)
    (fun r t ↦ r = .ok () ∧ t = d.seeded env) (seedDynsec env) d := by
  have hdefaults : d.after [.setDefaultACLAccess defaultAclAccess] =
      { d with defaultACLAccess := defaultAclAccess } := rfl
  have hroles : ∀ d : DynamicSecurity, ∀ role ∈ [SERVER_ROLE, PROVISIONER_ROLE],
      (d.withRoles.roles.find? role).isSome := fun d role hrole ↦
    withRoles_exists (List.mem_cons_of_mem _ hrole)
  unfold seedDynsec
  rw [wp_bind]
  refine wp_sow (fun r hr ↦ .inl ?_) ?_
  · rw [List.mem_singleton.mp hr]
  rw [hdefaults, wp_bind]
  refine wp_sow applyAll_seedRoles.1 ?_
  rw [applyAll_seedRoles.2, wp_bind]
  refine wp_sow (applyAll_accounts env (hroles _)).1 ?_
  rw [(applyAll_accounts env (hroles _)).2]
  have haccounts := fun u ↦ withAccounts_exists
    (d := { d with defaultACLAccess := defaultAclAccess }.withRoles) env (u := u)
  refine wp_sow (applyAll_passwords env haccounts).1 ⟨rfl, ?_⟩
  rw [(applyAll_passwords env haccounts).2, seeded]

/-! ### What the seed leaves alone -/

/-- Everything that is in `d` is in `t`, up to the passwords. -/
structure Extends (d t : DynamicSecurity) : Prop where
  role : ∀ name acls, d.roles.find? name = some acls → t.roles.find? name = some acls
  account : ∀ u account, d.clients.find? u = some account →
    ∃ password, t.clients.find? u = some { account with password }
  groups : t.groups = d.groups

theorem Extends.refl (d : DynamicSecurity) : Extends d d :=
  ⟨fun _ _ h ↦ h, fun _ account h ↦ ⟨account.password, h⟩, rfl⟩

variable {t : DynamicSecurity}

theorem Extends.ensureRole (h : Extends d t) (name : String) (acls : List Acl) :
    Extends d (t.ensureRole name acls) := by
  refine ⟨fun name' acls' hfind ↦ ensureRole_of_find (h.role name' acls' hfind) name acls, ?_, ?_⟩
  · rw [ensureRole_clients]
    exact h.account
  · unfold DynamicSecurity.ensureRole
    split <;> exact h.groups

theorem Extends.createServiceAccount (h : Extends d t) (u pw role : String) :
    Extends d (t.apply (createServiceAccount u pw role)).2 := by
  by_cases hrole : (t.roles.find? role).isSome
  · rw [apply_createServiceAccount u pw hrole]
    refine ⟨?_, fun v account hv ↦ ?_, ?_⟩
    · dsimp only
      rw [ensureAccount_roles]
      exact h.role
    · obtain ⟨password, hfind⟩ := h.account v account hv
      exact ⟨password, ensureAccount_of_find hfind u pw role⟩
    · dsimp only
      unfold ensureAccount
      split <;> exact h.groups
  · -- without its role the account is not created
    have hsame : (t.broker.apply (.createClient u pw "" [role] [])).2 = t.broker := by
      rcases t.broker.createClient_cases u pw "" [role] [] with heq | ⟨hroles, -, -⟩
      · exact heq
      · exact absurd (Table.mem_keys.mp (hroles role (List.mem_singleton_self role))) hrole
    have heq : (t.apply (Zenstier.createServiceAccount u pw role)).2 = t := by
      show { t with clients := (t.broker.apply (.createClient u pw "" [role] [])).2.clients } = t
      rw [hsame]
      rfl
    rw [heq]
    exact h

theorem Extends.setClientPassword (h : Extends d t) (u pw : String) :
    Extends d (t.apply (.setClientPassword u pw)).2 := by
  by_cases hu : (t.clients.find? u).isSome
  · rw [apply_setClientPassword pw hu]
    refine ⟨h.role, fun v account hv ↦ ?_, h.groups⟩
    obtain ⟨password, hfind⟩ := h.account v account hv
    obtain ⟨password', hfind'⟩ := setPassword_of_find hfind u pw
    exact ⟨password', hfind'⟩
  · have hhas : ¬ t.broker.Has u := hu
    rw [apply, Broker.modify_of_not_has hhas]
    exact h

/-- A command of the seed leaves alone what is there. -/
theorem Extends.apply (h : Extends d t) {env : SeedEnv} {c : ControlCommand}
    (hc : c ∈ env.commands) : Extends d (t.apply c).2 := by
  simp only [SeedEnv.commands, seedRoles, SeedEnv.accounts, SeedEnv.passwords, List.cons_append,
    List.nil_append, List.mem_cons, List.not_mem_nil, or_false] at hc
  rcases hc with rfl | rfl | rfl | rfl | rfl | rfl | rfl | rfl
  · exact ⟨h.role, h.account, h.groups⟩
  · rw [apply_createRole]
    exact h.ensureRole _ _
  · rw [apply_createRole]
    exact h.ensureRole _ _
  · rw [apply_createRole]
    exact h.ensureRole _ _
  · exact h.createServiceAccount _ _ _
  · exact h.createServiceAccount _ _ _
  · exact h.setClientPassword _ _
  · exact h.setClientPassword _ _

theorem Extends.after (h : Extends d t) {env : SeedEnv} {cs : List ControlCommand}
    (hcs : ∀ c ∈ cs, c ∈ env.commands) : Extends d (t.after cs) := by
  induction cs generalizing t with
  | nil => exact h
  | cons c cs ih =>
      exact ih (h.apply (hcs c List.mem_cons_self)) fun c' hc' ↦ hcs c' (List.mem_cons_of_mem c hc')

/-- However the seed ends, and whatever fails on the way, it leaves alone what was there. -/
theorem wp_seedDynsec_extends (env : SeedEnv) : wp controlServer anyFate (fun _ _ _ ↦ True)
    (fun _ t ↦ Extends d t) (seedDynsec env) d := by
  refine wp_of_only ?_ (fun _ _ _ _ _ ↦ trivial) (seedDynsec_only env) (.refl d)
  intro β op t f hop ht _
  cases op with
  | send cs => exact Server.after_of (Extends d) ht (ht.after hop) f

/-- Whatever is on the broker, the seed can be sown again.  If nothing fails it succeeds, the
provisioner has the password of the settings, and a second run changes nothing.  However it ends,
the roles, the groups and the accounts that were there are as they were, up to the passwords: a
role that has drifted from the source is not repaired. -/
theorem seedDynsec_idempotent (env : SeedEnv) (d : DynamicSecurity) :
    wp controlServer anyFate (fun _ _ _ ↦ True) (fun _ t ↦ Extends d t) (seedDynsec env) d ∧
    wp controlServer noFailure (fun _ _ _ ↦ True) (fun r t ↦ r = .ok () ∧
      (∃ account, t.clients.find? env.MQTT_PROVISIONER_USERNAME = some account ∧
        account.password = env.MQTT_PROVISIONER_PASSWORD) ∧
      wp controlServer noFailure (fun _ _ _ ↦ True) (fun r' t' ↦ r' = .ok () ∧ t' = t)
        (seedDynsec env) t) (seedDynsec env) d := by
  refine ⟨wp_seedDynsec_extends env, wp_mono (wp_seedDynsec env) ?_⟩
  rintro r t ⟨rfl, rfl⟩
  refine ⟨rfl, ?_, wp_mono (wp_seedDynsec env) ?_⟩
  · obtain ⟨account, haccount⟩ := Option.isSome_iff_exists.mp
      (({ d with defaultACLAccess := defaultAclAccess }.withRoles).withAccounts_exists env
        (u := env.MQTT_PROVISIONER_USERNAME) (by simp))
    obtain ⟨password, hpassword⟩ := setPassword_of_find haccount env.MQTT_BACKEND_USERNAME
      env.MQTT_BACKEND_PASSWORD
    refine ⟨{ account with password := env.MQTT_PROVISIONER_PASSWORD }, ?_, rfl⟩
    rw [seeded, withPasswords, setPassword_clients, if_pos rfl, hpassword]
    rfl
  · rintro r t ⟨rfl, rfl⟩
    exact ⟨rfl, seeded_seeded env⟩

end DynamicSecurity

end Zenstier
