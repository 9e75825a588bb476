import Zenstier.Concurrent.Contract
import Zenstier.Tokens.Agreement
import Zenstier.Tokens.Requests

/-!
# The password that is handed out

The password of a device is kept in two places until it is handed out, with the account on the
broker and, under the id of the token, in Redis; which account a token is for stands in a third.
They are written one after the other and each write may fail by itself.  Whatever fails, and
however the calls interleave, they never disagree: credentials that are handed out are those of the
account, for as long as there is an account of that name.
-/

namespace Zenstier

open Store Concurrent Prog

/-! ## Calls and what they hand out -/

/-- A call, and the credentials that it hands out, if it is a redemption. -/
def LifecycleCall.handsOut (dig : Digests) : LifecycleCall → TokenM (Option EnrollmentResult)
  | .consume plaintextToken facts => do
      let result ← consumeEnrollmentToken dig plaintextToken facts
      return some result
  | other => do
      other.prog dig
      return none

/-- What the calls draw: which account each device and each token is for, and the password of each
account. -/
structure Ledger where
  device : String → String
  token : String → String
  password : String → String

/-- A creation draws what the ledger says. -/
def Ledger.Draws (ledger : Ledger) : LifecycleCall → Prop
  | .create draws .. =>
      ledger.device draws.deviceRowId = generateDeviceId draws.deviceBytes ∧
        ledger.token draws.tokenRowId = generateDeviceId draws.deviceBytes ∧
        ledger.password (generateDeviceId draws.deviceBytes) = b64url draws.passwordBytes
  | _ => True

/-- What is kept is what the ledger says. -/
structure Ledger.Kept (ledger : Ledger) (s : Backend) : Prop where
  accounts : ∀ u a, s.broker.clients.find? u = some a → a.password = ledger.password u
  devices : ∀ d row, s.devices.find? d = some row → row.deviceId = ledger.device d
  tokens : ∀ id tok, s.tokens.find? id = some tok →
    tok.mqttUsername = ledger.token id ∧
      ∀ d, tok.deviceId = some d → ledger.device d = ledger.token id
  pending : ∀ id e, s.redis.find? (pendingKey id) = some e →
    e.value = ledger.password (ledger.token id)

namespace Ledger

variable (ledger : Ledger)

/-- What is written is what the ledger says. -/
def Writes : ∀ β : Type, TokenOp β → Prop
  | _, .createDevice id row => row.deviceId = ledger.device id
  | _, .createToken id row => row.mqttUsername = ledger.token id ∧
      ∀ d, row.deviceId = some d → ledger.device d = ledger.token id
  | _, .redisSet key value _ =>
      ∃ id, key = pendingKey id ∧ value = ledger.password (ledger.token id)
  | _, .dynsecSend commands => ∀ u password clientid roles groups,
      .createClient u password clientid roles groups ∈ commands → password = ledger.password u
  | _, _ => True

/-- What is read is what the ledger says. -/
def Reads : ∀ β : Type, TokenOp β → Except Err β → Prop
  | _, .findTokenByHash _, .ok (some found) => found.token.mqttUsername = ledger.token found.id ∧
      ∀ d row, found.device = some (d, row) → row.deviceId = ledger.token found.id
  | _, .redisGet key, .ok (some value) =>
      ∀ id, key = pendingKey id → value = ledger.password (ledger.token id)
  | _, _, _ => True

/-- The credentials are those of the ledger, for the account of the device. -/
def Issues : Option EnrollmentResult → Prop
  | some result => result.mqttPassword = ledger.password result.mqttUsername ∧
      result.deviceId = result.mqttUsername
  | none => True

end Ledger

/-! ## What the calls write -/

section Calls

variable {ledger : Ledger}

theorem writes_of_retires {β : Type} {op : TokenOp β} (h : Retires β op) : ledger.Writes β op := by
  cases op with
  | dynsecSend commands =>
      rcases commands with _ | ⟨c, _ | ⟨c', commands⟩⟩
      · exact h.elim
      · cases c with
        | deleteClient username =>
            intro u password clientid roles groups hmem
            cases List.mem_singleton.mp hmem
        | createClient | enableClient | disableClient => exact h.elim
      · cases c <;> exact h.elim
  | createDevice | createToken | redisSet => exact h.elim
  | _ => trivial

theorem enroll_issues (facts : HostFacts) (id : String) {token : AuthToken} (d : String)
    {device : Device} {password : String} (hdevice : device.deviceId = token.mqttUsername)
    (hpassword : password = ledger.password token.mqttUsername) :
    Meets ledger.Reads ledger.Writes (fun r ↦ ledger.Issues (some r))
      (enroll facts id token d device password) := by
  unfold enroll
  refine Meets.await ?_ fun enabled _ ↦ Meets.bind (Q := fun _ ↦ True)
    (Meets.ofExcept fun _ _ ↦ trivial) fun _ _ ↦ ?_
  · intro u password clientid roles groups hmem
    cases List.mem_singleton.mp hmem
  exact Meets.await trivial fun _ _ ↦ Meets.await trivial fun _ _ ↦
    Meets.await trivial fun _ _ ↦ ⟨hpassword, hdevice⟩

theorem takePendingSecret_reads (id : String) : Meets ledger.Reads ledger.Writes
    (fun value ↦ ∀ secret, value = some secret → secret = ledger.password (ledger.token id))
    (takePendingSecret id) := by
  unfold takePendingSecret
  refine Meets.await trivial fun value hvalue ↦ ?_
  have hread : ∀ secret, value = some secret →
      secret = ledger.password (ledger.token id) := by
    rintro secret rfl
    exact hvalue id rfl
  split
  · exact Meets.await trivial fun _ _ ↦ hread
  · exact hread

theorem consumeEnrollmentToken_issues (dig : Digests) (plaintextToken : String)
    (facts : HostFacts) : Meets ledger.Reads ledger.Writes (fun r ↦ ledger.Issues (some r))
      (consumeEnrollmentToken dig plaintextToken facts) := by
  unfold consumeEnrollmentToken
  refine Meets.await trivial fun found hfound ↦ ?_
  rcases found with _ | ⟨id, token, _ | ⟨d, device⟩⟩
  · trivial
  · trivial
  refine Meets.bind (Meets.of_only (checkRedeemable_only trivial token)) fun _ _ ↦ ?_
  refine Meets.bind (takePendingSecret_reads id) fun value hvalue ↦ ?_
  unfold enrollWith
  cases hsecret : truthy value with
  | none => trivial
  | some secret =>
      obtain ⟨htoken, hdevice⟩ := hfound
      refine enroll_issues facts id d ((hdevice d device rfl).trans htoken.symm) ?_
      rw [htoken]
      exact hvalue secret (truthy_eq_some hsecret)

/-- The account is created with the password that the ledger has for it. -/
theorem provisionBrokerCredential_writes {deviceId password : String} (groupId : Option String)
    (hpassword : password = ledger.password deviceId) :
    Meets ledger.Reads ledger.Writes (fun _ ↦ True)
      (provisionBrokerCredential deviceId password groupId) := by
  unfold provisionBrokerCredential
  refine Meets.await ?_ fun _ _ ↦ Meets.bind (Q := fun _ ↦ True) (Meets.ofExcept fun _ _ ↦ trivial)
    fun _ _ ↦ Meets.await ?_ fun _ _ ↦ Meets.ofExcept fun _ _ ↦ trivial
  · intro u password' clientid roles groups hmem
    cases List.mem_singleton.mp hmem
    exact hpassword
  · intro u password' clientid roles groups hmem
    cases List.mem_singleton.mp hmem

theorem createEnrollmentToken_writes (dig : Digests) {draws : EnrollmentDraws}
    {userId teamId deviceName : String} {label groupId : Option String}
    (h : ledger.Draws (.create draws userId teamId deviceName label groupId)) :
    Meets ledger.Reads ledger.Writes (fun _ ↦ True)
      (createEnrollmentToken dig draws userId teamId deviceName label groupId) := by
  unfold createEnrollmentToken stashPendingSecret
  obtain ⟨hdevice, htoken, hpassword⟩ := h
  refine Meets.await hdevice.symm fun _ _ ↦ Meets.await trivial fun _ _ ↦
    Meets.await ⟨htoken.symm, ?_⟩ fun _ _ ↦ Meets.await ?_ fun _ _ ↦
    Meets.bind (provisionBrokerCredential_writes groupId hpassword.symm) fun _ _ ↦
    Meets.await trivial fun _ _ ↦ trivial
  · rintro d ⟨⟩
    rw [hdevice, htoken]
  · exact ⟨draws.tokenRowId, rfl, by rw [htoken, hpassword]⟩

theorem handsOut_issues (dig : Digests) {call : LifecycleCall} (h : ledger.Draws call) :
    Meets ledger.Reads ledger.Writes ledger.Issues (call.handsOut dig) := by
  have hretires {p : TokenM Unit} (hp : Only Retires p) :
      Meets ledger.Reads ledger.Writes ledger.Issues (do p; return none) :=
    Meets.bind (Meets.of_only (hp.mono fun _ _ ↦ writes_of_retires)) fun _ _ ↦ trivial
  cases call with
  | create draws userId teamId deviceName label groupId =>
      refine Meets.bind (Meets.bind (createEnrollmentToken_writes dig h) fun _ _ ↦ trivial)
        (Q := fun _ ↦ True) fun _ _ ↦ trivial
  | consume plaintextToken facts =>
      exact Meets.bind (consumeEnrollmentToken_issues dig plaintextToken facts) fun _ hr ↦ hr
  | revoke userId teamId tokenId => exact hretires (revokeToken_retires userId teamId tokenId)
  | deleteDevice userId teamId deviceId =>
      exact hretires (deleteDeviceAction_retires userId teamId deviceId)
  | deleteTeam teamId => exact hretires (deleteTeam_retires teamId)

end Calls

/-! ## What the requests keep -/

/-- Nothing is kept that was not kept before; columns that the ledger does not speak of may
change. -/
structure Backend.Sheds (t s : Backend) : Prop where
  accounts : t.broker.clients.LeftOf s.broker.clients (·.password)
  devices : t.devices.LeftOf s.devices (·.deviceId)
  tokens : t.tokens.LeftOf s.tokens fun tok ↦ (tok.mqttUsername, tok.deviceId)
  pending : t.redis.LeftOf s.redis (·.value)

section Kept

variable {ledger : Ledger} {s t : Backend}

theorem Backend.Sheds.refl (s : Backend) : s.Sheds s :=
  ⟨.refl _ _, .refl _ _, .refl _ _, .refl _ _⟩

theorem Ledger.Kept.sheds (h : ledger.Kept s) (hst : t.Sheds s) : ledger.Kept t where
  accounts u a ha := by
    obtain ⟨a', ha', hpassword⟩ := hst.accounts ha
    exact hpassword.symm.trans (h.accounts u a' ha')
  devices d row hrow := by
    obtain ⟨row', hrow', hdevice⟩ := hst.devices hrow
    exact hdevice.symm.trans (h.devices d row' hrow')
  tokens id tok htok := by
    obtain ⟨tok', htok', heq⟩ := hst.tokens htok
    obtain ⟨husername, hdevice⟩ := Prod.mk.inj heq
    rw [← husername, ← hdevice]
    exact h.tokens id tok' htok'
  pending id e he := by
    obtain ⟨e', he', hvalue⟩ := hst.pending he
    exact hvalue.symm.trans (h.pending id e' he')

theorem Broker.modify_leftOf (b : Broker) (command u : String)
    {f : Table String Account → Table String Account}
    (hf : (f b.clients).LeftOf b.clients (·.password)) :
    (b.modify command u f).2.clients.LeftOf b.clients (·.password) := by
  rw [Broker.modify]
  split
  · exact hf
  · exact .refl _ _

/-- One control command: an account that is created gets the password of the command. -/
theorem Broker.apply_accounts (b : Broker) (c : DynsecCommand) {u : String} {a : Account}
    (h : (b.apply c).2.clients.find? u = some a) :
    (∃ a', b.clients.find? u = some a' ∧ a'.password = a.password) ∨
      ∃ clientid roles groups, c = .createClient u a.password clientid roles groups := by
  cases c with
  | createClient v password clientid roles groups =>
      simp only [Broker.apply] at h
      split at h
      · exact .inl ⟨a, h, rfl⟩
      split at h
      · exact .inl ⟨a, h, rfl⟩
      split at h
      · exact .inl ⟨a, h, rfl⟩
      · rw [Table.find?_put] at h
        split at h
        · subst u
          cases h
          exact .inr ⟨clientid, roles, groups, rfl⟩
        · exact .inl ⟨a, h, rfl⟩
  | disableClient v | enableClient v =>
      refine .inl (b.modify_leftOf _ v ?_ h)
      exact Table.leftOf_updateMany _ fun _ ↦ rfl
  | deleteClient v =>
      refine .inl (b.modify_leftOf _ v ?_ h)
      exact Table.leftOf_deleteMany _

theorem Broker.send_accounts (commands : List DynsecCommand) (b : Broker)
    (hb : ∀ u a, b.clients.find? u = some a → a.password = ledger.password u)
    (h : ledger.Writes _ (.dynsecSend commands)) :
    ∀ u a, (b.send commands).2.clients.find? u = some a → a.password = ledger.password u := by
  induction commands generalizing b with
  | nil => exact hb
  | cons c commands ih =>
      refine ih (b.apply c).2 (fun u a ha ↦ ?_) fun u password clientid roles groups hmem ↦
        h u password clientid roles groups (List.mem_cons_of_mem c hmem)
      obtain ⟨a', ha', hpassword⟩ | ⟨clientid, roles, groups, rfl⟩ := b.apply_accounts c ha
      · exact hpassword.symm.trans (hb u a' ha')
      · exact h u a.password clientid roles groups List.mem_cons_self

theorem Ledger.Kept.commit {r : Except Err Backend} (h : ledger.Kept s)
    (hr : ∀ s', r = .ok s' → ledger.Kept s') : ledger.Kept (s.commit r).2 := by
  cases r with
  | ok s' => exact hr s' rfl
  | error e => exact h

theorem Ledger.Kept.createDevice {id : String} {row : Device} (h : ledger.Kept s)
    (hrow : row.deviceId = ledger.device id) (hs : s.createDevice id row = .ok t) :
    ledger.Kept t := by
  unfold Backend.createDevice at hs
  split at hs
  · contradiction
  split at hs
  · contradiction
  split at hs
  · rename_i devices hins
    cases hs
    refine ⟨h.accounts, fun d row' hd ↦ ?_, h.tokens, h.pending⟩
    simp only [Table.find?_insert hins] at hd
    split at hd
    · subst d
      cases hd
      exact hrow
    · exact h.devices d row' hd
  · contradiction

theorem Ledger.Kept.createToken {id : String} {row : AuthToken} (h : ledger.Kept s)
    (hrow : ledger.Writes _ (.createToken id row)) (hs : s.createToken id row = .ok t) :
    ledger.Kept t := by
  unfold Backend.createToken at hs
  split at hs
  · contradiction
  split at hs
  · contradiction
  split at hs
  · rename_i tokens hins
    cases hs
    refine ⟨h.accounts, h.devices, fun k tok htok ↦ ?_, h.pending⟩
    simp only [Table.find?_insert hins] at htok
    split at htok
    · subst k
      cases htok
      exact hrow
    · exact h.tokens k tok htok
  · contradiction

theorem markConsumed_sheds {id d : String} {facts : HostFacts} {consumedAt lastUsedAt : Int}
    {audit : AuditLog} (hs : s.markConsumed id d facts consumedAt lastUsedAt audit = .ok t) :
    t.Sheds s := by
  unfold Backend.markConsumed at hs
  split at hs
  · contradiction
  · cases hs
    exact ⟨.refl _ _, Table.leftOf_updateMany _ fun _ ↦ rfl, Table.leftOf_updateMany _ fun _ ↦ rfl,
      .refl _ _⟩

theorem markRevoked_sheds {id : String} {d : Option String} {revokedAt : Int} {audit : AuditLog}
    (hs : s.markRevoked id d revokedAt audit = .ok t) : t.Sheds s := by
  unfold Backend.markRevoked at hs
  split at hs
  · contradiction
  · cases hs
    exact ⟨.refl _ _, Table.leftOf_updateMany _ fun _ ↦ rfl, Table.leftOf_updateMany _ fun _ ↦ rfl,
      .refl _ _⟩

theorem deleteDevice_sheds {id : String} (hs : s.deleteDevice id = .ok t) : t.Sheds s := by
  unfold Backend.deleteDevice at hs
  split at hs
  · contradiction
  · cases hs
    exact ⟨.refl _ _, Table.leftOf_deleteMany _, Table.leftOf_deleteMany _, .refl _ _⟩

theorem deleteTeam_sheds {id : String} (hs : s.deleteTeam id = .ok t) : t.Sheds s := by
  unfold Backend.deleteTeam at hs
  split at hs
  · contradiction
  · cases hs
    exact ⟨.refl _ _, Table.leftOf_deleteMany _, Table.leftOf_deleteMany _, .refl _ _⟩

theorem pendingKey_inj {id id' : String} : pendingKey id = pendingKey id' ↔ id = id' :=
  String.append_right_inj "zenstier:pending:"

/-- A request that writes what the ledger says keeps what it says. -/
theorem Ledger.Kept.serve {β : Type} {op : TokenOp β} (h : ledger.Kept s)
    (hop : ledger.Writes β op) : ledger.Kept (s.serve op).2 := by
  cases op with
  | createDevice id row => exact h.commit fun t hs ↦ h.createDevice hop hs
  | createToken id row => exact h.commit fun t hs ↦ h.createToken hop hs
  | markConsumed id d facts c l audit => exact h.commit fun t hs ↦ h.sheds (markConsumed_sheds hs)
  | markRevoked id d r audit => exact h.commit fun t hs ↦ h.sheds (markRevoked_sheds hs)
  | deleteDevice id => exact h.commit fun t hs ↦ h.sheds (deleteDevice_sheds hs)
  | deleteTeam id => exact h.commit fun t hs ↦ h.sheds (deleteTeam_sheds hs)
  | redisSet key value seconds =>
      obtain ⟨id, rfl, rfl⟩ := hop
      refine ⟨h.accounts, h.devices, h.tokens, fun id' e he ↦ ?_⟩
      simp only [Backend.serve, Table.find?_put, pendingKey_inj] at he
      split at he
      · subst id'
        cases he
        rfl
      · exact h.pending id' e he
  | redisDel key =>
      exact h.sheds ⟨.refl _ _, .refl _ _, .refl _ _, Table.leftOf_deleteMany _⟩
  | dynsecSend commands =>
      exact ⟨Broker.send_accounts commands s.broker h.accounts hop, h.devices, h.tokens, h.pending⟩
  | now | createAuditLog | findTokenByHash | findToken | findDevice | findTeam | detachUsers
  | redisGet | clearRetainedStatus => exact ⟨h.accounts, h.devices, h.tokens, h.pending⟩

theorem Ledger.upholds (ledger : Ledger) : tokenServer.Upholds ledger.Kept ledger.Reads where
  reply op s h := by
    cases op with
    | findTokenByHash hash =>
        rw [tokenServer_serve, Backend.serve]
        cases hfound : s.tokens.findFirst fun _ t ↦ t.tokenHash = hash with
        | none => trivial
        | some found =>
            obtain ⟨id, tok⟩ := found
            obtain ⟨htok, -⟩ := Table.findFirst_eq_some hfound
            obtain ⟨husername, hdevice⟩ := h.tokens id tok htok
            refine ⟨husername, fun d row hrow ↦ ?_⟩
            obtain ⟨d', hd', hrow⟩ := Option.bind_eq_some_iff.mp hrow
            obtain ⟨row', hrow', heq⟩ := Option.map_eq_some_iff.mp hrow
            cases heq
            exact (h.devices d row hrow').trans (hdevice d hd')
    | redisGet key =>
        rw [tokenServer_serve, Backend.serve]
        cases hentry : (s.redis.find? key).filter fun e ↦ s.clock < e.expiresAt with
        | none => trivial
        | some e =>
            rintro id rfl
            exact h.pending id e (Option.filter_eq_some_iff.mp hentry).1
    | _ => trivial
  error op e := by cases op <;> trivial

end Kept

/-! ## Runs -/

section Runs

variable {ι η : Type}

/-- What the call draws, if it is a creation. -/
def LifecycleCall.draws : LifecycleCall → Option EnrollmentDraws
  | .create draws .. => some draws
  | _ => none

/-- No two creations draw the same id. -/
structure DrawnOnce (calls : ι → LifecycleCall) : Prop where
  deviceRowId : ∀ ⦃i j d e⦄, (calls i).draws = some d → (calls j).draws = some e →
    d.deviceRowId = e.deviceRowId → i = j
  tokenRowId : ∀ ⦃i j d e⦄, (calls i).draws = some d → (calls j).draws = some e →
    d.tokenRowId = e.tokenRowId → i = j
  deviceId : ∀ ⦃i j d e⦄, (calls i).draws = some d → (calls j).draws = some e →
    generateDeviceId d.deviceBytes = generateDeviceId e.deviceBytes → i = j

/-- Nothing has been issued: there may be accounts, but not of a device that is to come. -/
structure Unissued (calls : ι → LifecycleCall) (s : Backend) : Prop where
  devices : ∀ d, s.devices.find? d = none
  tokens : ∀ id, s.tokens.find? id = none
  pending : ∀ id, s.redis.find? (pendingKey id) = none
  accounts : ∀ i d, (calls i).draws = some d → ¬ s.broker.Has (generateDeviceId d.deviceBytes)

/-- A call that is a creation. -/
abbrev Creation (calls : ι → LifecycleCall) : Type :=
  { p : ι × EnrollmentDraws // (calls p.1).draws = some p.2 }

/-- What is drawn once tells the creations apart. -/
theorem Creation.injective {calls : ι → LifecycleCall} (key : EnrollmentDraws → String)
    (h : ∀ ⦃i j d e⦄, (calls i).draws = some d → (calls j).draws = some e → key d = key e → i = j) :
    Function.Injective fun p : Creation calls ↦ key p.1.2 := by
  rintro ⟨⟨i, d⟩, hd⟩ ⟨⟨j, e⟩, he⟩ heq
  obtain rfl := h hd he heq
  cases Option.some.inj (hd.symm.trans he)
  rfl

/-- What the calls draw, and for the accounts that are there already their passwords. -/
noncomputable def Ledger.of (calls : ι → LifecycleCall) (s : Backend) : Ledger where
  device := Function.extend (fun p : Creation calls ↦ p.1.2.deviceRowId)
    (fun p ↦ generateDeviceId p.1.2.deviceBytes) id
  token := Function.extend (fun p : Creation calls ↦ p.1.2.tokenRowId)
    (fun p ↦ generateDeviceId p.1.2.deviceBytes) id
  password := Function.extend (fun p : Creation calls ↦ generateDeviceId p.1.2.deviceBytes)
    (fun p ↦ b64url p.1.2.passwordBytes) fun u ↦
      ((s.broker.clients.find? u).map (·.password)).getD ""

variable {calls : ι → LifecycleCall} {s : Backend}

theorem Ledger.of_draws (hdraws : DrawnOnce calls) (i : ι) :
    (Ledger.of calls s).Draws (calls i) := by
  cases hi : calls i with
  | create draws userId teamId deviceName label groupId =>
      have hdrawn : (calls i).draws = some draws := by rw [hi]; rfl
      dsimp only [Ledger.Draws, Ledger.of]
      exact ⟨(Creation.injective _ hdraws.deviceRowId).extend_apply _ _ ⟨(i, draws), hdrawn⟩,
        (Creation.injective _ hdraws.tokenRowId).extend_apply _ _ ⟨(i, draws), hdrawn⟩,
        (Creation.injective (fun d ↦ generateDeviceId d.deviceBytes)
          hdraws.deviceId).extend_apply _ _ ⟨(i, draws), hdrawn⟩⟩
  | consume | revoke | deleteDevice | deleteTeam => trivial

theorem Ledger.of_kept (hs : Unissued calls s) : (Ledger.of calls s).Kept s where
  accounts u a ha := by
    have hu : ¬ ∃ p : Creation calls, generateDeviceId p.1.2.deviceBytes = u := by
      rintro ⟨⟨⟨i, d⟩, hd⟩, rfl⟩
      exact hs.accounts i d hd (Option.isSome_of_eq_some ha)
    dsimp only [Ledger.of]
    rw [Function.extend_apply' _ _ _ hu, ha]
    rfl
  devices d row hrow := by
    rw [hs.devices d] at hrow
    cases hrow
  tokens id tok htok := by
    rw [hs.tokens id] at htok
    cases htok
  pending id e he := by
    rw [hs.pending id] at he
    cases he

/-- Between the requests anything may happen that brings up no account, device, token or secret and
changes none: time passes, secrets expire, rows are deleted by hand. -/
def EnvSheds (env : η → Backend → Backend)
    (c : Pool ι TokenOp Err (Option EnrollmentResult) Backend) :
    Event ι Err η → Prop
  | .run _ _ => True
  | .env x => (env x c.shared).Sheds c.shared

/-- From the state of a new deployment on, whatever calls come in, however their requests interleave
and whichever of them fail: credentials that a redemption has handed out are those of the device it
names, and as long as there is an account of that name, its password is the one handed out. -/
theorem handsOut_password [DecidableEq ι] (dig : Digests) (hdraws : DrawnOnce calls)
    (hs : Unissued calls s) (env : η → Backend → Backend)
    {c : Pool ι TokenOp Err (Option EnrollmentResult) Backend}
    (h : Reach (Pool.step tokenServer env) (EnvSheds env) ⟨s, fun i ↦ (calls i).handsOut dig⟩ c)
    {i : ι} {result : EnrollmentResult} (hreturned : Returned (· = some result) (c.thread i)) :
    result.deviceId = result.mqttUsername ∧ ∀ a,
      c.shared.broker.clients.find? result.mqttUsername = some a →
        a.password = result.mqttPassword := by
  obtain ⟨ledger, hkept, hdrawn⟩ : ∃ ledger : Ledger, ledger.Kept s ∧ ∀ i, ledger.Draws (calls i) :=
    ⟨Ledger.of calls s, Ledger.of_kept hs, Ledger.of_draws hdraws⟩
  have hinv : ledger.Kept c.shared ∧
      ∀ i, Meets ledger.Reads ledger.Writes ledger.Issues (c.thread i) := by
    refine h.invariant (I := fun c ↦ ledger.Kept c.shared ∧ ∀ i, Meets _ _ _ (c.thread i))
      ⟨hkept, fun i ↦ handsOut_issues dig (hdrawn i)⟩ fun c l d ⟨hc, hmeets⟩ hg hstep ↦ ?_
    cases l with
    | env x =>
        cases Pool.step_env hstep
        exact ⟨hc.sheds hg, hmeets⟩
    | run i f =>
        refine Pool.meets_run ledger.upholds hc hmeets (fun op k _ hop ↦ ?_) hstep
        cases f with
        | served | unanswered e => exact hc.serve hop
        | refused e => exact hc
  have hmeet := hinv.2 i
  cases hi : c.thread i with
  | pure r =>
      rw [hi] at hreturned hmeet
      cases hreturned
      obtain ⟨hpassword, hdevice⟩ := hmeet
      exact ⟨hdevice, fun a ha ↦ (hinv.1.accounts _ a ha).trans hpassword.symm⟩
  | throw e => rw [hi] at hreturned; exact hreturned.elim
  | call op k => rw [hi] at hreturned; exact hreturned.elim

instance (c : Pool ι TokenOp Err (Option EnrollmentResult) Backend)
    (l : Event ι Err Nat) : Decidable (EnvSheds tick c l) :=
  .isTrue (match l with
    | .run .. => trivial
    | .env _ => ⟨.refl _ _, .refl _ _, .refl _ _, .refl _ _⟩)

/-- A token is issued and redeemed while time passes. -/
theorem handsOut_password_example :
    ∃ c : Pool Bool TokenOp Err (Option EnrollmentResult) Backend,
      Returned (· = some ⟨"dev-aqid", "dev-aqid", "BwgJ", none⟩) (c.thread true) ∧
      c.shared.broker.Has "dev-aqid" ∧ "dev-aqid" = "dev-aqid" ∧ ∀ a,
        c.shared.broker.clients.find? "dev-aqid" = some a → a.password = "BwgJ" := by
  let calls (b : Bool) : LifecycleCall := if b then consumeExample else createExample
  have hexec : ((exec (Pool.step tokenServer tick) (EnvSheds tick)
      ⟨freshBackend, fun b ↦ (calls b).handsOut plainDigests⟩
      (.replicate 7 (.run false .served) ++ .env 5 :: .replicate 8 (.run true .served))).any
        fun c ↦ decide (Returned (· = some ⟨"dev-aqid", "dev-aqid", "BwgJ", none⟩)
          (c.thread true) ∧ c.shared.broker.Has "dev-aqid")) = true := by
    decide
  obtain ⟨c, hc, hreturned, hhas⟩ := Reach.exists_of_exec _ hexec
  have hdraws : DrawnOnce calls := by
    have hcreate {b : Bool} {d : EnrollmentDraws} (hd : (calls b).draws = some d) : b = false := by
      cases b with
      | false => rfl
      | true => cases hd
    constructor <;> exact fun i j d e hd he _ ↦ (hcreate hd).trans (hcreate he).symm
  have hs : Unissued calls freshBackend := by
    refine ⟨fun _ ↦ rfl, fun _ ↦ rfl, fun _ ↦ rfl, fun i d _ h ↦ ?_⟩
    cases h
  exact ⟨c, hreturned, hhas, handsOut_password plainDigests hdraws hs tick hc hreturned⟩

end Runs

end Zenstier
