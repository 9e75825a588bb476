import Zenstier.Tokens.Service

/-!
# Broker credentials and token rows

The broker and the database have no common transaction, so the services keep the two in
agreement by the order of their requests: an account is disabled before its token can be
redeemed, and it is deleted before its token row is.  An enabled device credential should
therefore always belong to a token that is CONSUMED.

Three orders do not hold up when a request fails.  `createClient` creates the account
enabled, so a lost answer, or a `disableClient` that fails, leaves it enabled with an
ACTIVE token.  `enableClient` comes before the CONSUMED transaction, so the same happens if
its answer is lost or the transaction fails.  And `deleteDeviceAction` deletes the row of a
device even though revoking its token has failed.  `Tolerates` names exactly these
failures; `lifecycle_agreement` says that nothing else breaks the agreement.
-/

namespace Zenstier

open Store Concurrent Prog

/-- A call of the credential lifecycle. -/
inductive LifecycleCall
  | create (draws : EnrollmentDraws) (userId teamId deviceName : String)
      (label groupId : Option String)
  | consume (plaintextToken : String) (facts : HostFacts)
  | revoke (userId teamId tokenId : String)
  | deleteDevice (userId teamId deviceId : String)
  | deleteTeam (teamId : String)
deriving DecidableEq, Repr

/-- The program of a call; what it returns does not matter here. -/
def LifecycleCall.prog (dig : Digests) : LifecycleCall → TokenM Unit
  | .create draws userId teamId deviceName label groupId => do
      let _ ← createEnrollmentToken dig draws userId teamId deviceName label groupId
  | .consume plaintextToken facts => do
      let _ ← consumeEnrollmentToken dig plaintextToken facts
  | .revoke userId teamId tokenId => revokeToken userId teamId tokenId
  | .deleteDevice userId teamId deviceId => deleteDeviceAction userId teamId deviceId
  | .deleteTeam teamId => Zenstier.deleteTeam teamId

/-- The account of the token `id` is not enabled. -/
def TokenNotLive (s : Backend) (id : String) : Prop :=
  ∀ tok, s.tokens.find? id = some tok → ¬ s.broker.Live tok.mqttUsername

/-- Which requests of a call may fail without effect.  Reading the clock never fails. -/
def LifecycleCall.MayRefuse (call : LifecycleCall) {β : Type} (op : TokenOp β) (s : Backend) :
    Prop :=
  match call, op with
  | _, .now => False
  -- the account has just been created enabled
  | .create .., .dynsecSend [.disableClient u] => ¬ s.broker.Live u
  -- the account has just been enabled
  | .consume .., .markConsumed id .. => TokenNotLive s id
  -- the device is deleted even if its account is not
  | .deleteDevice .., .findToken id _ => TokenNotLive s id
  | .deleteDevice .., .dynsecSend [.deleteClient u] => ¬ s.broker.Live u
  | _, _ => True

/-- Which requests of a call may take effect without an answer. -/
def LifecycleCall.MayLoseAnswer (call : LifecycleCall) {β : Type} (op : TokenOp β)
    (s : Backend) : Prop :=
  match call, op with
  | _, .now => False
  -- unless the answer would be that nothing was created
  | .create .., .dynsecSend [.createClient u pw cid rs gs] =>
      (s.broker.apply (.createClient u pw cid rs gs)).1.error.isSome
  -- unless there is no account to enable
  | .consume .., .dynsecSend [.enableClient u] => ¬ s.broker.Has u
  | .deleteDevice .., .findToken id _ => TokenNotLive s id
  | _, _ => True

/-- Which fates the requests of a call may meet. -/
def LifecycleCall.Tolerates (call : LifecycleCall) : Admits TokenOp Err Backend :=
  fun _ op f s ↦ match f with
  | .served => True
  | .refused _ => call.MayRefuse op s
  | .unanswered _ => call.MayLoseAnswer op s

namespace Agreement

/-! ## The invariant -/

/-- A CONSUMED token has this MQTT username. -/
def Consumed (s : Backend) (u : String) : Prop :=
  ∃ id tok, s.tokens.find? id = some tok ∧ tok.mqttUsername = u ∧ tok.status = .consumed

instance (s : Backend) (u : String) : Decidable (Consumed s u) :=
  decidable_of_iff (∃ e ∈ s.tokens.entries, e.2.mqttUsername = u ∧ e.2.status = .consumed)
    ⟨fun ⟨e, he, h⟩ ↦ ⟨e.1, e.2, Table.find?_eq_some.mpr he, h⟩,
      fun ⟨id, tok, htok, h⟩ ↦ ⟨(id, tok), Table.find?_eq_some.mp htok, h⟩⟩

/-- The constraints of the token table: usernames are unique, and a token's device exists
and is in the token's team. -/
structure Rows (s : Backend) : Prop where
  usernames : s.tokens.UniqueOn (·.mqttUsername)
  device : ∀ id tok d, s.tokens.find? id = some tok → tok.deviceId = some d →
    ∃ dev, s.devices.find? d = some dev ∧ dev.teamId = tok.teamId

/-- Enabled device credentials other than `u` belong to CONSUMED tokens. -/
def AgreesBut (u : String) (s : Backend) : Prop :=
  ∀ v, s.broker.Live v → v = u ∨ Consumed s v

/-- Every enabled device credential belongs to a CONSUMED token. -/
def Agrees (s : Backend) : Prop := ∀ u, s.broker.Live u → Consumed s u

/-- What holds between the calls. -/
structure Consistent (s : Backend) : Prop extends Rows s where
  agrees : Agrees s

/-- Two states with the same rows and the same accounts. -/
structure Same (s t : Backend) : Prop where
  tokens : t.tokens = s.tokens
  devices : t.devices = s.devices
  broker : t.broker = s.broker

variable {s t : Backend}

theorem Same.refl (s : Backend) : Same s s := ⟨rfl, rfl, rfl⟩

theorem Same.trans {r : Backend} (h : Same r s) (h' : Same s t) : Same r t :=
  ⟨h'.tokens.trans h.tokens, h'.devices.trans h.devices, h'.broker.trans h.broker⟩

theorem Rows.same (hs : Rows s) (h : Same s t) : Rows t := by
  constructor
  · rw [h.tokens]
    exact hs.usernames
  · rw [h.tokens, h.devices]
    exact hs.device

theorem Consumed.same {u : String} (hs : Consumed s u) (h : Same s t) : Consumed t u := by
  rwa [Consumed, h.tokens]

theorem Consistent.same (hs : Consistent s) (h : Same s t) : Consistent t := by
  refine ⟨hs.toRows.same h, fun u hu ↦ (hs.agrees u ?_).same h⟩
  rwa [← h.broker]

/-! ## Requests that leave rows and accounts alone -/

/-- Reads, and writes to Redis and to the audit log. -/
def Quiet : ∀ β : Type, TokenOp β → Prop
  | _, .now | _, .createAuditLog _ | _, .findTokenByHash _ | _, .findToken _ _
  | _, .findDevice _ _ | _, .findTeam _ | _, .detachUsers _ | _, .redisSet _ _ _
  | _, .redisGet _ | _, .redisDel _ | _, .clearRetainedStatus _ => True
  | _, _ => False

theorem Quiet.same_after {β : Type} {op : TokenOp β} (h : Quiet β op) (s : Backend)
    (f : Fate Err) : Same s (tokenServer.after f op s) := by
  refine Server.after_of (Same s) (.refl s) ?_ f
  cases op <;> first | exact h.elim | exact ⟨rfl, rfl, rfl⟩

section Wp

variable {adm : Admits TokenOp Err Backend}

/-- The weakest precondition over the stores; the requests themselves are not restricted. -/
abbrev wps {α : Type} (adm : Admits TokenOp Err Backend)
    (Q : Except Err α → Backend → Prop) (p : TokenM α) (s : Backend) : Prop :=
  wp tokenServer adm (fun _ _ _ ↦ True) Q p s

/-- A program of quiet requests leaves rows and accounts alone. -/
theorem wp_quiet {α : Type} {p : TokenM α} (hp : Only Quiet p) (s : Backend) :
    wps adm (fun _ t ↦ Same s t) p s :=
  wp_of_only (fun _ _ _ f hop hs _ ↦ hs.trans (Quiet.same_after hop _ f))
    (fun _ _ _ _ _ ↦ trivial) hp (.refl s)

/-- A quiet request changes no row and no account, whether it succeeds or fails. -/
theorem wp_await_quiet {α β : Type} {Q : Except Err α → Backend → Prop} {op : TokenOp β}
    (hop : Quiet β op) {k : β → TokenM α} {s : Backend}
    (herr : ∀ e t, Same s t → Q (.error e) t)
    (hok : ∀ b t, (s.serve op).1 = .ok b → Same s t → wps adm Q (k b) t) :
    wps adm Q (.perform op >>= k) s := by
  have hsame : Same s (s.serve op).2 := hop.same_after s .served
  refine wp_await trivial (fun _ ↦ ?_) (fun e _ ↦ herr e s (.refl s)) fun e _ ↦ herr e _ hsame
  rw [tokenServer_serve]
  cases hr : (s.serve op).1 with
  | ok b => exact hok b _ hr hsame
  | error e => exact herr e _ hsame

/-- A control command: it is carried out and its response read, or the request fails. -/
theorem wp_await_dynsec {α : Type} {Q : Except Err α → Backend → Prop} {c : DynsecCommand}
    {k : List DynsecResponse → TokenM α} {s : Backend}
    (hserved : wps adm Q (k [(s.broker.apply c).1]) { s with broker := (s.broker.apply c).2 })
    (hrefused : ∀ e, adm _ (.dynsecSend [c]) (.refused e) s → Q (.error e) s)
    (hunanswered : ∀ e, adm _ (.dynsecSend [c]) (.unanswered e) s →
      Q (.error e) { s with broker := (s.broker.apply c).2 }) :
    wps adm Q (.perform (.dynsecSend [c]) >>= k) s :=
  wp_await trivial (fun _ ↦ hserved) hrefused hunanswered

/-- A write that may be rejected: it takes effect, with or without an answer, or nothing
happens. -/
theorem wp_await_commit {α : Type} {Q : Except Err α → Backend → Prop} {op : TokenOp Unit}
    {k : Unit → TokenM α} {s : Backend} {r : Except Err Backend}
    (hop : s.serve op = s.commit r)
    (hok : ∀ t, r = .ok t → wps adm Q (k ()) t)
    (hrejected : ∀ e', r = .error e' → ∀ e, Q (.error e) s)
    (hrefused : ∀ e, adm _ op (.refused e) s → Q (.error e) s)
    (hunanswered : ∀ e t, r = .ok t → Q (.error e) t) :
    wps adm Q (.perform op >>= k) s := by
  refine wp_await trivial (fun _ ↦ ?_) hrefused fun e _ ↦ ?_
  · rw [tokenServer_serve, hop]
    cases hr : r with
    | ok t => exact hok t hr
    | error e => exact hrejected e hr e
  · rw [tokenServer_serve, hop]
    cases hr : r with
    | ok t => exact hunanswered e t hr
    | error e' => exact hrejected e' hr e

/-- A last write: it takes effect, with or without an answer, or nothing happens. -/
theorem wp_perform_commit {Q : Except Err Unit → Backend → Prop} {op : TokenOp Unit}
    {s : Backend} {r : Except Err Backend} (hop : s.serve op = s.commit r)
    (hok : ∀ r' t, r = .ok t → Q r' t) (hfail : ∀ e, Q (.error e) s) :
    wps adm Q (.perform op) s := by
  refine (wp_perform op s).mpr ⟨trivial, fun f _ ↦ ?_⟩
  cases f with
  | refused e => exact hfail e
  | served =>
      rw [Server.reply_served, Server.after_served, tokenServer_serve, hop]
      cases hr : r with
      | ok t => exact hok _ t hr
      | error e => exact hfail e
  | unanswered e =>
      rw [Server.reply_unanswered, Server.after_unanswered, tokenServer_serve, hop]
      cases hr : r with
      | ok t => exact hok _ t hr
      | error _ => exact hfail e

end Wp

/-! ## Creating a token -/

/-- The accounts may change as long as enabled credentials belong to CONSUMED tokens. -/
theorem Rows.consistent (hs : Rows s) {b : Broker} (h : ∀ u, b.Live u → Consumed s u) :
    Consistent { s with broker := b } :=
  ⟨⟨hs.usernames, hs.device⟩, h⟩

section Create

variable {draws : EnrollmentDraws} {userId teamId deviceName : String}
  {label groupId : Option String}

/-- A created device changes no other row and no account. -/
theorem Consistent.createDevice {id : String} {row : Device} (hs : Consistent s)
    (h : s.createDevice id row = .ok t) :
    Consistent t ∧ t.devices.find? id = some row := by
  simp only [Backend.createDevice] at h
  split at h
  · contradiction
  split at h
  · contradiction
  split at h
  · rename_i devices hins
    cases h
    have hfind := Table.find?_insert hins
    refine ⟨⟨⟨hs.usernames, fun id' tok d htok hd ↦ ?_⟩, hs.agrees⟩, ?_⟩
    · obtain ⟨dev, hdev, hteam⟩ := hs.device id' tok d htok hd
      refine ⟨dev, ?_, hteam⟩
      have hne : d ≠ id := by
        rintro rfl
        rw [(Table.insert_eq_some hins).1] at hdev
        contradiction
      simp only [hfind, if_neg hne, hdev]
    · simp only [hfind, if_true]
  · contradiction

/-- A created token takes nothing from the accounts, since its username is new. -/
theorem Consistent.createToken {id : String} {row : AuthToken} (hs : Consistent s)
    (h : s.createToken id row = .ok t)
    (hdev : ∀ d, row.deviceId = some d → ∃ dev, s.devices.find? d = some dev ∧
      dev.teamId = row.teamId) : Consistent t := by
  simp only [Backend.createToken] at h
  split at h
  · contradiction
  split at h
  · contradiction
  rename_i hfresh
  split at h
  · rename_i tokens hins
    cases h
    have hfind := Table.find?_insert hins
    have hnew : ∀ k tok, s.tokens.find? k = some tok → tok.mqttUsername ≠ row.mqttUsername := by
      intro k tok htok heq
      rw [Bool.not_eq_true, Option.isSome_eq_false_iff, Option.isNone_iff_eq_none] at hfresh
      have := Table.findFirst_eq_none hfresh htok
      simp [heq] at this
    have hold : ∀ u, Consumed s u → Consumed { s with tokens } u := by
      rintro u ⟨k, tok, htok, hu, hc⟩
      refine ⟨k, tok, ?_, hu, hc⟩
      have hne : k ≠ id := by
        rintro rfl
        rw [(Table.insert_eq_some hins).1] at htok
        contradiction
      simp only [hfind, if_neg hne, htok]
    refine ⟨⟨hs.usernames.insert hins hnew, fun k tok d htok hd ↦ ?_⟩,
      fun u hu ↦ hold u (hs.agrees u hu)⟩
    simp only [hfind] at htok
    split at htok
    · cases htok
      exact hdev d hd
    · exact hs.device k tok d htok hd
  · contradiction

/-- Disabling an account restores the agreement that enabling it may have broken. -/
theorem wp_disable {call : LifecycleCall} {u : String}
    (hcall : call = .create draws userId teamId deviceName label groupId) (hs : Rows s)
    (hbut : AgreesBut u s) :
    wps call.Tolerates (fun _ t ↦ Consistent t) (do
      let disabled ← .perform (.dynsecSend [.disableClient u])
      .ofExcept (assertDynsecOk disabled)) s := by
  subst hcall
  have hdisabled : Consistent { s with broker := (s.broker.apply (.disableClient u)).2 } := by
    refine hs.consistent fun v hv ↦ ?_
    obtain ⟨hlive, hne⟩ := Broker.live_disableClient hv
    exact (hbut v hlive).resolve_left hne
  refine wp_await_dynsec ?_ (fun e hf ↦ ⟨hs, fun v hv ↦ ?_⟩) fun e _ ↦ hdisabled
  · exact (wp_ofExcept _ _).mpr hdisabled
  · refine (hbut v hv).resolve_left ?_
    rintro rfl
    exact hf hv

/-- Provisioning leaves the new account disabled, whatever fails that is tolerated. -/
theorem wp_provision {call : LifecycleCall} {u password : String}
    (hcall : call = .create draws userId teamId deviceName label groupId)
    (hs : Consistent s) :
    wps call.Tolerates (fun _ t ↦ Consistent t) (provisionBrokerCredential u password groupId)
      s := by
  subst hcall
  unfold provisionBrokerCredential
  simp only
  generalize (truthy groupId).toList.map broadcastGroupName = groups
  refine wp_await_dynsec ?_ (fun e _ ↦ hs) fun e hf ↦ ?_
  · cases hr : assertDynsecOk
        [(s.broker.apply (.createClient u password u [DEVICE_ROLE] groups)).1] with
    | error e =>
        have hsame := Broker.createClient_error (error_of_assertDynsecOk hr)
        rw [hsame]
        exact hs
    | ok _ =>
        refine wp_disable rfl ⟨hs.usernames, hs.device⟩ fun v hv ↦ ?_
        -- the account may be enabled now, but no other has become so
        rcases Broker.live_createClient hv with hold | ⟨hvu, -⟩
        · exact .inr (hs.agrees v hold)
        · exact .inl hvu
  · have hsame := Broker.createClient_error hf
    rw [hsame]
    exact hs

theorem wp_create (dig : Digests) {call : LifecycleCall}
    (hcall : call = .create draws userId teamId deviceName label groupId)
    (hs : Consistent s) :
    wps call.Tolerates (fun _ t ↦ Consistent t) (call.prog dig) s := by
  subst hcall
  simp only [LifecycleCall.prog, createEnrollmentToken, Prog.bind_assoc]
  refine wp_await_commit rfl (fun s₁ h₁ ↦ ?_) (fun _ _ _ ↦ hs) (fun _ _ ↦ hs)
    fun _ t ht ↦ (hs.createDevice ht).1
  obtain ⟨hs₁, hdev⟩ := hs.createDevice h₁
  refine wp_await_quiet (by trivial) (fun _ t h ↦ hs₁.same h) fun now s₂ _ h₂ ↦ ?_
  have hs₂ := hs₁.same h₂
  have hrow : ∀ t row, row.deviceId = some draws.deviceRowId → row.teamId = teamId →
      s₂.createToken draws.tokenRowId row = .ok t → Consistent t := by
    intro t row hd hteam ht
    refine hs₂.createToken ht fun d hd' ↦ ?_
    rw [hd] at hd'
    cases hd'
    exact ⟨_, by rw [h₂.devices]; exact hdev, hteam.symm⟩
  refine wp_await_commit rfl (fun s₃ h₃ ↦ ?_) (fun _ _ _ ↦ hs₂) (fun _ _ ↦ hs₂)
    fun _ t ht ↦ hrow t _ rfl rfl ht
  have hs₃ := hrow s₃ _ rfl rfl h₃
  refine wp_await_quiet (by trivial) (fun _ t h ↦ hs₃.same h) fun _ s₄ _ h₄ ↦ ?_
  refine (wp_bind _ _ _).mpr (wp_mono (wp_provision rfl (hs₃.same h₄)) ?_)
  rintro (e | _) s₅ hs₅
  · exact hs₅
  exact wp_await_quiet (by trivial) (fun _ t h ↦ hs₅.same h) fun _ t _ h ↦ hs₅.same h

end Create

/-! ## Redeeming a token -/

/-- A token update that keeps usernames, devices and teams keeps the constraints. -/
theorem Rows.update (hs : Rows s) {id : String} {f : AuthToken → AuthToken}
    (htokens : t.tokens = s.tokens.update id f)
    (hdevices : ∀ k, (t.devices.find? k).map (·.teamId) = (s.devices.find? k).map (·.teamId))
    (hf : ∀ tok, (f tok).mqttUsername = tok.mqttUsername ∧ (f tok).deviceId = tok.deviceId ∧
      (f tok).teamId = tok.teamId) : Rows t := by
  constructor
  · rw [htokens]
    exact hs.usernames.updateMany _ fun tok ↦ (hf tok).1
  · intro k tok d htok hd
    have hold : ∃ old, s.tokens.find? k = some old ∧ tok.deviceId = old.deviceId ∧
        tok.teamId = old.teamId := by
      rw [htokens] at htok
      rcases Table.find?_update_eq_some htok with ⟨old, -, hold, rfl⟩ | ⟨-, htok⟩
      · exact ⟨old, hold, (hf old).2⟩
      · exact ⟨tok, htok, rfl, rfl⟩
    obtain ⟨old, hold, hdev, hteam⟩ := hold
    obtain ⟨dev, hfound, hsame⟩ := hs.device k old d hold (hdev ▸ hd)
    have hmap := hdevices d
    rw [hfound] at hmap
    obtain ⟨dev', hfound', hteam'⟩ := Option.map_eq_some_iff.mp hmap
    exact ⟨dev', hfound', hteam'.trans (hsame.trans hteam.symm)⟩

section Consume

variable {plaintextToken : String} {facts : HostFacts}

/-- The enrollment transaction makes up for the account that was enabled. -/
theorem markConsumed_consistent {id d : String} {tok : AuthToken} {c l : Int}
    {audit : AuditLog} (hs : Rows s) (hbut : AgreesBut tok.mqttUsername s)
    (htok : s.tokens.find? id = some tok) (h : s.markConsumed id d facts c l audit = .ok t) :
    Consistent t := by
  obtain ⟨htokens, hdevices, -, hbroker, -⟩ := Backend.markConsumed_eq_ok h
  have hconsumed : Consumed t tok.mqttUsername := by
    refine ⟨id, { tok with status := .consumed, consumedAt := some c, lastUsedAt := some l },
      ?_, rfl, rfl⟩
    rw [htokens, Table.find?_update, if_pos rfl, htok]
    rfl
  refine ⟨hs.update htokens hdevices fun _ ↦ ⟨rfl, rfl, rfl⟩, fun u hu ↦ ?_⟩
  rw [hbroker] at hu
  rcases hbut u hu with rfl | ⟨k, old, hold, hname, hstatus⟩
  · exact hconsumed
  · by_cases hk : k = id
    · subst hk
      rw [htok] at hold
      cases hold
      rw [← hname]
      exact hconsumed
    · refine ⟨k, old, ?_, hname, hstatus⟩
      rw [htokens, Table.find?_update, if_neg hk, hold]

/-- Reading the clock does not fail. -/
theorem wp_await_now {call : LifecycleCall} {α : Type} {Q : Except Err α → Backend → Prop}
    {k : Int → TokenM α} (h : wps call.Tolerates Q (k s.clock) s) :
    wps call.Tolerates Q (.perform .now >>= k) s := by
  refine wp_await trivial (fun _ ↦ h) (fun e hf ↦ ?_) fun e hf ↦ ?_
  · cases call <;> exact hf.elim
  · cases call <;> exact hf.elim

/-- Once the account is enabled, the CONSUMED transaction must not be refused. -/
theorem wp_complete {call : LifecycleCall} (hcall : call = .consume plaintextToken facts)
    {id d : String} {token : AuthToken} {audit : AuditLog} {result : EnrollmentResult}
    (hs : Rows s) (hbut : AgreesBut token.mqttUsername s)
    (htok : s.tokens.find? id = some token) (hdev : (s.devices.find? d).isSome) :
    wps call.Tolerates (fun _ t ↦ Consistent t) (do
      let consumedAt ← .perform .now
      let lastUsedAt ← .perform .now
      .perform (.markConsumed id d facts consumedAt lastUsedAt audit)
      return result) s := by
  refine wp_await_now (wp_await_now ?_)
  subst hcall
  refine wp_await_commit rfl (fun t ht ↦ markConsumed_consistent hs hbut htok ht)
    (fun e' he' ↦ ?_) (fun e hf ↦ ⟨hs, fun v hv ↦ ?_⟩)
    fun e t ht ↦ markConsumed_consistent hs hbut htok ht
  · simp [Backend.markConsumed, htok, Option.isSome_iff_ne_none.mp hdev] at he'
  · refine (hbut v hv).resolve_left ?_
    rintro rfl
    exact hf token htok hv

/-- Enabling the account and the CONSUMED transaction keep the agreement, unless the one
takes effect without the other. -/
theorem wp_enroll {call : LifecycleCall} (hcall : call = .consume plaintextToken facts)
    {id d : String} {token : AuthToken} {device : Device} {password : String}
    (hs : Consistent s) (htok : s.tokens.find? id = some token)
    (hdev : (s.devices.find? d).isSome) :
    wps call.Tolerates (fun _ t ↦ Consistent t) (enroll facts id token d device password) s := by
  unfold enroll
  by_cases hhas : s.broker.Has token.mqttUsername
  · have hbut : AgreesBut token.mqttUsername { s with
        broker := (s.broker.apply (.enableClient token.mqttUsername)).2 } := by
      intro v hv
      rcases Broker.live_enableClient hv with hold | ⟨rfl, -⟩
      · exact .inr (hs.agrees v hold)
      · exact .inl rfl
    refine wp_await_dynsec ?_ (fun _ _ ↦ hs) fun e hf ↦ ?_
    · have hdone : (s.broker.apply (.enableClient token.mqttUsername)).1 =
          { command := "enableClient" } := by
        rw [Broker.apply, Broker.modify_of_has hhas]
      rw [hdone, assertDynsecOk_done]
      exact wp_complete hcall ⟨hs.usernames, hs.device⟩ hbut htok hdev
    · subst hcall
      exact absurd hhas hf
  · -- without an account the command fails and changes nothing
    have hnone : s.broker.apply (.enableClient token.mqttUsername) =
        ({ command := "enableClient", error := "Client not found" }, s.broker) := by
      rw [Broker.apply, Broker.modify_of_not_has hhas]
    refine wp_await_dynsec ?_ (fun _ _ ↦ hs) fun e _ ↦ ?_
    · obtain ⟨e, he⟩ := assertDynsecOk_notFound "enableClient"
      rw [hnone, he]
      exact hs
    · rw [hnone]
      exact hs

/-- A lookup by hash returns a row of the table with its device. -/
theorem serve_findTokenByHash {h id d : String} {token : AuthToken} {device : Device}
    (hfound : (s.serve (.findTokenByHash h)).1 = .ok (some ⟨id, token, some (d, device)⟩)) :
    s.tokens.find? id = some token ∧ token.deviceId = some d ∧
      s.devices.find? d = some device := by
  simp only [Backend.serve, Except.ok.injEq, Option.map_eq_some_iff, TokenWithDevice.mk.injEq,
    Backend.deviceOf, Option.bind_eq_some_iff] at hfound
  obtain ⟨⟨id', tok⟩, hfirst, rfl, rfl, d', hd', dev, hdev, heq⟩ := hfound
  cases heq
  exact ⟨(Table.findFirst_eq_some hfirst).1, hd', hdev⟩

theorem wp_consume (dig : Digests) {call : LifecycleCall}
    (hcall : call = .consume plaintextToken facts) (hs : Consistent s) :
    wps call.Tolerates (fun _ t ↦ Consistent t) (call.prog dig) s := by
  subst hcall
  simp only [LifecycleCall.prog, consumeEnrollmentToken, Prog.bind_assoc]
  refine wp_await_quiet (by trivial) (fun _ t h ↦ hs.same h) fun found s₁ hfound h₁ ↦ ?_
  have hs₁ := hs.same h₁
  rcases found with _ | ⟨id, token, _ | ⟨d, device⟩⟩
  · exact hs₁
  · exact hs₁
  obtain ⟨htok, -, hdev⟩ := serve_findTokenByHash hfound
  simp only [Prog.bind_assoc]
  refine (wp_bind _ _ _).mpr (wp_mono (wp_quiet (checkRedeemable_only trivial token) s₁) ?_)
  rintro (e | _) s₂ h₂
  · exact hs₁.same h₂
  refine (wp_bind _ _ _).mpr
    (wp_mono (wp_quiet (takePendingSecret_only id trivial trivial) s₂) ?_)
  rintro (e | secret) s₃ h₃
  · exact (hs₁.same h₂).same h₃
  have hsame := (h₁.trans h₂).trans h₃
  refine (wp_bind _ _ _).mpr ?_
  unfold enrollWith
  cases truthy secret with
  | none => exact hs.same hsame
  | some password =>
      refine wp_mono (wp_enroll rfl (hs.same hsame) ?_ ?_) fun r t ht ↦ ?_
      · rw [hsame.tokens, htok]
      · rw [hsame.devices, hdev]
        rfl
      · cases r <;> exact ht

end Consume

/-! ## Ending a credential -/

/-- Accounts may only have gone, and no token has changed hands. -/
structure Shrinks (s t : Backend) : Prop where
  live : ∀ u, t.broker.Live u → s.broker.Live u
  tokens : ∀ id, (t.tokens.find? id).map (fun tok ↦ (tok.mqttUsername, tok.deviceId, tok.teamId)) =
    (s.tokens.find? id).map fun tok ↦ (tok.mqttUsername, tok.deviceId, tok.teamId)

theorem Shrinks.of_same (h : Same s t) : Shrinks s t := by
  refine ⟨fun u hu ↦ ?_, fun id ↦ ?_⟩
  · rwa [← h.broker]
  · rw [h.tokens]

theorem Shrinks.trans {r : Backend} (h : Shrinks r s) (h' : Shrinks s t) : Shrinks r t :=
  ⟨fun u hu ↦ h.live u (h'.live u hu), fun id ↦ (h'.tokens id).trans (h.tokens id)⟩

/-- A token that was there is there still, under the same name, device and team. -/
theorem Shrinks.find? (h : Shrinks s t) {id : String} {tok : AuthToken}
    (htok : s.tokens.find? id = some tok) :
    ∃ tok', t.tokens.find? id = some tok' ∧ tok'.mqttUsername = tok.mqttUsername ∧
      tok'.deviceId = tok.deviceId ∧ tok'.teamId = tok.teamId := by
  have hmap := h.tokens id
  rw [htok] at hmap
  obtain ⟨tok', htok', heq⟩ := Option.map_eq_some_iff.mp hmap
  simp only [Prod.mk.injEq] at heq
  exact ⟨tok', htok', heq⟩

section Delete

variable {adm : Admits TokenOp Err Backend}

/-- Deleting an account keeps the agreement, whatever fails.  The account can be left only
by a command that was refused. -/
theorem wp_deleteBrokerClient (hs : Consistent s) (u : String) :
    wps adm (fun r t ↦ Consistent t ∧ t.tokens = s.tokens ∧ t.devices = s.devices ∧
      (∀ v, t.broker.Live v → s.broker.Live v) ∧
      (t.broker.Live u → r ≠ .ok () ∧ ∃ e, adm _ (.dynsecSend [.deleteClient u]) (.refused e) s))
      (deleteBrokerClient u) s := by
  have hgone : ∀ v, (s.broker.apply (.deleteClient u)).2.Live v → s.broker.Live v ∧ v ≠ u :=
    fun v hv ↦ Broker.live_deleteClient hv
  have hafter : Consistent { s with broker := (s.broker.apply (.deleteClient u)).2 } :=
    hs.toRows.consistent fun v hv ↦ hs.agrees v (hgone v hv).1
  refine wp_await_dynsec ?_ (fun e hf ↦ ?_) fun e _ ↦ ?_
  · refine (wp_ofExcept _ _).mpr ⟨hafter, rfl, rfl, fun v hv ↦ (hgone v hv).1, fun hu ↦ ?_⟩
    exact absurd rfl (hgone u hu).2
  · exact ⟨hs, rfl, rfl, fun _ hv ↦ hv, fun _ ↦ ⟨by simp, e, hf⟩⟩
  · exact ⟨hafter, rfl, rfl, fun v hv ↦ (hgone v hv).1, fun hu ↦ absurd rfl (hgone u hu).2⟩

/-- The revocation transaction is harmless once the account is gone. -/
theorem markRevoked_consistent {id : String} {d : Option String} {tok : AuthToken} {r : Int}
    {audit : AuditLog} (hs : Consistent s) (htok : s.tokens.find? id = some tok)
    (hgone : ¬ s.broker.Live tok.mqttUsername) (h : s.markRevoked id d r audit = .ok t) :
    Consistent t ∧ Shrinks s t := by
  obtain ⟨htokens, hdevices, -, hbroker, -⟩ := Backend.markRevoked_eq_ok h
  refine ⟨⟨hs.update htokens hdevices fun _ ↦ ⟨rfl, rfl, rfl⟩, fun u hu ↦ ?_⟩,
    fun u hu ↦ by rwa [← hbroker], fun k ↦ ?_⟩
  · rw [hbroker] at hu
    obtain ⟨k, old, hold, rfl, hstatus⟩ := hs.agrees u hu
    refine ⟨k, old, ?_, rfl, hstatus⟩
    have hne : k ≠ id := by
      rintro rfl
      rw [htok] at hold
      cases hold
      exact hgone hu
    rw [htokens, Table.find?_update, if_neg hne, hold]
  · rw [htokens, Table.find?_update]
    split
    · rw [Option.map_map]
      rfl
    · rfl

theorem wp_revokeFound (hs : Consistent s) (userId teamId : String) {found : TokenWithDevice}
    (htok : s.tokens.find? found.id = some found.token) :
    wps adm (fun _ t ↦ Consistent t ∧ Shrinks s t ∧ (t.broker.Live found.token.mqttUsername →
      ∃ e, adm _ (.dynsecSend [.deleteClient found.token.mqttUsername]) (.refused e) s))
      (revokeFound userId teamId found) s := by
  unfold revokeFound
  refine (wp_bind _ _ _).mpr (wp_mono (wp_deleteBrokerClient hs found.token.mqttUsername) ?_)
  rintro r s₁ ⟨hs₁, htokens, -, hlive, hleft⟩
  have h₁ : Shrinks s s₁ := ⟨hlive, fun id ↦ by rw [htokens]⟩
  cases r with
  | error e => exact ⟨hs₁, h₁, fun h ↦ (hleft h).2⟩
  | ok _ =>
      have hgone : ¬ s₁.broker.Live found.token.mqttUsername := fun h ↦ (hleft h).1 rfl
      -- from here on the account is gone, so every way to end is fine
      have hend : ∀ t, Consistent t → Shrinks s₁ t → Consistent t ∧ Shrinks s t ∧
          (t.broker.Live found.token.mqttUsername → ∃ e, adm _
            (.dynsecSend [.deleteClient found.token.mqttUsername]) (.refused e) s) :=
        fun t ht h ↦ ⟨ht, h₁.trans h, fun hu ↦ absurd (h.live _ hu) hgone⟩
      have hquiet : ∀ {s' t}, Consistent s' → Shrinks s₁ s' → Same s' t → _ :=
        fun hs' h' h ↦ hend _ (hs'.same h) (h'.trans (.of_same h))
      refine wp_await_quiet (by trivial) (fun _ t h ↦ hquiet hs₁ (.of_same (.refl _)) h)
        fun revokedAt s₂ _ h₂ ↦ ?_
      have hs₂ := hs₁.same h₂
      have hrevoked : ∀ {d r audit t}, s₂.markRevoked found.id d r audit = .ok t →
          Consistent t ∧ Shrinks s₂ t := fun ht ↦ by
        refine markRevoked_consistent hs₂ (by rw [h₂.tokens, htokens, htok]) ?_ ht
        rwa [h₂.broker]
      refine wp_await_commit rfl (fun s₃ h₃ ↦ ?_)
        (fun _ _ e ↦ hquiet hs₁ (.of_same (.refl _)) h₂)
        (fun e _ ↦ hquiet hs₁ (.of_same (.refl _)) h₂)
        fun e t ht ↦ hend t (hrevoked ht).1 ((Shrinks.of_same h₂).trans (hrevoked ht).2)
      obtain ⟨hs₃, hsh₃⟩ := hrevoked h₃
      have h₁₃ := (Shrinks.of_same h₂).trans hsh₃
      refine (wp_bind _ _ _).mpr
        (wp_mono (wp_quiet (evictRetainedStatus_only (fun _ ↦ trivial) _) s₃) ?_)
      rintro (e | _) s₄ h₄
      · exact hquiet hs₃ h₁₃ h₄
      refine (wp_bind _ _ _).mpr
        (wp_mono (wp_quiet (takePendingSecret_only found.id trivial trivial) s₄) ?_)
      rintro (e | _) s₅ h₅ <;> exact hquiet hs₃ h₁₃ (h₄.trans h₅)

/-- Revoking keeps the agreement.  The account can be left only by a lookup that failed or a
deletion that was refused. -/
theorem wp_revokeToken (hs : Consistent s) (userId teamId tokenId : String) :
    wps adm (fun _ t ↦ Consistent t ∧ Shrinks s t ∧ ∀ tok,
      s.tokens.find? tokenId = some tok → tok.teamId = teamId → t.broker.Live tok.mqttUsername →
      ∃ e, adm _ (.findToken tokenId teamId) (.refused e) s ∨
        adm _ (.findToken tokenId teamId) (.unanswered e) s ∨
        adm _ (.dynsecSend [.deleteClient tok.mqttUsername]) (.refused e) s)
      (revokeToken userId teamId tokenId) s := by
  unfold revokeToken
  refine wp_await trivial (fun _ ↦ ?_) (fun e hf ↦ ?_) fun e hf ↦ ?_
  · simp only [tokenServer_serve, Backend.serve, ofExcept_ok, Prog.pure_bind]
    cases hfirst : s.tokens.findFirst fun k t ↦ k = tokenId ∧ t.teamId = teamId with
    | none =>
        refine ⟨hs, .of_same (.refl s), fun tok htok hteam _ ↦ ?_⟩
        have := Table.findFirst_eq_none hfirst htok
        simp [hteam] at this
    | some e =>
        obtain ⟨id, token⟩ := e
        obtain ⟨htok, hp⟩ := Table.findFirst_eq_some hfirst
        obtain ⟨rfl, -⟩ : id = tokenId ∧ token.teamId = teamId := by simpa using hp
        refine wp_mono (wp_revokeFound hs userId teamId htok) fun r t ⟨ht, hsh, hleft⟩ ↦ ?_
        refine ⟨ht, hsh, fun tok htok' _ hlive ↦ ?_⟩
        rw [htok] at htok'
        cases htok'
        obtain ⟨e, he⟩ := hleft hlive
        exact ⟨e, .inr (.inr he)⟩
  · exact ⟨hs, .of_same (.refl s), fun tok _ _ _ ↦ ⟨e, .inl hf⟩⟩
  · exact ⟨hs, .of_same (.refl s), fun tok _ _ _ ↦ ⟨e, .inr (.inl hf)⟩⟩

/-- A device may be deleted once the accounts of its tokens are gone. -/
theorem deleteDevice_consistent {id : String} (hs : Consistent s)
    (hgone : ∀ k tok, s.tokens.find? k = some tok → tok.deviceId = some id →
      ¬ s.broker.Live tok.mqttUsername)
    (h : s.deleteDevice id = .ok t) : Consistent t := by
  rw [Backend.deleteDevice] at h
  split at h
  · contradiction
  cases h
  refine ⟨⟨hs.usernames.deleteMany _, fun k tok d htok hd ↦ ?_⟩, fun u hu ↦ ?_⟩
  · rw [Table.find?_deleteMany, Option.filter_eq_some_iff] at htok
    obtain ⟨dev, hdev, hteam⟩ := hs.device k tok d htok.1 hd
    refine ⟨dev, ?_, hteam⟩
    have hne : d ≠ id := by
      rintro rfl
      simp [hd] at htok
    simp only [Table.find?_delete, if_neg hne, hdev]
  · obtain ⟨k, tok, htok, rfl, hstatus⟩ := hs.agrees u hu
    refine ⟨k, tok, ?_, rfl, hstatus⟩
    rw [Table.find?_deleteMany, Option.filter_eq_some_iff]
    refine ⟨htok, ?_⟩
    have hne : tok.deviceId ≠ some id := fun hd ↦ hgone k tok htok hd hu
    simp [hne]

/-- Revoking one of the tokens of a device that is being deleted gets rid of its account, if
the failures are tolerated. -/
theorem wp_revoke_before_delete {call : LifecycleCall} {userId teamId deviceId id : String}
    (hcall : call = .deleteDevice userId teamId deviceId) (hs : Consistent s)
    {tok : AuthToken} (htok : s.tokens.find? id = some tok) (hteam : tok.teamId = teamId) :
    wps call.Tolerates (fun _ t ↦ Consistent t ∧ Shrinks s t ∧ ¬ t.broker.Live tok.mqttUsername)
      (revokeToken userId teamId id) s := by
  subst hcall
  refine wp_mono (wp_revokeToken hs userId teamId id) fun r t ⟨ht, hsh, hleft⟩ ↦ ?_
  refine ⟨ht, hsh, fun hlive ↦ ?_⟩
  obtain ⟨e, hf | hf | hf⟩ := hleft tok htok hteam hlive
  · exact hf tok htok (hsh.live _ hlive)
  · exact hf tok htok (hsh.live _ hlive)
  · exact hf (hsh.live _ hlive)

/-- The loop over the tokens of a device, and the deletion after it. -/
theorem wp_revokeAll {call : LifecycleCall} {userId teamId deviceId id : String}
    (hcall : call = .deleteDevice userId teamId deviceId) (hs : Consistent s)
    {tokens : List (String × AuthToken)}
    (hmem : ∀ k tok, (k, tok) ∈ tokens ↔ s.tokens.find? k = some tok ∧ tok.deviceId = some id)
    (hteam : ∀ k tok, (k, tok) ∈ tokens → tok.teamId = teamId) :
    wps call.Tolerates (fun _ t ↦ Consistent t) (do
      tokens.forM fun token ↦ do
        let _ ← Prog.attempt (revokeToken userId teamId token.1)
      .perform (.deleteDevice id)) s := by
  refine (wp_bind _ _ _).mpr (wp_forM (I := fun rest t ↦ Consistent t ∧ Shrinks s t ∧
    (∀ e ∈ rest, e ∈ tokens) ∧ ∀ e ∈ tokens, e ∈ rest ∨ ¬ t.broker.Live e.2.mqttUsername)
    tokens ?_ ?_ ⟨hs, .of_same (.refl s), fun _ h ↦ h, fun _ h ↦ .inl h⟩)
  · rintro ⟨k, tok⟩ rest t ⟨ht, hsh, hsub, hgone⟩
    have hhead : (k, tok) ∈ tokens := hsub _ List.mem_cons_self
    obtain ⟨tok', htok', hname, -, hteam'⟩ := hsh.find? ((hmem k tok).mp hhead).1
    refine (wp_bind _ _ _).mpr ((wp_attempt _ _).mpr (wp_mono
      (wp_revoke_before_delete hcall ht htok' (hteam'.trans (hteam k tok hhead))) ?_))
    rintro r t' ⟨ht', hsh', hdead⟩
    refine ⟨ht', hsh.trans hsh', fun e he ↦ hsub e (List.mem_cons_of_mem _ he), fun e he ↦ ?_⟩
    rcases hgone e he with hin | hnot
    · rcases List.mem_cons.mp hin with rfl | hrest
      · exact .inr (hname ▸ hdead)
      · exact .inl hrest
    · exact .inr fun hlive ↦ hnot (hsh'.live _ hlive)
  · rintro t ⟨ht, hsh, -, hgone⟩
    refine wp_perform_commit rfl (fun _ t' h ↦ deleteDevice_consistent ht ?_ h) fun _ ↦ ht
    intro k tok htok hd
    -- the row was among the tokens gone through, under the same name
    have hback := hsh.tokens k
    rw [htok] at hback
    obtain ⟨old, hold, heq⟩ := Option.map_eq_some_iff.mp hback.symm
    simp only [Prod.mk.injEq] at heq
    have hin : (k, old) ∈ tokens := (hmem k old).mpr ⟨hold, heq.2.1.trans hd⟩
    rcases hgone _ hin with h | h
    · cases h
    · rwa [← heq.1]

theorem wp_deleteDevice (dig : Digests) {call : LifecycleCall}
    {userId teamId deviceId : String}
    (hcall : call = .deleteDevice userId teamId deviceId) (hs : Consistent s) :
    wps call.Tolerates (fun _ t ↦ Consistent t) (call.prog dig) s := by
  have hprog : call.prog dig = deleteDeviceAction userId teamId deviceId := by rw [hcall]; rfl
  rw [hprog, deleteDeviceAction]
  refine wp_await_quiet (by trivial) (fun _ t h ↦ hs.same h) fun found s₁ hfound h₁ ↦ ?_
  have hs₁ := hs.same h₁
  cases found with
  | none => exact hs₁
  | some found =>
      obtain ⟨id, dev, tokens⟩ := found
      simp only [Backend.serve, Except.ok.injEq, Option.map_eq_some_iff,
        DeviceWithTokens.mk.injEq] at hfound
      obtain ⟨⟨id, dev⟩, hfirst, rfl, rfl, rfl⟩ := hfound
      obtain ⟨hdev, hp⟩ := Table.findFirst_eq_some hfirst
      have hteam : dev.teamId = teamId := (of_decide_eq_true hp).1
      have hmem : ∀ k tok, (k, tok) ∈ s.tokens.findMany (fun _ t ↦ t.deviceId = some id) ↔
          s₁.tokens.find? k = some tok ∧ tok.deviceId = some id := by
        intro k tok
        rw [Table.mem_findMany, h₁.tokens, decide_eq_true_iff]
      refine wp_revokeAll hcall hs₁ hmem fun k tok hin ↦ ?_
      obtain ⟨htok, hd⟩ := (hmem k tok).mp hin
      obtain ⟨dev', hdev', hsame⟩ := hs₁.device k tok id htok hd
      rw [h₁.devices, hdev] at hdev'
      cases hdev'
      rw [← hsame, hteam]

/-- A team may be deleted once the accounts of its tokens are gone: the devices of a team
have no tokens of another. -/
theorem deleteTeam_consistent {id : String} (hs : Consistent s)
    (hgone : ∀ k tok, s.tokens.find? k = some tok → tok.teamId = id →
      ¬ s.broker.Live tok.mqttUsername)
    (h : s.deleteTeam id = .ok t) : Consistent t := by
  rw [Backend.deleteTeam] at h
  split at h
  · contradiction
  cases h
  refine ⟨⟨hs.usernames.deleteMany _, fun k tok d htok hd ↦ ?_⟩, fun u hu ↦ ?_⟩
  · rw [Table.find?_deleteMany, Option.filter_eq_some_iff] at htok
    obtain ⟨dev, hdev, hteam⟩ := hs.device k tok d htok.1 hd
    have hne : dev.teamId ≠ id := by
      intro heq
      rw [hteam] at heq
      simp [heq] at htok
    refine ⟨dev, ?_, hteam⟩
    rw [Table.find?_deleteMany, Option.filter_eq_some_iff]
    exact ⟨hdev, by simp [hne]⟩
  · obtain ⟨k, tok, htok, rfl, hstatus⟩ := hs.agrees u hu
    refine ⟨k, tok, ?_, rfl, hstatus⟩
    have hne : tok.teamId ≠ id := fun hteam ↦ hgone k tok htok hteam hu
    have hdevice : ¬ (s.deviceOf tok).any fun d ↦ d.2.teamId = id := by
      rw [Option.any_eq_true]
      rintro ⟨⟨d, dev⟩, hof, hteam⟩
      simp only [Backend.deviceOf, Option.bind_eq_some_iff, Option.map_eq_some_iff] at hof
      obtain ⟨d', hd', dev', hdev', heq⟩ := hof
      cases heq
      obtain ⟨dev'', hdev'', hsame⟩ := hs.device k tok d htok hd'
      rw [hdev'] at hdev''
      cases hdev''
      exact hne (hsame.symm.trans (of_decide_eq_true hteam))
    rw [Table.find?_deleteMany, Option.filter_eq_some_iff]
    exact ⟨htok, by simp [hne, hdevice]⟩

/-- Deleting the accounts of a list of tokens: the loop ends with all of them gone, or it
aborts. -/
theorem wp_revokeOrAbort_all {adm : Admits TokenOp Err Backend} (hs : Consistent s)
    (tokens : List (String × AuthToken)) :
    wps adm (fun r t ↦ Consistent t ∧ (r = .ok ⟨⟩ → t.tokens = s.tokens ∧
      ∀ e ∈ tokens, ¬ t.broker.Live e.2.mqttUsername))
      (tokens.forM fun token ↦ revokeOrAbort token.2) s := by
  refine wp_forM (I := fun rest t ↦ Consistent t ∧ t.tokens = s.tokens ∧
    ∀ e ∈ tokens, e ∈ rest ∨ ¬ t.broker.Live e.2.mqttUsername) tokens ?_ ?_
    ⟨hs, rfl, fun _ h ↦ .inl h⟩
  · rintro tok rest t ⟨ht, htokens, hgone⟩
    refine (wp_tryCatch _ _ _).mpr (wp_mono (wp_deleteBrokerClient ht tok.2.mqttUsername) ?_)
    rintro (e | _) t' ⟨ht', htokens', -, hlive, hleft⟩
    · exact ⟨ht', fun h ↦ by cases h⟩
    · refine ⟨ht', htokens'.trans htokens, fun e he ↦ ?_⟩
      rcases hgone e he with hin | hnot
      · rcases List.mem_cons.mp hin with rfl | hrest
        · exact .inr fun h ↦ (hleft h).1 rfl
        · exact .inl hrest
      · exact .inr fun h ↦ hnot (hlive _ h)
  · rintro t ⟨ht, htokens, hgone⟩
    exact ⟨ht, fun _ ↦ ⟨htokens, fun e he ↦ (hgone e he).resolve_left (by simp)⟩⟩

theorem wp_deleteTeam {adm : Admits TokenOp Err Backend} (teamId : String)
    (hs : Consistent s) : wps adm (fun _ t ↦ Consistent t) (deleteTeam teamId) s := by
  unfold deleteTeam
  refine wp_await_quiet (by trivial) (fun _ t h ↦ hs.same h) fun found s₁ hfound h₁ ↦ ?_
  have hs₁ := hs.same h₁
  cases found with
  | none => exact hs₁
  | some found =>
      obtain ⟨team, authTokens, devices⟩ := found
      simp only [Backend.serve, Except.ok.injEq, Option.map_eq_some_iff,
        TeamWithCredentials.mk.injEq] at hfound
      obtain ⟨team, hteam, rfl, rfl, rfl⟩ := hfound
      simp only
      split
      · exact hs₁
      refine (wp_bind _ _ _).mpr (wp_mono (wp_revokeOrAbort_all hs₁ _) ?_)
      rintro (e | _) s₂ ⟨hs₂, hgone⟩
      · exact hs₂
      obtain ⟨htokens, hgone⟩ := hgone rfl
      refine (wp_bind _ _ _).mpr (wp_mono (wp_quiet (Only.forM _ fun device _ ↦
        evictRetainedStatus_only (fun _ ↦ trivial) (some device.2)) s₂) ?_)
      rintro (e | _) s₃ h₃
      · exact hs₂.same h₃
      refine wp_await_quiet (by trivial) (fun _ t h ↦ (hs₂.same h₃).same h) fun _ s₄ _ h₄ ↦ ?_
      have hs₄ := (hs₂.same h₃).same h₄
      refine wp_perform_commit rfl (fun _ t h ↦ deleteTeam_consistent hs₄ ?_ h) fun _ ↦ hs₄
      intro k tok htok hteam
      rw [h₄.broker, h₃.broker]
      refine hgone (k, tok) (Table.mem_findMany.mpr ⟨?_, by simpa using hteam⟩)
      rw [← h₁.tokens, ← htokens, ← h₃.tokens, ← h₄.tokens]
      exact htok

end Delete

/-- Every call keeps the invariant, if only tolerated requests fail. -/
theorem wp_call (dig : Digests) (call : LifecycleCall) (hs : Consistent s) :
    wps call.Tolerates (fun _ t ↦ Consistent t) (call.prog dig) s := by
  cases call with
  | create draws userId teamId deviceName label groupId => exact wp_create dig rfl hs
  | consume plaintextToken facts => exact wp_consume dig rfl hs
  | revoke userId teamId tokenId =>
      exact wp_mono (wp_revokeToken hs userId teamId tokenId) fun _ _ h ↦ h.1
  | deleteDevice userId teamId deviceId => exact wp_deleteDevice dig rfl hs
  | deleteTeam teamId => exact wp_deleteTeam teamId hs

end Agreement

open Agreement in
/-- Between calls, every enabled device credential belongs to a CONSUMED token, as long as
only tolerated requests fail. -/
theorem lifecycle_agreement (dig : Digests) {s₀ s : Backend} (h₀ : Consistent s₀)
    (h : Serial tokenServer (LifecycleCall.prog dig) LifecycleCall.Tolerates tick s₀ s)
    {u : String} (hu : s.broker.Live u) :
    ∃ id tok, s.tokens.find? id = some tok ∧ tok.mqttUsername = u ∧ tok.status = .consumed := by
  have hs : Consistent s := by
    refine h.invariant h₀ (fun call s hs ↦ wp_call dig call hs) fun ms s hs ↦ ?_
    exact hs.same ⟨rfl, rfl, rfl⟩
  exact hs.agrees u hu

/-- Issuing and redeeming the example token. -/
def createExample : LifecycleCall := .create exampleDraws "user" "team" "host" none none

def consumeExample : LifecycleCall :=
  .consume (TOKEN_PREFIX ++ b64url exampleDraws.tokenBytes) {}

namespace Agreement

theorem freshBackend_consistent : Consistent freshBackend := by
  refine ⟨⟨.of_nodup (by decide), fun id tok d htok ↦ ?_⟩, fun u hu ↦ ?_⟩
  · contradiction
  · obtain ⟨a, ha, -⟩ := hu
    contradiction

end Agreement

/-- The states after issuing, and after redeeming the example token; the requests of the
first call meet the given fates. -/
def lifecycleExample (fates : List (Fate Err)) : Backend :=
  (Concurrent.run tokenServer fates (createExample.prog plainDigests) freshBackend).2

def redeemedExample : Backend :=
  (Concurrent.run tokenServer [] (consumeExample.prog plainDigests) (lifecycleExample [])).2

/-- When nothing fails, the redeemed token has an enabled account and is CONSUMED. -/
theorem lifecycle_agreement_redeemed :
    Serial tokenServer (LifecycleCall.prog plainDigests) LifecycleCall.Tolerates tick
      freshBackend redeemedExample ∧ redeemedExample.broker.Live "dev-aqid" ∧
      ∃ id tok, redeemedExample.tokens.find? id = some tok ∧
        tok.mqttUsername = "dev-aqid" ∧ tok.status = .consumed := by
  have hcall : ∀ (call : LifecycleCall) (s : Backend),
      Eval tokenServer call.Tolerates (call.prog plainDigests) s
        (Concurrent.run tokenServer [] (call.prog plainDigests) s).1
        (Concurrent.run tokenServer [] (call.prog plainDigests) s).2 := by
    refine fun call s ↦ Eval.of_run fun f hf β op s ↦ ?_
    rw [List.mem_singleton.mp hf]
    trivial
  have hserial : Serial tokenServer (LifecycleCall.prog plainDigests)
      LifecycleCall.Tolerates tick freshBackend redeemedExample :=
    (Serial.start.call createExample (hcall _ _)).call consumeExample (hcall _ _)
  have hlive : redeemedExample.broker.Live "dev-aqid" := by decide
  exact ⟨hserial, hlive,
    lifecycle_agreement plainDigests Agreement.freshBackend_consistent hserial hlive⟩

/-- If disabling the account that was just created fails, it stays enabled although the
token has not been redeemed. -/
theorem lifecycle_disagreement :
    Agreement.Consistent freshBackend ∧
    ∃ s, Serial tokenServer (LifecycleCall.prog plainDigests) (fun _ ↦ anyFate) tick
      freshBackend s ∧ s.broker.Live "dev-aqid" ∧ ¬ Agreement.Consumed s "dev-aqid" := by
  refine ⟨Agreement.freshBackend_consistent, lifecycleExample
    (List.replicate 5 .served ++ [.refused (.error "dynsec request timed out")]), ?_, ?_, ?_⟩
  · exact Serial.start.call createExample (Eval.of_run fun _ _ _ _ _ ↦ trivial)
  · decide
  · decide

end Zenstier
