import Zenstier.Tokens.Redemption

/-!
# Revoking a token while it is redeemed

`revokeToken` deletes the broker account before it writes REVOKED, and a deleted account
cannot be enabled again.  So once REVOKED is written, a redemption that has not enabled
the account yet is bound to fail.  A redemption that has enabled the account, however, has
nothing left to fail on: its transaction writes CONSUMED whatever the status is by then.

What decides is therefore which calls are between their `enableClient` and their
CONSUMED transaction at the moment REVOKED is written.  `revokeToken_final` says that if
there is none, REVOKED stays, and no call in progress returns credentials.
-/

namespace Zenstier

open Store Concurrent Prog

/-- A call that concerns one token. -/
inductive CredentialCall
  | consume (facts : HostFacts)
  | revoke (userId teamId : String)
deriving DecidableEq, Repr

/-- What a call returns: credentials, if it is a redemption. -/
def CredentialCall.prog (dig : Digests) (plaintextToken tokenId : String) :
    CredentialCall → TokenM (Option EnrollmentResult)
  | .consume facts => do
      let result ← consumeEnrollmentToken dig plaintextToken facts
      return some result
  | .revoke userId teamId => do
      revokeToken userId teamId tokenId
      return none

namespace Revocation

/-- Residuals of a call. -/
abbrev Residual := TokenM (Option EnrollmentResult)

/-! ## The requests that matter -/

def Enables : ∀ β : Type, TokenOp β → Prop
  | _, .dynsecSend [.enableClient _] => True
  | _, _ => False

def DeletesClient : ∀ β : Type, TokenOp β → Prop
  | _, .dynsecSend [.deleteClient _] => True
  | _, _ => False

def WritesConsumed : ∀ β : Type, TokenOp β → Prop
  | _, .markConsumed .. => True
  | _, _ => False

def WritesRevoked : ∀ β : Type, TokenOp β → Prop
  | _, .markRevoked .. => True
  | _, _ => False

/-- The call looks the token up or enables the account: a point at which a revoked token
still stops it. -/
def Rechecks : ∀ β : Type, TokenOp β → Prop
  | _, .findTokenByHash _ => True
  | _, op => Enables _ op

/-- The call is about to write CONSUMED, or has returned credentials. -/
def Succeeding (p : Residual) : Prop :=
  AtRequest WritesConsumed p ∨ Returned (·.isSome) p

/-- The call has enabled the account and its CONSUMED transaction is still to come: no
check is left before it. -/
def Enabled (p : Residual) : Prop := Ahead Rechecks (AtRequest WritesConsumed) p

/-- The call can succeed without another check. -/
def Unchecked (p : Residual) : Prop := Ahead Rechecks Succeeding p

/-- The call has seen the account deleted and REVOKED is still to be written. -/
def Revoking (p : Residual) : Prop := Ahead DeletesClient (AtRequest WritesRevoked) p

@[simp] theorem not_unchecked_throw (e : Err) : ¬ Unchecked (.throw e) := by
  simp [Unchecked, Succeeding]

@[simp] theorem not_revoking_throw (e : Err) : ¬ Revoking (.throw e) := id

instance {β : Type} (op : TokenOp β) : Decidable (WritesRevoked β op) := by
  apply TokenOp.casesOn (motive := fun β op ↦ Decidable (WritesRevoked β op)) op <;> intros <;>
    first | exact .isTrue trivial | exact .isFalse id

instance (cs : List DynsecCommand) : Decidable (Enables _ (.dynsecSend cs)) :=
  match cs with
  | [.enableClient _] => .isTrue trivial
  | [] | [.createClient ..] | [.disableClient _] | [.deleteClient _] => .isFalse id
  | .enableClient _ :: _ :: _ | .createClient .. :: _ :: _ => .isFalse id
  | .disableClient _ :: _ :: _ | .deleteClient _ :: _ :: _ => .isFalse id

instance {β : Type} (op : TokenOp β) : Decidable (Enables β op) := by
  apply TokenOp.casesOn (motive := fun β op ↦ Decidable (Enables β op)) op <;> intros <;>
    first | infer_instance | exact .isFalse id

instance {β : Type} (op : TokenOp β) : Decidable (Rechecks β op) := by
  apply TokenOp.casesOn (motive := fun β op ↦ Decidable (Rechecks β op)) op <;> intros <;>
    first
    | exact .isTrue trivial
    | exact .isFalse id
    | exact inferInstanceAs (Decidable (Enables ..))

/-! ## What the calls do -/

/-- Lookups find the row `tid`, whose account is `u`. -/
def Finds (h tid u : String) : ∀ β : Type, TokenOp β → Except Err β → Prop
  | _, .findTokenByHash h', .ok (some t) => h' = h → t.id = tid ∧ t.token.mqttUsername = u
  | _, .findToken id _, .ok (some t) => id = tid → t.id = tid ∧ t.token.mqttUsername = u
  | _, _, _ => True

/-- Requests that touch neither the token nor its account. -/
def Harmless : ∀ β : Type, TokenOp β → Prop
  | _, .now | _, .redisGet _ | _, .redisDel _ | _, .clearRetainedStatus _ => True
  | _, _ => False

/-- The discipline of the calls on the token `tid` with the hash `h` and the account `u`:
a failed check ends a redemption, a failed deletion ends a revocation, and nothing but the
CONSUMED transaction leads to success. -/
def Disciplined (h tid u : String) :
    ∀ β : Type, TokenOp β → (Except Err β → Residual) → Prop
  | _, .findTokenByHash h', k => h' = h ∧
      ∀ r, (∀ t, r = .ok (some t) → t.token.status = .revoked) → ¬ Unchecked (k r)
  | _, .findToken id _, _ => id = tid
  | _, .dynsecSend cs, k =>
      (cs = [.enableClient u] ∧ (∀ e, ¬ Unchecked (k (.error e))) ∧
        ¬ Unchecked (k (.ok [{ command := "enableClient", error := "Client not found" }]))) ∨
      (cs = [.deleteClient u] ∧ ∀ e, ¬ Revoking (k (.error e)))
  | _, .markConsumed id .., _ => id = tid
  | _, .markRevoked id .., k => id = tid ∧ ∀ r, ¬ Unchecked (k r)
  | _, op, _ => Harmless _ op

variable {h tid u : String}

theorem Harmless.disciplined {β : Type} {op : TokenOp β} {k : Except Err β → Residual}
    (hop : Harmless β op) : Disciplined h tid u β op k := by
  cases op <;> first | exact hop.elim | trivial

theorem Harmless.not_succeeding {β : Type} {op : TokenOp β} {k : Except Err β → Residual}
    (hop : Harmless β op) : ¬ Succeeding (.call op k) := by
  rintro (hw | hr)
  · cases op <;> first | exact hop | exact hw
  · exact hr

/-- Every redemption of the token keeps to the discipline. -/
theorem consume_disciplined (dig : Digests) (plaintextToken : String) (facts : HostFacts) :
    Always (Finds (dig.sha256 plaintextToken) tid u)
      (Disciplined (dig.sha256 plaintextToken) tid u)
      ((CredentialCall.consume facts).prog dig plaintextToken tid) := by
  rw [CredentialCall.prog, consumeEnrollmentToken, bind_assoc, perform_bind, always_call]
  constructor
  · refine ⟨rfl, ?_⟩
    rintro (e | _ | ⟨id, token, _ | ⟨d, device⟩⟩) hrevoked
    · exact not_unchecked_throw _
    · exact not_unchecked_throw _
    · exact not_unchecked_throw _
    · have hstatus : token.status = .revoked := hrevoked _ rfl
      simp only [ofExcept_ok, Prog.pure_bind, checkRedeemable, hstatus, if_true]
      exact not_unchecked_throw _
  rintro (e | _ | ⟨id, token, _ | ⟨d, device⟩⟩) hfound
  · trivial
  · trivial
  · trivial
  obtain ⟨rfl, rfl⟩ : id = tid ∧ token.mqttUsername = u := hfound rfl
  simp only [ofExcept_ok, Prog.pure_bind, Prog.bind_assoc]
  have hcheck : Only Harmless (checkRedeemable token) := checkRedeemable_only trivial token
  have htake : Only Harmless (takePendingSecret id) := takePendingSecret_only id trivial trivial
  refine Always.bind hcheck (fun _ _ _ h ↦ h.disciplined) fun _ ↦ ?_
  refine Always.bind htake (fun _ _ _ h ↦ h.disciplined) fun value ↦ ?_
  unfold enrollWith
  cases truthy value with
  | none => trivial
  | some password =>
      simp only [enroll, Prog.bind_assoc]
      rw [perform_bind, always_call]
      constructor
      · refine .inl ⟨rfl, fun e ↦ not_unchecked_throw e, ?_⟩
        obtain ⟨e, he⟩ := assertDynsecOk_notFound "enableClient"
        simp only [ofExcept_ok, Prog.pure_bind, he]
        exact not_unchecked_throw e
      rintro (e | responses) -
      · trivial
      simp only [ofExcept_ok, Prog.pure_bind]
      cases assertDynsecOk responses with
      | error e => trivial
      | ok _ =>
          simp only [ofExcept_ok, Prog.pure_bind, perform_bind]
          refine ⟨trivial, ?_⟩
          rintro (e | consumedAt) -
          · trivial
          refine ⟨trivial, ?_⟩
          rintro (e | lastUsedAt) -
          · trivial
          refine ⟨rfl, ?_⟩
          rintro (e | _) - <;> trivial

/-- So does every revocation. -/
theorem revoke_disciplined (dig : Digests) (plaintextToken userId teamId : String) :
    Always (Finds h tid u) (Disciplined h tid u)
      ((CredentialCall.revoke userId teamId).prog dig plaintextToken tid) := by
  rw [CredentialCall.prog, revokeToken, bind_assoc, perform_bind, always_call]
  refine ⟨rfl, ?_⟩
  rintro (e | _ | found) hfound
  · trivial
  · trivial
  obtain ⟨rfl, rfl⟩ := hfound rfl
  simp only [ofExcept_ok, Prog.pure_bind, revokeFound, deleteBrokerClient, Prog.bind_assoc]
  rw [perform_bind, always_call]
  refine ⟨.inr ⟨rfl, fun e ↦ not_revoking_throw e⟩, ?_⟩
  rintro (e | responses) -
  · trivial
  simp only [ofExcept_ok, Prog.pure_bind]
  cases assertDynsecOk responses ["not found"] with
  | error e => trivial
  | ok _ =>
      simp only [ofExcept_ok, Prog.pure_bind, perform_bind]
      refine ⟨trivial, ?_⟩
      rintro (e | revokedAt) -
      · trivial
      have hevict : Only Harmless (evictRetainedStatus (found.device.map (·.2))) :=
        evictRetainedStatus_only (fun _ ↦ trivial) _
      have htake : Only Harmless (takePendingSecret found.id) :=
        takePendingSecret_only _ trivial trivial
      refine ⟨⟨rfl, ?_⟩, ?_⟩
      · rintro (e | _)
        · exact not_unchecked_throw e
        simp only [ofExcept_ok, Prog.pure_bind]
        refine not_ahead_bind hevict (fun _ _ _ h ↦ h.not_succeeding) not_unchecked_throw
          fun _ ↦ ?_
        refine not_ahead_bind htake (fun _ _ _ h ↦ h.not_succeeding) not_unchecked_throw
          fun _ ↦ ?_
        simp [Succeeding]
      · rintro (e | _) -
        · trivial
        simp only [ofExcept_ok, Prog.pure_bind]
        refine Always.bind hevict (fun _ _ _ h ↦ h.disciplined) fun _ ↦ ?_
        exact Always.bind htake (fun _ _ _ h ↦ h.disciplined) fun _ ↦ trivial

theorem prog_disciplined (dig : Digests) (plaintextToken : String) (call : CredentialCall) :
    Always (Finds (dig.sha256 plaintextToken) tid u)
      (Disciplined (dig.sha256 plaintextToken) tid u)
      (call.prog dig plaintextToken tid) := by
  cases call with
  | consume facts => exact consume_disciplined dig plaintextToken facts
  | revoke userId teamId => exact revoke_disciplined dig plaintextToken userId teamId

/-- Enrolling returns right after the CONSUMED transaction. -/
theorem enroll_lands (facts : HostFacts) (tokenId : String) (token : AuthToken)
    (d : String) (device : Device) (password : String) :
    Lands (AtRequest WritesConsumed) (·.isSome)
      (enroll facts tokenId token d device password >>= fun r ↦ (.pure (some r) : Residual)) := by
  simp only [enroll, Prog.bind_assoc]
  refine Lands.bind (fun _ ↦ not_returned_bind _ fun _ ↦ id) fun enabled ↦ ?_
  refine Lands.bind (fun _ ↦ id) fun _ ↦ ?_
  refine Lands.bind (fun _ ↦ id) fun consumedAt ↦ ?_
  refine Lands.bind (fun _ ↦ id) fun lastUsedAt ↦ ?_
  refine ⟨.inl trivial, fun r _ ↦ ?_⟩
  cases r <;> trivial

/-- Only the CONSUMED transaction is followed by a successful return. -/
theorem prog_lands (dig : Digests) (plaintextToken : String) (call : CredentialCall) :
    Lands (AtRequest WritesConsumed) (·.isSome) (call.prog dig plaintextToken tid) := by
  cases call with
  | revoke userId teamId => exact Lands.bind (fun _ ↦ by simp) fun _ ↦ trivial
  | consume facts =>
      rw [CredentialCall.prog, consumeEnrollmentToken, Prog.bind_assoc, perform_bind]
      refine ⟨.inr fun r ↦ ?_, fun r _ ↦ ?_⟩
      · rcases r with e | _ | ⟨tokenId, token, _ | ⟨d, device⟩⟩
        · exact id
        · exact id
        · exact id
        simp only [ofExcept_ok, Prog.pure_bind, Prog.bind_assoc]
        refine not_returned_bind _ fun _ ↦ ?_
        rw [takePendingSecret_bind]
        exact id
      · rcases r with e | _ | ⟨tokenId, token, _ | ⟨d, device⟩⟩
        · trivial
        · trivial
        · trivial
        simp only [ofExcept_ok, Prog.pure_bind, Prog.bind_assoc]
        refine Lands.bind (fun _ ↦ ?_) fun _ ↦ Lands.bind (fun value ↦ ?_) fun value ↦ ?_
        · rw [takePendingSecret_bind]
          exact id
        · unfold enrollWith
          cases truthy value <;> exact id
        · unfold enrollWith
          cases truthy value with
          | none => trivial
          | some password => exact enroll_lands ..

/-- A call that has not started has no account deleted. -/
theorem prog_not_revoking (dig : Digests) (plaintextToken : String) (call : CredentialCall) :
    ¬ Revoking (call.prog dig plaintextToken tid) := by
  cases call with
  | consume facts =>
      refine not_ahead_bind (consumeEnrollmentToken_only dig plaintextToken facts)
        (fun β op k hop hw ↦ ?_) (fun _ ↦ id) fun _ ↦ id
      cases op <;> first | exact hop | exact hw
  | revoke userId teamId =>
      rw [CredentialCall.prog, revokeToken, Prog.bind_assoc, perform_bind, Revoking, ahead_call]
      rintro (hw | ⟨-, r, hr⟩)
      · exact hw
      rcases r with e | _ | found
      · exact hr
      · exact hr
      simp only [ofExcept_ok, Prog.pure_bind, revokeFound, deleteBrokerClient,
        Prog.bind_assoc] at hr
      rw [perform_bind, ahead_call] at hr
      exact hr.elim id fun h ↦ h.1 trivial

/-! ## The token and its account -/

/-- The row `tid` is the one with the hash `h`, and its account is `u`. -/
structure Knows (h tid u : String) (s : Backend) : Prop where
  identifies : Redemption.Identifies s h tid
  account : ∃ row, s.tokens.find? tid = some row ∧ row.mqttUsername = u

/-- The status of a token. -/
def status (s : Backend) (tid : String) : Option TokenStatus :=
  (s.tokens.find? tid).map (·.status)

section Steps

variable {s : Backend} {β : Type} {op : TokenOp β} {k : Except Err β → Residual}

/-- Lookups find the row and its account. -/
theorem serve_finds (hs : Knows h tid u s) (op : TokenOp β) :
    Finds h tid u β op (tokenServer.serve op s).1 := by
  obtain ⟨row, hrow, hu⟩ := hs.account
  have hfound : ∀ {id tok}, s.tokens.find? id = some tok → id = tid →
      id = tid ∧ tok.mqttUsername = u := by
    rintro id tok htok rfl
    rw [hrow] at htok
    cases htok
    exact ⟨rfl, hu⟩
  cases op with
  | findTokenByHash h' =>
      simp only [tokenServer_serve, Backend.serve]
      cases hf : s.tokens.findFirst fun _ t ↦ t.tokenHash = h' with
      | none => trivial
      | some e =>
          obtain ⟨id, tok⟩ := e
          obtain ⟨htok, hh⟩ := Table.findFirst_eq_some hf
          rintro rfl
          exact hfound htok (hs.identifies htok (by simpa using hh))
  | findToken id teamId =>
      simp only [tokenServer_serve, Backend.serve]
      cases hf : s.tokens.findFirst fun k t ↦ k = id ∧ t.teamId = teamId with
      | none => trivial
      | some e =>
          obtain ⟨id', tok⟩ := e
          obtain ⟨htok, hh⟩ := Table.findFirst_eq_some hf
          rintro rfl
          exact hfound htok (by simpa using (of_decide_eq_true hh).1)
  | _ => trivial

/-- A status update of the row keeps what is known of it. -/
theorem Knows.of_update {s' : Backend} {id : String} {f : AuthToken → AuthToken}
    (hs : Knows h tid u s) (hf : s'.tokens = s.tokens.update id f)
    (hhash : ∀ t, (f t).tokenHash = t.tokenHash)
    (huser : ∀ t, (f t).mqttUsername = t.mqttUsername) : Knows h tid u s' := by
  constructor
  · intro id' tok htok hh
    rw [hf] at htok
    rcases Table.find?_update_eq_some htok with ⟨old, -, hold, rfl⟩ | ⟨-, htok⟩
    · exact hs.identifies hold (by rw [← hh, hhash])
    · exact hs.identifies htok hh
  · obtain ⟨row, hrow, hu⟩ := hs.account
    rw [hf, Table.find?_update, hrow]
    split
    · exact ⟨f row, rfl, by rw [huser, hu]⟩
    · exact ⟨row, rfl, hu⟩

theorem knows_after (hop : Disciplined h tid u β op k) (hs : Knows h tid u s) (f : Fate Err) :
    Knows h tid u (tokenServer.after f op s) := by
  refine Server.after_of (Knows h tid u) hs ?_ f
  cases op with
  | now => exact hs
  | findTokenByHash => exact hs
  | findToken => exact hs
  | dynsecSend => exact ⟨hs.identifies, hs.account⟩
  | redisGet => exact hs
  | redisDel => exact ⟨hs.identifies, hs.account⟩
  | clearRetainedStatus => exact hs
  | markConsumed t d facts c l audit =>
      rcases s.commit_cases (s.markConsumed t d facts c l audit) with he | ⟨s', hok, he⟩
      · simpa only [tokenServer_serve, Backend.serve, he] using hs
      simp only [tokenServer_serve, Backend.serve, he]
      exact hs.of_update (Backend.markConsumed_eq_ok hok).1 (fun _ ↦ rfl) fun _ ↦ rfl
  | markRevoked t d r audit =>
      rcases s.commit_cases (s.markRevoked t d r audit) with he | ⟨s', hok, he⟩
      · simpa only [tokenServer_serve, Backend.serve, he] using hs
      simp only [tokenServer_serve, Backend.serve, he]
      exact hs.of_update (Backend.markRevoked_eq_ok hok).1 (fun _ ↦ rfl) fun _ ↦ rfl
  | _ => exact hop.elim

/-- A deleted account stays deleted. -/
theorem gone_after (hop : Disciplined h tid u β op k) (hs : ¬ s.broker.Has u) (f : Fate Err) :
    ¬ (tokenServer.after f op s).broker.Has u := by
  refine Server.after_of (fun t : Backend ↦ ¬ t.broker.Has u) hs ?_ f
  cases op with
  | now => exact hs
  | findTokenByHash => exact hs
  | findToken => exact hs
  | dynsecSend cs =>
      rcases hop with ⟨rfl, -⟩ | ⟨rfl, -⟩
      · exact fun hu ↦ hs (Broker.has_enableClient.mp hu)
      · exact fun hu ↦ (Broker.has_deleteClient hu).2 rfl
  | redisGet => exact hs
  | redisDel => exact hs
  | clearRetainedStatus => exact hs
  | markConsumed t d facts c l audit =>
      rcases s.commit_cases (s.markConsumed t d facts c l audit) with he | ⟨s', hok, he⟩
      · simpa only [tokenServer_serve, Backend.serve, he] using hs
      simpa only [tokenServer_serve, Backend.serve, he,
        (Backend.markConsumed_eq_ok hok).2.2.2.1] using hs
  | markRevoked t d r audit =>
      rcases s.commit_cases (s.markRevoked t d r audit) with he | ⟨s', hok, he⟩
      · simpa only [tokenServer_serve, Backend.serve, he] using hs
      simpa only [tokenServer_serve, Backend.serve, he,
        (Backend.markRevoked_eq_ok hok).2.2.2.1] using hs
  | _ => exact hop.elim

/-- Only the CONSUMED transaction takes a token out of REVOKED. -/
theorem revoked_after (hop : Disciplined h tid u β op k) (hw : ¬ WritesConsumed β op)
    (hs : status s tid = some .revoked) (f : Fate Err) :
    status (tokenServer.after f op s) tid = some .revoked := by
  refine Server.after_of (status · tid = some .revoked) hs ?_ f
  cases op with
  | now => exact hs
  | findTokenByHash => exact hs
  | findToken => exact hs
  | dynsecSend => exact hs
  | redisGet => exact hs
  | redisDel => exact hs
  | clearRetainedStatus => exact hs
  | markConsumed => exact absurd trivial hw
  | markRevoked t d r audit =>
      rcases s.commit_cases (s.markRevoked t d r audit) with he | ⟨s', hok, he⟩
      · simpa only [tokenServer_serve, Backend.serve, he] using hs
      simp only [tokenServer_serve, Backend.serve, he, status,
        (Backend.markRevoked_eq_ok hok).1, Table.find?_update]
      obtain ⟨row, hrow, -⟩ := Option.map_eq_some_iff.mp hs
      rw [hrow, if_pos hop.1.symm]
      rfl
  | _ => exact hop.elim

end Steps

/-! ## Up to the REVOKED transaction -/

section Run

variable {ι : Type} [DecidableEq ι] {c c₁ d : Pool ι TokenOp Err (Option EnrollmentResult) Backend}
  {i : ι} {f : Fate Err}

/-- Who has seen the account deleted can rely on it. -/
structure Inv (h tid u : String) (c : Pool ι TokenOp Err (Option EnrollmentResult) Backend) :
    Prop where
  knows : Knows h tid u c.shared
  disciplined : ∀ i, Always (Finds h tid u) (Disciplined h tid u) (c.thread i)
  lands : ∀ i, Lands (AtRequest WritesConsumed) (·.isSome) (c.thread i)
  gone : ∀ i, Revoking (c.thread i) → ¬ c.shared.broker.Has u

omit [DecidableEq ι] in
theorem finds_contract (hs : Knows h tid u c.shared) {β : Type} (op : TokenOp β) (f : Fate Err) :
    Finds h tid u β op (tokenServer.reply f op c.shared) :=
  Pool.reply_contract (A := Finds h tid u) (serve_finds hs)
    (fun op e ↦ by cases op <;> trivial) f op

omit [DecidableEq ι] in
/-- A call that has just seen the account deleted, or that has before. -/
theorem Inv.gone_run (hc : Inv h tid u c) {β : Type} {op : TokenOp β}
    {k : Except Err β → Residual} (hi : c.thread i = .call op k)
    (hr : Revoking (k (tokenServer.reply f op c.shared))) :
    ¬ (tokenServer.after f op c.shared).broker.Has u := by
  have hd := hc.disciplined i
  rw [hi, always_call] at hd
  by_cases hdel : DeletesClient β op
  · cases op with
    | dynsecSend cs =>
        rcases hd.1 with ⟨rfl, -⟩ | ⟨rfl, herr⟩
        · exact hdel.elim
        cases hreply : tokenServer.reply f (.dynsecSend [.deleteClient u]) c.shared with
        | error e => exact absurd (hreply ▸ hr) (herr e)
        | ok responses =>
            obtain ⟨rfl, -⟩ := Server.served_of_reply_ok hreply
            exact fun hu ↦ (Broker.has_deleteClient hu).2 rfl
    | _ => exact hdel.elim
  · have hbefore : Revoking (c.thread i) := by
      rw [hi]
      exact Ahead.of_reply hdel hr
    exact gone_after hd.1 (hc.gone i hbefore) f

theorem Inv.step (hc : Inv h tid u c) {l : Event ι Err Nat}
    (hs : Pool.step tokenServer tick c l = some d) : Inv h tid u d := by
  cases l with
  | env ms =>
      obtain rfl := Pool.step_env hs
      exact ⟨⟨hc.knows.identifies, hc.knows.account⟩, hc.disciplined, hc.lands, hc.gone⟩
  | run i f =>
      obtain ⟨β, op, k, hi, rfl⟩ := Pool.step_run hs
      have hd := hc.disciplined i
      rw [hi, always_call] at hd
      have hl := hc.lands i
      rw [hi] at hl
      refine ⟨knows_after hd.1 hc.knows f,
        Pool.forall_resume hc.disciplined i f op k (hd.2 _ (finds_contract hc.knows op f)),
        Pool.forall_resume hc.lands i f op k (hl.2 _ trivial), fun j hj ↦ ?_⟩
      by_cases hji : j = i
      · subst hji
        rw [Pool.resume_thread_self] at hj
        exact hc.gone_run hi hj
      · rw [Pool.resume_thread_of_ne c hji] at hj
        exact gone_after hd.1 (hc.gone j hj) f

/-- The invariant holds in every run of calls on one token. -/
theorem Inv.of_reach (dig : Digests) (plaintextToken tokenId : String)
    (call : ι → CredentialCall) {s₀ : Backend} (hu : s₀.tokens.UniqueOn (·.tokenHash))
    {row : AuthToken} (hrow : s₀.tokens.find? tokenId = some row)
    (hhash : row.tokenHash = dig.sha256 plaintextToken)
    (h₀ : Reach (Pool.step tokenServer tick) (fun _ _ ↦ True)
      ⟨s₀, fun i ↦ (call i).prog dig plaintextToken tokenId⟩ c) :
    Inv (dig.sha256 plaintextToken) tokenId row.mqttUsername c := by
  refine h₀.invariant ?_ fun s l t hs _ hst ↦ hs.step hst
  refine ⟨⟨fun id tok htok hh ↦ hu htok hrow (hh.trans hhash.symm), row, hrow, rfl⟩,
    fun i ↦ prog_disciplined dig plaintextToken (call i),
    fun i ↦ prog_lands dig plaintextToken (call i), fun i hi ↦ ?_⟩
  exact absurd hi (prog_not_revoking dig plaintextToken (call i))

/-- A call that is about to check the token has nothing enabled. -/
theorem not_enabled_of_rechecks {p : Residual} (h : AtRequest Rechecks p) : ¬ Enabled p := by
  cases p with
  | pure a => exact h.elim
  | throw e => exact h.elim
  | call op k =>
      rintro (hw | ⟨hop, -⟩)
      · cases op <;> first | exact h | exact hw
      · exact hop h

omit [DecidableEq ι] in
/-- Neither has a call that is about to write REVOKED. -/
theorem Inv.not_enabled (hc : Inv h tid u c) (hat : AtRequest WritesRevoked (c.thread i)) :
    ¬ Enabled (c.thread i) := by
  have hd := hc.disciplined i
  cases hi : c.thread i with
  | pure a => exact id
  | throw e => exact id
  | call op k =>
      rw [hi] at hd hat
      rintro (hw | ⟨-, r, hr⟩)
      · cases op <;> first | exact hat | exact hw
      · cases op with
        | markRevoked => exact hd.1.2 r (hr.mono (fun _ _ h ↦ h) fun _ h ↦ .inl h)
        | _ => exact hat

/-! ## After the REVOKED transaction -/

/-- From the state `c₁` on the token is REVOKED, its account is gone, and a call that had
not returned there needs another check to succeed. -/
structure Final (h tid u : String)
    (c₁ c : Pool ι TokenOp Err (Option EnrollmentResult) Backend) : Prop where
  knows : Knows h tid u c.shared
  disciplined : ∀ i, Always (Finds h tid u) (Disciplined h tid u) (c.thread i)
  revoked : status c.shared tid = some .revoked
  gone : ¬ c.shared.broker.Has u
  blocked : ∀ j, (Returned (fun _ ↦ True) (c₁.thread j) ∧ c.thread j = c₁.thread j) ∨
    ¬ Unchecked (c.thread j)

omit [DecidableEq ι] in
/-- Every check that a call still makes fails. -/
theorem Final.blocked_run (hc : Final h tid u c₁ c) {β : Type} {op : TokenOp β}
    {k : Except Err β → Residual} (hi : c.thread i = .call op k)
    (hb : ¬ Unchecked (c.thread i)) :
    ¬ Unchecked (k (tokenServer.reply f op c.shared)) := by
  have hd := hc.disciplined i
  rw [hi, always_call] at hd
  by_cases hre : Rechecks β op
  · cases op with
    | findTokenByHash h' =>
        refine hd.1.2 _ fun t ht ↦ ?_
        obtain ⟨-, hserve⟩ := Server.served_of_reply_ok ht
        obtain ⟨hid, -⟩ : t.id = tid ∧ _ := by
          have hfound := finds_contract hc.knows (.findTokenByHash h') f
          rw [ht] at hfound
          exact hfound hd.1.1
        simp only [tokenServer_serve, Backend.serve, Except.ok.injEq,
          Option.map_eq_some_iff] at hserve
        obtain ⟨⟨id, tok⟩, hfirst, rfl⟩ := hserve
        have hrevoked := hc.revoked
        rw [status, ← hid, (Table.findFirst_eq_some hfirst).1] at hrevoked
        exact Option.some.inj hrevoked
    | dynsecSend cs =>
        rcases hd.1 with ⟨rfl, herr, hmissing⟩ | ⟨rfl, -⟩
        · cases hreply : tokenServer.reply f (.dynsecSend [.enableClient u]) c.shared with
          | error e => exact herr e
          | ok responses =>
              obtain ⟨-, hserve⟩ := Server.served_of_reply_ok hreply
              simp only [tokenServer_serve, Backend.serve, Broker.send_singleton,
                Broker.apply, Broker.modify_of_not_has hc.gone, Except.ok.injEq] at hserve
              rw [← hserve]
              exact hmissing
        · exact hre.elim
    | _ => exact hre.elim
  · rw [hi] at hb
    exact fun h ↦ hb (Ahead.of_reply hre h)

theorem Final.step (hc : Final h tid u c₁ c) {l : Event ι Err Nat}
    (hs : Pool.step tokenServer tick c l = some d) : Final h tid u c₁ d := by
  cases l with
  | env ms =>
      obtain rfl := Pool.step_env hs
      exact ⟨⟨hc.knows.identifies, hc.knows.account⟩, hc.disciplined, hc.revoked, hc.gone,
        hc.blocked⟩
  | run i f =>
      obtain ⟨β, op, k, hi, rfl⟩ := Pool.step_run hs
      have hd := hc.disciplined i
      rw [hi, always_call] at hd
      have hb : ¬ Unchecked (c.thread i) := by
        rcases hc.blocked i with ⟨hret, hsame⟩ | hb
        · rw [← hsame, hi] at hret
          exact hret.elim
        · exact hb
      have hw : ¬ WritesConsumed β op := by
        intro hw
        rw [hi] at hb
        exact hb (Ahead.of_self (.inl hw))
      refine ⟨knows_after hd.1 hc.knows f,
        Pool.forall_resume hc.disciplined i f op k (hd.2 _ (finds_contract hc.knows op f)),
        revoked_after hd.1 hw hc.revoked f, gone_after hd.1 hc.gone f, fun j ↦ ?_⟩
      by_cases hji : j = i
      · subst hji
        rw [Pool.resume_thread_self]
        exact .inr (hc.blocked_run hi hb)
      · rw [Pool.resume_thread_of_ne c hji]
        exact hc.blocked j

/-- The REVOKED transaction ends all chances, if no call has the account enabled. -/
theorem Inv.final (hc : Inv h tid u c) (hat : AtRequest WritesRevoked (c.thread i))
    (hcond : ∀ j, ¬ Enabled (c.thread j))
    (hs : Pool.step tokenServer tick c (.run i f) = some c₁)
    (hrev : status c₁.shared tid = some .revoked) : Final h tid u c₁ c₁ := by
  have hc₁ := hc.step hs
  have hgone : ¬ c.shared.broker.Has u := hc.gone i (Ahead.of_self hat)
  obtain ⟨β, op, k, hi, rfl⟩ := Pool.step_run hs
  have hd := hc.disciplined i
  rw [hi, always_call] at hd
  refine ⟨hc₁.knows, hc₁.disciplined, hrev, gone_after hd.1 hgone f, fun j ↦ ?_⟩
  by_cases hji : j = i
  · subst hji
    rw [hi] at hat
    rw [Pool.resume_thread_self]
    cases op with
    | markRevoked => exact .inr (hd.1.2 _)
    | _ => exact hat.elim
  · rw [Pool.resume_thread_of_ne c hji]
    by_cases hret : Returned (fun _ ↦ True) (c.thread j)
    · exact .inl ⟨hret, rfl⟩
    · refine .inr fun hun ↦ ?_
      -- a call in progress that needs no check has the account enabled
      rcases hun.or with hw | hr
      · exact hcond j hw
      · refine hcond j (hr.of_lands (hc.lands j) fun hsome ↦ hret ?_)
        cases hj : c.thread j with
        | pure a => trivial
        | _ => simp [hj] at hsome

end Run

end Revocation

open Revocation in
/-- Once REVOKED is written while no redemption has the account enabled with its CONSUMED
transaction still to come, the token stays REVOKED and no call that is then in progress, or
starts later, returns credentials. -/
theorem revokeToken_final {ι : Type} [DecidableEq ι] (dig : Digests)
    (plaintextToken tokenId : String) (call : ι → CredentialCall) (s₀ : Backend)
    (hu : s₀.tokens.UniqueOn (·.tokenHash)) {row : AuthToken}
    (hrow : s₀.tokens.find? tokenId = some row)
    (hhash : row.tokenHash = dig.sha256 plaintextToken)
    {c₀ c₁ c₂ : Pool ι TokenOp Err (Option EnrollmentResult) Backend}
    (h₀ : Reach (Pool.step tokenServer tick) (fun _ _ ↦ True)
      ⟨s₀, fun i ↦ (call i).prog dig plaintextToken tokenId⟩ c₀)
    {i : ι} {f : Fate Err} (hat : AtRequest WritesRevoked (c₀.thread i))
    (hcond : ∀ j, ¬ Enabled (c₀.thread j))
    (hstep : Pool.step tokenServer tick c₀ (.run i f) = some c₁)
    (hrev : status c₁.shared tokenId = some .revoked)
    (h₁ : Reach (Pool.step tokenServer tick) (fun _ _ ↦ True) c₁ c₂) :
    status c₂.shared tokenId = some .revoked ∧
      ∀ j, ¬ Returned (fun _ ↦ True) (c₁.thread j) → ¬ Returned (·.isSome) (c₂.thread j) := by
  have hinv := Inv.of_reach dig plaintextToken tokenId call hu hrow hhash h₀
  have hfinal := h₁.invariant (hinv.final hat hcond hstep hrev) fun s l t hs _ hst ↦ hs.step hst
  refine ⟨hfinal.revoked, fun j hj hsome ↦ ?_⟩
  rcases hfinal.blocked j with ⟨hret, -⟩ | hb
  · exact hj hret
  · exact hb (Ahead.of_self (.inr hsome))

/-- A redemption and a revocation of the example token. -/
def exampleCalls : Bool → CredentialCall
  | false => .consume {}
  | true => .revoke "user" "team"

/-- Both calls, before either has started. -/
def exampleRace : Pool Bool TokenOp Err (Option EnrollmentResult) Backend :=
  ⟨issuedBackend, fun i ↦ (exampleCalls i).prog plainDigests
    (TOKEN_PREFIX ++ b64url exampleDraws.tokenBytes) "token"⟩

open Revocation in
/-- A redemption that starts once REVOKED is written fails. -/
theorem revokeToken_final_before_redemption :
    ∃ c₁ c₂, Reach (Pool.step tokenServer tick) (fun _ _ ↦ True) exampleRace c₁ ∧
      Reach (Pool.step tokenServer tick) (fun _ _ ↦ True) c₁ c₂ ∧
      AtRequest Rechecks (c₁.thread false) ∧ ¬ AtRequest Rechecks (c₂.thread false) ∧
      status c₂.shared "token" = some .revoked ∧
      ¬ Returned (·.isSome) (c₂.thread false) := by
  have hrun : ∃ c₀, Reach (Pool.step tokenServer tick) (fun _ _ ↦ True) exampleRace c₀ ∧
      (AtRequest WritesRevoked (c₀.thread true) ∧ AtRequest Rechecks (c₀.thread false) ∧
        (Pool.step tokenServer tick c₀ (.run true .served)).any fun c₁ ↦
          decide (status c₁.shared "token" = some .revoked) &&
          decide (AtRequest Rechecks (c₁.thread false)) &&
          (Pool.step tokenServer tick c₁ (.run false .served)).any fun c₂ ↦
            decide (¬ AtRequest Rechecks (c₂.thread false))) :=
    Reach.exists_of_exec [.run true .served, .run true .served, .run true .served] (by decide)
  obtain ⟨c₀, h₀, hat, hfresh, hnext⟩ := hrun
  rw [Option.any_eq_true] at hnext
  obtain ⟨c₁, hstep, hnext⟩ := hnext
  simp only [Bool.and_eq_true, decide_eq_true_eq, Option.any_eq_true] at hnext
  obtain ⟨⟨hrev, hfresh₁⟩, c₂, hlast, hdone⟩ := hnext
  have h₁ : Reach (Pool.step tokenServer tick) (fun _ _ ↦ True) c₁ c₂ :=
    Reach.start.next _ trivial hlast
  have hu : issuedBackend.tokens.UniqueOn (·.tokenHash) := .of_nodup (by decide)
  have hinv := Inv.of_reach plainDigests _ "token" exampleCalls hu rfl (by decide) h₀
  have hcond : ∀ j, ¬ Enabled (c₀.thread j) := by
    rintro (_ | _)
    · exact not_enabled_of_rechecks hfresh
    · exact hinv.not_enabled hat
  have hfinal := revokeToken_final plainDigests _ "token" exampleCalls issuedBackend hu rfl
    (by decide) h₀ hat hcond hstep hrev h₁
  refine ⟨c₁, c₂, h₀.next _ trivial hstep, h₁, hfresh₁, hdone, hfinal.1,
    hfinal.2 false fun hret ↦ ?_⟩
  cases hc : c₁.thread false <;> simp_all

open Revocation in
/-- A redemption that enables the account before it is deleted, and writes CONSUMED after
REVOKED is written, returns credentials and leaves the token CONSUMED. -/
theorem revokeToken_undone :
    ∃ c₁ c₂, Reach (Pool.step tokenServer tick) (fun _ _ ↦ True) exampleRace c₁ ∧
      Reach (Pool.step tokenServer tick) (fun _ _ ↦ True) c₁ c₂ ∧
      status c₁.shared "token" = some .revoked ∧
      ¬ Returned (fun _ ↦ True) (c₁.thread false) ∧
      status c₂.shared "token" = some .consumed ∧
      Returned (·.isSome) (c₂.thread false) := by
  have hrun : ∃ c₁, Reach (Pool.step tokenServer tick) (fun _ _ ↦ True) exampleRace c₁ ∧
      (status c₁.shared "token" = some .revoked ∧
        ¬ Returned (fun _ ↦ True) (c₁.thread false) ∧
        (exec (Pool.step tokenServer tick) (fun _ _ ↦ True) c₁
          (List.replicate 3 (.run false .served))).any fun c₂ ↦
            decide (status c₂.shared "token" = some .consumed ∧
              Returned (·.isSome) (c₂.thread false))) :=
    Reach.exists_of_exec (List.replicate 5 (.run false .served) ++
      List.replicate 4 (.run true .served)) (by decide)
  obtain ⟨c₁, h₁, hrev, hopen, hnext⟩ := hrun
  obtain ⟨c₂, h₂, hcon, hret⟩ := Reach.exists_of_exec _ hnext
  exact ⟨c₁, c₂, h₁, h₂, hrev, hopen, hcon, hret⟩

end Zenstier
