import Zenstier.Concurrent.Fates
import Zenstier.Tokens.Redemption

/-!
# Failures in the middle of a redemption

`consumeEnrollmentToken` destroys the pending password, enables the broker account and marks
the token CONSUMED, in that order and at three different stores.  Nothing is undone when a
later step fails, so what a failed call leaves depends on how far it got.

As long as Redis has not deleted the password the call has changed nothing.  From then on
the token is still ACTIVE but cannot be exchanged by anybody.
-/

namespace Zenstier

open Store Concurrent

/-- What becomes of the steps of a redemption at the three stores. -/
structure RedemptionFates where
  find : Fate Err := .served
  get : Fate Err := .served
  del : Fate Err := .served
  enable : Fate Err := .served
  commit : Fate Err := .served
deriving DecidableEq, Repr

/-- Reading the clock does not fail. -/
def RedemptionFates.fate (f : RedemptionFates) : ∀ β : Type, TokenOp β → Fate Err
  | _, .findTokenByHash _ => f.find
  | _, .redisGet _ => f.get
  | _, .redisDel _ => f.del
  | _, .dynsecSend _ => f.enable
  | _, .markConsumed .. => f.commit
  | _, _ => .served

/-- A token that can be exchanged: ACTIVE, not expired, with its password in Redis. -/
structure Backend.Redeemable (s : Backend) (id : String) (token : AuthToken) : Prop where
  row : s.tokens.find? id = some token
  active : token.status = .active
  unexpired : ∀ expiresAt ∈ token.expiresAt, s.clock ≤ expiresAt
  pending : (truthy (Redemption.secret s (pendingKey id))).isSome

/-- Nobody can connect with this account. -/
def Broker.Disabled (b : Broker) (username : String) : Prop :=
  ∀ account ∈ b.clients.find? username, account.disabled = true

/-- What a failed call leaves in place: the token can be exchanged, and an account that was
disabled is so still. -/
def LeavesRedeemable (s t : Backend) (id username : String) : Prop :=
  (∃ token, t.Redeemable id token) ∧ (s.broker.Disabled username → t.broker.Disabled username)

/-- The failures that come too early to do harm, and none at all.  A token without its device
is turned down before the password is looked at. -/
def RedemptionFates.Harmless (f : RedemptionFates) (s : Backend) (token : AuthToken) : Prop :=
  s.deviceOf token = none ∨ f.find ≠ .served ∨ f.get ≠ .served ∨ (∃ e, f.del = .refused e) ∨
    (f.del = .served ∧ s.broker.Has token.mqttUsername ∧ f.enable = .served ∧
      f.commit = .served)

section Run

variable {s : Backend} {f : RedemptionFates} {id : String} {token : AuthToken}

theorem runBy_checkRedeemable (h : s.Redeemable id token) :
    runBy tokenServer f.fate (checkRedeemable token) s = (.ok (), s) := by
  unfold checkRedeemable
  rw [if_neg (by simp [h.active]), if_neg (by simp [h.active])]
  cases hexp : token.expiresAt with
  | none => rfl
  | some expiresAt =>
      refine (runBy_served f.fate .now (b := s.clock) rfl rfl).trans ?_
      rw [if_neg (Int.not_lt.mpr (h.unexpired _ hexp))]
      rfl

/-- Without its answer to the deletion of the password the call fails; with it the call goes on
to enroll. -/
theorem runBy_takePendingSecret {α : Type} {k : Option String → TokenM α}
    (hpending : (truthy (Redemption.secret s (pendingKey id))).isSome) (hget : f.get = .served) :
    runBy tokenServer f.fate (takePendingSecret id >>= k) s =
      runBy tokenServer f.fate (.perform (.redisDel (pendingKey id)) >>= fun _ ↦
        k (Redemption.secret s (pendingKey id))) s := by
  rw [takePendingSecret, Prog.bind_assoc]
  refine (runBy_served f.fate (.redisGet (pendingKey id)) hget rfl).trans ?_
  refine (congrArg (runBy tokenServer f.fate · s) (congrArg (· >>= k) (if_pos hpending))).trans ?_
  rw [Prog.bind_assoc]
  rfl

/-- Enrolling does not look at Redis. -/
theorem runBy_enroll_redis (facts : HostFacts) (d : String) (device : Device) (pw : String) :
    (runBy tokenServer f.fate (enroll facts id token d device pw) s).2.redis = s.redis := by
  refine (Eval.runBy _ s).of_wp (P := fun _ _ _ ↦ True)
    (Q := fun _ t ↦ t.redis = s.redis) ?_
  refine wp_of_only (K := Enrolls) (fun β op t g hop ht _ ↦ ?_) (fun _ _ _ _ _ ↦ trivial)
    (enroll_only facts id token d device pw) rfl
  refine Server.after_of (fun t : Backend ↦ t.redis = s.redis) ht ?_ g
  rw [tokenServer_serve]
  cases op with
  | now => exact ht
  | dynsecSend cs => exact ht
  | markConsumed t' d' facts' c l audit =>
      rcases t.commit_cases (t.markConsumed t' d' facts' c l audit) with h | ⟨t'', hok, h⟩
      · rw [Backend.serve, h, ht]
      · rw [Backend.serve, h, ← ht]
        exact (Backend.markConsumed_eq_ok hok).2.2.1
  | _ => exact hop.elim

/-- Enrolling succeeds if the account exists and neither the broker nor the database fails. -/
theorem runBy_enroll_ok (facts : HostFacts) {d : String} {device : Device} (pw : String)
    (hrow : (s.tokens.find? id).isSome) (hdevice : (s.devices.find? d).isSome) :
    (∃ r, (runBy tokenServer f.fate (enroll facts id token d device pw) s).1 = .ok r) ↔
      s.broker.Has token.mqttUsername ∧ f.enable = .served ∧ f.commit = .served := by
  unfold enroll
  cases henable : f.enable with
  | refused e =>
      rw [runBy_refused f.fate (.dynsecSend [.enableClient token.mqttUsername]) henable]
      simp
  | unanswered e =>
      rw [runBy_unanswered f.fate (.dynsecSend [.enableClient token.mqttUsername]) henable]
      simp
  | served =>
      rw [runBy_served f.fate (.dynsecSend [.enableClient token.mqttUsername]) henable rfl,
        Broker.send_singleton]
      by_cases hhas : s.broker.Has token.mqttUsername
      · simp only [Broker.apply, Broker.modify_of_has hhas, assertDynsecOk_done, hhas, true_and]
        rw [Prog.ofExcept_ok, Prog.pure_bind, runBy_served f.fate .now rfl rfl,
          runBy_served f.fate .now rfl rfl, runBy_await]
        cases hcommit : f.commit with
        | refused e => simp [RedemptionFates.fate, hcommit, runBy]
        | unanswered e => simp [RedemptionFates.fate, hcommit, runBy]
        | served =>
            simp [RedemptionFates.fate, hcommit, runBy, Backend.serve, Backend.markConsumed,
              Option.isNone_iff_eq_none, Option.isSome_iff_ne_none.mp hrow,
              Option.isSome_iff_ne_none.mp hdevice]
      · obtain ⟨e, he⟩ := assertDynsecOk_notFound "enableClient"
        simp only [Broker.apply, Broker.modify_of_not_has hhas, he, hhas]
        simp [runBy]

theorem Backend.Redeemable.leaves (h : s.Redeemable id token) (username : String) :
    LeavesRedeemable s s id username :=
  ⟨⟨token, h⟩, fun hdisabled ↦ hdisabled⟩

/-- Once Redis has deleted the password the token cannot be exchanged any more. -/
theorem not_leavesRedeemable {t : Backend} {username : String}
    (h : t.redis.find? (pendingKey id) = none) : ¬ LeavesRedeemable s t id username := by
  rintro ⟨⟨token, ht⟩, -⟩
  have hpending := ht.pending
  rw [Redemption.secret, h] at hpending
  cases hpending

theorem find?_deleted (key : String) : (s.redis.delete key).find? key = none := by
  rw [Table.find?_delete, if_pos rfl]

theorem find?_of_deviceOf {d : String} {device : Device}
    (h : s.deviceOf token = some (d, device)) : (s.devices.find? d).isSome := by
  obtain ⟨d', -, hd'⟩ := Option.bind_eq_some_iff.mp h
  obtain ⟨device', hdevice', heq⟩ := Option.map_eq_some_iff.mp hd'
  cases heq
  exact Option.isSome_of_mem hdevice'

/-- The part of a redemption that begins with the password. -/
theorem takePendingSecret_atomic (facts : HostFacts) {d : String} {device : Device}
    (h : s.Redeemable id token) (hdevice : s.deviceOf token = some (d, device))
    (hget : f.get = .served) :
    (∀ e, (runBy tokenServer f.fate
          (takePendingSecret id >>= enrollWith facts id token d device) s).1 = .error e →
        LeavesRedeemable s (runBy tokenServer f.fate
          (takePendingSecret id >>= enrollWith facts id token d device) s).2 id
          token.mqttUsername) ↔
      (∃ e, f.del = .refused e) ∨ (f.del = .served ∧ s.broker.Has token.mqttUsername ∧
        f.enable = .served ∧ f.commit = .served) := by
  obtain ⟨pw, hpw⟩ := Option.isSome_iff_exists.mp h.pending
  rw [runBy_takePendingSecret h.pending hget]
  cases hdel : f.del with
  | refused e =>
      rw [runBy_refused f.fate (.redisDel (pendingKey id)) hdel]
      exact iff_of_true (fun _ _ ↦ h.leaves _) (.inl ⟨e, rfl⟩)
  | unanswered e =>
      rw [runBy_unanswered f.fate (.redisDel (pendingKey id)) hdel]
      exact iff_of_false (fun hno ↦ not_leavesRedeemable (find?_deleted _) (hno e rfl)) (by simp)
  | served =>
      rw [runBy_served f.fate (.redisDel (pendingKey id)) hdel rfl, enrollWith, hpw]
      dsimp only
      have hok := @runBy_enroll_ok { s with redis := s.redis.delete (pendingKey id) } f id token
        facts d device pw (Option.isSome_of_mem h.row) (find?_of_deviceOf hdevice)
      simp only [reduceCtorEq, exists_false, true_and, false_or, ← hok]
      cases hres : (runBy tokenServer f.fate (enroll facts id token d device pw)
          { s with redis := s.redis.delete (pendingKey id) }).1 with
      | ok r =>
          refine iff_of_true (fun _ he ↦ ?_) ⟨r, rfl⟩
          cases he
      | error e =>
          refine iff_of_false (fun hno ↦ not_leavesRedeemable ?_ (hno e rfl)) ?_
          swap
          · rintro ⟨_, hr⟩
            cases hr
          rw [runBy_enroll_redis]
          exact find?_deleted _

end Run

/-- What a redemption throws leaves the token as it was, exactly if the failure came before
the password was deleted. -/
theorem consumeEnrollmentToken_atomic (dig : Digests) (plaintextToken : String)
    (facts : HostFacts) (s : Backend) (f : RedemptionFates) {id : String} {token : AuthToken}
    (hfound : s.tokens.findFirst (fun _ t ↦ t.tokenHash = dig.sha256 plaintextToken) =
      some (id, token))
    (h : s.Redeemable id token) :
    (∀ e t, Eval tokenServer (given f.fate) (consumeEnrollmentToken dig plaintextToken facts) s
        (.error e) t → LeavesRedeemable s t id token.mqttUsername) ↔ f.Harmless s token := by
  rw [forall_throws_iff, consumeEnrollmentToken]
  by_cases hfind : f.find = .served
  · rw [runBy_served f.fate (.findTokenByHash (dig.sha256 plaintextToken)) hfind rfl, hfound]
    dsimp only [Option.map_some]
    cases hdevice : s.deviceOf token with
    | none => exact iff_of_true (fun _ _ ↦ h.leaves _) (.inl hdevice)
    | some found =>
        obtain ⟨d, device⟩ := found
        dsimp only
        rw [runBy_bind, runBy_checkRedeemable h]
        dsimp only
        rw [RedemptionFates.Harmless, hdevice]
        by_cases hget : f.get = .served
        · rw [takePendingSecret_atomic facts h hdevice hget]
          simp [hfind, hget]
        · rw [takePendingSecret, Prog.bind_assoc]
          obtain ⟨e, he⟩ := runBy_read (S := tokenServer) (s := s) f.fate
            (.redisGet (pendingKey id)) rfl hget
          rw [he]
          exact iff_of_true (fun _ _ ↦ h.leaves _) (.inr (.inr (.inl hget)))
  · obtain ⟨e, he⟩ := runBy_read (S := tokenServer) (s := s) f.fate
      (.findTokenByHash (dig.sha256 plaintextToken)) rfl hfind
    rw [he]
    exact iff_of_true (fun _ _ ↦ h.leaves _) (.inr (.inl hfind))

/-! ## The example token -/

/-- One step fails and no other. -/
def RedemptionFates.Single (f : RedemptionFates) : Prop :=
  ([f.find, f.get, f.del, f.enable, f.commit].filter (· ≠ .served)).length = 1

instance (f : RedemptionFates) : Decidable f.Single := inferInstanceAs (Decidable (_ = _))

/-- The row of the token that `issueExample` creates. -/
def exampleToken : AuthToken where
  userId := "user"
  teamId := "team"
  deviceId := some "device"
  tokenPrefix := "zst_ent_BAUG"
  tokenHash := "zst_ent_BAUG"
  mqttUsername := "dev-aqid"
  mqttPasswordHash := "BwgJ"
  expiresAt := some 86400000

theorem exampleToken_found : issuedBackend.tokens.findFirst
    (fun _ t ↦ t.tokenHash = plainDigests.sha256 (TOKEN_PREFIX ++ b64url exampleDraws.tokenBytes)) =
      some ("token", exampleToken) := by
  decide

theorem exampleToken_redeemable : issuedBackend.Redeemable "token" exampleToken where
  row := by decide
  active := rfl
  unexpired := by
    rintro _ ⟨⟩
    decide
  pending := by decide

/-- A broker that does not answer costs the example token. -/
theorem consumeEnrollmentToken_not_atomic :
    ¬ ∀ (dig : Digests) (plaintextToken : String) (facts : HostFacts) (s : Backend)
        (f : RedemptionFates) (id : String) (token : AuthToken), f.Single →
      s.tokens.findFirst (fun _ t ↦ t.tokenHash = dig.sha256 plaintextToken) = some (id, token) →
      s.Redeemable id token →
      ∀ e t, Eval tokenServer (given f.fate) (consumeEnrollmentToken dig plaintextToken facts) s
        (.error e) t → LeavesRedeemable s t id token.mqttUsername := by
  intro hatomic
  have h := forall_throws_iff.mp (hatomic plainDigests _ {} issuedBackend
    { enable := .refused (.error "timeout") } "token" exampleToken (by decide)
    exampleToken_found exampleToken_redeemable) (.error "timeout") (by decide)
  exact not_leavesRedeemable (by decide) h

/-- Without an answer from Redis the example token is kept. -/
theorem consumeEnrollmentToken_atomic_unread :
    issuedBackend.tokens.findFirst (fun _ t ↦ t.tokenHash =
      plainDigests.sha256 (TOKEN_PREFIX ++ b64url exampleDraws.tokenBytes)) =
        some ("token", exampleToken) ∧
    issuedBackend.Redeemable "token" exampleToken ∧
    ∀ e t, Eval tokenServer (given { get := .unanswered (.error "timeout") :
          RedemptionFates}.fate) redeemExample issuedBackend (.error e) t →
      LeavesRedeemable issuedBackend t "token" exampleToken.mqttUsername :=
  ⟨exampleToken_found, exampleToken_redeemable,
    (consumeEnrollmentToken_atomic plainDigests _ {} issuedBackend _ exampleToken_found
      exampleToken_redeemable).mpr (.inr (.inr (.inl (by decide))))⟩

end Zenstier
