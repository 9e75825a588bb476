import Zenstier.Concurrent.Contract
import Zenstier.Mqtt.Reconcile
import Zenstier.Tokens.Agreement

/-!
# Reconciling while the services run

The script reads the tokens first and the accounts on the broker afterwards.  An account whose
token it has seen it leaves alone, whatever else happens in the meantime.  An account that is
created between the two reads has a token the script has not seen: `--fix` deletes it, and the
token can no longer be redeemed.
-/

namespace Zenstier

open Store Concurrent Prog Agreement

/-! ## Tokens that the script has seen -/

/-- The tokens, when they are read, include the one of the account `u`. -/
def SeesToken (u : String) : ∀ β : Type, ReconcileOp β → Except Err β → Prop
  | _, .findTokens, .ok usernames => u ∈ usernames
  | _, _, _ => True

/-- The request does not delete the account `u`. -/
def LeavesClient (u : String) : ∀ β : Type, ReconcileOp β → Prop
  | _, .sendClient (.deleteClient v) => v ≠ u
  | _, _ => True

section Meets

variable {u : String} {Q : PUnit → Prop}

theorem meets_remove {op : ReconcileOp (List DynsecResponse)} (hop : LeavesClient u _ op) :
    Meets (SeesToken u) (LeavesClient u) (fun _ ↦ True) (remove op) := by
  refine Meets.await hop fun responses _ ↦ ?_
  exact Meets.ofExcept fun _ _ ↦ trivial

theorem meets_forM {f : String → ReconcileM PUnit} (l : List String)
    (h : ∀ a ∈ l, Meets (SeesToken u) (LeavesClient u) (fun _ ↦ True) (f a)) :
    Meets (SeesToken u) (LeavesClient u) (fun _ ↦ True) (l.forM f) := by
  induction l with
  | nil => trivial
  | cons a l ih =>
      refine Meets.bind (h a List.mem_cons_self) fun _ _ ↦ ?_
      exact ih fun b hb ↦ h b (List.mem_cons_of_mem a hb)

/-- Having seen the token of `u`, the script does not delete the account. -/
theorem meets_reconcileWith (fix : Bool) (knownGroups : List String) {knownClients : List String}
    (hu : u ∈ knownClients) : Meets (SeesToken u) (LeavesClient u) (fun _ ↦ True)
      (reconcileWith fix knownGroups knownClients) := by
  unfold reconcileWith
  refine Meets.await trivial fun roles _ ↦ Meets.await trivial fun clients _ ↦ ?_
  dsimp only
  split
  · trivial
  split
  · trivial
  refine Meets.bind (meets_forM _ fun role _ ↦ ?_) fun _ _ ↦ ?_
  · exact Meets.bind (meets_remove trivial) fun _ _ ↦ meets_remove trivial
  refine Meets.bind (meets_forM _ fun client hclient ↦ ?_) fun _ _ ↦ trivial
  refine meets_remove ?_
  rintro rfl
  have hfilter := (List.mem_filter.mp hclient).2
  exact (decide_eq_true_iff.mp hfilter).2 hu

theorem meets_reconcile (fix : Bool) :
    Meets (SeesToken u) (LeavesClient u) (fun _ ↦ True) (reconcile fix) := by
  refine Meets.tryCatch ?_ fun _ ↦ trivial
  refine Meets.await trivial fun groups _ ↦ Meets.await trivial fun tokens htokens ↦ ?_
  exact meets_reconcileWith fix groups htokens

end Meets

/-- The script is about to read the tokens. -/
def ReadsTokens : ∀ β : Type, ReconcileOp β → Prop
  | _, .findTokens => True
  | _, _ => False

/-- Whenever one of the scripts reads the tokens, the account `u` has one that is not REVOKED. -/
def KnownWhenRead {ι η : Type} (u : String) (c : Pool ι ReconcileOp Err Nat Backend) :
    Event ι Err η → Prop
  | .run i _ => AtRequest ReadsTokens (c.thread i) → c.shared.Known u
  | .env _ => True

/-- Any number of scripts run, and between their requests anything may happen to the database and
the broker.  If the account `u` has a token that is not REVOKED each time one of the scripts reads
the tokens, none of them ever deletes the account. -/
theorem reconcile_keeps_known {ι η : Type} [DecidableEq ι] (env : η → Backend → Backend)
    (fix : ι → Bool) (s : Backend) (u : String) {c : Pool ι ReconcileOp Err Nat Backend}
    (h : Reach (Pool.step reconcileServer env) (KnownWhenRead u)
      ⟨s, fun i ↦ reconcile (fix i)⟩ c) (i : ι) :
    ¬ AtRequest (fun _ op ↦ ¬ LeavesClient u _ op) (c.thread i) := by
  have hmeets : ∀ i, Meets (SeesToken u) (LeavesClient u) (fun _ ↦ True) (c.thread i) := by
    refine h.invariant (I := fun c ↦ ∀ i, Meets _ _ _ (c.thread i))
      (fun i ↦ meets_reconcile (fix i)) fun c l d hc hg hs ↦ ?_
    cases l with
    | env x =>
        cases Pool.step_env hs
        exact hc
    | run i f =>
        obtain ⟨β, op, k, hi, rfl⟩ := Pool.step_run hs
        have hmeet := hc i
        rw [hi] at hmeet
        refine Pool.forall_resume hc i f op k (hmeet.2 _ ?_)
        cases f with
        | refused e => cases op <;> trivial
        | unanswered e => cases op <;> trivial
        | served =>
            cases op with
            | findTokens =>
                rw [KnownWhenRead, hi] at hg
                exact (mem_usernames c.shared).mpr (hg trivial)
            | _ => trivial
  have hmeet := hmeets i
  cases hi : c.thread i with
  | pure code => exact id
  | throw e => exact id
  | call op k =>
      rw [hi] at hmeet
      exact fun hat ↦ hat hmeet.1

instance {β : Type} (op : ReconcileOp β) : Decidable (ReadsTokens β op) :=
  match op with
  | .findTokens => .isTrue trivial
  | .findGroups | .listRoles | .listClients | .sendGroup _ | .sendClient _ => .isFalse id

instance {ι η : Type} (u : String) (c : Pool ι ReconcileOp Err Nat Backend) (l : Event ι Err η) :
    Decidable (KnownWhenRead u c l) :=
  match l with
  | .run i _ => inferInstanceAs (Decidable (AtRequest ReadsTokens (c.thread i) → c.shared.Known u))
  | .env _ => .isTrue trivial

/-- A script runs to its end while the clock goes on; the account of the example token is still
there. -/
theorem reconcile_keeps_known_issued : ∃ c : Pool Unit ReconcileOp Err Nat Backend,
    Returned (· = 0) (c.thread ()) ∧ c.shared.broker.Has "dev-aqid" ∧
    ¬ AtRequest (fun _ op ↦ ¬ LeavesClient "dev-aqid" _ op) (c.thread ()) := by
  have hexec : ((exec (Pool.step reconcileServer tick) (KnownWhenRead "dev-aqid")
      ⟨issuedBackend, fun _ : Unit ↦ reconcile true⟩
      [.run () .served, .env 5, .run () .served, .run () .served, .run () .served]).any fun c ↦
        decide (Returned (· = 0) (c.thread ()) ∧ c.shared.broker.Has "dev-aqid")) = true := by
    decide
  obtain ⟨c, hc, hreturned, hhas⟩ := Reach.exists_of_exec _ hexec
  exact ⟨c, hreturned, hhas,
    reconcile_keeps_known tick (fun _ ↦ true) issuedBackend "dev-aqid" hc ()⟩

/-! ## Tokens that the script has not seen -/

section Issued

variable {dig : Digests} {s t : Backend} {plaintextToken u : String}

/-- The plaintext token leads to the account `u`, if to any. -/
def LeadsTo (dig : Digests) (plaintextToken u : String) (s : Backend) : Prop :=
  ∀ id tok, s.tokens.find? id = some tok → tok.tokenHash = dig.sha256 plaintextToken →
    tok.mqttUsername = u

/-- An account that was disabled without an error exists. -/
theorem has_of_disabled {b : Broker}
    (h : assertDynsecOk [(b.apply (.disableClient u)).1] = .ok ()) :
    (b.apply (.disableClient u)).2.Has u := by
  by_cases hu : b.Has u
  · rw [Broker.apply, Broker.modify_of_has hu]
    simpa [Broker.Has, Table.find?_update] using hu
  · rw [Broker.apply, Broker.modify_of_not_has hu] at h
    obtain ⟨e, he⟩ := assertDynsecOk_notFound "disableClient"
    rw [he] at h
    cases h

/-- A row that could be created has a new username and a new hash. -/
theorem createToken_new {id : String} {row : AuthToken} (h : s.createToken id row = .ok t)
    (hrow : row.tokenHash = dig.sha256 plaintextToken) :
    ¬ s.Known row.mqttUsername ∧ LeadsTo dig plaintextToken row.mqttUsername t := by
  simp only [Backend.createToken] at h
  split at h
  · contradiction
  split at h
  · contradiction
  rename_i hfresh
  rw [Bool.not_eq_true, Option.isSome_eq_false_iff, Option.isNone_iff_eq_none] at hfresh
  have hnew : ∀ k tok, s.tokens.find? k = some tok →
      ¬ (tok.tokenHash = row.tokenHash ∨ tok.mqttUsername = row.mqttUsername) :=
    fun k tok htok ↦ of_decide_eq_false (Table.findFirst_eq_none hfresh htok)
  split at h
  · rename_i tokens hins
    cases h
    constructor
    · rintro ⟨e, he, hu, -⟩
      exact hnew e.1 e.2 (Table.find?_eq_some.mpr he) (.inr hu)
    intro k tok htok hhash
    simp only [Table.find?_insert hins] at htok
    split at htok
    · cases htok
      rfl
    · exact absurd (.inl (hhash.trans hrow.symm)) (hnew k tok htok)
  · contradiction

/-- Provisioning succeeds only if the account exists in the end. -/
theorem wp_provision_has (password : String) (groupId : Option String) :
    wps anyFate (fun r t ↦ t.tokens = s.tokens ∧ (r = .ok () → t.broker.Has u))
      (provisionBrokerCredential u password groupId) s := by
  unfold provisionBrokerCredential
  dsimp only
  refine wp_await_dynsec ?_ (fun e _ ↦ ⟨rfl, fun he ↦ nomatch he⟩)
    fun e _ ↦ ⟨rfl, fun he ↦ nomatch he⟩
  refine (wp_bind _ _ _).mpr ((wp_ofExcept _ _).mpr ?_)
  split
  · refine wp_await_dynsec ((wp_ofExcept _ _).mpr ⟨rfl, has_of_disabled⟩)
      (fun e _ ↦ ⟨rfl, fun he ↦ nomatch he⟩) fun e _ ↦ ⟨rfl, fun he ↦ nomatch he⟩
  · exact ⟨rfl, fun he ↦ nomatch he⟩

/-- What holds once a token has been issued: its account is that of a device, it had no token
before, it exists, and the token leads to no other. -/
theorem wp_createEnrollmentToken (draws : EnrollmentDraws) (userId teamId deviceName : String)
    (label groupId : Option String) :
    wps anyFate (fun r t ↦ ∀ created, r = .ok created → startsWith created.deviceId "dev-" ∧
        ¬ s.Known created.deviceId ∧ t.broker.Has created.deviceId ∧
        LeadsTo dig created.plaintextToken created.deviceId t)
      (createEnrollmentToken dig draws userId teamId deviceName label groupId) s := by
  have hfail : ∀ (e : Err) (t : Backend) (created : CreatedToken),
      (.error e : Except Err CreatedToken) = .ok created →
      startsWith created.deviceId "dev-" ∧ ¬ s.Known created.deviceId ∧
        t.broker.Has created.deviceId ∧ LeadsTo dig created.plaintextToken created.deviceId t :=
    fun e t created he ↦ nomatch he
  unfold createEnrollmentToken
  dsimp only
  refine wp_await_commit rfl (fun s₁ h₁ ↦ ?_) (fun _ _ e ↦ hfail e s) (fun e _ ↦ hfail e s)
    fun e t _ ↦ hfail e t
  have htokens : s₁.tokens = s.tokens := by
    rw [Backend.createDevice] at h₁
    split at h₁
    · cases h₁
    split at h₁
    · cases h₁
    split at h₁
    · cases h₁
      rfl
    · cases h₁
  refine wp_await_quiet (by trivial) (fun e t _ ↦ hfail e t) fun now s₂ _ h₂ ↦ ?_
  refine wp_await_commit rfl (fun s₃ h₃ ↦ ?_) (fun _ _ e ↦ hfail e s₂) (fun e _ ↦ hfail e s₂)
    fun e t _ ↦ hfail e t
  obtain ⟨hunknown, hleads⟩ := createToken_new h₃ (rfl : _ = dig.sha256 _)
  refine wp_await_quiet (by trivial) (fun e t _ ↦ hfail e t) fun _ s₄ _ h₄ ↦ ?_
  refine (wp_bind _ _ _).mpr (wp_mono (wp_provision_has _ groupId) ?_)
  rintro (e | _) s₅ ⟨h₅, hhas⟩
  · exact hfail e s₅
  refine wp_await_quiet (by trivial) (fun e t _ ↦ hfail e t) fun _ s₆ _ h₆ ↦ ?_
  rintro created ⟨⟩
  refine ⟨?_, ?_, ?_, ?_⟩
  · rw [startsWith, generateDeviceId, String.toList_append]
    exact List.isPrefixOf_iff_prefix.mpr (List.prefix_append _ _)
  · rwa [Backend.Known, ← htokens, ← h₂.tokens]
  · rw [h₆.broker]
    exact hhas rfl
  · intro k tok htok
    rw [h₆.tokens, h₅, h₄.tokens] at htok
    exact hleads k tok htok

/-- Without an account, no redemption of the token succeeds, whatever fails on the way. -/
theorem wp_consume_gone (hleads : LeadsTo dig plaintextToken u s) (hgone : ¬ s.broker.Has u)
    (facts : HostFacts) :
    wps anyFate (fun r t ↦ (∃ e, r = .error e) ∧ t.tokens = s.tokens ∧ ¬ t.broker.Has u)
      (consumeEnrollmentToken dig plaintextToken facts) s := by
  unfold consumeEnrollmentToken
  refine wp_await_quiet (by trivial) (fun e t h ↦ ?_) fun found s₁ hfound h₁ ↦ ?_
  · exact ⟨⟨e, rfl⟩, h.tokens, h.broker ▸ hgone⟩
  rcases found with _ | ⟨id, token, _ | ⟨d, device⟩⟩
  · exact ⟨⟨_, rfl⟩, h₁.tokens, h₁.broker ▸ hgone⟩
  · exact ⟨⟨_, rfl⟩, h₁.tokens, h₁.broker ▸ hgone⟩
  have huser : token.mqttUsername = u := by
    simp only [Backend.serve, Except.ok.injEq, Option.map_eq_some_iff,
      TokenWithDevice.mk.injEq] at hfound
    obtain ⟨⟨id', tok⟩, hfirst, rfl, rfl, -⟩ := hfound
    obtain ⟨htok, hhash⟩ := Table.findFirst_eq_some hfirst
    exact hleads id' tok htok (of_decide_eq_true hhash)
  refine (wp_bind _ _ _).mpr (wp_mono (wp_quiet (checkRedeemable_only trivial token) s₁) ?_)
  rintro (e | _) s₂ h₂
  · have h := h₁.trans h₂
    exact ⟨⟨e, rfl⟩, h.tokens, h.broker ▸ hgone⟩
  refine (wp_bind _ _ _).mpr
    (wp_mono (wp_quiet (takePendingSecret_only id trivial trivial) s₂) ?_)
  rintro (e | secret) s₃ h₃
  · have h := (h₁.trans h₂).trans h₃
    exact ⟨⟨e, rfl⟩, h.tokens, h.broker ▸ hgone⟩
  have h := (h₁.trans h₂).trans h₃
  have hgone₃ : ¬ s₃.broker.Has u := h.broker ▸ hgone
  dsimp only [enrollWith]
  cases truthy secret with
  | none => exact ⟨⟨_, rfl⟩, h.tokens, hgone₃⟩
  | some password =>
      -- the account cannot be enabled, whether or not the answer arrives
      have hsame : (s₃.broker.apply (.enableClient token.mqttUsername)) =
          ({ command := "enableClient", error := "Client not found" }, s₃.broker) := by
        rw [huser, Broker.apply]
        exact Broker.modify_of_not_has hgone₃ _ _
      dsimp only [enroll]
      refine wp_await_dynsec ?_ (fun e _ ↦ ⟨⟨e, rfl⟩, h.tokens, hgone₃⟩) fun e _ ↦ ?_
      · rw [hsame]
        exact ⟨⟨_, rfl⟩, h.tokens, hgone₃⟩
      · rw [hsame]
        exact ⟨⟨e, rfl⟩, h.tokens, hgone₃⟩

end Issued

/-- A script has read the groups and the tokens in the state `s`, and then a token is issued.  If
the script goes on to its end and nothing fails, it deletes the account of the new token, and from
then on no attempt to redeem that token succeeds. -/
theorem reconcile_deletes_issued (dig : Digests) (draws : EnrollmentDraws)
    (userId teamId deviceName : String) (label groupId : Option String) {s t : Backend}
    {created : CreatedToken}
    (hissue : Eval tokenServer anyFate
      (createEnrollmentToken dig draws userId teamId deviceName label groupId) s (.ok created) t) :
    wp reconcileServer noFailure (fun _ _ _ ↦ True) (fun code t' ↦ code = .ok 0 ∧
      ¬ t'.broker.Has created.deviceId ∧
      ∀ t'', Serial tokenServer (consumeEnrollmentToken dig created.plaintextToken)
        (fun _ ↦ anyFate) tick t' t'' → ∀ facts, wps anyFate (fun r _ ↦ ∃ e, r = .error e)
          (consumeEnrollmentToken dig created.plaintextToken facts) t'')
      (reconcileWith true s.deviceGroups.keys
        ((s.tokens.findMany fun _ tok ↦ tok.status ≠ .revoked).map (·.2.mqttUsername))) t := by
  obtain ⟨hdevice, hunknown, -, hleads⟩ :=
    hissue.of_wp (wp_createEnrollmentToken draws userId teamId deviceName label groupId) created rfl
  refine wp_mono (wp_reconcileWith_served _ _ t) ?_
  rintro r t' ⟨rfl, htokens, hknown⟩
  have hgone : ¬ t'.broker.Has created.deviceId := fun hhas ↦
    hunknown ((mem_usernames s).mp (hknown _ hhas hdevice))
  refine ⟨rfl, hgone, fun t'' hserial facts ↦ ?_⟩
  have hinv : LeadsTo dig created.plaintextToken created.deviceId t'' ∧
      ¬ t''.broker.Has created.deviceId := by
    refine hserial.invariant (P := fun _ _ _ ↦ True)
      (I := fun t'' ↦ LeadsTo dig _ _ t'' ∧ ¬ t''.broker.Has _)
      ⟨fun k tok htok ↦ hleads k tok (htokens ▸ htok), hgone⟩ (fun facts s hs ↦ ?_) ?_
    · refine wp_mono (wp_consume_gone hs.1 hs.2 facts) ?_
      rintro r t ⟨-, ht, hgone⟩
      exact ⟨fun k tok htok ↦ hs.1 k tok (ht ▸ htok), hgone⟩
    · exact fun ms s hs ↦ hs
  exact wp_mono (wp_consume_gone hinv.1 hinv.2 facts) fun r t h ↦ h.1

/-- The script that has read the database before the example token is issued, as it goes on. -/
def reconcileIssued : ReconcileM Nat :=
  reconcileWith true freshBackend.deviceGroups.keys
    ((freshBackend.tokens.findMany fun _ tok ↦ tok.status ≠ .revoked).map (·.2.mqttUsername))

/-- It deletes the account of the example token. -/
theorem reconcile_deletes_issued_example :
    issuedBackend.broker.Has "dev-aqid" ∧
      wp reconcileServer noFailure (fun _ _ _ ↦ True)
        (fun code t ↦ code = .ok 0 ∧ ¬ t.broker.Has "dev-aqid") reconcileIssued issuedBackend := by
  have hissue : Eval tokenServer anyFate issueExample freshBackend
      (.ok ⟨"token", "dev-aqid", "zst_ent_BAUG"⟩) issuedBackend := by
    have hrun : (Concurrent.run tokenServer [] issueExample freshBackend).1 =
        .ok ⟨"token", "dev-aqid", "zst_ent_BAUG"⟩ := by decide
    rw [← hrun]
    exact Eval.of_run fun _ _ _ _ _ ↦ trivial
  refine ⟨by decide, ?_⟩
  refine wp_mono (reconcile_deletes_issued plainDigests exampleDraws "user" "team" "host" none none
    hissue) ?_
  rintro code t ⟨hcode, hgone, -⟩
  exact ⟨hcode, hgone⟩

end Zenstier
