import Zenstier.Auth.Service
import Zenstier.Concurrent.Fates

/-!
# Guesses at the second factor

`verifySecondFactor` says whether a code is right; what a wrong one costs is up to its callers.
`authorize` charges it to the counter of the account, and turns the attempt away at eight.
`disableTotpAction`, which a session reaches without a password, neither looks at a counter nor
charges one.

The counter's window begins with a failure and does not slide.  So the codes within fifteen
minutes are bounded as long as a new window does not begin right after the end of an old one.
-/

namespace Zenstier

open Concurrent Prog

/-! ## Verdicts -/

/-- What comes of a code: `none` if the secret cannot be decoded. -/
def verdict (cr : Crypto) (totpBackupCodes : List String) (secret cleaned : String) (clock : Int) :
    Option Bool :=
  match Totp.verifyCode cr.hmac secret cleaned clock with
  | .error _ => none
  | .ok b => some (b || totpBackupCodes.any (cr.compare (toUpperCase cleaned)))

section Verdict

variable {cr : Crypto} {codes : List String} {secret cleaned : String} {clock : Int}

theorem verdict_ok {b : Bool} (h : Totp.verifyCode cr.hmac secret cleaned clock = .ok b) :
    verdict cr codes secret cleaned clock =
      some (b || codes.any (cr.compare (toUpperCase cleaned))) := by
  rw [verdict, h]

theorem verdict_error {e : Err} (h : Totp.verifyCode cr.hmac secret cleaned clock = .error e) :
    verdict cr codes secret cleaned clock = none := by
  rw [verdict, h]

end Verdict

/-- A wrong code for a user who has the second factor enabled. -/
def WrongCode (cr : Crypto) (userId : String) (s : AuthStore) (submitted : String) : Prop :=
  ((s.users.find? userId).bind fun user ↦ user.factor.bind fun secret ↦
    verdict cr user.totpBackupCodes secret (trim submitted) s.clock) = some false

instance (cr : Crypto) (userId : String) (s : AuthStore) (submitted : String) :
    Decidable (WrongCode cr userId s submitted) := inferInstanceAs (Decidable (_ = _))

/-- A code that `verifySecondFactor` evaluates. -/
inductive FactorNote
  | wrong (clock : Int)
  | right
deriving DecidableEq, Repr

/-- Takes note of the codes that are evaluated for a user. -/
def watchFactor (cr : Crypto) (userId : String) (β : Type) :
    AuthOp β → AuthStore → List FactorNote
  | .verifyCode secret cleaned, s =>
      match verdict cr (((s.users.find? userId).map (·.totpBackupCodes)).getD []) secret cleaned
        s.clock with
      | none => []
      | some true => [.right]
      | some false => [.wrong s.clock]
  | _, _ => []

/-- The times of the wrong codes since the last right one. -/
def wrongCodes (log : List FactorNote) : List Int :=
  log.foldl (fun times note ↦ match note with
    | .wrong clock => times ++ [clock]
    | .right => []) []

@[simp] theorem wrongCodes_wrong (log : List FactorNote) (clock : Int) :
    wrongCodes (log ++ [.wrong clock]) = wrongCodes log ++ [clock] := by
  simp [wrongCodes]

@[simp] theorem wrongCodes_right (log : List FactorNote) :
    wrongCodes (log ++ [.right]) = [] := by
  simp [wrongCodes]

/-! ## A sequence of calls -/

/-- One call after the other, and time in between. -/
inductive FactorEvent
  | signIn (ip : String) (data : Credentials)
  | disable (code : Option String)
  | tick (ms : Nat)

/-- A call runs to its end, and none of its requests fails. -/
def factorStep (cr : Crypto) (userId : String) (r : Recorded AuthStore FactorNote) :
    FactorEvent → Option (Recorded AuthStore FactorNote)
  | .signIn ip data => some (runBy ((authServer cr).watching (watchFactor cr userId))
      (fun _ _ ↦ .served) (authorize ip (some data)) r).2
  | .disable code => some (runBy ((authServer cr).watching (watchFactor cr userId))
      (fun _ _ ↦ .served) (disableTotpAction userId code) r).2
  | .tick ms => some ⟨r.state.tick ms, r.log⟩

/-- The sign-ins are for the account, with its password. -/
def Submits (cr : Crypto) (email userId : String) (s : AuthStore) : FactorEvent → Prop
  | .signIn _ data => data.email = email ∧
      (s.users.findFirst fun _ u ↦ u.email = email).any fun e ↦ e.1 = userId ∧
        (truthy e.2.passwordHash).any (cr.compare data.password)
  | _ => True

instance (cr : Crypto) (email userId : String) (s : AuthStore) (l : FactorEvent) :
    Decidable (Submits cr email userId s l) := by
  cases l <;> unfold Submits <;> infer_instance

/-- No wrong code is submitted to `disableTotpAction`; and one that comes with a sign-in while
there is no counter comes more than fifteen minutes after the others. -/
def Paced (cr : Crypto) (email userId : String) (r : Recorded AuthStore FactorNote) :
    FactorEvent → Prop
  | .signIn _ data => WrongCode cr userId r.state (data.totp.getD "") →
      r.state.live (acctKey email) = none →
      ∀ clock ∈ wrongCodes r.log, clock + LOGIN_WINDOW_MS < r.state.clock
  | .disable code => ¬ WrongCode cr userId r.state (code.getD "")
  | .tick _ => True

instance (cr : Crypto) (email userId : String) (r : Recorded AuthStore FactorNote)
    (l : FactorEvent) : Decidable (Paced cr email userId r l) := by
  cases l <;> unfold Paced <;> infer_instance

/-! ## What a call evaluates -/

/-- The counters and the clock are as before. -/
def AuthStore.SameCounters (s t : AuthStore) : Prop :=
  t.counters = s.counters ∧ t.clock = s.clock

section Calls

variable {cr : Crypto} {email userId : String} {r : Recorded AuthStore FactorNote}
  {α β γ : Type}

/-- Runs without failures. -/
abbrev Evaluates {α : Type} (cr : Crypto) (userId : String)
    (Q : Except Err α → Recorded AuthStore FactorNote → Prop) (p : AuthM α)
    (r : Recorded AuthStore FactorNote) : Prop :=
  wp ((authServer cr).watching (watchFactor cr userId)) noFailure (fun _ _ _ ↦ True) Q p r

/-- One awaited request, which is answered or fails by itself. -/
theorem Evaluates.note {Q : Except Err α → Recorded AuthStore FactorNote → Prop} {op : AuthOp β}
    {k : β → AuthM α}
    (hok : ∀ b, (r.state.serve cr op).1 = .ok b → Evaluates cr userId Q (k b)
      ⟨(r.state.serve cr op).2, r.log ++ watchFactor cr userId β op r.state⟩)
    (herror : ∀ e, (r.state.serve cr op).1 = .error e → Q (.error e)
      ⟨(r.state.serve cr op).2, r.log ++ watchFactor cr userId β op r.state⟩) :
    Evaluates cr userId Q (.perform op >>= k) r := by
  refine wp_await trivial (fun _ ↦ ?_) (fun e he ↦ nomatch he) fun e he ↦ nomatch he
  dsimp only [Server.watching, authServer_serve]
  cases hr : (r.state.serve cr op).1 with
  | ok b => exact hok b hr
  | error e => exact herror e hr

/-- A request of which nothing is noted. -/
theorem Evaluates.await {Q : Except Err α → Recorded AuthStore FactorNote → Prop} {op : AuthOp β}
    {k : β → AuthM α} (hquiet : watchFactor cr userId β op r.state = [])
    (hok : ∀ b, (r.state.serve cr op).1 = .ok b →
      Evaluates cr userId Q (k b) ⟨(r.state.serve cr op).2, r.log⟩)
    (herror : ∀ e, (r.state.serve cr op).1 = .error e →
      Q (.error e) ⟨(r.state.serve cr op).2, r.log⟩) :
    Evaluates cr userId Q (.perform op >>= k) r := by
  refine .note (fun b hb ↦ ?_) fun e he ↦ ?_
  · rw [hquiet, List.append_nil]
    exact hok b hb
  · rw [hquiet, List.append_nil]
    exact herror e he

/-- A request whose failure is handled. -/
theorem Evaluates.call {Q : Except Err α → Recorded AuthStore FactorNote → Prop} {op : AuthOp β}
    {k : Except Err β → AuthM α} (hquiet : watchFactor cr userId β op r.state = [])
    (hk : Evaluates cr userId Q (k (r.state.serve cr op).1) ⟨(r.state.serve cr op).2, r.log⟩) :
    Evaluates cr userId Q (.call op k) r := by
  refine ⟨trivial, fun f hf ↦ ?_⟩
  obtain rfl : f = .served := hf
  dsimp only [Server.reply_served, Server.after_served, Server.watching, authServer_serve]
  rw [hquiet, List.append_nil]
  exact hk

/-- Sequencing. -/
theorem Evaluates.bind {R : Except Err γ → Recorded AuthStore FactorNote → Prop}
    {Q : Except Err α → Recorded AuthStore FactorNote → Prop} {p : AuthM γ} {f : γ → AuthM α}
    (hp : Evaluates cr userId R p r)
    (hok : ∀ a t, R (.ok a) t → Evaluates cr userId Q (f a) t)
    (herror : ∀ e t, R (.error e) t → Q (.error e) t) :
    Evaluates cr userId Q (p >>= f) r := by
  refine (wp_bind p f r).mpr (wp_mono hp fun res t ht ↦ ?_)
  cases res with
  | ok a => exact hok a t ht
  | error e => exact herror e t ht

/-- The verdict on a code that has been submitted. -/
inductive Judged (cr : Crypto) (userId submitted : String) (r : Recorded AuthStore FactorNote) :
    Except Err Bool → Recorded AuthStore FactorNote → Prop
  /-- No code has been evaluated. -/
  | none {res : Except Err Bool} (h : res ≠ .ok false) : Judged cr userId submitted r res r
  | right {res : Except Err Bool} {t : AuthStore} (hres : res ≠ .ok false)
      (ht : r.state.SameCounters t) : Judged cr userId submitted r res ⟨t, r.log ++ [.right]⟩
  | wrong (h : WrongCode cr userId r.state submitted) : Judged cr userId submitted r (.ok false)
      ⟨r.state, r.log ++ [.wrong r.state.clock]⟩

theorem updateUser_sameCounters (s : AuthStore) (id : String) (f : UserAccount → UserAccount) :
    s.SameCounters (s.updateUser id f).2 := by
  unfold AuthStore.updateUser
  split <;> exact ⟨rfl, rfl⟩

/-- What comparing recovery codes leaves, depending on whether one matches. -/
def Redeemed (r : Recorded AuthStore FactorNote) (found : Bool) (res : Except Err Bool)
    (t : Recorded AuthStore FactorNote) : Prop :=
  if found then res ≠ .ok false ∧ r.state.SameCounters t.state ∧ t.log = r.log
  else res = .ok false ∧ t = r

theorem redeem_redeemed (normalised : String) (codes hashes : List String) :
    Evaluates cr userId (Redeemed r (hashes.any (cr.compare normalised)))
      (redeem userId normalised codes hashes) r := by
  induction hashes with
  | nil => exact ⟨rfl, rfl⟩
  | cons hash hashes ih =>
      refine .await rfl (fun b hb ↦ ?_) fun e he ↦ nomatch he
      obtain rfl : cr.compare normalised hash = b := Except.ok.inj hb
      rw [List.any_cons]
      cases cr.compare normalised hash with
      | false => exact ih
      | true =>
          have hcounters := updateUser_sameCounters r.state userId
            ({ · with totpBackupCodes := codes.filter (· ≠ hash) })
          refine .await rfl (fun _ _ ↦ ?_) fun e _ ↦ ?_
          · refine .await rfl (fun _ _ ↦ ?_) fun e he ↦ nomatch he
            exact ⟨fun h ↦ (nomatch h), hcounters, rfl⟩
          · exact ⟨fun h ↦ (nomatch h), hcounters, rfl⟩

theorem verifySecondFactor_judged (submitted : String) :
    Evaluates cr userId (Judged cr userId submitted r) (verifySecondFactor userId submitted) r := by
  refine .await rfl (fun found hfound ↦ ?_) fun e he ↦ nomatch he
  obtain rfl : r.state.users.find? userId = found := Except.ok.inj hfound
  show Evaluates cr userId (Judged cr userId submitted r) _ r
  cases hu : r.state.users.find? userId with
  | none => exact .none (by simp)
  | some user =>
      dsimp only
      cases hfactor : user.factor with
      | none => exact .none (by simp)
      | some secret =>
          dsimp only
          have hnote : watchFactor cr userId Bool (.verifyCode secret (trim submitted)) r.state =
              match verdict cr user.totpBackupCodes secret (trim submitted) r.state.clock with
              | none => []
              | some true => [.right]
              | some false => [.wrong r.state.clock] := by
            simp [watchFactor, hu]
          have hwrong : verdict cr user.totpBackupCodes secret (trim submitted) r.state.clock =
              some false → WrongCode cr userId r.state submitted := by
            intro h
            simp [WrongCode, hu, hfactor, h]
          refine .note (fun b hb ↦ ?_) fun e he ↦ ?_
          · rw [AuthStore.serve_verifyCode] at hb ⊢
            dsimp only at hb ⊢
            rw [verdict_ok hb] at hnote hwrong
            rw [hnote]
            cases b with
            | true => exact .right (by simp) ⟨rfl, rfl⟩
            | false =>
                rw [Bool.false_or] at hwrong ⊢
                cases hany : user.totpBackupCodes.any (cr.compare (toUpperCase (trim submitted)))
                with
                | true =>
                    refine wp_mono (redeem_redeemed _ _ _) fun res t ht ↦ ?_
                    rw [hany] at ht
                    obtain ⟨state, log⟩ := t
                    obtain ⟨hres, hstate, rfl⟩ := ht
                    exact .right hres hstate
                | false =>
                    refine wp_mono (redeem_redeemed _ _ _) fun res t ht ↦ ?_
                    rw [hany] at ht
                    obtain ⟨rfl, rfl⟩ := ht
                    exact .wrong (hwrong (by rw [hany]))
          · rw [AuthStore.serve_verifyCode] at he ⊢
            dsimp only at he ⊢
            rw [hnote, verdict_error he, List.append_nil]
            exact .none (by simp)

/-- What a call leaves: the counter of the account has been charged for a wrong code for which
there was budget left. -/
inductive AfterCall (cr : Crypto) (email userId submitted : String)
    (r : Recorded AuthStore FactorNote) : Recorded AuthStore FactorNote → Prop
  | quiet {t : AuthStore} (ht : r.state.SameCounters t) :
      AfterCall cr email userId submitted r ⟨t, r.log⟩
  | right {t : AuthStore} (hclock : t.clock = r.state.clock) :
      AfterCall cr email userId submitted r ⟨t, r.log ++ [.right]⟩
  | cleared {t : AuthStore} (hclock : t.clock = r.state.clock)
      (hlive : t.live (acctKey email) = none) : AfterCall cr email userId submitted r ⟨t, r.log⟩
  | wrong {t : AuthStore} (h : WrongCode cr userId r.state submitted)
      (hbudget : r.state.counted (acctKey email) < LOGIN_ACCOUNT_LIMIT)
      (hclock : t.clock = r.state.clock)
      (hcharged : t.counted (acctKey email) = r.state.counted (acctKey email) + 1) :
      AfterCall cr email userId submitted r ⟨t, r.log ++ [.wrong r.state.clock]⟩

theorem AuthStore.SameCounters.trans {s t u : AuthStore} (h : s.SameCounters t)
    (h' : t.SameCounters u) : s.SameCounters u :=
  ⟨h'.1.trans h.1, h'.2.trans h.2⟩

theorem AuthStore.SameCounters.live {s t : AuthStore} (h : s.SameCounters t) (key : String) :
    t.live key = s.live key := AuthStore.live_congr (by rw [h.1]) h.2

theorem AuthStore.SameCounters.counted {s t : AuthStore} (h : s.SameCounters t) (key : String) :
    t.counted key = s.counted key := AuthStore.counted_congr (by rw [h.1]) h.2

/-- What happens to accounts does not matter. -/
theorem AfterCall.congr {submitted : String} {t u : AuthStore} {log : List FactorNote}
    (h : AfterCall cr email userId submitted r ⟨t, log⟩) (htu : t.SameCounters u) :
    AfterCall cr email userId submitted r ⟨u, log⟩ := by
  cases h with
  | quiet ht => exact .quiet (ht.trans htu)
  | right hclock => exact .right (htu.2.trans hclock)
  | cleared hclock hlive => exact .cleared (htu.2.trans hclock) ((htu.live _).trans hlive)
  | wrong h hbudget hclock hcharged =>
      exact .wrong h hbudget (htu.2.trans hclock) ((htu.counted _).trans hcharged)

/-- A verdict that is not charged. -/
theorem Judged.afterCall (email : String) {submitted : String} {res : Except Err Bool}
    {t : Recorded AuthStore FactorNote} (h : Judged cr userId submitted r res t)
    (hres : ¬ WrongCode cr userId r.state submitted ∨ res ≠ .ok false) :
    AfterCall cr email userId submitted r t := by
  cases h with
  | none => exact .quiet ⟨rfl, rfl⟩
  | right _ ht => exact .right ht.2
  | wrong h =>
      rcases hres with hres | hres
      · exact absurd h hres
      · exact absurd rfl hres

/-- Disabling with a code that is not wrong. -/
theorem disableTotpAction_afterCall (code : Option String)
    (hcode : ¬ WrongCode cr userId r.state (code.getD "")) :
    Evaluates cr userId (fun _ t ↦ AfterCall cr email userId (code.getD "") r t)
      (disableTotpAction userId code) r := by
  have hdisable : Evaluates cr userId (fun _ t ↦ AfterCall cr email userId (code.getD "") r t)
      (disableTotp userId (code.getD "")) r := by
    refine .await rfl (fun found _ ↦ ?_) fun e he ↦ nomatch he
    show Evaluates cr userId _ _ r
    cases found with
    | none => exact .quiet ⟨rfl, rfl⟩
    | some user =>
        dsimp only
        cases user.factor with
        | none => exact .quiet ⟨rfl, rfl⟩
        | some secret =>
            refine .bind (verifySecondFactor_judged _) (fun b t ht ↦ ?_) fun e t ht ↦ ?_
            · have hafter := ht.afterCall email (.inl hcode)
              cases b with
              | false => exact hafter
              | true =>
                  have hcounters := updateUser_sameCounters t.state userId
                    ({ · with totpEnabled := false, totpSecret := none, totpBackupCodes := [] })
                  refine .await rfl (fun _ _ ↦ ?_) fun e _ ↦ hafter.congr hcounters
                  exact .call rfl (hafter.congr hcounters)
            · exact ht.afterCall email (.inl hcode)
  refine (wp_tryCatch _ _ _).mpr ((wp_bind _ _ _).mpr (wp_mono hdisable fun res t ht ↦ ?_))
  cases res with
  | ok _ => exact ht
  | error e => cases e <;> exact ht

/-- Settling an attempt with the password of the account, as long as there is budget left. -/
theorem settleAttempt_afterCall (ip : String) (data : Credentials) (user : AuthenticatedUser)
    (hid : user.id = userId)
    (hbudget : r.state.counted (acctKey data.email) < LOGIN_ACCOUNT_LIMIT) :
    Evaluates cr userId (fun _ t ↦ AfterCall cr data.email userId (data.totp.getD "") r t)
      (settleAttempt ip data (some user)) r := by
  rw [settleAttempt, resetRateLimit_eq, consumeRateLimit_eq, hid]
  refine .bind (verifySecondFactor_judged _) (fun b t ht ↦ ?_) fun e t ht ↦ ?_
  · cases b with
    | true =>
        refine .call rfl ?_
        cases ht with
        | none => exact .cleared rfl (by simp [AuthStore.serve, AuthStore.live])
        | right _ ht => exact .right ht.2
    | false =>
        refine .call rfl ?_
        cases ht with
        | none h => exact absurd rfl h
        | right h => exact absurd rfl h
        | wrong h => exact .wrong h hbudget rfl (AuthStore.counted_charge (by decide))
  · exact ht.afterCall _ (.inr (by simp))

/-- A sign-in with the password of the account. -/
theorem authorize_afterCall (ip : String) (data : Credentials)
    (hsubmits : Submits cr email userId r.state (.signIn ip data)) :
    Evaluates cr userId (fun _ t ↦ AfterCall cr email userId (data.totp.getD "") r t)
      (authorize ip (some data)) r := by
  obtain ⟨rfl, hfound⟩ := hsubmits
  obtain ⟨⟨id, user⟩, huser, hpassword⟩ := (Option.any_eq_true _ _).mp hfound
  rw [decide_eq_true_eq] at hpassword
  obtain ⟨rfl, hpassword⟩ := hpassword
  obtain ⟨passwordHash, hhash, hcompare⟩ := (Option.any_eq_true _ _).mp hpassword
  rw [authorize, isRateLimited_eq, isRateLimited_eq]
  refine .call rfl (.call rfl ?_)
  show Evaluates cr id _ (if [limits _ _, limits LOGIN_ACCOUNT_LIMIT
    (.ok ((r.state.live (acctKey data.email)).map (·.count)))].any _ then _ else _) r
  split
  · exact .quiet ⟨rfl, rfl⟩
  · rename_i hblocked
    have hbudget : r.state.counted (acctKey data.email) < LOGIN_ACCOUNT_LIMIT := by
      rw [Bool.not_eq_true, List.any_cons, List.any_cons, Bool.or_eq_false_iff,
        Bool.or_eq_false_iff] at hblocked
      have hlimits := hblocked.2.1
      cases hlive : r.state.live (acctKey data.email) with
      | none => simp [AuthStore.counted, hlive, LOGIN_ACCOUNT_LIMIT]
      | some c => simpa [AuthStore.counted, hlive, limits] using hlimits
    refine .bind (R := fun res t ↦ ∃ a : AuthenticatedUser, a.id = id ∧ res = .ok (some a) ∧ t = r)
      ?_ ?_ ?_
    · refine .await rfl (fun found hfound ↦ ?_) fun e he ↦ by cases he
      obtain rfl : _ = found := Except.ok.inj hfound
      rw [huser, Option.bind_some, hhash]
      refine .await rfl (fun b hb ↦ ?_) fun e he ↦ by cases he
      obtain rfl : _ = b := Except.ok.inj hb
      rw [hcompare]
      exact ⟨_, rfl, rfl, rfl⟩
    · rintro _ _ ⟨a, ha, hres, rfl⟩
      obtain rfl := Except.ok.inj hres
      exact settleAttempt_afterCall ip data a ha hbudget
    · rintro _ _ ⟨a, ha, hres, rfl⟩
      cases hres

end Calls

/-! ## The bound -/

/-- In any fifteen minutes there are no more wrong codes than the limit. -/
def Windowed (times : List Int) : Prop :=
  ∀ t, (times.filter fun w ↦ t ≤ w ∧ w ≤ t + LOGIN_WINDOW_MS).length ≤ LOGIN_ACCOUNT_LIMIT

/-- The next window begins late enough. -/
theorem Windowed.append {old cur : List Int} (hold : Windowed old)
    (hlate : ∀ o ∈ old, ∀ c ∈ cur, o + LOGIN_WINDOW_MS < c)
    (hcur : cur.length ≤ LOGIN_ACCOUNT_LIMIT) : Windowed (old ++ cur) := by
  intro t
  rw [List.filter_append, List.length_append]
  by_cases hin : ∃ c ∈ cur, c ≤ t + LOGIN_WINDOW_MS
  · obtain ⟨c, hc, hct⟩ := hin
    have hnone : old.filter (fun w ↦ t ≤ w ∧ w ≤ t + LOGIN_WINDOW_MS) = [] := by
      rw [List.filter_eq_nil_iff]
      intro o ho
      have := hlate o ho c hc
      simp only [decide_eq_true_eq]
      omega
    rw [hnone, List.length_nil, Nat.zero_add]
    exact (List.length_filter_le _ _).trans hcur
  · have hnone : cur.filter (fun w ↦ t ≤ w ∧ w ≤ t + LOGIN_WINDOW_MS) = [] := by
      rw [List.filter_eq_nil_iff]
      intro c hc
      have : ¬ c ≤ t + LOGIN_WINDOW_MS := fun h ↦ hin ⟨c, hc, h⟩
      simp only [decide_eq_true_eq]
      omega
    rw [hnone, List.length_nil, Nat.add_zero]
    exact hold t

/-- The wrong codes since the counter's window has begun are counted, and the others are over
for long. -/
structure Budgeting (email : String) (s : AuthStore) (old cur : List Int) : Prop where
  settled : Windowed old
  late : ∀ o ∈ old, ∀ c ∈ cur, o + LOGIN_WINDOW_MS < c
  limited : cur.length ≤ LOGIN_ACCOUNT_LIMIT
  counted : (s.live (acctKey email)).isSome → cur.length ≤ s.counted (acctKey email)
  begun : cur = [] → old = []
  past : ∀ c ∈ cur, c ≤ s.clock

section Bound

variable {cr : Crypto} {email userId submitted : String} {s t : AuthStore} {old cur : List Int}

/-- Nothing has been counted. -/
theorem Budgeting.nil (email : String) (s : AuthStore) : Budgeting email s [] [] where
  settled _ := Nat.zero_le _
  late _ ho := absurd ho List.not_mem_nil
  limited := Nat.zero_le _
  counted _ := Nat.zero_le _
  begun _ := rfl
  past _ hc := absurd hc List.not_mem_nil

theorem Budgeting.windowed (h : Budgeting email s old cur) : Windowed (old ++ cur) :=
  h.settled.append h.late h.limited

/-- The counter is as before, or gone. -/
theorem Budgeting.congr (h : Budgeting email s old cur) (hclock : s.clock ≤ t.clock)
    (hcounter : t.live (acctKey email) = none ∨ (s.live (acctKey email)).isSome ∧
      t.counted (acctKey email) = s.counted (acctKey email)) : Budgeting email t old cur where
  settled := h.settled
  late := h.late
  limited := h.limited
  counted hlive := by
    rcases hcounter with hnone | ⟨hsome, heq⟩
    · rw [hnone] at hlive
      cases hlive
    · rw [heq]
      exact h.counted hsome
  begun := h.begun
  past c hc := Int.le_trans (h.past c hc) hclock

/-- A wrong code that is charged to a window that has begun. -/
theorem Budgeting.charge (h : Budgeting email s old cur)
    (hlive : (s.live (acctKey email)).isSome)
    (hbudget : s.counted (acctKey email) < LOGIN_ACCOUNT_LIMIT) (hclock : t.clock = s.clock)
    (hcharged : t.counted (acctKey email) = s.counted (acctKey email) + 1) :
    Budgeting email t old (cur ++ [s.clock]) where
  settled := h.settled
  late o ho c hc := by
    rcases List.mem_append.mp hc with hc | hc
    · exact h.late o ho c hc
    · obtain rfl := List.mem_singleton.mp hc
      cases hcur : cur with
      | nil =>
          rw [h.begun hcur] at ho
          exact absurd ho List.not_mem_nil
      | cons d ds =>
          have hd : d ∈ cur := hcur ▸ List.mem_cons_self
          exact Int.lt_of_lt_of_le (h.late o ho d hd) (h.past d hd)
  limited := by
    have := h.counted hlive
    rw [List.length_append, List.length_singleton]
    omega
  counted _ := by
    have := h.counted hlive
    rw [List.length_append, List.length_singleton]
    omega
  begun hnil := by simp at hnil
  past c hc := by
    rw [hclock]
    rcases List.mem_append.mp hc with hc | hc
    · exact h.past c hc
    · exact Int.le_of_eq (List.mem_singleton.mp hc)

/-- A wrong code with which a window begins. -/
theorem Budgeting.begin (h : Budgeting email s old cur)
    (hlate : ∀ w ∈ old ++ cur, w + LOGIN_WINDOW_MS < s.clock) (hclock : t.clock = s.clock)
    (hcharged : 1 ≤ t.counted (acctKey email)) :
    Budgeting email t (old ++ cur) [s.clock] where
  settled := h.windowed
  late o ho c hc := by
    obtain rfl := List.mem_singleton.mp hc
    exact hlate o ho
  limited := (by decide : 1 ≤ LOGIN_ACCOUNT_LIMIT)
  counted _ := hcharged
  begun hnil := by simp at hnil
  past c hc := by
    rw [hclock]
    exact Int.le_of_eq (List.mem_singleton.mp hc)

/-- A call whose wrong codes are paced. -/
theorem AfterCall.budgeting {r u : Recorded AuthStore FactorNote}
    (h : AfterCall cr email userId submitted r u) (hb : Budgeting email r.state old cur)
    (hlog : wrongCodes r.log = old ++ cur)
    (hpaced : WrongCode cr userId r.state submitted → r.state.live (acctKey email) = none →
      ∀ clock ∈ wrongCodes r.log, clock + LOGIN_WINDOW_MS < r.state.clock) :
    ∃ old' cur', Budgeting email u.state old' cur' ∧ wrongCodes u.log = old' ++ cur' := by
  cases h with
  | quiet ht =>
      refine ⟨old, cur, hb.congr (Int.le_of_eq ht.2.symm) ?_, hlog⟩
      rw [ht.live, ht.counted]
      cases r.state.live (acctKey email) with
      | none => exact .inl rfl
      | some c => exact .inr ⟨rfl, rfl⟩
  | right hclock => exact ⟨[], [], .nil _ _, wrongCodes_right _⟩
  | cleared hclock hlive => exact ⟨old, cur, hb.congr (Int.le_of_eq hclock.symm) (.inl hlive), hlog⟩
  | wrong h hbudget hclock hcharged =>
      rw [wrongCodes_wrong]
      cases hlive : r.state.live (acctKey email) with
      | some c =>
          refine ⟨old, cur ++ [r.state.clock], ?_, by rw [hlog, List.append_assoc]⟩
          exact hb.charge (by rw [hlive]; rfl) hbudget hclock hcharged
      | none =>
          refine ⟨old ++ cur, [r.state.clock], ?_, by rw [hlog]⟩
          exact hb.begin (hlog ▸ hpaced h hlive) hclock (hcharged ▸ Nat.le_add_left 1 _)

/-- What a call evaluates, it evaluates when it runs to its end. -/
theorem Evaluates.runBy {α : Type} {r : Recorded AuthStore FactorNote} {p : AuthM α}
    {Q : Recorded AuthStore FactorNote → Prop} (h : Evaluates cr userId (fun _ t ↦ Q t) p r) :
    Q (Concurrent.runBy ((authServer cr).watching (watchFactor cr userId)) (fun _ _ ↦ .served)
      p r).2 :=
  (forall_noFailure_iff (Q := fun _ t ↦ Q t)).mp fun _ _ heval ↦ heval.of_wp h

/-- One after the other, sign-ins that are paced evaluate no more wrong codes in any fifteen
minutes than the limit admits, as long as disabling is not tried with a wrong code. -/
theorem wrongCodes_bounded {s₀ : AuthStore} {r : Recorded AuthStore FactorNote}
    (h : Reach (factorStep cr userId) (fun r l ↦ Submits cr email userId r.state l ∧
      Paced cr email userId r l) ⟨s₀, []⟩ r) (t : Int) :
    ((wrongCodes r.log).filter fun w ↦ t ≤ w ∧ w ≤ t + LOGIN_WINDOW_MS).length ≤
      LOGIN_ACCOUNT_LIMIT := by
  have hinv : ∃ old cur, Budgeting email r.state old cur ∧ wrongCodes r.log = old ++ cur := by
    refine h.invariant (I := fun r : Recorded AuthStore FactorNote ↦
      ∃ old cur, Budgeting email r.state old cur ∧ wrongCodes r.log = old ++ cur)
      ⟨[], [], .nil _ _, rfl⟩ ?_
    rintro r l r' ⟨old, cur, hb, hlog⟩ ⟨hsubmits, hpaced⟩ hs
    cases l with
    | signIn ip data =>
        obtain rfl := Option.some.inj hs
        exact (Evaluates.runBy (authorize_afterCall ip data hsubmits)).budgeting hb hlog hpaced
    | disable code =>
        obtain rfl := Option.some.inj hs
        exact (Evaluates.runBy (disableTotpAction_afterCall code hpaced)).budgeting hb hlog
          fun hwrong ↦ absurd hwrong hpaced
    | tick ms =>
        obtain rfl := Option.some.inj hs
        refine ⟨old, cur, hb.congr (Int.le_add_of_nonneg_right (Int.natCast_nonneg ms)) ?_, hlog⟩
        cases hlive : r.state.live (acctKey email) with
        | none => exact .inl (AuthStore.live_tick ms hlive)
        | some c =>
            rcases r.state.counted_tick (acctKey email) ms with h | h
            · exact .inr ⟨rfl, h⟩
            · exact .inl h.2
  obtain ⟨old, cur, hb, hlog⟩ := hinv
  rw [hlog]
  exact hb.windowed t

end Bound

def enrolledUser : UserAccount where
  email := "u@x"
  passwordHash := some "secret"
  totpSecret := some "A"
  totpEnabled := true

/-- An account with its second factor enabled. -/
def enrolledAccount : AuthStore where
  clock := 0
  users := ⟨[("u", enrolledUser)], by decide⟩
  counters := ∅
  auditLogs := []

/-- Nobody counts the wrong codes with which disabling is tried. -/
theorem wrongCodes_unbounded :
    ¬ ∀ r, Reach (factorStep plainCrypto "u")
        (fun r l ↦ Submits plainCrypto "u@x" "u" r.state l) ⟨enrolledAccount, []⟩ r →
      ∀ t, ((wrongCodes r.log).filter fun w ↦ t ≤ w ∧ w ≤ t + LOGIN_WINDOW_MS).length ≤
        LOGIN_ACCOUNT_LIMIT := by
  obtain ⟨r, hr, hmany⟩ : ∃ r, Reach (factorStep plainCrypto "u")
        (fun r l ↦ Submits plainCrypto "u@x" "u" r.state l) ⟨enrolledAccount, []⟩ r ∧
      wrongCodes r.log = List.replicate 9 0 :=
    Reach.exists_of_exec (List.replicate 9 (.disable (some "nope"))) (by decide +kernel)
  intro h
  have := h r hr 0
  rw [hmany] at this
  exact absurd this (by decide)

/-- Of nine sign-ins with a wrong code eight are evaluated, and the last is turned away. -/
theorem wrongCodes_bounded_signIns :
    ∃ r : Recorded AuthStore FactorNote, wrongCodes r.log = List.replicate 8 0 ∧
      ((wrongCodes r.log).filter fun w ↦ 0 ≤ w ∧ w ≤ 0 + LOGIN_WINDOW_MS).length ≤
        LOGIN_ACCOUNT_LIMIT := by
  obtain ⟨r, hr, hlog⟩ : ∃ r, Reach (factorStep plainCrypto "u")
        (fun r l ↦ Submits plainCrypto "u@x" "u" r.state l ∧ Paced plainCrypto "u@x" "u" r l)
        ⟨enrolledAccount, []⟩ r ∧ wrongCodes r.log = List.replicate 8 0 :=
    Reach.exists_of_exec (List.replicate 9 (.signIn "1.2.3.4"
      { email := "u@x", password := "secret", totp := some "nope" })) (by decide +kernel)
  exact ⟨r, hlog, wrongCodes_bounded hr 0⟩

end Zenstier
