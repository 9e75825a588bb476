import Mathlib.Algebra.BigOperators.Group.Finset.Piecewise
import Mathlib.Data.Fintype.Basic
import Zenstier.Auth.Service
import Zenstier.Concurrent.History

/-!
# Password guesses

`authorize` reads the account's count of failures, verifies the password, and charges the
account if that fails.  Between the look and the charge any number of other attempts may pass
the same look.  An attempt is `Underway` in between.  The bound on the guesses in a window of the
counter holds as long as what is underway is counted in advance.
-/

namespace Zenstier

open Concurrent Prog

/-! ## Counting threads -/

universe u

theorem card_filter_update {ι : Type} {X : Type u} [Fintype ι] [DecidableEq ι] (P : ι → X → Prop)
    [∀ i, DecidablePred (P i)] (f : ι → X) (i : ι) (x : X) :
    (Finset.univ.filter fun j ↦ P j (Function.update f i x j)).card + (if P i (f i) then 1 else 0) =
      (Finset.univ.filter fun j ↦ P j (f j)).card + (if P i x then 1 else 0) := by
  have hrest : ∑ j ∈ Finset.univ.erase i, (if P j (Function.update f i x j) then 1 else 0) =
      ∑ j ∈ Finset.univ.erase i, (if P j (f j) then 1 else 0) := by
    refine Finset.sum_congr rfl fun j hj ↦ ?_
    rw [Function.update_of_ne (Finset.ne_of_mem_erase hj)]
  rw [Finset.card_filter, Finset.card_filter, ← Finset.add_sum_erase _ _ (Finset.mem_univ i),
    ← Finset.add_sum_erase _ _ (Finset.mem_univ i), hrest, Function.update_self]
  omega

/-! ## Attempts -/

namespace AuthOp

/-- What an attempt asks for once it has passed the limiter. -/
def Late : ∀ β : Type, AuthOp β → Prop
  | _, .getCounter _ => False
  | _, _ => True

/-- What an attempt asks for once it has verified the password. -/
def Spent : ∀ β : Type, AuthOp β → Prop
  | _, .getCounter _ | _, .findUserByEmail _ | _, .verifyPassword _ _ => False
  | _, _ => True

instance (β : Type) (op : AuthOp β) : Decidable (Late β op) := by
  apply AuthOp.casesOn (motive := fun β op ↦ Decidable (Late β op)) op <;> intros <;>
    first | exact .isTrue trivial | exact .isFalse id

instance (β : Type) (op : AuthOp β) : Decidable (Spent β op) := by
  apply AuthOp.casesOn (motive := fun β op ↦ Decidable (Spent β op)) op <;> intros <;>
    first | exact .isTrue trivial | exact .isFalse id

/-- The request leaves the counter of an account alone. -/
def Foreign (email : String) : ∀ β : Type, AuthOp β → Prop
  | _, .charge key _ _ | _, .deleteCounter key => key ≠ acctKey email
  | _, _ => True

end AuthOp

/-- A sign-in, from an address. -/
structure Attempt where
  ip : String
  parsed : Option Credentials

/-- The account that is attempted. -/
def Attempt.email (a : Attempt) : Option String := a.parsed.map (·.email)

/-- Sign-ins at the same time. -/
abbrev LoginPool (ι : Type) := Pool ι AuthOp Err (Option AuthenticatedUser) AuthStore

section Runs

variable {ι : Type} [DecidableEq ι] [Fintype ι]

/-- The attempts at an account whose next request satisfies `P`. -/
def attemptsAt (P : ∀ β : Type, AuthOp β → Prop) [∀ β op, Decidable (P β op)] (email : String)
    (attempts : ι → Attempt) (c : LoginPool ι) : Nat :=
  (Finset.univ.filter fun i ↦ (attempts i).email = some email ∧ AtRequest P (c.thread i)).card

/-- The attempts at an account that have passed the limiter and are not over. -/
def underway (email : String) (attempts : ι → Attempt) (c : LoginPool ι) : Nat :=
  attemptsAt AuthOp.Late email attempts c

/-- What is noted of an account. -/
inductive GuessNote
  /-- A password is verified. -/
  | guess
  | signedIn
  /-- The window of the counter ends. -/
  | expired
deriving DecidableEq, Repr

/-- The guesses since the window has begun. -/
def guessesInWindow (log : List GuessNote) : Nat := (log.reverse.takeWhile (· = .guess)).length

/-- What is noted of a request that takes effect. -/
def noteAttempt (email : String) (a : Attempt) (β : Type) : AuthOp β → List GuessNote
  | .verifyPassword _ _ => if a.email = some email then [.guess] else []
  | .deleteCounter key => if key = acctKey email then [.signedIn] else []
  | _ => []

/-- Takes note of the guesses at an account, and of the ends of its windows. -/
def watchGuesses (email : String) (attempts : ι → Attempt) (c : LoginPool ι) :
    Event ι Err Nat → List GuessNote
  | .run i f => Pool.observe (fun i β op _ ↦ noteAttempt email (attempts i) β op) c
      (.run i f : Event ι Err Nat)
  | .env ms =>
      if (c.shared.live (acctKey email)).isSome ∧
          (c.shared.tick ms).live (acctKey email) = none then [.expired] else []

/-- A request of an attempt at the account, with `n` attempts underway: a look at the counter
lets the attempt pass only if there is budget left for it, counting those; and once it has
passed, no request of it fails. -/
def Budgeted (cr : Crypto) (email : String) (n : Nat) (s : AuthStore) (f : Fate Err) :
    ∀ β : Type, AuthOp β → Prop
  | _, .getCounter key => f = .served → key = acctKey email →
      s.counted key < LOGIN_ACCOUNT_LIMIT → s.counted key + n < LOGIN_ACCOUNT_LIMIT
  | _, op => f = .served ∧ (s.serve cr op).1.isOk

/-- The schedule budgets for what is underway. -/
def BudgetsAhead (cr : Crypto) (email : String) (attempts : ι → Attempt)
    (r : Recorded (LoginPool ι) GuessNote) : Event ι Err Nat → Prop
  | .run i f => (attempts i).email = some email →
      AtRequest (Budgeted cr email (underway email attempts r.state) r.state.shared f)
        (r.state.thread i)
  | .env _ => True

end Runs

/-! ## What an attempt does -/

/-- Once an attempt has passed the limiter its requests do not fail. -/
def Answered : ∀ β : Type, AuthOp β → Except Err β → Prop
  | _, .getCounter _, _ => True
  | _, _, r => ∃ b, r = .ok b

/-- How an attempt at an account goes on.  Past the limiter it verifies one password, and from
there on it is not over before it has charged the account or cleared its counter. -/
def GoesOn (email : String) : ∀ β : Type, AuthOp β →
    (Except Err β → AuthM (Option AuthenticatedUser)) → Prop
  | _, .getCounter key, k =>
      (∀ r, ¬ AtRequest AuthOp.Spent (k r)) ∧
      (key ≠ acctKey email → ∀ r, ¬ AtRequest AuthOp.Late (k r)) ∧
      (key = acctKey email → ∀ r, (∀ c, r = .ok c → LOGIN_ACCOUNT_LIMIT ≤ c.getD 0) →
        ¬ AtRequest AuthOp.Late (k r))
  | _, .findUserByEmail _, _ => True
  | _, .verifyPassword _ _, k => ∀ b, AtRequest AuthOp.Spent (k (.ok b))
  | _, .charge key _ windowMs, k =>
      (key = acctKey email → 0 ≤ windowMs ∧ ∀ w, ¬ AtRequest AuthOp.Late (k (.ok w))) ∧
      (key ≠ acctKey email → ∀ w, AtRequest AuthOp.Spent (k (.ok w)))
  | _, .deleteCounter key, _ => key = acctKey email
  | _, _, k => ∀ b, AtRequest AuthOp.Spent (k (.ok b))

/-- The attempt goes on like this at every request. -/
abbrev Proceeds (email : String) (p : AuthM (Option AuthenticatedUser)) : Prop :=
  Always Answered (GoesOn email) p

/-- Past the password, and on the way to a charge or a cleared counter. -/
def Resolves (email : String) (p : AuthM (Option AuthenticatedUser)) : Prop :=
  AtRequest AuthOp.Spent p ∧ Proceeds email p

/-- The requests of the second factor. -/
def AuthOp.Factor : ∀ β : Type, AuthOp β → Prop
  | _, .findUser _ | _, .verifyCode _ _ | _, .compare _ _ | _, .setBackupCodes _ _
  | _, .createAuditLog _ => True
  | _, _ => False

section Programs

variable {email ip : String} {β : Type}

theorem Resolves.await {op : AuthOp β} {k : β → AuthM (Option AuthenticatedUser)}
    (hop : AuthOp.Factor β op) (hk : ∀ b, Resolves email (k b)) :
    Resolves email (.perform op >>= k) := by
  cases op with
  | findUser | verifyCode | compare | setBackupCodes | createAuditLog =>
      refine ⟨trivial, fun b ↦ (hk b).1, fun r hr ↦ ?_⟩
      obtain ⟨b, rfl⟩ := hr
      exact (hk b).2
  | findUserByEmail | verifyPassword | hash | setSecret | enable | disable | getCounter | charge
  | deleteCounter => exact hop.elim

/-- Comparing recovery codes, and what follows. -/
theorem redeem_resolves {f : Bool → AuthM (Option AuthenticatedUser)}
    (hf : ∀ b, Resolves email (f b)) (userId normalised : String) (codes hashes : List String) :
    Resolves email (redeem userId normalised codes hashes >>= f) := by
  induction hashes with
  | nil => exact hf false
  | cons hash hashes ih =>
      rw [redeem, Prog.bind_assoc]
      refine .await trivial fun b ↦ ?_
      cases b with
      | false => exact ih
      | true =>
          rw [if_pos rfl, Prog.bind_assoc]
          refine .await trivial fun _ ↦ ?_
          rw [Prog.bind_assoc]
          exact .await trivial fun _ ↦ hf true

theorem verifySecondFactor_resolves {f : Bool → AuthM (Option AuthenticatedUser)}
    (hf : ∀ b, Resolves email (f b)) (userId submitted : String) :
    Resolves email (verifySecondFactor userId submitted >>= f) := by
  rw [verifySecondFactor, Prog.bind_assoc]
  refine .await trivial fun found ↦ ?_
  cases found with
  | none => exact hf true
  | some user =>
      dsimp only
      cases user.factor with
      | none => exact hf true
      | some secret =>
          dsimp only
          rw [Prog.bind_assoc]
          refine .await trivial fun b ↦ ?_
          cases b with
          | false => exact redeem_resolves hf _ _ _ _
          | true => exact hf true

theorem settleAttempt_resolves (data : Credentials) (user : Option AuthenticatedUser) :
    Resolves data.email (settleAttempt ip data user) := by
  cases user with
  | none =>
      rw [settleAttempt, consumeRateLimit_eq, consumeRateLimit_eq]
      refine ⟨trivial, ⟨fun h ↦ absurd h (ipKey_ne_acctKey _ _), fun _ _ ↦ trivial⟩, fun r _ ↦ ?_⟩
      exact ⟨⟨fun _ ↦ ⟨by decide, fun _ ↦ id⟩, fun h ↦ absurd rfl h⟩, fun r _ ↦ trivial⟩
  | some user =>
      rw [settleAttempt]
      refine verifySecondFactor_resolves (fun b ↦ ?_) _ _
      rw [resetRateLimit_eq, consumeRateLimit_eq]
      cases b with
      | true => exact ⟨trivial, rfl, fun _ _ ↦ trivial⟩
      | false =>
          exact ⟨trivial, ⟨fun _ ↦ ⟨by decide, fun _ ↦ id⟩, fun h ↦ absurd rfl h⟩,
            fun _ _ ↦ trivial⟩

/-- What an attempt does once the limiter has let it pass. -/
theorem authenticate_proceeds {f : Option AuthenticatedUser → AuthM (Option AuthenticatedUser)}
    (hf : ∀ user, Resolves email (f user)) (password : String) :
    Proceeds email (authenticateUser email password >>= f) := by
  rw [authenticateUser, Prog.bind_assoc]
  refine ⟨trivial, fun r hr ↦ ?_⟩
  obtain ⟨found, rfl⟩ := hr
  show Proceeds email (_ >>= f)
  cases found.bind fun e ↦ (truthy e.2.passwordHash).map (e, ·) with
  | none =>
      refine ⟨fun b ↦ (hf none).1, fun r hr ↦ ?_⟩
      obtain ⟨b, rfl⟩ := hr
      exact (hf none).2
  | some e =>
      refine ⟨fun b ↦ ?_, fun r hr ↦ ?_⟩
      · cases b with
        | false => exact (hf none).1
        | true => exact (hf _).1
      · obtain ⟨b, rfl⟩ := hr
        cases b with
        | false => exact (hf none).2
        | true => exact (hf _).2

theorem authorize_proceeds (data : Credentials) :
    Proceeds data.email (authorize ip (some data)) := by
  rw [authorize, isRateLimited_eq, isRateLimited_eq]
  -- the limiter looks at the address, then at the account
  refine ⟨⟨fun _ ↦ id, fun _ _ ↦ id, fun h ↦ absurd h (ipKey_ne_acctKey _ _)⟩, fun r _ ↦
    ⟨⟨fun r' ↦ ?_, fun h ↦ absurd rfl h, fun _ r' hr' ↦ ?_⟩, fun r' _ ↦ ?_⟩⟩
  · show ¬ AtRequest AuthOp.Spent (if _ then _ else _)
    split
    · exact id
    · exact id
  · have hblocked : limits LOGIN_ACCOUNT_LIMIT r' = true := by
      cases r' with
      | error e => rfl
      | ok c =>
          have hc := hr' c rfl
          cases c with
          | none => cases hc
          | some c => exact decide_eq_true hc
    show ¬ AtRequest AuthOp.Late (if [limits _ r, limits _ r'].any id then _ else _)
    rw [if_pos (by simp [hblocked])]
    exact id
  · show Proceeds data.email (if _ then _ else _)
    split
    · trivial
    · exact authenticate_proceeds (settleAttempt_resolves data) data.password

/-- An attempt at another account leaves the counter alone. -/
theorem authorize_foreign {parsed : Option Credentials}
    (h : parsed.map (·.email) ≠ some email) :
    Only (AuthOp.Foreign email) (authorize ip parsed) := by
  cases parsed with
  | none => trivial
  | some data =>
      have hacct : acctKey data.email ≠ acctKey email := fun heq ↦
        h (congrArg some (acctKey_injective heq))
      have hfactor : ∀ userId submitted,
          Only (AuthOp.Foreign email) (verifySecondFactor userId submitted) := fun _ _ ↦
        verifySecondFactor_only trivial (fun _ _ ↦ trivial) (fun _ _ ↦ trivial) (fun _ ↦ trivial)
          (fun _ ↦ trivial) _
      rw [authorize, isRateLimited_eq, isRateLimited_eq]
      refine Only.bind ?_ fun blocked ↦ ?_
      · exact Only.awaitAll (by simp [AuthOp.Foreign])
      · split
        · trivial
        · refine Only.bind ?_ fun user ↦ ?_
          · refine Only.await trivial fun found ↦ ?_
            split
            · exact Only.await trivial fun _ ↦ trivial
            · refine Only.await trivial fun b ↦ ?_
              cases b <;> trivial
          · cases user with
            | none =>
                rw [settleAttempt, consumeRateLimit_eq, consumeRateLimit_eq]
                refine Only.bind ?_ fun _ ↦ trivial
                exact Only.awaitAll (by simp [AuthOp.Foreign, ipKey_ne_acctKey, hacct])
            | some user =>
                rw [settleAttempt]
                refine (hfactor _ _).bind fun b ↦ ?_
                rw [resetRateLimit_eq, consumeRateLimit_eq]
                cases b with
                | true => exact (only_call _ _).mpr ⟨hacct, fun _ ↦ trivial⟩
                | false => exact (only_call _ _).mpr ⟨hacct, fun _ ↦ trivial⟩

end Programs

/-! ## The bound -/

theorem guessesInWindow_guess (log : List GuessNote) :
    guessesInWindow (log ++ [.guess]) = guessesInWindow log + 1 := by
  simp [guessesInWindow]

theorem guessesInWindow_end (log : List GuessNote) {note : GuessNote} (h : note ≠ .guess) :
    guessesInWindow (log ++ [note]) = 0 := by
  simp [guessesInWindow, h]

/-- The counter of the account is as before. -/
theorem AuthOp.Foreign.counted {email : String} {β : Type} {op : AuthOp β}
    (hop : AuthOp.Foreign email β op) (cr : Crypto) (s : AuthStore) :
    (s.serve cr op).2.counted (acctKey email) = s.counted (acctKey email) := by
  cases op with
  | charge => exact AuthStore.counted_charge_of_ne (Ne.symm hop)
  | deleteCounter => exact AuthStore.counted_deleteCounter_of_ne (Ne.symm hop)
  | setSecret | enable | disable | setBackupCodes =>
      unfold AuthStore.serve AuthStore.updateUser
      dsimp only
      split <;> rfl
  | findUser | findUserByEmail | verifyPassword | verifyCode | compare | hash | createAuditLog
  | getCounter => rfl

/-- No note is taken of an attempt at another account. -/
theorem noteAttempt_foreign {email : String} {a : Attempt} (ha : a.email ≠ some email) {β : Type}
    {op : AuthOp β} (hop : AuthOp.Foreign email β op) : noteAttempt email a β op = [] := by
  cases op with
  | verifyPassword => exact if_neg ha
  | deleteCounter => exact if_neg hop
  | _ => rfl

section Bound

variable {ι : Type} [DecidableEq ι] [Fintype ι] {cr : Crypto} {email : String}
  {attempts : ι → Attempt} {c : LoginPool ι} {r r' : Recorded (LoginPool ι) GuessNote}

variable (cr) in
/-- One request moves at most its own attempt. -/
theorem attemptsAt_resume {P : ∀ β : Type, AuthOp β → Prop} [∀ β op, Decidable (P β op)] {i : ι}
    (hemail : (attempts i).email = some email) {f : Fate Err} {β : Type} {op : AuthOp β}
    {k : Except Err β → AuthM (Option AuthenticatedUser)} (hi : c.thread i = .call op k) :
    attemptsAt P email attempts (c.resume (authServer cr) i f op k) + (if P β op then 1 else 0) =
      attemptsAt P email attempts c +
        if AtRequest P (k ((authServer cr).reply f op c.shared)) then 1 else 0 := by
  have h := card_filter_update (fun j p ↦ (attempts j).email = some email ∧ AtRequest P p)
    c.thread i (k ((authServer cr).reply f op c.shared))
  simp only [hi, hemail, true_and, atRequest_call] at h
  exact h

/-- An attempt at another account does not count. -/
theorem attemptsAt_resume_foreign {P : ∀ β : Type, AuthOp β → Prop} [∀ β op, Decidable (P β op)]
    {i : ι} (hemail : (attempts i).email ≠ some email) {f : Fate Err} {β : Type} {op : AuthOp β}
    {k : Except Err β → AuthM (Option AuthenticatedUser)} :
    attemptsAt P email attempts (c.resume (authServer cr) i f op k) =
      attemptsAt P email attempts c := by
  have h := card_filter_update (fun j p ↦ (attempts j).email = some email ∧ AtRequest P p)
    c.thread i (k ((authServer cr).reply f op c.shared))
  simp only [hemail, false_and, if_false, add_zero] at h
  exact h

theorem AuthOp.Spent.late {p : AuthM (Option AuthenticatedUser)} (h : AtRequest AuthOp.Spent p) :
    AtRequest AuthOp.Late p := by
  cases p with
  | pure a => exact h
  | throw e => exact h
  | call op k => cases op <;> first | exact h | trivial

omit [DecidableEq ι] in
theorem spent_le_underway (email : String) (attempts : ι → Attempt) (c : LoginPool ι) :
    attemptsAt AuthOp.Spent email attempts c ≤ underway email attempts c := by
  refine Finset.card_le_card fun i hi ↦ ?_
  rw [Finset.mem_filter] at hi ⊢
  exact ⟨hi.1, hi.2.1, AuthOp.Spent.late hi.2.2⟩

/-- Every guess in the window is charged or still to be charged, and there is budget for what
is underway. -/
def Balanced (guesses counted spent underway : Nat) : Prop :=
  guesses ≤ counted + spent ∧
    (counted + underway ≤ LOGIN_ACCOUNT_LIMIT ∨ underway = 0 ∧ guesses = 0)

/-- The books of an account. -/
structure WithinBudget (email : String) (attempts : ι → Attempt)
    (r : Recorded (LoginPool ι) GuessNote) : Prop where
  proceeds : ∀ i, (attempts i).email = some email → Proceeds email (r.state.thread i)
  foreign : ∀ i, (attempts i).email ≠ some email →
    Only (AuthOp.Foreign email) (r.state.thread i)
  balanced : Balanced (guessesInWindow r.log) (r.state.shared.counted (acctKey email))
    (attemptsAt AuthOp.Spent email attempts r.state) (underway email attempts r.state)

omit [DecidableEq ι] in
theorem WithinBudget.bound (h : WithinBudget email attempts r) :
    guessesInWindow r.log ≤ LOGIN_ACCOUNT_LIMIT := by
  obtain ⟨hguesses, hbudget⟩ := h.balanced
  have := spent_le_underway email attempts r.state
  omega

/-- Time passes, and perhaps the window ends. -/
theorem WithinBudget.env (h : WithinBudget email attempts r) {ms : Nat}
    (hs : Recorded.step (Pool.step (authServer cr) AuthStore.tick) (watchGuesses email attempts) r
      (.env ms) = some r') : WithinBudget email attempts r' := by
  obtain ⟨hstep, hlog⟩ := Recorded.step_eq_some hs
  have hstate := Pool.step_env hstep
  obtain ⟨state, log⟩ := r'
  dsimp only at hstate hlog
  subst hstate hlog
  refine ⟨h.proceeds, h.foreign, ?_⟩
  obtain ⟨hguesses, hbudget⟩ := h.balanced
  have hcounts : attemptsAt AuthOp.Spent email attempts
      ⟨r.state.shared.tick ms, r.state.thread⟩ = attemptsAt AuthOp.Spent email attempts r.state ∧
      underway email attempts ⟨r.state.shared.tick ms, r.state.thread⟩ =
        underway email attempts r.state := ⟨rfl, rfl⟩
  dsimp only
  rw [hcounts.1, hcounts.2, watchGuesses]
  split
  · rename_i hends
    have hzero : (r.state.shared.tick ms).counted (acctKey email) = 0 := by
      rw [AuthStore.counted, hends.2]
      rfl
    rw [guessesInWindow_end _ (by decide), hzero]
    unfold Balanced
    omega
  · rename_i hgoes
    rw [List.append_nil]
    rcases r.state.shared.counted_tick (acctKey email) ms with hsame | hends
    · rw [hsame]
      exact h.balanced
    · exact absurd hends hgoes

/-- A request of an attempt at another account. -/
theorem WithinBudget.foreign_run (h : WithinBudget email attempts r) {i : ι} {f : Fate Err}
    (hemail : (attempts i).email ≠ some email)
    (hs : Recorded.step (Pool.step (authServer cr) AuthStore.tick) (watchGuesses email attempts) r
      (.run i f) = some r') : WithinBudget email attempts r' := by
  obtain ⟨hstep, hlog⟩ := Recorded.step_eq_some hs
  obtain ⟨β, op, k, hi, hstate⟩ := Pool.step_run hstep
  have honly := h.foreign i hemail
  rw [hi, only_call] at honly
  have hnote : watchGuesses email attempts r.state (.run i f) = [] := by
    simp only [watchGuesses, Pool.observe, hi, noteAttempt_foreign hemail honly.1]
    cases f <;> rfl
  have hcounted : ((authServer cr).after f op r.state.shared).counted (acctKey email) =
      r.state.shared.counted (acctKey email) := by
    rcases (authServer cr).after_cases op r.state.shared f with hsame | hserved
    · rw [hsame]
    · rw [hserved]
      exact honly.1.counted cr _
  refine ⟨fun j hj ↦ ?_, fun j hj ↦ ?_, ?_⟩
  · have hji : j ≠ i := fun heq ↦ hemail (heq ▸ hj)
    rw [hstate, Pool.resume_thread_of_ne _ hji]
    exact h.proceeds j hj
  · rw [hstate]
    by_cases hji : j = i
    · subst hji
      rw [Pool.resume_thread_self]
      exact honly.2 _
    · rw [Pool.resume_thread_of_ne _ hji]
      exact h.foreign j hj
  · rw [hlog, hnote, List.append_nil, hstate, Pool.resume_shared, hcounted, underway,
      attemptsAt_resume_foreign hemail, attemptsAt_resume_foreign hemail]
    exact h.balanced

/-- The limiter looks at a counter. -/
theorem Balanced.look {key : String}
    {k : Except Err (Option Nat) → AuthM (Option AuthenticatedUser)} {i : ι} {f : Fate Err}
    (h : WithinBudget email attempts r)
    (hemail : (attempts i).email = some email) (hi : r.state.thread i = .call (.getCounter key) k)
    (hgoes : GoesOn email _ (.getCounter key) k)
    (hg : Budgeted cr email (underway email attempts r.state) r.state.shared f _
      (.getCounter key)) :
    Balanced (guessesInWindow r.log) (r.state.shared.counted (acctKey email))
      (attemptsAt AuthOp.Spent email attempts
        (r.state.resume (authServer cr) i f (.getCounter key) k))
      (underway email attempts (r.state.resume (authServer cr) i f (.getCounter key) k)) := by
  obtain ⟨hguesses, hbudget⟩ := h.balanced
  obtain ⟨hspent, hip, hacct⟩ := hgoes
  have hspents := attemptsAt_resume cr (P := AuthOp.Spent) (f := f) hemail hi
  have hunderways := attemptsAt_resume cr (P := AuthOp.Late) (f := f) hemail hi
  rw [if_neg (hspent _), if_neg (show ¬ AuthOp.Spent _ (.getCounter key) from id)] at hspents
  rw [if_neg (show ¬ AuthOp.Late _ (.getCounter key) from id)] at hunderways
  unfold Balanced underway at *
  by_cases hlate : AtRequest AuthOp.Late
      (k ((authServer cr).reply f (.getCounter key) r.state.shared))
  · -- the attempt passes, so the count has been read and there is budget for one more
    obtain rfl : key = acctKey email := by
      by_contra hne
      exact hip hne _ hlate
    obtain ⟨c, hc, hlow⟩ : ∃ c, (authServer cr).reply f (.getCounter (acctKey email))
        r.state.shared = .ok c ∧ ¬ LOGIN_ACCOUNT_LIMIT ≤ c.getD 0 := by
      by_contra hnone
      push Not at hnone
      exact hacct rfl _ hnone hlate
    obtain ⟨rfl, hread⟩ := (authServer cr).served_of_reply_ok hc
    obtain rfl := Except.ok.inj hread
    have hcounted : r.state.shared.counted (acctKey email) < LOGIN_ACCOUNT_LIMIT := not_le.mp hlow
    have := hg rfl rfl hcounted
    rw [if_pos hlate] at hunderways
    omega
  · rw [if_neg hlate] at hunderways
    omega

/-- A request of an attempt that is underway. -/
theorem Balanced.proceed {β : Type} {op : AuthOp β}
    {k : Except Err β → AuthM (Option AuthenticatedUser)} {i : ι} {b : β}
    (h : WithinBudget email attempts r) (hemail : (attempts i).email = some email)
    (hi : r.state.thread i = .call op k) (hlate : AuthOp.Late β op) (hgoes : GoesOn email β op k)
    (hb : (r.state.shared.serve cr op).1 = .ok b) :
    Balanced (guessesInWindow (r.log ++ noteAttempt email (attempts i) β op))
      ((r.state.shared.serve cr op).2.counted (acctKey email))
      (attemptsAt AuthOp.Spent email attempts (r.state.resume (authServer cr) i .served op k))
      (underway email attempts (r.state.resume (authServer cr) i .served op k)) := by
  obtain ⟨hguesses, hbudget⟩ := h.balanced
  have hlog := List.append_nil r.log
  have hforeign : AuthOp.Foreign email β op → (r.state.shared.serve cr op).2.counted
      (acctKey email) = r.state.shared.counted (acctKey email) := fun hop ↦ hop.counted cr _
  have hspent : AuthOp.Spent β op → (if AuthOp.Spent β op then 1 else 0) = 1 :=
    fun h ↦ if_pos h
  have hspents := attemptsAt_resume cr (P := AuthOp.Spent) (f := .served) hemail hi
  have hunderways := attemptsAt_resume cr (P := AuthOp.Late) (f := .served) hemail hi
  have hle := spent_le_underway email attempts (r.state.resume (authServer cr) i .served op k)
  have hreply : (authServer cr).reply .served op r.state.shared = .ok b := hb
  rw [hreply] at hspents hunderways
  rw [if_pos hlate] at hunderways
  -- past the password, an attempt that goes on stays underway
  have hstays : AtRequest AuthOp.Spent (k (.ok b)) → AtRequest AuthOp.Late (k (.ok b)) :=
    AuthOp.Spent.late
  have hones : (if AtRequest AuthOp.Late (k (.ok b)) then 1 else 0) ≤ 1 := by
    split <;> omega
  unfold underway at *
  cases op with
  | getCounter key => exact hlate.elim
  | findUserByEmail email' =>
      rw [if_neg (show ¬ AuthOp.Spent _ (.findUserByEmail email') from id)] at hspents
      show Balanced (guessesInWindow (r.log ++ [])) _ _ _
      rw [hlog, hforeign trivial]
      unfold Balanced
      omega
  | verifyPassword plain hash =>
      unfold Balanced
      rw [if_neg (show ¬ AuthOp.Spent _ (.verifyPassword plain hash) from id),
        if_pos (hgoes b)] at hspents
      rw [if_pos (hstays (hgoes b))] at hunderways
      rw [noteAttempt, if_pos hemail, guessesInWindow_guess,
        hforeign trivial]
      omega
  | charge key limit windowMs =>
      show Balanced (guessesInWindow (r.log ++ [])) _ _ _
      unfold Balanced
      rw [hlog]
      rw [hspent trivial] at hspents
      by_cases hkey : key = acctKey email
      · subst hkey
        obtain ⟨hwindow, hover⟩ := hgoes.1 rfl
        rw [if_neg (hover b)] at hunderways
        rw [if_neg fun hs ↦ hover b (AuthOp.Spent.late hs)] at hspents
        rw [AuthStore.counted_charge hwindow]
        omega
      · rw [if_pos (hgoes.2 hkey b)] at hspents
        rw [if_pos (hstays (hgoes.2 hkey b))] at hunderways
        rw [hforeign hkey]
        omega
  | deleteCounter key =>
      obtain rfl : key = acctKey email := hgoes
      unfold Balanced
      rw [noteAttempt, if_pos rfl, guessesInWindow_end _ (by decide),
        AuthStore.counted_deleteCounter]
      omega
  | findUser | verifyCode | compare | hash | setSecret | enable | disable | setBackupCodes
  | createAuditLog =>
      rw [hspent trivial, if_pos (hgoes b)] at hspents
      rw [if_pos (hstays (hgoes b))] at hunderways
      show Balanced (guessesInWindow (r.log ++ [])) _ _ _
      rw [hlog, hforeign trivial]
      unfold Balanced
      omega

/-- A request of an attempt at the account. -/
theorem WithinBudget.own_run (h : WithinBudget email attempts r) {i : ι} {f : Fate Err}
    (hemail : (attempts i).email = some email)
    (hg : BudgetsAhead cr email attempts r (.run i f))
    (hs : Recorded.step (Pool.step (authServer cr) AuthStore.tick) (watchGuesses email attempts) r
      (.run i f) = some r') : WithinBudget email attempts r' := by
  obtain ⟨hstep, hlog⟩ := Recorded.step_eq_some hs
  obtain ⟨β, op, k, hi, hstate⟩ := Pool.step_run hstep
  have hproceeds := h.proceeds i hemail
  rw [hi] at hproceeds
  obtain ⟨hgoes, hnext⟩ := hproceeds
  have hbudgeted := hg hemail
  rw [hi, atRequest_call] at hbudgeted
  have hlate : ¬ AuthOp.Late β op ∨
      AuthOp.Late β op ∧ f = .served ∧ ∃ b, (r.state.shared.serve cr op).1 = .ok b := by
    cases op with
    | getCounter key => exact .inl id
    | _ =>
        refine .inr ⟨trivial, hbudgeted.1, ?_⟩
        cases hr : (r.state.shared.serve cr _).1 with
        | ok b => exact ⟨b, rfl⟩
        | error e =>
            have := hbudgeted.2
            rw [hr] at this
            cases this
  refine ⟨fun j hj ↦ ?_, fun j hj ↦ ?_, ?_⟩
  · rw [hstate]
    by_cases hji : j = i
    · subst hji
      rw [Pool.resume_thread_self]
      refine hnext _ ?_
      rcases hlate with hlook | ⟨-, rfl, b, hb⟩
      · cases op <;> first | trivial | exact absurd trivial hlook
      · cases op <;> first | trivial | exact ⟨b, hb⟩
    · rw [Pool.resume_thread_of_ne _ hji]
      exact h.proceeds j hj
  · have hji : j ≠ i := fun heq ↦ hj (heq ▸ hemail)
    rw [hstate, Pool.resume_thread_of_ne _ hji]
    exact h.foreign j hj
  · rw [hlog, hstate, Pool.resume_shared]
    rcases hlate with hlook | ⟨hpassed, rfl, b, hb⟩
    · cases op with
      | getCounter key =>
          have hsame : (authServer cr).after f (.getCounter key) r.state.shared =
              r.state.shared := by
            cases f <;> rfl
          have hnote : watchGuesses email attempts r.state (.run i f) = [] := by
            simp only [watchGuesses, Pool.observe, hi, noteAttempt]
            cases f <;> rfl
          rw [hsame, hnote, List.append_nil]
          exact Balanced.look h hemail hi hgoes hbudgeted
      | _ => exact absurd trivial hlook
    · have hnote : watchGuesses email attempts r.state (.run i .served) =
          noteAttempt email (attempts i) β op := by
        simp only [watchGuesses, Pool.observe, hi]
      rw [hnote]
      exact Balanced.proceed h hemail hi hpassed hgoes hb

/-- However many sign-ins run at once, at any accounts and from any addresses, and however the
hashes take their time: as long as what is underway is budgeted for, at most eight passwords are
verified for the account until the window of its counter ends or a sign-in succeeds. -/
theorem guesses_bounded (s₀ : AuthStore)
    (h : Reach (Recorded.step (Pool.step (authServer cr) AuthStore.tick)
        (watchGuesses email attempts)) (BudgetsAhead cr email attempts)
      ⟨⟨s₀, fun i ↦ authorize (attempts i).ip (attempts i).parsed⟩, []⟩ r) :
    guessesInWindow r.log ≤ LOGIN_ACCOUNT_LIMIT := by
  have hstart : ∀ a : Attempt, a.email = some email → Proceeds email (authorize a.ip a.parsed) := by
    rintro ⟨ip, parsed⟩ ha
    obtain ⟨data, rfl, rfl⟩ := Option.map_eq_some_iff.mp ha
    exact authorize_proceeds data
  have hfresh : ∀ a : Attempt, ¬ AtRequest AuthOp.Late (authorize a.ip a.parsed) := by
    rintro ⟨ip, parsed⟩
    cases parsed with
    | none => exact id
    | some data => exact id
  have hbudget : WithinBudget email attempts r := by
    refine h.invariant (I := fun r : Recorded (LoginPool ι) GuessNote ↦
      WithinBudget email attempts r) ⟨fun i hi ↦ hstart _ hi, fun i hi ↦ authorize_foreign hi,
        ⟨Nat.zero_le _, .inr ⟨?_, rfl⟩⟩⟩ fun r l r' hr hg hs ↦ ?_
    · refine Finset.card_eq_zero.mpr (Finset.filter_eq_empty_iff.mpr fun i _ hi ↦ ?_)
      exact hfresh _ hi.2
    · cases l with
      | env ms => exact hr.env hs
      | run i f =>
          by_cases hemail : (attempts i).email = some email
          · exact hr.own_run hemail hg hs
          · exact hr.foreign_run hemail hs
  exact hbudget.bound

instance (cr : Crypto) (email : String) (n : Nat) (s : AuthStore) (f : Fate Err) (β : Type)
    (op : AuthOp β) : Decidable (Budgeted cr email n s f β op) := by
  apply AuthOp.casesOn (motive := fun β op ↦ Decidable (Budgeted cr email n s f β op)) op <;>
    intros <;> first | exact instDecidableAnd | exact instDecidableForall

instance (r : Recorded (LoginPool ι) GuessNote) (l : Event ι Err Nat) :
    Decidable (BudgetsAhead cr email attempts r l) :=
  match l with
  | .run i f => inferInstanceAs (Decidable ((attempts i).email = some email →
      AtRequest (Budgeted cr email (underway email attempts r.state) r.state.shared f)
        (r.state.thread i)))
  | .env _ => .isTrue trivial

end Bound

/-! ## Ten guesses at once -/

/-- An account with a password. -/
def guardedAccount : AuthStore where
  clock := 0
  users := ⟨[("u", { email := "u@x", passwordHash := some "secret" })], by decide⟩
  counters := ∅
  auditLogs := []

/-- Wrong guesses, all for the same account. -/
def wrongGuesses {n : Nat} (_ : Fin n) : Attempt :=
  ⟨"1.2.3.4", some { email := "u@x", password := "wrong" }⟩

/-- Requests of one attempt, all of them served. -/
def turns {n : Nat} (k : Nat) (i : Fin n) : List (Event (Fin n) Err Nat) :=
  List.replicate k (.run i .served)

/-- Ten attempts look at the counter before any of them is charged; nine passwords are verified
after the first charge has opened the window. -/
theorem guesses_unbounded :
    ¬ ∀ r, Reach (Recorded.step (Pool.step (authServer plainCrypto) AuthStore.tick)
        (watchGuesses "u@x" wrongGuesses)) (fun _ _ ↦ True)
        ⟨⟨guardedAccount, fun i : Fin 10 ↦
          authorize (wrongGuesses i).ip (wrongGuesses i).parsed⟩, []⟩ r →
      guessesInWindow r.log ≤ LOGIN_ACCOUNT_LIMIT := by
  obtain ⟨r, hr, hmany⟩ : ∃ r, Reach (Recorded.step
        (Pool.step (authServer plainCrypto) AuthStore.tick) (watchGuesses "u@x" wrongGuesses))
        (fun _ _ ↦ True) ⟨⟨guardedAccount, fun i : Fin 10 ↦
          authorize (wrongGuesses i).ip (wrongGuesses i).parsed⟩, []⟩ r ∧
      guessesInWindow r.log = 10 :=
    Reach.exists_of_exec ((List.finRange 10).flatMap (turns 2) ++ turns 4 0 ++
      (List.finRange 10).tail.flatMap (turns 2)) (by decide +kernel)
  intro h
  have := h r hr
  rw [hmany] at this
  exact absurd this (by decide)

/-- One after the other, the first eight are verified and the ninth is turned away. -/
theorem guesses_bounded_in_turn :
    ∃ r : Recorded (LoginPool (Fin 9)) GuessNote,
      Returned (· = none) (r.state.thread 8) ∧ guessesInWindow r.log = 8 ∧
      guessesInWindow r.log ≤ LOGIN_ACCOUNT_LIMIT := by
  obtain ⟨r, hr, hall⟩ : ∃ r, Reach (Recorded.step
        (Pool.step (authServer plainCrypto) AuthStore.tick) (watchGuesses "u@x" wrongGuesses))
        (BudgetsAhead plainCrypto "u@x" wrongGuesses) ⟨⟨guardedAccount, fun i : Fin 9 ↦
          authorize (wrongGuesses i).ip (wrongGuesses i).parsed⟩, []⟩ r ∧
      Returned (· = none) (r.state.thread 8) ∧ guessesInWindow r.log = 8 :=
    Reach.exists_of_exec ((List.finRange 8).flatMap (fun i ↦ turns 6 i.castSucc) ++ turns 2 8)
      (by decide +kernel)
  exact ⟨r, hall.1, hall.2, guesses_bounded guardedAccount hr⟩

end Zenstier
