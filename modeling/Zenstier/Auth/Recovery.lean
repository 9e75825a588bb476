import Zenstier.Auth.Service
import Zenstier.Concurrent.Journal

/-!
# Recovery codes

Redeeming a recovery code reads the list of hashes, compares them one by one, and writes the list
back without the one that has matched.  Comparing takes its time.  If the list changes
meanwhile, a second call redeems the same code, or the write brings a code back that has been
redeemed.  As long as each write finds the list that was read, neither happens.
-/

namespace Zenstier

open Concurrent Prog

/-- The hashes of the recovery codes that a user has left. -/
def AuthStore.backupCodes (s : AuthStore) (userId : String) : List String :=
  ((s.users.find? userId).map (·.totpBackupCodes)).getD []

/-- What is noted of a call. -/
inductive RecoveryNote
  | read (totpBackupCodes : List String)
  | matched (hash : String)
  | replaced (before after : List String)
deriving DecidableEq, Repr

/-- Takes note of the list that a call reads, the hash that matches, and the write. -/
def watchRecovery (cr : Crypto) (userId : String) (f : Fate Err) (β : Type) :
    AuthOp β → AuthStore → List RecoveryNote
  | .findUser _, s => if f = .served then [.read (s.backupCodes userId)] else []
  | .compare plain hash, _ => if f = .served ∧ cr.compare plain hash then [.matched hash] else []
  | .setBackupCodes _ codes, s => match f with
      | .served | .unanswered _ => [.replaced (s.backupCodes userId) codes]
      | .refused _ => []
  | _, _ => []

/-- A write finds the list that the call has read. -/
def Unraced (userId : String) (n : List RecoveryNote) : ∀ β : Type, AuthOp β → AuthStore → Prop
  | _, .setBackupCodes _ _, s => .read (s.backupCodes userId) ∈ n
  | _, _, _ => True

instance (userId : String) (n : List RecoveryNote) (β : Type) (op : AuthOp β) (s : AuthStore) :
    Decidable (Unraced userId n β op s) :=
  match op with
  | .setBackupCodes .. => inferInstanceAs (Decidable (_ ∈ n))
  | .findUser _ | .findUserByEmail _ | .verifyPassword .. | .verifyCode .. | .compare ..
  | .hash .. | .setSecret .. | .enable .. | .disable _ | .createAuditLog _ | .getCounter _
  | .charge .. | .deleteCounter _ => isTrue trivial

section Runs

variable {ι : Type} [DecidableEq ι]

/-- Calls at the same time, all for the same user. -/
abbrev FactorPool (ι : Type) := Pool ι AuthOp Err Bool AuthStore

/-- A call has taken a hash off the list. -/
def TakenBy (log : List (ι × RecoveryNote)) (i : ι) (hash : String) : Prop :=
  ∃ before after, (i, RecoveryNote.replaced before after) ∈ log ∧ hash ∈ before ∧ hash ∉ after

/-- A recovery code has made a call return `true`. -/
def AdmittedBy (r : Recorded (FactorPool ι) (ι × RecoveryNote)) (i : ι) (hash : String) : Prop :=
  Returned (· = true) (r.state.thread i) ∧ (i, RecoveryNote.matched hash) ∈ r.log

/-- Each recovery code has made at most one call return `true`, and what has been taken off the
list is not there. -/
structure SingleUse (userId : String) (r : Recorded (FactorPool ι) (ι × RecoveryNote)) :
    Prop where
  once : ∀ i j hash, AdmittedBy r i hash → AdmittedBy r j hash → i = j
  gone : ∀ i hash, TakenBy r.log i hash → hash ∉ r.state.shared.backupCodes userId

end Runs

/-! ## What a call notes -/

/-- A call only takes hashes off the list, and the one that has made it return `true` is among
them. -/
def Takes (res : Option Bool) (n : List RecoveryNote) : Prop :=
  (∀ before after, .replaced before after ∈ n → after ⊆ before) ∧
    (res = some true → ∀ hash, .matched hash ∈ n →
      ∃ before after, .replaced before after ∈ n ∧ hash ∈ before ∧ hash ∉ after)

section Calls

variable {cr : Crypto} {userId : String}

/-- Verifying, from notes that have been taken. -/
abbrev Redeeming (cr : Crypto) (userId : String) (p : AuthM Bool) (n : List RecoveryNote) : Prop :=
  Concludes (authServer cr) (watchRecovery cr userId) (Unraced userId) Takes p n

/-- All that is noted of a call that redeems a code. -/
theorem takes_taken (res : Option Bool) {codes : List String} {hash : String}
    (h : hash ∈ codes) : Takes res
      ([.read codes, .matched hash] ++ [.replaced codes (codes.filter (· ≠ hash))]) := by
  constructor
  · intro before after hmem
    obtain ⟨rfl, rfl⟩ : before = codes ∧ after = codes.filter (· ≠ hash) := by simpa using hmem
    exact List.filter_subset_self _
  · intro _ hash' hmem
    obtain rfl : hash' = hash := by simpa using hmem
    exact ⟨codes, codes.filter (· ≠ hash'), by simp, h, by simp⟩

theorem redeem_redeeming (normalised : String) {codes hashes : List String} (h : hashes ⊆ codes) :
    Redeeming cr userId (redeem userId normalised codes hashes) [.read codes] := by
  induction hashes with
  | nil => exact ⟨by simp, by simp⟩
  | cons hash hashes ih =>
      rw [List.cons_subset] at h
      refine .await ⟨by simp, by simp⟩ (fun s f _ ↦ ?_) fun s b _ hb ↦ ?_
      · rw [watchRecovery]
        split
        · exact ⟨by simp, by simp⟩
        · exact ⟨by simp, by simp⟩
      · obtain rfl : cr.compare normalised hash = b := Except.ok.inj hb
        cases hcompare : cr.compare normalised hash with
        | false =>
            have hquiet :
                watchRecovery cr userId .served Bool (.compare normalised hash) s = [] := by
              simp [watchRecovery, hcompare]
            rw [hquiet, List.append_nil]
            exact ih h.2
        | true =>
            have hnote : watchRecovery cr userId .served Bool (.compare normalised hash) s =
                [.matched hash] := by
              simp [watchRecovery, hcompare]
            rw [hnote]
            have hcurrent : ∀ s, Unraced userId [.read codes, .matched hash] Unit
                (.setBackupCodes userId (codes.filter (· ≠ hash))) s →
                s.backupCodes userId = codes := by
              intro s hs
              simpa [Unraced] using hs
            refine .await ⟨by simp, by simp⟩ (fun s f hg ↦ ?_) fun s _ hg _ ↦ ?_
            · cases f with
              | refused e => exact ⟨by simp [watchRecovery], by simp⟩
              | served | unanswered e =>
                  rw [watchRecovery, hcurrent s (hg fun e ↦ by simp)]
                  exact takes_taken none h.1
            · rw [watchRecovery, hcurrent s hg]
              exact .skip (fun f s ↦ rfl) (takes_taken none h.1) fun _ ↦ takes_taken _ h.1

theorem verifySecondFactor_redeeming (submitted : String) :
    Redeeming cr userId (verifySecondFactor userId submitted) [] := by
  refine .await ⟨by simp, by simp⟩ (fun s f _ ↦ ?_) fun s found _ hfound ↦ ?_
  · rw [watchRecovery]
    split
    · exact ⟨by simp, by simp⟩
    · exact ⟨by simp, by simp⟩
  · obtain rfl : s.users.find? userId = found := Except.ok.inj hfound
    rw [watchRecovery, if_pos rfl]
    cases hu : s.users.find? userId with
    | none => exact ⟨by simp, by simp⟩
    | some user =>
        have hcodes : s.backupCodes userId = user.totpBackupCodes := by
          rw [AuthStore.backupCodes, hu]
          rfl
        rw [hcodes]
        dsimp only
        cases user.factor with
        | none => exact ⟨by simp, by simp⟩
        | some secret =>
            refine .skip (fun f s ↦ rfl) ⟨by simp, by simp⟩ fun b ↦ ?_
            cases b with
            | false => exact redeem_redeeming _ (List.Subset.refl _)
            | true => exact ⟨by simp, by simp⟩

end Calls

/-! ## The list -/

/-- A request that leaves the list alone, or is a write to it. -/
def AuthOp.Redeeming (userId : String) : ∀ β : Type, AuthOp β → Prop
  | _, .findUser _ | _, .verifyCode _ _ | _, .compare _ _ | _, .createAuditLog _ => True
  | _, .setBackupCodes id _ => id = userId
  | _, _ => False

/-- A request that is not noted as a write leaves the list as it is, and one that is leaves no
more than what it writes. -/
theorem AuthOp.Redeeming.after {userId : String} {β : Type} {op : AuthOp β}
    (hop : AuthOp.Redeeming userId β op) (cr : Crypto) (f : Fate Err) (s : AuthStore) :
    ((∀ before after, .replaced before after ∉ watchRecovery cr userId f β op s) ∧
        ((authServer cr).after f op s).backupCodes userId = s.backupCodes userId) ∨
      ∃ codes, watchRecovery cr userId f β op s = [.replaced (s.backupCodes userId) codes] ∧
        ((authServer cr).after f op s).backupCodes userId ⊆ codes := by
  cases op with
  | findUser id =>
      refine .inl ⟨fun before after ↦ ?_, by cases f <;> rfl⟩
      rw [watchRecovery]
      split <;> simp
  | verifyCode secret submitted => exact .inl ⟨by simp [watchRecovery], by cases f <;> rfl⟩
  | compare plain hash =>
      refine .inl ⟨fun before after ↦ ?_, by cases f <;> rfl⟩
      rw [watchRecovery]
      split <;> simp
  | createAuditLog row => exact .inl ⟨by simp [watchRecovery], by cases f <;> rfl⟩
  | setBackupCodes id codes =>
      obtain rfl : id = userId := hop
      have hwritten : ((s.serve cr (.setBackupCodes id codes)).2).backupCodes id ⊆ codes := by
        rw [AuthStore.serve, AuthStore.backupCodes, AuthStore.find?_updateUser]
        cases s.users.find? id <;> simp
      cases f with
      | refused e => exact .inl ⟨by simp [watchRecovery], rfl⟩
      | served => exact .inr ⟨codes, rfl, hwritten⟩
      | unanswered e => exact .inr ⟨codes, rfl, hwritten⟩
  | findUserByEmail | verifyPassword | hash | setSecret | enable | disable | getCounter | charge
  | deleteCounter => exact hop.elim

section Runs

variable {ι : Type} [DecidableEq ι] {cr : Crypto} {userId : String} {submitted : ι → String}

/-- A hash that has been taken off the list is gone for good, and nobody else takes it. -/
def TakenOnce (userId : String) (r : Recorded (FactorPool ι) (ι × RecoveryNote)) : Prop :=
  ∀ i hash, TakenBy r.log i hash →
    hash ∉ r.state.shared.backupCodes userId ∧ ∀ j, TakenBy r.log j hash → j = i

omit [DecidableEq ι] in
/-- More hashes are taken off by a write that leaves the others there. -/
theorem TakenOnce.write {r r' : Recorded (FactorPool ι) (ι × RecoveryNote)} {i : ι}
    {codes : List String} (hr : TakenOnce userId r)
    (hlog : r'.log = r.log ++ [(i, .replaced (r.state.shared.backupCodes userId) codes)])
    (hcodes : codes ⊆ r.state.shared.backupCodes userId)
    (hstate : r'.state.shared.backupCodes userId ⊆ codes) : TakenOnce userId r' := by
  have htaken : ∀ j hash, TakenBy r'.log j hash → TakenBy r.log j hash ∨
      j = i ∧ hash ∈ r.state.shared.backupCodes userId ∧ hash ∉ codes := by
    rintro j hash ⟨before, after, hmem, hbefore, hafter⟩
    rw [hlog, List.mem_append, List.mem_singleton, Prod.mk.injEq, RecoveryNote.replaced.injEq]
      at hmem
    rcases hmem with hmem | ⟨rfl, rfl, rfl⟩
    · exact .inl ⟨before, after, hmem, hbefore, hafter⟩
    · exact .inr ⟨rfl, hbefore, hafter⟩
  intro j hash hj
  rcases htaken j hash hj with hold | ⟨rfl, hin, hout⟩
  · obtain ⟨hgone, hothers⟩ := hr j hash hold
    refine ⟨fun h ↦ hgone (hcodes (hstate h)), fun j' hj' ↦ ?_⟩
    rcases htaken j' hash hj' with hold' | ⟨rfl, hin, -⟩
    · exact hothers j' hold'
    · exact absurd hin hgone
  · refine ⟨fun h ↦ hout (hstate h), fun j' hj' ↦ ?_⟩
    rcases htaken j' hash hj' with hold' | ⟨rfl, -, -⟩
    · exact absurd hin (hr j' hash hold').1
    · rfl

omit [DecidableEq ι] in
theorem TakenOnce.congr {r r' : Recorded (FactorPool ι) (ι × RecoveryNote)}
    (hr : TakenOnce userId r)
    (hlog : ∀ i before after, (i, .replaced before after) ∈ r'.log →
      (i, .replaced before after) ∈ r.log)
    (hstate : r'.state.shared.backupCodes userId = r.state.shared.backupCodes userId) :
    TakenOnce userId r' := by
  have htaken : ∀ j hash, TakenBy r'.log j hash → TakenBy r.log j hash :=
    fun j hash ⟨before, after, hmem, h⟩ ↦ ⟨before, after, hlog j before after hmem, h⟩
  intro i hash hi
  rw [hstate]
  exact ⟨(hr i hash (htaken i hash hi)).1, fun j hj ↦
    (hr i hash (htaken i hash hi)).2 j (htaken j hash hj)⟩

/-- If each write finds the list that was read, each recovery code is redeemed once. -/
theorem recoveryCodes_singleUse {s₀ : AuthStore}
    {r : Recorded (FactorPool ι) (ι × RecoveryNote)}
    (h : Reach (Recorded.step (Pool.step (authServer cr) AuthStore.tick)
        (Pool.attend (watchRecovery cr userId))) (Guarded fun _ n ↦ Unraced userId n)
      ⟨⟨s₀, fun i ↦ verifySecondFactor userId (submitted i)⟩, []⟩ r) :
    SingleUse userId r := by
  have hcalls : ∀ {r}, Reach (Recorded.step (Pool.step (authServer cr) AuthStore.tick)
        (Pool.attend (watchRecovery cr userId))) (Guarded fun _ n ↦ Unraced userId n)
        ⟨⟨s₀, fun i ↦ verifySecondFactor userId (submitted i)⟩, []⟩ r →
      ∀ i, Redeeming cr userId (r.state.thread i) (notesOf i r.log) ∧
        Only (AuthOp.Redeeming userId) (r.state.thread i) := by
    intro r hr i
    refine ⟨Concludes.reach (fun i ↦ verifySecondFactor_redeeming (submitted i)) hr i, ?_⟩
    refine Pool.notes_invariant (Φ := fun _ p _ ↦ Only (AuthOp.Redeeming userId) p) ?_ ?_ hr i
    · exact fun i ↦ verifySecondFactor_only trivial (fun _ _ ↦ trivial) (fun _ _ ↦ trivial)
        (fun _ ↦ rfl) (fun _ ↦ trivial) (submitted i)
    · exact fun i β op k n s f hcall _ ↦ ((only_call op k).mp hcall).2 _
  have htaken : TakenOnce userId r := by
    induction h with
    | start => exact fun i hash ⟨before, after, hmem, _⟩ ↦ absurd hmem List.not_mem_nil
    | @next r r' l hr hg hs ih =>
        obtain ⟨hstep, hlog⟩ := Recorded.step_eq_some hs
        cases l with
        | env ms =>
            rw [Pool.attend, List.append_nil] at hlog
            refine ih.congr (fun i before after hmem ↦ hlog ▸ hmem) ?_
            rw [Pool.step_env hstep]
            rfl
        | run i f =>
            obtain ⟨β, op, k, hi, hstate⟩ := Pool.step_run hstep
            have hop : AuthOp.Redeeming userId β op := by
              have := (hcalls hr i).2
              rw [hi] at this
              exact ((only_call op k).mp this).1
            simp only [Pool.attend, hi] at hlog
            rcases hop.after cr f r.state.shared with ⟨hquiet, hsame⟩ | ⟨codes, hnote, hafter⟩
            · refine ih.congr (fun j before after hmem ↦ ?_) ?_
              · rw [hlog, List.mem_append] at hmem
                refine hmem.resolve_right fun hnew ↦ ?_
                obtain ⟨x, hx, heq⟩ := List.mem_map.mp hnew
                obtain rfl := (Prod.mk.inj heq).2
                exact hquiet before after hx
              · rw [hstate]
                exact hsame
            · rw [hnote] at hlog
              refine ih.write hlog ?_ (hstate ▸ hafter)
              obtain ⟨res, -, hnotes, -⟩ := (hcalls (hr.next _ hg hs) i).1.now
              refine hnotes _ _ (mem_notesOf.mpr ?_)
              simp [hlog]
  refine ⟨fun i j hash hi hj ↦ ?_, fun i hash hi ↦ (htaken i hash hi).1⟩
  have hadmitted : ∀ i, AdmittedBy r i hash → TakenBy r.log i hash := by
    rintro i ⟨hreturned, hmatched⟩
    obtain ⟨res, hres, -, htakes⟩ := (hcalls h i).1.now
    obtain ⟨b, hb, rfl⟩ := hres _ hreturned
    obtain ⟨before, after, hmem, hin, hout⟩ := htakes hb hash (mem_notesOf.mpr hmatched)
    exact ⟨before, after, mem_notesOf.mp hmem, hin, hout⟩
  exact (htaken j hash (hadmitted j hj)).2 i (hadmitted i hi)

end Runs

def recoverableUser : UserAccount where
  email := "u@x"
  totpSecret := some "A"
  totpEnabled := true
  totpBackupCodes := ["AB", "CD"]

/-- An account with two recovery codes left. -/
def recoverableAccount : AuthStore where
  clock := 0
  users := ⟨[("u", recoverableUser)], by decide⟩
  counters := ∅
  auditLogs := []

/-- The first `k` requests of a call, all of them served. -/
def requests (k : Nat) (i : Fin 2) : List (Event (Fin 2) Err Nat) :=
  List.replicate k (.run i .served)

/-- Two calls with the same code both read the list before either writes it. -/
theorem recoveryCodes_usedTwice :
    ¬ ∀ r, Reach (Recorded.step (Pool.step (authServer plainCrypto) AuthStore.tick)
        (Pool.attend (watchRecovery plainCrypto "u"))) (fun _ _ ↦ True)
        ⟨⟨recoverableAccount, fun _ : Fin 2 ↦ verifySecondFactor "u" "ab"⟩, []⟩ r →
      SingleUse "u" r := by
  obtain ⟨r, hr, h0, h1, hlog⟩ : ∃ r, Reach (Recorded.step
        (Pool.step (authServer plainCrypto) AuthStore.tick)
        (Pool.attend (watchRecovery plainCrypto "u"))) (fun _ _ ↦ True)
        ⟨⟨recoverableAccount, fun _ : Fin 2 ↦ verifySecondFactor "u" "ab"⟩, []⟩ r ∧
      Returned (· = true) (r.state.thread 0) ∧ Returned (· = true) (r.state.thread 1) ∧
      (0, .matched "AB") ∈ r.log ∧ (1, .matched "AB") ∈ r.log :=
    Reach.exists_of_exec (requests 3 0 ++ requests 3 1 ++ requests 2 0 ++ requests 2 1)
      (by decide +kernel)
  intro h
  have := (h r hr).once 0 1 "AB" ⟨h0, hlog.1⟩ ⟨h1, hlog.2⟩
  exact absurd this (by decide)

/-- One after the other, two calls redeem the two codes, and none is left. -/
theorem recoveryCodes_singleUse_inTurn :
    ∃ r : Recorded (FactorPool (Fin 2)) (Fin 2 × RecoveryNote),
      (∀ i, Returned (· = true) (r.state.thread i)) ∧
        r.state.shared.backupCodes "u" = [] ∧ SingleUse "u" r := by
  obtain ⟨r, hr, hreturned, hcodes⟩ : ∃ r, Reach (Recorded.step
        (Pool.step (authServer plainCrypto) AuthStore.tick)
        (Pool.attend (watchRecovery plainCrypto "u"))) (Guarded fun _ n ↦ Unraced "u" n)
        ⟨⟨recoverableAccount, fun i : Fin 2 ↦
          verifySecondFactor "u" (if i = 0 then "ab" else "cd")⟩, []⟩ r ∧
      (∀ i, Returned (· = true) (r.state.thread i)) ∧ r.state.shared.backupCodes "u" = [] :=
    Reach.exists_of_exec (requests 5 0 ++ requests 5 1) (by decide +kernel)
  exact ⟨r, hreturned, hcodes, recoveryCodes_singleUse hr⟩

end Zenstier
