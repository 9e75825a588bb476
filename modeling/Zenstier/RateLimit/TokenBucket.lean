import Mathlib.Algebra.Order.Field.Basic
import Mathlib.Tactic.Linarith
import Mathlib.Tactic.Ring

/-!
# Token buckets

A bucket holds at most `cap` tokens and refills at `rate`.  It is stored as what it held at
the time of its last use; a bucket that is not stored is full.  `spend_le` is all that is
needed to bound what is taken from it in a window of time: however a take turns out, it
leaves no more than what there was, what it has taken and what has been refilled.
-/

namespace TokenBucket

variable {K : Type} [Field K] [LinearOrder K]

/-- What a bucket held at a point in time. -/
structure Bucket (K : Type) where
  tokens : K
  stamp : K

variable (cap rate : K)

/-- What a bucket holds. -/
def level (b : Option (Bucket K)) (now : K) : K :=
  match b with
  | none => cap
  | some b => min cap (b.tokens + (now - b.stamp) * rate)

/-- Takes one token, if there is one. -/
def take (b : Option (Bucket K)) (now : K) : Bool × Bucket K :=
  if level cap rate b now < 1 then (false, ⟨level cap rate b now, now⟩)
  else (true, ⟨level cap rate b now - 1, now⟩)

/-- The tokens that a take has taken. -/
def spent (taken : Bool) : K := if taken then 1 else 0

variable {cap rate}

theorem level_le_cap (cap rate : K) (b : Option (Bucket K)) (now : K) :
    level cap rate b now ≤ cap := by
  cases b with
  | none => exact le_rfl
  | some b => exact min_le_left _ _

theorem take_stamp (b : Option (Bucket K)) (now : K) : (take cap rate b now).2.stamp = now := by
  unfold take
  split <;> rfl

variable [IsStrictOrderedRing K]

omit [IsStrictOrderedRing K] in
theorem take_eq_true {b : Option (Bucket K)} {now : K} (h : 1 ≤ level cap rate b now) :
    take cap rate b now = (true, ⟨level cap rate b now - 1, now⟩) :=
  if_neg (not_lt.mpr h)

/-- Right after a take there is one token less. -/
theorem level_take {b : Option (Bucket K)} {now : K} (h : 1 ≤ level cap rate b now) :
    level cap rate (some (take cap rate b now).2) now = level cap rate b now - 1 := by
  rw [take_eq_true h]
  have hle := level_le_cap cap rate b now
  simp only [level, sub_self, zero_mul, add_zero]
  exact min_eq_right (by unfold level at hle; linarith)

/-- What is left of a bucket at `t` after a take at `now`: what the take has stored, or
nothing once it has had the time to fill up. -/
def Left (cap rate : K) (b : Option (Bucket K)) (now t : K) (b' : Option (Bucket K)) : Prop :=
  b' = some (take cap rate b now).2 ∨ b' = none ∧ cap ≤ (t - now) * rate

/-- A take and the time after it. -/
theorem spend_le (hrate : 0 ≤ rate) {b b' : Option (Bucket K)} {now t : K} (ht : now ≤ t)
    (hb' : Left cap rate b now t b') :
    max (level cap rate b' t) 0 + spent (take cap rate b now).1 ≤
      max (level cap rate b now) 0 + (t - now) * rate := by
  have hrefill : 0 ≤ (t - now) * rate := mul_nonneg (sub_nonneg.mpr ht) hrate
  have hl := le_max_left (level cap rate b now) 0
  have hzero := le_max_right (level cap rate b now) 0
  rcases hb' with rfl | ⟨rfl, hcap⟩
  · unfold take spent
    split
    · -- nothing is taken, so what there was only refills
      have hle : level cap rate (some ⟨level cap rate b now, now⟩) t ≤
          level cap rate b now + (t - now) * rate := min_le_right _ _
      have : max (level cap rate (some ⟨level cap rate b now, now⟩) t) 0 ≤
          max (level cap rate b now) 0 + (t - now) * rate :=
        max_le (by linarith) (by linarith)
      simpa using this
    · rename_i hone
      have hle : level cap rate (some ⟨level cap rate b now - 1, now⟩) t ≤
          level cap rate b now - 1 + (t - now) * rate := min_le_right _ _
      have : max (level cap rate (some ⟨level cap rate b now - 1, now⟩) t) 0 ≤
          level cap rate b now - 1 + (t - now) * rate :=
        max_le hle (by linarith [not_lt.mp hone])
      simp only [if_true]
      linarith
  · have hfull : max (level cap rate (none : Option (Bucket K)) t) 0 ≤ (t - now) * rate :=
      max_le hcap hrefill
    unfold take spent
    split
    · simp only [Bool.false_eq_true, if_false]
      linarith
    · rename_i hone
      simp only [if_true]
      linarith [not_lt.mp hone]

/-! ## Spending over time -/

section Meter

variable {E σ : Type}

/-- Events in the course of time, each of which costs something.  What can still be spent is
known as a credit from some time on. -/
structure Meter (K E σ : Type) where
  time : E → K
  step : E → σ → σ
  cost : E → σ → K
  /-- From the time on no more than the credit and the refill can be spent. -/
  Credited : K → K → σ → Prop

namespace Meter

variable (A : Meter K E σ)

/-- What the events from `a` to `e` cost. -/
def total (a e : K) : List E → σ → K
  | [], _ => 0
  | x :: xs, s => (if a ≤ A.time x ∧ A.time x ≤ e then A.cost x s else 0) +
      total a e xs (A.step x s)

/-- An event is paid for by the credit and the refill. -/
def Pays (rate : K) (x : E) : Prop :=
  ∀ t credit s, 0 ≤ credit → A.Credited t credit s → t ≤ A.time x →
    ∃ left, 0 ≤ left ∧ A.Credited (A.time x) left (A.step x s) ∧ 0 ≤ A.cost x s ∧
      A.cost x s + left ≤ credit + (A.time x - t) * rate

variable {A} {a e t credit : K} {xs : List E} {s : σ}

omit [IsStrictOrderedRing K] in
/-- Events after the end of the window do not count. -/
theorem total_after (h : ∀ x ∈ xs, e < A.time x) (s : σ) : A.total a e xs s = 0 := by
  induction xs generalizing s with
  | nil => rfl
  | cons x xs ih =>
      have hx : ¬ (a ≤ A.time x ∧ A.time x ≤ e) := fun hin ↦
        absurd hin.2 (not_le.mpr (h x List.mem_cons_self))
      rw [total, if_neg hx, zero_add]
      exact ih (fun y hy ↦ h y (List.mem_cons_of_mem x hy)) _

/-- A credit bounds the cost of the events from then on. -/
theorem Credited.total_le (h : A.Credited t credit s) (hcredit : 0 ≤ credit) (hrate : 0 ≤ rate)
    (hpays : ∀ x ∈ xs, A.Pays rate x) (hsorted : xs.Pairwise fun x y ↦ A.time x ≤ A.time y)
    (ht : ∀ x ∈ xs, t ≤ A.time x) (hte : t ≤ e) :
    A.total a e xs s ≤ credit + (e - t) * rate := by
  induction xs generalizing t credit s with
  | nil =>
      have := mul_nonneg (sub_nonneg.mpr hte) hrate
      rw [total]
      linarith
  | cons x xs ih =>
      obtain ⟨hfirst, hsorted⟩ := List.pairwise_cons.mp hsorted
      rcases lt_or_ge e (A.time x) with hlate | hin
      · have hafter : ∀ y ∈ x :: xs, e < A.time y :=
          List.forall_mem_cons.mpr ⟨hlate, fun y hy ↦ hlate.trans_le (hfirst y hy)⟩
        have := mul_nonneg (sub_nonneg.mpr hte) hrate
        rw [total_after hafter]
        linarith
      obtain ⟨left, hleft, hcredited, hcost, hpaid⟩ :=
        hpays x List.mem_cons_self t credit s hcredit h (ht x List.mem_cons_self)
      have hrest := ih hcredited hleft (fun y hy ↦ hpays y (List.mem_cons_of_mem x hy)) hsorted
        hfirst hin
      have hcounted : (if a ≤ A.time x ∧ A.time x ≤ e then A.cost x s else 0) ≤ A.cost x s := by
        split
        · exact le_rfl
        · exact hcost
      have hwhole : credit + (e - t) * rate =
          credit + (A.time x - t) * rate + (e - A.time x) * rate := by ring
      rw [total]
      linarith

/-- In any window the events cost at most what an account can hold and what it gains. -/
theorem total_le {full : K} (hfull : ∀ t s, A.Credited t full s) (hnonneg : 0 ≤ full)
    (hrate : 0 ≤ rate) (hpays : ∀ x ∈ xs, A.Pays rate x)
    (hsorted : xs.Pairwise fun x y ↦ A.time x ≤ A.time y) (hae : a ≤ e) (s : σ) :
    A.total a e xs s ≤ full + (e - a) * rate := by
  induction xs generalizing s with
  | nil =>
      have := mul_nonneg (sub_nonneg.mpr hae) hrate
      rw [total]
      linarith
  | cons x xs ih =>
      obtain ⟨hfirst, hsorted'⟩ := List.pairwise_cons.mp hsorted
      rcases lt_or_ge (A.time x) a with hearly | hin
      · have hout : ¬ (a ≤ A.time x ∧ A.time x ≤ e) := fun hin ↦
          absurd hin.1 (not_le.mpr hearly)
        rw [total, if_neg hout, zero_add]
        exact ih (fun y hy ↦ hpays y (List.mem_cons_of_mem x hy)) hsorted' _
      · refine Credited.total_le (hfull a s) hnonneg hrate hpays hsorted ?_ hae
        exact List.forall_mem_cons.mpr ⟨hin, fun y hy ↦ hin.trans (hfirst y hy)⟩

end Meter

end Meter

end TokenBucket
