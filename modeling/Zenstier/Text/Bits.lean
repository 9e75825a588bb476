import Mathlib.Data.Nat.Bitwise

/-!
# Numbers as sequences of bits

`write k v` is the sequence of the low `k` bits of `v`, the most significant one first.  An
accumulator that bits are shifted into, and read from, denotes such a sequence; what it holds
above its low bits is never seen.
-/

namespace Zenstier.Bits

/-- The low `k` bits of a number, the most significant one first. -/
def write : Nat → Nat → List Bool
  | 0, _ => []
  | k + 1, v => v.testBit k :: write k v

@[simp] theorem write_zero (v : Nat) : write 0 v = [] := rfl

@[simp] theorem length_write (k v : Nat) : (write k v).length = k := by
  induction k with
  | zero => rfl
  | succ k ih => rw [write, List.length_cons, ih]

/-- Numbers that agree on their low bits are written alike. -/
theorem write_congr {k v w : Nat} (h : ∀ i < k, v.testBit i = w.testBit i) :
    write k v = write k w := by
  induction k with
  | zero => rfl
  | succ k ih => rw [write, write, h k k.lt_succ_self, ih fun i hi ↦ h i (by omega)]

/-- What an accumulator of `n` bits drops is not seen in its low bits. -/
theorem write_mod {k n : Nat} (h : k ≤ n) (v : Nat) : write k (v % 2 ^ n) = write k v := by
  apply write_congr
  intro i hi
  rw [Nat.testBit_mod_two_pow, decide_eq_true (lt_of_lt_of_le hi h), Bool.true_and]

/-- A write can be cut anywhere. -/
theorem write_add (m k v : Nat) : write (m + k) v = write m (v / 2 ^ k) ++ write k v := by
  induction m with
  | zero => rw [Nat.zero_add]; rfl
  | succ m ih =>
      rw [Nat.add_right_comm, write, ih, write, Nat.testBit_div_two_pow, List.cons_append]

/-- Shifting in `k` bits appends them. -/
theorem write_mul_add (m : Nat) {k w : Nat} (h : w < 2 ^ k) (v : Nat) :
    write (m + k) (v * 2 ^ k + w) = write m v ++ write k w := by
  have hdiv : (v * 2 ^ k + w) / 2 ^ k = v := by
    rw [Nat.add_comm, Nat.add_mul_div_right _ _ (Nat.two_pow_pos k), Nat.div_eq_of_lt h,
      Nat.zero_add]
  have hmod : (v * 2 ^ k + w) % 2 ^ k = w := by
    rw [Nat.add_comm, Nat.add_mul_mod_self_right, Nat.mod_eq_of_lt h]
  rw [write_add, hdiv, ← write_mod (le_refl k) (v * 2 ^ k + w), hmod]

@[simp] theorem write_of_zero (k : Nat) : write k 0 = List.replicate k false := by
  induction k with
  | zero => rfl
  | succ k ih => rw [write, ih, Nat.zero_testBit, List.replicate_succ]

theorem write_injective {k v w : Nat} (hv : v < 2 ^ k) (hw : w < 2 ^ k)
    (h : write k v = write k w) : v = w := by
  have hbits : ∀ i < k, v.testBit i = w.testBit i := by
    clear hv hw
    induction k with
    | zero => exact fun i hi ↦ absurd hi i.not_lt_zero
    | succ k ih =>
        obtain ⟨hhead, htail⟩ := List.cons.inj h
        intro i hi
        rcases Nat.lt_succ_iff_lt_or_eq.mp hi with hlt | rfl
        · exact ih htail i hlt
        · exact hhead
  refine Nat.eq_of_testBit_eq fun i ↦ ?_
  by_cases hi : i < k
  · exact hbits i hi
  · have hle : 2 ^ k ≤ 2 ^ i := Nat.pow_le_pow_right Nat.two_pos (Nat.le_of_not_lt hi)
    rw [Nat.testBit_lt_two_pow (lt_of_lt_of_le hv hle),
      Nat.testBit_lt_two_pow (lt_of_lt_of_le hw hle)]

/-! ## Sequences of numbers of one width -/

variable {α : Type*} {k : Nat} {value : α → Nat}

theorem length_flatMap_write (xs : List α) :
    (xs.flatMap fun x ↦ write k (value x)).length = xs.length * k := by
  induction xs with
  | nil => exact (Nat.zero_mul k).symm
  | cons x xs ih =>
      rw [List.flatMap_cons, List.length_append, length_write, ih, List.length_cons,
        Nat.succ_mul, Nat.add_comm]

/-- Sequences of as many items that are written alike are the same, if items are. -/
theorem flatMap_write_injective (hlt : ∀ x, value x < 2 ^ k) (hinj : Function.Injective value)
    {xs ys : List α} (hlength : xs.length = ys.length)
    (h : (xs.flatMap fun x ↦ write k (value x)) = ys.flatMap fun y ↦ write k (value y)) :
    xs = ys := by
  induction xs generalizing ys with
  | nil => exact (List.length_eq_zero_iff.mp hlength.symm).symm
  | cons x xs ih =>
      cases ys with
      | nil => simp at hlength
      | cons y ys =>
          rw [List.flatMap_cons, List.flatMap_cons] at h
          obtain ⟨hhead, htail⟩ := List.append_inj h (by rw [length_write, length_write])
          rw [hinj (write_injective (hlt x) (hlt y) hhead),
            ih (Nat.succ.inj hlength) htail]

end Zenstier.Bits
