import Mathlib.Algebra.GroupWithZero.Nat

/-!
# Unsigned arithmetic that is watched

Operations on 64-bit words wrap around without a trace.  Here a computation carries a flag next to
its value: it is `exact` if no operation of it has wrapped.  The values are those of the words.
-/

/-- A value, and whether it has been computed without wrap-around. -/
@[ext]
structure Checked (α : Type*) where
  value : α
  exact : Bool
deriving DecidableEq, Repr

namespace Checked

universe u

variable {α β : Type u}

instance : Monad Checked where
  pure a := ⟨a, true⟩
  bind x k := ⟨(k x.value).value, x.exact && (k x.value).exact⟩

@[simp] theorem value_pure (a : α) : (pure a : Checked α).value = a := rfl

@[simp] theorem exact_pure (a : α) : (pure a : Checked α).exact = true := rfl

@[simp] theorem value_bind (x : Checked α) (k : α → Checked β) :
    (x >>= k).value = (k x.value).value := rfl

@[simp] theorem exact_bind (x : Checked α) (k : α → Checked β) :
    (x >>= k).exact = true ↔ x.exact = true ∧ (k x.value).exact = true := Bool.and_eq_true_iff

/-! ## Operations -/

def add (x y : UInt64) : Checked UInt64 := ⟨x + y, x.toNat + y.toNat < 2 ^ 64⟩

def sub (x y : UInt64) : Checked UInt64 := ⟨x - y, y ≤ x⟩

def mul (x y : UInt64) : Checked UInt64 := ⟨x * y, x.toNat * y.toNat < 2 ^ 64⟩

/-- `uint64(x)`. -/
def ofInt64 (x : Int64) : Checked UInt64 := ⟨x.toUInt64, 0 ≤ x⟩

@[simp] theorem exact_add (x y : UInt64) :
    (add x y).exact = true ↔ x.toNat + y.toNat < 2 ^ 64 := decide_eq_true_iff

@[simp] theorem exact_sub (x y : UInt64) : (sub x y).exact = true ↔ y.toNat ≤ x.toNat :=
  decide_eq_true_iff.trans UInt64.le_iff_toNat_le

@[simp] theorem exact_mul (x y : UInt64) :
    (mul x y).exact = true ↔ x.toNat * y.toNat < 2 ^ 64 := decide_eq_true_iff

@[simp] theorem exact_ofInt64 (x : Int64) : (ofInt64 x).exact = true ↔ 0 ≤ x := decide_eq_true_iff

theorem toNat_add {x y : UInt64} (h : x.toNat + y.toNat < 2 ^ 64) :
    (add x y).value.toNat = x.toNat + y.toNat := by
  rw [add, UInt64.toNat_add, Nat.mod_eq_of_lt h]

theorem toNat_sub {x y : UInt64} (h : y.toNat ≤ x.toNat) :
    (sub x y).value.toNat = x.toNat - y.toNat :=
  UInt64.toNat_sub_of_le x y (UInt64.le_iff_toNat_le.mpr h)

theorem toNat_mul {x y : UInt64} (h : x.toNat * y.toNat < 2 ^ 64) :
    (mul x y).value.toNat = x.toNat * y.toNat := by
  rw [mul, UInt64.toNat_mul, Nat.mod_eq_of_lt h]

end Checked
