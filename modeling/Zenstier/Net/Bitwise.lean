import Zenstier.Runtime
import Mathlib.Data.BitVec

/-!
# The bitwise operators of JavaScript

They take the low 32 bits of their operands, and give signed integers, except for `>>>`.
`word x` is the number that the operators see in `x`; what they give is described by its word.
-/

namespace Zenstier.Net

/-- The operators of JavaScript work on 32 bits, and give signed integers. -/
def bitAnd (x y : Int) : Int := (BitVec.ofInt 32 x &&& BitVec.ofInt 32 y).toInt

def bitOr (x y : Int) : Int := (BitVec.ofInt 32 x ||| BitVec.ofInt 32 y).toInt

def shiftLeft (x : Int) (n : Nat) : Int := (BitVec.ofInt 32 x <<< (n % 32)).toInt

/-- `x >>> n` gives an unsigned integer. -/
def shiftRight (x : Int) (n : Nat) : Int := (BitVec.ofInt 32 x >>> (n % 32)).toNat

/-- The 32 bits that the operators see in an integer, as a natural number. -/
def word (x : Int) : Nat := (BitVec.ofInt 32 x).toNat

theorem word_lt (x : Int) : word x < 2 ^ 32 := BitVec.isLt _

@[simp] theorem word_toInt (x : BitVec 32) : word x.toInt = x.toNat := by
  rw [word, BitVec.ofInt_toInt]

@[simp] theorem word_natCast (n : Nat) : word n = n % 2 ^ 32 := by
  rw [word, BitVec.ofInt_natCast, BitVec.toNat_ofNat]

@[simp] theorem word_bitAnd (x y : Int) : word (bitAnd x y) = word x &&& word y := by
  rw [bitAnd, word_toInt, BitVec.toNat_and]
  rfl

@[simp] theorem word_bitOr (x y : Int) : word (bitOr x y) = word x ||| word y := by
  rw [bitOr, word_toInt, BitVec.toNat_or]
  rfl

theorem word_shiftLeft (x : Int) {n : Nat} (h : n < 32) :
    word (shiftLeft x n) = word x * 2 ^ n % 2 ^ 32 := by
  rw [shiftLeft, word_toInt, Nat.mod_eq_of_lt h, BitVec.toNat_shiftLeft, Nat.shiftLeft_eq]
  rfl

theorem shiftRight_eq (x : Int) {n : Nat} (h : n < 32) :
    shiftRight x n = (word x / 2 ^ n : Nat) := by
  rw [shiftRight, Nat.mod_eq_of_lt h, BitVec.toNat_ushiftRight, Nat.shiftRight_eq_div_pow]
  rfl

/-- A mask of fewer than 32 bits gives a number that is not negative. -/
theorem bitAnd_mask (x : Int) {k : Nat} (h : k < 32) :
    bitAnd x ((2 ^ k - 1 : Nat) : Int) = (word x % 2 ^ k : Nat) := by
  have hpow : 2 ^ k ≤ 2 ^ 31 := Nat.pow_le_pow_right Nat.two_pos (by omega)
  have hpos : 0 < 2 ^ k := Nat.two_pow_pos k
  have hword : (BitVec.ofInt 32 x &&& BitVec.ofInt 32 ((2 ^ k - 1 : Nat) : Int)).toNat =
      word x % 2 ^ k := by
    rw [BitVec.toNat_and, BitVec.ofInt_natCast, BitVec.toNat_ofNat,
      Nat.mod_eq_of_lt (by omega : 2 ^ k - 1 < 2 ^ 32), Nat.and_two_pow_sub_one_eq_mod]
    rfl
  have hlt : word x % 2 ^ k < 2 ^ k := Nat.mod_lt _ hpos
  rw [bitAnd, BitVec.toInt_eq_toNat_of_lt (by omega), hword]

/-- Shifting in `k` bits. -/
theorem word_shiftIn (x : Int) {k w : Nat} (hk : k < 32) (h : w < 2 ^ k) :
    word (bitOr (shiftLeft x k) w) = (word x * 2 ^ k + w) % 2 ^ 32 := by
  have hpow : 2 ^ k ∣ 2 ^ 32 := pow_dvd_pow 2 (by omega)
  have hw : w < 2 ^ 32 := lt_of_lt_of_le h (Nat.le_of_dvd (by decide) hpow)
  rw [word_bitOr, word_shiftLeft x hk, word_natCast, Nat.mod_eq_of_lt hw]
  obtain ⟨q, hq⟩ := (Nat.dvd_mod_iff hpow).mpr (Dvd.intro_left (word x) rfl)
  have hlt : 2 ^ k * q < 2 ^ 32 := hq ▸ Nat.mod_lt _ (by decide)
  have hsum : 2 ^ k * q + w < 2 ^ 32 := by
    obtain ⟨r, hr⟩ := hpow
    rw [hr] at hlt ⊢
    have hqr : q + 1 ≤ r := Nat.lt_of_mul_lt_mul_left hlt
    calc 2 ^ k * q + w < 2 ^ k * q + 2 ^ k := Nat.add_lt_add_left h _
      _ = 2 ^ k * (q + 1) := (Nat.mul_succ _ _).symm
      _ ≤ 2 ^ k * r := Nat.mul_le_mul_left _ hqr
  rw [hq, ← Nat.two_pow_add_eq_or_of_lt h q, Nat.add_mod, hq, Nat.mod_eq_of_lt hw,
    Nat.mod_eq_of_lt hsum]

end Zenstier.Net
