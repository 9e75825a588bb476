import Zenstier.Text.Utf8

/-!
# Strings in JSON

How the standard encoder of Go writes bytes as a JSON string, and how such a string is read.
The encoder escapes what must not stand in a string, the angle brackets and the ampersand, and
two line separators; an invalid byte becomes an escaped U+FFFD.
-/

namespace JsonString

open Utf8

/-! ## Writing -/

def hexDigit (n : Nat) : Char := if n < 10 then Char.ofNat (48 + n) else Char.ofNat (87 + n)

/-- A code unit as an escape. -/
def unicodeEscape (n : Nat) : List Char :=
  ['\\', 'u', hexDigit (n / 4096 % 16), hexDigit (n / 256 % 16), hexDigit (n / 16 % 16),
    hexDigit (n % 16)]

/-- The characters with a short escape, and its letter. -/
def shortEscapes : List (Char × Char) :=
  [('"', '"'), ('\\', '\\'), (Char.ofNat 8, 'b'), (Char.ofNat 9, 't'), (Char.ofNat 10, 'n'),
    (Char.ofNat 12, 'f'), (Char.ofNat 13, 'r')]

/-- The letter of the short escape of a character, if it has one. -/
def shortEscape (c : Char) : Option Char :=
  (shortEscapes.find? fun p ↦ p.1 = c).map (·.2)

/-- The character stands for itself in no string. -/
def Escaped (c : Char) : Prop :=
  c.toNat < 0x20 ∨ c = '<' ∨ c = '>' ∨ c = '&' ∨ c.toNat = 0x2028 ∨ c.toNat = 0x2029

instance (c : Char) : Decidable (Escaped c) := by unfold Escaped; infer_instance

def escapeChar (c : Char) : List Char :=
  match shortEscape c with
  | some e => ['\\', e]
  | none => if Escaped c then unicodeEscape c.toNat else [c]

/-- A character, or an invalid byte. -/
def escape : Option Char → List Char
  | some c => escapeChar c
  | none => unicodeEscape 0xFFFD

/-- What stands between the quotes. -/
def encode (bytes : List UInt8) : List Char := (scan bytes).flatMap escape

/-! ## Reading -/

def hexValue (c : Char) : Option Nat :=
  if '0' ≤ c ∧ c ≤ '9' then some (c.toNat - 48)
  else if 'a' ≤ c ∧ c ≤ 'f' then some (c.toNat - 87)
  else if 'A' ≤ c ∧ c ≤ 'F' then some (c.toNat - 55)
  else none

/-- The character of a code unit; a surrogate is none. -/
def ofCodeUnit (n : Nat) : Option Char := if n.isValidChar then some (Char.ofNat n) else none

/-- The character of a short escape; the slash may be written as one. -/
def ofShortEscape (e : Char) : Option Char :=
  ((('/', '/') :: shortEscapes).find? fun p ↦ p.2 = e).map (·.1)

def ofUnicodeEscape (a b c d : Char) : Option Char := do
  let n ← hexValue a
  let n' ← hexValue b
  let n'' ← hexValue c
  let n''' ← hexValue d
  ofCodeUnit (n * 4096 + n' * 256 + n'' * 16 + n''')

/-- Reads what stands between the quotes. -/
def decode : List Char → Option (List Char)
  | [] => some []
  | '\\' :: 'u' :: a :: b :: c :: d :: cs =>
      (ofUnicodeEscape a b c d).bind fun ch ↦ (decode cs).map (ch :: ·)
  | '\\' :: e :: cs => (ofShortEscape e).bind fun ch ↦ (decode cs).map (ch :: ·)
  | c :: cs =>
      if c = '"' ∨ c = '\\' ∨ c.toNat < 0x20 then none else (decode cs).map (c :: ·)

/-! ## The round trip -/

theorem hexValue_hexDigit {n : Nat} (h : n < 16) : hexValue (hexDigit n) = some n := by
  have hall : ∀ n : Fin 16, hexValue (hexDigit n) = some n.val := by decide
  exact hall ⟨n, h⟩

theorem ofUnicodeEscape_hexDigit {n : Nat} (h : n < 0x10000) :
    ofUnicodeEscape (hexDigit (n / 4096 % 16)) (hexDigit (n / 256 % 16)) (hexDigit (n / 16 % 16))
      (hexDigit (n % 16)) = ofCodeUnit n := by
  rw [ofUnicodeEscape, hexValue_hexDigit (Nat.mod_lt _ (by decide)),
    hexValue_hexDigit (Nat.mod_lt _ (by decide)), hexValue_hexDigit (Nat.mod_lt _ (by decide)),
    hexValue_hexDigit (Nat.mod_lt _ (by decide))]
  show ofCodeUnit _ = _
  congr 1
  omega

theorem ofCodeUnit_toNat (c : Char) : ofCodeUnit c.toNat = some c := by
  have hvalid : c.toNat.isValidChar := c.valid
  rw [ofCodeUnit, if_pos hvalid, Char.ofNat_toNat]

theorem decode_unicodeEscape_append {c : Char} (h : c.toNat < 0x10000) (cs : List Char) :
    decode (unicodeEscape c.toNat ++ cs) = (decode cs).map (c :: ·) := by
  rw [unicodeEscape]
  show (ofUnicodeEscape _ _ _ _).bind _ = _
  rw [ofUnicodeEscape_hexDigit h, ofCodeUnit_toNat]
  rfl

theorem ofShortEscape_shortEscape {c e : Char} (h : shortEscape c = some e) :
    ofShortEscape e = some c ∧ e ≠ 'u' := by
  have htable : ∀ p ∈ shortEscapes, ofShortEscape p.2 = some p.1 ∧ p.2 ≠ 'u' := by decide
  obtain ⟨p, hp, rfl⟩ := Option.map_eq_some_iff.mp h
  have hfound := List.find?_some hp
  exact of_decide_eq_true hfound ▸ htable p (List.mem_of_find?_eq_some hp)

/-- A character that has no short escape is neither a quote nor a backslash. -/
theorem ne_of_shortEscape_none {c : Char} (h : shortEscape c = none) : c ≠ '"' ∧ c ≠ '\\' := by
  constructor
  · rintro rfl
    exact absurd h (by decide)
  · rintro rfl
    exact absurd h (by decide)

theorem Escaped.toNat_lt {c : Char} (h : Escaped c) : c.toNat < 0x10000 := by
  rcases h with h | rfl | rfl | rfl | h | h
  · omega
  · decide
  · decide
  · decide
  · omega
  · omega

theorem decode_escapeChar_append (c : Char) (cs : List Char) :
    decode (escapeChar c ++ cs) = (decode cs).map (c :: ·) := by
  unfold escapeChar
  cases hshort : shortEscape c with
  | some e =>
      obtain ⟨hread, hu⟩ := ofShortEscape_shortEscape hshort
      show decode ('\\' :: e :: cs) = _
      rw [decode, hread]
      · rfl
      · rintro a b d d' rest rfl
        exact absurd rfl hu
  | none =>
      dsimp only
      split
      · rename_i hesc
        exact decode_unicodeEscape_append hesc.toNat_lt cs
      · rename_i hplain
        obtain ⟨hquote, hslash⟩ := ne_of_shortEscape_none hshort
        show decode (c :: cs) = _
        rw [decode, if_neg]
        · rintro (h | h | h)
          · exact hquote h
          · exact hslash h
          · exact hplain (.inl h)
        · rintro a b d d' rest rfl
          exact fun _ ↦ hslash rfl
        · rintro e rest rfl
          exact fun _ ↦ hslash rfl

theorem decode_escape_append (c : Option Char) (cs : List Char) :
    decode (escape c ++ cs) = (decode cs).map (c.getD replacement :: ·) := by
  cases c with
  | some c => exact decode_escapeChar_append c cs
  | none => exact decode_unicodeEscape_append (by decide : replacement.toNat < 0x10000) cs

/-- What has been written is read, with U+FFFD for invalid bytes. -/
theorem decode_encode (bytes : List UInt8) : decode (encode bytes) = some (lossy bytes) := by
  rw [encode, lossy]
  induction scan bytes with
  | nil => rfl
  | cons c rest ih =>
      rw [List.flatMap_cons, decode_escape_append, ih, List.map_cons, Option.map_some]

/-! ## Sizes -/

/-- The bytes that a character, or an invalid byte, takes between the quotes. -/
def width : Option Char → Nat
  | some c => if (shortEscape c).isSome then 2 else if Escaped c then 6 else c.utf8Size
  | none => 6

theorem utf8Size_hexDigit {n : Nat} (h : n < 16) : (hexDigit n).utf8Size = 1 := by
  have hall : ∀ n : Fin 16, (hexDigit n).utf8Size = 1 := by decide
  exact hall ⟨n, h⟩

theorem size_unicodeEscape (n : Nat) : size (unicodeEscape n) = 6 := by
  have hdigit : ∀ m, (hexDigit (m % 16)).utf8Size = 1 :=
    fun m ↦ utf8Size_hexDigit (Nat.mod_lt m (by decide))
  rw [unicodeEscape, size_cons, size_cons, size_cons, size_cons, size_cons, size_cons, hdigit,
    hdigit, hdigit, hdigit]
  rfl

theorem size_escape (c : Option Char) : size (escape c) = width c := by
  have htable : ∀ p ∈ shortEscapes, p.2.utf8Size = 1 := by decide
  cases c with
  | none => exact size_unicodeEscape _
  | some c =>
      show size (escapeChar c) = if _ then _ else _
      unfold escapeChar
      cases hshort : shortEscape c with
      | some e =>
          obtain ⟨p, hp, rfl⟩ := Option.map_eq_some_iff.mp hshort
          show size ['\\', p.2] = 2
          rw [size_cons, size_cons, htable p (List.mem_of_find?_eq_some hp)]
          rfl
      | none =>
          show size (if _ then _ else _) = if Escaped c then 6 else c.utf8Size
          split
          · exact size_unicodeEscape _
          · rw [size_cons, size_nil, Nat.add_zero]

/-- The bytes that a string takes between the quotes. -/
def escapedSize (bytes : List UInt8) : Nat := ((scan bytes).map width).sum

theorem size_encode (bytes : List UInt8) : size (encode bytes) = escapedSize bytes := by
  rw [encode, escapedSize]
  induction scan bytes with
  | nil => rfl
  | cons c rest ih =>
      rw [List.flatMap_cons, size_append, size_escape, ih, List.map_cons, List.sum_cons]

theorem utf8Size_le_width (c : Char) : c.utf8Size ≤ width (some c) := by
  have htable : ∀ p ∈ shortEscapes, p.1.utf8Size = 1 := by decide
  have hle := c.utf8Size_le_four
  show _ ≤ if _ then _ else _
  split
  · rename_i hshort
    obtain ⟨e, he⟩ := Option.isSome_iff_exists.mp hshort
    obtain ⟨p, hp, -⟩ := Option.map_eq_some_iff.mp he
    have hfound := List.find?_some hp
    have hc : p.1 = c := of_decide_eq_true hfound
    rw [← hc, htable p (List.mem_of_find?_eq_some hp)]
    decide
  · split <;> omega

theorem width_le_six (c : Option Char) : width c ≤ 6 := by
  cases c with
  | none => exact Nat.le_refl 6
  | some c =>
      have hle := c.utf8Size_le_four
      show (if _ then _ else _) ≤ 6
      split
      · decide
      · split <;> omega

/-- A byte takes at least one byte, and at most six. -/
theorem escapedSize_bounds (bytes : List UInt8) :
    bytes.length ≤ escapedSize bytes ∧ escapedSize bytes ≤ 6 * bytes.length := by
  unfold escapedSize
  induction bytes using scan_induction with
  | nil => exact ⟨Nat.le_refl 0, Nat.le_refl 0⟩
  | char c rest ih =>
      rw [scan_encode_append, List.map_cons, List.sum_cons, List.length_append,
        String.length_utf8EncodeChar]
      have hlow := utf8Size_le_width c
      have hhigh := width_le_six (some c)
      have hpos := c.utf8Size_pos
      omega
  | invalid b bytes hscan ih =>
      rw [hscan, List.map_cons, List.sum_cons, List.length_cons]
      have hwidth : width none = 6 := rfl
      omega

/-- Zero bytes take six each. -/
theorem escapedSize_replicate_zero (n : Nat) : escapedSize (List.replicate n 0) = 6 * n := by
  unfold escapedSize
  induction n with
  | zero => rfl
  | succ n ih =>
      have hscan : scan (0 :: List.replicate n 0) =
          some (Char.ofNat 0) :: scan (List.replicate n 0) :=
        scan_encode_append (Char.ofNat 0) (List.replicate n 0)
      rw [List.replicate_succ, hscan, List.map_cons, List.sum_cons, ih]
      have hwidth : width (some (Char.ofNat 0)) = 6 := by decide
      omega

end JsonString
