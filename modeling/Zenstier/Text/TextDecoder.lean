import Zenstier.Text.Utf8

/-!
# The streaming decoder

A `TextDecoder` for UTF-8, as the Encoding standard describes it: it reads one byte after the
other, and keeps in its state what it has read of a character.  A byte that cannot go on a
character makes it a U+FFFD, and is read again.  The first character is dropped if it is a byte
order mark.
-/

/-- The decoder between two bytes. -/
structure TextDecoder where
  codePoint : Nat := 0
  bytesSeen : Nat := 0
  bytesNeeded : Nat := 0
  lowerBoundary : UInt8 := 0x80
  upperBoundary : UInt8 := 0xBF
  bomSeen : Bool := false
deriving DecidableEq, Repr

namespace TextDecoder

/-- No character is begun. -/
def reset (d : TextDecoder) : TextDecoder := { bomSeen := d.bomSeen }

/-- Gives a character out, unless it is the first one and a byte order mark. -/
def emit (d : TextDecoder) (c : Char) : List Char × TextDecoder :=
  (if d.bomSeen ∨ c ≠ Char.ofNat 0xFEFF then [c] else [], { d with bomSeen := true })

/-- A byte where a character begins. -/
def first (d : TextDecoder) (b : UInt8) : List Char × TextDecoder :=
  if b ≤ 0x7F then d.emit (Char.ofNat b.toNat)
  else if 0xC2 ≤ b ∧ b ≤ 0xDF then
    ([], { d with bytesNeeded := 1, codePoint := b.toNat % 0x20 })
  else if 0xE0 ≤ b ∧ b ≤ 0xEF then
    ([], { d with
      bytesNeeded := 2
      codePoint := b.toNat % 0x10
      lowerBoundary := if b = 0xE0 then 0xA0 else d.lowerBoundary
      upperBoundary := if b = 0xED then 0x9F else d.upperBoundary })
  else if 0xF0 ≤ b ∧ b ≤ 0xF4 then
    ([], { d with
      bytesNeeded := 3
      codePoint := b.toNat % 8
      lowerBoundary := if b = 0xF0 then 0x90 else d.lowerBoundary
      upperBoundary := if b = 0xF4 then 0x8F else d.upperBoundary })
  else d.emit Utf8.replacement

/-- Reads a byte. -/
def byte (d : TextDecoder) (b : UInt8) : List Char × TextDecoder :=
  if d.bytesNeeded = 0 then d.first b
  else if ¬ (d.lowerBoundary ≤ b ∧ b ≤ d.upperBoundary) then
    let (error, d) := d.reset.emit Utf8.replacement
    let (out, d) := d.first b
    (error ++ out, d)
  else
    let codePoint := d.codePoint * 64 + b.toNat % 64
    if d.bytesSeen + 1 = d.bytesNeeded then d.reset.emit (Char.ofNat codePoint)
    else
      ([], { d with
        codePoint := codePoint
        bytesSeen := d.bytesSeen + 1
        lowerBoundary := 0x80
        upperBoundary := 0xBF })

/-- `decoder.decode(value, { stream: true })`. -/
def decode (d : TextDecoder) : List UInt8 → List Char × TextDecoder
  | [] => ([], d)
  | b :: value =>
      let (out, d) := d.byte b
      let (text, d) := d.decode value
      (out ++ text, d)

@[simp] theorem decode_nil (d : TextDecoder) : d.decode [] = ([], d) := rfl

theorem decode_cons (d : TextDecoder) (b : UInt8) (value : List UInt8) :
    d.decode (b :: value) =
      ((d.byte b).1 ++ ((d.byte b).2.decode value).1, ((d.byte b).2.decode value).2) := rfl

/-- A value may come in two. -/
theorem decode_append (d : TextDecoder) (value value' : List UInt8) :
    d.decode (value ++ value') =
      ((d.decode value).1 ++ ((d.decode value).2.decode value').1,
        ((d.decode value).2.decode value').2) := by
  induction value generalizing d with
  | nil => rfl
  | cons b value ih => rw [List.cons_append, decode_cons, decode_cons, ih, List.append_assoc]

/-- What is given out for the values that are read one after the other. -/
def texts (d : TextDecoder) : List (List UInt8) → List (List Char)
  | [] => []
  | value :: values => (d.decode value).1 :: (d.decode value).2.texts values

theorem flatten_texts (d : TextDecoder) (values : List (List UInt8)) :
    (d.texts values).flatten = (d.decode values.flatten).1 := by
  induction values generalizing d with
  | nil => rfl
  | cons value values ih => rw [texts, List.flatten_cons, ih, List.flatten_cons, decode_append]

/-! ## Texts that are encoded -/

/-- The decoder after a character. -/
def ground : TextDecoder := { bomSeen := true }

theorem byte_one {k : Nat} (h : k < 128) :
    ground.byte (UInt8.ofNat k) = ([Char.ofNat k], ground) :=
  (by decide +kernel : ∀ k : Fin 128,
    ground.byte (UInt8.ofNat k.val) = ([Char.ofNat k.val], ground)) ⟨k, h⟩

theorem byte_two {k : Nat} (h : k < 32) (hlow : 2 ≤ k) :
    ground.byte (UInt8.ofNat (k + 0xC0)) = ([], ⟨k, 0, 1, 0x80, 0xBF, true⟩) :=
  (by decide +kernel : ∀ k : Fin 32, 2 ≤ k.val → ground.byte (UInt8.ofNat (k.val + 0xC0)) =
    ([], ⟨k, 0, 1, 0x80, 0xBF, true⟩)) ⟨k, h⟩ hlow

theorem byte_three {k : Nat} (h : k < 16) :
    ground.byte (UInt8.ofNat (k + 0xE0)) =
      ([], ⟨k, 0, 2, if k = 0 then 0xA0 else 0x80, if k = 13 then 0x9F else 0xBF, true⟩) :=
  (by decide +kernel : ∀ k : Fin 16, ground.byte (UInt8.ofNat (k.val + 0xE0)) =
    ([], ⟨k.val, 0, 2, if k.val = 0 then 0xA0 else 0x80, if k.val = 13 then 0x9F else 0xBF,
      true⟩)) ⟨k, h⟩

theorem byte_four {k : Nat} (h : k < 5) :
    ground.byte (UInt8.ofNat (k + 0xF0)) =
      ([], ⟨k, 0, 3, if k = 0 then 0x90 else 0x80, if k = 4 then 0x8F else 0xBF, true⟩) :=
  (by decide +kernel : ∀ k : Fin 5, ground.byte (UInt8.ofNat (k.val + 0xF0)) =
    ([], ⟨k.val, 0, 3, if k.val = 0 then 0x90 else 0x80, if k.val = 4 then 0x8F else 0xBF,
      true⟩)) ⟨k, h⟩

/-- A byte that goes on a character, within the boundaries. -/
theorem byte_tail (cp seen : Nat) {needed k : Nat} {lower upper : UInt8} (hneeded : seen < needed)
    (hk : k < 64) (hlow : lower.toNat ≤ k + 0x80) (hhigh : k + 0x80 ≤ upper.toNat) :
    byte ⟨cp, seen, needed, lower, upper, true⟩ (UInt8.ofNat (k + 0x80)) =
      if seen + 1 = needed then ([Char.ofNat (cp * 64 + k)], ground)
      else ([], ⟨cp * 64 + k, seen + 1, needed, 0x80, 0xBF, true⟩) := by
  have hb : (UInt8.ofNat (k + 0x80)).toNat = k + 0x80 := by
    rw [UInt8.toNat_ofNat', Nat.mod_eq_of_lt (by omega)]
  have hbounds : lower ≤ UInt8.ofNat (k + 0x80) ∧ UInt8.ofNat (k + 0x80) ≤ upper := by
    rw [UInt8.le_iff_toNat_le, UInt8.le_iff_toNat_le, hb]
    exact ⟨hlow, hhigh⟩
  have hmod : (k + 0x80) % 64 = k := by omega
  have hnonzero : needed ≠ 0 := by omega
  rw [byte]
  dsimp only
  rw [if_neg hnonzero, if_neg (not_not_intro hbounds), hb, hmod]
  rfl

/-- The last byte of a character. -/
theorem decode_last (cp seen : Nat) {k : Nat} {lower upper : UInt8} (hk : k < 64)
    (hlow : lower.toNat ≤ k + 0x80) (hhigh : k + 0x80 ≤ upper.toNat) :
    decode ⟨cp, seen, seen + 1, lower, upper, true⟩ [UInt8.ofNat (k + 0x80)] =
      ([Char.ofNat (cp * 64 + k)], ground) := by
  rw [decode_cons, byte_tail cp seen seen.lt_succ_self hk hlow hhigh, if_pos rfl]
  rfl

theorem decode_next (cp seen : Nat) {needed k : Nat} {lower upper : UInt8}
    (hneeded : seen + 1 < needed) (hk : k < 64) (hlow : lower.toNat ≤ k + 0x80)
    (hhigh : k + 0x80 ≤ upper.toNat) (value : List UInt8) :
    decode ⟨cp, seen, needed, lower, upper, true⟩ (UInt8.ofNat (k + 0x80) :: value) =
      decode ⟨cp * 64 + k, seen + 1, needed, 0x80, 0xBF, true⟩ value := by
  rw [decode_cons, byte_tail cp seen (by omega) hk hlow hhigh, if_neg (by omega)]
  rfl

theorem decode_first {d d' : TextDecoder} {b : UInt8} (h : d.byte b = ([], d'))
    (value : List UInt8) : d.decode (b :: value) = d'.decode value := by
  rw [decode_cons, h]
  rfl

/-- An encoded character is read back. -/
theorem decode_encode (c : Char) : ground.decode (String.utf8EncodeChar c) = ([c], ground) := by
  have hvalid : c.toNat < 0xD800 ∨ 0xDFFF < c.toNat ∧ c.toNat < 0x110000 := c.valid
  rw [String.utf8EncodeChar]
  generalize hv : c.val.toNat = v
  change c.toNat = v at hv
  have hc : Char.ofNat v = c := by rw [← hv, Char.ofNat_toNat]
  have htail (n : Nat) : n % 64 < 64 := Nat.mod_lt n (by decide)
  have hbound (n : Nat) : n % 64 + 0x80 ≤ (0xBF : UInt8).toNat :=
    Nat.add_le_add_right (Nat.le_of_lt_succ (htail n)) 0x80
  rw [hv] at hvalid
  split
  · rename_i hle
    rw [decode_cons, byte_one (Nat.lt_succ_of_le hle), hc]
    rfl
  split
  · rename_i hne hle
    have hchar : v / 64 % 32 * 64 + v % 64 = v := by omega
    rw [decode_first (byte_two (Nat.mod_lt _ (by decide)) (by omega)),
      decode_last _ _ (htail v) (Nat.le_add_left _ _) (hbound v), hchar, hc]
  split
  · rename_i hne hle
    have hchar : (v / 4096 % 16 * 64 + v / 64 % 64) * 64 + v % 64 = v := by omega
    have hlow : (if v / 4096 % 16 = 0 then 0xA0 else 0x80 : UInt8).toNat ≤ v / 64 % 64 + 0x80 := by
      split
      · change 0xA0 ≤ _
        omega
      · exact Nat.le_add_left _ _
    have hhigh : v / 64 % 64 + 0x80 ≤
        (if v / 4096 % 16 = 13 then 0x9F else 0xBF : UInt8).toNat := by
      split
      · change _ ≤ 0x9F
        omega
      · exact hbound _
    rw [decode_first (byte_three (Nat.mod_lt _ (by decide))),
      decode_next _ _ (by decide) (htail _) hlow hhigh,
      decode_last _ _ (htail v) (Nat.le_add_left _ _) (hbound v), hchar, hc]
  · rename_i hne
    have hchar : ((v / 262144 % 8 * 64 + v / 4096 % 64) * 64 + v / 64 % 64) * 64 + v % 64 = v := by
      omega
    have hlow : (if v / 262144 % 8 = 0 then 0x90 else 0x80 : UInt8).toNat ≤
        v / 4096 % 64 + 0x80 := by
      split
      · change 0x90 ≤ _
        omega
      · exact Nat.le_add_left _ _
    have hhigh : v / 4096 % 64 + 0x80 ≤
        (if v / 262144 % 8 = 4 then 0x8F else 0xBF : UInt8).toNat := by
      split
      · change _ ≤ 0x8F
        omega
      · exact hbound _
    rw [decode_first (byte_four (by omega)), decode_next _ _ (by decide) (htail _) hlow hhigh,
      decode_next _ _ (by decide) (htail _) (Nat.le_add_left _ _) (hbound _),
      decode_last _ _ (htail v) (Nat.le_add_left _ _) (hbound v), hchar, hc]

/-- A text is read back, however its encoding is cut. -/
theorem flatten_texts_utf8 {text : List Char} {values : List (List UInt8)}
    (h : values.flatten = Utf8.utf8 text) : (ground.texts values).flatten = text := by
  have hdecode : ground.decode (Utf8.utf8 text) = (text, ground) := by
    clear h
    induction text with
    | nil => rfl
    | cons c text ih => rw [Utf8.utf8_cons, decode_append, decode_encode, ih]; rfl
  rw [flatten_texts, h, hdecode]

end TextDecoder
