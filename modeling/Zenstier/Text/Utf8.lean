import Mathlib.Algebra.GroupWithZero.Nat
import Mathlib.Data.List.Basic

/-!
# UTF-8 and bytes that are not

`utf8` encodes a text.  `scan` reads bytes the other way: it yields the characters it finds, and
an invalid byte for every byte that begins none.  `lossy` puts U+FFFD for each of these.  A text
that is cut into pieces is read back from the pieces exactly if every piece begins where a
character does: a piece that does not costs at least one character more.
-/

namespace Utf8

/-- The encoding of a text. -/
def utf8 (text : List Char) : List UInt8 := text.flatMap String.utf8EncodeChar

@[simp] theorem utf8_nil : utf8 [] = [] := rfl

@[simp] theorem utf8_cons (c : Char) (text : List Char) :
    utf8 (c :: text) = String.utf8EncodeChar c ++ utf8 text := rfl

@[simp] theorem utf8_append (text text' : List Char) :
    utf8 (text ++ text') = utf8 text ++ utf8 text' := List.flatMap_append

/-- The number of bytes of a text. -/
def size (text : List Char) : Nat := (utf8 text).length

@[simp] theorem size_nil : size [] = 0 := rfl

@[simp] theorem size_cons (c : Char) (text : List Char) :
    size (c :: text) = c.utf8Size + size text := by
  rw [size, utf8_cons, List.length_append, String.length_utf8EncodeChar, size]

@[simp] theorem size_append (text text' : List Char) :
    size (text ++ text') = size text + size text' := by
  rw [size, utf8_append, List.length_append, size, size]

/-- The first character of some bytes, if they begin with one. -/
def decodeRune (bytes : List UInt8) : Option Char := bytes.toByteArray.utf8DecodeChar? 0

/-- Reads the bytes after those to be skipped. -/
def scanFrom : Nat → List UInt8 → List (Option Char)
  | _, [] => []
  | skip + 1, _ :: bytes => scanFrom skip bytes
  | 0, b :: bytes => match decodeRune (b :: bytes) with
      | some c => some c :: scanFrom (c.utf8Size - 1) bytes
      | none => none :: scanFrom 0 bytes

/-- The characters, and an invalid byte for each byte that begins none. -/
def scan (bytes : List UInt8) : List (Option Char) := scanFrom 0 bytes

/-- U+FFFD. -/
def replacement : Char := Char.ofNat 0xFFFD

/-- The text read, with U+FFFD for invalid bytes. -/
def lossy (bytes : List UInt8) : List Char := (scan bytes).map (·.getD replacement)

/-! ## Single characters -/

theorem decodeRune_encode (c : Char) (bytes : List UInt8) :
    decodeRune (String.utf8EncodeChar c ++ bytes) = some c := by
  rw [decodeRune, List.toByteArray_append]
  exact ByteArray.utf8DecodeChar?_utf8EncodeChar_append

theorem exists_of_decodeRune {bytes : List UInt8} {c : Char} (h : decodeRune bytes = some c) :
    ∃ rest, bytes = String.utf8EncodeChar c ++ rest := by
  obtain ⟨rest, hrest⟩ := ByteArray.exists_of_utf8DecodeChar?_eq_some h
  refine ⟨rest.data.toList, ?_⟩
  have hdata := congrArg (fun b : ByteArray ↦ b.data.toList) hrest
  simpa using hdata

/-- An encoding is a byte that begins a character, and bytes that do not. -/
theorem exists_encode (c : Char) : ∃ b bytes, String.utf8EncodeChar c = b :: bytes ∧
    b.IsUTF8FirstByte ∧ (∀ b' ∈ bytes, ¬ b'.IsUTF8FirstByte) ∧ bytes.length = c.utf8Size - 1 := by
  cases henc : String.utf8EncodeChar c with
  | nil =>
      have hlen := congrArg List.length henc
      rw [String.length_utf8EncodeChar] at hlen
      exact absurd hlen (Nat.ne_of_gt c.utf8Size_pos)
  | cons b bytes =>
      have hlen := congrArg List.length henc
      rw [String.length_utf8EncodeChar, List.length_cons] at hlen
      have hfirst : ∀ i (hi : i < (b :: bytes).length),
          ((b :: bytes)[i]).IsUTF8FirstByte ↔ i = 0 := by
        intro i hi
        have := @UInt8.isUTF8FirstByte_getElem_utf8EncodeChar c i (henc ▸ hi)
        simpa only [henc] using this
      refine ⟨b, bytes, rfl, (hfirst 0 (Nat.succ_pos _)).mpr rfl, ?_, by omega⟩
      intro b' hb'
      obtain ⟨i, hi, rfl⟩ := List.getElem_of_mem hb'
      exact fun h ↦ Nat.succ_ne_zero i ((hfirst (i + 1) (Nat.succ_lt_succ hi)).mp h)

/-- A byte that does not begin a character is not the first of any. -/
theorem decodeRune_of_not_first {b : UInt8} (hb : ¬ b.IsUTF8FirstByte) (bytes : List UInt8) :
    decodeRune (b :: bytes) = none := by
  cases h : decodeRune (b :: bytes) with
  | none => rfl
  | some c =>
      obtain ⟨rest, hrest⟩ := exists_of_decodeRune h
      obtain ⟨b', bytes', henc, hfirst, -, -⟩ := exists_encode c
      rw [henc, List.cons_append] at hrest
      exact absurd ((List.cons.inj hrest).1 ▸ hfirst) hb

/-! ## Scanning -/

@[simp] theorem scan_nil : scan [] = [] := rfl

theorem scanFrom_eq (skip : Nat) (bytes : List UInt8) :
    scanFrom skip bytes = scan (bytes.drop skip) := by
  induction bytes generalizing skip with
  | nil =>
      rw [List.drop_nil]
      cases skip <;> rfl
  | cons b bytes ih =>
      cases skip with
      | zero => rfl
      | succ skip => exact ih skip

/-- A character is read, and reading goes on behind it. -/
theorem scan_encode_append (c : Char) (bytes : List UInt8) :
    scan (String.utf8EncodeChar c ++ bytes) = some c :: scan bytes := by
  have hdecode := decodeRune_encode c bytes
  obtain ⟨b, bytes', henc, -, -, hlen⟩ := exists_encode c
  rw [henc, List.cons_append] at hdecode ⊢
  rw [scan, scanFrom, hdecode]
  dsimp only
  rw [scanFrom_eq, ← hlen, List.drop_left]

/-- An invalid byte is reported, and reading goes on behind it. -/
theorem scan_cons_of_none {b : UInt8} {bytes : List UInt8} (h : decodeRune (b :: bytes) = none) :
    scan (b :: bytes) = none :: scan bytes := by
  rw [scan, scanFrom, h]
  rfl

/-- Bytes begin with a character, or with an invalid byte. -/
theorem scan_cases (b : UInt8) (bytes : List UInt8) :
    (∃ c rest, b :: bytes = String.utf8EncodeChar c ++ rest ∧
      scan (b :: bytes) = some c :: scan rest) ∨ scan (b :: bytes) = none :: scan bytes := by
  cases h : decodeRune (b :: bytes) with
  | none => exact .inr (scan_cons_of_none h)
  | some c =>
      obtain ⟨rest, hrest⟩ := exists_of_decodeRune h
      exact .inl ⟨c, rest, hrest, by rw [hrest, scan_encode_append]⟩

/-- Bytes are built from characters and invalid bytes, from the end to the front. -/
theorem scan_induction {motive : List UInt8 → Prop} (nil : motive [])
    (char : ∀ c rest, motive rest → motive (String.utf8EncodeChar c ++ rest))
    (invalid : ∀ b bytes, scan (b :: bytes) = none :: scan bytes → motive bytes →
      motive (b :: bytes)) (bytes : List UInt8) : motive bytes := by
  induction hlen : bytes.length using Nat.strongRecOn generalizing bytes with
  | ind n ih =>
      cases bytes with
      | nil => exact nil
      | cons b bytes =>
          rcases scan_cases b bytes with ⟨c, rest, hbytes, -⟩ | hscan
          · have hshort : rest.length < n := by
              have := congrArg List.length hbytes
              rw [List.length_append, String.length_utf8EncodeChar, hlen] at this
              have := c.utf8Size_pos
              omega
            rw [hbytes]
            exact char c rest (ih _ hshort rest rfl)
          · refine invalid b bytes hscan (ih bytes.length ?_ bytes rfl)
            rw [← hlen]
            exact Nat.lt_succ_self _

theorem scan_utf8 (text : List Char) : scan (utf8 text) = text.map some := by
  induction text with
  | nil => rfl
  | cons c text ih => rw [utf8_cons, scan_encode_append, ih, List.map_cons]

/-- What is encoded is read back. -/
theorem lossy_utf8 (text : List Char) : lossy (utf8 text) = text := by
  rw [lossy, scan_utf8, List.map_map]
  exact List.map_id text

/-! ## Pieces of a text -/

/-- How many of the bytes begin a character. -/
def firsts (bytes : List UInt8) : Nat := bytes.countP (·.IsUTF8FirstByte)

theorem firsts_append (bytes bytes' : List UInt8) :
    firsts (bytes ++ bytes') = firsts bytes + firsts bytes' := List.countP_append

theorem firsts_encode (c : Char) : firsts (String.utf8EncodeChar c) = 1 := by
  obtain ⟨b, bytes, henc, hfirst, hrest, -⟩ := exists_encode c
  have hzero : bytes.countP (·.IsUTF8FirstByte) = 0 :=
    List.countP_eq_zero.mpr fun b' hb' h ↦ hrest b' hb' (of_decide_eq_true h)
  rw [henc, firsts, List.countP_cons, hzero, if_pos (decide_eq_true hfirst)]

theorem firsts_utf8 (text : List Char) : firsts (utf8 text) = text.length := by
  induction text with
  | nil => rfl
  | cons c text ih =>
      rw [utf8_cons, firsts_append, firsts_encode, ih, List.length_cons, Nat.add_comm]

/-- Nothing that begins a character is lost. -/
theorem firsts_le_length_scan (bytes : List UInt8) : firsts bytes ≤ (scan bytes).length := by
  induction bytes using scan_induction with
  | nil => exact Nat.le_refl 0
  | char c rest ih =>
      rw [scan_encode_append, firsts_append, firsts_encode, List.length_cons]
      omega
  | invalid b bytes hscan ih =>
      have hle : firsts (b :: bytes) ≤ firsts bytes + 1 := by
        rw [firsts, List.countP_cons, firsts]
        split <;> omega
      rw [hscan, List.length_cons]
      omega

/-- A piece that begins where a character does, if it has any bytes. -/
def Aligned (piece : List UInt8) : Prop := ∀ b ∈ piece.head?, b.IsUTF8FirstByte

instance (piece : List UInt8) : Decidable (Aligned piece) :=
  match piece with
  | [] => .isTrue fun _ hb ↦ nomatch hb
  | b :: _ => decidable_of_iff b.IsUTF8FirstByte
      ⟨fun h _ hb ↦ Option.some.inj hb ▸ h, fun h ↦ h b rfl⟩

/-- A piece that begins elsewhere costs a character more. -/
theorem firsts_lt_length_scan {piece : List UInt8} (h : ¬ Aligned piece) :
    firsts piece < (scan piece).length := by
  cases piece with
  | nil => exact absurd (fun _ hb ↦ nomatch hb) h
  | cons b bytes =>
      have hb : ¬ b.IsUTF8FirstByte := fun hfirst ↦
        h fun b' hb' ↦ Option.some.inj hb' ▸ hfirst
      have hskip : firsts (b :: bytes) = firsts bytes :=
        List.countP_cons_of_neg fun hfirst ↦ hb (of_decide_eq_true hfirst)
      rw [scan_cons_of_none (decodeRune_of_not_first hb bytes), hskip, List.length_cons]
      exact Nat.lt_succ_of_le (firsts_le_length_scan bytes)

/-- A text that is cut where a character begins is cut into two texts. -/
theorem exists_of_utf8_eq_append {text : List Char} {piece rest : List UInt8}
    (h : utf8 text = piece ++ rest) (hrest : Aligned rest) :
    ∃ t t', text = t ++ t' ∧ piece = utf8 t ∧ rest = utf8 t' := by
  induction text generalizing piece with
  | nil =>
      obtain ⟨rfl, rfl⟩ := List.append_eq_nil_iff.mp h.symm
      exact ⟨[], [], rfl, rfl, rfl⟩
  | cons c text ih =>
      rw [utf8_cons] at h
      rcases List.append_eq_append_iff.mp h with ⟨piece', rfl, htext⟩ | ⟨part, henc, hrest'⟩
      · obtain ⟨t, t', rfl, rfl, rfl⟩ := ih htext
        exact ⟨c :: t, t', rfl, rfl, rfl⟩
      · -- the cut is within the character, or at one of its ends
        cases part with
        | nil =>
            rw [List.append_nil] at henc
            exact ⟨[c], text, rfl, by rw [utf8_cons, henc, utf8_nil, List.append_nil], hrest'⟩
        | cons b part =>
            cases piece with
            | nil => exact ⟨[], c :: text, rfl, rfl, by rw [utf8_cons, henc]; exact hrest'⟩
            | cons b' piece =>
                obtain ⟨b₀, bytes, hchar, -, hconts, -⟩ := exists_encode c
                rw [hchar, List.cons_append] at henc
                have hmem : b ∈ bytes := by
                  rw [(List.cons.inj henc).2]
                  exact List.mem_append_right _ List.mem_cons_self
                exact absurd (hrest b (hrest' ▸ rfl)) (hconts b hmem)

theorem length_lossy (bytes : List UInt8) : (lossy bytes).length = (scan bytes).length :=
  List.length_map _

theorem firsts_flatten_le (pieces : List (List UInt8)) :
    firsts pieces.flatten ≤ (pieces.flatMap lossy).length := by
  induction pieces with
  | nil => exact Nat.le_refl 0
  | cons piece pieces ih =>
      rw [List.flatten_cons, firsts_append, List.flatMap_cons, List.length_append, length_lossy]
      exact Nat.add_le_add (firsts_le_length_scan piece) ih

theorem firsts_flatten_lt {pieces : List (List UInt8)} (h : ∃ piece ∈ pieces, ¬ Aligned piece) :
    firsts pieces.flatten < (pieces.flatMap lossy).length := by
  induction pieces with
  | nil =>
      obtain ⟨piece, hpiece, -⟩ := h
      cases hpiece
  | cons piece pieces ih =>
      rw [List.flatten_cons, firsts_append, List.flatMap_cons, List.length_append, length_lossy]
      obtain ⟨piece', hpiece', hcut⟩ := h
      rcases List.mem_cons.mp hpiece' with rfl | hmem
      · exact Nat.add_lt_add_of_lt_of_le (firsts_lt_length_scan hcut) (firsts_flatten_le pieces)
      · exact Nat.add_lt_add_of_le_of_lt (firsts_le_length_scan piece) (ih ⟨piece', hmem, hcut⟩)

theorem aligned_flatten {pieces : List (List UInt8)} (h : ∀ piece ∈ pieces, Aligned piece) :
    Aligned pieces.flatten := by
  induction pieces with
  | nil => exact fun _ hb ↦ nomatch hb
  | cons piece pieces ih =>
      obtain ⟨hpiece, hpieces⟩ := List.forall_mem_cons.mp h
      cases piece with
      | nil => exact ih hpieces
      | cons b bytes => exact hpiece

/-- The pieces of a text are read back as the text exactly if each begins where a character
does. -/
theorem flatMap_lossy_eq_iff {text : List Char} {pieces : List (List UInt8)}
    (h : utf8 text = pieces.flatten) :
    pieces.flatMap lossy = text ↔ ∀ piece ∈ pieces, Aligned piece := by
  constructor
  · intro htext piece hpiece
    by_contra hcut
    have hlt := firsts_flatten_lt ⟨piece, hpiece, hcut⟩
    rw [← h, firsts_utf8, htext] at hlt
    exact Nat.lt_irrefl _ hlt
  · intro haligned
    induction pieces generalizing text with
    | nil =>
        cases text with
        | nil => rfl
        | cons c text =>
            have hlen := congrArg firsts h
            rw [firsts_utf8] at hlen
            cases hlen
    | cons piece pieces ih =>
        obtain ⟨-, hpieces⟩ := List.forall_mem_cons.mp haligned
        obtain ⟨t, t', rfl, rfl, ht'⟩ := exists_of_utf8_eq_append h (aligned_flatten hpieces)
        rw [List.flatMap_cons, lossy_utf8, ih ht'.symm hpieces]

end Utf8
