import Zenstier.Auth.Totp
import Zenstier.Net.Bitwise
import Zenstier.Text.Bits

/-!
# Base 32

The loops of `base32Encode` and `base32Decode` shift into an accumulator that nothing masks: the
operators of the language keep 32 bits of it, with a sign, and only the last few are pending.
Here the loops are written with those operators, and shown to be the ones of `Totp`.  Pending bits
and text then denote sequences of bits, and every turn of a loop keeps the sequence.
-/

namespace Zenstier.Totp

/-! ## The loops, with the operators of the language -/

namespace Signed

open Net

/-- `BASE32_ALPHABET[i]`, of an index that a mask has made. -/
def charAt (i : Int) : Char := BASE32_ALPHABET.getD i.toNat 'A'

def drain (value : Int) : Nat → List Char × Nat
  | bits =>
      if 5 ≤ bits then
        let (out, left) := drain value (bits - 5)
        (charAt (bitAnd (shiftRight value (bits - 5)) 31) :: out, left)
      else ([], bits)

def encodeFrom (value : Int) (bits : Nat) : List UInt8 → List Char
  | [] => if 0 < bits then [charAt (bitAnd (shiftLeft value (5 - bits)) 31)] else []
  | byte :: buffer =>
      let value := bitOr (shiftLeft value 8) byte.toNat
      let (out, left) := drain value (bits + 8)
      out ++ encodeFrom value left buffer

def base32Encode (buffer : List UInt8) : String := String.ofList (encodeFrom 0 0 buffer)

def decodeFrom (value : Int) (bits : Nat) : List Char → Except Err (List UInt8)
  | [] => .ok []
  | char :: rest => match BASE32_ALPHABET.findIdx? (· = char) with
      | none => .error (.error ("Invalid base32 character: " ++ char.toString))
      | some index =>
          let value := bitOr (shiftLeft value 5) index
          let bits := bits + 5
          if 8 ≤ bits then
            (decodeFrom value (bits - 8) rest).map
              (UInt8.ofNat (bitAnd (shiftRight value (bits - 8)) 0xff).toNat :: ·)
          else decodeFrom value bits rest

/-- `input.toUpperCase().replace(/=+$/, "").replace(/\s/g, "")`, decoded. -/
def base32Decode (input : String) : Except Err (List UInt8) :=
  decodeFrom 0 0 ((stripPadding (toUpperCase input).toList).filter (!isTrimmed ·))

theorem charAt_eq (x : Int) :
    charAt (bitAnd x 31) = BASE32_ALPHABET.getD (word x % 32) 'A' := by
  rw [show (31 : Int) = ((2 ^ 5 - 1 : Nat) : Int) from rfl, bitAnd_mask x (by decide), charAt,
    Int.toNat_natCast]
  rfl

theorem word_shiftRight (x : Int) {n : Nat} (h : n < 32) :
    word (shiftRight x n) = word x / 2 ^ n := by
  rw [shiftRight_eq x h, word_natCast,
    Nat.mod_eq_of_lt (lt_of_le_of_lt (Nat.div_le_self _ _) (word_lt x))]

theorem drain_eq (value : Int) {bits : Nat} (h : bits < 32) :
    drain value bits = Totp.drain (word value) bits := by
  induction bits using Nat.strong_induction_on with
  | _ bits ih =>
      rw [drain, Totp.drain]
      split
      · rw [ih (bits - 5) (by omega) (by omega), charAt_eq, word_shiftRight _ (by omega)]
      · rfl

end Signed

/-- Fewer than five bits are left. -/
theorem drain_left_lt (value bits : Nat) : (drain value bits).2 < 5 := by
  induction bits using Nat.strong_induction_on with
  | _ bits ih =>
      rw [drain]
      split
      · exact ih (bits - 5) (by omega)
      · omega

namespace Signed

open Net

theorem encodeFrom_eq (value : Int) {bits : Nat} (h : bits < 5) (buffer : List UInt8) :
    encodeFrom value bits buffer = Totp.encodeFrom (word value) bits buffer := by
  induction buffer generalizing value bits with
  | nil =>
      rw [encodeFrom, Totp.encodeFrom]
      split
      · rw [charAt_eq, word_shiftLeft _ (by omega), Nat.mod_mod_of_dvd _ (by decide)]
      · rfl
  | cons byte buffer ih =>
      rw [encodeFrom, Totp.encodeFrom]
      dsimp only
      rw [drain_eq _ (by omega), word_shiftIn value (by decide) byte.toNat_lt,
        ih _ (drain_left_lt _ _), word_shiftIn value (by decide) byte.toNat_lt]
      rfl

theorem base32Encode_eq (buffer : List UInt8) :
    base32Encode buffer = Totp.base32Encode buffer := by
  rw [base32Encode, Totp.base32Encode, encodeFrom_eq 0 (by decide)]
  rfl

theorem decodeFrom_eq (value : Int) {bits : Nat} (h : bits < 8) (text : List Char) :
    decodeFrom value bits text = Totp.decodeFrom (word value) bits text := by
  induction text generalizing value bits with
  | nil => rfl
  | cons char text ih =>
      rw [decodeFrom, Totp.decodeFrom]
      cases hindex : BASE32_ALPHABET.findIdx? (· = char) with
      | none => rfl
      | some index =>
          have hlt : index < 2 ^ 5 := (List.findIdx?_eq_some_iff_getElem.mp hindex).1
          dsimp only
          split
          · rw [ih _ (by omega), word_shiftIn value (by decide) hlt,
              show (0xff : Int) = ((2 ^ 8 - 1 : Nat) : Int) from rfl, bitAnd_mask _ (by decide),
              word_shiftRight _ (by omega), word_shiftIn value (by decide) hlt, Int.toNat_natCast]
            rfl
          · rw [ih _ (by omega), word_shiftIn value (by decide) hlt]
            rfl

theorem base32Decode_eq (input : String) : base32Decode input = Totp.base32Decode input := by
  rw [base32Decode, Totp.base32Decode, decodeFrom_eq 0 (by decide)]
  rfl

end Signed

/-! ## What texts and accumulators denote -/

open Bits (write)

/-- The five bits of a digit. -/
def digitBits (c : Char) : List Bool := write 5 (BASE32_ALPHABET.idxOf c)

def textBits (text : List Char) : List Bool := text.flatMap digitBits

def bufferBits (buffer : List UInt8) : List Bool := buffer.flatMap fun byte ↦ write 8 byte.toNat

theorem idxOf_digit {d : Nat} (h : d < 32) :
    BASE32_ALPHABET.idxOf (BASE32_ALPHABET.getD d 'A') = d :=
  (by decide : ∀ d : Fin 32, BASE32_ALPHABET.idxOf (BASE32_ALPHABET.getD d.val 'A') = d.val) ⟨d, h⟩

theorem digit_mem {d : Nat} (h : d < 32) : BASE32_ALPHABET.getD d 'A' ∈ BASE32_ALPHABET := by
  rw [List.getD_eq_getElem _ _ (show d < BASE32_ALPHABET.length from h)]
  exact List.getElem_mem _

theorem digitBits_digit (n : Nat) :
    digitBits (BASE32_ALPHABET.getD (n % 32) 'A') = write 5 n := by
  rw [digitBits, idxOf_digit (Nat.mod_lt _ (by decide))]
  exact Bits.write_mod (le_refl 5) n

@[simp] theorem textBits_cons (c : Char) (text : List Char) :
    textBits (c :: text) = digitBits c ++ textBits text := List.flatMap_cons

@[simp] theorem textBits_append (s t : List Char) :
    textBits (s ++ t) = textBits s ++ textBits t := List.flatMap_append

@[simp] theorem bufferBits_cons (byte : UInt8) (buffer : List UInt8) :
    bufferBits (byte :: buffer) = write 8 byte.toNat ++ bufferBits buffer := List.flatMap_cons

@[simp] theorem length_bufferBits (buffer : List UInt8) :
    (bufferBits buffer).length = buffer.length * 8 := Bits.length_flatMap_write buffer

theorem bufferBits_injective {b b' : List UInt8} (hlength : b.length = b'.length)
    (h : bufferBits b = bufferBits b') : b = b' :=
  Bits.flatMap_write_injective (fun byte ↦ byte.toNat_lt) (fun _ _ ↦ UInt8.toNat_inj.mp)
    hlength h

/-! ### Encoding -/

theorem drain_mem (value bits : Nat) : ∀ c ∈ (drain value bits).1, c ∈ BASE32_ALPHABET := by
  induction bits using Nat.strong_induction_on with
  | _ bits ih =>
      rw [drain]
      split
      · exact List.forall_mem_cons.mpr
          ⟨digit_mem (Nat.mod_lt _ (by decide)), ih (bits - 5) (by omega)⟩
      · exact fun c hc ↦ absurd hc List.not_mem_nil

/-- What is drained and what is left are the pending bits. -/
theorem textBits_drain (value bits : Nat) :
    textBits (drain value bits).1 ++ write (drain value bits).2 value = write bits value := by
  induction bits using Nat.strong_induction_on with
  | _ bits ih =>
      rw [drain]
      split
      · rename_i h
        dsimp only
        rw [textBits_cons, digitBits_digit, List.append_assoc, ih (bits - 5) (by omega),
          ← Bits.write_add, Nat.add_sub_cancel' h]
      · rfl

theorem encodeFrom_mem (value bits : Nat) (buffer : List UInt8) :
    ∀ c ∈ encodeFrom value bits buffer, c ∈ BASE32_ALPHABET := by
  induction buffer generalizing value bits with
  | nil =>
      rw [encodeFrom]
      split
      · exact List.forall_mem_singleton.mpr (digit_mem (Nat.mod_lt _ (by decide)))
      · exact fun c hc ↦ absurd hc List.not_mem_nil
  | cons byte buffer ih =>
      rw [encodeFrom]
      exact List.forall_mem_append.mpr ⟨drain_mem _ _, ih _ _⟩

/-- The pending bits and the bytes to come, with zeros that fill the last digit. -/
theorem textBits_encodeFrom (value : Nat) {bits : Nat} (h : bits < 5) (buffer : List UInt8) :
    ∃ pad < 5, textBits (encodeFrom value bits buffer) =
      write bits value ++ bufferBits buffer ++ List.replicate pad false := by
  induction buffer generalizing value bits with
  | nil =>
      rw [encodeFrom]
      split
      · refine ⟨5 - bits, by omega, ?_⟩
        have hwrite := Bits.write_mul_add bits (Nat.two_pow_pos (5 - bits)) value
        rw [Nat.add_sub_cancel' h.le, Nat.add_zero, Bits.write_of_zero] at hwrite
        rw [textBits_cons, digitBits_digit, hwrite]
        simp [textBits, bufferBits]
      · rename_i hzero
        obtain rfl : bits = 0 := by omega
        exact ⟨0, by decide, rfl⟩
  | cons byte buffer ih =>
      rw [encodeFrom]
      generalize hshift : (value * 256 + byte.toNat) % 2 ^ 32 = shifted
      obtain ⟨pad, hpad, htext⟩ := ih shifted (drain_left_lt shifted (bits + 8))
      have hwrite : write (bits + 8) shifted = write bits value ++ write 8 byte.toNat := by
        rw [← hshift, Bits.write_mod (by omega)]
        exact Bits.write_mul_add bits byte.toNat_lt value
      refine ⟨pad, hpad, ?_⟩
      dsimp only
      rw [textBits_append, htext, ← List.append_assoc, ← List.append_assoc, textBits_drain, hwrite,
        bufferBits_cons, List.append_assoc (write bits value)]

/-! ### Decoding -/

theorem findIdx?_digit {c : Char} (h : c ∈ BASE32_ALPHABET) :
    BASE32_ALPHABET.findIdx? (· = c) = some (BASE32_ALPHABET.idxOf c) :=
  List.findIdx?_eq_some_of_exists ⟨c, h, decide_eq_true rfl⟩

/-- The byte that a digit completes. -/
theorem write_completed (v k : Nat) :
    write 8 (UInt8.ofNat (v / 2 ^ k % 256)).toNat ++ write k v = write (8 + k) v := by
  rw [Bits.write_add, UInt8.toNat_ofNat', Nat.mod_mod_of_dvd _ (by decide)]
  exact congrArg (· ++ write k v) (Bits.write_mod (le_refl 8) (v / 2 ^ k))

/-- The bytes, and fewer than eight bits that are dropped, are the pending bits and the text. -/
theorem decodeFrom_bits (value : Nat) {bits : Nat} (h : bits < 8) {text : List Char}
    (htext : ∀ c ∈ text, c ∈ BASE32_ALPHABET) :
    ∃ buffer dropped, decodeFrom value bits text = .ok buffer ∧ dropped.length < 8 ∧
      bufferBits buffer ++ dropped = write bits value ++ textBits text := by
  induction text generalizing value bits with
  | nil => exact ⟨[], write bits value, rfl, by simpa using h, (List.append_nil _).symm⟩
  | cons c text ih =>
      obtain ⟨hc, htail⟩ := List.forall_mem_cons.mp htext
      rw [decodeFrom, findIdx?_digit hc]
      have hlt : BASE32_ALPHABET.idxOf c < 2 ^ 5 := List.idxOf_lt_length_iff.mpr hc
      dsimp only
      generalize hshift : (value * 32 + BASE32_ALPHABET.idxOf c) % 2 ^ 32 = shifted
      have hwrite : write (bits + 5) shifted = write bits value ++ digitBits c := by
        rw [← hshift, Bits.write_mod (by omega)]
        exact Bits.write_mul_add bits hlt value
      rw [textBits_cons, ← List.append_assoc, ← hwrite]
      split
      · rename_i hfull
        have hlow : bits - 3 < 8 := by omega
        obtain ⟨buffer, dropped, hok, hdropped, hbits⟩ := ih shifted hlow htail
        refine ⟨_, dropped, by rw [hok]; rfl, hdropped, ?_⟩
        rw [bufferBits_cons, List.append_assoc, hbits, ← List.append_assoc, write_completed,
          show 8 + (bits - 3) = bits + 5 by omega]
      · exact ih shifted (by omega) htail

/-! ## The round trip -/

/-- Both zeros that pad and bits that are dropped are too few to make a byte. -/
theorem decodeFrom_encodeFrom (buffer : List UInt8) :
    decodeFrom 0 0 (encodeFrom 0 0 buffer) = .ok buffer := by
  obtain ⟨pad, hpad, htext⟩ := textBits_encodeFrom 0 (by decide : 0 < 5) buffer
  obtain ⟨decoded, dropped, hok, hdropped, hbits⟩ :=
    decodeFrom_bits 0 (by decide : 0 < 8) (encodeFrom_mem 0 0 buffer)
  rw [htext, Bits.write_zero, List.nil_append, List.nil_append] at hbits
  have hlength : decoded.length = buffer.length := by
    have := congrArg List.length hbits
    rw [List.length_append, List.length_append, length_bufferBits, length_bufferBits,
      List.length_replicate] at this
    omega
  have hsame := (List.append_inj hbits (by simp [hlength])).1
  rw [hok, bufferBits_injective hlength hsame]

/-- Another spelling of a text: letters in lower case, and white space inserted. -/
inductive Respelled : List Char → List Char → Prop
  | nil : Respelled [] []
  | same (c : Char) {s t : List Char} : Respelled s t → Respelled (c :: s) (c :: t)
  | lower (c : Char) {s t : List Char} : Respelled s t → Respelled (c :: s) (c.toLower :: t)
  | space {w : Char} {s t : List Char} : isTrimmed w → Respelled s t → Respelled s (w :: t)

theorem toUpper_digit {c : Char} (h : c ∈ BASE32_ALPHABET) :
    c.toUpper = c ∧ c.toLower.toUpper = c ∧ isTrimmed c = false ∧ c ≠ '=' := by
  have hall : (BASE32_ALPHABET.all fun c ↦ decide (c.toUpper = c ∧ c.toLower.toUpper = c ∧
      isTrimmed c = false ∧ c ≠ '=')) = true := by decide
  exact of_decide_eq_true (List.all_eq_true.mp hall c h)

/-- White space has no upper case. -/
theorem toUpper_of_isTrimmed {w : Char} (h : isTrimmed w) : w.toUpper = w := by
  have hcode : ¬ ('a'.toNat ≤ w.toNat ∧ w.toNat ≤ 'z'.toNat) := by
    rw [isTrimmed, decide_eq_true_eq] at h
    simp only [List.mem_cons, List.not_mem_nil, or_false] at h
    rw [show 'a'.toNat = 97 from rfl, show 'z'.toNat = 122 from rfl]
    omega
  exact dif_neg hcode

/-- `s` is what is kept of `t` in upper case, and `t` brings no padding of its own. -/
def Keeps (s t : List Char) : Prop :=
  (t.map Char.toUpper).filter (!isTrimmed ·) = s ∧ '=' ∉ t.map Char.toUpper

theorem Keeps.cons {c d : Char} {s t : List Char} (hd : d.toUpper = c) (hc : c ∈ BASE32_ALPHABET)
    (h : Keeps s t) : Keeps (c :: s) (d :: t) := by
  obtain ⟨-, -, hletter, hne⟩ := toUpper_digit hc
  constructor
  · rw [List.map_cons, hd, List.filter_cons_of_pos (by rw [hletter]; rfl), h.1]
  · rw [List.map_cons, hd]
    exact List.not_mem_cons_of_ne_of_not_mem hne.symm h.2

theorem Keeps.space {w : Char} {s t : List Char} (hw : isTrimmed w) (h : Keeps s t) :
    Keeps s (w :: t) := by
  constructor
  · rw [List.map_cons, toUpper_of_isTrimmed hw, List.filter_cons_of_neg (by rw [hw]; decide), h.1]
  · rw [List.map_cons, toUpper_of_isTrimmed hw]
    refine List.not_mem_cons_of_ne_of_not_mem ?_ h.2
    rintro rfl
    exact absurd hw (by decide)

/-- The letters that are kept of a respelled text are those of the text. -/
theorem Respelled.keeps {s t : List Char} (h : Respelled s t)
    (hs : ∀ c ∈ s, c ∈ BASE32_ALPHABET) : Keeps s t := by
  induction h with
  | nil => exact ⟨rfl, List.not_mem_nil⟩
  | same c _ ih =>
      obtain ⟨hc, htail⟩ := List.forall_mem_cons.mp hs
      exact (ih htail).cons (toUpper_digit hc).1 hc
  | lower c _ ih =>
      obtain ⟨hc, htail⟩ := List.forall_mem_cons.mp hs
      exact (ih htail).cons (toUpper_digit hc).2.1 hc
  | space hw _ ih => exact (ih hs).space hw

theorem stripPadding_append {s : List Char} (h : '=' ∉ s) (n : Nat) :
    stripPadding (s ++ List.replicate n '=') = s := by
  have hdrop : (List.replicate n '=' ++ s.reverse).dropWhile (· = '=') = s.reverse := by
    rw [List.dropWhile_append_of_pos
      fun c hc ↦ decide_eq_true (List.eq_of_mem_replicate hc)]
    cases hs : s.reverse with
    | nil => rfl
    | cons c rest =>
        have hc : c ∈ s := List.mem_reverse.mp (hs ▸ List.mem_cons_self)
        exact List.dropWhile_cons_of_neg fun heq ↦ h (of_decide_eq_true heq ▸ hc)
  rw [stripPadding, List.reverse_append, List.reverse_replicate, hdrop, List.reverse_reverse]

/-- However the text of a buffer is respelled and padded, it decodes to the buffer. -/
theorem base32Decode_respelled {buffer : List UInt8} {t : List Char}
    (h : Respelled (encodeFrom 0 0 buffer) t) (n : Nat) :
    base32Decode (String.ofList (t ++ List.replicate n '=')) = .ok buffer := by
  obtain ⟨hfilter, hpadding⟩ := h.keeps (encodeFrom_mem 0 0 buffer)
  rw [base32Decode, toUpperCase, String.toList_ofList, String.toList_ofList, List.map_append,
    List.map_replicate, show '='.toUpper = '=' from by decide, stripPadding_append hpadding n,
    hfilter, decodeFrom_encodeFrom]

theorem Respelled.refl : ∀ s : List Char, Respelled s s
  | [] => .nil
  | c :: s => .same c (.refl s)

/-- `base32Decode` gives back what `base32Encode` was given, however its text is respelled and
padded. -/
theorem base32_round_trip (buffer : List UInt8) :
    Signed.base32Decode (Signed.base32Encode buffer) = .ok buffer ∧
      ∀ (t : List Char) (n : Nat), Respelled (Signed.base32Encode buffer).toList t →
        Signed.base32Decode (String.ofList (t ++ List.replicate n '=')) = .ok buffer := by
  simp only [Signed.base32Decode_eq, Signed.base32Encode_eq]
  have hencoded : (base32Encode buffer).toList = encodeFrom 0 0 buffer := String.toList_ofList
  refine ⟨?_, fun t n h ↦ base32Decode_respelled (hencoded ▸ h) n⟩
  have hself := base32Decode_respelled (Respelled.refl (encodeFrom 0 0 buffer)) 0
  rwa [List.replicate_zero, List.append_nil] at hself

/-- The text of the bytes `"hi"` in lower case, with a tab, a line end and a padding. -/
theorem base32_round_trip_hi :
    Signed.base32Encode [104, 105] = "NBUQ" ∧
      Signed.base32Decode (String.ofList (['n', '\t', 'b', '\n', 'u', 'q'] ++
        List.replicate 4 '=')) = .ok [104, 105] := by
  have hencode : encodeFrom 0 0 [104, 105] = ['N', 'B', 'U', 'Q'] := by
    decide +kernel
  have htext : (Signed.base32Encode [104, 105]).toList = ['N', 'B', 'U', 'Q'] := by
    rw [Signed.base32Encode_eq, base32Encode, String.toList_ofList, hencode]
  have hspelled : Respelled ['N', 'B', 'U', 'Q'] ['n', '\t', 'b', '\n', 'u', 'q'] :=
    .lower 'N' (.space (by decide) (.lower 'B' (.space (by decide)
      (.lower 'U' (.lower 'Q' .nil)))))
  exact ⟨String.toList_inj.mp htext, (base32_round_trip [104, 105]).2 _ 4 (htext ▸ hspelled)⟩

end Zenstier.Totp
