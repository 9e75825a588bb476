import Zenstier.Net.Bitwise
import Zenstier.Net.SafeFetch

/-!
# Which addresses are blocked

`describeBlockedAddress` judges texts.  An IPv4 address comes in dotted form, and is judged by a
32-bit mask.  An IPv6 address comes as the host of a URL, in the serialisation of the URL standard,
or from the resolver, in the notation of `inet_ntop` and possibly with a scope; it is judged by
how the text looks.
-/

namespace Zenstier.Net

/-- The address is in the block of the addresses that begin with the first `bits` bits of `base`. -/
def InBlock (width base bits v : Nat) : Prop := v / 2 ^ (width - bits) = base / 2 ^ (width - bits)

instance (width base bits v : Nat) : Decidable (InBlock width base bits v) :=
  inferInstanceAs (Decidable (_ = _))

/-! ## Bitwise operators -/

section Bitwise

/-- `bits === 0 ? 0 : (-1 << (32 - bits)) >>> 0`. -/
def bitMask (bits : Nat) : Int :=
  if bits = 0 then 0 else shiftRight (shiftLeft (-1) (32 - bits)) 0

theorem bitMask_eq {bits : Nat} (h : bits ≤ 32) : bitMask bits = mask bits := by
  have hall : ∀ bits : Fin 33, bitMask bits = mask bits := by decide +kernel
  exact hall ⟨bits, Nat.lt_succ_of_le h⟩

/-- A comparison of two results is one of the bits, whatever their signs. -/
theorem bitAnd_eq_iff {x y m : Nat} (hx : x < 2 ^ 32) (hy : y < 2 ^ 32) :
    bitAnd x m = bitAnd y m ↔ x &&& m % 2 ^ 32 = y &&& m % 2 ^ 32 := by
  rw [bitAnd, bitAnd, BitVec.toInt_inj, ← BitVec.toNat_inj]
  simp only [BitVec.ofInt_natCast, BitVec.toNat_and, BitVec.toNat_ofNat, Nat.mod_eq_of_lt hx,
    Nat.mod_eq_of_lt hy]

theorem mask_lt (bits : Nat) : mask bits < 2 ^ 32 := by
  unfold mask
  split
  · decide
  · have : 0 < 2 ^ (32 - bits) := Nat.two_pow_pos _
    omega

/-- A mask keeps the upper bits. -/
theorem and_mask {x bits : Nat} (hx : x < 2 ^ 32) (hbits : 0 < bits) (hle : bits ≤ 32) :
    x &&& mask bits = x / 2 ^ (32 - bits) * 2 ^ (32 - bits) := by
  have hmask : mask bits = (2 ^ bits - 1) * 2 ^ (32 - bits) := by
    rw [mask, if_neg (by omega), Nat.sub_mul, ← Nat.pow_add, one_mul]
    congr 2
    omega
  refine Nat.eq_of_testBit_eq fun i ↦ ?_
  rw [hmask, Nat.testBit_and, ← Nat.shiftRight_eq_div_pow, ← Nat.shiftLeft_eq, ← Nat.shiftLeft_eq,
    Nat.testBit_shiftLeft, Nat.testBit_shiftLeft, Nat.testBit_shiftRight,
    Nat.testBit_two_pow_sub_one]
  by_cases hi : 32 - bits ≤ i
  · by_cases hlt : i < 32
    · have hbit : i - (32 - bits) < bits := by omega
      simp [hi, hbit, Nat.add_sub_cancel' hi]
    · have hzero : x.testBit i = false :=
        Nat.testBit_lt_two_pow (lt_of_lt_of_le hx (Nat.pow_le_pow_right (by omega) (by omega)))
      simp [hi, hzero, Nat.add_sub_cancel' hi]
  · simp [hi]

end Bitwise

/-! ## IPv4 -/

def decimalText (n : Nat) : List Char := (toString n).toList

/-- The bytes of an IPv4 address. -/
def octets (v : Nat) : List Nat :=
  [v / 2 ^ 24 % 2 ^ 8, v / 2 ^ 16 % 2 ^ 8, v / 2 ^ 8 % 2 ^ 8, v % 2 ^ 8]

/-- An IPv4 address in dotted form. -/
def dotted (v : Nat) : List Char := ['.'].intercalate ((octets v).map decimalText)

theorem octets_lt {v n : Nat} (h : n ∈ octets v) : n < 256 := by
  simp only [octets, List.mem_cons, List.not_mem_nil, or_false] at h
  omega

theorem decimalText_spec {n : Nat} (h : n < 256) : decimal (decimalText n) = some n ∧
    isOctet (decimalText n) = true ∧ (decimalText n).all Char.isDigit = true := by
  have hall : ∀ n : Fin 256, decimal (Nat.toDigits 10 n) = some n.val ∧
      isOctet (Nat.toDigits 10 n) = true ∧ (Nat.toDigits 10 n).all Char.isDigit = true := by
    decide +kernel
  rw [decimalText, Nat.toString_eq_repr, Nat.toList_repr]
  exact hall ⟨n, h⟩

theorem splitOn_dotted (v : Nat) : (dotted v).splitOn '.' = (octets v).map decimalText := by
  refine List.splitOn_intercalate '.' ?_ (by simp [octets])
  intro part hpart hmem
  obtain ⟨n, hn, rfl⟩ := List.mem_map.mp hpart
  have hdigits := (decimalText_spec (octets_lt hn)).2.2
  exact absurd (List.all_eq_true.mp hdigits '.' hmem) (by decide)

theorem isIPv4_dotted (v : Nat) : isIPv4 (dotted v) = true := by
  rw [isIPv4, splitOn_dotted, Bool.and_eq_true]
  refine ⟨decide_eq_true rfl, List.all_eq_true.mpr fun part hpart ↦ ?_⟩
  obtain ⟨n, hn, rfl⟩ := List.mem_map.mp hpart
  exact (decimalText_spec (octets_lt hn)).2.1

theorem ipv4ToInt_dotted {v : Nat} (h : v < 2 ^ 32) : ipv4ToInt (dotted v) = some v := by
  have hpart : ∀ n ∈ octets v, (decimal (decimalText n)).filter (· ≤ 255) = some n := by
    intro n hn
    have hlt := octets_lt hn
    rw [(decimalText_spec hlt).1, Option.filter_some_pos]
    exact decide_eq_true (by omega)
  have hvalue : (((v / 2 ^ 24 % 2 ^ 8) * 256 + v / 2 ^ 16 % 2 ^ 8) * 256 +
      v / 2 ^ 8 % 2 ^ 8) * 256 + v % 2 ^ 8 = v := by
    omega
  simp only [octets, List.forall_mem_cons, List.not_mem_nil, false_implies, implies_true,
    and_true] at hpart
  obtain ⟨h₁, h₂, h₃, h₄⟩ := hpart
  rw [ipv4ToInt, splitOn_dotted]
  simp only [octets, List.map_cons, List.map_nil, List.length_cons, List.length_nil, Nat.reduceAdd,
    ne_eq, not_true_eq_false, if_false, List.foldl_cons, List.foldl_nil, Option.bind_some,
    Option.map_some, h₁, h₂, h₃, h₄, Nat.zero_mul, Nat.zero_add, hvalue]

/-- The address lies in one of the blocks that are listed. -/
def BlockedV4 (v : Nat) : Prop :=
  ∃ block ∈ BLOCKED_V4, InBlock 32 ((ipv4ToInt block.1.toList).getD 0) block.2.1 v

theorem base_spec : ∀ block ∈ BLOCKED_V4, (ipv4ToInt block.1.toList).getD 0 < 2 ^ 32 ∧
    0 < block.2.1 ∧ block.2.1 ≤ 32 := by
  decide +kernel

theorem describeBlockedV4_iff {ip : List Char} {v : Nat} (h : v < 2 ^ 32)
    (hip : ipv4ToInt ip = some v) : (describeBlockedV4 ip).isSome ↔ BlockedV4 v := by
  rw [describeBlockedV4, hip]
  dsimp only
  rw [Option.isSome_map, List.find?_isSome]
  refine exists_congr fun block ↦ and_congr_right fun hblock ↦ ?_
  obtain ⟨hlt, hpos, hle⟩ := base_spec block hblock
  rw [decide_eq_true_eq, and_mask h hpos hle, and_mask hlt hpos hle, InBlock]
  exact Nat.mul_left_inj (Nat.two_pow_pos _).ne'

/-- The comparison of the masked values, with the operators of JavaScript. -/
theorem describeBlockedV4_bitwise {ip : List Char} {v : Nat} (h : v < 2 ^ 32)
    (hip : ipv4ToInt ip = some v) : describeBlockedV4 ip =
      (BLOCKED_V4.find? fun (base, bits, _) ↦
        bitAnd v (bitMask bits) =
          bitAnd ((ipv4ToInt base.toList).getD 0 : Nat) (bitMask bits)).map (·.2.2) := by
  rw [describeBlockedV4, hip]
  dsimp only
  rw [← List.head?_filter, ← List.head?_filter]
  congr 2
  refine List.filter_congr fun block hblock ↦ ?_
  obtain ⟨hlt, -, hle⟩ := base_spec block hblock
  rw [bitMask_eq hle]
  refine decide_eq_decide.mpr (Iff.symm ?_)
  rw [bitAnd_eq_iff h hlt, Nat.mod_eq_of_lt (mask_lt _)]

/-! ## IPv6 -/

/-- A piece of an address in hexadecimal digits. -/
def hexText (n : Nat) : List Char := Nat.toDigits 16 n

/-- The 16-bit pieces of an IPv6 address. -/
def ipv6Pieces (v : Nat) : List Nat := (List.range 8).map fun i ↦ v / 2 ^ (16 * (7 - i)) % 2 ^ 16

/-- Where the first of the longest runs of zeros begins, and its length.  A single zero is not a
run. -/
def compressed (ps : List Nat) : Nat × Nat :=
  (List.range ps.length).foldl (fun best i ↦
    let size := ((ps.drop i).takeWhile (· = 0)).length
    if best.2 < size then (i, size) else best) (0, 1)

/-- The texts with colons between them, and two colons instead of the run. -/
def elide (run : Nat × Nat) (texts : List (List Char)) : List Char :=
  if run.2 ≤ 1 then [':'].intercalate texts
  else [':'].intercalate (texts.take run.1) ++ ':' :: ':' ::
    [':'].intercalate (texts.drop (run.1 + run.2))

/-- The serialisation of the URL standard. -/
def serialize (v : Nat) : List Char :=
  elide (compressed (ipv6Pieces v)) ((ipv6Pieces v).map hexText)

/-- The notation of `inet_ntop`, in which the last 32 bits may be an IPv4 address. -/
def inetNtop (v : Nat) : List Char :=
  let run := compressed (ipv6Pieces v)
  if run.1 = 0 ∧ (run.2 = 6 ∨ run.2 = 5 ∧ (ipv6Pieces v)[5]? = some 0xffff) then
    elide run (((ipv6Pieces v).take 6).map hexText ++ [dotted (v % 2 ^ 32)])
  else serialize v

example : serialize 0x20010db8000000000001000000000001 = "2001:db8::1:0:0:1".toList ∧
    serialize 0xffff7f000001 = "::ffff:7f00:1".toList ∧
    inetNtop 0xffff7f000001 = "::ffff:127.0.0.1".toList := by decide +kernel

/-- The texts in which an address is judged. -/
inductive TextOf (v : Nat) : List Char → Prop
  | url : TextOf v (serialize v)
  | resolved : TextOf v (inetNtop v)
  | withScope (zone : List Char) : TextOf v (inetNtop v ++ '%' :: zone)

/-- Loopback, unique-local, link-local and multicast addresses, and those that are mapped from a
blocked one. -/
def BlockedV6 (v : Nat) : Prop :=
  v = 0 ∨ v = 1 ∨ InBlock 128 (0xfc00 * 2 ^ 112) 7 v ∨ InBlock 128 (0xfe80 * 2 ^ 112) 10 v ∨
    InBlock 128 (0xff00 * 2 ^ 112) 8 v ∨
    InBlock 128 (0xffff * 2 ^ 32) 96 v ∧ BlockedV4 (v % 2 ^ 32)

/-! ### Pieces -/

theorem mem_toDigits {b n : Nat} {c : Char} (hb : 1 < b) (hle : b ≤ 16)
    (h : c ∈ Nat.toDigits b n) : ∃ d < 16, c = d.digitChar := by
  induction n using Nat.strongRecOn with
  | ind n ih =>
      rw [Nat.toDigits_eq_if hb] at h
      split at h
      · rename_i hn
        exact ⟨n, by omega, List.mem_singleton.mp h⟩
      · rename_i hn
        rcases List.mem_append.mp h with h | h
        · exact ih (n / b) (Nat.div_lt_self (by omega) hb) h
        · exact ⟨n % b, (Nat.mod_lt n (by omega)).trans_le hle, List.mem_singleton.mp h⟩

/-- The digits are in lower case. -/
theorem digit_spec {b n : Nat} {c : Char} (hb : 1 < b) (hle : b ≤ 16)
    (h : c ∈ Nat.toDigits b n) :
    isHexDigit c = true ∧ c.toLower = c ∧ c ≠ '.' ∧ c ≠ ':' ∧ c ≠ '%' := by
  have hall : ∀ d : Fin 16, isHexDigit d.val.digitChar = true ∧
      d.val.digitChar.toLower = d.val.digitChar ∧ d.val.digitChar ≠ '.' ∧
      d.val.digitChar ≠ ':' ∧ d.val.digitChar ≠ '%' := by
    decide
  obtain ⟨d, hd, rfl⟩ := mem_toDigits hb hle h
  exact hall ⟨d, hd⟩

theorem hexDigit_spec {n : Nat} {c : Char} (h : c ∈ hexText n) :
    isHexDigit c = true ∧ c.toLower = c ∧ c ≠ '.' ∧ c ≠ ':' ∧ c ≠ '%' :=
  digit_spec (by decide) (by decide) h

theorem isHextet_hexText {n : Nat} (h : n < 2 ^ 16) : isHextet (hexText n) = true := by
  have hpos : 0 < (hexText n).length := Nat.length_toDigits_pos
  have hle : (hexText n).length ≤ 4 := (Nat.length_toDigits_le_iff (by decide) (by decide)).mpr h
  rw [isHextet, Bool.and_eq_true, Bool.and_eq_true, decide_eq_true_eq, decide_eq_true_eq]
  exact ⟨⟨hpos, hle⟩, List.all_eq_true.mpr fun c hc ↦ (hexDigit_spec hc).1⟩

theorem parseHex_hexText (n : Nat) : parseHex (hexText n) = n := by
  have hdigit : ∀ d : Fin 16, parseHex [d.val.digitChar] = d.val := by decide
  have happend : ∀ (l : List Char) (c : Char),
      parseHex (l ++ [c]) = parseHex l * 16 + parseHex [c] := by
    intro l c
    simp [parseHex]
  induction n using Nat.strongRecOn with
  | ind n ih =>
      rw [hexText, Nat.toDigits_eq_if (by decide)]
      split
      · rename_i hn
        exact hdigit ⟨n, hn⟩
      · rename_i hn
        have hrest := ih (n / 16) (by omega)
        rw [hexText] at hrest
        rw [happend, hrest, hdigit ⟨n % 16, Nat.mod_lt n (by decide)⟩]
        exact Nat.div_add_mod' n 16

/-- A piece with four digits, of which the first is `f`. -/
theorem hexText_of_le {n : Nat} (h : 0xf000 ≤ n) (hlt : n < 2 ^ 16) :
    hexText n = ['f', (n / 256 % 16).digitChar, (n / 16 % 16).digitChar, (n % 16).digitChar] := by
  have hlast : ∀ m, 16 ≤ m → Nat.toDigits 16 m = Nat.toDigits 16 (m / 16) ++ [(m % 16).digitChar] :=
    fun m hm ↦ Nat.toDigits_of_base_le (by decide) hm
  rw [hexText, hlast n (by omega), hlast (n / 16) (by omega), hlast (n / 16 / 16) (by omega),
    Nat.toDigits_of_lt_base (by omega), show n / 16 / 16 / 16 = 15 by omega,
    show n / 16 / 16 = n / 256 by omega]
  rfl

/-! ### Texts -/

/-- A run has the zeros that it is said to have. -/
theorem compressed_spec (ps : List Nat) :
    (compressed ps).2 = 1 ∨
      ((ps.drop (compressed ps).1).takeWhile (· = 0)).length = (compressed ps).2 := by
  unfold compressed
  generalize List.range ps.length = is
  have hfold : ∀ best : Nat × Nat,
      (best.2 = 1 ∨ ((ps.drop best.1).takeWhile (· = 0)).length = best.2) →
      let run := is.foldl (fun best i ↦
        let size := ((ps.drop i).takeWhile (· = 0)).length
        if best.2 < size then (i, size) else best) best
      run.2 = 1 ∨ ((ps.drop run.1).takeWhile (· = 0)).length = run.2 := by
    induction is with
    | nil =>
        intro best h
        exact h
    | cons i is ih =>
        intro best h
        refine ih _ ?_
        dsimp only
        split
        · exact .inr rfl
        · exact h
  exact hfold (0, 1) (.inl rfl)

/-- An address whose first piece is not zero begins with this piece. -/
theorem compressed_start {p : Nat} {ps : List Nat} (hp : p ≠ 0)
    (hrun : 1 < (compressed (p :: ps)).2) : (compressed (p :: ps)).1 ≠ 0 := by
  intro hstart
  have hspec := compressed_spec (p :: ps)
  rw [hstart, List.drop_zero, List.takeWhile_cons_of_neg (by simpa using hp), List.length_nil]
    at hspec
  omega

theorem elide_cons {run : Nat × Nat} {x : List Char} {xs : List (List Char)} (hxs : xs ≠ [])
    (hrun : 1 < run.2 → run.1 ≠ 0) : ∃ rest, elide run (x :: xs) = x ++ ':' :: rest := by
  have hjoin : ∀ {xs : List (List Char)}, xs ≠ [] →
      ∃ rest, [':'].intercalate (x :: xs) = x ++ ':' :: rest := by
    intro xs hxs
    refine ⟨[':'].intercalate xs, ?_⟩
    rw [List.intercalate_cons_of_ne_nil hxs, List.append_assoc]
    rfl
  unfold elide
  split
  · exact hjoin hxs
  · rename_i hsize
    obtain ⟨start, hstart⟩ := Nat.exists_eq_succ_of_ne_zero (hrun (by omega))
    rw [hstart, List.take_succ_cons]
    by_cases hnil : xs.take start = []
    · rw [hnil]
      exact ⟨_, by rw [List.intercalate_singleton]⟩
    · obtain ⟨rest, hrest⟩ := hjoin hnil
      exact ⟨_, by rw [hrest, List.append_assoc]; rfl⟩

theorem ipv6Pieces_eq (v : Nat) : ipv6Pieces v = v / 2 ^ 112 % 2 ^ 16 ::
    ((List.range 7).map fun i ↦ v / 2 ^ (16 * (6 - i)) % 2 ^ 16) := rfl

/-- Both notations begin with the first piece. -/
theorem begins_of_ne_zero {v : Nat} (hv : v / 2 ^ 112 % 2 ^ 16 ≠ 0) :
    (∃ rest, serialize v = hexText (v / 2 ^ 112 % 2 ^ 16) ++ ':' :: rest) ∧
      inetNtop v = serialize v := by
  have hstart : 1 < (compressed (ipv6Pieces v)).2 → (compressed (ipv6Pieces v)).1 ≠ 0 := by
    rw [ipv6Pieces_eq]
    exact compressed_start hv
  constructor
  · rw [serialize, ipv6Pieces_eq v, List.map_cons, ← ipv6Pieces_eq]
    exact elide_cons (by simp [List.range_succ]) hstart
  · unfold inetNtop
    dsimp only
    rw [if_neg]
    rintro ⟨hzero, hsize⟩
    exact hstart (by omega) hzero

/-- The pieces of an address that is mapped from IPv4. -/
theorem ipv6Pieces_mapped {v : Nat} (hv : v / 2 ^ 32 = 0xffff) :
    ipv6Pieces v = [0, 0, 0, 0, 0, 0xffff, v / 2 ^ 16 % 2 ^ 16, v % 2 ^ 16] := by
  simp only [ipv6Pieces, List.range_succ, List.range_zero, List.nil_append, List.cons_append,
    List.map_cons, List.map_nil, List.cons.injEq, and_true, Nat.reduceSub, Nat.reduceMul,
    Nat.pow_zero, Nat.div_one]
  omega

theorem compressed_mapped (high low : Nat) :
    compressed [0, 0, 0, 0, 0, 0xffff, high, low] = (0, 5) := by
  by_cases hhigh : high = 0 <;> by_cases hlow : low = 0 <;>
    simp [compressed, List.range_succ, hhigh, hlow]

theorem serialize_mapped {v : Nat} (hv : v / 2 ^ 32 = 0xffff) :
    serialize v = "::ffff:".toList ++ (hexText (v / 2 ^ 16 % 2 ^ 16) ++ ':' ::
      hexText (v % 2 ^ 16)) := by
  have hffff : hexText 0xffff = "ffff".toList := by decide
  rw [serialize, ipv6Pieces_mapped hv, compressed_mapped]
  simp [elide, hffff, List.intercalate]

theorem inetNtop_mapped {v : Nat} (hv : v / 2 ^ 32 = 0xffff) :
    inetNtop v = "::ffff:".toList ++ dotted (v % 2 ^ 32) := by
  have hffff : hexText 0xffff = "ffff".toList := by decide
  unfold inetNtop
  rw [ipv6Pieces_mapped hv, compressed_mapped]
  simp [elide, hffff, List.intercalate]

/-! ### Judgements -/

/-- What is judged of the text of an IPv6 address. -/
def judged (ip : String) : List Char := (toLowerCase ip).toList.takeWhile (· ≠ '%')

theorem dropPrefix?_append (p rest : List Char) : (p ++ rest).dropPrefix? p = some rest :=
  List.dropPrefix?_eq_some_iff.mpr ⟨p, rfl, by simp⟩

/-- Something follows the prefix of the mapped addresses. -/
theorem describeBlockedV6_mapped {ip : String} {rest v4 : List Char}
    (hip : judged ip = "::ffff:".toList ++ rest)
    (h : mappedDotted ("::ffff:".toList ++ rest) = some v4 ∨
      mappedDotted ("::ffff:".toList ++ rest) = none ∧
        mappedHex ("::ffff:".toList ++ rest) = some v4) :
    describeBlockedV6 ip = describeBlockedV4 v4 := by
  have hlength : 7 ≤ ("::ffff:".toList ++ rest).length := by
    rw [List.length_append]
    exact Nat.le_add_right _ _
  unfold judged at hip
  unfold describeBlockedV6
  dsimp only
  rw [hip, if_neg]
  · rcases h with h | ⟨h, h'⟩
    · rw [h]
    · rw [h, h']
  · rintro (heq | heq)
    · rw [heq] at hlength
      exact absurd hlength (by decide)
    · rw [heq] at hlength
      exact absurd hlength (by decide)

/-- A mapped address with dots is judged as the address it stands for. -/
theorem describeBlockedV6_dotted {ip : String} {v : Nat}
    (hip : judged ip = "::ffff:".toList ++ dotted v) :
    describeBlockedV6 ip = describeBlockedV4 (dotted v) := by
  refine describeBlockedV6_mapped hip (.inl ?_)
  rw [mappedDotted, dropPrefix?_append, Option.filter_some_pos]
  rw [splitOn_dotted, Bool.and_eq_true]
  refine ⟨decide_eq_true rfl, List.all_eq_true.mpr fun part hpart ↦ ?_⟩
  obtain ⟨n, hn, rfl⟩ := List.mem_map.mp hpart
  rw [(decimalText_spec (octets_lt hn)).1]
  rfl

/-- So it is with colons. -/
theorem describeBlockedV6_hex {ip : String} {high low : Nat} (hhigh : high < 2 ^ 16)
    (hlow : low < 2 ^ 16)
    (hip : judged ip = "::ffff:".toList ++ (hexText high ++ ':' :: hexText low)) :
    describeBlockedV6 ip = describeBlockedV4 (dotted (high * 2 ^ 16 + low)) := by
  have hdots : '.' ∉ hexText high ++ ':' :: hexText low := by
    rw [List.mem_append, List.mem_cons]
    rintro (h | h | h)
    · exact (hexDigit_spec h).2.2.1 rfl
    · cases h
    · exact (hexDigit_spec h).2.2.1 rfl
  have hcolons : ∀ n, ':' ∉ hexText n := fun n h ↦ (hexDigit_spec h).2.2.2.1 rfl
  have hoctets : [high / 256, high % 256, low / 256, low % 256] =
      octets (high * 2 ^ 16 + low) := by
    simp only [octets, List.cons.injEq, and_true]
    omega
  refine describeBlockedV6_mapped hip (.inr ⟨?_, ?_⟩)
  · rw [mappedDotted, dropPrefix?_append, Option.filter_some_neg]
    rw [List.splitOn_eq_singleton hdots]
    rfl
  · rw [mappedHex, dropPrefix?_append, Option.bind_some,
      List.splitOn_append_cons_self_of_not_mem (hcolons high),
      List.splitOn_eq_singleton (hcolons low)]
    dsimp only
    rw [if_pos (by rw [isHextet_hexText hhigh, isHextet_hexText hlow]; rfl), parseHex_hexText,
      parseHex_hexText, hoctets]
    rfl

/-- The digits of a first piece that is blocked. -/
theorem isSome_digits {a b : Nat} (d : Nat) (ha : a < 16) (hb : b < 16) (hd : d < 16)
    (h : a = 12 ∨ a = 13 ∨ a = 14 ∧ 8 ≤ b ∧ b < 12 ∨ a = 15) :
    (if (a.digitChar = 'c' ∨ a.digitChar = 'd') ∧ isHexDigit b.digitChar ∧ isHexDigit d.digitChar
        then some "unique-local"
      else if a.digitChar = 'e' ∧ b.digitChar ∈ ['8', '9', 'a', 'b'] ∧ isHexDigit d.digitChar
        then some "link-local"
      else if a.digitChar = 'f' then some "multicast"
      else none).isSome := by
  have hhex : ∀ d : Fin 16, isHexDigit d.val.digitChar = true := by decide
  have hb' : isHexDigit b.digitChar = true := hhex ⟨b, hb⟩
  have hd' : isHexDigit d.digitChar = true := hhex ⟨d, hd⟩
  rcases h with rfl | rfl | ⟨rfl, hle, hlt⟩ | rfl
  · rw [if_pos ⟨.inl rfl, hb', hd'⟩]
    rfl
  · rw [if_pos ⟨.inr rfl, hb', hd'⟩]
    rfl
  · have hmem : b.digitChar ∈ ['8', '9', 'a', 'b'] := by
      have hall : ∀ b : Fin 16, 8 ≤ b.val → b.val < 12 →
          b.val.digitChar ∈ ['8', '9', 'a', 'b'] := by
        decide
      exact hall ⟨b, hb⟩ hle hlt
    rw [if_neg (by rintro ⟨h | h, -⟩ <;> cases h), if_pos ⟨rfl, hmem, hd'⟩]
    rfl
  · rw [if_neg (by rintro ⟨h | h, -⟩ <;> cases h), if_neg (by rintro ⟨h, -⟩; cases h),
      if_pos (show Nat.digitChar 15 = 'f' from rfl)]
    rfl

theorem describeBlockedV6_piece {ip : String} {p : Nat} {rest : List Char} (hlt : p < 2 ^ 16)
    (hp : p / 2 ^ 9 = 0x7e ∨ p / 2 ^ 6 = 0x3fa ∨ p / 2 ^ 8 = 0xff)
    (hip : judged ip = hexText p ++ ':' :: rest) : (describeBlockedV6 ip).isSome := by
  have hprefix : ∀ l : List Char, ('f' :: l).dropPrefix? "::ffff:".toList = none := by
    intro l
    rw [show "::ffff:".toList = ':' :: ":ffff:".toList by decide]
    rfl
  rw [hexText_of_le (by omega) hlt, List.cons_append, List.cons_append, List.cons_append,
    List.cons_append, List.nil_append] at hip
  unfold judged at hip
  unfold describeBlockedV6
  dsimp only
  rw [hip, if_neg]
  · rw [mappedDotted, mappedHex, hprefix]
    exact isSome_digits _ (Nat.mod_lt _ (by decide)) (Nat.mod_lt _ (by decide))
      (Nat.mod_lt _ (by decide)) (by omega)
  · have hcolon : "::".toList = [':', ':'] ∧ "::1".toList = [':', ':', '1'] := by decide
    rw [hcolon.1, hcolon.2]
    rintro (h | h)
    · cases h
    · cases h

theorem describeBlockedV6_loopback {ip : String}
    (hip : judged ip = "::".toList ∨ judged ip = "::1".toList) : (describeBlockedV6 ip).isSome := by
  unfold judged at hip
  unfold describeBlockedV6
  dsimp only
  rw [if_pos hip]
  rfl

/-! ### What is blocked -/

/-- A character that is not cut at is in one of the parts. -/
theorem exists_mem_splitOn {a c : Char} {l : List Char} (hc : c ∈ l) (hne : c ≠ a) :
    ∃ part ∈ l.splitOn a, c ∈ part := by
  induction l with
  | nil => cases hc
  | cons x l ih =>
      rw [List.splitOn_cons_eq_if_modifyHead]
      rcases List.mem_cons.mp hc with rfl | hc
      · rw [if_neg (by simpa using hne)]
        cases hsplit : l.splitOn a with
        | nil => exact absurd hsplit (List.splitOn_ne_nil a l)
        | cons part parts => exact ⟨c :: part, List.mem_cons_self, List.mem_cons_self⟩
      · obtain ⟨part, hpart, hmem⟩ := ih hc
        split
        · exact ⟨part, List.mem_cons_of_mem _ hpart, hmem⟩
        · cases hsplit : l.splitOn a with
          | nil => exact absurd hsplit (List.splitOn_ne_nil a l)
          | cons first parts =>
              rw [hsplit] at hpart
              rcases List.mem_cons.mp hpart with rfl | hpart
              · exact ⟨x :: part, List.mem_cons_self, List.mem_cons_of_mem x hmem⟩
              · exact ⟨part, List.mem_cons_of_mem _ hpart, hmem⟩

theorem isIPv4_of_colon {l : List Char} (h : ':' ∈ l) : isIPv4 l = false := by
  by_contra hnot
  rw [Bool.not_eq_false, isIPv4, Bool.and_eq_true, List.all_eq_true] at hnot
  obtain ⟨part, hpart, hmem⟩ := exists_mem_splitOn (a := '.') h (by decide)
  have hoctet := hnot.2 part hpart
  rw [isOctet, Bool.and_eq_true, decimal] at hoctet
  split at hoctet
  · rename_i hdigits
    exact absurd (List.all_eq_true.mp hdigits.2 ':' hmem) (by decide)
  · cases hoctet.1

/-- In lower case, and without a scope. -/
def Plain (l : List Char) : Prop := ∀ c ∈ l, c.toLower = c ∧ c ≠ '%'

theorem Plain.append {l l' : List Char} (h : Plain l) (h' : Plain l') : Plain (l ++ l') := by
  intro c hc
  rcases List.mem_append.mp hc with hc | hc
  · exact h c hc
  · exact h' c hc

theorem Plain.cons {l : List Char} (h : Plain l) : Plain (':' :: l) := by
  intro c hc
  rcases List.mem_cons.mp hc with rfl | hc
  · decide
  · exact h c hc

theorem Plain.intercalate {ls : List (List Char)} (h : ∀ l ∈ ls, Plain l) :
    Plain ([':'].intercalate ls) := by
  induction ls with
  | nil =>
      intro c hc
      cases hc
  | cons l ls ih =>
      rw [List.forall_mem_cons] at h
      cases ls with
      | nil =>
          rw [List.intercalate_singleton]
          exact h.1
      | cons l' ls =>
          rw [List.intercalate_cons_cons, List.append_assoc]
          exact h.1.append (ih h.2).cons

theorem Plain.elide {run : Nat × Nat} {texts : List (List Char)} (h : ∀ l ∈ texts, Plain l) :
    Plain (elide run texts) := by
  unfold Net.elide
  split
  · exact .intercalate h
  · refine .append (.intercalate fun l hl ↦ h l (List.mem_of_mem_take hl)) (.cons (.cons ?_))
    exact .intercalate fun l hl ↦ h l (List.mem_of_mem_drop hl)

theorem plain_hexText (n : Nat) : Plain (hexText n) := by
  intro c hc
  obtain ⟨-, hlower, -, -, hscope⟩ := hexDigit_spec hc
  exact ⟨hlower, hscope⟩

theorem plain_dotted (v : Nat) : Plain (dotted v) := by
  intro c hc
  by_cases hdot : c = '.'
  · rw [hdot]
    decide
  · obtain ⟨part, hpart, hmem⟩ := exists_mem_splitOn hc hdot
    rw [splitOn_dotted] at hpart
    obtain ⟨n, hn, rfl⟩ := List.mem_map.mp hpart
    rw [decimalText, Nat.toString_eq_repr, Nat.toList_repr] at hmem
    obtain ⟨-, hlower, -, -, hscope⟩ := digit_spec (by decide) (by decide) hmem
    exact ⟨hlower, hscope⟩

theorem plain_serialize (v : Nat) : Plain (serialize v) := by
  refine .elide fun l hl ↦ ?_
  obtain ⟨n, -, rfl⟩ := List.mem_map.mp hl
  exact plain_hexText n

theorem plain_inetNtop (v : Nat) : Plain (inetNtop v) := by
  unfold inetNtop
  dsimp only
  split
  · refine .elide fun l hl ↦ ?_
    rcases List.mem_append.mp hl with hl | hl
    · obtain ⟨n, -, rfl⟩ := List.mem_map.mp hl
      exact plain_hexText n
    · rw [List.mem_singleton.mp hl]
      exact plain_dotted _
  · exact plain_serialize v

/-- The scope is not judged. -/
theorem judged_text {base scope : List Char} (hplain : Plain base)
    (hscope : scope = [] ∨ ∃ zone, scope = '%' :: zone) :
    judged (String.ofList (base ++ scope)) = base := by
  have hlower : base.map Char.toLower = base :=
    (List.map_congr_left fun c hc ↦ (hplain c hc).1).trans base.map_id
  have hbase : ∀ c ∈ base, decide (c ≠ '%') = true := fun c hc ↦ decide_eq_true (hplain c hc).2
  rw [judged, toLowerCase, String.toList_ofList, String.toList_ofList, List.map_append, hlower,
    List.takeWhile_append_of_pos hbase]
  rcases hscope with rfl | ⟨zone, rfl⟩
  · exact List.append_nil _
  · exact List.append_nil _

/-- What is not an IPv4 address is judged as an IPv6 address, or is malformed. -/
theorem describeBlockedAddress_of_colon {ip : String} (hcolon : ':' ∈ ip.toList)
    (h : (describeBlockedV6 ip).isSome) : describeBlockedAddress ip ≠ none := by
  rw [describeBlockedAddress, isIP, isIPv4_of_colon hcolon]
  split
  · rename_i hfour
    simp only [Bool.false_eq_true, if_false] at hfour
    split at hfour <;> cases hfour
  · exact Option.isSome_iff_ne_none.mp h
  · intro hnone
    cases hnone

/-- Either notation of a blocked address is judged to be blocked. -/
theorem describeBlockedV6_blocked {v : Nat} (hv : v < 2 ^ 128) (h : BlockedV6 v) {base : List Char}
    (hbase : base = serialize v ∨ base = inetNtop v) :
    ':' ∈ base ∧ ∀ ip, judged ip = base → (describeBlockedV6 ip).isSome := by
  have hpiece : v / 2 ^ 112 / 2 ^ 9 = 0x7e ∨ v / 2 ^ 112 / 2 ^ 6 = 0x3fa ∨
      v / 2 ^ 112 / 2 ^ 8 = 0xff →
      ':' ∈ base ∧ ∀ ip, judged ip = base → (describeBlockedV6 ip).isSome := by
    intro hp
    have hmod : v / 2 ^ 112 % 2 ^ 16 = v / 2 ^ 112 := by omega
    obtain ⟨⟨rest, hrest⟩, hsame⟩ := begins_of_ne_zero (v := v) (by omega)
    have htext : base = hexText (v / 2 ^ 112) ++ ':' :: rest := by
      rw [← hmod, ← hrest]
      exact hbase.elim id fun h ↦ h.trans hsame
    rw [htext]
    exact ⟨by simp, fun ip hip ↦ describeBlockedV6_piece (by omega) hp hip⟩
  have hblock : ∀ k, k ≤ 16 → ∀ b, InBlock 128 (b * 2 ^ 112) k v →
      v / 2 ^ 112 / 2 ^ (16 - k) = b / 2 ^ (16 - k) := by
    intro k hk b hin
    rw [InBlock, show 128 - k = 112 + (16 - k) by omega, Nat.pow_add, ← Nat.div_div_eq_div_mul,
      ← Nat.div_div_eq_div_mul, Nat.mul_div_cancel _ (Nat.two_pow_pos _)] at hin
    exact hin
  rcases h with rfl | rfl | h | h | h | ⟨hmapped, hblocked⟩
  · have htext : serialize 0 = "::".toList ∧ inetNtop 0 = "::".toList := by decide +kernel
    rw [htext.1, htext.2, or_self] at hbase
    exact ⟨hbase ▸ by decide, fun ip hip ↦ describeBlockedV6_loopback (.inl (hip.trans hbase))⟩
  · have htext : serialize 1 = "::1".toList ∧ inetNtop 1 = "::1".toList := by decide +kernel
    rw [htext.1, htext.2, or_self] at hbase
    exact ⟨hbase ▸ by decide, fun ip hip ↦ describeBlockedV6_loopback (.inr (hip.trans hbase))⟩
  · exact hpiece (.inl (hblock 7 (by decide) _ h))
  · exact hpiece (.inr (.inl (hblock 10 (by decide) _ h)))
  · exact hpiece (.inr (.inr (hblock 8 (by decide) _ h)))
  · have hffff : v / 2 ^ 32 = 0xffff := by
      rw [InBlock, Nat.mul_div_cancel _ (Nat.two_pow_pos _)] at hmapped
      exact hmapped
    have hlow : v % 2 ^ 32 < 2 ^ 32 := Nat.mod_lt _ (Nat.two_pow_pos _)
    have hsome : (describeBlockedV4 (dotted (v % 2 ^ 32))).isSome :=
      (describeBlockedV4_iff hlow (ipv4ToInt_dotted hlow)).mpr hblocked
    rcases hbase with rfl | rfl
    · have hparts : v / 2 ^ 16 % 2 ^ 16 * 2 ^ 16 + v % 2 ^ 16 = v % 2 ^ 32 := by omega
      rw [serialize_mapped hffff]
      refine ⟨by simp, fun ip hip ↦ ?_⟩
      rw [describeBlockedV6_hex (Nat.mod_lt _ (by decide)) (Nat.mod_lt _ (by decide)) hip, hparts]
      exact hsome
    · rw [inetNtop_mapped hffff]
      refine ⟨List.mem_append_left _ (by decide), fun ip hip ↦ ?_⟩
      rw [describeBlockedV6_dotted hip]
      exact hsome

/-- An IPv4 address is blocked just if it is in one of the blocks, with the operators of
JavaScript as with numbers; an IPv6 address is blocked in every notation, if it is internal. -/
theorem describeBlockedAddress_exact :
    (∀ v : BitVec 32,
      (describeBlockedAddress (String.ofList (dotted v.toNat)) ≠ none ↔ BlockedV4 v.toNat) ∧
      describeBlockedAddress (String.ofList (dotted v.toNat)) =
        (BLOCKED_V4.find? fun (base, bits, _) ↦ bitAnd v.toNat (bitMask bits) =
          bitAnd ((ipv4ToInt base.toList).getD 0 : Nat) (bitMask bits)).map (·.2.2)) ∧
    ∀ v : BitVec 128, BlockedV6 v.toNat →
      ∀ text, TextOf v.toNat text → describeBlockedAddress (String.ofList text) ≠ none := by
  constructor
  · intro v
    have hv4 : describeBlockedAddress (String.ofList (dotted v.toNat)) =
        describeBlockedV4 (dotted v.toNat) := by
      rw [describeBlockedAddress, isIP, String.toList_ofList, isIPv4_dotted]
      rfl
    rw [hv4, ← Option.isSome_iff_ne_none]
    exact ⟨describeBlockedV4_iff v.isLt (ipv4ToInt_dotted v.isLt),
      describeBlockedV4_bitwise v.isLt (ipv4ToInt_dotted v.isLt)⟩
  · intro v hblocked text htext
    have htexts : ∀ base scope, base = serialize v.toNat ∨ base = inetNtop v.toNat →
        (scope = [] ∨ ∃ zone, scope = '%' :: zone) →
          describeBlockedAddress (String.ofList (base ++ scope)) ≠ none := by
      intro base scope hbase hscope
      obtain ⟨hcolon, hjudged⟩ := describeBlockedV6_blocked v.isLt hblocked hbase
      have hplain : Plain base := by
        rcases hbase with rfl | rfl
        · exact plain_serialize _
        · exact plain_inetNtop _
      refine describeBlockedAddress_of_colon ?_ (hjudged _ (judged_text hplain hscope))
      rw [String.toList_ofList]
      exact List.mem_append_left _ hcolon
    cases htext with
    | url => exact List.append_nil (serialize _) ▸ htexts _ [] (.inl rfl) (.inl rfl)
    | resolved => exact List.append_nil (inetNtop _) ▸ htexts _ [] (.inr rfl) (.inl rfl)
    | withScope zone => exact htexts _ _ (.inr rfl) (.inr ⟨zone, rfl⟩)

/-- The loopback address as an IPv6 address with a scope. -/
theorem describeBlockedAddress_exact_mapped :
    BlockedV6 0xffff7f000001 ∧
    describeBlockedAddress (String.ofList (inetNtop 0xffff7f000001 ++ '%' :: "eth0".toList)) ≠
      none := by
  have hblocked : BlockedV6 0xffff7f000001 :=
    .inr (.inr (.inr (.inr (.inr ⟨by decide +kernel, ("127.0.0.0", 8, "loopback"),
      by decide +kernel, by decide +kernel⟩))))
  exact ⟨hblocked, describeBlockedAddress_exact.2 0xffff7f000001#128 hblocked _ (.withScope _)⟩

end Zenstier.Net
