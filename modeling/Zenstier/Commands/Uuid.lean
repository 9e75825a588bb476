import Zenstier.Commands.CommandId
import Mathlib.Data.BitVec

/-!
# Name-based UUIDs

RFC 4122 describes a UUID by its fields and says how a digest of a name fills them.  The agent
has an implementation of its own, which works on the bytes of the digest, and a parser of its own
for the namespace.  Both are compared with the description by fields.
-/

namespace Zenstier

/-! ## Numbers as octets and as hexadecimal digits -/

/-- A number as `n` octets, the most significant one first. -/
def octets : Nat → Nat → List UInt8
  | 0, _ => []
  | n + 1, v => UInt8.ofNat (v / 256 ^ n) :: octets n v

/-- The number that octets stand for. -/
def ofOctets (b : List UInt8) : Nat := b.foldl (fun v x ↦ v * 256 + x.toNat) 0

/-- A number as `n` hexadecimal digits. -/
def hexDigits : Nat → Nat → List Char
  | 0, _ => []
  | n + 1, v => Nat.digitChar (v / 16 ^ n % 16) :: hexDigits n v

@[simp] theorem length_octets (n v : Nat) : (octets n v).length = n := by
  induction n with
  | zero => rfl
  | succ n ih => rw [octets, List.length_cons, ih]

@[simp] theorem ofOctets_append_singleton (b : List UInt8) (x : UInt8) :
    ofOctets (b ++ [x]) = ofOctets b * 256 + x.toNat := by
  rw [ofOctets, List.foldl_append]
  rfl

theorem octets_succ (n v : Nat) : octets (n + 1) v = octets n (v / 256) ++ [UInt8.ofNat v] := by
  induction n with
  | zero =>
      change [UInt8.ofNat (v / 256 ^ 0)] = [UInt8.ofNat v]
      rw [Nat.pow_zero, Nat.div_one]
  | succ n ih =>
      rw [octets, ih, octets, Nat.div_div_eq_div_mul, Nat.pow_succ', List.cons_append]

theorem octets_ofOctets (b : List UInt8) : octets b.length (ofOctets b) = b := by
  induction b using List.reverseRecOn with
  | nil => rfl
  | append_singleton b x ih =>
      have hdiv : (ofOctets b * 256 + x.toNat) / 256 = ofOctets b := by
        have := x.toNat_lt
        omega
      have hlast : UInt8.ofNat (ofOctets b * 256 + x.toNat) = x := by
        rw [← UInt8.toNat_inj, UInt8.toNat_ofNat', Nat.add_comm, Nat.add_mul_mod_self_right,
          Nat.mod_eq_of_lt x.toNat_lt]
      rw [List.length_append, List.length_singleton, ofOctets_append_singleton, octets_succ, hdiv,
        ih, hlast]

theorem ofOctets_lt (b : List UInt8) : ofOctets b < 2 ^ (8 * b.length) := by
  induction b using List.reverseRecOn with
  | nil => decide
  | append_singleton b x ih =>
      have hx := x.toNat_lt
      rw [ofOctets_append_singleton, List.length_append, List.length_singleton, Nat.mul_add,
        Nat.pow_add]
      omega

/-- A field that octets have filled. -/
theorem octets_toNat_ofOctets (b : List UInt8) :
    octets b.length (BitVec.ofNat (8 * b.length) (ofOctets b)).toNat = b := by
  rw [BitVec.toNat_ofNat, Nat.mod_eq_of_lt (ofOctets_lt b), octets_ofOctets]

/-- Two digits stand for an octet. -/
theorem hexEncode_octets (n v : Nat) : hexEncode (octets n v) = hexDigits (2 * n) v := by
  induction n with
  | zero => rfl
  | succ n ih =>
      have hhigh : v / 256 ^ n % 256 / 16 = v / 16 ^ (2 * n + 1) % 16 := by
        rw [Nat.pow_succ, ← Nat.div_div_eq_div_mul, Nat.pow_mul, show 16 ^ 2 = 256 from rfl]
        omega
      have hlow : v / 256 ^ n % 256 % 16 = v / 16 ^ (2 * n) % 16 := by
        rw [Nat.mod_mod_of_dvd _ (by decide), Nat.pow_mul]
      rw [octets, hexEncode, List.flatMap_cons, ← hexEncode, ih, UInt8.toNat_ofNat', hhigh, hlow]
      rfl

theorem hexEncode_append (b c : List UInt8) : hexEncode (b ++ c) = hexEncode b ++ hexEncode c :=
  List.flatMap_append

theorem hexValue_digitChar {d : Nat} (h : d < 16) : hexValue (Nat.digitChar d) = some d.toUInt8 :=
  (by decide : ∀ d : Fin 16, hexValue (Nat.digitChar d.val) = some d.val.toUInt8) ⟨d, h⟩

/-- The digits of octets are read back. -/
theorem hexDecode_hexEncode (b : List UInt8) : hexDecode (hexEncode b) = some b := by
  induction b with
  | nil => rfl
  | cons x b ih =>
      have hx : (x.toNat / 16).toUInt8 * 16 + (x.toNat % 16).toUInt8 = x := by
        have := x.toNat_lt
        rw [← UInt8.toNat_inj]
        simp only [UInt8.toNat_add, UInt8.toNat_mul, Nat.toUInt8_eq, UInt8.toNat_ofNat',
          UInt8.reduceToNat]
        omega
      rw [hexEncode, List.flatMap_cons, ← hexEncode]
      change (do
        let hi ← hexValue (Nat.digitChar (x.toNat / 16))
        let lo ← hexValue (Nat.digitChar (x.toNat % 16))
        let bytes ← hexDecode (hexEncode b)
        return (hi * 16 + lo) :: bytes) = _
      have hhigh : x.toNat / 16 < 16 := Nat.div_lt_of_lt_mul x.toNat_lt
      rw [hexValue_digitChar hhigh, hexValue_digitChar (Nat.mod_lt _ (by decide)), ih]
      exact congrArg (fun y ↦ some (y :: b)) hx

theorem digitChar_ne_dash {d : Nat} (h : d < 16) : Nat.digitChar d ≠ '-' :=
  (by decide : ∀ d : Fin 16, Nat.digitChar d.val ≠ '-') ⟨d, h⟩

theorem filter_hexDigits (n v : Nat) :
    (hexDigits n v).filter (· ≠ '-') = hexDigits n v := by
  induction n with
  | zero => rfl
  | succ n ih =>
      have hne := digitChar_ne_dash (Nat.mod_lt (v / 16 ^ n) (by decide : 0 < 16))
      rw [hexDigits, List.filter_cons, if_pos (decide_eq_true hne), ih]

@[simp] theorem length_hexDigits (n v : Nat) : (hexDigits n v).length = n := by
  induction n with
  | zero => rfl
  | succ n ih => rw [hexDigits, List.length_cons, ih]

/-! ## The description by fields -/

/-- The fields of a UUID. -/
structure Uuid where
  timeLow : BitVec 32
  timeMid : BitVec 16
  timeHiAndVersion : BitVec 16
  clockSeqHiAndReserved : BitVec 8
  clockSeqLow : BitVec 8
  node : BitVec 48
deriving DecidableEq, Repr

namespace Uuid

/-- The fields in network byte order. -/
def bytes (u : Uuid) : List UInt8 :=
  octets 4 u.timeLow.toNat ++ octets 2 u.timeMid.toNat ++ octets 2 u.timeHiAndVersion.toNat ++
    octets 1 u.clockSeqHiAndReserved.toNat ++ octets 1 u.clockSeqLow.toNat ++
    octets 6 u.node.toNat

/-- The string representation. -/
def text (u : Uuid) : String :=
  String.ofList (hexDigits 8 u.timeLow.toNat ++ '-' :: hexDigits 4 u.timeMid.toNat ++
    '-' :: hexDigits 4 u.timeHiAndVersion.toNat ++
    '-' :: hexDigits 2 u.clockSeqHiAndReserved.toNat ++ hexDigits 2 u.clockSeqLow.toNat ++
    '-' :: hexDigits 12 u.node.toNat)

/-- The fields that a digest fills: the version takes the four most significant bits of
`time_hi_and_version`, the variant the two most significant bits of `clock_seq_hi_and_reserved`. -/
def ofDigest (version : BitVec 4) (digest : List UInt8) : Uuid where
  timeLow := BitVec.ofNat 32 (ofOctets (digest.take 4))
  timeMid := BitVec.ofNat 16 (ofOctets ((digest.drop 4).take 2))
  timeHiAndVersion := version ++ BitVec.ofNat 12 (ofOctets ((digest.drop 6).take 2))
  clockSeqHiAndReserved := 0b10#2 ++ BitVec.ofNat 6 (ofOctets ((digest.drop 8).take 1))
  clockSeqLow := BitVec.ofNat 8 (ofOctets ((digest.drop 9).take 1))
  node := BitVec.ofNat 48 (ofOctets ((digest.drop 10).take 6))

/-- The version-5 UUID of a name in a namespace. -/
def v5 (sha1 : List UInt8 → List UInt8) (nameSpace : Uuid) (name : List UInt8) : Uuid :=
  ofDigest 5 (sha1 (nameSpace.bytes ++ name))

@[simp] theorem length_bytes (u : Uuid) : u.bytes.length = 16 := by simp [bytes]

/-- The agent writes a UUID as its fields are written. -/
theorem uuidString_bytes (u : Uuid) : uuidString u.bytes = u.text := by
  have hlow : u.bytes.take 4 = octets 4 u.timeLow.toNat := rfl
  have hmid : (u.bytes.drop 4).take 2 = octets 2 u.timeMid.toNat := rfl
  have hhigh : (u.bytes.drop 6).take 2 = octets 2 u.timeHiAndVersion.toNat := rfl
  have hclock : (u.bytes.drop 8).take 2 =
      octets 1 u.clockSeqHiAndReserved.toNat ++ octets 1 u.clockSeqLow.toNat := rfl
  have hnode : (u.bytes.drop 10).take 6 = octets 6 u.node.toNat := rfl
  rw [uuidString, hlow, hmid, hhigh, hclock, hnode, hexEncode_append]
  simp only [hexEncode_octets, text, List.append_assoc, List.cons_append, Nat.reduceMul]

/-- The agent reads a UUID as it is written. -/
theorem parseUUID_text (u : Uuid) : parseUUID u.text = some u.bytes := by
  have hclean : u.text.toList.filter (· ≠ '-') = hexEncode u.bytes := by
    have hdash (t : List Char) : ('-' :: t).filter (· ≠ '-') = t.filter (· ≠ '-') :=
      List.filter_cons_of_neg (by decide)
    simp only [text, bytes, String.toList_ofList, List.filter_append, hdash, filter_hexDigits,
      hexEncode_append, hexEncode_octets]
  have hlength : (hexEncode u.bytes).length = 32 := by
    simp only [bytes, hexEncode_append, hexEncode_octets, List.length_append, length_hexDigits]
  rw [parseUUID, hclean, if_neg (not_not_intro hlength), hexDecode_hexEncode]

theorem stamp_version (x : UInt8) :
    ((x &&& 0x0f) ||| 0x50).toNat = 5 * 2 ^ 4 + x.toNat % 2 ^ 4 := by
  rw [UInt8.toNat_or, UInt8.toNat_and, Nat.or_comm]
  change 2 ^ 4 * 5 ||| x.toNat &&& 2 ^ 4 - 1 = _
  rw [Nat.and_two_pow_sub_one_eq_mod,
    ← Nat.two_pow_add_eq_or_of_lt (Nat.mod_lt _ (by decide)), Nat.mul_comm]

theorem stamp_variant (x : UInt8) :
    ((x &&& 0x3f) ||| 0x80).toNat = 2 * 2 ^ 6 + x.toNat % 2 ^ 6 := by
  rw [UInt8.toNat_or, UInt8.toNat_and, Nat.or_comm]
  change 2 ^ 6 * 2 ||| x.toNat &&& 2 ^ 6 - 1 = _
  rw [Nat.and_two_pow_sub_one_eq_mod,
    ← Nat.two_pow_add_eq_or_of_lt (Nat.mod_lt _ (by decide)), Nat.mul_comm]

theorem toNat_append_ofNat {m : Nat} (x : BitVec m) (k v : Nat) :
    (x ++ BitVec.ofNat k v).toNat = x.toNat * 2 ^ k + v % 2 ^ k := by
  rw [BitVec.toNat_append, BitVec.toNat_ofNat, Nat.shiftLeft_eq, Nat.mul_comm,
    ← Nat.two_pow_add_eq_or_of_lt (Nat.mod_lt _ (Nat.two_pow_pos k))]

/-- Stamping the bytes of a digest sets the version and the variant of the fields. -/
theorem stamp_eq (x : Fin 16 → UInt8) : stamp (List.ofFn x) = (ofDigest 5 (List.ofFn x)).bytes := by
  have hversion (x y : UInt8) :
      octets 2 ((5 : BitVec 4) ++ BitVec.ofNat 12 (ofOctets [x, y])).toNat =
        [(x &&& 0x0f) ||| 0x50, y] := by
    have hvalue : ((5 : BitVec 4) ++ BitVec.ofNat 12 (ofOctets [x, y])).toNat =
        ofOctets [(x &&& 0x0f) ||| 0x50, y] := by
      have hy := y.toNat_lt
      rw [toNat_append_ofNat]
      simp only [ofOctets, List.foldl_cons, List.foldl_nil, stamp_version]
      change 5 * 2 ^ 12 + _ = _
      omega
    rw [hvalue]
    exact octets_ofOctets [_, _]
  have hvariant (x : UInt8) : octets 1 (0b10#2 ++ BitVec.ofNat 6 (ofOctets [x])).toNat =
      [(x &&& 0x3f) ||| 0x80] := by
    have hvalue : (0b10#2 ++ BitVec.ofNat 6 (ofOctets [x])).toNat =
        ofOctets [(x &&& 0x3f) ||| 0x80] := by
      rw [toNat_append_ofNat]
      simp only [ofOctets, List.foldl_cons, List.foldl_nil, stamp_variant]
      change 2 * 2 ^ 6 + _ = _
      omega
    rw [hvalue]
    exact octets_ofOctets [_]
  have hfour : octets 4 (BitVec.ofNat 32 (ofOctets [x 0, x 1, x 2, x 3])).toNat =
      [x 0, x 1, x 2, x 3] := octets_toNat_ofOctets [x 0, x 1, x 2, x 3]
  have htwo : octets 2 (BitVec.ofNat 16 (ofOctets [x 4, x 5])).toNat = [x 4, x 5] :=
    octets_toNat_ofOctets [x 4, x 5]
  have hone : octets 1 (BitVec.ofNat 8 (ofOctets [x 9])).toNat = [x 9] :=
    octets_toNat_ofOctets [x 9]
  have hsix : octets 6 (BitVec.ofNat 48 (ofOctets [x 10, x 11, x 12, x 13, x 14, x 15])).toNat =
      [x 10, x 11, x 12, x 13, x 14, x 15] :=
    octets_toNat_ofOctets [x 10, x 11, x 12, x 13, x 14, x 15]
  have hlow : (List.ofFn x).take 4 = [x 0, x 1, x 2, x 3] := rfl
  have hmid : ((List.ofFn x).drop 4).take 2 = [x 4, x 5] := rfl
  have hhigh : ((List.ofFn x).drop 6).take 2 = [x 6, x 7] := rfl
  have hclock : ((List.ofFn x).drop 8).take 1 = [x 8] := rfl
  have hseq : ((List.ofFn x).drop 9).take 1 = [x 9] := rfl
  have hnode : ((List.ofFn x).drop 10).take 6 = [x 10, x 11, x 12, x 13, x 14, x 15] := rfl
  rw [ofDigest, bytes]
  dsimp only
  rw [hlow, hmid, hhigh, hclock, hseq, hnode, hversion, hvariant, hfour, htwo, hone, hsix]
  rfl

/-- The agent's bytes are the fields that the digest fills. -/
theorem stamp_digest {digest : List UInt8} (h : 16 ≤ digest.length) :
    stamp (digest.take 16) = (ofDigest 5 digest).bytes := by
  have hbytes : digest.take 16 = List.ofFn fun i : Fin 16 ↦ digest[i.val] := by
    refine List.ext_getElem (by simpa using h) fun i hi hi' ↦ ?_
    rw [List.getElem_take, List.getElem_ofFn]
  have hcut : ofDigest 5 (digest.take 16) = ofDigest 5 digest := by
    simp [ofDigest, List.drop_take, List.take_take]
  rw [← hcut, hbytes, stamp_eq]

end Uuid

/-! ## The ids of commands -/

/-- The namespace, by its fields. -/
def commandNamespace : Uuid where
  timeLow := 0x8b1d6a6e
  timeMid := 0x4a1f
  timeHiAndVersion := 0x4c7e
  clockSeqHiAndReserved := 0x9d
  clockSeqLow := 0x2b
  node := 0x6f0e5a3c1b74

theorem commandNamespace_text : commandNamespace.text = ZENSTIER_NAMESPACE := by decide

/-- SHA-1 gives twenty bytes. -/
def digestOf (sha1 : List UInt8 → Vector UInt8 20) (message : List UInt8) : List UInt8 :=
  (sha1 message).toList

/-- What is hashed for the command of a device. -/
def hashInput (batchId deviceId : String) : List UInt8 :=
  commandNamespace.bytes ++ utf8 (batchId ++ ":" ++ deviceId)

/-- The agent's `uuidV5` is the version-5 UUID, in every namespace. -/
theorem uuidV5_eq (sha1 : List UInt8 → Vector UInt8 20) (nameSpace : Uuid) (name : String) :
    uuidV5 (digestOf sha1) nameSpace.text name =
      (nameSpace.v5 (digestOf sha1) (utf8 name)).text := by
  have hlength : 16 ≤ (digestOf sha1 (nameSpace.bytes ++ utf8 name)).length := by
    rw [digestOf, Vector.length_toList]
    decide
  rw [uuidV5, Uuid.parseUUID_text]
  dsimp only
  rw [Uuid.stamp_digest hlength, Uuid.uuidString_bytes, Uuid.v5]

theorem deriveCommandID_eq_v5 (sha1 : List UInt8 → Vector UInt8 20) (batchId deviceId : String) :
    deriveCommandID (digestOf sha1) batchId deviceId =
      (Uuid.ofDigest 5 (digestOf sha1 (hashInput batchId deviceId))).text := by
  rw [deriveCommandID, ← commandNamespace_text, uuidV5_eq]
  rfl

theorem utf8_injective : Function.Injective utf8 := by
  intro s t h
  rw [← String.toByteArray_inj, ← String.utf8Encode_toList, ← String.utf8Encode_toList]
  exact congrArg List.toByteArray h

/-- A batch id in UUID form: groups of hexadecimal digits. -/
def InUuidForm (s : String) : Prop :=
  (s.toList.splitOn '-').map List.length = [8, 4, 4, 4, 12] ∧
    (s.toList.all fun c ↦ c = '-' ∨ (hexValue c).isSome) = true

instance : DecidablePred InUuidForm := fun _ ↦ inferInstanceAs (Decidable (_ ∧ _))

theorem InUuidForm.notMem {s : String} (h : InUuidForm s) : ':' ∉ s.toList := by
  intro hmem
  have hcolon := of_decide_eq_true (List.all_eq_true.mp h.2 ':' hmem)
  exact absurd hcolon (by decide)

/-- The first separator ends the batch id, as there is none in it. -/
theorem hashInput_injective {batchId batchId' deviceId deviceId' : String}
    (h : ':' ∉ batchId.toList) (h' : ':' ∉ batchId'.toList)
    (heq : hashInput batchId deviceId = hashInput batchId' deviceId') :
    batchId = batchId' ∧ deviceId = deviceId' := by
  have hname := utf8_injective (List.append_cancel_left heq)
  have htext : batchId.toList ++ ':' :: deviceId.toList =
      batchId'.toList ++ ':' :: deviceId'.toList := by
    simpa using congrArg String.toList hname
  have hcut {s : List Char} (hs : ':' ∉ s) (t : List Char) :
      (s ++ ':' :: t).takeWhile (· ≠ ':') = s := by
    rw [List.takeWhile_append_of_pos fun c hc ↦ decide_eq_true (ne_of_mem_of_not_mem hc hs)]
    simp
  have hbatch : batchId.toList = batchId'.toList := by
    rw [← hcut h deviceId.toList, htext, hcut h']
  rw [hbatch] at htext
  exact ⟨String.toList_inj.mp hbatch,
    String.toList_inj.mp (List.cons.inj (List.append_cancel_left htext)).2⟩

/-- Agent and backend derive the version-5 UUID of a command, and no two commands are hashed
alike. -/
theorem commandId_agreement (sha1 : List UInt8 → Vector UInt8 20) :
    (∀ batchId deviceId : String,
      deriveCommandID (digestOf sha1) batchId deviceId =
          commandIdFor (digestOf sha1) batchId deviceId ∧
        commandIdFor (digestOf sha1) batchId deviceId =
          (commandNamespace.v5 (digestOf sha1) (utf8 (batchId ++ ":" ++ deviceId))).text) ∧
      ∀ batchId batchId' deviceId deviceId' : String, InUuidForm batchId → InUuidForm batchId' →
        (batchId, deviceId) ≠ (batchId', deviceId') →
          hashInput batchId deviceId ≠ hashInput batchId' deviceId' := by
  refine ⟨fun batchId deviceId ↦ ⟨deriveCommandID_eq _ _ _, ?_⟩, ?_⟩
  · rw [← deriveCommandID_eq, deriveCommandID_eq_v5]
    rfl
  · intro batchId batchId' deviceId deviceId' hbatch hbatch' hne heq
    obtain ⟨rfl, rfl⟩ := hashInput_injective hbatch.notMem hbatch'.notMem heq
    exact hne rfl

/-- Two devices of one batch, with the digests of their names. -/
def goldenDigest (message : List UInt8) : Vector UInt8 20 :=
  if message = hashInput "303bbf68-2b83-4627-aac6-bbf06178a1c0" "dev-6krmjhm2foceof9" then
    #v[37, 102, 28, 37, 25, 56, 104, 100, 129, 166, 46, 30, 16, 24, 28, 9, 24, 117, 164, 49]
  else #v[82, 179, 171, 116, 127, 233, 101, 253, 2, 145, 83, 165, 243, 59, 241, 221, 133, 35, 122,
    203]

theorem commandId_agreement_golden :
    deriveCommandID (digestOf goldenDigest) "303bbf68-2b83-4627-aac6-bbf06178a1c0"
        "dev-6krmjhm2foceof9" = "25661c25-1938-5864-81a6-2e1e10181c09" ∧
      hashInput "303bbf68-2b83-4627-aac6-bbf06178a1c0" "dev-6krmjhm2foceof9" ≠
        hashInput "303bbf68-2b83-4627-aac6-bbf06178a1c0" "dev-a" := by
  have hform : InUuidForm "303bbf68-2b83-4627-aac6-bbf06178a1c0" := by decide +kernel
  obtain ⟨hsame, hdistinct⟩ := commandId_agreement goldenDigest
  refine ⟨?_, hdistinct _ _ _ _ hform hform (by decide)⟩
  rw [(hsame _ _).1]
  decide +kernel

end Zenstier
