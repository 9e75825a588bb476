import Zenstier.Runtime

/-!
# Command ids

The id of a command is the version-5 UUID of `batchId:deviceId` in a fixed namespace, so
that the backend and the agent derive it independently of each other.  The backend calls
`v5` of the `uuid` package; the agent has its own implementation.  SHA-1 is an argument:
both sides use the same function.
-/

namespace Zenstier

/-- Fixed namespace so command ids are reproducible across processes. -/
def ZENSTIER_NAMESPACE : String := "8b1d6a6e-4a1f-4c7e-9d2b-6f0e5a3c1b74"

/-- The UTF-8 encoding of a string. -/
def utf8 (s : String) : List UInt8 := s.toList.flatMap String.utf8EncodeChar

/-- The value of a hexadecimal digit. -/
def hexValue (c : Char) : Option UInt8 :=
  if '0' ≤ c ∧ c ≤ '9' then some (c.toNat - 48).toUInt8
  else if 'a' ≤ c ∧ c ≤ 'f' then some (c.toNat - 87).toUInt8
  else if 'A' ≤ c ∧ c ≤ 'F' then some (c.toNat - 55).toUInt8
  else none

/-- `hex.DecodeString`. -/
def hexDecode : List Char → Option (List UInt8)
  | [] => some []
  | [_] => none
  | a :: b :: rest => do
      let hi ← hexValue a
      let lo ← hexValue b
      let bytes ← hexDecode rest
      return (hi * 16 + lo) :: bytes

/-- `parseUUID`. -/
def parseUUID (s : String) : Option (List UInt8) :=
  let clean := s.toList.filter (· ≠ '-')
  if clean.length ≠ 32 then none else hexDecode clean

/-- Lower-case hexadecimal digits. -/
def hexEncode (bytes : List UInt8) : List Char :=
  bytes.flatMap fun b ↦ [Nat.digitChar (b.toNat / 16), Nat.digitChar (b.toNat % 16)]

/-- The textual form of sixteen bytes. -/
def uuidString (b : List UInt8) : String :=
  String.ofList (hexEncode (b.take 4) ++ '-' :: hexEncode ((b.drop 4).take 2) ++
    '-' :: hexEncode ((b.drop 6).take 2) ++ '-' :: hexEncode ((b.drop 8).take 2) ++
    '-' :: hexEncode ((b.drop 10).take 6))

/-- Sets the version and the variant of a digest. -/
def stamp (b : List UInt8) : List UInt8 :=
  (b.modify 6 fun x ↦ (x &&& 0x0f) ||| 0x50).modify 8 fun x ↦ (x &&& 0x3f) ||| 0x80

/-- `v5` of the `uuid` package: the digest is stamped and its first sixteen bytes are
written out. -/
def uuidv5 (sha1 : List UInt8 → List UInt8) (name nameSpace : String) : String :=
  uuidString (stamp (sha1 ((parseUUID nameSpace).getD [] ++ utf8 name)))

/-- Deterministic per-device command id. -/
def commandIdFor (sha1 : List UInt8 → List UInt8) (batchId deviceId : String) : String :=
  uuidv5 sha1 (batchId ++ ":" ++ deviceId) ZENSTIER_NAMESPACE

/-- The agent's `uuidV5`: the digest is cut to sixteen bytes and then stamped. -/
def uuidV5 (sha1 : List UInt8 → List UInt8) (nameSpace name : String) : String :=
  match parseUUID nameSpace with
  | none => ""
  | some ns => uuidString (stamp ((sha1 (ns ++ utf8 name)).take 16))

/-- The agent's `DeriveCommandID`. -/
def deriveCommandID (sha1 : List UInt8 → List UInt8) (batchID deviceID : String) : String :=
  uuidV5 sha1 ZENSTIER_NAMESPACE (batchID ++ ":" ++ deviceID)

/-- Stamping does not look past the sixteenth byte. -/
theorem stamp_take (b : List UInt8) : stamp (b.take 16) = (stamp b).take 16 := by
  simp [stamp, List.take_modify]

theorem uuidString_take (b : List UInt8) : uuidString (b.take 16) = uuidString b := by
  simp only [uuidString, List.drop_take, List.take_take]
  rfl

/-- Agent and backend derive the same id. -/
theorem deriveCommandID_eq (sha1 : List UInt8 → List UInt8) (batchId deviceId : String) :
    deriveCommandID sha1 batchId deviceId = commandIdFor sha1 batchId deviceId := by
  have hns : (parseUUID ZENSTIER_NAMESPACE).isSome := by decide
  obtain ⟨ns, hns⟩ := Option.isSome_iff_exists.mp hns
  simp only [deriveCommandID, uuidV5, commandIdFor, uuidv5, hns, Option.getD_some]
  rw [stamp_take, uuidString_take]

end Zenstier
