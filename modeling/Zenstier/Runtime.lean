import Mathlib.Algebra.GroupWithZero.Nat
import Mathlib.Data.List.Infix

/-!
# What the services take from their runtime

The string functions of JavaScript that the code relies on, Node's `base64url`
encoding, and the errors a service can throw or see thrown.  Digests and password hashes
stay abstract: `Digests` names them, and nothing is assumed of them unless a theorem
says so.
-/

namespace Zenstier

/-! ## Strings -/

/-- `haystack.includes(needle)`. -/
def includes (haystack needle : String) : Bool :=
  decide (needle.toList <:+: haystack.toList)

/-- `s.toLowerCase()` on the ASCII letters. -/
def toLowerCase (s : String) : String := String.ofList (s.toList.map Char.toLower)

/-- `s.toUpperCase()` on the ASCII letters. -/
def toUpperCase (s : String) : String := String.ofList (s.toList.map Char.toUpper)

/-- `s.length`. -/
def utf16Length (s : String) : Nat :=
  (s.toList.map fun c ↦ if c.toNat < 0x10000 then 1 else 2).sum

/-- A string by its UTF-16 code units, as slices of it are. -/
abbrev JsString := List UInt16

/-- The code units of a character. -/
def utf16Units (c : Char) : List UInt16 :=
  if c.toNat < 0x10000 then [c.toNat.toUInt16]
  else [(0xD800 + (c.toNat - 0x10000) / 0x400).toUInt16,
    (0xDC00 + (c.toNat - 0x10000) % 0x400).toUInt16]

def utf16 (s : String) : JsString := s.toList.flatMap utf16Units

theorem utf16_append (s t : String) : utf16 (s ++ t) = utf16 s ++ utf16 t := by
  rw [utf16, String.toList_append, List.flatMap_append]
  rfl

/-- White space to `s.trim()`. -/
def isTrimmed (c : Char) : Bool :=
  c.toNat ∈ [0x9, 0xA, 0xB, 0xC, 0xD, 0x20, 0xA0, 0x1680, 0x2028, 0x2029, 0x202F, 0x205F,
    0x3000, 0xFEFF] ∨ (0x2000 ≤ c.toNat ∧ c.toNat ≤ 0x200A)

/-- `s.trim()`. -/
def trim (s : String) : String :=
  String.ofList ((s.toList.dropWhile isTrimmed).reverse.dropWhile isTrimmed).reverse

/-- An optional string as a condition sees it: the empty string counts as absent. -/
def truthy : Option String → Option String
  | some "" => none
  | v => v

@[simp] theorem truthy_none : truthy none = none := rfl

theorem truthy_eq_some {v : Option String} {x : String} (h : truthy v = some x) : v = some x := by
  unfold truthy at h
  split at h
  · contradiction
  · exact h

theorem truthy_eq_none {v : Option String} : truthy v = none ↔ v = none ∨ v = some "" := by
  unfold truthy
  split
  · simp
  · rename_i hne
    rw [or_iff_left hne]

theorem truthy_of_ne {x : String} (h : x ≠ "") : truthy (some x) = some x := by
  unfold truthy
  split
  · rename_i heq
    exact absurd (Option.some.inj heq) h
  · rfl

/-- The alphabet of `base64url`. -/
def b64Char (n : Nat) : Char :=
  if n < 26 then Char.ofNat (65 + n)
  else if n < 52 then Char.ofNat (97 + (n - 26))
  else if n < 62 then Char.ofNat (48 + (n - 52))
  else if n = 62 then '-'
  else '_'

/-- URL-safe base64 without padding, as characters. -/
def b64Chars : List UInt8 → List Char
  | a :: b :: c :: rest =>
      b64Char (a.toNat / 4) :: b64Char (a.toNat % 4 * 16 + b.toNat / 16) ::
        b64Char (b.toNat % 16 * 4 + c.toNat / 64) :: b64Char (c.toNat % 64) :: b64Chars rest
  | [a, b] =>
      [b64Char (a.toNat / 4), b64Char (a.toNat % 4 * 16 + b.toNat / 16),
        b64Char (b.toNat % 16 * 4)]
  | [a] => [b64Char (a.toNat / 4), b64Char (a.toNat % 4 * 16)]
  | [] => []

/-- `buf.toString("base64url")`. -/
def b64url (buf : List UInt8) : String := String.ofList (b64Chars buf)

/-- The digests and password hashes of `node:crypto` and `bcryptjs`. -/
structure Digests where
  /-- `createHash("sha256").update(s).digest("hex")`. -/
  sha256 : String → String
  /-- `bcrypt.hash(s, 10)`. -/
  bcrypt : String → String

/-! ## Errors -/

/-- What a service throws, or sees thrown by the stores it talks to. -/
inductive Err
  /-- `Error`. -/
  | error (message : String)
  /-- `TeamError`. -/
  | team (message : String)
  /-- `EnrollmentError`. -/
  | enrollment (message code : String) (status : Nat)
  /-- `ScheduleError`. -/
  | schedule (message : String)
  /-- `TotpError`. -/
  | totp (message : String)
  /-- `GroupError`. -/
  | group (message : String)
  /-- `AlertError`. -/
  | alert (message : String)
  /-- `ForbiddenError`. -/
  | forbidden (permission : String)
  /-- `PrismaClientKnownRequestError`. -/
  | prisma (code : String)
deriving DecidableEq, Repr, Inhabited

namespace Err

/-- A unique constraint failed. -/
def uniqueViolation : Err := .prisma "P2002"

/-- A foreign key constraint failed. -/
def foreignKeyViolation : Err := .prisma "P2003"

/-- A record to update or delete was not found. -/
def recordNotFound : Err := .prisma "P2025"

/-- `err.message`. -/
def message : Err → String
  | .error m | .enrollment m _ _ | .team m | .schedule m | .totp m | .group m | .alert m => m
  | .forbidden p => "Missing permission: " ++ p
  | .prisma c => c

/-- `String(err)`. -/
def toString : Err → String
  | .error m | .enrollment m _ _ => "Error: " ++ m
  | .team m => "TeamError: " ++ m
  | .schedule m => "ScheduleError: " ++ m
  | .totp m => "TotpError: " ++ m
  | .group m => "GroupError: " ++ m
  | .alert m => "AlertError: " ++ m
  | .forbidden p => "ForbiddenError: Missing permission: " ++ p
  | .prisma c => "PrismaClientKnownRequestError: " ++ c

end Err

end Zenstier
