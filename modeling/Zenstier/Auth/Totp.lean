import Zenstier.Runtime

/-!
# Time-based one-time passwords

`totp.ts`, that is RFC 6238 with six digits, periods of 30 seconds and the neighbouring
periods accepted.  The keyed hash of `node:crypto` is an argument.
-/

namespace Zenstier

namespace Totp

def DIGITS : Nat := 6

def PERIOD_SECONDS : Int := 30

def BASE32_ALPHABET : List Char := "ABCDEFGHIJKLMNOPQRSTUVWXYZ234567".toList

/-! ## Base 32 -/

/-- The characters of the digits that `bits` bits of `value` fill, and what is left. -/
def drain (value : Nat) : Nat → List Char × Nat
  | bits =>
      if 5 ≤ bits then
        let (out, left) := drain value (bits - 5)
        (BASE32_ALPHABET.getD (value / 2 ^ (bits - 5) % 32) 'A' :: out, left)
      else ([], bits)

/-- The loop of `base32Encode`.  Bitwise operations are those of 32-bit integers. -/
def encodeFrom (value bits : Nat) : List UInt8 → List Char
  | [] =>
      if 0 < bits then [BASE32_ALPHABET.getD (value * 2 ^ (5 - bits) % 32) 'A'] else []
  | byte :: buffer =>
      let value := (value * 256 + byte.toNat) % 2 ^ 32
      let (out, left) := drain value (bits + 8)
      out ++ encodeFrom value left buffer

def base32Encode (buffer : List UInt8) : String := String.ofList (encodeFrom 0 0 buffer)

/-- `generateSecret()`, of the bytes it draws. -/
def generateSecret (bytes : List UInt8) : String := base32Encode bytes

/-- `s.replace(/=+$/, "")`. -/
def stripPadding (s : List Char) : List Char := (s.reverse.dropWhile (· = '=')).reverse

/-- The loop of `base32Decode`. -/
def decodeFrom (value bits : Nat) : List Char → Except Err (List UInt8)
  | [] => .ok []
  | char :: rest => match BASE32_ALPHABET.findIdx? (· = char) with
      | none => .error (.error ("Invalid base32 character: " ++ char.toString))
      | some index =>
          let value := (value * 32 + index) % 2 ^ 32
          if 8 ≤ bits + 5 then
            (decodeFrom value (bits - 3) rest).map
              (UInt8.ofNat (value / 2 ^ (bits - 3) % 256) :: ·)
          else decodeFrom value (bits + 5) rest

/-- `input` in upper case, without padding and white space, decoded. -/
def base32Decode (input : String) : Except Err (List UInt8) :=
  decodeFrom 0 0 ((stripPadding (toUpperCase input).toList).filter (!isTrimmed ·))

/-! ## Codes -/

/-- A counter as a big-endian 64-bit value. -/
def counterBytes (counter : Nat) : List UInt8 :=
  (List.range 8).map fun i ↦ UInt8.ofNat (counter / 256 ^ (7 - i) % 256)

/-- `s.padStart(n, "0")`. -/
def padStart (n : Nat) (s : String) : String :=
  String.ofList (List.replicate (n - s.length) '0') ++ s

/-- Dynamic truncation of a digest. -/
def truncate (digest : List UInt8) : Nat :=
  let offset := (digest.getLastD 0).toNat % 16
  let byte (i : Nat) : Nat := (digest.getD (offset + i) 0).toNat
  byte 0 % 128 * 2 ^ 24 + byte 1 * 2 ^ 16 + byte 2 * 2 ^ 8 + byte 3

variable (hmac : List UInt8 → List UInt8 → List UInt8)

/-- The code of a counter; a negative one does not fit the eight bytes. -/
def generateCode (secret : String) (counter : Int) : Except Err String := do
  let key ← base32Decode secret
  if counter < 0 then throw (.error "The value of \"value\" is out of range.")
  else
    let binary := truncate (hmac key (counterBytes counter.toNat))
    return padStart DIGITS (toString (binary % 10 ^ DIGITS))

/-- The number of the period at a time in milliseconds. -/
def currentCounter (at_ : Int) : Int := at_ / 1000 / PERIOD_SECONDS

/-- Whether one of the codes of some counters is the one submitted. -/
def anyCode (secret cleaned : String) : List Int → Except Err Bool
  | [] => .ok false
  | counter :: counters => do
      let expected ← generateCode hmac secret counter
      if expected = cleaned then return true else anyCode secret cleaned counters

/-- Verifies a submitted code at a time. -/
def verifyCode (secret submitted : String) (at_ : Int) : Except Err Bool :=
  let cleaned := submitted.toList.filter (!isTrimmed ·)
  if ¬ (cleaned.length = DIGITS ∧ cleaned.all Char.isDigit) then .ok false
  else
    let counter := currentCounter at_
    anyCode hmac secret (String.ofList cleaned) [counter - 1, counter, counter + 1]

/-! ## The setup -/

/-- Two hexadecimal digits, in upper case. -/
def hexByte (b : UInt8) : List Char :=
  [Nat.digitChar (b.toNat / 16), Nat.digitChar (b.toNat % 16)].map Char.toUpper

/-- `encodeURIComponent(s)`. -/
def encodeURIComponent (s : String) : String :=
  String.ofList (s.toUTF8.toList.flatMap fun b ↦
    let c := Char.ofNat b.toNat
    if c.isAlphanum ∨ c ∈ ['-', '_', '.', '!', '~', '*', '\'', '(', ')'] then [c]
    else '%' :: hexByte b)

/-- The `otpauth://` URI an authenticator app scans. -/
def otpauthUri (secret accountName : String) : String :=
  "otpauth://totp/" ++ encodeURIComponent ("Zenstier:" ++ accountName) ++ "?secret=" ++ secret ++
    "&issuer=Zenstier&algorithm=SHA1&digits=" ++ toString DIGITS ++
    "&period=" ++ toString PERIOD_SECONDS

/-- A recovery code, of the five bytes it draws. -/
def backupCode (bytes : List UInt8) : String :=
  let raw := bytes.flatMap hexByte
  String.ofList (raw.take 5 ++ '-' :: (raw.drop 5).take 5)

end Totp

end Zenstier
