import Zenstier.Auth.Store

/-!
# Signing in

`authorize` of `auth.ts` with the limiter that guards it, `authenticateUser`, and the second
factor of `totp.service.ts` with its actions.  What a form or a header holds and what is drawn
at random are arguments.
-/

namespace Zenstier

open Concurrent

/-- Programs over the accounts. -/
abbrev AuthM := Prog AuthOp Err

/-! ## The limiter -/

/-- Reads the current count without consuming budget.  Fails closed. -/
def isRateLimited (key : String) (limit : Nat) : AuthM Bool :=
  tryCatch (do
    let current ← .perform (.getCounter key)
    return current.any (limit ≤ ·)) fun _ ↦ return true

/-- Clears a counter, as far as possible. -/
def resetRateLimit (key : String) : AuthM Unit :=
  tryCatch (.perform (.deleteCounter key)) fun _ ↦ return ()

/-- The milliseconds to wait. -/
def consumeRateLimit (key : String) (limit : Nat) (windowMs : Int) : AuthM Int :=
  tryCatch (.perform (.charge key limit windowMs)) fun _ ↦ return windowMs

/-- What the limiter makes of the reply. -/
def limits (limit : Nat) : Except Err (Option Nat) → Bool
  | .ok current => current.any (limit ≤ ·)
  | .error _ => true

theorem isRateLimited_eq (key : String) (limit : Nat) :
    isRateLimited key limit = .call (.getCounter key) fun r ↦ .pure (limits limit r) := by
  show Prog.call _ _ = _
  congr 1
  funext r
  cases r <;> rfl

theorem consumeRateLimit_eq (key : String) (limit : Nat) (windowMs : Int) :
    consumeRateLimit key limit windowMs =
      .call (.charge key limit windowMs) fun r ↦ .pure (r.toOption.getD windowMs) := by
  show Prog.call _ _ = _
  congr 1
  funext r
  cases r <;> rfl

theorem resetRateLimit_eq (key : String) :
    resetRateLimit key = .call (.deleteCounter key) fun _ ↦ .pure () := by
  show Prog.call _ _ = _
  congr 1
  funext r
  cases r <;> rfl

/-- The client's address from the headers `x-forwarded-for` and `x-real-ip`. -/
def clientIp (forwarded realIp : Option String) : String :=
  match truthy forwarded with
  | some hops => trim (String.ofList (hops.toList.takeWhile (· ≠ ',')))
  | none => realIp.getD "unknown"

/-! ## The second factor -/

/-- The audit entry of a change to the second factor. -/
def totpAudit (userId : String) (action : AuditAction) : AuditLog where
  userId := userId
  teamId := none
  action
  targetType := "user"
  targetId := userId

/-- Consumes the first recovery code that matches, of those that are still to be compared. -/
def redeem (userId normalised : String) (totpBackupCodes : List String) : List String → AuthM Bool
  | [] => return false
  | hash :: hashes => do
      if ← .perform (.compare normalised hash) then
        .perform (.setBackupCodes userId (totpBackupCodes.filter (· ≠ hash)))
        .perform (.createAuditLog (totpAudit userId .user2faRecoveryUsed))
        return true
      else redeem userId normalised totpBackupCodes hashes

/-- The secret of an account that has its second factor enabled. -/
def UserAccount.factor (user : UserAccount) : Option String :=
  if user.totpEnabled then truthy user.totpSecret else none

/-- Verifies a code or a recovery code. -/
def verifySecondFactor (userId submitted : String) : AuthM Bool := do
  match ← .perform (.findUser userId) with
  | none => return true
  | some user => match user.factor with
      | none => return true -- not enrolled
      | some secret =>
          let cleaned := trim submitted
          if ← .perform (.verifyCode secret cleaned) then return true
          else redeem userId (toUpperCase cleaned) user.totpBackupCodes user.totpBackupCodes

section Only

open Prog

variable {P : ∀ β : Type, AuthOp β → Prop} {userId : String}

theorem redeem_only (hcompare : ∀ plain hash, P _ (.compare plain hash))
    (hset : ∀ codes, P _ (.setBackupCodes userId codes)) (haudit : ∀ row, P _ (.createAuditLog row))
    (normalised : String) (codes hashes : List String) :
    Only P (redeem userId normalised codes hashes) := by
  induction hashes with
  | nil => trivial
  | cons hash hashes ih =>
      refine .await (hcompare _ _) fun b ↦ ?_
      cases b with
      | false => exact ih
      | true => exact .await (hset _) fun _ ↦ .await (haudit _) fun _ ↦ trivial

/-- The requests that verifying a second factor may issue. -/
theorem verifySecondFactor_only (hfind : P _ (.findUser userId))
    (hverify : ∀ secret code, P _ (.verifyCode secret code))
    (hcompare : ∀ plain hash, P _ (.compare plain hash))
    (hset : ∀ codes, P _ (.setBackupCodes userId codes)) (haudit : ∀ row, P _ (.createAuditLog row))
    (submitted : String) : Only P (verifySecondFactor userId submitted) := by
  refine .await hfind fun found ↦ ?_
  cases found with
  | none => trivial
  | some user =>
      dsimp only
      cases user.factor with
      | none => trivial
      | some secret =>
          refine .await (hverify _ _) fun b ↦ ?_
          cases b with
          | false => exact redeem_only hcompare hset haudit _ _ _
          | true => trivial

end Only

structure TotpSetup where
  secret : String
  otpauthUri : String
  qrSvg : String
deriving DecidableEq, Repr

/-- Starts enrolment.  The code is drawn by a library. -/
def beginTotpSetup (renderQr : String → Except Err String) (bytes : List UInt8)
    (userId email : String) : AuthM TotpSetup := do
  match ← .perform (.findUser userId) with
  | none => throw .recordNotFound
  | some user =>
      if user.totpEnabled then throw (.totp "Two-factor authentication is already enabled")
      else do
        let secret := Totp.generateSecret bytes
        .perform (.setSecret userId secret)
        let uri := Totp.otpauthUri secret email
        let qrSvg ← .ofExcept (renderQr uri)
        return { secret, otpauthUri := uri, qrSvg }

/-- What is drawn for a recovery code and its hash. -/
structure RecoveryDraw where
  bytes : List UInt8
  salt : String

/-- Confirms enrolment and returns the recovery codes. -/
def confirmTotpSetup (draws : Fin 10 → RecoveryDraw) (userId code : String) :
    AuthM (List String) := do
  match ← .perform (.findUser userId) with
  | none => throw .recordNotFound
  | some user =>
      if user.totpEnabled then throw (.totp "Two-factor authentication is already enabled")
      else match truthy user.totpSecret with
        | none => throw (.totp "Start the setup again — no pending secret was found")
        | some secret =>
            if ← .perform (.verifyCode secret code) then
              let hashed ← .awaitAll ((List.ofFn draws).map fun d ↦
                .perform (.hash (Totp.backupCode d.bytes) d.salt))
              .perform (.enable userId hashed)
              .perform (.createAuditLog (totpAudit userId .user2faEnabled))
              return (List.ofFn draws).map fun d ↦ Totp.backupCode d.bytes
            else throw (.totp "That code is not valid. Check your device's clock.")

/-- Disabling requires a current code, so a hijacked session cannot strip it. -/
def disableTotp (userId code : String) : AuthM Unit := do
  match ← .perform (.findUser userId) with
  | none => throw .recordNotFound
  | some user => match user.factor with
      | none => throw (.totp "Two-factor authentication is not enabled")
      | some _ =>
          if ← verifySecondFactor userId code then
            .perform (.disable userId)
            .perform (.createAuditLog (totpAudit userId .user2faDisabled))
          else throw (.totp "That code is not valid")

structure SecurityState where
  ok : Bool := false
  error : Option String := none
deriving DecidableEq, Repr

/-- Disables the second factor of the session's user.  A `TotpError` becomes a message. -/
def disableTotpAction (userId : String) (code : Option String) : AuthM SecurityState :=
  tryCatch (do
    disableTotp userId (code.getD "")
    return { ok := true }) fun
    | .totp message => return { error := some message }
    | err => throw err

/-! ## Signing in -/

structure AuthenticatedUser where
  id : String
  email : String
  name : Option String
deriving DecidableEq, Repr

/-- A hash that no password has. -/
def DUMMY_HASH : String := "$2a$12$invalidinvalidinvalidinvalidinvalidinvalidinvalidinvalidinv"

/-- Verifies credentials.  The caller cannot tell "no such user" from "wrong password". -/
def authenticateUser (email password : String) : AuthM (Option AuthenticatedUser) := do
  let found ← .perform (.findUserByEmail email)
  match found.bind fun e ↦ (truthy e.2.passwordHash).map (e, ·) with
  | none =>
      -- Equalise timing against the hash comparison below.
      let _ ← .perform (.verifyPassword password DUMMY_HASH)
      return none
  | some ((id, user), passwordHash) =>
      if ← .perform (.verifyPassword password passwordHash) then
        return some { id, email := user.email, name := user.name }
      else return none

/-- Failed sign-in budget, per 15 minutes. -/
def LOGIN_ACCOUNT_LIMIT : Nat := 8

def LOGIN_IP_LIMIT : Nat := 20

def LOGIN_WINDOW_MS : Int := 15 * 60000

/-- What `credentialsSchema` accepts. -/
structure Credentials where
  email : String
  password : String
  totp : Option String := none
deriving DecidableEq, Repr

def ipKey (ip : String) : String := "login:ip:" ++ ip

def acctKey (email : String) : String := "login:acct:" ++ email

theorem acctKey_injective {email email' : String} (h : acctKey email = acctKey email') :
    email = email' := by
  have := congrArg String.toList h
  exact String.toList_inj.mp (by simpa [acctKey] using this)

theorem ipKey_ne_acctKey (ip email : String) : ipKey ip ≠ acctKey email := by
  intro h
  have := congrArg String.toList h
  simp [ipKey, acctKey] at this

/-- What becomes of an attempt, depending on whose password it has given. -/
def settleAttempt (ip : String) (data : Credentials) :
    Option AuthenticatedUser → AuthM (Option AuthenticatedUser)
  | none => do
      let _ ← .awaitAll [consumeRateLimit (ipKey ip) LOGIN_IP_LIMIT LOGIN_WINDOW_MS,
        consumeRateLimit (acctKey data.email) LOGIN_ACCOUNT_LIMIT LOGIN_WINDOW_MS]
      return none
  | some user => do
      if ← verifySecondFactor user.id (data.totp.getD "") then
        -- A correct sign-in clears the account's failure budget.
        resetRateLimit (acctKey data.email)
        return some user
      else
        let _ ← consumeRateLimit (acctKey data.email) LOGIN_ACCOUNT_LIMIT LOGIN_WINDOW_MS
        return none

/-- Signs in from an address, with credentials that may be malformed. -/
def authorize (ip : String) (parsed : Option Credentials) : AuthM (Option AuthenticatedUser) :=
  match parsed with
  | none => return none
  | some data => do
      -- Check before authenticating, and charge only on failure.
      let blocked ← .awaitAll [isRateLimited (ipKey ip) LOGIN_IP_LIMIT,
        isRateLimited (acctKey data.email) LOGIN_ACCOUNT_LIMIT]
      if blocked.any id then return none
      else
        let user ← authenticateUser data.email data.password
        settleAttempt ip data user

end Zenstier
