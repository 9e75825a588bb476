import Zenstier.Concurrent.Residual
import Zenstier.Tokens.Backend

/-!
# The credential lifecycle

The functions of `token.service.ts`, with `deleteDeviceAction` and `deleteTeam`, as
programs over the stores of `Backend`.  A device slot and its disabled broker account are
created together with an enrollment token; the agent that presents the token first gets
the MQTT password and has its account enabled; a revocation deletes the account.

What a function draws at random, and the ids the database assigns, are arguments.
-/

namespace Zenstier

open Concurrent

/-- Programs of the credential lifecycle. -/
abbrev TokenM := Prog TokenOp Err

def TOKEN_PREFIX : String := "zst_ent_"

/-- Device ids appear as an MQTT topic level, so keep them alphanumeric. -/
def generateDeviceId (bytes : List UInt8) : String :=
  "dev-" ++ toLowerCase (String.ofList
    ((b64url bytes).toList.filter fun c ↦ c ≠ '-' ∧ c ≠ '_'))

/-- `topics.status`. -/
def statusTopic (deviceId : String) : String := "zenstier/" ++ deviceId ++ "/status"

/-- The Redis key of a pending MQTT password. -/
def pendingKey (tokenId : String) : String := "zenstier:pending:" ++ tokenId

/-! ## Issuing a token -/

/-- What `createEnrollmentToken` draws at random, and the ids of the rows it creates. -/
structure EnrollmentDraws where
  deviceBytes : List UInt8
  tokenBytes : List UInt8
  passwordBytes : List UInt8
  deviceRowId : String
  tokenRowId : String
deriving DecidableEq, Repr

structure CreatedToken where
  tokenId : String
  deviceId : String
  /-- Shown to the user exactly once. -/
  plaintextToken : String
deriving DecidableEq, Repr

def stashPendingSecret (tokenId secret : String) : TokenM Unit :=
  .perform (.redisSet (pendingKey tokenId) secret (60 * 60 * 24))

/-- Reads the secret, then deletes it. -/
def takePendingSecret (tokenId : String) : TokenM (Option String) := do
  let value ← .perform (.redisGet (pendingKey tokenId))
  if (truthy value).isSome then
    .perform (.redisDel (pendingKey tokenId))
    return value
  else return value

/-- What follows on a taken secret: it sees the value after the deletion, if any. -/
theorem takePendingSecret_bind {α : Type} (tokenId : String) (f : Option String → TokenM α) :
    (takePendingSecret tokenId >>= f) =
      .call (.redisGet (pendingKey tokenId)) fun r ↦ .ofExcept r >>= fun value ↦
        if (truthy value).isSome then
          .call (.redisDel (pendingKey tokenId)) fun r' ↦ .ofExcept r' >>= fun _ ↦ f value
        else f value := by
  rw [takePendingSecret, Prog.bind_assoc, Prog.perform_bind]
  congr 1
  funext r
  congr 1
  funext value
  split <;> simp

def provisionBrokerCredential (deviceId password : String) (groupId : Option String) :
    TokenM Unit := do
  -- an empty group id is no group
  let groups := (truthy groupId).toList.map broadcastGroupName
  let created ← .perform (.dynsecSend
    [.createClient deviceId password deviceId [DEVICE_ROLE] groups])
  .ofExcept (assertDynsecOk created)
  -- Created disabled; enrollment enables it.
  let disabled ← .perform (.dynsecSend [.disableClient deviceId])
  .ofExcept (assertDynsecOk disabled)

/-- Creates a device slot, its enrollment token, and a disabled MQTT credential. -/
def createEnrollmentToken (dig : Digests) (draws : EnrollmentDraws)
    (userId teamId deviceName : String) (label groupId : Option String) :
    TokenM CreatedToken := do
  let deviceId := generateDeviceId draws.deviceBytes
  let plaintextToken := TOKEN_PREFIX ++ b64url draws.tokenBytes
  let mqttPassword := b64url draws.passwordBytes
  .perform (.createDevice draws.deviceRowId
    { userId, teamId, deviceId, name := deviceName, status := .unknown, groupId })
  let now ← .perform .now
  .perform (.createToken draws.tokenRowId
    { userId, teamId
      deviceId := some draws.deviceRowId
      tokenPrefix := (plaintextToken.take (TOKEN_PREFIX.length + 8)).toString
      tokenHash := dig.sha256 plaintextToken
      mqttUsername := deviceId
      mqttPasswordHash := dig.bcrypt mqttPassword
      status := .active
      label
      expiresAt := some (now + 1000 * 60 * 60 * 24) })
  stashPendingSecret draws.tokenRowId mqttPassword
  provisionBrokerCredential deviceId mqttPassword groupId
  .perform (.createAuditLog
    { userId, teamId, action := .tokenCreated, targetType := "device"
      targetId := draws.deviceRowId })
  return { tokenId := draws.tokenRowId, deviceId, plaintextToken }

/-! ## Redeeming a token -/

structure EnrollmentResult where
  deviceId : String
  mqttUsername : String
  mqttPassword : String
  groupId : Option String
deriving DecidableEq, Repr

/-- The token may be exchanged, as far as its row tells. -/
def checkRedeemable (token : AuthToken) : TokenM Unit :=
  if token.status = .revoked then
    throw (.enrollment "Token has been revoked" "revoked" 403)
  else if token.status = .consumed then
    throw (.enrollment "Token has already been used" "already_used" 409)
  else match token.expiresAt with
  | some expiresAt => do
      let now ← .perform .now
      if expiresAt < now then throw (.enrollment "Token has expired" "expired" 401)
      else return
  | none => return

/-- Enables the account, marks the token CONSUMED and hands out the credentials. -/
def enroll (facts : HostFacts) (id : String) (token : AuthToken) (deviceRowId : String)
    (device : Device) (mqttPassword : String) : TokenM EnrollmentResult := do
  -- Enable the pre-provisioned broker credential.
  let enabled ← .perform (.dynsecSend [.enableClient token.mqttUsername])
  .ofExcept (assertDynsecOk enabled)
  let consumedAt ← .perform .now
  let lastUsedAt ← .perform .now
  .perform (.markConsumed id deviceRowId facts consumedAt lastUsedAt
    { userId := token.userId, teamId := token.teamId, action := .deviceEnrolled
      targetType := "device", targetId := deviceRowId })
  return { deviceId := device.deviceId, mqttUsername := token.mqttUsername
           mqttPassword, groupId := device.groupId }

/-- Enrolls with the pending password, if there was one to take. -/
def enrollWith (facts : HostFacts) (id : String) (token : AuthToken) (deviceRowId : String)
    (device : Device) (secret : Option String) : TokenM EnrollmentResult :=
  match truthy secret with
  | some mqttPassword => enroll facts id token deviceRowId device mqttPassword
  | none => throw (.enrollment
      "Enrollment secret is no longer available; revoke and re-issue the token"
      "secret_unavailable" 409)

/-- Exchanges a one-time enrollment token for live MQTT credentials. -/
def consumeEnrollmentToken (dig : Digests) (plaintextToken : String) (facts : HostFacts) :
    TokenM EnrollmentResult := do
  match ← .perform (.findTokenByHash (dig.sha256 plaintextToken)) with
  | some ⟨id, token, some (deviceRowId, device)⟩ =>
      checkRedeemable token
      let mqttPassword ← takePendingSecret id
      enrollWith facts id token deviceRowId device mqttPassword
  | _ => throw (.enrollment "Unknown enrollment token" "invalid_token" 401)

/-! ## Ending a credential -/

/-- Deletes a broker account; it does not matter if there is none. -/
def deleteBrokerClient (username : String) : TokenM Unit := do
  let deleted ← .perform (.dynsecSend [.deleteClient username])
  .ofExcept (assertDynsecOk deleted ["not found"])

/-- Evicts the retained status so the device stops appearing in fleet snapshots; a failure
is only logged. -/
def evictRetainedStatus : Option Device → TokenM Unit
  | some device => do
      let _ ← Prog.attempt (.perform (.clearRetainedStatus (statusTopic device.deviceId)))
  | none => return

/-- Deletes the account of a token, then marks the token REVOKED. -/
def revokeFound (userId teamId : String) (found : TokenWithDevice) : TokenM Unit := do
  deleteBrokerClient found.token.mqttUsername
  let revokedAt ← .perform .now
  .perform (.markRevoked found.id (found.device.map (·.1)) revokedAt
    { userId, teamId, action := .tokenRevoked, targetType := "device"
      targetId := found.token.deviceId })
  evictRetainedStatus (found.device.map (·.2))
  let _ ← takePendingSecret found.id

/-- Revokes a device's credentials. -/
def revokeToken (userId teamId tokenId : String) : TokenM Unit := do
  match ← .perform (.findToken tokenId teamId) with
  | none => throw (.error "Token not found")
  | some found => revokeFound userId teamId found

/-- `deleteDeviceAction`, for a caller acting in a team: a failed revocation is logged
and the row is deleted all the same. -/
def deleteDeviceAction (userId teamId deviceId : String) : TokenM Unit := do
  match ← .perform (.findDevice teamId deviceId) with
  | none => throw (.error "Device not found")
  | some ⟨id, _, tokens⟩ =>
      tokens.forM fun token ↦ do
        let _ ← Prog.attempt (revokeToken userId teamId token.1)
      .perform (.deleteDevice id)

/-- Deletes the account of a token, or aborts so that the operator can retry. -/
def revokeOrAbort (token : AuthToken) : TokenM Unit :=
  tryCatch (deleteBrokerClient token.mqttUsername) fun err ↦
    throw (.team ("Could not revoke credentials for " ++ token.mqttUsername ++ ": " ++
      err.toString ++ ". Nothing was deleted."))

/-- Deletes a team and everything it owns. -/
def deleteTeam (teamId : String) : TokenM Unit := do
  match ← .perform (.findTeam teamId) with
  | none => throw (.team "Team not found")
  | some ⟨team, authTokens, devices⟩ =>
      if team.isPersonal then throw (.team "A personal team cannot be deleted")
      else do
        authTokens.forM fun token ↦ revokeOrAbort token.2
        devices.forM fun device ↦ evictRetainedStatus (some device.2)
        -- Detach anyone whose active team this was, then cascade the delete.
        .perform (.detachUsers teamId)
        .perform (.deleteTeam teamId)

/-! ## Which requests the parts make -/

section Requests

variable {P : ∀ β : Type, TokenOp β → Prop}

/-- Checking a token asks for the time only. -/
theorem checkRedeemable_only (hnow : P Int .now) (token : AuthToken) :
    Prog.Only P (checkRedeemable token) := by
  unfold checkRedeemable
  split
  · trivial
  split
  · trivial
  split
  · refine Prog.Only.bind ((Prog.only_perform _).mpr hnow) fun now ↦ ?_
    split <;> trivial
  · trivial

theorem takePendingSecret_only (tokenId : String)
    (hget : P _ (.redisGet (pendingKey tokenId))) (hdel : P _ (.redisDel (pendingKey tokenId))) :
    Prog.Only P (takePendingSecret tokenId) := by
  unfold takePendingSecret
  refine Prog.Only.bind ((Prog.only_perform _).mpr hget) fun value ↦ ?_
  split
  · exact Prog.Only.bind ((Prog.only_perform _).mpr hdel) fun _ ↦ trivial
  · trivial

theorem evictRetainedStatus_only (hclear : ∀ topic, P _ (.clearRetainedStatus topic))
    (device : Option Device) : Prog.Only P (evictRetainedStatus device) := by
  cases device with
  | none => trivial
  | some device =>
      exact Prog.Only.bind ((Prog.only_perform _).mpr (hclear _)).attempt fun _ ↦ trivial

end Requests

/-- The requests of a redemption that has the pending password. -/
def Enrolls : ∀ β : Type, TokenOp β → Prop
  | _, .now | _, .dynsecSend [.enableClient _] | _, .markConsumed .. => True
  | _, _ => False

/-- The requests of a redemption. -/
def Redeems : ∀ β : Type, TokenOp β → Prop
  | _, .findTokenByHash _ | _, .redisGet _ | _, .redisDel _ => True
  | _, op => Enrolls _ op

theorem enroll_only (facts : HostFacts) (id : String) (token : AuthToken) (d : String)
    (device : Device) (password : String) :
    Prog.Only Enrolls (enroll facts id token d device password) := by
  unfold enroll
  refine Prog.Only.bind ((Prog.only_perform _).mpr trivial) fun enabled ↦ ?_
  refine Prog.Only.bind ((Prog.only_ofExcept _).mpr trivial) fun _ ↦ ?_
  refine Prog.Only.bind ((Prog.only_perform _).mpr trivial) fun consumedAt ↦ ?_
  refine Prog.Only.bind ((Prog.only_perform _).mpr trivial) fun lastUsedAt ↦ ?_
  exact Prog.Only.bind ((Prog.only_perform _).mpr trivial) fun _ ↦ trivial

theorem consumeEnrollmentToken_only (dig : Digests) (plaintextToken : String)
    (facts : HostFacts) :
    Prog.Only Redeems (consumeEnrollmentToken dig plaintextToken facts) := by
  unfold consumeEnrollmentToken
  refine Prog.Only.bind ((Prog.only_perform _).mpr trivial) fun found ↦ ?_
  rcases found with _ | ⟨id, token, _ | ⟨d, device⟩⟩
  · trivial
  · trivial
  refine (checkRedeemable_only trivial token).bind fun _ ↦ ?_
  refine (takePendingSecret_only id trivial trivial).bind fun value ↦ ?_
  unfold enrollWith
  cases truthy value with
  | none => trivial
  | some password =>
      refine (enroll_only facts id token d device password).mono fun β op h ↦ ?_
      cases op <;> first | exact h | trivial

/-! ## An example deployment -/

/-- A broker and a database with one user and one team, and no device yet. -/
def freshBackend : Backend where
  clock := 0
  users := ⟨[("user", { email := "user@example.com" })], List.nodup_singleton _⟩
  teams := ⟨[("team", { name := "team" })], List.nodup_singleton _⟩
  deviceGroups := ∅
  devices := ∅
  tokens := ∅
  auditLogs := []
  redis := ∅
  broker := { roles := [DEVICE_ROLE], groups := [], clients := ∅ }

def exampleDraws : EnrollmentDraws where
  deviceBytes := [1, 2, 3]
  tokenBytes := [4, 5, 6]
  passwordBytes := [7, 8, 9]
  deviceRowId := "device"
  tokenRowId := "token"

/-- Digests that keep their argument. -/
def plainDigests : Digests := ⟨id, id⟩

/-- Issuing the example token. -/
def issueExample : TokenM CreatedToken :=
  createEnrollmentToken plainDigests exampleDraws "user" "team" "host" none none

/-- The deployment once the example token is issued. -/
def issuedBackend : Backend := (Concurrent.run tokenServer [] issueExample freshBackend).2

/-- Redeeming the example token. -/
def redeemExample : TokenM EnrollmentResult :=
  consumeEnrollmentToken plainDigests (TOKEN_PREFIX ++ b64url exampleDraws.tokenBytes) {}

example : (Concurrent.run tokenServer [] redeemExample issuedBackend).1 =
    .ok ⟨"dev-aqid", "dev-aqid", "BwgJ", none⟩ := by decide

end Zenstier
