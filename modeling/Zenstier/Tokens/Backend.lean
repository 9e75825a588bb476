import Zenstier.Concurrent.Logic
import Zenstier.Mqtt.Dynsec
import Zenstier.Schema

/-!
# The stores behind the credential lifecycle

The token service keeps device credentials in three places: rows in PostgreSQL, the
plaintext MQTT password of a pending enrollment in Redis, and an account at the broker.
`Backend` is their joint state, `TokenOp` lists the requests the service makes of them,
and `tokenServer` serves a request.  There is no transaction across the three stores:
every request is atomic by itself and may fail by itself.
-/

namespace Zenstier

open Store Concurrent

/-- What an agent reports about its host. -/
structure HostFacts where
  hostname : Option String := none
  osName : Option String := none
  osVersion : Option String := none
  kernel : Option String := none
  arch : Option String := none
  agentVersion : Option String := none
deriving DecidableEq, Repr, Inhabited

/-- A token row with its device. -/
structure TokenWithDevice where
  id : String
  token : AuthToken
  device : Option (String × Device)
deriving DecidableEq, Repr, Inhabited

/-- A device row with its tokens. -/
structure DeviceWithTokens where
  id : String
  device : Device
  tokens : List (String × AuthToken)
deriving DecidableEq, Repr

/-- A team row with its tokens and devices. -/
structure TeamWithCredentials where
  team : Team
  authTokens : List (String × AuthToken)
  devices : List (String × Device)
deriving DecidableEq, Repr

/-- A Redis string under `SET key value EX seconds`. -/
structure RedisEntry where
  value : String
  expiresAt : Int
deriving DecidableEq, Repr

/-- The joint state of the database, Redis and the broker, with the time. -/
structure Backend where
  clock : Int
  users : Table String User
  teams : Table String Team
  deviceGroups : Table String DeviceGroup
  devices : Table String Device
  tokens : Table String AuthToken
  auditLogs : List AuditLog
  redis : Table String RedisEntry
  broker : Broker

/-- The requests of the credential lifecycle. -/
inductive TokenOp : Type → Type
  /-- `new Date()`. -/
  | now : TokenOp Int
  | createDevice (id : String) (row : Device) : TokenOp Unit
  | createToken (id : String) (row : AuthToken) : TokenOp Unit
  | createAuditLog (row : AuditLog) : TokenOp Unit
  | findTokenByHash (tokenHash : String) : TokenOp (Option TokenWithDevice)
  | findToken (id teamId : String) : TokenOp (Option TokenWithDevice)
  /-- The transaction that ends an enrollment. -/
  | markConsumed (tokenId deviceId : String) (facts : HostFacts)
      (consumedAt lastUsedAt : Int) (audit : AuditLog) : TokenOp Unit
  /-- The transaction that ends a revocation. -/
  | markRevoked (tokenId : String) (deviceId : Option String) (revokedAt : Int)
      (audit : AuditLog) : TokenOp Unit
  | findDevice (teamId deviceId : String) : TokenOp (Option DeviceWithTokens)
  | deleteDevice (id : String) : TokenOp Unit
  | findTeam (id : String) : TokenOp (Option TeamWithCredentials)
  | detachUsers (teamId : String) : TokenOp Unit
  | deleteTeam (id : String) : TokenOp Unit
  | redisSet (key value : String) (seconds : Int) : TokenOp Unit
  | redisGet (key : String) : TokenOp (Option String)
  | redisDel (key : String) : TokenOp Unit
  | dynsecSend (commands : List DynsecCommand) : TokenOp (List DynsecResponse)
  /-- The empty retained message that evicts a status. -/
  | clearRetainedStatus (topic : String) : TokenOp Unit

namespace Backend

variable (s : Backend)

/-- The device a token refers to. -/
def deviceOf (t : AuthToken) : Option (String × Device) :=
  t.deviceId.bind fun d ↦ (s.devices.find? d).map (d, ·)

/-! ## Writes -/

/-- Inserts a device; its public id must be new, its references must exist. -/
def createDevice (id : String) (row : Device) : Except Err Backend :=
  if (s.users.find? row.userId).isNone || (s.teams.find? row.teamId).isNone ||
      (row.groupId.any fun g ↦ (s.deviceGroups.find? g).isNone) then
    .error .foreignKeyViolation
  else if (s.devices.findFirst fun _ d ↦ d.deviceId = row.deviceId).isSome then
    .error .uniqueViolation
  else match s.devices.insert id row with
    | some devices => .ok { s with devices }
    | none => .error .uniqueViolation

/-- Inserts a token; its hash and its MQTT username must be new. -/
def createToken (id : String) (row : AuthToken) : Except Err Backend :=
  if (s.users.find? row.userId).isNone || (s.teams.find? row.teamId).isNone ||
      (row.deviceId.any fun d ↦ (s.devices.find? d).isNone) then
    .error .foreignKeyViolation
  else if (s.tokens.findFirst fun _ t ↦
      t.tokenHash = row.tokenHash ∨ t.mqttUsername = row.mqttUsername).isSome then
    .error .uniqueViolation
  else match s.tokens.insert id row with
    | some tokens => .ok { s with tokens }
    | none => .error .uniqueViolation

/-- The token becomes CONSUMED and its device gets the reported facts, or neither. -/
def markConsumed (tokenId deviceId : String) (facts : HostFacts)
    (consumedAt lastUsedAt : Int) (audit : AuditLog) : Except Err Backend :=
  if (s.tokens.find? tokenId).isNone || (s.devices.find? deviceId).isNone then
    .error .recordNotFound
  else .ok { s with
    tokens := s.tokens.update tokenId fun t ↦ { t with
      status := .consumed, consumedAt := some consumedAt, lastUsedAt := some lastUsedAt }
    devices := s.devices.update deviceId fun d ↦ { d with
      hostname := facts.hostname, osName := facts.osName, osVersion := facts.osVersion
      kernel := facts.kernel, arch := facts.arch, agentVersion := facts.agentVersion }
    auditLogs := s.auditLogs ++ [audit] }

/-- The token becomes REVOKED and its device OFFLINE, or neither. -/
def markRevoked (tokenId : String) (deviceId : Option String) (revokedAt : Int)
    (audit : AuditLog) : Except Err Backend :=
  if (s.tokens.find? tokenId).isNone ||
      (deviceId.any fun d ↦ (s.devices.find? d).isNone) then
    .error .recordNotFound
  else .ok { s with
    tokens := s.tokens.update tokenId fun t ↦ { t with
      status := .revoked, revokedAt := some revokedAt }
    devices := s.devices.updateMany (fun k _ ↦ some k = deviceId) fun d ↦ { d with
      status := .offline }
    auditLogs := s.auditLogs ++ [audit] }

/-- Deletes a device; its tokens go with it. -/
def deleteDevice (id : String) : Except Err Backend :=
  if (s.devices.find? id).isNone then .error .recordNotFound
  else .ok { s with
    devices := s.devices.delete id
    tokens := s.tokens.deleteMany fun _ t ↦ t.deviceId = some id }

/-- Deletes a team; its devices, its tokens and the tokens of its devices go with it. -/
def deleteTeam (id : String) : Except Err Backend :=
  if (s.teams.find? id).isNone then .error .recordNotFound
  else .ok { s with
    teams := s.teams.delete id
    users := s.users.updateMany (fun _ u ↦ u.activeTeamId = some id) fun u ↦ { u with
      activeTeamId := none }
    deviceGroups := s.deviceGroups.deleteMany fun _ g ↦ g.teamId = id
    devices := s.devices.deleteMany fun _ d ↦ d.teamId = id
    tokens := s.tokens.deleteMany fun _ t ↦
      t.teamId = id ∨ ((s.deviceOf t).any fun d ↦ d.2.teamId = id) }

/-- The reply to a write and the state it leaves: a failed write leaves the old one. -/
def commit : Except Err Backend → Except Err Unit × Backend
  | .ok s' => (.ok (), s')
  | .error e => (.error e, s)

@[simp] theorem commit_ok (s' : Backend) : s.commit (.ok s') = (.ok (), s') := rfl

@[simp] theorem commit_error (e : Err) : s.commit (.error e) = (.error e, s) := rfl

theorem commit_cases (r : Except Err Backend) :
    (s.commit r).2 = s ∨ ∃ s', r = .ok s' ∧ s.commit r = (.ok (), s') := by
  cases r with
  | ok s' => exact .inr ⟨s', rfl, rfl⟩
  | error e => exact .inl rfl

variable {s} in
/-- What the enrollment transaction does if it succeeds. -/
theorem markConsumed_eq_ok {s' : Backend} {t d : String} {facts : HostFacts} {c l : Int}
    {audit : AuditLog} (h : s.markConsumed t d facts c l audit = .ok s') :
    s'.tokens = s.tokens.update t (fun r ↦ { r with
        status := .consumed, consumedAt := some c, lastUsedAt := some l }) ∧
      (∀ k, (s'.devices.find? k).map (·.teamId) = (s.devices.find? k).map (·.teamId)) ∧
      s'.redis = s.redis ∧ s'.broker = s.broker ∧ s'.clock = s.clock := by
  rw [markConsumed] at h
  split at h
  · contradiction
  · cases h
    refine ⟨rfl, fun k ↦ ?_, rfl, rfl, rfl⟩
    simp only [Table.find?_update]
    split <;> cases s.devices.find? k <;> rfl

variable {s} in
/-- What the revocation transaction does if it succeeds. -/
theorem markRevoked_eq_ok {s' : Backend} {t : String} {d : Option String} {r : Int}
    {audit : AuditLog} (h : s.markRevoked t d r audit = .ok s') :
    s'.tokens = s.tokens.update t (fun row ↦ { row with
        status := .revoked, revokedAt := some r }) ∧
      (∀ k, (s'.devices.find? k).map (·.teamId) = (s.devices.find? k).map (·.teamId)) ∧
      s'.redis = s.redis ∧ s'.broker = s.broker ∧ s'.clock = s.clock := by
  rw [markRevoked] at h
  split at h
  · contradiction
  · cases h
    refine ⟨rfl, fun k ↦ ?_, rfl, rfl, rfl⟩
    simp only [Table.find?_updateMany]
    cases s.devices.find? k with
    | none => rfl
    | some row => simp only [Option.map_some]; split <;> rfl

/-! ## The server -/

/-- Serves one request. -/
def serve {β : Type} : TokenOp β → Except Err β × Backend
  | .now => (.ok s.clock, s)
  | .createDevice id row => s.commit (s.createDevice id row)
  | .createToken id row => s.commit (s.createToken id row)
  | .createAuditLog row => (.ok (), { s with auditLogs := s.auditLogs ++ [row] })
  | .findTokenByHash h =>
      (.ok ((s.tokens.findFirst fun _ t ↦ t.tokenHash = h).map fun e ↦
        ⟨e.1, e.2, s.deviceOf e.2⟩), s)
  | .findToken id teamId =>
      (.ok ((s.tokens.findFirst fun k t ↦ k = id ∧ t.teamId = teamId).map fun e ↦
        ⟨e.1, e.2, s.deviceOf e.2⟩), s)
  | .markConsumed t d facts c l audit => s.commit (s.markConsumed t d facts c l audit)
  | .markRevoked t d r audit => s.commit (s.markRevoked t d r audit)
  | .findDevice teamId deviceId =>
      (.ok ((s.devices.findFirst fun _ d ↦ d.teamId = teamId ∧ d.deviceId = deviceId).map
        fun e ↦ ⟨e.1, e.2, s.tokens.findMany fun _ t ↦ t.deviceId = some e.1⟩), s)
  | .deleteDevice id => s.commit (s.deleteDevice id)
  | .findTeam id =>
      (.ok ((s.teams.find? id).map fun team ↦ ⟨team,
        s.tokens.findMany fun _ t ↦ t.teamId = id,
        s.devices.findMany fun _ d ↦ d.teamId = id⟩), s)
  | .detachUsers teamId =>
      (.ok (), { s with
        users := s.users.updateMany (fun _ u ↦ u.activeTeamId = some teamId) fun u ↦ { u with
          activeTeamId := none } })
  | .deleteTeam id => s.commit (s.deleteTeam id)
  | .redisSet key value seconds =>
      (.ok (), { s with redis := s.redis.put key ⟨value, s.clock + 1000 * seconds⟩ })
  | .redisGet key =>
      (.ok (((s.redis.find? key).filter fun e ↦ s.clock < e.expiresAt).map (·.value)), s)
  | .redisDel key => (.ok (), { s with redis := s.redis.delete key })
  | .dynsecSend commands =>
      (.ok (s.broker.send commands).1, { s with broker := (s.broker.send commands).2 })
  | .clearRetainedStatus _ => (.ok (), s)

end Backend

/-- The stores as a server. -/
def tokenServer : Server TokenOp Err Backend := ⟨fun op s ↦ s.serve op⟩

@[simp] theorem tokenServer_serve {β : Type} (op : TokenOp β) (s : Backend) :
    tokenServer.serve op s = s.serve op := rfl

/-- Time passes. -/
def tick (ms : Nat) (s : Backend) : Backend := { s with clock := s.clock + ms }

end Zenstier
