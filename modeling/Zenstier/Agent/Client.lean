import Zenstier.Agent.Protocol
import Zenstier.Worker.Status

/-!
# The agent's connection to the broker

The status messages of `client.go`.  The client is built once, and paho reconnects it as often
as it takes.  What a connection has of its own is what `New` leaves to the handlers; the session
id is not, and neither is the Last-Will, which is handed to the broker with every connect.
-/

namespace Zenstier.Agent

/-! ## Status messages -/

structure OSInfo where
  distro : String := ""
  versionID : String := ""
  kernel : String := ""
  arch : String := ""
  hostname : String := ""
deriving DecidableEq, Repr

/-- `Status`, as the agent publishes it. -/
structure Status where
  v : Int := version
  state : PresenceState
  deviceID : String
  agentVersion : String := ""
  sessionID : String := ""
  os : Option OSInfo := none
  metrics : Option Metrics := none
deriving DecidableEq

/-- The host as the worker parses it. -/
def OSInfo.info (os : OSInfo) : OsInfo where
  distro := omitEmpty os.distro
  version := omitEmpty os.versionID
  kernel := omitEmpty os.kernel
  arch := omitEmpty os.arch
  hostname := omitEmpty os.hostname

/-- The message as the worker parses it, if the schema accepts it. -/
def Status.payload (s : Status) : Option StatusPayload :=
  if s.v ≠ PROTOCOL_VERSION ∨ s.deviceID = "" then none
  else some
    { state := s.state, deviceId := s.deviceID, agentVersion := omitEmpty s.agentVersion
      sessionId := omitEmpty s.sessionID, os := s.os.map OSInfo.info, metrics := s.metrics }

/-! ## The client -/

def hexDigits : List Char := "0123456789abcdef".toList

/-- `2 * n` hexadecimal digits, as they are drawn. -/
def randomHex (n : Nat) (intn : Nat → Fin 16) : String :=
  String.ofList ((List.range (n * 2)).map fun i ↦ hexDigits.getD (intn i) '0')

/-- `Client`, with the Last-Will it has set in its options. -/
structure Client where
  deviceID : String
  agentVersion : String
  sessionID : String
  will : Status
deriving DecidableEq

namespace Client

def new (deviceID agentVersion : String) (intn : Nat → Fin 16) : Client :=
  let sessionID := randomHex 16 intn
  { deviceID, agentVersion, sessionID
    will := { state := .offline, deviceID, sessionID, agentVersion } }

variable (c : Client)

/-- What `OnConnect` announces. -/
def online (os : OSInfo) (metrics : Metrics) : Status where
  state := .online
  deviceID := c.deviceID
  sessionID := c.sessionID
  agentVersion := c.agentVersion
  os := some os
  metrics := some metrics

def heartbeat (metrics : Metrics) : Status where
  state := .online
  deviceID := c.deviceID
  sessionID := c.sessionID
  agentVersion := c.agentVersion
  metrics := some metrics

/-- What `Disconnect` publishes. -/
def shutdown : Status where
  state := .offline
  deviceID := c.deviceID
  sessionID := c.sessionID
  agentVersion := c.agentVersion

end Client

end Zenstier.Agent
