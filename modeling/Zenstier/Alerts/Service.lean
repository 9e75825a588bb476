import Zenstier.Concurrent.Fates
import Zenstier.Metrics.Retention
import Zenstier.Runtime
import Zenstier.Schema

/-!
# Alerts

`evaluateAlerts` of `alert.service.ts` with the rows it reads and writes.  Percentages and
thresholds are rationals.  What `notify` sends is one request: its channels do not throw, but its
look at the team may.
-/

namespace Zenstier

open Store Concurrent

inductive AlertMetric
  | cpu
  | memory
  | disk
  /-- Fires when a device stops reporting, rather than on a metric value. -/
  | offline
deriving DecidableEq, Repr, Inhabited

inductive AlertState
  | ok
  | firing
deriving DecidableEq, Repr, Inhabited

/-- A threshold on a metric, evaluated per device. -/
structure AlertRule where
  teamId : String
  userId : String
  name : String
  metric : AlertMetric
  /-- Percent; ignored for `offline`. -/
  threshold : ℚ := 90
  /-- The condition must hold this long before firing. -/
  forMinutes : Int := 5
  enabled : Bool := true
  webhookUrl : Option String := none
deriving DecidableEq

/-- The state of a rule for a device. -/
structure AlertRuleState where
  state : AlertState := .ok
  /-- When the current condition first became true. -/
  since : Option Int := none
  lastValue : ℚ := 0
  firedAt : Option Int := none
  resolvedAt : Option Int := none
deriving DecidableEq

structure AlertStore where
  clock : Int
  devices : Table String Device
  /-- The newest first. -/
  metrics : List DeviceMetric
  rules : Table String AlertRule
  /-- Under the ids of the rule and of the device. -/
  states : Table (String × String) AlertRuleState
  auditLogs : List AuditLog

/-- What is read of a device. -/
structure DeviceRow where
  id : String
  name : String
  status : DeviceStatus
  /-- The newest sample. -/
  metric : Option DeviceMetric

inductive AlertOp : Type → Type
  | findRules : AlertOp (List (String × AlertRule))
  /-- The devices of the team of a rule, read for that rule. -/
  | findDevices (ruleId : String) (rule : AlertRule) : AlertOp (List DeviceRow)
  | findState (key : String × String) : AlertOp (Option AlertRuleState)
  | upsertState (key : String × String) (create : AlertRuleState)
      (update : AlertRuleState → AlertRuleState) : AlertOp Unit
  | updateState (key : String × String) (update : AlertRuleState → AlertRuleState) : AlertOp Unit
  | createAuditLog (row : AuditLog) : AlertOp Unit
  | notify (rule : AlertRule) (deviceName : String) (value : ℚ) (state : AlertState) (now : Int) :
      AlertOp Unit

namespace AlertStore

/-- The later of two samples, the first of equals. -/
def later (m : DeviceMetric) : Option DeviceMetric → DeviceMetric
  | some m' => if m.recordedAt < m'.recordedAt then m' else m
  | none => m

/-- The newest sample of a device. -/
def latest (s : AlertStore) (deviceId : String) : Option DeviceMetric :=
  (s.metrics.filter (·.deviceId = deviceId)).foldr (fun m found ↦ some (later m found)) none

/-- The devices of a team with their newest samples. -/
def deviceRows (s : AlertStore) (teamId : String) : List DeviceRow :=
  (s.devices.findMany fun _ d ↦ d.teamId = teamId).map fun e ↦
    ⟨e.1, e.2.name, e.2.status, s.latest e.1⟩

/-- Serves one request. -/
def serve {β : Type} : AlertOp β → AlertStore → Except Err β × AlertStore
  | .findRules, s => (.ok (s.rules.findMany fun _ r ↦ r.enabled), s)
  | .findDevices _ rule, s => (.ok (s.deviceRows rule.teamId), s)
  | .findState key, s => (.ok (s.states.find? key), s)
  | .upsertState key create update, s =>
      let row := ((s.states.find? key).map update).getD create
      (.ok (), { s with states := s.states.put key row })
  | .updateState key update, s =>
      if (s.states.find? key).isNone then (.error .recordNotFound, s)
      else (.ok (), { s with states := s.states.update key update })
  | .createAuditLog row, s => (.ok (), { s with auditLogs := s.auditLogs ++ [row] })
  | .notify .., s => (.ok (), s)

/-- A heartbeat with a sample. -/
def report (s : AlertStore) (m : DeviceMetric) : AlertStore :=
  { s with metrics := { m with recordedAt := s.clock } :: s.metrics }

/-- Time passes. -/
def tick (ms : Nat) (s : AlertStore) : AlertStore := { s with clock := s.clock + ms }

end AlertStore

/-- The store as a server. -/
def alertServer : Server AlertOp Err AlertStore := ⟨fun op s ↦ s.serve op⟩

abbrev AlertM := Prog AlertOp Err

/-! ## Evaluation -/

structure Reading where
  deviceId : String
  deviceName : String
  value : ℚ
  breached : Bool
deriving DecidableEq

/-- The percentage that a metric is about. -/
def AlertMetric.percent : AlertMetric → DeviceMetric → ℚ
  | .cpu, m => m.cpuPercent
  | .memory, m => m.memPercent
  | _, m => m.diskPercent

/-- What a rule makes of a device. -/
def AlertRule.read (rule : AlertRule) (d : DeviceRow) : Reading :=
  if rule.metric = .offline then
    { deviceId := d.id, deviceName := d.name, value := if d.status = .online then 0 else 1,
      breached := d.status ≠ .online }
  else match d.metric with
    -- no sample yet is not a breach
    | none => { deviceId := d.id, deviceName := d.name, value := 0, breached := false }
    | some m =>
        let value := rule.metric.percent m
        { deviceId := d.id, deviceName := d.name, value, breached := rule.threshold ≤ value }

def onFire (ruleId : String) (rule : AlertRule) (reading : Reading) (now : Int) : AlertM Unit := do
  .perform (.createAuditLog
    { userId := rule.userId, teamId := rule.teamId, action := .alertFired,
      targetType := "alert_rule", targetId := ruleId })
  .perform (.notify rule reading.deviceName reading.value .firing now)

def onResolve (rule : AlertRule) (reading : Reading) (now : Int) : AlertM Unit :=
  .perform (.notify rule reading.deviceName reading.value .ok now)

/-- When the condition was first met, if it is met now. -/
def dwellSince (existing : Option AlertRuleState) (now : Int) : Int :=
  (existing.bind (·.since)).getD now

/-- `heldFor >= rule.forMinutes`, in milliseconds, and the rule is not firing already. -/
def AlertRule.shouldFire (rule : AlertRule) (existing : Option AlertRuleState) (now : Int) : Bool :=
  rule.forMinutes * 60000 ≤ now - dwellSince existing now ∧
    existing.map (·.state) ≠ some .firing

/-- One rule for one device. -/
def evaluateReading (ruleId : String) (rule : AlertRule) (now : Int) (reading : Reading) :
    AlertM Nat := do
  let key := (ruleId, reading.deviceId)
  let existing ← .perform (.findState key)
  if reading.breached then
    let since := dwellSince existing now
    let shouldFire := rule.shouldFire existing now
    .perform (.upsertState key
      { state := if shouldFire then .firing else .ok, since := some since,
        lastValue := reading.value, firedAt := if shouldFire then some now else none }
      fun row ↦ { row with
        state := if shouldFire then .firing else (existing.map (·.state)).getD .ok
        since := some since
        lastValue := reading.value
        firedAt := if shouldFire then some now else row.firedAt
        resolvedAt := if shouldFire then none else row.resolvedAt })
    if shouldFire then
      onFire ruleId rule reading now
      return 1
    else return 0
  else match existing with
    | none => return 0
    | some row => do
        let wasFiring : Bool := row.state = .firing
        .perform (.updateState key fun row ↦ { row with
          state := .ok
          since := none
          lastValue := reading.value
          resolvedAt := if wasFiring then some now else row.resolvedAt })
        if wasFiring then onResolve rule reading now
        return 0

/-- Evaluates every enabled rule and fires or resolves as needed; counts what has fired. -/
def evaluateAlerts (now : Int) : AlertM Nat := do
  let rules ← .perform .findRules
  rules.foldlM (fun fired (ruleId, rule) ↦ do
    let devices ← .perform (.findDevices ruleId rule)
    (devices.map rule.read).foldlM (fun fired reading ↦ do
      let n ← evaluateReading ruleId rule now reading
      return fired + n) fired) 0

/-! ## An example -/

def exampleRule : AlertRule where
  teamId := "t"
  userId := "u"
  name := "busy"
  metric := .cpu

def exampleDevice : Device where
  userId := "u"
  teamId := "t"
  deviceId := "dev-1"
  name := "web"

end Zenstier
