import Zenstier.Alerts.Service

/-!
# The rules of alerts

The functions of `alert.service.ts` that create, switch and delete rules, as programs over the rules
and their states.  Which webhooks may be called is decided elsewhere: here it is one request.
-/

namespace Zenstier

open Store Concurrent

structure RuleStore where
  rules : Table String AlertRule
  /-- Under the ids of the rule and of the device. -/
  states : Table (String × String) AlertRuleState
  auditLogs : List AuditLog
  /-- Why `assertPublicUrl` throws a `BlockedUrlError`, if it does. -/
  blocked : String → Option String

inductive RuleOp : Type → Type
  | assertPublicUrl (url : String) : RuleOp (Option String)
  | findRule (id teamId : String) : RuleOp (Option AlertRule)
  | createRule (id : String) (row : AlertRule) : RuleOp Unit
  | updateRule (id : String) (enabled : Bool) : RuleOp Unit
  | deleteStates (ruleId : String) : RuleOp Unit
  | deleteRule (id : String) : RuleOp Unit
  | createAuditLog (row : AuditLog) : RuleOp Unit

namespace RuleStore

variable (s : RuleStore)

def createRule (id : String) (row : AlertRule) : Except Err Unit × RuleStore :=
  match s.rules.insert id row with
  | none => (.error .uniqueViolation, s)
  | some rules => (.ok (), { s with rules })

def updateRule (id : String) (enabled : Bool) : Except Err Unit × RuleStore :=
  if (s.rules.find? id).isNone then (.error .recordNotFound, s)
  else (.ok (), { s with rules := s.rules.update id ({ · with enabled }) })

/-- The states of a rule are deleted with it. -/
def deleteRule (id : String) : Except Err Unit × RuleStore :=
  if (s.rules.find? id).isNone then (.error .recordNotFound, s)
  else (.ok (), { s with
    rules := s.rules.delete id
    states := s.states.deleteMany fun key _ ↦ key.1 = id })

/-- Serves one request. -/
def serve {β : Type} : RuleOp β → Except Err β × RuleStore
  | .assertPublicUrl url => (.ok (s.blocked url), s)
  | .findRule id teamId => (.ok ((s.rules.find? id).filter (·.teamId = teamId)), s)
  | .createRule id row => s.createRule id row
  | .updateRule id enabled => s.updateRule id enabled
  | .deleteStates ruleId =>
      (.ok (), { s with states := s.states.deleteMany fun key _ ↦ key.1 = ruleId })
  | .deleteRule id => s.deleteRule id
  | .createAuditLog row => (.ok (), { s with auditLogs := s.auditLogs ++ [row] })

end RuleStore

def ruleServer : Server RuleOp Err RuleStore := ⟨fun op s ↦ s.serve op⟩

abbrev RuleM := Prog RuleOp Err

/-! ## The functions -/

structure RuleInput where
  name : String
  metric : AlertMetric
  threshold : ℚ
  forMinutes : Int
  webhookUrl : Option String := none
deriving DecidableEq

/-- The webhook of a rule, if it has one, must be one that may be called. -/
def checkWebhook (webhookUrl : Option String) : RuleM Unit :=
  match truthy webhookUrl with
  | none => return
  | some url => do
      let blocked ← tryCatch (.perform (.assertPublicUrl url)) fun _ ↦
        throw (.alert "That webhook URL could not be validated")
      match blocked with
      | some message => throw (.alert message)
      | none => return

/-- The row that `createRule` inserts. -/
def RuleInput.row (userId teamId : String) (input : RuleInput) : AlertRule where
  teamId
  userId
  name := trim input.name
  metric := input.metric
  threshold := input.threshold
  forMinutes := input.forMinutes
  webhookUrl := truthy (input.webhookUrl.map trim)

/-- The audit entry of a change to a rule. -/
def ruleAudit (userId teamId ruleId : String) (action : AuditAction) : AuditLog where
  userId
  teamId
  action
  targetType := "alert_rule"
  targetId := ruleId

/-- `id` is the id of the new row. -/
def createRule (id userId teamId : String) (input : RuleInput) : RuleM Unit :=
  if trim input.name = "" then throw (.alert "Name is required")
  else if input.metric ≠ .offline ∧ (input.threshold ≤ 0 ∨ 100 < input.threshold) then
    throw (.alert "Threshold must be between 1 and 100 percent")
  else do
    checkWebhook input.webhookUrl
    .perform (.createRule id (input.row userId teamId))
    .perform (.createAuditLog (ruleAudit userId teamId id .alertRuleCreated))

/-- Disabling clears the states, so that re-enabling starts from a clean slate. -/
def clearStates (ruleId : String) (enabled : Bool) : RuleM Unit :=
  if enabled then return else .perform (.deleteStates ruleId)

def setRuleEnabled (userId teamId ruleId : String) (enabled : Bool) : RuleM Unit := do
  match ← .perform (.findRule ruleId teamId) with
  | none => throw (.alert "Rule not found")
  | some _ =>
      .perform (.updateRule ruleId enabled)
      clearStates ruleId enabled
      .perform (.createAuditLog (ruleAudit userId teamId ruleId .alertRuleUpdated))

def deleteRule (userId teamId ruleId : String) : RuleM Unit := do
  match ← .perform (.findRule ruleId teamId) with
  | none => throw (.alert "Rule not found")
  | some _ =>
      .perform (.deleteRule ruleId)
      .perform (.createAuditLog (ruleAudit userId teamId ruleId .alertRuleDeleted))

end Zenstier
