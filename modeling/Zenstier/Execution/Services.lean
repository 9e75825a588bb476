import Zenstier.Concurrent.Lift
import Zenstier.Schedules.Service
import Zenstier.Teams.Actions

/-!
# The services together

A command comes to be in two ways.  A member types it, and the action demands
`command:execute` before it dispatches.  Or the worker finds a schedule due, and dispatches it
for the user who has created it.  `Services` is the joint state of the team page, the schedules
and the command service, and `ServiceCall` lists what can be called.
-/

namespace Zenstier

open Store Concurrent

structure Services where
  team : TeamStore
  fleet : Fleet
  schedules : Table String Schedule
  /-- The command rows that have been created, each with the team tables of that time. -/
  created : List (TeamStore × Command)

/-- A request that the other functions of the schedule service do not make. -/
inductive DeletionOp : Type → Type
  | deleteSchedule (id : String) : DeletionOp Unit

inductive ServiceOp (β : Type)
  | team (op : TeamOp β)
  | command (op : CommandOp β)
  | schedule (op : ScheduleOp β)
  | deletion (op : DeletionOp β)

namespace Services

variable (s : Services)

/-- What the schedule service sees.  Its dispatches are programs here, and never asked for. -/
def scheduleStore : ScheduleStore where
  clock := s.fleet.clock
  deviceGroups := s.fleet.deviceGroups
  devices := s.fleet.devices
  schedules := s.schedules
  auditLogs := s.fleet.auditLogs
  outcome _ _ _ := ⟨"", [], []⟩

/-- The rows that a request creates. -/
def creates {β : Type} : CommandOp β → List Command
  | .insertBatch batchId batch rows audit =>
      match s.fleet.insertBatch batchId batch rows audit with
      | .ok _ => rows.map (·.2)
      | .error _ => []
  | _ => []

def serveDeletion {β : Type} : DeletionOp β → Except Err β × Services
  | .deleteSchedule id =>
      if (s.schedules.find? id).isNone then (.error .recordNotFound, s)
      else (.ok (), { s with schedules := s.schedules.delete id })

/-- Serves one request. -/
def serve {β : Type} : ServiceOp β → Except Err β × Services
  | .team op => ((s.team.serve op).1, { s with team := (s.team.serve op).2 })
  | .command op => ((s.fleet.serve op).1, { s with
      fleet := (s.fleet.serve op).2
      created := s.created ++ (s.creates op).map (s.team, ·) })
  | .schedule op => ((s.scheduleStore.serve op).1, { s with
      schedules := (s.scheduleStore.serve op).2.schedules
      fleet := { s.fleet with auditLogs := (s.scheduleStore.serve op).2.auditLogs } })
  | .deletion op => s.serveDeletion op

end Services

def serviceServer : Server ServiceOp Err Services := ⟨fun op s ↦ s.serve op⟩

/-- The team tables are a part of their own. -/
def teamPart : Server.Part teamServer serviceServer where
  get := Services.team
  put s team := { s with team }
  request _ := .team
  get_put _ _ := rfl
  put_put _ _ _ := rfl
  put_get _ := rfl
  serve_request _ _ _ := rfl

/-- What happens to the stores from elsewhere: time passes, and agents, the worker and the
device pages change the fleet. -/
inductive ServiceEvent
  | tick (ms : Nat)
  | elsewhere (fleet : Fleet)

def ServiceEvent.apply : ServiceEvent → Services → Services
  | .tick ms, s => { s with
      team := { s.team with clock := s.team.clock + ms }
      fleet := { s.fleet with clock := s.fleet.clock + ms } }
  | .elsewhere fleet, s => { s with fleet }

/-! ## Actions -/

/-- Programs of the actions and of the worker. -/
abbrev ServiceM := Prog ServiceOp Err

def onTeam {α : Type} (p : TeamM α) : ServiceM α := p.lift teamPart.request

def onFleet {α : Type} (p : CommandM α) : ServiceM α := p.lift fun _ ↦ .command

def onSchedules {α : Type} (p : ScheduleM α) : ServiceM α := p.lift fun _ ↦ .schedule

structure ScheduleActionState where
  ok : Bool := false
  error : Option String := none
deriving DecidableEq, Repr

/-- A `ScheduleError` or `ForbiddenError` becomes a message; everything else is thrown on. -/
def scheduleFail : Err → ServiceM ScheduleActionState
  | .schedule message => return { error := some message }
  | .forbidden _ => return { error := some "You do not have permission to do that" }
  | err => throw err

/-- Runs a function of the schedule service. -/
def reported (service : ServiceM Unit) : ServiceM ScheduleActionState :=
  tryCatch (service >>= fun _ ↦ return { ok := true }) scheduleFail

def deleteSchedule (userId teamId scheduleId : String) : ServiceM Unit := do
  match ← .perform (.schedule (.findSchedule scheduleId teamId)) with
  | none => throw (.schedule "Schedule not found")
  | some _ =>
      .perform (.deletion (.deleteSchedule scheduleId))
      .perform (.schedule (.createAuditLog
        { userId, teamId, action := .scheduleDeleted, targetType := "schedule"
          targetId := scheduleId }))

structure RunResult where
  ok : Bool
  error : Option String := none
  batchId : Option String := none
  dispatched : List Dispatched := []
  skipped : List Skipped := []
deriving DecidableEq, Repr

section Actions

variable (parse : CronParser) (sha1 : List UInt8 → List UInt8) (ids : TeamIds)
  (user : SessionUser)

/-- Scheduling a command is running a command, deferred: it is gated on the same permission. -/
def createScheduleAction (scheduleId : String) (parsed : Except String ScheduleInput) :
    ServiceM ScheduleActionState := do
  let ctx ← onTeam (requirePermission ids user "command:execute")
  match parsed with
  | .error message => return { error := some message }
  | .ok data =>
      reported (onSchedules (createSchedule parse scheduleId ctx.user.id ctx.teamId data))

def toggleScheduleAction (scheduleId : String) (active : Bool) :
    ServiceM ScheduleActionState := do
  let ctx ← onTeam (requirePermission ids user "command:execute")
  reported (onSchedules (setScheduleStatus parse ctx.user.id ctx.teamId scheduleId
    (if active then .active else .paused)))

def deleteScheduleAction (scheduleId : String) : ServiceM ScheduleActionState := do
  let ctx ← onTeam (requirePermission ids user "command:execute")
  reported (deleteSchedule ctx.user.id ctx.teamId scheduleId)

def runCommandAction (batchId : String) (parsed : Except String DispatchCommandInput) :
    ServiceM RunResult := do
  let ctx ← onTeam (requirePermission ids user "command:execute")
  match parsed with
  | .error message => return { ok := false, error := some message }
  | .ok data => tryCatch (do
      let result ← onFleet (dispatchCommand sha1 batchId ctx.user.id ctx.teamId data)
      return { ok := true, batchId := some result.batchId, dispatched := result.dispatched
               skipped := result.skipped }) fun err ↦
        return { ok := false, error := some err.message }

end Actions

/-! ## The worker -/

/-- The requests of the schedule service; `batchIds` are drawn at random. -/
def scheduleRequest (sha1 : List UInt8 → List UInt8) (batchIds : String → String) :
    ∀ β : Type, ScheduleOp β → ServiceM β
  | _, .dispatch id userId teamId input =>
      onFleet (dispatchCommand sha1 (batchIds id) userId teamId input)
  | _, op => .perform (.schedule op)

/-- `runDueSchedules` with the dispatches that it makes. -/
def runPass (parse : CronParser) (sha1 : List UInt8 → List UInt8) (batchIds : String → String) :
    ServiceM Nat := do
  let now ← .perform (.schedule .now)
  (runDueSchedules parse now).interpret (scheduleRequest sha1 batchIds)

/-! ## Calls -/

inductive ServiceCall
  | team (ids : TeamIds) (user : SessionUser) (call : TeamCall)
  | createSchedule (ids : TeamIds) (user : SessionUser) (scheduleId : String)
      (parsed : Except String ScheduleInput)
  | toggleSchedule (ids : TeamIds) (user : SessionUser) (scheduleId : String) (active : Bool)
  | deleteSchedule (ids : TeamIds) (user : SessionUser) (scheduleId : String)
  | runCommand (ids : TeamIds) (user : SessionUser) (batchId : String)
      (parsed : Except String DispatchCommandInput)
  | runDueSchedules (batchIds : String → String)

/-- A call, whatever it answers. -/
def ServiceCall.prog (dig : Digests) (parse : CronParser) (sha1 : List UInt8 → List UInt8) :
    ServiceCall → ServiceM Unit
  | .team ids user call => do
      let _ ← onTeam (call.prog dig ids user)
  | .createSchedule ids user scheduleId parsed => do
      let _ ← createScheduleAction parse ids user scheduleId parsed
  | .toggleSchedule ids user scheduleId active => do
      let _ ← toggleScheduleAction parse ids user scheduleId active
  | .deleteSchedule ids user scheduleId => do
      let _ ← deleteScheduleAction ids user scheduleId
  | .runCommand ids user batchId parsed => do
      let _ ← runCommandAction sha1 ids user batchId parsed
  | .runDueSchedules batchIds => do
      let _ ← runPass parse sha1 batchIds

end Zenstier
