import Zenstier.Concurrent.Residual
import Zenstier.Schedules.Store

/-!
# Scheduled commands

The functions of `schedule.service.ts` that create, pause, resume and run schedules.
`runDueSchedules` reads what is due and claims each schedule before it dispatches: a pass
that finds the row changed skips it.  The cron parser is a parameter, and so are the ids
that the database assigns.
-/

namespace Zenstier

open Concurrent

/-- Programs of the schedule service. -/
abbrev ScheduleM := Prog ScheduleOp Err

/-- The next occurrence of a cron expression after a time, or why it cannot be parsed. -/
abbrev CronParser := String → Int → Except String Int

section Service

variable (parse : CronParser)

def nextRun (cron : String) (after : Int) : Except Err Int :=
  (parse cron after).mapError fun message ↦ .schedule ("Invalid cron expression: " ++ message)

structure ScheduleInput where
  name : String
  command : String
  cron : String
  groupId : Option String := none
  deviceIds : Option (List String) := none
  timeoutMs : Option Int := none
deriving DecidableEq, Repr

def validateTargets (teamId : String) (input : ScheduleInput) : ScheduleM Unit :=
  match truthy input.groupId with
  | some groupId => do
      match ← .perform (.findGroup groupId teamId) with
      | none => throw (.schedule "Group not found")
      | some _ => return
  | none =>
      match input.deviceIds.getD [] with
      | [] => throw (.schedule "Pick at least one device, or a group")
      | deviceIds => do
          let owned ← .perform (.countDevices teamId deviceIds)
          if owned ≠ deviceIds.length then
            throw (.schedule "One or more devices are not in this team")
          else return

/-- The row that `createSchedule` inserts. -/
def ScheduleInput.row (userId teamId : String) (input : ScheduleInput) (next : Int) :
    Schedule where
  userId
  teamId
  name := trim input.name
  command := trim input.command
  cron := trim input.cron
  groupId := input.groupId
  deviceIds := if (truthy input.groupId).isSome then [] else input.deviceIds.getD []
  timeoutMs := input.timeoutMs.getD 60000
  nextRunAt := some next

def createSchedule (scheduleId userId teamId : String) (input : ScheduleInput) :
    ScheduleM Unit :=
  if trim input.name = "" then throw (.schedule "Name is required")
  else if trim input.command = "" then throw (.schedule "Command is required")
  else do
    -- Fail on a bad expression now, rather than silently never running.
    let now ← .perform .now
    let next ← .ofExcept (nextRun parse input.cron now)
    validateTargets teamId input
    .perform (.createSchedule scheduleId (input.row userId teamId next))
    .perform (.createAuditLog
      { userId, teamId, action := .scheduleCreated, targetType := "schedule"
        targetId := scheduleId })

/-- The next run of a schedule that is given a status. -/
def statusNextRun (cron : String) : ScheduleStatus → ScheduleM (Option Int)
  -- Resuming from a pause must not fire immediately for every missed slot.
  | .active => do
      let now ← .perform .now
      let next ← .ofExcept (nextRun parse cron now)
      return some next
  | .paused => return none

def setScheduleStatus (userId teamId scheduleId : String) (status : ScheduleStatus) :
    ScheduleM Unit := do
  match ← .perform (.findSchedule scheduleId teamId) with
  | none => throw (.schedule "Schedule not found")
  | some schedule =>
      let nextRunAt ← statusNextRun parse schedule.cron status
      .perform (.updateStatus scheduleId status nextRunAt)
      .perform (.createAuditLog
        { userId, teamId, action := .scheduleUpdated, targetType := "schedule"
          targetId := scheduleId })

/-- The command that a schedule dispatches. -/
def Schedule.dispatchInput (schedule : Schedule) : DispatchCommandInput where
  command := schedule.command
  deviceIds := if (truthy schedule.groupId).isSome then [] else schedule.deviceIds
  groupId := schedule.groupId
  timeoutMs := schedule.timeoutMs
  useBroadcastTopic := false

/-- Dispatches a schedule that has been claimed. -/
def runClaimed (now : Int) (id : String) (schedule : Schedule) : ScheduleM Unit := do
  let result ← .perform (.dispatch id schedule.userId schedule.teamId schedule.dispatchInput)
  .perform (.recordRun id now s!"dispatched to {result.dispatched.length} device(s)" 1)
  .perform (.createAuditLog
    { userId := schedule.userId, teamId := schedule.teamId, action := .scheduleRan
      targetType := "schedule", targetId := id })

/-- Notes why a run has failed. -/
def recordFailure (now : Int) (id : String) (err : Err) : ScheduleM Unit :=
  .perform (.recordRun id now (("failed: " ++ err.message).take 200).toString 0)

/-- Claims and runs the schedules that a pass has found due, and counts those it has run. -/
def runSchedules (now : Int) : List (String × Schedule) → Nat → ScheduleM Nat
  | [], dispatched => return dispatched
  | (id, schedule) :: due, dispatched => do
      let next ← .ofExcept (nextRun parse schedule.cron now)
      let count ← .perform (.claim id schedule.nextRunAt next)
      -- another worker took it
      if count = 0 then runSchedules now due dispatched
      else do
        -- a failed run is no reason to stop scheduling it
        let ran ← tryCatch (do runClaimed now id schedule; return true) fun err ↦ do
          recordFailure now id err
          return false
        runSchedules now due (if ran then dispatched + 1 else dispatched)

/-- Claims and runs every schedule that is due. -/
def runDueSchedules (now : Int) : ScheduleM Nat := do
  let due ← .perform (.findDue now 50)
  runSchedules parse now due 0

end Service

end Zenstier
