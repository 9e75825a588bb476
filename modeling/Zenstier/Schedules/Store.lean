import Zenstier.Commands.Dispatch

/-!
# The stores behind scheduled commands

`ScheduleStore` is what the schedule service reads and writes: the schedules, the groups and
devices that their targets are checked against, and the audit log.  A schedule is *claimed*
by an update that matches the row only if its `nextRunAt` is still the one that was read.
What becomes of a dispatch is the business of the command service: here it is one request.
-/

namespace Zenstier

open Store Concurrent

structure ScheduleStore where
  clock : Int
  deviceGroups : Table String DeviceGroup
  devices : Table String Device
  schedules : Table String Schedule
  auditLogs : List AuditLog
  /-- What `dispatchCommand` returns for a user, a team and an input. -/
  outcome : String → String → DispatchCommandInput → DispatchOutcome

inductive ScheduleOp : Type → Type
  | now : ScheduleOp Int
  | findGroup (id teamId : String) : ScheduleOp (Option DeviceGroup)
  | countDevices (teamId : String) (deviceIds : List String) : ScheduleOp Nat
  | createSchedule (id : String) (row : Schedule) : ScheduleOp Unit
  | findSchedule (id teamId : String) : ScheduleOp (Option Schedule)
  | updateStatus (id : String) (status : ScheduleStatus) (nextRunAt : Option Int) :
      ScheduleOp Unit
  /-- Active schedules that are due. -/
  | findDue (now : Int) (take : Nat) : ScheduleOp (List (String × Schedule))
  /-- Advances `nextRunAt` of a row if it has the value `seen`; the number of rows updated. -/
  | claim (id : String) (seen : Option Int) (next : Int) : ScheduleOp Nat
  /-- `dispatchCommand`, for the schedule `id`. -/
  | dispatch (id userId teamId : String) (input : DispatchCommandInput) :
      ScheduleOp DispatchOutcome
  /-- Notes the last run of a schedule and adds to its run count. -/
  | recordRun (id : String) (lastRunAt : Int) (lastStatus : String) (runs : Nat) :
      ScheduleOp Unit
  | createAuditLog (row : AuditLog) : ScheduleOp Unit

namespace ScheduleStore

variable (s : ScheduleStore)

/-- The schedules that a pass at `now` is shown. -/
def findDue (now : Int) (take : Nat) : List (String × Schedule) :=
  (s.schedules.findMany fun _ r ↦
    r.status = .active ∧ r.nextRunAt.any fun t ↦ decide (t ≤ now)).take take

/-- Updates a schedule, which must exist. -/
def updateSchedule (id : String) (f : Schedule → Schedule) : Except Err Unit × ScheduleStore :=
  match s.schedules.find? id with
  | none => (.error .recordNotFound, s)
  | some _ => (.ok (), { s with schedules := s.schedules.update id f })

/-- Inserts a schedule, whose group must exist. -/
def createSchedule (id : String) (row : Schedule) : Except Err Unit × ScheduleStore :=
  if row.groupId.any fun g ↦ (s.deviceGroups.find? g).isNone then
    (.error .foreignKeyViolation, s)
  else match s.schedules.insert id row with
    | none => (.error .uniqueViolation, s)
    | some schedules => (.ok (), { s with schedules })

/-- Advances a schedule that still has the `nextRunAt` that was seen. -/
def claim (id : String) (seen : Option Int) (next : Int) : Nat × ScheduleStore :=
  match (s.schedules.find? id).filter fun r ↦ r.nextRunAt = seen with
  | none => (0, s)
  | some _ => (1, { s with
      schedules := s.schedules.update id fun r ↦ { r with nextRunAt := some next } })

/-- One request. -/
def serve {β : Type} : ScheduleOp β → ScheduleStore → Except Err β × ScheduleStore
  | .now, s => (.ok s.clock, s)
  | .findGroup id teamId, s =>
      (.ok ((s.deviceGroups.find? id).filter fun g ↦ g.teamId = teamId), s)
  | .countDevices teamId deviceIds, s =>
      (.ok (s.devices.findMany fun _ d ↦ d.teamId = teamId ∧ d.deviceId ∈ deviceIds).length, s)
  | .createSchedule id row, s => s.createSchedule id row
  | .findSchedule id teamId, s =>
      (.ok ((s.schedules.find? id).filter fun r ↦ r.teamId = teamId), s)
  | .updateStatus id status nextRunAt, s =>
      s.updateSchedule id fun r ↦ { r with status, nextRunAt }
  | .findDue now take, s => (.ok (s.findDue now take), s)
  | .claim id seen next, s => ((.ok (s.claim id seen next).1), (s.claim id seen next).2)
  | .dispatch _ userId teamId input, s => (.ok (s.outcome userId teamId input), s)
  | .recordRun id lastRunAt lastStatus runs, s => s.updateSchedule id fun r ↦
      { r with
        lastRunAt := some lastRunAt, lastStatus := some lastStatus
        runCount := r.runCount + runs }
  | .createAuditLog row, s => (.ok (), { s with auditLogs := s.auditLogs ++ [row] })

/-- Time passes. -/
def tick (ms : Nat) (s : ScheduleStore) : ScheduleStore := { s with clock := s.clock + ms }

end ScheduleStore

/-- The stores as a server of the schedule service. -/
def scheduleServer : Server ScheduleOp Err ScheduleStore := ⟨ScheduleStore.serve⟩

@[simp] theorem scheduleServer_serve {β : Type} (op : ScheduleOp β) (s : ScheduleStore) :
    scheduleServer.serve op s = s.serve op := rfl

/-! ## The columns that decide when a schedule runs -/

namespace ScheduleStore

/-- The status and the next run of a schedule. -/
def timing (s : ScheduleStore) (id : String) : Option (ScheduleStatus × Option Int) :=
  (s.schedules.find? id).map fun r ↦ (r.status, r.nextRunAt)

variable {s : ScheduleStore} {id : String}

theorem timing_updateSchedule (id : String) (f : Schedule → Schedule) (id' : String) :
    (s.updateSchedule id f).2.timing id' =
      if id' = id then (s.schedules.find? id').map fun r ↦ ((f r).status, (f r).nextRunAt)
      else s.timing id' := by
  unfold updateSchedule
  cases hrow : s.schedules.find? id with
  | none =>
      by_cases h : id' = id
      · subst h
        simp [timing, hrow]
      · simp [timing, h]
  | some row =>
      by_cases h : id' = id
      · subst h
        simp [timing, hrow]
      · simp [timing, h]

/-- The requests that set the status or the next run of a schedule. -/
def SetsTiming : ∀ β : Type, ScheduleOp β → Prop
  | _, .createSchedule .. | _, .updateStatus .. | _, .claim .. => True
  | _, _ => False

/-- The other requests leave them alone. -/
theorem timing_serve {β : Type} {op : ScheduleOp β} (hop : ¬ SetsTiming β op) (id : String) :
    (s.serve op).2.timing id = s.timing id := by
  cases op with
  | createSchedule => exact absurd trivial hop
  | updateStatus => exact absurd trivial hop
  | claim => exact absurd trivial hop
  | recordRun rowId lastRunAt lastStatus runs =>
      rw [serve, timing_updateSchedule]
      split <;> rfl
  | _ => rfl

/-- A change of status. -/
theorem timing_updateStatus (id : String) (status : ScheduleStatus) (next : Option Int)
    (id' : String) : (s.serve (.updateStatus id status next)).2.timing id' =
      if id' = id then (s.timing id).map fun _ ↦ (status, next) else s.timing id' := by
  rw [serve, timing_updateSchedule]
  split
  · rename_i h
    rw [h, timing, Option.map_map]
    rfl
  · rfl

/-- A new schedule is one that was not there. -/
theorem timing_createSchedule (id : String) (row : Schedule) :
    (s.timing id = none ∧ ∀ id', (s.createSchedule id row).2.timing id' =
      if id' = id then some (row.status, row.nextRunAt) else s.timing id') ∨
    (s.createSchedule id row).2 = s := by
  unfold createSchedule
  split
  · exact .inr rfl
  cases hins : s.schedules.insert id row with
  | none => exact .inr rfl
  | some schedules =>
      left
      refine ⟨?_, fun id' ↦ ?_⟩
      · rw [timing, (Table.insert_eq_some hins).1, Option.map_none]
      · simp only [timing, Table.find?_insert hins]
        split <;> rfl

/-- A claim takes effect on a row that has the value that was seen. -/
theorem timing_claim (id : String) (seen : Option Int) (next : Int) :
    (∃ status, s.timing id = some (status, seen) ∧ (s.claim id seen next).1 = 1 ∧
      ∀ id', (s.claim id seen next).2.timing id' =
        if id' = id then some (status, some next) else s.timing id') ∨
    (∀ status, s.timing id ≠ some (status, seen)) ∧ s.claim id seen next = (0, s) := by
  unfold claim
  cases hrow : (s.schedules.find? id).filter fun r ↦ r.nextRunAt = seen with
  | none =>
      right
      refine ⟨fun status hs ↦ ?_, rfl⟩
      obtain ⟨row, hrow', heq⟩ := Option.map_eq_some_iff.mp hs
      rw [hrow', Option.filter_eq_none_iff] at hrow
      have := hrow row rfl
      simp_all
  | some row =>
      left
      obtain ⟨hfind, hseen⟩ := Option.filter_eq_some_iff.mp hrow
      have hseen' : row.nextRunAt = seen := by simpa using hseen
      refine ⟨row.status, by simp [timing, hfind, hseen'], rfl, fun id' ↦ ?_⟩
      by_cases h : id' = id
      · subst h
        simp [timing, hfind]
      · simp [timing, h]

end ScheduleStore

end Zenstier
