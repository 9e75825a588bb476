import Zenstier.Schedules.Claims

/-!
# Pausing and resuming

A paused schedule has no `nextRunAt`, which is why a claim need not look at the status: it
compares with a time that it has read, and a paused row does not match.  Resuming computes
the next run from the clock and writes it without a condition.  When that write comes late,
the time it writes may have been claimed in between, by a pass that found the schedule
resumed already, and is then claimed a second time.
-/

namespace Zenstier

open Store Concurrent Prog

/-- The calls that change schedules. -/
inductive ScheduleCall
  | pass
  | create (scheduleId userId teamId : String) (input : ScheduleInput)
  | setStatus (userId teamId scheduleId : String) (status : ScheduleStatus)

/-- A call; a pass takes its time from the clock. -/
def ScheduleCall.program (parse : CronParser) : ScheduleCall → ScheduleM Unit
  | .pass => do
      let now ← .perform .now
      let _ ← runDueSchedules parse now
      return
  | .create scheduleId userId teamId input => createSchedule parse scheduleId userId teamId input
  | .setStatus userId teamId scheduleId status =>
      setScheduleStatus parse userId teamId scheduleId status

/-- The step discipline of the calls: a claim moves a schedule forward, and a schedule has a
next run unless it is paused. -/
def KeepsPace : ∀ β : Type, ScheduleOp β → (Except Err β → ScheduleM Unit) → Prop
  | _, .claim _ seen next, _ => ∃ w, seen = some w ∧ w < next
  | _, .createSchedule _ row, _ => row.status = .paused ↔ row.nextRunAt = none
  | _, .updateStatus _ status next, _ => status = .paused ↔ next = none
  | _, _, _ => True

section Calls

variable {parse : CronParser}

/-- The checks of the targets change nothing. -/
theorem validateTargets_only (teamId : String) (input : ScheduleInput) :
    Only (fun _ op ↦ ¬ ScheduleStore.SetsTiming _ op) (validateTargets teamId input) := by
  unfold validateTargets
  split
  · refine Only.await id fun found ↦ ?_
    cases found <;> trivial
  · split
    · trivial
    · refine Only.await id fun owned ↦ ?_
      split <;> trivial

theorem keepsPace_of_not_setsTiming (β : Type) (op : ScheduleOp β)
    (k : Except Err β → ScheduleM Unit) (h : ¬ ScheduleStore.SetsTiming β op) :
    KeepsPace β op k := by
  cases op with
  | createSchedule => exact absurd trivial h
  | updateStatus => exact absurd trivial h
  | claim => exact absurd trivial h
  | _ => trivial

-- Unfolding, unification would run into the comparison of the name.
attribute [local irreducible] Prog.Always in
theorem createSchedule_keepsPace (scheduleId userId teamId : String) (input : ScheduleInput) :
    Always ShowsDue KeepsPace (createSchedule parse scheduleId userId teamId input) := by
  unfold createSchedule
  split
  · exact (always_throw _).mpr trivial
  split
  · exact (always_throw _).mpr trivial
  rw [perform_bind, always_call]
  refine ⟨trivial, ?_⟩
  rintro (e | now) -
  · exact (always_throw _).mpr trivial
  rw [ofExcept_ok, Prog.pure_bind]
  cases nextRun parse input.cron now with
  | error e => exact (always_throw _).mpr trivial
  | ok next =>
      rw [ofExcept_ok, Prog.pure_bind]
      refine Always.bind (validateTargets_only teamId input) keepsPace_of_not_setsTiming fun _ ↦ ?_
      rw [perform_bind, always_call]
      refine ⟨⟨(fun h ↦ nomatch h), (fun h ↦ nomatch h)⟩, ?_⟩
      rintro (e | u) -
      · exact (always_throw _).mpr trivial
      · rw [ofExcept_ok, Prog.pure_bind, perform, always_call]
        refine ⟨trivial, fun r _ ↦ ?_⟩
        cases r with
        | error e => exact (always_throw _).mpr trivial
        | ok u => exact (always_pure _).mpr trivial

/-- What follows on the next run of a schedule that is resumed. -/
theorem statusNextRun_keepsPace {cron : String} {f : Option Int → ScheduleM Unit}
    (hf : ∀ next, Always ShowsDue KeepsPace (f (some next))) :
    Always ShowsDue KeepsPace (statusNextRun parse cron .active >>= f) := by
  refine ⟨trivial, ?_⟩
  rintro (e | now) -
  · trivial
  show Always ShowsDue KeepsPace
    ((.ofExcept (nextRun parse cron now) >>= fun next ↦ return some next) >>= f)
  cases nextRun parse cron now with
  | error e => trivial
  | ok next => exact hf next

theorem setScheduleStatus_keepsPace (userId teamId scheduleId : String)
    (status : ScheduleStatus) :
    Always ShowsDue KeepsPace (setScheduleStatus parse userId teamId scheduleId status) := by
  rw [setScheduleStatus, perform_bind, always_call]
  refine ⟨trivial, ?_⟩
  rintro (e | _ | schedule) -
  · trivial
  · trivial
  have hwrite : ∀ next, (status = .paused ↔ next = none) →
      Always ShowsDue KeepsPace (do
        .perform (.updateStatus scheduleId status next)
        .perform (.createAuditLog
          { userId, teamId, action := .scheduleUpdated, targetType := "schedule"
            targetId := scheduleId })) := by
    intro next hnext
    refine ⟨hnext, ?_⟩
    rintro (e | u) -
    · trivial
    · exact ⟨trivial, fun r _ ↦ by cases r <;> trivial⟩
  cases status with
  | paused => exact hwrite none ⟨fun _ ↦ rfl, fun _ ↦ rfl⟩
  | active =>
      exact statusNextRun_keepsPace fun next ↦
        hwrite (some next) ⟨(fun h ↦ nomatch h), (fun h ↦ nomatch h)⟩

theorem pass_keepsPace (hparse : Advances parse) :
    Always ShowsDue KeepsPace (ScheduleCall.program parse .pass) := by
  refine ⟨trivial, ?_⟩
  rintro (e | now) -
  · trivial
  refine (runDueSchedules_claimsDue hparse now).andThen ?_ fun _ ↦ trivial
  intro β op k h
  cases op with
  | claim id seen next =>
      obtain ⟨⟨w, hseen, hw, hnext⟩, -⟩ := h
      exact ⟨w, hseen, Int.lt_of_le_of_lt hw hnext⟩
  | createSchedule => exact h.elim
  | updateStatus => exact h.elim
  | _ => trivial

-- Unfolding, unification would run into the comparison of the name.
attribute [local irreducible] Prog.Always in
theorem program_keepsPace (hparse : Advances parse) (call : ScheduleCall) :
    Always ShowsDue KeepsPace (call.program parse) := by
  cases call with
  | pass => exact pass_keepsPace hparse
  | create scheduleId userId teamId input => exact createSchedule_keepsPace ..
  | setStatus userId teamId scheduleId status => exact setScheduleStatus_keepsPace ..

end Calls

/-! ## What a step changes -/

section Run

variable {ι : Type} [DecidableEq ι]

/-- The state of a run of calls, with the record of what they have claimed and dispatched. -/
abbrev CallRun (ι : Type) := Recorded (Pool ι ScheduleOp Err Unit ScheduleStore) (ScheduleNote ι)

/-- The events of a run of calls. -/
def callStep : CallRun ι → Event ι Err Nat → Option (CallRun ι) :=
  Recorded.step (Pool.step scheduleServer ScheduleStore.tick) (Pool.observe watchSchedules)

/-- The calls keep to their discipline. -/
def CallsKeepPace (r : CallRun ι) : Prop := ∀ i, Always ShowsDue KeepsPace (r.state.thread i)

variable {r r' : CallRun ι} {l : Event ι Err Nat}

theorem CallsKeepPace.step (hr : CallsKeepPace r) (hs : callStep r l = some r') :
    CallsKeepPace r' := by
  cases l with
  | env ms =>
      obtain rfl := Pool.recorded_env hs
      exact hr
  | run i f =>
      obtain ⟨β, op, k, hi, hstate, -⟩ := Pool.recorded_run hs
      have hcall := hr i
      rw [hi, always_call] at hcall
      intro j
      rw [hstate]
      exact Pool.forall_resume hr i f op k (hcall.2 _
        (Pool.reply_contract (serve_showsDue _) (fun op e ↦ by cases op <;> trivial) f op)) j

/-- What a step does to the schedules and to the record of claims: nothing; a claim of the
next run `w`, which is noted; or a write of a status with its next run, by a creation or an
update. -/
theorem callStep_cases (hr : CallsKeepPace r) (hs : callStep r l = some r') :
    ((∀ id, r'.state.shared.timing id = r.state.shared.timing id) ∧
      ∀ id, claimsOf id r'.log = claimsOf id r.log) ∨
    (∃ i id status w next, r.state.shared.timing id = some (status, some w) ∧ w < next ∧
      (∀ id', r'.state.shared.timing id' =
        if id' = id then some (status, some next) else r.state.shared.timing id') ∧
      r'.log = r.log ++ [.claimed id ⟨i, w, status⟩]) ∨
    (∃ id status next, (status = .paused ↔ next = none) ∧
      (∀ id', r'.state.shared.timing id' =
        if id' = id then some (status, next) else r.state.shared.timing id') ∧
      (∀ id', claimsOf id' r'.log = claimsOf id' r.log) ∧
      (r.state.shared.timing id = none ∨ ∃ i f k, l = .run i f ∧
        r.state.thread i = .call (.updateStatus id status next) k)) := by
  cases l with
  | env ms =>
      obtain rfl := Pool.recorded_env hs
      exact .inl ⟨fun _ ↦ rfl, fun _ ↦ rfl⟩
  | run i f =>
      obtain ⟨β, op, k, hi, -, heffect⟩ := Pool.recorded_run hs
      have hdisc : KeepsPace β op k := by
        have := hr i
        rw [hi, always_call] at this
        exact this.1
      rcases heffect with ⟨-, hshared, hlog⟩ | ⟨-, hshared, hlog⟩
      · left
        rw [hshared, hlog]
        exact ⟨fun _ ↦ rfl, fun _ ↦ rfl⟩
      rw [scheduleServer_serve] at hshared
      cases op with
      | claim id seen next =>
          obtain ⟨w, rfl, hlt⟩ := hdisc
          rcases ScheduleStore.timing_claim (s := r.state.shared) id (some w) next with
            ⟨status, hstored, -, htiming⟩ | ⟨hmissed, hclaim⟩
          · right; left
            refine ⟨i, id, status, w, next, hstored, hlt, ?_, ?_⟩
            · rw [hshared]
              exact htiming
            · rw [hlog, watchSchedules_claimed i next hstored]
          · left
            rw [hshared, hlog, watchSchedules_missed i next hmissed, List.append_nil,
              ScheduleStore.serve, hclaim]
            exact ⟨fun _ ↦ rfl, fun _ ↦ rfl⟩
      | createSchedule id row =>
          have hlog' : r'.log = r.log := hlog.trans (List.append_nil _)
          rcases ScheduleStore.timing_createSchedule (s := r.state.shared) id row with
            ⟨hnew, htiming⟩ | hsame
          · right; right
            refine ⟨id, row.status, row.nextRunAt, hdisc, ?_, ?_, .inl hnew⟩
            · rw [hshared]
              exact htiming
            · intro id'
              rw [hlog']
          · left
            rw [hshared, hlog', ScheduleStore.serve, hsame]
            exact ⟨fun _ ↦ rfl, fun _ ↦ rfl⟩
      | updateStatus id status next =>
          have hlog' : r'.log = r.log := hlog.trans (List.append_nil _)
          have htiming := ScheduleStore.timing_updateStatus (s := r.state.shared) id status next
          cases hold : r.state.shared.timing id with
          | none =>
              left
              refine ⟨fun id' ↦ ?_, fun id' ↦ by rw [hlog']⟩
              rw [hshared, htiming, hold]
              split
              · rename_i heq
                rw [heq, hold]
                rfl
              · rfl
          | some old =>
              right; right
              refine ⟨id, status, next, hdisc, ?_, ?_, .inr ⟨i, f, k, rfl, hi⟩⟩
              · intro id'
                rw [hshared, htiming, hold]
                rfl
              · intro id'
                rw [hlog']
      | dispatch id userId teamId input =>
          left
          refine ⟨fun id' ↦ ?_, fun id' ↦ ?_⟩
          · rw [hshared]
            refine ScheduleStore.timing_serve ?_ id'
            exact fun h ↦ h
          · rw [hlog]
            exact claimsOf_dispatched id' id r.log i
      | _ =>
          left
          refine ⟨fun id' ↦ ?_, fun id' ↦ ?_⟩
          · rw [hshared]
            refine ScheduleStore.timing_serve ?_ id'
            exact fun h ↦ h
          · rw [hlog]
            exact congrArg _ (List.append_nil _)

/-! ## The invariants -/

/-- A schedule is paused exactly if it has no next run. -/
def PausedIff (s : ScheduleStore) : Prop :=
  ∀ id status next, s.timing id = some (status, next) → (status = .paused ↔ next = none)

/-- What no order of the calls breaks. -/
structure PauseInv (r : CallRun ι) : Prop where
  calls : CallsKeepPace r
  paused : PausedIff r.state.shared
  running : ∀ id, ∀ a ∈ claimsOf id r.log, a.status ≠ .paused

/-- A row after a write to the row `id`. -/
theorem PausedIff.write {s s' : ScheduleStore} (hs : PausedIff s) {id : String}
    {status : ScheduleStatus} {next : Option Int} (hnext : status = .paused ↔ next = none)
    (htiming : ∀ id', s'.timing id' = if id' = id then some (status, next) else s.timing id') :
    PausedIff s' := by
  intro id' status' next' h
  rw [htiming] at h
  split at h
  · cases h
    exact hnext
  · exact hs id' status' next' h

theorem PauseInv.step (hr : PauseInv r) (hs : callStep r l = some r') : PauseInv r' := by
  refine ⟨hr.calls.step hs, ?_, ?_⟩
  · rcases callStep_cases hr.calls hs with ⟨htiming, -⟩ |
      ⟨i, id, status, w, next, hstored, -, htiming, -⟩ | ⟨id, status, next, hnext, htiming, -⟩
    · intro id status next h
      rw [htiming] at h
      exact hr.paused id status next h
    · refine hr.paused.write ?_ htiming
      have := hr.paused id status (some w) hstored
      simpa using this
    · exact hr.paused.write hnext htiming
  · intro id a ha
    rcases callStep_cases hr.calls hs with ⟨-, hclaims⟩ |
      ⟨i, id', status, w, next, hstored, -, -, hlog⟩ | ⟨id', status, next, -, -, hclaims, -⟩
    · rw [hclaims] at ha
      exact hr.running id a ha
    · rw [hlog, claimsOf_claimed] at ha
      rcases List.mem_append.mp ha with ha | ha
      · exact hr.running id a ha
      · split at ha
        · rw [List.mem_singleton] at ha
          subst ha
          intro hpaused
          have := (hr.paused id' status (some w) hstored).mp hpaused
          cases this
        · cases ha
    · rw [hclaims] at ha
      exact hr.running id a ha

/-- The request writes a next run that is not later than all that has been claimed. -/
def WritesLate (log : List (ScheduleNote ι)) : ∀ β : Type, ScheduleOp β → Prop
  | _, .updateStatus id _ (some w) => ∃ a ∈ claimsOf id log, w ≤ a.instant
  | _, _ => False

instance (log : List (ScheduleNote ι)) {β : Type} (op : ScheduleOp β) :
    Decidable (WritesLate log β op) :=
  match op with
  | .updateStatus id _ (some w) =>
      inferInstanceAs (Decidable (∃ a ∈ claimsOf id log, w ≤ a.instant))
  | .updateStatus _ _ none | .now | .findGroup .. | .countDevices .. | .createSchedule ..
  | .findSchedule .. | .findDue .. | .claim .. | .dispatch .. | .recordRun ..
  | .createAuditLog _ => .isFalse id

/-- No resumption writes a time that is not later than all that has been claimed. -/
def ResumesAhead (r : CallRun ι) : Event ι Err Nat → Prop
  | .run i _ => ¬ AtRequest (WritesLate r.log) (r.state.thread i)
  | .env _ => True

instance (r : CallRun ι) (l : Event ι Err Nat) : Decidable (ResumesAhead r l) :=
  match l with
  | .run i _ =>
      inferInstanceAs (Decidable (¬ AtRequest (WritesLate r.log) (r.state.thread i)))
  | .env _ => .isTrue trivial

/-- The next run of a schedule is later than all that has been claimed of it. -/
structure AheadInv (r : CallRun ι) : Prop where
  ascending : ∀ id, (claimsOf id r.log).Pairwise fun a b ↦ a.instant < b.instant
  ahead : ∀ id status w, r.state.shared.timing id = some (status, some w) →
    ∀ a ∈ claimsOf id r.log, a.instant < w
  known : ∀ id, r.state.shared.timing id = none → claimsOf id r.log = []

theorem AheadInv.step (hr : AheadInv r) (hcalls : CallsKeepPace r) (hg : ResumesAhead r l)
    (hs : callStep r l = some r') : AheadInv r' := by
  rcases callStep_cases hcalls hs with ⟨htiming, hclaims⟩ |
    ⟨i, id, status, w, next, hstored, hlt, htiming, hlog⟩ |
    ⟨id, status, next, -, htiming, hclaims, hwriter⟩
  · refine ⟨fun id ↦ ?_, fun id status w h ↦ ?_, fun id h ↦ ?_⟩
    · rw [hclaims]
      exact hr.ascending id
    · rw [htiming] at h
      rw [hclaims]
      exact hr.ahead id status w h
    · rw [htiming] at h
      rw [hclaims]
      exact hr.known id h
  · have hbefore := hr.ahead id status w hstored
    refine ⟨fun id' ↦ ?_, fun id' status' w' h a ha ↦ ?_, fun id' h ↦ ?_⟩
    · rw [hlog]
      exact pairwise_claimed id' id r.log _ hr.ascending hbefore
    · rw [htiming] at h
      rw [hlog, claimsOf_claimed] at ha
      by_cases heq : id' = id
      · subst heq
        rw [if_pos rfl] at h ha
        cases h
        rcases List.mem_append.mp ha with ha | ha
        · exact Int.lt_trans (hbefore a ha) hlt
        · rw [List.mem_singleton] at ha
          subst ha
          exact hlt
      · rw [if_neg heq] at h
        rw [if_neg (Ne.symm heq), List.append_nil] at ha
        exact hr.ahead id' status' w' h a ha
    · rw [htiming] at h
      split at h
      · cases h
      · rename_i heq
        rw [hlog, claimsOf_claimed, if_neg (Ne.symm heq), List.append_nil]
        exact hr.known id' h
  · refine ⟨fun id' ↦ ?_, fun id' status' w h a ha ↦ ?_, fun id' h ↦ ?_⟩
    · rw [hclaims]
      exact hr.ascending id'
    · rw [htiming] at h
      rw [hclaims] at ha
      split at h
      · rename_i heq
        subst heq
        cases h
        rcases hwriter with hnew | ⟨i, f, k, rfl, hi⟩
        · rw [hr.known id' hnew] at ha
          cases ha
        · simp only [ResumesAhead, hi, atRequest_call, WritesLate] at hg
          exact Int.not_le.mp fun hle ↦ hg ⟨a, ha, hle⟩
      · exact hr.ahead id' status' w h a ha
    · rw [htiming] at h
      rw [hclaims]
      split at h
      · cases h
      · exact hr.known id' h

end Run

theorem PauseInv.start {ι : Type} {parse : CronParser} (hparse : Advances parse)
    (calls : ι → ScheduleCall) {s₀ : ScheduleStore} (h₀ : PausedIff s₀) :
    PauseInv ⟨⟨s₀, fun i ↦ (calls i).program parse⟩, []⟩ :=
  ⟨fun i ↦ program_keepsPace hparse (calls i), h₀, fun _ _ ha ↦ absurd ha List.not_mem_nil⟩

/-- However passes, creations, pauses and resumptions overlap, a schedule is paused exactly if
it has no next run, and nothing is claimed of a paused schedule. -/
theorem schedule_pause {ι : Type} [DecidableEq ι] {parse : CronParser} (hparse : Advances parse)
    (calls : ι → ScheduleCall) {s₀ : ScheduleStore} (h₀ : PausedIff s₀)
    {guard : CallRun ι → Event ι Err Nat → Prop} {r : CallRun ι}
    (hr : Reach callStep guard ⟨⟨s₀, fun i ↦ (calls i).program parse⟩, []⟩ r) : PauseInv r :=
  hr.invariant (.start hparse calls h₀) fun _ _ _ hs _ hstep ↦ hs.step hstep

/-- If, besides, every resumption writes a time later than all that has been claimed, no time
is claimed twice. -/
theorem schedule_lifecycle {ι : Type} [DecidableEq ι] {parse : CronParser}
    (hparse : Advances parse) (calls : ι → ScheduleCall) {s₀ : ScheduleStore}
    (h₀ : PausedIff s₀) {r : CallRun ι}
    (hr : Reach callStep ResumesAhead ⟨⟨s₀, fun i ↦ (calls i).program parse⟩, []⟩ r)
    (id : String) :
    (∀ row, r.state.shared.schedules.find? id = some row →
      (row.status = .paused ↔ row.nextRunAt = none)) ∧
    (∀ a ∈ claimsOf id r.log, a.status ≠ .paused) ∧
    ((claimsOf id r.log).map (·.instant)).Nodup := by
  have hpause := schedule_pause hparse calls h₀ hr
  have hahead : PauseInv r ∧ AheadInv r := by
    refine hr.invariant (I := fun r ↦ PauseInv r ∧ AheadInv r) ⟨.start hparse calls h₀,
      fun _ ↦ .nil, (fun _ _ _ _ _ ha ↦ nomatch ha), fun _ _ ↦ rfl⟩ ?_
    intro s l t hs hg hstep
    exact ⟨hs.1.step hstep, hs.2.step hs.1.calls hg hstep⟩
  refine ⟨fun row hrow ↦ ?_, hpause.running id, ?_⟩
  · refine hpause.paused id row.status row.nextRunAt ?_
    rw [ScheduleStore.timing, hrow, Option.map_some]
  · exact (List.pairwise_map.mpr (hahead.2.ascending id)).imp Int.ne_of_lt

/-- A schedule that is paused at the epoch. -/
def pausedSchedules : ScheduleStore :=
  { minuteSchedules with
    schedules := (∅ : Table String Schedule).put "sched"
      { userId := "u", teamId := "t", name := "tick", command := "date", cron := "* * * * *"
        deviceIds := ["dev"], status := .paused } }

theorem pausedSchedules_pausedIff : PausedIff pausedSchedules := by
  intro id status next h
  obtain ⟨row, hrow, heq⟩ := Option.map_eq_some_iff.mp h
  rw [pausedSchedules, Table.find?_put] at hrow
  split at hrow
  · cases hrow
    cases heq
    decide
  · cases hrow

/-- Two resumptions and two passes. -/
def resumeTwice : Nat → ScheduleCall
  | 0 | 1 => .setStatus "u" "t" "sched" .active
  | _ => .pass

/-- A resumption that writes in time, and a pass a minute later. -/
theorem schedule_lifecycle_resumed : ∃ r : CallRun Nat,
    (claimsOf "sched" r.log).map (·.instant) = [60000] ∧
    (∀ a ∈ claimsOf "sched" r.log, a.status ≠ .paused) ∧
    ((claimsOf "sched" r.log).map (·.instant)).Nodup := by
  obtain ⟨r, hr, hclaims⟩ : ∃ r : CallRun Nat,
      Reach callStep ResumesAhead
        ⟨⟨pausedSchedules, fun i ↦ (resumeTwice i).program everyMinute⟩, []⟩ r ∧
      (claimsOf "sched" r.log).map (·.instant) = [60000] :=
    Reach.exists_of_exec [.run 0 .served, .run 0 .served, .run 0 .served, .env 60000,
      .run 2 .served, .run 2 .served, .run 2 .served] (by decide)
  obtain ⟨-, hrunning, hnodup⟩ := schedule_lifecycle everyMinute_advances resumeTwice
    pausedSchedules_pausedIff hr "sched"
  exact ⟨r, hclaims, hrunning, hnodup⟩

/-- A resumption that has read the clock before another one writes too late: the minute that
both have computed is claimed twice. -/
theorem schedule_claimed_twice :
    (∀ cron after t, everyMinute cron after = .ok t →
      after < t ∧ 60000 ∣ t ∧ ∀ u, after < u → 60000 ∣ u → t ≤ u) ∧
    PausedIff pausedSchedules ∧
    ∃ r : CallRun Nat,
      Reach callStep (fun _ _ ↦ True)
        ⟨⟨pausedSchedules, fun i ↦ (resumeTwice i).program everyMinute⟩, []⟩ r ∧
      (claimsOf "sched" r.log).map (·.instant) = [60000, 60000] := by
  refine ⟨?_, pausedSchedules_pausedIff, Reach.exists_of_exec [
    -- both resumptions read the row and the clock
    .run 0 .served, .run 0 .served, .run 1 .served, .run 1 .served,
    -- the first writes, and a pass a minute later claims
    .run 0 .served, .env 60000, .run 2 .served, .run 2 .served, .run 2 .served,
    -- the second writes, and another pass claims again
    .run 1 .served, .run 3 .served, .run 3 .served, .run 3 .served] (by decide)⟩
  intro cron after t h
  cases h
  refine ⟨by omega, ⟨after / 60000 + 1, by omega⟩, ?_⟩
  rintro u hu ⟨m, rfl⟩
  omega

end Zenstier
