import Mathlib.Data.List.Perm.Subperm
import Zenstier.Concurrent.History
import Zenstier.Schedules.Service

/-!
# Claiming occurrences

Passes of `runDueSchedules` overlap freely: a pass may be slow between reading what is due
and claiming it, and its `now` may be older than that of a pass that has overtaken it.  What
keeps an occurrence from being dispatched twice is that a claim compares `nextRunAt` with
what was read, and that `nextRunAt` never comes back to a value it has had: it is always
later than every occurrence claimed so far and than the `now` of every pass that has
claimed one.
-/

namespace Zenstier

open Store Concurrent Prog

/-! ## The record of a run -/

/-- A claim that has taken effect. -/
structure Claim (ι : Type) where
  /-- The call that has claimed. -/
  pass : ι
  /-- The `nextRunAt` that it has claimed. -/
  instant : Int
  /-- The status of the schedule at that time. -/
  status : ScheduleStatus
deriving DecidableEq, Repr

inductive ScheduleNote (ι : Type)
  | claimed (id : String) (claim : Claim ι)
  | dispatched (id : String) (pass : ι)
deriving DecidableEq, Repr

/-- Notes the claims that match a row, and the dispatches. -/
def watchSchedules {ι : Type} (i : ι) :
    ∀ β : Type, ScheduleOp β → ScheduleStore → List (ScheduleNote ι)
  | _, .claim id seen _, s => match s.timing id, seen with
      | some (status, next), some w =>
          if next = some w then [.claimed id ⟨i, w, status⟩] else []
      | _, _ => []
  | _, .dispatch id .., _ => [.dispatched id i]
  | _, _, _ => []

section Notes

variable {ι : Type}

/-- The claims of a schedule, the oldest first. -/
def claimsOf (id : String) (log : List (ScheduleNote ι)) : List (Claim ι) :=
  log.filterMap fun
    | .claimed id' claim => if id' = id then some claim else none
    | .dispatched _ _ => none

/-- The dispatches of a schedule, the oldest first. -/
def dispatchesOf (id : String) (log : List (ScheduleNote ι)) : List ι :=
  log.filterMap fun
    | .claimed _ _ => none
    | .dispatched id' pass => if id' = id then some pass else none

variable (id id' : String) (log : List (ScheduleNote ι)) (i : ι) (claim : Claim ι)

theorem claimsOf_claimed : claimsOf id (log ++ [.claimed id' claim]) =
    claimsOf id log ++ if id' = id then [claim] else [] := by
  rw [claimsOf, List.filterMap_append]
  by_cases h : id' = id <;> simp [h, claimsOf]

theorem pairwise_claimed {R : Claim ι → Claim ι → Prop} (h : ∀ id, (claimsOf id log).Pairwise R)
    (hlast : ∀ a ∈ claimsOf id' log, R a claim) :
    (claimsOf id (log ++ [.claimed id' claim])).Pairwise R := by
  rw [claimsOf_claimed]
  split
  · rename_i heq
    subst heq
    refine List.pairwise_append.mpr ⟨h id', List.pairwise_singleton _ _, fun a ha b hb ↦ ?_⟩
    rw [List.mem_singleton] at hb
    subst hb
    exact hlast a ha
  · rw [List.append_nil]
    exact h id

theorem claimsOf_dispatched : claimsOf id (log ++ [.dispatched id' i]) = claimsOf id log := by
  simp [claimsOf]

theorem dispatchesOf_claimed :
    dispatchesOf id (log ++ [.claimed id' claim]) = dispatchesOf id log := by
  simp [dispatchesOf]

theorem dispatchesOf_dispatched : dispatchesOf id (log ++ [.dispatched id' i]) =
    dispatchesOf id log ++ if id' = id then [i] else [] := by
  rw [dispatchesOf, List.filterMap_append]
  by_cases h : id' = id <;> simp [h, dispatchesOf]

variable {id} {s : ScheduleStore}

/-- A claim that matches the row is noted. -/
theorem watchSchedules_claimed {status : ScheduleStatus} {w : Int} (next : Int)
    (h : s.timing id = some (status, some w)) :
    watchSchedules i _ (.claim id (some w) next) s = [.claimed id ⟨i, w, status⟩] := by
  simp [watchSchedules, h]

/-- A claim that comes too late is not. -/
theorem watchSchedules_missed {seen : Option Int} (next : Int)
    (h : ∀ status, s.timing id ≠ some (status, seen)) :
    watchSchedules i _ (.claim id seen next) s = [] := by
  rcases htiming : s.timing id with _ | ⟨status, stored⟩
  · simp [watchSchedules, htiming]
  cases seen with
  | none => simp [watchSchedules, htiming]
  | some w =>
      have hne : stored ≠ some w := by
        rintro rfl
        exact h status htiming
      simp [watchSchedules, htiming, hne]

end Notes

/-! ## What a pass does -/

/-- The request dispatches a schedule. -/
def Dispatches (id : String) : ∀ β : Type, ScheduleOp β → Prop
  | _, .dispatch id' .. => id' = id
  | _, _ => False

/-- What is shown to a pass is due. -/
def ShowsDue : ∀ β : Type, ScheduleOp β → Except Err β → Prop
  | _, .findDue now _, .ok rows => ∀ e ∈ rows, ∃ w, e.2.nextRunAt = some w ∧ w ≤ now
  | _, _, _ => True

/-- The step discipline of a pass at `now`: it claims only what is due, to run next after
`now`, and it dispatches a schedule only right after it has claimed it. -/
def ClaimsDue (now : Int) :
    ∀ β : Type, ScheduleOp β → (Except Err β → ScheduleM Nat) → Prop
  | _, .claim id seen next, k => (∃ w, seen = some w ∧ w ≤ now ∧ now < next) ∧
      ∀ r id', AtRequest (Dispatches id') (k r) → id' = id ∧ ∃ n, r = .ok n ∧ n ≠ 0
  | _, .createSchedule .., _ | _, .updateStatus .., _ => False
  | _, _, k => ∀ r id', ¬ AtRequest (Dispatches id') (k r)

/-- The next run lies in the future. -/
def Advances (parse : CronParser) : Prop :=
  ∀ cron after t, parse cron after = .ok t → after < t

section Pass

variable {parse : CronParser}

theorem nextRun_gt (hparse : Advances parse) {cron : String} {after t : Int}
    (h : nextRun parse cron after = .ok t) : after < t := by
  rw [nextRun] at h
  cases hp : parse cron after with
  | error m => simp [hp, Except.mapError] at h
  | ok t' =>
      rw [hp] at h
      cases h
      exact hparse cron after t hp

theorem runSchedules_not_dispatching (parse : CronParser) (now : Int)
    (due : List (String × Schedule)) (n : Nat) (id : String) :
    ¬ AtRequest (Dispatches id) (runSchedules parse now due n) := by
  intro h
  cases due with
  | nil => exact h
  | cons e due =>
      rw [runSchedules] at h
      cases hnext : nextRun parse e.2.cron now with
      | error err => simp [hnext] at h
      | ok next =>
          rw [hnext] at h
          exact h

/-- A pass that goes on after a run, or after its failure. -/
theorem runClaimed_claimsDue {now : Int} {id : String} {schedule : Schedule}
    {f : Bool → ScheduleM Nat} (hf : ∀ ran, Always ShowsDue (ClaimsDue now) (f ran))
    (hnot : ∀ ran id, ¬ AtRequest (Dispatches id) (f ran)) :
    Always ShowsDue (ClaimsDue now)
      (tryCatch (do runClaimed now id schedule; return true) (fun err ↦ do
        recordFailure now id err
        return false) >>= f) := by
  have hfailure : ∀ err, Always ShowsDue (ClaimsDue now)
      ((do recordFailure now id err; return false) >>= f) := by
    intro err
    refine ⟨?_, ?_⟩
    · rintro (e | u) id' h
      · exact h
      · exact hnot _ _ h
    · rintro (e | u) -
      · trivial
      · exact hf false
  refine ⟨?_, ?_⟩
  · rintro (e | result) id' h <;> exact h
  rintro (e | result) -
  · exact hfailure e
  refine ⟨?_, ?_⟩
  · rintro (e | u) id' h <;> exact h
  rintro (e | u) -
  · exact hfailure e
  refine ⟨?_, ?_⟩
  · rintro (e | u) id' h
    · exact h
    · exact hnot _ _ h
  · rintro (e | u) -
    · exact hfailure e
    · exact hf true

/-- Every pass keeps to the discipline from the point where it knows what is due. -/
theorem runSchedules_claimsDue (hparse : Advances parse) {now : Int}
    {due : List (String × Schedule)}
    (hdue : ∀ e ∈ due, ∃ w, e.2.nextRunAt = some w ∧ w ≤ now) (n : Nat) :
    Always ShowsDue (ClaimsDue now) (runSchedules parse now due n) := by
  induction due generalizing n with
  | nil => trivial
  | cons e due ih =>
      obtain ⟨id, schedule⟩ := e
      have hrest := ih fun e he ↦ hdue e (List.mem_cons_of_mem _ he)
      have hnot := runSchedules_not_dispatching parse now due
      obtain ⟨w, hw, hle⟩ := hdue _ List.mem_cons_self
      rw [runSchedules]
      cases hnext : nextRun parse schedule.cron now with
      | error err => trivial
      | ok next =>
          rw [ofExcept_ok, pure_bind, perform_bind, always_call]
          refine ⟨⟨⟨w, hw, hle, nextRun_gt hparse hnext⟩, ?_⟩, ?_⟩
          · rintro (err | count) id' h
            · exact False.elim h
            · simp only [ofExcept_ok, pure_bind] at h
              split at h
              · exact absurd h (hnot n id')
              · rename_i hcount
                exact ⟨Eq.symm h, count, rfl, hcount⟩
          · rintro (err | count) -
            · trivial
            rw [ofExcept_ok, pure_bind]
            split
            · exact hrest n
            · exact runClaimed_claimsDue (fun _ ↦ hrest _) fun _ ↦ hnot _

theorem runDueSchedules_claimsDue (hparse : Advances parse) (now : Int) :
    Always ShowsDue (ClaimsDue now) (runDueSchedules parse now) := by
  refine ⟨?_, ?_⟩
  · rintro (e | due) id h
    · exact h
    · exact runSchedules_not_dispatching _ _ _ _ _ h
  · rintro (e | due) hdue
    · trivial
    · exact runSchedules_claimsDue hparse hdue 0

/-- The store shows a pass only what is due. -/
theorem serve_showsDue (s : ScheduleStore) {β : Type} (op : ScheduleOp β) :
    ShowsDue β op (scheduleServer.serve op s).1 := by
  cases op with
  | findDue now take =>
      intro e he
      obtain ⟨-, hdue⟩ := Table.mem_findMany.mp (List.mem_of_mem_take he)
      simp only [Bool.decide_and, Bool.and_eq_true, decide_eq_true_eq, Option.any_eq_true] at hdue
      exact hdue.2
  | _ => trivial

end Pass

/-! ## The invariant -/

section Run

variable {ι : Type} [DecidableEq ι]

/-- The state of a run of passes, with the record of what they have claimed and dispatched. -/
abbrev PassRun (ι : Type) := Recorded (Pool ι ScheduleOp Err Nat ScheduleStore) (ScheduleNote ι)

/-- The schedule runs next after everything that has been claimed of it, and after the time
of every pass that has claimed it. -/
structure PassInv (now : ι → Int) (r : PassRun ι) : Prop where
  passes : ∀ i, Always ShowsDue (ClaimsDue (now i)) (r.state.thread i)
  ascending : ∀ id, (claimsOf id r.log).Pairwise fun a b ↦
    a.instant < b.instant ∧ now a.pass < b.instant
  ahead : ∀ id, ∀ a ∈ claimsOf id r.log, ∃ status next,
    r.state.shared.timing id = some (status, some next) ∧ a.instant < next ∧ now a.pass < next
  matched : ∀ id i, (dispatchesOf id r.log).count i ≤ ((claimsOf id r.log).map (·.pass)).count i
  pending : ∀ id i, AtRequest (Dispatches id) (r.state.thread i) →
    (dispatchesOf id r.log).count i < ((claimsOf id r.log).map (·.pass)).count i

variable {now : ι → Int} {r r' : PassRun ι}

/-- A step after which the record and the timing of the schedules are what they were. -/
theorem PassInv.quiet (hr : PassInv now r) (hlog : r'.log = r.log)
    (htiming : ∀ id, r'.state.shared.timing id = r.state.shared.timing id)
    (hpasses : ∀ i, Always ShowsDue (ClaimsDue (now i)) (r'.state.thread i))
    (hpending : ∀ id i, AtRequest (Dispatches id) (r'.state.thread i) →
      AtRequest (Dispatches id) (r.state.thread i)) : PassInv now r' where
  passes := hpasses
  ascending id := by
    rw [hlog]
    exact hr.ascending id
  ahead id := by
    rw [hlog, htiming]
    exact hr.ahead id
  matched id i := by
    rw [hlog]
    exact hr.matched id i
  pending id i hi := by
    rw [hlog]
    exact hr.pending id i (hpending id i hi)

/-- A claim that takes effect. -/
theorem PassInv.claim (hr : PassInv now r) {i : ι} {id : String} {status : ScheduleStatus}
    {w next : Int} (hstored : r.state.shared.timing id = some (status, some w))
    (hnext : now i < next) (hw : w ≤ now i)
    (hlog : r'.log = r.log ++ [.claimed id ⟨i, w, status⟩])
    (htiming : ∀ id', r'.state.shared.timing id' =
      if id' = id then some (status, some next) else r.state.shared.timing id')
    (hpasses : ∀ j, Always ShowsDue (ClaimsDue (now j)) (r'.state.thread j))
    (hpending : ∀ id' j, AtRequest (Dispatches id') (r'.state.thread j) →
      j = i ∧ id' = id ∨ AtRequest (Dispatches id') (r.state.thread j)) : PassInv now r' := by
  have hbefore : ∀ a ∈ claimsOf id r.log, a.instant < w ∧ now a.pass < w := by
    intro a ha
    obtain ⟨status', next', hstored', hlt⟩ := hr.ahead id a ha
    rw [hstored] at hstored'
    cases hstored'
    exact hlt
  refine ⟨hpasses, fun id' ↦ ?_, fun id' a ha ↦ ?_, fun id' j ↦ ?_, fun id' j hj ↦ ?_⟩
  · rw [hlog]
    exact pairwise_claimed id' id r.log _ hr.ascending hbefore
  · rw [hlog, claimsOf_claimed] at ha
    rw [htiming]
    by_cases heq : id' = id
    · subst heq
      rw [if_pos rfl] at ha ⊢
      refine ⟨status, next, rfl, ?_⟩
      rcases List.mem_append.mp ha with ha | ha
      · obtain ⟨h₁, h₂⟩ := hbefore a ha
        constructor <;> omega
      · rw [List.mem_singleton] at ha
        subst ha
        exact ⟨by dsimp only; omega, hnext⟩
    · rw [if_neg (Ne.symm heq), List.append_nil] at ha
      rw [if_neg heq]
      exact hr.ahead id' a ha
  · rw [hlog, dispatchesOf_claimed, claimsOf_claimed, List.map_append, List.count_append]
    exact (hr.matched id' j).trans (Nat.le_add_right _ _)
  · rw [hlog, dispatchesOf_claimed, claimsOf_claimed, List.map_append, List.count_append]
    rcases hpending id' j hj with ⟨rfl, rfl⟩ | hj
    · have := hr.matched id' j
      simp only [if_true, List.map_cons, List.map_nil, List.count_singleton_self]
      omega
    · exact (hr.pending id' j hj).trans_le (Nat.le_add_right _ _)

/-- A dispatch. -/
theorem PassInv.dispatch (hr : PassInv now r) {i : ι} (id : String)
    (hi : AtRequest (Dispatches id) (r.state.thread i))
    (hlog : r'.log = r.log ++ [.dispatched id i])
    (htiming : ∀ id', r'.state.shared.timing id' = r.state.shared.timing id')
    (hpasses : ∀ j, Always ShowsDue (ClaimsDue (now j)) (r'.state.thread j))
    (hpending : ∀ id' j, AtRequest (Dispatches id') (r'.state.thread j) →
      j ≠ i ∧ AtRequest (Dispatches id') (r.state.thread j)) : PassInv now r' := by
  have hclaims : ∀ id', claimsOf id' r'.log = claimsOf id' r.log := by
    intro id'
    rw [hlog, claimsOf_dispatched]
  have hdispatches : ∀ id' j, (dispatchesOf id' r'.log).count j =
      (dispatchesOf id' r.log).count j + if id' = id ∧ j = i then 1 else 0 := by
    intro id' j
    rw [hlog, dispatchesOf_dispatched, List.count_append]
    by_cases hid : id = id'
    · by_cases hj : j = i
      · simp [hid, hj]
      · simp [hid, hj, Ne.symm hj]
    · simp [hid, Ne.symm hid]
  refine ⟨hpasses, fun id' ↦ ?_, fun id' ↦ ?_, fun id' j ↦ ?_, fun id' j hj ↦ ?_⟩
  · rw [hclaims]
    exact hr.ascending id'
  · rw [hclaims, htiming]
    exact hr.ahead id'
  · rw [hclaims, hdispatches]
    split
    · rename_i heq
      obtain ⟨rfl, rfl⟩ := heq
      exact hr.pending id' j hi
    · exact hr.matched id' j
  · obtain ⟨hne, hold⟩ := hpending id' j hj
    rw [hclaims, hdispatches, if_neg fun h ↦ hne h.2]
    exact hr.pending id' j hold

/-- One request of one pass keeps the invariant. -/
theorem PassInv.run (hr : PassInv now r) {i : ι} {f : Fate Err}
    (hs : Recorded.step (Pool.step scheduleServer ScheduleStore.tick)
      (Pool.observe watchSchedules) r (.run i f) = some r') : PassInv now r' := by
  obtain ⟨β, op, k, hi, hstate, heffect⟩ := Pool.recorded_run hs
  obtain ⟨hdisc, hnext⟩ : ClaimsDue (now i) β op k ∧
      ∀ a, ShowsDue β op a → Always ShowsDue (ClaimsDue (now i)) (k a) := by
    have := hr.passes i
    rwa [hi, always_call] at this
  have hreply : ShowsDue β op (scheduleServer.reply f op r.state.shared) :=
    Pool.reply_contract (serve_showsDue _) (fun op e ↦ by cases op <;> trivial) f op
  have hpasses : ∀ j, Always ShowsDue (ClaimsDue (now j)) (r'.state.thread j) := by
    rw [hstate]
    exact Pool.forall_resume hr.passes i f op k (hnext _ hreply)
  have hpending : ∀ id j, AtRequest (Dispatches id) (r'.state.thread j) →
      j = i ∧ AtRequest (Dispatches id) (k (scheduleServer.reply f op r.state.shared)) ∨
        j ≠ i ∧ AtRequest (Dispatches id) (r.state.thread j) := by
    intro id j hj
    rw [hstate] at hj
    by_cases hji : j = i
    · subst hji
      rw [Pool.resume_thread_self] at hj
      exact .inl ⟨rfl, hj⟩
    · rw [Pool.resume_thread_of_ne _ hji] at hj
      exact .inr ⟨hji, hj⟩
  rcases heffect with ⟨⟨e, rfl⟩, hshared, hlog⟩ | ⟨hserved, hshared, hlog⟩
  · refine hr.quiet hlog (fun id ↦ by rw [hshared]) hpasses fun id j hj ↦ ?_
    rcases hpending id j hj with ⟨rfl, hj⟩ | ⟨-, hj⟩
    · -- nothing is dispatched after an error
      cases op with
      | claim id' seen next =>
          obtain ⟨-, n, hn, -⟩ := hdisc.2 _ _ hj
          cases hn
      | createSchedule => exact hdisc.elim
      | updateStatus => exact hdisc.elim
      | _ => exact absurd hj (hdisc _ _)
    · exact hj
  · cases op with
    | createSchedule => exact hdisc.elim
    | updateStatus => exact hdisc.elim
    | claim id seen next =>
        obtain ⟨⟨w, rfl, hw, hlt⟩, hdispatch⟩ := hdisc
        rcases ScheduleStore.timing_claim (s := r.state.shared) id (some w) next with
          ⟨status, hstored, -, htiming⟩ | ⟨hmissed, hclaim⟩
        · refine hr.claim hstored hlt hw ?_ ?_ hpasses fun id' j hj ↦ ?_
          · rw [hlog, watchSchedules_claimed i next hstored]
          · rw [hshared]
            exact htiming
          · rcases hpending id' j hj with ⟨rfl, hj⟩ | ⟨-, hj⟩
            · exact .inl ⟨rfl, (hdispatch _ _ hj).1⟩
            · exact .inr hj
        · have hserve : r.state.shared.serve (.claim id (some w) next) =
              (.ok 0, r.state.shared) := by
            rw [ScheduleStore.serve, hclaim]
          refine hr.quiet ?_ (fun id' ↦ ?_) hpasses fun id' j hj ↦ ?_
          · rw [hlog, watchSchedules_missed i next hmissed, List.append_nil]
          · rw [hshared, scheduleServer_serve, hserve]
          · rcases hpending id' j hj with ⟨rfl, hj⟩ | ⟨-, hj⟩
            · obtain ⟨-, n, hn, hzero⟩ := hdispatch _ _ hj
              rcases hserved with rfl | ⟨e, rfl⟩
              · rw [Server.reply_served, scheduleServer_serve, hserve] at hn
                cases hn
                exact absurd rfl hzero
              · cases hn
            · exact hj
    | dispatch id userId teamId input =>
        refine hr.dispatch (i := i) id ?_ hlog ?_ hpasses fun id' j hj ↦ ?_
        · rw [hi]
          rfl
        · rw [hshared]
          exact ScheduleStore.timing_serve fun h ↦ h
        · rcases hpending id' j hj with ⟨rfl, hj⟩ | hj
          · exact absurd hj (hdisc _ _)
          · exact hj
    | _ =>
        refine hr.quiet (by rw [hlog]; exact List.append_nil _) ?_ hpasses fun id' j hj ↦ ?_
        · rw [hshared]
          exact ScheduleStore.timing_serve id
        · rcases hpending id' j hj with ⟨rfl, hj⟩ | ⟨-, hj⟩
          · exact absurd hj (hdisc _ _)
          · exact hj

/-- Every event keeps the invariant. -/
theorem PassInv.step (hr : PassInv now r) {l : Event ι Err Nat}
    (hs : Recorded.step (Pool.step scheduleServer ScheduleStore.tick)
      (Pool.observe watchSchedules) r l = some r') : PassInv now r' := by
  cases l with
  | run i f => exact hr.run hs
  | env ms =>
      obtain rfl := Pool.recorded_env hs
      exact ⟨hr.passes, hr.ascending, hr.ahead, hr.matched, hr.pending⟩

end Run

/-- However many passes run at once, with whatever times and delays: what is claimed of a
schedule ascends and skips everything up to the time of an earlier claim, the schedule is
left to run after the time of every pass that has claimed it, and it is dispatched at most
once for each claim. -/
theorem runDueSchedules_once {ι : Type} [DecidableEq ι] {parse : CronParser}
    (hparse : Advances parse) (now : ι → Int) (s₀ : ScheduleStore) {r : PassRun ι}
    (hr : Reach (Recorded.step (Pool.step scheduleServer ScheduleStore.tick)
        (Pool.observe watchSchedules)) (fun _ _ ↦ True)
      ⟨⟨s₀, fun i ↦ runDueSchedules parse (now i)⟩, []⟩ r) (id : String) :
    ((claimsOf id r.log).Pairwise fun a b ↦ a.instant < b.instant ∧ now a.pass < b.instant) ∧
    (∀ a ∈ claimsOf id r.log, ∃ row next, r.state.shared.schedules.find? id = some row ∧
      row.nextRunAt = some next ∧ now a.pass < next) ∧
    (dispatchesOf id r.log).length ≤ (claimsOf id r.log).length := by
  have hinv : PassInv now r := by
    refine hr.invariant ⟨fun i ↦ runDueSchedules_claimsDue hparse (now i), fun _ ↦ .nil,
      (fun _ a ha ↦ nomatch ha), fun _ _ ↦ le_rfl, fun id i hi ↦ False.elim hi⟩ ?_
    intro s l t hs _ hstep
    exact hs.step hstep
  refine ⟨hinv.ascending id, fun a ha ↦ ?_, ?_⟩
  · obtain ⟨status, next, htiming, -, hnow⟩ := hinv.ahead id a ha
    obtain ⟨row, hrow, heq⟩ := Option.map_eq_some_iff.mp htiming
    exact ⟨row, next, hrow, (Prod.mk.inj heq).2, hnow⟩
  · have hsub : List.Subperm (dispatchesOf id r.log) ((claimsOf id r.log).map (·.pass)) :=
      List.subperm_ext_iff.mpr fun i _ ↦ hinv.matched id i
    exact hsub.length_le.trans (List.length_map _).le

/-- `* * * * *`. -/
def everyMinute : CronParser := fun _ after ↦ .ok ((after / 60000 + 1) * 60000)

theorem everyMinute_advances : Advances everyMinute := by
  intro cron after t h
  cases h
  omega

/-- One schedule, due at one minute past the epoch. -/
def minuteSchedules : ScheduleStore where
  clock := 0
  deviceGroups := ∅
  devices := ∅
  schedules := (∅ : Table String Schedule).put "sched"
    { userId := "u", teamId := "t", name := "tick", command := "date", cron := "* * * * *"
      deviceIds := ["dev"], nextRunAt := some 60000 }
  auditLogs := []
  outcome _ _ _ := ⟨"batch", [], []⟩

/-- A pass at two minutes and a pass at five minutes both find the schedule due; the earlier
one claims it, and the later one comes too late. -/
theorem runDueSchedules_once_overlapping :
    ∃ r : PassRun Bool,
      (claimsOf "sched" r.log).map (·.instant) = [60000] ∧
      ((claimsOf "sched" r.log).Pairwise fun a b ↦
        a.instant < b.instant ∧ (bif a.pass then 300000 else 120000) < b.instant) ∧
      (dispatchesOf "sched" r.log).length ≤ (claimsOf "sched" r.log).length := by
  obtain ⟨r, hr, hclaims⟩ : ∃ r : PassRun Bool,
      Reach (Recorded.step (Pool.step scheduleServer ScheduleStore.tick)
          (Pool.observe watchSchedules)) (fun _ _ ↦ True)
        ⟨⟨minuteSchedules, fun i ↦
          runDueSchedules everyMinute (bif i then 300000 else 120000)⟩, []⟩ r ∧
      (claimsOf "sched" r.log).map (·.instant) = [60000] :=
    Reach.exists_of_exec [.run false .served, .run true .served, .run false .served,
      .run true .served, .run false .served] (by decide)
  obtain ⟨hascending, -, hdispatches⟩ := runDueSchedules_once everyMinute_advances
    (fun i ↦ bif i then 300000 else 120000) minuteSchedules hr "sched"
  exact ⟨r, hclaims, hascending, hdispatches⟩

end Zenstier
