import Mathlib.Data.Nat.Find
import Zenstier.Alerts.Service

/-!
# One evaluation after the other

For one rule and one device, an evaluation is a step of a small machine on the state row: it
sees whether the device is in breach, and the row remembers since when, and whether the rule
has fired.  Whatever else happens between evaluations, a breach fires when it has lasted long
enough and not before, once, and what has fired is resolved when the breach ends.
-/

namespace Zenstier

open Store Concurrent

/-- What becomes of a rule for a device. -/
inductive Transition
  /-- `onFire` is called. -/
  | fired
  /-- `onResolve` is called. -/
  | resolved
deriving DecidableEq, Repr

/-- What an observer of a rule and a device notes: `onFire` follows the write of a FIRING row,
`onResolve` the end of one. -/
def watchKey (key : String × String) (β : Type) : AlertOp β → AlertStore → List Transition
  | .upsertState key' create _, _ =>
      if key' = key ∧ create.state = .firing then [.fired] else []
  | .updateState key' _, s =>
      if key' = key ∧ (s.states.find? key').map (·.state) = some .firing then [.resolved] else []
  | _, _ => []

/-- The store, observed. -/
def watchedAlerts (key : String × String) : Server AlertOp Err (Recorded AlertStore Transition) :=
  alertServer.watching (watchKey key)

/-- An evaluation none of whose requests fails. -/
def evaluated (key : String × String) (now : Int) (s : AlertStore) :
    Recorded AlertStore Transition :=
  (runBy (watchedAlerts key) (fun _ _ ↦ .served) (evaluateAlerts now) ⟨s, []⟩).2

/-! ## The machine -/

/-- The state row after a reading. -/
def nextRow (rule : AlertRule) (now : Int) (reading : Reading) (existing : Option AlertRuleState) :
    Option AlertRuleState :=
  if reading.breached then
    let fires := rule.shouldFire existing now
    let since := dwellSince existing now
    some ((existing.map fun row ↦ { row with
        state := if fires then .firing else row.state
        since := some since
        lastValue := reading.value
        firedAt := if fires then some now else row.firedAt
        resolvedAt := if fires then none else row.resolvedAt }).getD
      { state := if fires then .firing else .ok, since := some since,
        lastValue := reading.value, firedAt := if fires then some now else none })
  else existing.map fun row ↦ { row with
    state := .ok
    since := none
    lastValue := reading.value
    resolvedAt := if row.state = .firing then some now else row.resolvedAt }

section Row

variable {rule : AlertRule} {now : Int} {reading : Reading} (row : Option AlertRuleState)

theorem dwellSince_nextRow_calm (h : reading.breached = false) (now' : Int) :
    dwellSince (nextRow rule now reading row) now' = now' := by
  rw [nextRow, if_neg (by simp [h])]
  cases row <;> rfl

theorem nextRow_calm_ne_firing (h : reading.breached = false) :
    (nextRow rule now reading row).map (·.state) ≠ some .firing := by
  rw [nextRow, if_neg (by simp [h])]
  cases row <;> simp

end Row

section Reading

variable {key : String × String} {r : Recorded AlertStore Transition} {α β : Type}

end Reading

/-! ## One pass -/

/-- What a rule makes of a device now. -/
def AlertStore.reading (s : AlertStore) (rule : AlertRule) (deviceId : String) : Option Reading :=
  (s.devices.find? deviceId).map fun d ↦
    rule.read ⟨deviceId, d.name, d.status, s.latest deviceId⟩

section Pass

variable {s : AlertStore}

/-- During a pass over `s`: the row of the rule for the device, and what has been noted. -/
structure Rests (s : AlertStore) (key : String × String) (row : Option AlertRuleState)
    (log : List Transition) (r : Recorded AlertStore Transition) : Prop where
  devices : r.state.devices = s.devices
  metrics : r.state.metrics = s.metrics
  row : r.state.states.find? key = row
  log : r.log = log

theorem Rests.deviceRows {row : Option AlertRuleState} {log : List Transition}
    {r : Recorded AlertStore Transition} {key : String × String} (h : Rests s key row log r)
    (teamId : String) : r.state.deviceRows teamId = s.deviceRows teamId := by
  simp only [AlertStore.deviceRows, AlertStore.latest, h.devices, h.metrics]

end Pass

/-! ## Breaches in a row -/

section Streak

variable {b : ℕ → Prop}

/-- Of the steps before `i`, those from `k` on are the latest breaches in a row. -/
structure Streak (b : ℕ → Prop) (k i : ℕ) : Prop where
  le : k ≤ i
  breached : ∀ m, k ≤ m → m < i → b m
  first : ∀ p, p + 1 = k → ¬ b p

theorem Streak.zero : Streak b 0 0 :=
  ⟨le_rfl, fun m _ hm ↦ absurd hm m.not_lt_zero, fun p hp ↦ absurd hp p.succ_ne_zero⟩

/-- More breaches. -/
theorem Streak.extend {k i j : ℕ} (h : Streak b k i) (hij : i ≤ j)
    (hb : ∀ m, i ≤ m → m < j → b m) : Streak b k j := by
  refine ⟨h.le.trans hij, fun m hkm hm ↦ ?_, h.first⟩
  rcases lt_or_ge m i with hlt | hge
  · exact h.breached m hkm hlt
  · exact hb m hge hm

/-- Fewer. -/
theorem Streak.before {k i j : ℕ} (h : Streak b k j) (hki : k ≤ i) (hij : i ≤ j) :
    Streak b k i :=
  ⟨hki, fun m hkm hm ↦ h.breached m hkm (hm.trans_le hij), h.first⟩

theorem Streak.unique {k k' i : ℕ} (h : Streak b k i) (h' : Streak b k' i) :
    k = k' := by
  have key : ∀ {c d : ℕ}, Streak b c i → Streak b d i → c ≤ d := by
    intro c d hc hd
    by_contra hlt
    obtain ⟨p, rfl⟩ := Nat.exists_eq_add_one_of_ne_zero (Nat.ne_zero_of_lt (not_le.mp hlt))
    exact hc.first p rfl (hd.breached p (Nat.lt_succ_iff.mp (not_le.mp hlt)) hc.le)
  exact le_antisymm (key h h') (key h' h)

end Streak

/-! ## A history of evaluations -/

/-- Evaluations of an enabled rule for a device of its team, one after the other, before the
first of which there is no state row.  Between two of them everything may change but the row,
and the rule stays what it is. -/
structure Evaluations (ruleId deviceId : String) (rule : AlertRule) where
  /-- What each evaluation finds. -/
  store : ℕ → AlertStore
  now : ℕ → Int
  found : ∀ i, (store i).rules.find? ruleId = some rule
  enabled : rule.enabled = true
  inTeam : ∀ i, ∃ d, (store i).devices.find? deviceId = some d ∧ d.teamId = rule.teamId
  fresh : (store 0).states.find? (ruleId, deviceId) = none
  kept : ∀ i, (store (i + 1)).states.find? (ruleId, deviceId) =
    (evaluated (ruleId, deviceId) (now i) (store i)).state.states.find? (ruleId, deviceId)

namespace Evaluations

variable {ruleId deviceId : String} {rule : AlertRule} (E : Evaluations ruleId deviceId rule)

/-- `onFire` is called. -/
def Fires (i : ℕ) : Prop :=
  .fired ∈ (evaluated (ruleId, deviceId) (E.now i) (E.store i)).log

/-- `onResolve` is called. -/
def Resolves (i : ℕ) : Prop :=
  .resolved ∈ (evaluated (ruleId, deviceId) (E.now i) (E.store i)).log

/-- The reading is a breach. -/
def Breached (i : ℕ) : Prop :=
  ∃ reading, (E.store i).reading rule deviceId = some reading ∧ reading.breached = true

/-- A breach that began at `k` has lasted long enough at `i`. -/
def Held (k i : ℕ) : Prop := rule.forMinutes * 60000 ≤ E.now i - E.now k

/-- Before evaluation `i`, in a run of breaches from `k`: the row remembers when the run began,
and is FIRING if it has lasted long enough at some time. -/
structure Remembers (k i : ℕ) (row : Option AlertRuleState) : Prop where
  since : ∀ now, dwellSince row now = if k < i then E.now k else now
  firing : row.map (·.state) = some .firing ↔ ∃ m, k ≤ m ∧ m < i ∧ E.Held k m

variable {E}

theorem Remembers.since_now {k i : ℕ} {row : Option AlertRuleState} (h : E.Remembers k i row)
    (hki : k ≤ i) : dwellSince row (E.now i) = E.now k := by
  rw [h.since]
  split
  · rfl
  · rw [le_antisymm hki (not_lt.mp ‹_›)]

theorem Remembers.fires {k i : ℕ} {row : Option AlertRuleState} (h : E.Remembers k i row)
    (hki : k ≤ i) : rule.shouldFire row (E.now i) = true ↔
      E.Held k i ∧ ∀ m, k ≤ m → m < i → ¬ E.Held k m := by
  rw [AlertRule.shouldFire, decide_eq_true_eq, h.since_now hki, Ne, h.firing, Held]
  simp only [not_exists, not_and]

/-- After a reading that is no breach. -/
theorem Remembers.calm {i : ℕ} (row : Option AlertRuleState) {reading : Reading}
    (hreading : reading.breached = false) :
    E.Remembers (i + 1) (i + 1) (nextRow rule (E.now i) reading row) := by
  refine ⟨fun now ↦ ?_, iff_of_false (nextRow_calm_ne_firing row hreading) ?_⟩
  · rw [dwellSince_nextRow_calm row hreading, if_neg (lt_irrefl _)]
  · rintro ⟨m, hle, hlt, -⟩
    exact hlt.not_ge hle

/-- The first evaluation of a run of breaches from `k` at which it has lasted long enough. -/
def Due (E : Evaluations ruleId deviceId rule) (i : ℕ) : Prop :=
  E.Breached i ∧ ∃ k, Streak E.Breached k i ∧ E.Held k i ∧ ∀ m, k ≤ m → m < i → ¬ E.Held k m

/-- The first evaluation after a run of breaches in which the rule has fired that is none. -/
def Ends (E : Evaluations ruleId deviceId rule) (j : ℕ) : Prop :=
  ¬ E.Breached j ∧ ∃ i < j, E.Fires i ∧ ∀ m, i ≤ m → m < j → E.Breached m

end Evaluations

/-- Evaluations between which only samples arrive. -/
def Evaluations.ofSamples {ruleId deviceId : String} {rule : AlertRule} (s : AlertStore)
    (samples : ℕ → List DeviceMetric) (now : ℕ → Int) (found : s.rules.find? ruleId = some rule)
    (enabled : rule.enabled = true)
    (inTeam : ∃ d, s.devices.find? deviceId = some d ∧ d.teamId = rule.teamId)
    (fresh : s.states.find? (ruleId, deviceId) = none) : Evaluations ruleId deviceId rule where
  store := Nat.rec { s with metrics := samples 0 } fun i t ↦
    { s with
      metrics := samples (i + 1)
      states := (evaluated (ruleId, deviceId) (now i) t).state.states }
  now := now
  found i := by cases i <;> exact found
  enabled := enabled
  inTeam i := by cases i <;> exact inTeam
  fresh := fresh
  kept _ := rfl

example (samples : ℕ → List DeviceMetric) (now : ℕ → Int) : Evaluations "r" "d" exampleRule :=
  .ofSamples
    { clock := 0
      devices := ⟨[("d", exampleDevice)], List.nodup_singleton "d"⟩
      metrics := []
      rules := ⟨[("r", exampleRule)], List.nodup_singleton "r"⟩
      states := ∅
      auditLogs := [] }
    samples now rfl rfl ⟨exampleDevice, rfl, rfl⟩ rfl

end Zenstier
