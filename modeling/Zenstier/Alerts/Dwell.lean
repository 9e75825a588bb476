import Zenstier.Alerts.Service
import Zenstier.Concurrent.History

/-!
# The dwell of an alert

A rule fires once its condition has held for some minutes.  An evaluation sees the newest sample
of a device only, of any age, and `since` says at which evaluation the condition was first met.
So a dip that is over before the next evaluation goes unseen, and a device that falls silent
counts as if it kept reporting.  A rule fires on sustained evidence as long as neither happens
while its dwell is running.
-/

namespace Zenstier

open Store Concurrent Prog

/-- The samples of a device in the time that a rule looks at. -/
def AlertStore.window (s : AlertStore) (rule : AlertRule) (deviceId : String) :
    List DeviceMetric :=
  s.metrics.filter fun m ↦ m.deviceId = deviceId ∧
    s.clock - rule.forMinutes * 60000 ≤ m.recordedAt ∧ m.recordedAt ≤ s.clock

/-- When the condition of a rule was first met for a device. -/
def AlertStore.since (s : AlertStore) (key : String × String) : Option Int :=
  (s.states.find? key).bind (·.since)

/-- A rule that fires for a device, in the state it fires in. -/
structure Firing where
  ruleId : String
  deviceId : String
  store : AlertStore

/-- The device has reported more than one sample in the time that the rule looks at, and all of
them are at or above the threshold. -/
def Sustained (f : Firing) : Prop :=
  ∀ rule, f.store.rules.find? f.ruleId = some rule → rule.metric ≠ .offline →
    1 < (f.store.window rule f.deviceId).length ∧
      ∀ m ∈ f.store.window rule f.deviceId, rule.threshold ≤ rule.metric.percent m

/-- Takes note of the rules that fire. -/
def watchFiring (β : Type) : AlertOp β → AlertStore → List Firing
  | .upsertState key create _, s =>
      if create.state = .firing then [⟨key.1, key.2, s⟩] else []
  | _, _ => []

/-! ## Histories -/

inductive AlertEvent
  /-- A device reports a sample. -/
  | sample (m : DeviceMetric)
  /-- An evaluation whose requests meet some fates, and are served once these are used up. -/
  | evaluate (fates : List (Fate Err))
  | tick (ms : Nat)

/-- The rule is evaluated for the device, by a percentage. -/
def AlertRule.Covers (rule : AlertRule) (s : AlertStore) (deviceId : String) : Prop :=
  rule.enabled ∧ rule.metric ≠ .offline ∧
    (s.devices.find? deviceId).any (·.teamId = rule.teamId)

instance (rule : AlertRule) (s : AlertStore) (deviceId : String) :
    Decidable (rule.Covers s deviceId) := inferInstanceAs (Decidable (_ ∧ _))

/-- No dip is superseded while a dwell is running, or by a sample of the same millisecond; and an
evaluation that finds a sample at or above the threshold while the dwell is running finds more
than one in the time that the rule looks at. -/
def Attentive (r : Recorded AlertStore Firing) : AlertEvent → Prop
  | .sample m => ∀ e ∈ r.state.rules.entries, e.2.Covers r.state m.deviceId →
      ∀ dip ∈ r.state.latest m.deviceId, e.2.metric.percent dip < e.2.threshold →
        r.state.since (e.1, m.deviceId) = none ∧ dip.recordedAt < r.state.clock
  | .evaluate _ => ∀ e ∈ r.state.rules.entries, ∀ d ∈ r.state.devices.entries,
      e.2.Covers r.state d.1 →
      ∀ m ∈ r.state.latest d.1, e.2.threshold ≤ e.2.metric.percent m →
        r.state.since (e.1, d.1) ≠ none ∨ e.2.forMinutes ≤ 0 →
          1 < (r.state.window e.2 d.1).length
  | .tick _ => True

instance (r : Recorded AlertStore Firing) (l : AlertEvent) : Decidable (Attentive r l) := by
  cases l <;> unfold Attentive <;> infer_instance

/-! ## Samples -/

section Samples

variable {s t : AlertStore} {m dip : DeviceMetric} {deviceId : String}

/-- Samples come with the time at which they are reported. -/
def AlertStore.Past (s : AlertStore) : Prop := ∀ m ∈ s.metrics, m.recordedAt ≤ s.clock

theorem AlertStore.latest_mem (h : s.latest deviceId = some m) :
    m ∈ s.metrics ∧ m.deviceId = deviceId := by
  have hmem : ∀ (ms : List DeviceMetric) m,
      ms.foldr (fun m found ↦ some (AlertStore.later m found)) none = some m → m ∈ ms := by
    intro ms
    induction ms with
    | nil =>
        intro m hm
        cases hm
    | cons m₀ ms ih =>
        intro m hm
        rw [List.foldr_cons, Option.some.injEq] at hm
        subst hm
        cases hfound : ms.foldr (fun m found ↦ some (AlertStore.later m found)) none with
        | none => exact List.mem_cons_self
        | some m' =>
            dsimp only [AlertStore.later]
            split
            · exact List.mem_cons_of_mem m₀ (ih m' hfound)
            · exact List.mem_cons_self
  have := hmem _ m h
  rw [List.mem_filter, decide_eq_true_eq] at this
  exact this

/-- A sample that is reported is the newest of its device. -/
theorem AlertStore.Past.latest_report (h : s.Past) (m : DeviceMetric) :
    (s.report m).latest m.deviceId = some { m with recordedAt := s.clock } := by
  have hfilter : (s.report m).metrics.filter (·.deviceId = m.deviceId) =
      { m with recordedAt := s.clock } :: s.metrics.filter (·.deviceId = m.deviceId) := by
    rw [AlertStore.report, List.filter_cons_of_pos (by simp)]
  rw [AlertStore.latest, hfilter, List.foldr_cons, Option.some.injEq]
  cases hfound : s.latest m.deviceId with
  | none =>
      rw [AlertStore.latest] at hfound
      rw [hfound]
      rfl
  | some m' =>
      have hle := h m' (AlertStore.latest_mem hfound).1
      rw [AlertStore.latest] at hfound
      rw [hfound, AlertStore.later, if_neg]
      simpa using hle

theorem AlertStore.latest_report_of_ne (s : AlertStore) (h : deviceId ≠ m.deviceId) :
    (s.report m).latest deviceId = s.latest deviceId := by
  rw [AlertStore.latest, AlertStore.report, List.filter_cons_of_neg (by simpa using Ne.symm h)]
  rfl

/-- A dip is the newest sample, or it is over before the dwell begins. -/
def Unmissed (s : AlertStore) : Prop :=
  ∀ ruleId rule, s.rules.find? ruleId = some rule → ∀ dip ∈ s.metrics,
    rule.Covers s dip.deviceId → rule.metric.percent dip < rule.threshold →
    s.latest dip.deviceId = some dip ∨ dip.recordedAt < s.clock ∧
      ∀ t, s.since (ruleId, dip.deviceId) = some t → dip.recordedAt < t

/-- Nothing is dropped between two evaluations. -/
theorem Unmissed.report (h : Unmissed s) (hpast : s.Past)
    (hseen : ∀ e ∈ s.rules.entries, e.2.Covers s m.deviceId →
      ∀ dip ∈ s.latest m.deviceId, e.2.metric.percent dip < e.2.threshold →
        s.since (e.1, m.deviceId) = none ∧ dip.recordedAt < s.clock) :
    Unmissed (s.report m) := by
  intro ruleId rule hrule dip hdip hcovers hbelow
  rcases List.mem_cons.mp hdip with rfl | hdip
  · exact .inl (hpast.latest_report m)
  · by_cases hdevice : dip.deviceId = m.deviceId
    · right
      rcases h ruleId rule hrule dip hdip hcovers hbelow with hlatest | hover
      · rw [hdevice] at hlatest hcovers
        obtain ⟨hsince, htime⟩ := hseen (ruleId, rule) (Table.find?_eq_some.mp hrule) hcovers dip
          hlatest hbelow
        refine ⟨htime, fun t ht ↦ ?_⟩
        have hsince' : s.since (ruleId, dip.deviceId) = some t := ht
        rw [hdevice, hsince] at hsince'
        cases hsince'
      · exact hover
    · rw [AlertStore.latest_report_of_ne s hdevice]
      exact h ruleId rule hrule dip hdip hcovers hbelow

theorem Unmissed.tick (h : Unmissed s) (ms : Nat) : Unmissed (s.tick ms) := by
  intro ruleId rule hrule dip hdip hcovers hbelow
  refine (h ruleId rule hrule dip hdip hcovers hbelow).imp_right fun ⟨htime, hsince⟩ ↦ ?_
  refine ⟨?_, hsince⟩
  have hclock : (s.tick ms).clock = s.clock + ms := rfl
  omega

end Samples

/-! ## An evaluation -/

/-- In the course of an evaluation: the samples are those at the start, and a dwell has been
running since then or begins now. -/
structure Evaluating (r₀ r : Recorded AlertStore Firing) : Prop where
  clock : r.state.clock = r₀.state.clock
  metrics : r.state.metrics = r₀.state.metrics
  devices : r.state.devices = r₀.state.devices
  rules : r.state.rules = r₀.state.rules
  since : ∀ key t, r.state.since key = some t → r₀.state.since key = some t ∨
    t = r₀.state.clock
  sustained : ∀ f ∈ r.log, Sustained f

section Evaluation

variable {r₀ r : Recorded AlertStore Firing} {ruleId : String} {rule : AlertRule}
  {reading : Reading}

theorem Evaluating.latest (h : Evaluating r₀ r) (deviceId : String) :
    r.state.latest deviceId = r₀.state.latest deviceId := by
  rw [AlertStore.latest, AlertStore.latest, h.metrics]

theorem Evaluating.window (h : Evaluating r₀ r) (deviceId : String) :
    r.state.window rule deviceId = r₀.state.window rule deviceId := by
  rw [AlertStore.window, AlertStore.window, h.metrics, h.clock]

theorem Evaluating.covers (h : Evaluating r₀ r) (deviceId : String) :
    rule.Covers r.state deviceId ↔ rule.Covers r₀.state deviceId := by
  rw [AlertRule.Covers, AlertRule.Covers, h.devices]

/-- A request that writes no state of a rule. -/
def AlertOp.Quiet : ∀ β : Type, AlertOp β → Prop
  | _, .upsertState .. | _, .updateState .. => False
  | _, _ => True

theorem Evaluating.quiet (h : Evaluating r₀ r) {β : Type} {op : AlertOp β}
    (hop : AlertOp.Quiet β op) :
    Evaluating r₀ ((alertServer.watching watchFiring).serve op r).2 := by
  have hlog : ∀ f ∈ r.log ++ [], Sustained f := by
    rw [List.append_nil]
    exact h.sustained
  cases op with
  | upsertState | updateState => exact hop.elim
  | findRules | findDevices | findState | createAuditLog | notify =>
      exact ⟨h.clock, h.metrics, h.devices, h.rules, h.since, hlog⟩

/-- A reading of a device by a rule. -/
structure ReadingOf (r₀ : Recorded AlertStore Firing) (ruleId : String) (rule : AlertRule)
    (reading : Reading) : Prop where
  found : r₀.state.rules.find? ruleId = some rule
  covers : rule.metric ≠ .offline → rule.Covers r₀.state reading.deviceId
  latest : rule.metric ≠ .offline → reading.breached → ∃ m,
    r₀.state.latest reading.deviceId = some m ∧ rule.threshold ≤ rule.metric.percent m

/-- A rule that fires does so on sustained evidence. -/
theorem Evaluating.fires (h : Evaluating r₀ r) (hr₀ : Unmissed r₀.state) {fates : List (Fate Err)}
    (hattentive : Attentive r₀ (.evaluate fates)) (hreads : ReadingOf r₀ ruleId rule reading)
    (hbreached : reading.breached)
    (hheld : rule.forMinutes * 60000 ≤ r₀.state.clock -
      (r.state.since (ruleId, reading.deviceId)).getD r₀.state.clock) :
    Sustained ⟨ruleId, reading.deviceId, r.state⟩ := by
  intro rule' hrule' hmetric
  obtain rfl : rule' = rule := by
    rw [h.rules, hreads.found] at hrule'
    exact (Option.some.inj hrule').symm
  obtain ⟨m, hlatest, habove⟩ := hreads.latest hmetric hbreached
  have hcovers := hreads.covers hmetric
  rw [h.window]
  have hrunning : r₀.state.since (ruleId, reading.deviceId) ≠ none ∨ rule'.forMinutes ≤ 0 := by
    cases hsince : r.state.since (ruleId, reading.deviceId) with
    | none =>
        rw [hsince, Option.getD_none] at hheld
        omega
    | some t =>
        rcases h.since _ t hsince with ht | rfl
        · exact .inl (by rw [ht]; simp)
        · rw [hsince, Option.getD_some] at hheld
          omega
  constructor
  · obtain ⟨device, hdevice, -⟩ := (Option.any_eq_true _ _).mp hcovers.2.2
    exact hattentive (ruleId, rule') (Table.find?_eq_some.mp hreads.found)
      (reading.deviceId, device) (Table.find?_eq_some.mp hdevice) hcovers m hlatest habove hrunning
  · intro dip hdip
    rw [AlertStore.window, List.mem_filter, decide_eq_true_eq] at hdip
    obtain ⟨hmem, hdevice, hstart, -⟩ := hdip
    by_contra hbelow
    rw [not_le] at hbelow
    rcases hr₀ ruleId rule' hreads.found dip hmem (hdevice ▸ hcovers) hbelow with
      hdip | ⟨htime, hover⟩
    · rw [hdevice, hlatest] at hdip
      obtain rfl := Option.some.inj hdip
      exact absurd habove (not_le.mpr hbelow)
    · rw [hdevice] at hover
      cases hsince : r.state.since (ruleId, reading.deviceId) with
      | none =>
          rw [hsince, Option.getD_none] at hheld
          omega
      | some t =>
          rw [hsince, Option.getD_some] at hheld
          rcases h.since _ t hsince with ht | rfl
          · have := hover t ht
            omega
          · omega

/-- The state of a rule for a device is written. -/
theorem Evaluating.write (h : Evaluating r₀ r) {key : String × String} {row : AlertRuleState}
    (hsince : ∀ t, row.since = some t → r₀.state.since key = some t ∨ t = r₀.state.clock)
    {log : List Firing} (hlog : ∀ f ∈ log, Sustained f) :
    Evaluating r₀ ⟨{ r.state with states := r.state.states.put key row }, r.log ++ log⟩ where
  clock := h.clock
  metrics := h.metrics
  devices := h.devices
  rules := h.rules
  since key' t ht := by
    rw [AlertStore.since, Table.find?_put] at ht
    split at ht
    · rename_i hkey
      subst hkey
      exact hsince t ht
    · exact h.since key' t ht
  sustained f hf := by
    rcases List.mem_append.mp hf with hf | hf
    · exact h.sustained f hf
    · exact hlog f hf

/-- A dwell is over. -/
theorem Evaluating.update (h : Evaluating r₀ r) {key : String × String}
    {update : AlertRuleState → AlertRuleState} (hupdate : ∀ row, (update row).since = none) :
    Evaluating r₀ ((alertServer.watching watchFiring).serve (.updateState key update) r).2 := by
  have hlog : ∀ f ∈ r.log ++ [], Sustained f := by
    rw [List.append_nil]
    exact h.sustained
  show Evaluating r₀ ⟨(r.state.serve (.updateState key update)).2, r.log ++ []⟩
  rw [AlertStore.serve]
  split
  · exact ⟨h.clock, h.metrics, h.devices, h.rules, h.since, hlog⟩
  · refine ⟨h.clock, h.metrics, h.devices, h.rules, fun key' t ht ↦ ?_, hlog⟩
    rw [AlertStore.since, Table.find?_update] at ht
    split at ht
    · cases hrow : r.state.states.find? key' with
      | none => simp [hrow] at ht
      | some row => simp [hrow, hupdate] at ht
    · exact h.since key' t ht

/-- What each request of an evaluation keeps. -/
abbrev Keeping {α : Type} (r₀ : Recorded AlertStore Firing) (p : AlertM α)
    (r : Recorded AlertStore Firing) : Prop :=
  wp (alertServer.watching watchFiring) anyFate (fun _ _ _ ↦ True) (fun _ t ↦ Evaluating r₀ t) p r

/-- One awaited request. -/
theorem Keeping.await {α β : Type} {op : AlertOp β} {k : β → AlertM α} (h : Evaluating r₀ r)
    (hserve : Evaluating r₀ ((alertServer.watching watchFiring).serve op r).2)
    (hk : ∀ b r', Evaluating r₀ r' → Keeping r₀ (k b) r') :
    Keeping r₀ (.perform op >>= k) r := by
  refine wp_await trivial (fun _ ↦ ?_) (fun _ _ ↦ h) fun _ _ ↦ hserve
  cases ((alertServer.watching watchFiring).serve op r).1 with
  | ok b => exact hk b _ hserve
  | error e => exact hserve

/-- One awaited request at the end. -/
theorem Keeping.perform {β : Type} {op : AlertOp β} (h : Evaluating r₀ r)
    (hserve : Evaluating r₀ ((alertServer.watching watchFiring).serve op r).2) :
    Keeping r₀ (.perform op) r := by
  refine (wp_perform op r).mpr ⟨trivial, fun f _ ↦ ?_⟩
  cases f with
  | refused e => exact h
  | served => exact hserve
  | unanswered e => exact hserve

end Evaluation

/-! ## The history -/

/-- Nothing has been reported yet, and no dwell is running. -/
def AlertStore.fresh (clock : Int) (devices : Table String Device)
    (rules : Table String AlertRule) : AlertStore :=
  { clock, devices, metrics := [], rules, states := ∅, auditLogs := [] }

end Zenstier
