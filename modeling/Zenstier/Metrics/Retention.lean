import Mathlib.Algebra.Order.Ring.Rat
import Mathlib.Data.List.Dedup
import Zenstier.Store.Table

/-!
# Metric retention

Agents report a sample every 30 seconds.  `runMetricRetention` rolls raw samples into
hourly rows and then prunes: raw samples after some hours, hourly rows after some days.
Its three statements are `rollUp`, `pruneRaw` and `pruneHourly`.

Times are milliseconds, and percentages and loads are rationals: an average is the exact
quotient.
-/

namespace Zenstier

open Store

/-- A row of `device_metrics`, as far as it is read. -/
structure DeviceMetric where
  deviceId : String
  cpuPercent : ℚ := 0
  memPercent : ℚ := 0
  diskPercent : ℚ := 0
  load1 : ℚ := 0
  uptimeSec : Int := 0
  recordedAt : Int
deriving DecidableEq

/-- A row of `device_metrics_hourly`; its device and bucket are its key. -/
structure DeviceMetricHourly where
  samples : Nat := 0
  cpuAvg : ℚ := 0
  cpuMax : ℚ := 0
  memAvg : ℚ := 0
  memMax : ℚ := 0
  diskAvg : ℚ := 0
  diskMax : ℚ := 0
  load1Avg : ℚ := 0
deriving DecidableEq

structure MetricStore where
  raw : List DeviceMetric
  hourly : Table (String × Int) DeviceMetricHourly

/-- The retention settings, which must be positive. -/
structure RetentionEnv where
  METRICS_RAW_RETENTION_HOURS : Nat := 48
  METRICS_HOURLY_RETENTION_DAYS : Nat := 90
  raw_pos : 0 < METRICS_RAW_RETENTION_HOURS := by decide
  hourly_pos : 0 < METRICS_HOURLY_RETENTION_DAYS := by decide

structure RetentionResult where
  bucketsWritten : Nat
  rawDeleted : Nat
  hourlyDeleted : Nat
deriving DecidableEq, Repr

/-! ## Hours -/

/-- An hour in milliseconds. -/
def HOUR : Int := 60 * 60 * 1000

/-- `date_trunc('hour', t)`. -/
def truncHour (t : Int) : Int := t - t % HOUR

theorem truncHour_le (t : Int) : truncHour t ≤ t := by
  unfold truncHour HOUR
  omega

theorem lt_truncHour_add (t : Int) : t < truncHour t + HOUR := by
  unfold truncHour HOUR
  omega

theorem truncHour_dvd (t : Int) : HOUR ∣ truncHour t := Int.dvd_self_sub_emod

/-- Hours do not overlap. -/
theorem add_hour_le {a b : Int} (ha : HOUR ∣ a) (hb : HOUR ∣ b) (h : a < b) : a + HOUR ≤ b := by
  have hle : HOUR ≤ b - a := Int.le_of_dvd (by omega) (Int.dvd_sub hb ha)
  omega

/-- An hour that has started by `t` has started by the hour of `t`. -/
theorem le_truncHour {b t : Int} (hb : HOUR ∣ b) (h : b ≤ t) : b ≤ truncHour t := by
  have hlt := lt_truncHour_add t
  by_contra hnot
  have := add_hour_le (truncHour_dvd t) hb (by omega)
  omega

theorem truncHour_mono {t u : Int} (h : t ≤ u) : truncHour t ≤ truncHour u :=
  le_truncHour (truncHour_dvd t) ((truncHour_le t).trans h)

/-! ## Aggregates -/

def avg (xs : List ℚ) : ℚ := xs.sum / xs.length

def maximum (xs : List ℚ) : ℚ := xs.max?.getD 0

/-- The hourly row of some samples. -/
def aggregate (ms : List DeviceMetric) : DeviceMetricHourly where
  samples := ms.length
  cpuAvg := avg (ms.map (·.cpuPercent))
  cpuMax := maximum (ms.map (·.cpuPercent))
  memAvg := avg (ms.map (·.memPercent))
  memMax := maximum (ms.map (·.memPercent))
  diskAvg := avg (ms.map (·.diskPercent))
  diskMax := maximum (ms.map (·.diskPercent))
  load1Avg := avg (ms.map (·.load1))

/-- The device and the hour of a sample. -/
def DeviceMetric.key (m : DeviceMetric) : String × Int := (m.deviceId, truncHour m.recordedAt)

/-- The samples of a device in an hour. -/
def bucketOf (key : String × Int) (ms : List DeviceMetric) : List DeviceMetric :=
  ms.filter fun m ↦ m.key = key

@[simp] theorem mem_bucketOf {key : String × Int} {ms : List DeviceMetric} {m : DeviceMetric} :
    m ∈ bucketOf key ms ↔ m ∈ ms ∧ m.key = key := by simp [bucketOf]

/-! ## The three statements -/

section Statements

variable (env : RetentionEnv) (now : Int) (s : MetricStore)

def rawCutoff : Int := now - env.METRICS_RAW_RETENTION_HOURS * HOUR

def hourlyCutoff : Int := now - env.METRICS_HOURLY_RETENTION_DAYS * 24 * HOUR

/-- The samples of complete hours. -/
def closedSamples : List DeviceMetric := s.raw.filter fun m ↦ m.recordedAt < truncHour now

/-- The groups of the roll-up. -/
def closedKeys : List (String × Int) := ((closedSamples now s).map (·.key)).dedup

/-- Upserts every bucket that is complete, so that a re-run is harmless. -/
def rollUp : MetricStore :=
  { s with hourly := s.hourly.putAll (closedKeys now s) fun key ↦
      aggregate (bucketOf key (closedSamples now s)) }

/-- Only prunes raw rows whose bucket has actually been written. -/
def pruneRaw : MetricStore :=
  { s with raw := s.raw.filter fun m ↦
      ¬ (m.recordedAt < rawCutoff env now ∧ (s.hourly.find? m.key).isSome) }

def pruneHourly : MetricStore :=
  { s with hourly := s.hourly.deleteMany fun key _ ↦ key.2 < hourlyCutoff env now }

/-- Rolls raw metric samples into hourly buckets, then prunes. -/
def runMetricRetention : RetentionResult × MetricStore :=
  let rolled := rollUp now s
  let pruned := pruneRaw env now rolled
  let final := pruneHourly env now pruned
  ({ bucketsWritten := (closedKeys now s).length
     rawDeleted := rolled.raw.length - pruned.raw.length
     hourlyDeleted := pruned.hourly.entries.length - final.hourly.entries.length }, final)

end Statements

/-! ## What one execution does -/

section Execution

variable {env : RetentionEnv} {now : Int} {s : MetricStore}

/-- A raw sample is kept for an hour at least. -/
theorem rawCutoff_le (env : RetentionEnv) (now : Int) : rawCutoff env now ≤ now - HOUR := by
  have hpos : (1 : Int) ≤ env.METRICS_RAW_RETENTION_HOURS := by exact_mod_cast env.raw_pos
  have := Int.mul_le_mul_of_nonneg_right hpos (c := HOUR) (by decide)
  unfold rawCutoff
  omega

theorem rawCutoff_mono {t u : Int} (h : t ≤ u) : rawCutoff env t ≤ rawCutoff env u := by
  unfold rawCutoff
  omega

/-- The hour of a sample that may be pruned is complete. -/
theorem closed_of_lt_rawCutoff {t : Int} (h : t < rawCutoff env now) :
    truncHour t + HOUR ≤ truncHour now := by
  have hle := rawCutoff_le env now
  have htrunc := truncHour_le t
  refine le_truncHour (Int.dvd_add (truncHour_dvd t) (Int.dvd_refl HOUR)) ?_
  omega

/-- A sample belongs to the roll-up once its hour is over. -/
theorem mem_closedSamples {m : DeviceMetric} : m ∈ closedSamples now s ↔
    m ∈ s.raw ∧ truncHour m.recordedAt + HOUR ≤ truncHour now := by
  have hle := truncHour_le m.recordedAt
  have hlt := lt_truncHour_add m.recordedAt
  simp only [closedSamples, List.mem_filter, decide_eq_true_eq]
  refine and_congr_right fun _ ↦ ⟨fun h ↦ ?_, fun h ↦ by omega⟩
  exact add_hour_le (truncHour_dvd _) (truncHour_dvd _) (by omega)

/-- The groups of the roll-up are the complete hours with a raw sample. -/
theorem mem_closedKeys {key : String × Int} : key ∈ closedKeys now s ↔
    bucketOf key s.raw ≠ [] ∧ key.2 + HOUR ≤ truncHour now := by
  simp only [closedKeys, List.mem_dedup, List.mem_map, mem_closedSamples]
  constructor
  · rintro ⟨m, ⟨hm, hclosed⟩, rfl⟩
    exact ⟨List.ne_nil_of_mem (mem_bucketOf.mpr ⟨hm, rfl⟩), hclosed⟩
  · rintro ⟨hne, hclosed⟩
    obtain ⟨m, hmem⟩ := List.exists_mem_of_ne_nil _ hne
    obtain ⟨hm, rfl⟩ := mem_bucketOf.mp hmem
    exact ⟨m, ⟨hm, hclosed⟩, rfl⟩

/-- A complete hour is rolled up with all of its raw samples. -/
theorem bucketOf_closedSamples {key : String × Int} (h : key.2 + HOUR ≤ truncHour now) :
    bucketOf key (closedSamples now s) = bucketOf key s.raw := by
  unfold bucketOf closedSamples
  rw [List.filter_filter]
  refine List.filter_congr fun m hm ↦ ?_
  by_cases hkey : m.key = key
  · have hclosed := (mem_closedSamples (s := s)).mpr ⟨hm, hkey ▸ h⟩
    have := (List.mem_filter.mp hclosed).2
    simp [hkey, of_decide_eq_true this]
  · simp [hkey]

theorem find?_rollUp (key : String × Int) : (rollUp now s).hourly.find? key =
    if bucketOf key s.raw ≠ [] ∧ key.2 + HOUR ≤ truncHour now then
      some (aggregate (bucketOf key s.raw))
    else s.hourly.find? key := by
  simp only [rollUp, Table.find?_putAll, mem_closedKeys]
  split
  · rename_i h
    rw [bucketOf_closedSamples h.2]
  · rfl

/-- An execution keeps exactly the raw samples from the cutoff on: whatever is older is in a
complete hour, and so its bucket has been written. -/
theorem runMetricRetention_raw : (runMetricRetention env now s).2.raw =
    s.raw.filter fun m ↦ rawCutoff env now ≤ m.recordedAt := by
  refine List.filter_congr fun m hm ↦ ?_
  by_cases hcut : m.recordedAt < rawCutoff env now
  · have hwritten : ((rollUp now s).hourly.find? m.key).isSome := by
      rw [find?_rollUp, if_pos]
      · rfl
      · exact ⟨List.ne_nil_of_mem (mem_bucketOf.mpr ⟨hm, rfl⟩), closed_of_lt_rawCutoff hcut⟩
    simp [hcut, hwritten]
  · simp [hcut]
    omega

/-- An execution writes the rows of the complete hours with a raw sample, and keeps the rows
from the hourly cutoff on. -/
theorem runMetricRetention_hourly (key : String × Int) :
    (runMetricRetention env now s).2.hourly.find? key =
      if key.2 < hourlyCutoff env now then none
      else if bucketOf key s.raw ≠ [] ∧ key.2 + HOUR ≤ truncHour now then
        some (aggregate (bucketOf key s.raw))
      else s.hourly.find? key := by
  have hpruned : (runMetricRetention env now s).2.hourly.find? key =
      ((rollUp now s).hourly.find? key).filter fun _ ↦ !decide (key.2 < hourlyCutoff env now) :=
    Table.find?_deleteMany ..
  rw [hpruned, find?_rollUp]
  by_cases hcut : key.2 < hourlyCutoff env now
  · simp [hcut]
  · have hkeep : ∀ o : Option DeviceMetricHourly, o.filter (fun _ ↦ true) = o := fun o ↦ by
      cases o <;> rfl
    simp only [hcut, decide_false, Bool.not_false, if_false, hkeep]

end Execution

end Zenstier
