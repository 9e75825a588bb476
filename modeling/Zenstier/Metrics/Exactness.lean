import Mathlib.Data.List.Infix
import Zenstier.Metrics.Retention

/-!
# Exact hourly rows

An hourly row should aggregate every sample ever recorded in its hour.  One execution of
`runMetricRetention` gets this right, but the cutoff of the pruning is not aligned to the
hour: it may delete one part of an hour's samples and leave the other.  The next execution
finds the rest, takes it for the whole, and overwrites the row.

A run is a list of events, the latest first.
-/

namespace Zenstier

open Store

/-- What happens to the metrics of a deployment. -/
inductive MetricEvent
  /-- A heartbeat records a sample. -/
  | heartbeat (m : DeviceMetric)
  /-- `runMetricRetention` is executed. -/
  | retention (now : Int)

namespace MetricEvent

def time : MetricEvent → Int
  | .heartbeat m => m.recordedAt
  | .retention now => now

end MetricEvent

/-- A run, the latest event first. -/
abbrev MetricRun := List MetricEvent

namespace MetricRun

/-- Events come in the order of their times. -/
def Timely (run : MetricRun) : Prop := run.Pairwise fun later earlier ↦ earlier.time ≤ later.time

/-- Every sample ever recorded. -/
def history : MetricRun → List DeviceMetric
  | [] => []
  | .heartbeat m :: run => m :: history run
  | .retention _ :: run => history run

/-- The times of the executions. -/
def retentions : MetricRun → List Int
  | [] => []
  | .heartbeat _ :: run => retentions run
  | .retention now :: run => now :: retentions run

variable (env : RetentionEnv)

/-- The tables after a run that starts with empty ones. -/
def store : MetricRun → MetricStore
  | [] => ⟨[], ∅⟩
  | .heartbeat m :: run => { store run with raw := m :: (store run).raw }
  | .retention now :: run => (runMetricRetention env now (store run)).2

/-- Every hourly row is the aggregate of all samples ever recorded in its hour. -/
def Exact (run : MetricRun) : Prop :=
  ∀ key row, (store env run).hourly.find? key = some row →
    row = aggregate (bucketOf key (history run))

/-- The cutoff of an execution does not fall between two samples of a bucket whose row is
still kept after the next execution. -/
def Unsplit (run : MetricRun) : Prop :=
  ∀ next earlier, .retention next :: earlier <:+ run →
    ∀ now, (retentions earlier).head? = some now →
      ∀ key, hourlyCutoff env next ≤ key.2 →
        ∀ m ∈ bucketOf key (history earlier), ∀ m' ∈ bucketOf key (history earlier),
          m.recordedAt < rawCutoff env now → m'.recordedAt < rawCutoff env now

section Runs

variable {env : RetentionEnv} {run : MetricRun}

theorem mem_retentions {t : Int} : t ∈ retentions run ↔ .retention t ∈ run := by
  induction run with
  | nil => simp [retentions]
  | cons e run ih =>
      cases e with
      | heartbeat m => simp [retentions, ih]
      | retention now => simp [retentions, ih]

/-- The first of the executions in a timely run is the latest. -/
theorem le_of_head?_retentions (ht : Timely run) {now t : Int}
    (h : (retentions run).head? = some now) (hmem : t ∈ retentions run) : t ≤ now := by
  induction run with
  | nil => contradiction
  | cons e run ih =>
      obtain ⟨hfirst, hrest⟩ := List.pairwise_cons.mp ht
      cases e with
      | heartbeat m => exact ih hrest h hmem
      | retention u =>
          obtain rfl : u = now := Option.some.inj h
          rcases List.mem_cons.mp hmem with rfl | hmem
          · exact le_refl _
          · exact hfirst _ (mem_retentions.mp hmem)

/-- The raw samples are those that no execution has pruned. -/
theorem raw_store (ht : Timely run) : (store env run).raw =
    (history run).filter fun m ↦ ∀ t ∈ retentions run, rawCutoff env t ≤ m.recordedAt := by
  induction run with
  | nil => rfl
  | cons e run ih =>
      obtain ⟨hfirst, hrest⟩ := List.pairwise_cons.mp ht
      cases e with
      | heartbeat m =>
          have hkept : ∀ t ∈ retentions run, rawCutoff env t ≤ m.recordedAt := by
            intro t hmem
            have hle : t ≤ m.recordedAt := hfirst _ (mem_retentions.mp hmem)
            have hcut := rawCutoff_le env t
            have hpos : 0 < HOUR := by decide
            omega
          show m :: (store env run).raw = _
          rw [ih hrest, history]
          exact (List.filter_cons_of_pos (by simpa [retentions] using hkept)).symm
      | retention now =>
          show (runMetricRetention env now (store env run)).2.raw = _
          rw [runMetricRetention_raw, ih hrest, List.filter_filter]
          refine List.filter_congr fun m _ ↦ ?_
          simp [retentions]

/-- The hour of a row was complete at some execution. -/
theorem closed_of_row {key : String × Int} {row : DeviceMetricHourly}
    (h : (store env run).hourly.find? key = some row) :
    ∃ t ∈ retentions run, key.2 + HOUR ≤ t := by
  induction run with
  | nil => contradiction
  | cons e run ih =>
      cases e with
      | heartbeat m => exact ih h
      | retention now =>
          change (runMetricRetention env now (store env run)).2.hourly.find? key = some row at h
          rw [runMetricRetention_hourly] at h
          split at h
          · contradiction
          split at h
          · rename_i hclosed
            exact ⟨now, List.mem_cons_self, hclosed.2.trans (truncHour_le now)⟩
          · obtain ⟨t, hmem, hle⟩ := ih h
            exact ⟨t, List.mem_cons_of_mem _ hmem, hle⟩

/-! ## Unsplit buckets have exact rows -/

/-- A heartbeat falls into no hour that has a row. -/
theorem Exact.heartbeat {m : DeviceMetric} (ht : Timely (.heartbeat m :: run))
    (h : Exact env run) : Exact env (.heartbeat m :: run) := by
  intro key row hrow
  change (store env run).hourly.find? key = some row at hrow
  obtain ⟨t, hmem, hle⟩ := closed_of_row hrow
  have hlater : t ≤ m.recordedAt :=
    (List.pairwise_cons.mp ht).1 _ (mem_retentions.mp hmem)
  have hother : m.key ≠ key := by
    rintro rfl
    have hlt := lt_truncHour_add m.recordedAt
    simp only [DeviceMetric.key] at hle
    omega
  have hbucket : bucketOf key (history (.heartbeat m :: run)) = bucketOf key (history run) :=
    List.filter_cons_of_neg (by simpa using hother)
  rw [hbucket]
  exact h key row hrow

/-- If the latest execution did not split a bucket, its raw samples are all or none. -/
theorem bucketOf_raw (ht : Timely run) {key : String × Int}
    (hunsplit : ∀ now, (retentions run).head? = some now →
      ∀ m ∈ bucketOf key (history run), ∀ m' ∈ bucketOf key (history run),
        m.recordedAt < rawCutoff env now → m'.recordedAt < rawCutoff env now)
    (hne : bucketOf key (store env run).raw ≠ []) :
    bucketOf key (store env run).raw = bucketOf key (history run) := by
  obtain ⟨m', hm'⟩ := List.exists_mem_of_ne_nil _ hne
  obtain ⟨hm', hkey'⟩ := mem_bucketOf.mp hm'
  rw [raw_store ht, List.mem_filter, decide_eq_true_eq] at hm'
  rw [raw_store ht, bucketOf, bucketOf, List.filter_filter]
  refine List.filter_congr fun m hm ↦ ?_
  by_cases hkey : m.key = key
  · have hkept : ∀ t ∈ retentions run, rawCutoff env t ≤ m.recordedAt := by
      intro t hmem
      obtain ⟨now, hnow⟩ : ∃ now, (retentions run).head? = some now := by
        cases hr : retentions run with
        | nil => simp [hr] at hmem
        | cons u us => exact ⟨u, rfl⟩
      have hmono : rawCutoff env t ≤ rawCutoff env now :=
        rawCutoff_mono (le_of_head?_retentions ht hnow hmem)
      have hlatest : rawCutoff env now ≤ m'.recordedAt :=
        hm'.2 now (List.mem_of_mem_head? hnow)
      by_contra hlt
      have := hunsplit now hnow m (mem_bucketOf.mpr ⟨hm, hkey⟩) m'
        (mem_bucketOf.mpr ⟨hm'.1, hkey'⟩) (by omega)
      omega
    simp only [hkey, decide_true, Bool.true_and]
    exact decide_eq_true hkept
  · simp [hkey]

theorem exact_of_unsplit (ht : Timely run) (h : Unsplit env run) : Exact env run := by
  induction run with
  | nil => exact fun _ _ h ↦ (nomatch h)
  | cons e run ih =>
      have hrest : Timely run := (List.pairwise_cons.mp ht).2
      have hexact : Exact env run :=
        ih hrest fun next earlier hsuffix ↦ h next earlier (hsuffix.trans (List.suffix_cons e run))
      cases e with
      | heartbeat m => exact hexact.heartbeat ht
      | retention next =>
          intro key row hrow
          change (runMetricRetention env next (store env run)).2.hourly.find? key = some row at hrow
          rw [runMetricRetention_hourly] at hrow
          split at hrow
          · contradiction
          rename_i hkept
          split at hrow
          · rename_i hwritten
            cases hrow
            rw [bucketOf_raw hrest (fun now hnow ↦ h next run (List.suffix_refl _) now hnow key
              (by omega)) hwritten.1]
            rfl
          · exact hexact key row hrow

/-! ## Split buckets do not -/

/-- The execution after a split finds a part of the samples and writes a wrong row. -/
theorem not_exact_of_split {next now : Int} {earlier : MetricRun}
    (ht : Timely (.retention next :: earlier)) (hnow : (retentions earlier).head? = some now)
    {key : String × Int} (hkept : hourlyCutoff env next ≤ key.2) {m m' : DeviceMetric}
    (hm : m ∈ bucketOf key (history earlier)) (hm' : m' ∈ bucketOf key (history earlier))
    (hlt : m.recordedAt < rawCutoff env now) (hle : rawCutoff env now ≤ m'.recordedAt) :
    ¬ Exact env (.retention next :: earlier) := by
  intro hexact
  obtain ⟨hfirst, hrest⟩ := List.pairwise_cons.mp ht
  have hmem : now ∈ retentions earlier := List.mem_of_mem_head? hnow
  have hremains : m' ∈ bucketOf key (store env earlier).raw := by
    obtain ⟨hm', hkey⟩ := mem_bucketOf.mp hm'
    rw [mem_bucketOf, raw_store hrest, List.mem_filter, decide_eq_true_eq]
    exact ⟨⟨hm', fun t hmem ↦ (rawCutoff_mono (le_of_head?_retentions hrest hnow hmem)).trans hle⟩,
      hkey⟩
  have hclosed : key.2 + HOUR ≤ truncHour next := by
    obtain ⟨-, rfl⟩ := mem_bucketOf.mp hm
    have hnext : now ≤ next := hfirst _ (mem_retentions.mp hmem)
    exact (closed_of_lt_rawCutoff hlt).trans (truncHour_mono hnext)
  have hrow : (store env (.retention next :: earlier)).hourly.find? key =
      some (aggregate (bucketOf key (store env earlier).raw)) := by
    show (runMetricRetention env next (store env earlier)).2.hourly.find? key = _
    rw [runMetricRetention_hourly, if_neg (by omega),
      if_pos ⟨List.ne_nil_of_mem hremains, hclosed⟩]
  have hcount : (bucketOf key (store env earlier).raw).length =
      (bucketOf key (history earlier)).length :=
    congrArg DeviceMetricHourly.samples (hexact key _ hrow)
  have hsub : (bucketOf key (store env earlier).raw).Sublist (bucketOf key (history earlier)) := by
    rw [raw_store hrest]
    exact List.filter_sublist.filter _
  rw [← hsub.eq_of_length hcount, mem_bucketOf, raw_store hrest, List.mem_filter,
    decide_eq_true_eq] at hm
  have := hm.1.2 now hmem
  omega

end Runs

/-! ## Executions on the hour -/

/-- An execution on the hour prunes whole hours, so a deployment that only ever executes on
the hour splits no bucket. -/
theorem unsplit_of_aligned {env : RetentionEnv} {run : MetricRun}
    (h : ∀ t ∈ retentions run, HOUR ∣ t) : Unsplit env run := by
  intro next earlier hsuffix now hnow key _ m hm m' hm' hlt
  obtain ⟨-, hkey⟩ := mem_bucketOf.mp hm
  obtain ⟨-, hkey'⟩ := mem_bucketOf.mp hm'
  have hmem : now ∈ retentions run :=
    mem_retentions.mpr (hsuffix.subset (List.mem_cons_of_mem _
      (mem_retentions.mp (List.mem_of_mem_head? hnow))))
  have hcut : HOUR ∣ rawCutoff env now :=
    Int.dvd_sub (h now hmem) (Int.dvd_mul_left _ _)
  have hsame : truncHour m'.recordedAt = truncHour m.recordedAt :=
    congrArg Prod.snd (hkey'.trans hkey.symm)
  have hbefore := truncHour_le m.recordedAt
  have hover := add_hour_le (truncHour_dvd m.recordedAt) hcut (by omega)
  have hwithin := lt_truncHour_add m'.recordedAt
  omega

end MetricRun

open MetricRun in
/-- After every execution all hourly rows are exact, if and only if no execution splits a
bucket whose row is still kept after the next one. -/
theorem runMetricRetention_exact (env : RetentionEnv) (run : MetricRun) (ht : Timely run) :
    (∀ now earlier, .retention now :: earlier <:+ run → Exact env (.retention now :: earlier)) ↔
      Unsplit env run := by
  constructor
  · intro h next earlier hsuffix now hnow key hkept m hm m' hm' hlt
    by_contra hge
    exact not_exact_of_split (ht.sublist hsuffix.sublist) hnow hkept hm hm' hlt (by omega)
      (h next earlier hsuffix)
  · intro h now earlier hsuffix
    exact exact_of_unsplit (ht.sublist hsuffix.sublist) fun next earlier' hsuffix' ↦
      h next earlier' (hsuffix'.trans hsuffix)

/-- Two samples of one hour. -/
def twoSamples : MetricRun :=
  [.heartbeat { deviceId := "dev", cpuPercent := 90, recordedAt := 50 * 60 * 1000 },
    .heartbeat { deviceId := "dev", cpuPercent := 10, recordedAt := 10 * 60 * 1000 }]

/-- Executions on the hour. -/
def onTheHour : MetricRun :=
  .retention (49 * HOUR) :: .retention (48 * HOUR) :: twoSamples

/-- With the default settings the row of the two samples stays exact. -/
theorem runMetricRetention_exact_aligned :
    ((MetricRun.store {} onTheHour).hourly.find? ("dev", 0)).map (·.samples) = some 2 ∧
    ∀ now earlier, .retention now :: earlier <:+ onTheHour →
      MetricRun.Exact {} (.retention now :: earlier) := by
  refine ⟨by decide, ?_⟩
  have htimely : MetricRun.Timely onTheHour := by
    simp [MetricRun.Timely, onTheHour, twoSamples, MetricEvent.time, HOUR]
  exact (runMetricRetention_exact {} onTheHour htimely).mpr
    (MetricRun.unsplit_of_aligned (by decide))

/-- The same samples with executions half past the hour. -/
def halfPast : MetricRun :=
  .retention (49 * HOUR + 30 * 60 * 1000) :: .retention (48 * HOUR + 30 * 60 * 1000) :: twoSamples

/-- With the default settings the second execution counts one of the two samples. -/
theorem runMetricRetention_inexact :
    MetricRun.Timely halfPast ∧ ¬ MetricRun.Exact {} halfPast := by
  refine ⟨by simp [MetricRun.Timely, halfPast, twoSamples, MetricEvent.time, HOUR], fun h ↦ ?_⟩
  have hcount : ((MetricRun.store {} halfPast).hourly.find? ("dev", 0)).map (·.samples) =
      some 1 := by decide
  obtain ⟨row, hrow, hsamples⟩ := Option.map_eq_some_iff.mp hcount
  rw [h _ row hrow] at hsamples
  exact absurd hsamples (by decide)

end Zenstier
