import Zenstier.Agent.Checked
import Mathlib.Data.Rat.Floor
import Mathlib.Data.List.Basic

/-!
# The resource sample

`metrics.go` samples the host from files under `/proc` and from `statfs`.  Counters are 64-bit
words; percentages are exact rationals.  The CPU usage is a difference to the reading before.
-/

namespace Zenstier

namespace HostMetrics

/-! ## Texts -/

/-- `unicode.IsSpace`. -/
def isSpace (c : Char) : Bool :=
  c.toNat ∈ [0x9, 0xA, 0xB, 0xC, 0xD, 0x20, 0x85, 0xA0, 0x1680, 0x2028, 0x2029, 0x202F, 0x205F,
    0x3000] ∨ (0x2000 ≤ c.toNat ∧ c.toNat ≤ 0x200A)

/-- `strings.Fields`. -/
def fields (s : String) : List String :=
  ((s.toList.splitOnP isSpace).filter (· ≠ [])).map String.ofList

/-- `strings.Cut(s, ":")`. -/
def cutColon (s : String) : Option (String × String) :=
  if ':' ∈ s.toList then
    some (String.ofList (s.toList.takeWhile (· ≠ ':')),
      String.ofList ((s.toList.dropWhile (· ≠ ':')).drop 1))
  else none

/-- `strconv.ParseUint(s, 10, 64)`. -/
def parseUint (s : String) : Option UInt64 :=
  if s ≠ "" ∧ s.toList.all Char.isDigit then
    let n := s.toList.foldl (fun n c ↦ n * 10 + (c.toNat - 48)) 0
    if n < 2 ^ 64 then some (UInt64.ofNat n) else none
  else none

/-- The lines that a scanner finds in a file, and whether it stops with an error after them. -/
structure Scan where
  lines : List String
  failed : Bool := false
deriving DecidableEq, Repr

/-! ## Readings -/

structure CpuTimes where
  idle : UInt64 := 0
  total : UInt64 := 0
deriving DecidableEq, Repr

/-- The loop over the counters of a line, from the `i`-th on. -/
def sumTimes (i : Nat) (times : CpuTimes) : List String → Checked CpuTimes
  | [] => pure times
  | raw :: rest => match parseUint raw with
      | none => sumTimes (i + 1) times rest
      | some v => do
          let total ← Checked.add times.total v
          -- user nice system idle iowait irq softirq ...
          let idle ← if i = 3 ∨ i = 4 then Checked.add times.idle v else pure times.idle
          sumTimes (i + 1) { idle := idle, total := total } rest

/-- The counters of the first line about the CPU. -/
def cpuLine (scan : Scan) : Option (List String) :=
  ((scan.lines.map fields).find? fun fields ↦ 5 ≤ fields.length ∧ fields.head? = some "cpu").map
    List.tail

/-- `readCPU`, of `/proc/stat` if it can be opened. -/
def readCPU : Option Scan → Checked (Option CpuTimes)
  | none => pure none
  | some scan => match cpuLine scan with
      | some counters => do return some (← sumTimes 0 {} counters)
      | none => pure (if scan.failed then none else some {})

/-- `MemTotal` and `MemAvailable`, as far as they have been read. -/
structure MemInfo where
  total : UInt64 := 0
  available : UInt64 := 0
deriving DecidableEq, Repr

/-- The key of a line, and its number. -/
def memField (line : String) : Option (String × UInt64) := do
  let (key, value) ← cutColon line
  let raw ← (fields value).head?
  let n ← parseUint raw
  return (key, n)

/-- The loop of `readMem`, and whether it has been left before the end. -/
def memLoop (m : MemInfo) : List String → MemInfo × Bool
  | [] => (m, false)
  | line :: rest => match memField line with
      | none => memLoop m rest
      | some (key, n) =>
          let m : MemInfo :=
            if key = "MemTotal" then { m with total := n }
            else if key = "MemAvailable" then { m with available := n }
            else m
          if 0 < m.total ∧ 0 < m.available then (m, true) else memLoop m rest

/-- `readMem`, of `/proc/meminfo` if it can be opened. -/
def readMem : Option Scan → Option MemInfo
  | none => none
  | some scan =>
      let (m, left) := memLoop {} scan.lines
      if scan.failed ∧ left = false then none else some m

/-- What `readDisk` reads of a `Statfs_t`. -/
structure Statfs where
  Bsize : Int64
  Blocks : UInt64
  Bfree : UInt64
deriving DecidableEq, Repr

structure DiskInfo where
  total : UInt64
  used : UInt64
deriving DecidableEq, Repr

/-- `readDisk`, of what `statfs` gives if it does not fail. -/
def readDisk : Option Statfs → Checked (Option DiskInfo)
  | none => pure none
  | some st => do
      let bsize ← Checked.ofInt64 st.Bsize
      let blockKB := bsize / 1024
      let total ← Checked.mul st.Blocks blockKB
      let blocks ← Checked.sub st.Blocks st.Bfree
      let used ← Checked.mul blocks blockKB
      return some { total := total, used := used }

/-! ## The sample -/

/-- `int(f)`. -/
def truncate (f : ℚ) : ℤ := if 0 ≤ f then ⌊f⌋ else ⌈f⌉

def round2 (f : ℚ) : ℚ := truncate (f * 100 + 1 / 2) / 100

/-- How much of something is used. -/
structure Usage where
  total : UInt64 := 0
  used : UInt64 := 0
  percent : ℚ := 0
deriving DecidableEq

def usage (total used : UInt64) : Usage where
  total := total
  used := used
  percent := round2 ((used.toNat : ℚ) / total.toNat * 100)

/-- The memory of the sample. -/
def memUsage (meminfo : Option Scan) : Checked Usage := match readMem meminfo with
  | some m =>
      if 0 < m.total then do return usage m.total (← Checked.sub m.total m.available)
      else pure {}
  | none => pure {}

/-- The disk of the sample. -/
def diskUsage (st : Option Statfs) : Checked Usage := do
  match ← readDisk st with
  | some d => return if 0 < d.total then usage d.total d.used else {}
  | none => return {}

/-- `cpuPercent`, and the reading that is kept for the next time. -/
def cpuPercent (prev : CpuTimes) (stat : Option Scan) : Checked (ℚ × CpuTimes) := do
  match ← readCPU stat with
  | none => return (0, prev)
  | some now =>
      if prev.total = 0 ∨ now.total ≤ prev.total then return (0, now)
      else
        let totalDelta ← Checked.sub now.total prev.total
        let idleDelta ← Checked.sub now.idle prev.idle
        if totalDelta = 0 then return (0, now)
        else return (round2 ((1 - (idleDelta.toNat : ℚ) / totalDelta.toNat) * 100), now)

/-- What the kernel gives. -/
structure Host where
  stat : Option Scan
  meminfo : Option Scan
  root : Option Statfs
  /-- The loads and the number of running processes. -/
  loadavg : Option (ℚ × ℚ × ℚ × Int) := none
  uptime : Option UInt64 := none
deriving DecidableEq

structure Sample where
  CPUPercent : ℚ
  mem : Usage
  disk : Usage
  load : ℚ × ℚ × ℚ
  UptimeSec : UInt64
  Processes : Int
deriving DecidableEq

/-- `Collect`, after a reading of the CPU times. -/
def collect (lastCPU : CpuTimes) (host : Host) : Checked (Sample × CpuTimes) := do
  let (load1, load5, load15, processes) := host.loadavg.getD (0, 0, 0, 0)
  let mem ← memUsage host.meminfo
  let disk ← diskUsage host.root
  let (percent, lastCPU) ← cpuPercent lastCPU host.stat
  return ({
    CPUPercent := percent
    mem := mem
    disk := disk
    load := (load1, load5, load15)
    UptimeSec := host.uptime.getD 0
    Processes := processes }, lastCPU)

/-! ## Rounding -/

theorem truncate_nonneg {f : ℚ} : 0 ≤ truncate f ↔ -1 < f := by
  rw [truncate]
  split
  · rename_i h
    exact iff_of_true (Int.floor_nonneg.mpr h) (lt_of_lt_of_le (by norm_num) h)
  · rw [show 0 ≤ ⌈f⌉ ↔ -1 < ⌈f⌉ by omega, Int.lt_ceil]
    norm_num

theorem truncate_le {f : ℚ} {n : ℤ} (hn : 0 ≤ n) (h : f < n + 1) : truncate f ≤ n := by
  rw [truncate]
  split
  · exact Int.lt_add_one_iff.mp (Int.floor_lt.mpr (by exact_mod_cast h))
  · rename_i hneg
    exact (Int.ceil_le.mpr (by push_cast; linarith)).trans hn

theorem round2_le {f : ℚ} (h : f ≤ 100) : round2 f ≤ 100 := by
  have hle : truncate (f * 100 + 1 / 2) ≤ 10000 := truncate_le (by decide) (by norm_num; linarith)
  rw [round2, div_le_iff₀ (by norm_num)]
  exact_mod_cast hle

/-- A hundredth is rounded to the nearest one, but towards zero. -/
theorem round2_nonneg {f : ℚ} : 0 ≤ round2 f ↔ -3 / 200 < f := by
  rw [round2, le_div_iff₀ (by norm_num), zero_mul, Int.cast_nonneg_iff, truncate_nonneg]
  constructor <;> intro h <;> linarith

/-! ## Memory and disk -/

/-- A part of a total that is not zero. -/
theorem usage_percent {total used : UInt64} (h : used.toNat ≤ total.toNat) (hpos : 0 < total) :
    0 ≤ (usage total used).percent ∧ (usage total used).percent ≤ 100 := by
  have htotal : (0 : ℚ) < total.toNat := by exact_mod_cast UInt64.lt_iff_toNat_lt.mp hpos
  have hratio : (used.toNat : ℚ) / total.toNat ≤ 1 := by
    rw [div_le_one htotal]
    exact_mod_cast h
  have hnonneg : 0 ≤ (used.toNat : ℚ) / total.toNat := by positivity
  exact ⟨round2_nonneg.mpr (by linarith), round2_le (by linarith)⟩

/-- A usage is sound: what is used is part of the total. -/
structure Usage.Sound (u : Usage) : Prop where
  used_le : u.used ≤ u.total
  percent_nonneg : 0 ≤ u.percent
  percent_le : u.percent ≤ 100

theorem Usage.sound_default : Usage.Sound {} where
  used_le := by decide
  percent_nonneg := by decide
  percent_le := by decide

theorem usage_sound {total used : UInt64} (h : used.toNat ≤ total.toNat) (hpos : 0 < total) :
    (usage total used).Sound where
  used_le := UInt64.le_iff_toNat_le.mpr h
  percent_nonneg := (usage_percent h hpos).1
  percent_le := (usage_percent h hpos).2

/-- The available memory is part of the memory. -/
def MemFits (meminfo : Option Scan) : Prop :=
  ∀ m ∈ readMem meminfo, 0 < m.total → m.available.toNat ≤ m.total.toNat

theorem memUsage_iff (meminfo : Option Scan) :
    (memUsage meminfo).exact = true ∧ (memUsage meminfo).value.Sound ↔ MemFits meminfo := by
  rw [memUsage, MemFits]
  cases hread : readMem meminfo with
  | none => simp [Usage.sound_default]
  | some m =>
      simp only [Option.mem_some_iff, forall_eq']
      split
      · rename_i hpos
        simp only [Checked.exact_bind, Checked.exact_sub, Checked.exact_pure, and_true,
          Checked.value_bind, Checked.value_pure]
        constructor
        · exact fun h _ ↦ h.1
        · intro h
          refine ⟨h hpos, usage_sound ?_ hpos⟩
          rw [Checked.toNat_sub (h hpos)]
          exact Nat.sub_le _ _
      · rename_i hpos
        exact iff_of_true ⟨rfl, Usage.sound_default⟩ fun h ↦ absurd h hpos

/-- The blocks that are free are some of the blocks, and their size fits. -/
structure Statfs.Fits (st : Statfs) : Prop where
  size : 0 ≤ st.Bsize
  free : st.Bfree.toNat ≤ st.Blocks.toNat
  total : st.Blocks.toNat * (st.Bsize.toUInt64 / 1024).toNat < 2 ^ 64

/-- What is used and the total of a file system whose size fits. -/
theorem readDisk_of_fits {st : Statfs} (h : st.Fits) :
    (readDisk (some st)).exact = true ∧
      ∃ d, (readDisk (some st)).value = some d ∧ d.used.toNat ≤ d.total.toNat := by
  obtain ⟨hsize, hfree, htotal⟩ := h
  have hblocks := Checked.toNat_sub hfree
  have hle : (Checked.sub st.Blocks st.Bfree).value.toNat * (st.Bsize.toUInt64 / 1024).toNat ≤
      st.Blocks.toNat * (st.Bsize.toUInt64 / 1024).toNat :=
    Nat.mul_le_mul_right _ (hblocks ▸ Nat.sub_le _ _)
  have hused := lt_of_le_of_lt hle htotal
  constructor
  · simp only [readDisk, Checked.exact_bind, Checked.exact_ofInt64, Checked.exact_mul,
      Checked.exact_sub, Checked.exact_pure]
    exact ⟨hsize, htotal, hfree, hused, trivial⟩
  · refine ⟨_, rfl, ?_⟩
    change
      (Checked.mul (Checked.sub st.Blocks st.Bfree).value (st.Bsize.toUInt64 / 1024)).value.toNat ≤
      (Checked.mul st.Blocks (st.Bsize.toUInt64 / 1024)).value.toNat
    rw [Checked.toNat_mul hused, Checked.toNat_mul htotal]
    exact hle

theorem diskUsage_iff (st : Option Statfs) :
    (diskUsage st).exact = true ∧ (diskUsage st).value.Sound ↔ ∀ s ∈ st, s.Fits := by
  cases st with
  | none => simp [diskUsage, readDisk, Usage.sound_default]
  | some st =>
      simp only [Option.mem_some_iff, forall_eq']
      constructor
      · rintro ⟨hexact, -⟩
        simp only [diskUsage, readDisk, Checked.exact_bind, Checked.exact_ofInt64,
          Checked.exact_mul, Checked.exact_sub] at hexact
        exact { size := hexact.1.1, total := hexact.1.2.1, free := hexact.1.2.2.1 }
      · intro hfits
        obtain ⟨hexact, d, hd, hle⟩ := readDisk_of_fits hfits
        rw [diskUsage, Checked.exact_bind, Checked.value_bind, hd]
        refine ⟨⟨hexact, rfl⟩, ?_⟩
        dsimp only
        rw [Checked.value_pure]
        split
        · exact usage_sound hle ‹_›
        · exact Usage.sound_default

/-! ## CPU times -/

/-- The counters that can be parsed, with their places from the `i`-th on. -/
def placed (i : Nat) : List String → List (Nat × UInt64)
  | [] => []
  | raw :: rest => match parseUint raw with
      | none => placed (i + 1) rest
      | some v => (i, v) :: placed (i + 1) rest

/-- The sum of the counters. -/
def totalOf : List (Nat × UInt64) → Nat
  | [] => 0
  | c :: counters => c.2.toNat + totalOf counters

/-- The sum of the counters `idle` and `iowait`. -/
def idleOf : List (Nat × UInt64) → Nat
  | [] => 0
  | c :: counters => (if c.1 = 3 ∨ c.1 = 4 then c.2.toNat else 0) + idleOf counters

/-- The times after a counter, if the total fits. -/
def CpuTimes.count (times : CpuTimes) (i : Nat) (v : UInt64) : CpuTimes where
  idle := if i = 3 ∨ i = 4 then times.idle + v else times.idle
  total := times.total + v

theorem sumTimes_cons {raw : String} {v : UInt64} (hraw : parseUint raw = some v)
    (rest : List String) (i : Nat) {times : CpuTimes} (h : times.idle ≤ times.total) :
    (sumTimes i times (raw :: rest)).value = (sumTimes (i + 1) (times.count i v) rest).value ∧
    ((sumTimes i times (raw :: rest)).exact = true ↔ times.total.toNat + v.toNat < 2 ^ 64 ∧
      (sumTimes (i + 1) (times.count i v) rest).exact = true) := by
  have hle := UInt64.le_iff_toNat_le.mp h
  rw [sumTimes, hraw]
  dsimp only
  split
  · rename_i hidle
    have hcount : times.count i v = ⟨times.idle + v, times.total + v⟩ := by
      rw [CpuTimes.count, if_pos hidle]
    rw [hcount]
    refine ⟨rfl, ?_⟩
    simp only [Checked.exact_bind, Checked.exact_add]
    constructor
    · exact fun h ↦ ⟨h.1, h.2.2⟩
    · exact fun h ↦ ⟨h.1, by omega, h.2⟩
  · rename_i hidle
    have hcount : times.count i v = ⟨times.idle, times.total + v⟩ := by
      rw [CpuTimes.count, if_neg hidle]
    rw [hcount]
    refine ⟨rfl, ?_⟩
    simp only [Checked.exact_bind, Checked.exact_add, Checked.exact_pure, true_and,
      Checked.value_pure]
    rfl

theorem CpuTimes.toNat_count {times : CpuTimes} (h : times.idle ≤ times.total) (i : Nat)
    {v : UInt64} (hfit : times.total.toNat + v.toNat < 2 ^ 64) :
    (times.count i v).total.toNat = times.total.toNat + v.toNat ∧
      (times.count i v).idle.toNat =
        times.idle.toNat + (if i = 3 ∨ i = 4 then v.toNat else 0) := by
  have hle := UInt64.le_iff_toNat_le.mp h
  constructor
  · exact Checked.toNat_add hfit
  · rw [CpuTimes.count]
    dsimp only
    split
    · exact Checked.toNat_add (by omega)
    · rfl

/-- No addition wraps if and only if the total fits; then the sums are right. -/
theorem sumTimes_spec (raws : List String) (i : Nat) {times : CpuTimes}
    (h : times.idle ≤ times.total) :
    ((sumTimes i times raws).exact = true ↔
      times.total.toNat + totalOf (placed i raws) < 2 ^ 64) ∧
    (times.total.toNat + totalOf (placed i raws) < 2 ^ 64 →
      (sumTimes i times raws).value.total.toNat = times.total.toNat + totalOf (placed i raws) ∧
      (sumTimes i times raws).value.idle.toNat = times.idle.toNat + idleOf (placed i raws)) := by
  induction raws generalizing i times with
  | nil => exact ⟨iff_of_true rfl times.total.toNat_lt, fun _ ↦ ⟨rfl, rfl⟩⟩
  | cons raw rest ih =>
      cases hraw : parseUint raw with
      | none =>
          have hplaced : placed i (raw :: rest) = placed (i + 1) rest := by rw [placed, hraw]
          rw [sumTimes, hraw, hplaced]
          exact ih (i + 1) h
      | some v =>
          have hplaced : placed i (raw :: rest) = (i, v) :: placed (i + 1) rest := by
            rw [placed, hraw]
          obtain ⟨hvalue, hexact⟩ := sumTimes_cons hraw rest i h
          rw [hvalue, hexact, hplaced, totalOf, idleOf]
          dsimp only
          by_cases hfit : times.total.toNat + v.toNat < 2 ^ 64
          · obtain ⟨htotal, hidle⟩ := CpuTimes.toNat_count h i hfit
            have hle : (times.count i v).idle ≤ (times.count i v).total := by
              have := UInt64.le_iff_toNat_le.mp h
              rw [UInt64.le_iff_toNat_le, htotal, hidle]
              split <;> omega
            have hrest := ih (i + 1) hle
            rw [htotal, hidle, Nat.add_assoc, Nat.add_assoc] at hrest
            exact ⟨(and_iff_right hfit).trans hrest.1, hrest.2⟩
          · exact ⟨iff_of_false (fun hboth ↦ hfit hboth.1) (by omega), fun hsum ↦ by omega⟩

/-- The counters of a reading. -/
def counters (stat : Option Scan) : List (Nat × UInt64) :=
  placed 0 ((stat.bind cpuLine).getD [])

/-- Without a line about the CPU, or without the file, the counters count as zero. -/
theorem readCPU_spec (stat : Option Scan) :
    ((readCPU stat).exact = true ↔ totalOf (counters stat) < 2 ^ 64) ∧
    (totalOf (counters stat) < 2 ^ 64 → match (readCPU stat).value with
      | none => totalOf (counters stat) = 0
      | some now => now.total.toNat = totalOf (counters stat) ∧
          now.idle.toNat = idleOf (counters stat)) := by
  cases stat with
  | none => exact ⟨iff_of_true rfl (by decide), fun _ ↦ rfl⟩
  | some scan =>
      rw [readCPU, counters, Option.bind_some]
      cases cpuLine scan with
      | none =>
          refine ⟨iff_of_true rfl (by decide), fun _ ↦ ?_⟩
          cases scan.failed
          · exact ⟨rfl, rfl⟩
          · rfl
      | some raws =>
          obtain ⟨hexact, hvalue⟩ := sumTimes_spec raws 0 (show ({} : CpuTimes).idle ≤ 0 by decide)
          have hzero : ({} : CpuTimes).total.toNat = 0 := rfl
          rw [hzero, Nat.zero_add] at hexact
          rw [hzero, Nat.zero_add, Nat.zero_add] at hvalue
          exact ⟨by simpa using hexact, hvalue⟩

/-- The total fits, and if it has grown, then the idle times have not shrunk, nor grown by more
than rounding hides. -/
structure CpuFits (prev : CpuTimes) (stat : Option Scan) : Prop where
  total : totalOf (counters stat) < 2 ^ 64
  idle : prev.total ≠ 0 → prev.total.toNat < totalOf (counters stat) →
    prev.idle.toNat ≤ idleOf (counters stat) ∧
      20000 * (idleOf (counters stat) - prev.idle.toNat) <
        20003 * (totalOf (counters stat) - prev.total.toNat)

theorem percent_iff {idleDelta totalDelta : ℕ} (h : 0 < totalDelta) :
    0 ≤ round2 ((1 - (idleDelta : ℚ) / totalDelta) * 100) ∧
      round2 ((1 - (idleDelta : ℚ) / totalDelta) * 100) ≤ 100 ↔
    20000 * idleDelta < 20003 * totalDelta := by
  have htotal : (0 : ℚ) < totalDelta := by exact_mod_cast h
  have hratio : 0 ≤ (idleDelta : ℚ) / totalDelta := by positivity
  rw [and_iff_left (round2_le (by linarith)), round2_nonneg]
  have hcast : 20000 * idleDelta < 20003 * totalDelta ↔
      (idleDelta : ℚ) / totalDelta < 20003 / 20000 := by
    rw [div_lt_div_iff₀ htotal (by norm_num), mul_comm (idleDelta : ℚ)]
    exact_mod_cast Iff.rfl
  rw [hcast]
  constructor <;> intro hlt <;> linarith

theorem cpuPercent_iff (prev : CpuTimes) (stat : Option Scan) :
    ((cpuPercent prev stat).exact = true ∧ 0 ≤ (cpuPercent prev stat).value.1 ∧
      (cpuPercent prev stat).value.1 ≤ 100) ↔ CpuFits prev stat := by
  obtain ⟨hexact, hvalue⟩ := readCPU_spec stat
  rw [cpuPercent, Checked.exact_bind, Checked.value_bind, hexact]
  by_cases hfit : totalOf (counters stat) < 2 ^ 64
  swap
  · exact iff_of_false (fun h ↦ hfit h.1.1) fun h ↦ hfit h.total
  have hread := hvalue hfit
  cases hnow : (readCPU stat).value with
  | none =>
      rw [hnow] at hread
      dsimp only at hread ⊢
      refine iff_of_true ⟨⟨hfit, rfl⟩, le_refl _, by norm_num⟩ { total := hfit, idle := ?_ }
      intro _ hgrown
      omega
  | some now =>
      rw [hnow] at hread
      dsimp only at hread ⊢
      obtain ⟨htotal, hidle⟩ := hread
      split
      · rename_i hskip
        refine iff_of_true ⟨⟨hfit, rfl⟩, le_refl _, by norm_num⟩ { total := hfit, idle := ?_ }
        intro hne hgrown
        have hle := UInt64.le_iff_toNat_le.mp (hskip.resolve_left hne)
        omega
      · rename_i hgrown
        obtain ⟨hne, hlt⟩ := not_or.mp hgrown
        rw [UInt64.le_iff_toNat_le, Nat.not_le, htotal] at hlt
        have hdelta : (Checked.sub now.total prev.total).value.toNat =
            totalOf (counters stat) - prev.total.toNat := by
          rw [Checked.toNat_sub (by omega), htotal]
        have hnonzero : (Checked.sub now.total prev.total).value ≠ 0 := by
          rw [← UInt64.toNat_inj.ne, hdelta]
          change _ ≠ 0
          omega
        rw [Checked.exact_bind, Checked.exact_bind, Checked.value_bind, Checked.value_bind,
          if_neg hnonzero, Checked.exact_sub, Checked.exact_sub, htotal, hidle, hdelta]
        constructor
        · rintro ⟨⟨-, -, hsub, -⟩, hpercent⟩
          refine { total := hfit, idle := fun _ _ ↦ ⟨hsub, ?_⟩ }
          rw [← hidle, ← Checked.toNat_sub (hidle ▸ hsub)]
          exact (percent_iff (by omega)).mp hpercent
        · intro hcpu
          obtain ⟨hsub, hround⟩ := hcpu.idle hne hlt
          rw [← hidle, ← Checked.toNat_sub (hidle ▸ hsub)] at hround
          exact ⟨⟨hfit, by omega, hsub, rfl⟩, (percent_iff (by omega)).mpr hround⟩

/-! ## The whole sample -/

/-- Percentages are percentages, and what is used is part of the total. -/
structure Sample.Sound (s : Sample) : Prop where
  cpu_nonneg : 0 ≤ s.CPUPercent
  cpu_le : s.CPUPercent ≤ 100
  mem : s.mem.Sound
  disk : s.disk.Sound

/-- What the kernel gives has the relations that the subtractions rely on. -/
structure Host.Fits (lastCPU : CpuTimes) (host : Host) : Prop where
  cpu : CpuFits lastCPU host.stat
  mem : MemFits host.meminfo
  disk : ∀ st ∈ host.root, st.Fits

/-- `Collect` does not wrap around, and its sample is sound, if and only if what the kernel gives
fits. -/
theorem collect_sound_iff (lastCPU : CpuTimes) (host : Host) :
    ((collect lastCPU host).exact = true ∧ (collect lastCPU host).value.1.Sound) ↔
      host.Fits lastCPU := by
  have hexact : (collect lastCPU host).exact = true ↔ (memUsage host.meminfo).exact = true ∧
      (diskUsage host.root).exact = true ∧ (cpuPercent lastCPU host.stat).exact = true := by
    simp only [collect, Checked.exact_bind, Checked.exact_pure, and_true]
  rw [hexact]
  constructor
  · rintro ⟨⟨hmem, hdisk, hcpu⟩, hsound⟩
    exact {
      cpu := (cpuPercent_iff lastCPU host.stat).mp ⟨hcpu, hsound.cpu_nonneg, hsound.cpu_le⟩
      mem := (memUsage_iff host.meminfo).mp ⟨hmem, hsound.mem⟩
      disk := (diskUsage_iff host.root).mp ⟨hdisk, hsound.disk⟩ }
  · intro hfits
    obtain ⟨hcpu, hnonneg, hle⟩ := (cpuPercent_iff lastCPU host.stat).mpr hfits.cpu
    obtain ⟨hmem, hmemSound⟩ := (memUsage_iff host.meminfo).mpr hfits.mem
    obtain ⟨hdisk, hdiskSound⟩ := (diskUsage_iff host.root).mpr hfits.disk
    exact ⟨⟨hmem, hdisk, hcpu⟩,
      { cpu_nonneg := hnonneg, cpu_le := hle, mem := hmemSound, disk := hdiskSound }⟩

/-- A host of which only the CPU times are known. -/
def hostOf (line : String) : Host where
  stat := some { lines := [line] }
  meminfo := none
  root := none

/-- The total grows by 190, but `iowait` falls by more than `idle` grows. -/
theorem collect_wraps :
    let first := (collect {} (hostOf "cpu  100 0 100 1000 500 0 0")).value.2
    let second := collect first (hostOf "cpu  300 0 100 1010 480 0 0")
    first.total < second.value.2.total ∧ second.exact = false ∧
      second.value.1.CPUPercent < 0 := by
  decide +kernel

end HostMetrics

end Zenstier
