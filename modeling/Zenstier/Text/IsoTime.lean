import Mathlib.Data.List.Basic
import Mathlib.Tactic.IntervalCases
import Mathlib.Tactic.Ring

/-!
# Times as text

An instant, in milliseconds since 1970, as JavaScript writes it in ISO 8601, and the reader of RFC
3339 that Go has.  The days of the Gregorian calendar are counted in years that begin in March, so
that a leap day is the last day of its year: in cycles of four hundred years, of a hundred, of
four, and single ones.
-/

namespace IsoTime

/-! ## The calendar -/

structure Date where
  year : Int
  month : Int
  day : Int
deriving DecidableEq, Repr

def Leap (year : Int) : Prop := year % 4 = 0 ∧ (year % 100 ≠ 0 ∨ year % 400 = 0)

instance (year : Int) : Decidable (Leap year) := by
  unfold Leap; infer_instance

def daysIn (year month : Int) : Int :=
  if month = 2 then if Leap year then 29 else 28
  else if month = 4 ∨ month = 6 ∨ month = 9 ∨ month = 11 then 30
  else 31

/-- A day of the calendar. -/
def Date.Valid (d : Date) : Prop :=
  1 ≤ d.month ∧ d.month ≤ 12 ∧ 1 ≤ d.day ∧ d.day ≤ daysIn d.year d.month

instance (d : Date) : Decidable d.Valid := by
  unfold Date.Valid; infer_instance

/-- The years that begin in March up to a day, by the cycles that have passed, and the day in the
last of them. -/
structure MarchYear where
  fours : Int
  centuries : Int
  leaps : Int
  single : Int
  day : Int

/-- The number of the year that begins in March. -/
def MarchYear.year (y : MarchYear) : Int :=
  400 * y.fours + 100 * y.centuries + 4 * y.leaps + y.single

/-- A day by its number since the first of March of the year 0. -/
def marchYear (n : Int) : MarchYear :=
  let inFours := n % 146097
  let centuries := min (inFours / 36524) 3
  let inCentury := inFours - 36524 * centuries
  let inLeap := inCentury % 1461
  let single := min (inLeap / 365) 3
  ⟨n / 146097, centuries, inCentury / 1461, single, inLeap - 365 * single⟩

/-- The month of a day in a year that begins in March, from 0. -/
def marchMonth (day : Int) : Int := (5 * day + 2) / 153

def date (n : Int) : Date :=
  let y := marchYear n
  let m := marchMonth y.day
  let day := y.day - (153 * m + 2) / 5 + 1
  if m < 10 then ⟨y.year, m + 3, day⟩ else ⟨y.year + 1, m - 9, day⟩

/-- The number of a day since the first of March of the year 0. -/
def Date.number (d : Date) : Int :=
  let (y, m) := if 2 < d.month then (d.year, d.month - 3) else (d.year - 1, d.month + 9)
  365 * y + y / 4 - y / 100 + y / 400 + (153 * m + 2) / 5 + d.day - 1

/-- A year has its days, and a last one that is left over comes only in a leap year. -/
theorem marchYear_spec (n : Int) : let y := marchYear n
    n = 146097 * y.fours + 36524 * y.centuries + 1461 * y.leaps + 365 * y.single + y.day ∧
    (0 ≤ y.centuries ∧ y.centuries ≤ 3) ∧ (0 ≤ y.leaps ∧ y.leaps ≤ 24) ∧
    (0 ≤ y.single ∧ y.single ≤ 3) ∧ (0 ≤ y.day ∧ y.day ≤ 365) ∧
    (y.day = 365 → y.single = 3 ∧ (y.leaps = 24 → y.centuries = 3)) := by
  intro y
  simp only [y, marchYear]
  omega

/-- The months of a year that begins in March. -/
theorem marchMonth_spec {day : Int} (h : 0 ≤ day ∧ day ≤ 365) : let m := marchMonth day
    0 ≤ m ∧ m ≤ 11 ∧ (153 * m + 2) / 5 ≤ day ∧ day < (153 * (m + 1) + 2) / 5 := by
  intro m
  simp only [m, marchMonth]
  omega

/-- The days up to a year that begins in March. -/
theorem days_before (n : Int) : let y := marchYear n
    365 * y.year + y.year / 4 - y.year / 100 + y.year / 400 + y.day = n := by
  intro y
  obtain ⟨hn, hcenturies, hleaps, hsingle, -, -⟩ := marchYear_spec n
  simp only [y, MarchYear.year]
  omega

theorem date_number (n : Int) : (date n).number = n := by
  obtain ⟨-, -, -, -, hday, -⟩ := marchYear_spec n
  obtain ⟨hm, hm', hstart, -⟩ := marchMonth_spec hday
  have hbefore := days_before n
  unfold date
  dsimp only at *
  split
  · rw [Date.number, if_pos (by dsimp only; omega)]
    dsimp only
    rw [add_sub_cancel_right]
    omega
  · rw [Date.number, if_neg (by dsimp only; omega)]
    dsimp only
    rw [add_sub_cancel_right, sub_add_cancel]
    omega

/-- A year has a last day that is left over only if the next one is a leap year. -/
theorem leap_of_last {n : Int} (h : (marchYear n).day = 365) : Leap ((marchYear n).year + 1) := by
  obtain ⟨-, hcenturies, hleaps, -, -, hlast⟩ := marchYear_spec n
  obtain ⟨hsingle, hfull⟩ := hlast h
  unfold Leap MarchYear.year
  omega

theorem date_valid (n : Int) : (date n).Valid := by
  obtain ⟨-, -, -, -, hday, -⟩ := marchYear_spec n
  obtain ⟨hm, hm', hstart, hend⟩ := marchMonth_spec hday
  have hlast := @leap_of_last n
  unfold date
  dsimp only at *
  generalize (marchYear n).day = day at *
  generalize marchMonth day = m at *
  interval_cases m <;> norm_num [Date.Valid, daysIn] at hstart hend ⊢
  case «11» =>
    split
    · omega
    · rename_i hleap
      have hne : day ≠ 365 := fun h ↦ hleap (hlast h)
      omega
  all_goals omega

/-! ## Digits -/

def digit (n : Nat) : Char := Char.ofNat (48 + n)

/-- The last digits of a number. -/
def pad : Nat → Nat → List Char
  | 0, _ => []
  | w + 1, n => pad w (n / 10) ++ [digit (n % 10)]

def digitValue (c : Char) : Option Nat :=
  if 48 ≤ c.toNat ∧ c.toNat ≤ 57 then some (c.toNat - 48) else none

/-- The number that digits stand for. -/
def number (text : List Char) : Option Nat :=
  text.foldl (fun n c ↦ n.bind fun n ↦ (digitValue c).map fun d ↦ 10 * n + d) (some 0)

theorem digitValue_digit {n : Nat} (h : n < 10) : digitValue (digit n) = some n := by
  interval_cases n <;> rfl

theorem length_pad (w n : Nat) : (pad w n).length = w := by
  induction w generalizing n with
  | zero => rfl
  | succ w ih => rw [pad, List.length_append, ih, List.length_singleton]

theorem number_pad {w n : Nat} (h : n < 10 ^ w) : number (pad w n) = some n := by
  induction w generalizing n with
  | zero => rw [Nat.lt_one_iff.mp h]; rfl
  | succ w ih =>
      have hshorter : n / 10 < 10 ^ w := by
        rw [Nat.div_lt_iff_lt_mul (by norm_num)]
        exact h
      have hnumber := ih hshorter
      rw [number] at hnumber
      rw [pad, number, List.foldl_append, hnumber]
      have hdigit := digitValue_digit (Nat.mod_lt n (by norm_num : 10 > 0))
      simp only [List.foldl_cons, List.foldl_nil, Option.bind_some, hdigit, Option.map_some]
      rw [Nat.div_add_mod]

/-! ## Writing -/

def dayMs : Int := 86400000

/-- The days from the first of March of the year 0 to 1970. -/
def epoch : Int := 719468

/-- The date of an instant. -/
def dateOf (t : Int) : Date := date (t / dayMs + epoch)

/-- A year is written with four digits, or with a sign and six. -/
def yearText (year : Int) : List Char :=
  if 0 ≤ year ∧ year ≤ 9999 then pad 4 year.toNat
  else (if year < 0 then '-' else '+') :: pad 6 year.natAbs

/-- `toISOString`. -/
def format (t : Int) : List Char :=
  let d := dateOf t
  let ms := (t % dayMs).toNat
  yearText d.year ++ '-' :: pad 2 d.month.toNat ++ '-' :: pad 2 d.day.toNat ++
    'T' :: pad 2 (ms / 3600000) ++ ':' :: pad 2 (ms / 60000 % 60) ++
    ':' :: pad 2 (ms / 1000 % 60) ++ '.' :: pad 3 (ms % 1000) ++ ['Z']

/-! ## Reading -/

/-- Reads a number of a certain width. -/
def field (w : Nat) (text : List Char) : Option (Nat × List Char) :=
  if w ≤ text.length then (number (text.take w)).map fun n ↦ (n, text.drop w) else none

/-- Reads a character. -/
def expect (c : Char) : List Char → Option (List Char)
  | [] => none
  | c' :: text => if c' = c then some text else none

/-- Reads a fraction of a second, if there is one, in nanoseconds. -/
def fraction (text : List Char) : Option (Int × List Char) :=
  match text with
  | '.' :: text =>
      let digits := text.takeWhile fun c ↦ (digitValue c).isSome
      if digits = [] then none
      else (number (digits.take 9)).map fun n ↦
        (n * 10 ^ (9 - digits.length), text.dropWhile fun c ↦ (digitValue c).isSome)
  | _ => some (0, text)

/-- Reads the offset of a time zone, in seconds. -/
def zone : List Char → Option Int
  | ['Z'] => some 0
  | sign :: text => do
      let (hour, text) ← field 2 text
      let text ← expect ':' text
      let (minute, text) ← field 2 text
      if text = [] ∧ hour ≤ 23 ∧ minute ≤ 59 then
        if sign = '+' then some (3600 * hour + 60 * minute)
        else if sign = '-' then some (-(3600 * hour + 60 * minute))
        else none
      else none
  | [] => none

/-- The instant of a date and a time in a zone, in nanoseconds since 1970. -/
def instant (d : Date) (hour minute second : Nat) (nanos offset : Int) : Int :=
  ((d.number - epoch) * 86400 + 3600 * hour + 60 * minute + second - offset) * 1000000000 + nanos

/-- `parseStrictRFC3339`, in nanoseconds since 1970. -/
def parse (text : List Char) : Option Int := do
  let (year, text) ← field 4 text
  let text ← expect '-' text
  let (month, text) ← field 2 text
  let text ← expect '-' text
  let (day, text) ← field 2 text
  let text ← expect 'T' text
  let (hour, text) ← field 2 text
  let text ← expect ':' text
  let (minute, text) ← field 2 text
  let text ← expect ':' text
  let (second, text) ← field 2 text
  let (nanos, text) ← fraction text
  let offset ← zone text
  let d : Date := ⟨year, month, day⟩
  if d.Valid ∧ hour ≤ 23 ∧ minute ≤ 59 ∧ second ≤ 59 then
    some (instant d hour minute second nanos offset)
  else none

/-! ## What is written is read -/

theorem field_pad {w n : Nat} (h : n < 10 ^ w) (text : List Char) :
    field w (pad w n ++ text) = some (n, text) := by
  have hlength := length_pad w n
  rw [field, if_pos (by rw [List.length_append, hlength]; omega)]
  rw [List.take_left' hlength, List.drop_left' hlength, number_pad h]
  rfl

theorem expect_cons (c : Char) (text : List Char) : expect c (c :: text) = some text :=
  if_pos rfl

theorem bind_field {α : Type} {w n : Nat} (h : n < 10 ^ w) (text : List Char)
    (k : Nat × List Char → Option α) : (field w (pad w n ++ text) >>= k) = k (n, text) := by
  rw [field_pad h]
  rfl

theorem bind_expect {α : Type} (c : Char) (text : List Char) (k : List Char → Option α) :
    (expect c (c :: text) >>= k) = k text := by
  rw [expect_cons]
  rfl

theorem isSome_digitValue_pad {w n : Nat} {c : Char} (h : c ∈ pad w n) :
    (digitValue c).isSome = true := by
  induction w generalizing n with
  | zero => cases h
  | succ w ih =>
      rcases List.mem_append.mp h with h | h
      · exact ih h
      · rw [List.mem_singleton.mp h, digitValue_digit (Nat.mod_lt n (by norm_num : 10 > 0))]
        rfl

theorem fraction_pad {n : Nat} (h : n < 1000) :
    fraction ('.' :: (pad 3 n ++ ['Z'])) = some ((n : Int) * 1000000, ['Z']) := by
  have hdigits : ∀ c ∈ pad 3 n, (digitValue c).isSome = true := fun c ↦ isSome_digitValue_pad
  have hlength : (pad 3 n).length = 3 := length_pad 3 n
  have hne : pad 3 n ≠ [] := by
    intro hnil
    rw [hnil] at hlength
    cases hlength
  have htake : (pad 3 n ++ ['Z']).takeWhile (fun c ↦ (digitValue c).isSome) = pad 3 n := by
    rw [List.takeWhile_append_of_pos hdigits]
    exact List.append_nil _
  have hdrop : (pad 3 n ++ ['Z']).dropWhile (fun c ↦ (digitValue c).isSome) = ['Z'] := by
    rw [List.dropWhile_append_of_pos hdigits]
    rfl
  have hshort : (pad 3 n).take 9 = pad 3 n := List.take_of_length_le (by rw [hlength]; norm_num)
  have hnumber : number (pad 3 n) = some n := number_pad (by norm_num; exact h)
  simp only [fraction, htake, hdrop, if_neg hne, hshort, hnumber, hlength]
  norm_num

/-- The reader finds the fields that are written. -/
theorem parse_fields {year month day hour minute second ms : Nat} (hyear : year < 10 ^ 4)
    (hmonth : month < 10 ^ 2) (hday : day < 10 ^ 2) (hhour : hour < 10 ^ 2)
    (hminute : minute < 10 ^ 2) (hsecond : second < 10 ^ 2) (hms : ms < 1000) :
    parse (pad 4 year ++ '-' :: (pad 2 month ++ '-' :: (pad 2 day ++
      'T' :: (pad 2 hour ++ ':' :: (pad 2 minute ++ ':' :: (pad 2 second ++
        '.' :: (pad 3 ms ++ ['Z']))))))) =
      if (⟨year, month, day⟩ : Date).Valid ∧ hour ≤ 23 ∧ minute ≤ 59 ∧ second ≤ 59 then
        some (instant ⟨year, month, day⟩ hour minute second ((ms : Int) * 1000000) 0)
      else none := by
  refine (bind_field hyear _ _).trans <| (bind_expect '-' _ _).trans ?_
  refine (bind_field hmonth _ _).trans <| (bind_expect '-' _ _).trans ?_
  refine (bind_field hday _ _).trans <| (bind_expect 'T' _ _).trans ?_
  refine (bind_field hhour _ _).trans <| (bind_expect ':' _ _).trans ?_
  refine (bind_field hminute _ _).trans <| (bind_expect ':' _ _).trans ?_
  refine (bind_field hsecond _ _).trans ?_
  dsimp only
  rw [fraction_pad hms]
  rfl

/-- The year that begins in March 9999 begins after so many days. -/
theorem days_before_9999 {year : Int} (h : 9999 ≤ year) :
    3652059 ≤ 365 * year + year / 4 - year / 100 + year / 400 := by
  have hfours : 2499 ≤ year / 4 := by omega
  have hcenturies : year / 100 ≤ 99 + (year - 9900) / 100 := by omega
  omega

/-- The years up to 9999. -/
theorem date_year {n : Int} (h : epoch ≤ n ∧ n < epoch + 2932897) :
    0 ≤ (date n).year ∧ (date n).year ≤ 9999 := by
  have hbefore := days_before n
  have hlast := @days_before_9999 (marchYear n).year
  obtain ⟨-, -, -, -, hday, -⟩ := marchYear_spec n
  obtain ⟨hm, hm', hstart, hend⟩ := marchMonth_spec hday
  unfold date epoch at *
  dsimp only at *
  split <;> dsimp only <;> omega

/-- Up to the end of the year 9999, the reader finds the instant that was written. -/
theorem parse_format {t : Int} (h : 0 ≤ t ∧ t < 253402300800000) :
    parse (format t) = some (t * 1000000) := by
  obtain ⟨hyear, hyear'⟩ : 0 ≤ (dateOf t).year ∧ (dateOf t).year ≤ 9999 :=
    date_year (by unfold dayMs epoch; omega)
  have hvalid : (dateOf t).Valid := date_valid _
  have hnumber : (dateOf t).number = t / dayMs + epoch := date_number _
  obtain ⟨hmonth, hmonth', hday, hday'⟩ := hvalid
  have hdays : daysIn (dateOf t).year (dateOf t).month ≤ 31 := by
    unfold daysIn
    split
    · split <;> norm_num
    · split <;> norm_num
  generalize hms : (t % dayMs).toNat = ms
  have hlt : ms < 86400000 := by
    unfold dayMs at hms
    omega
  have hdate : (⟨(dateOf t).year.toNat, (dateOf t).month.toNat, (dateOf t).day.toNat⟩ : Date) =
      dateOf t := by
    rw [Int.toNat_of_nonneg hyear, Int.toNat_of_nonneg (by omega), Int.toNat_of_nonneg (by omega)]
  rw [format, yearText, if_pos ⟨hyear, hyear'⟩]
  simp only [hms, List.append_assoc, List.cons_append]
  rw [parse_fields (by omega) (by omega) (by omega) (by omega) (by omega) (by omega) (by omega),
    hdate]
  rw [if_pos ⟨⟨hmonth, hmonth', hday, hday'⟩, by omega, by omega, by omega⟩]
  rw [instant, hnumber]
  unfold dayMs at *
  congr 1
  omega

end IsoTime
