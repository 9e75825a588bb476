import Mathlib.Data.Nat.Digits.Defs
import Mathlib.Tactic.Ring

/-!
# Durations as texts

How Go writes a duration, a whole number of nanoseconds, and how it reads one.  The fraction of a
unit is read with floating-point arithmetic, of which only this matters: where the scale divides
the unit nothing is rounded.  That is the case in all that is written, so a duration that is
written is read as what it was.
-/

namespace Duration

def nanosecond : Nat := 1
def microsecond : Nat := 1000 * nanosecond
def millisecond : Nat := 1000 * microsecond
def second : Nat := 1000 * millisecond
def minute : Nat := 60 * second
def hour : Nat := 60 * minute

/-! ## Writing -/

/-- Formats the fraction of `v / 10 ^ prec` in front of the text, omitting trailing zeros, and the
point too when the fraction is 0. -/
def fmtFrac : Nat → Nat → Bool → List Char → List Char × Nat
  | 0, v, print, text => (if print then '.' :: text else text, v)
  | prec + 1, v, print, text =>
      let digit := v % 10
      let print := print || digit ≠ 0
      fmtFrac prec (v / 10) print (if print then digit.digitChar :: text else text)

/-- Formats a whole number in front of the text. -/
def fmtInt (v : Nat) (text : List Char) : List Char := Nat.toDigits 10 v ++ text

/-- A duration below a second. -/
def formatSmall (u : Nat) : List Char :=
  if u = 0 then ['0', 's']
  else
    let (prec, unit) :=
      if u < microsecond then (0, ['n', 's'])
      else if u < millisecond then (3, ['µ', 's'])
      else (6, ['m', 's'])
    let (text, u) := fmtFrac prec u false unit
    fmtInt u text

/-- A duration of a second or more. -/
def formatLarge (u : Nat) : List Char :=
  let (text, u) := fmtFrac 9 u false ['s']
  let text := fmtInt (u % 60) text
  let u := u / 60
  if 0 < u then
    let text := fmtInt (u % 60) ('m' :: text)
    let u := u / 60
    if 0 < u then fmtInt u ('h' :: text) else text
  else text

/-- `Duration.String`. -/
def format (d : Int) : List Char :=
  let u := d.natAbs
  let text := if u < second then formatSmall u else formatLarge u
  if d < 0 then '-' :: text else text

/-! ## Reading -/

inductive ParseError
  | invalid
  | missingUnit
  | unknownUnit (u : List Char)
deriving DecidableEq, Repr

def unitMap : List (List Char × Nat) :=
  [(['n', 's'], nanosecond), (['u', 's'], microsecond), (['µ', 's'], microsecond),
    (['μ', 's'], microsecond), (['m', 's'], millisecond), (['s'], second), (['m'], minute),
    (['h'], hour)]

def digitVal (c : Char) : Nat := c.toNat - '0'.toNat

/-- Consumes the leading digits; fails on overflow. -/
def leadingInt : Nat → List Char → Option (Nat × List Char)
  | x, [] => some (x, [])
  | x, c :: s =>
      if !c.isDigit then some (x, c :: s)
      else if 2 ^ 63 / 10 < x then none
      else if 2 ^ 63 < x * 10 + digitVal c then none
      else leadingInt (x * 10 + digitVal c) s

/-- Consumes the leading digits of a fraction; on overflow, it just stops accumulating
precision. -/
def leadingFraction : Nat → Nat → Bool → List Char → Nat × Nat × List Char
  | x, scale, _, [] => (x, scale, [])
  | x, scale, overflow, c :: s =>
      if !c.isDigit then (x, scale, c :: s)
      else if overflow then leadingFraction x scale true s
      else if (2 ^ 63 - 1) / 10 < x then leadingFraction x scale true s
      else if 2 ^ 63 < x * 10 + digitVal c then leadingFraction x scale true s
      else leadingFraction (x * 10 + digitVal c) (scale * 10) false s

/-- The character belongs to a number. -/
def numeric (c : Char) : Bool := c == '.' || c.isDigit

/-- `uint64(float64(f) * (float64(unit) / scale))`. -/
abbrev FloatProduct := Nat → Nat → Nat → Nat

/-- Where the scale divides the unit, nothing is rounded. -/
def Exact (product : FloatProduct) : Prop :=
  ∀ f unit scale, scale ∣ unit → f < scale → unit ≤ hour → product f unit scale = f * (unit / scale)

/-- Reads what stands before the unit: the whole number, the fraction and its scale. -/
def parseNumber (s : List Char) : Option (Nat × Nat × Nat × List Char) :=
  match leadingInt 0 s with
  | none => none
  | some (v, '.' :: t) =>
      let (f, scale, t') := leadingFraction 0 1 false t
      -- there is a digit before or after the point
      if t.length + 1 ≠ s.length ∨ t'.length ≠ t.length then some (v, f, scale, t') else none
  | some (v, t) => if t.length ≠ s.length then some (v, 0, 1, t) else none

section Parse

variable (product : FloatProduct)

/-- What the number of a unit comes to, if it does not overflow. -/
def amount (v f scale unit : Nat) : Option Nat :=
  if 2 ^ 63 / unit < v then none
  else if 0 < f then
    let d := v * unit + product f unit scale
    if 2 ^ 63 < d then none else some d
  else some (v * unit)

/-- Reads a number and its unit, and returns what they come to. -/
def parseItem (s : List Char) : Except ParseError (Nat × List Char) :=
  if !s.head?.any numeric then .error .invalid
  else match parseNumber s with
  | none => .error .invalid
  | some (v, f, scale, t) =>
      let u := t.takeWhile (!numeric ·)
      if u = [] then .error .missingUnit
      else match unitMap.lookup u with
      | none => .error (.unknownUnit u)
      | some unit => match amount product v f scale unit with
        | none => .error .invalid
        | some d => .ok (d, t.dropWhile (!numeric ·))

/-- Reads items up to the end; `d` is what there is already, a `uint64`. -/
def parseItems : Nat → Nat → List Char → Except ParseError Nat
  | _, d, [] => .ok d
  | 0, _, _ => .error .invalid
  | fuel + 1, d, s => do
      let (v, rest) ← parseItem product s
      let d := (d + v) % 2 ^ 64
      if 2 ^ 63 < d then throw .invalid
      parseItems fuel d rest

/-- Consumes a sign. -/
def sign : List Char → Bool × List Char
  | '-' :: t => (true, t)
  | '+' :: t => (false, t)
  | s => (false, s)

/-- `time.ParseDuration`. -/
def parse (s : List Char) : Except ParseError Int :=
  let (neg, s) := sign s
  if s = ['0'] then .ok 0
  else if s = [] then .error .invalid
  else match parseItems product s.length 0 s with
  | .error e => .error e
  | .ok d =>
      if neg then .ok (-d)
      else if 2 ^ 63 - 1 < d then .error .invalid
      else .ok d

end Parse

/-- Multiplies and divides without rounding up to the end. -/
def plainProduct : FloatProduct := fun f unit scale ↦ f * unit / scale

theorem plainProduct_exact : Exact plainProduct := fun f _ _ h _ _ ↦ Nat.mul_div_assoc f h

/-! ## Digits -/

/-- The text does not begin with a digit. -/
def Stops (text : List Char) : Prop := ∀ c ∈ text.head?, c.isDigit = false

theorem le_ofDigitChars (ds : List Char) (x : Nat) : x ≤ Nat.ofDigitChars 10 ds x := by
  induction ds generalizing x with
  | nil => exact Nat.le_refl x
  | cons c ds ih =>
      rw [Nat.ofDigitChars_cons]
      exact le_trans (by omega) (ih _)

/-- Digits without an overflow. -/
theorem leadingInt_append {ds rest : List Char} (hds : ∀ c ∈ ds, c.isDigit = true)
    (hrest : Stops rest) {x : Nat} (h : Nat.ofDigitChars 10 ds x ≤ 2 ^ 63) :
    leadingInt x (ds ++ rest) = some (Nat.ofDigitChars 10 ds x, rest) := by
  induction ds generalizing x with
  | nil =>
      cases rest with
      | nil => rfl
      | cons c rest =>
          have hc := hrest c rfl
          simp [leadingInt, hc]
  | cons c ds ih =>
      rw [Nat.ofDigitChars_cons] at h ⊢
      have hle := le_trans (le_ofDigitChars ds _) h
      have hval : 10 * x + (c.toNat - '0'.toNat) = x * 10 + digitVal c := by
        rw [Nat.mul_comm, digitVal]
      rw [hval] at h hle ⊢
      have hc := hds c List.mem_cons_self
      rw [List.cons_append, leadingInt, if_neg (by simp [hc]), if_neg (by omega), if_neg (by omega)]
      exact ih (fun c' h' ↦ hds c' (List.mem_cons_of_mem c h')) h

theorem leadingFraction_append {ds rest : List Char} (hds : ∀ c ∈ ds, c.isDigit = true)
    (hrest : Stops rest) {x scale : Nat} (h : Nat.ofDigitChars 10 ds x < 2 ^ 63) :
    leadingFraction x scale false (ds ++ rest) =
      (Nat.ofDigitChars 10 ds x, scale * 10 ^ ds.length, rest) := by
  induction ds generalizing x scale with
  | nil =>
      cases rest with
      | nil => simp [leadingFraction]
      | cons c rest =>
          have hc := hrest c rfl
          simp [leadingFraction, hc]
  | cons c ds ih =>
      rw [Nat.ofDigitChars_cons] at h ⊢
      have hle := lt_of_le_of_lt (le_ofDigitChars ds _) h
      have hval : 10 * x + (c.toNat - '0'.toNat) = x * 10 + digitVal c := by
        rw [Nat.mul_comm, digitVal]
      rw [hval] at h hle ⊢
      have hc := hds c List.mem_cons_self
      rw [List.cons_append, leadingFraction, if_neg (by simp [hc]), if_neg (by decide),
        if_neg (by omega), if_neg (by omega),
        ih (fun c' h' ↦ hds c' (List.mem_cons_of_mem c h')) h, List.length_cons, pow_succ']
      rw [Nat.mul_assoc]

/-! ## What is written -/

/-- The fraction `n / 10 ^ prec` as it is written. -/
inductive Fraction (prec : Nat) : Nat → List Char → Prop
  | none : Fraction prec 0 []
  | some {ds : List Char} (zeros : Nat) (hds : ∀ c ∈ ds, c.isDigit = true)
      (hlength : ds.length + zeros = prec) (hpos : 0 < Nat.ofDigitChars 10 ds 0) :
      Fraction prec (Nat.ofDigitChars 10 ds 0 * 10 ^ zeros) ('.' :: ds)

/-- Once a digit has been printed, the others are too. -/
theorem fmtFrac_print (prec v : Nat) (text : List Char) :
    ∃ ds, fmtFrac prec v true text = ('.' :: (ds ++ text), v / 10 ^ prec) ∧ ds.length = prec ∧
      (∀ c ∈ ds, c.isDigit = true) ∧ Nat.ofDigitChars 10 ds 0 = v % 10 ^ prec := by
  induction prec generalizing v text with
  | zero => exact ⟨[], by simp [fmtFrac, Nat.mod_one]⟩
  | succ prec ih =>
      obtain ⟨ds, heq, hlength, hds, hvalue⟩ := ih (v / 10) ((v % 10).digitChar :: text)
      have hlt : v % 10 < 10 := Nat.mod_lt v (by decide)
      refine ⟨ds ++ [(v % 10).digitChar], ?_, ?_, ?_, ?_⟩
      · rw [fmtFrac, Bool.true_or, if_pos rfl, heq, Nat.div_div_eq_div_mul, ← pow_succ',
          List.append_assoc, List.singleton_append]
      · rw [List.length_append, hlength, List.length_singleton]
      · intro c hc
        rcases List.mem_append.mp hc with hc | hc
        · exact hds c hc
        · rw [List.mem_singleton.mp hc]
          rw [Nat.isDigit_digitChar, decide_eq_true hlt]
      · rw [Nat.ofDigitChars_append, hvalue, Nat.ofDigitChars_cons_digitChar_of_lt_ten hlt,
          Nat.ofDigitChars_nil, pow_succ', Nat.mod_mul, Nat.add_comm]

/-- Trailing zeros are not printed. -/
theorem fmtFrac_fraction (prec v : Nat) (text : List Char) :
    ∃ frac, fmtFrac prec v false text = (frac ++ text, v / 10 ^ prec) ∧
      Fraction prec (v % 10 ^ prec) frac := by
  induction prec generalizing v text with
  | zero => exact ⟨[], by simp [fmtFrac], by simpa [Nat.mod_one] using Fraction.none⟩
  | succ prec ih =>
      by_cases hdigit : v % 10 = 0
      · obtain ⟨frac, heq, hfrac⟩ := ih (v / 10) text
        refine ⟨frac, ?_, ?_⟩
        · rw [fmtFrac, hdigit]
          simp [heq, Nat.div_div_eq_div_mul, pow_succ']
        · have hmod : v % 10 ^ (prec + 1) = v / 10 % 10 ^ prec * 10 := by
            rw [pow_succ', Nat.mod_mul, hdigit, Nat.zero_add, Nat.mul_comm]
          rw [hmod]
          generalize v / 10 % 10 ^ prec = n at hfrac ⊢
          cases hfrac with
          | none => exact .none
          | @some ds zeros hds hlength hpos =>
              rw [Nat.mul_assoc, ← pow_succ]
              exact .some (zeros + 1) hds (by omega) hpos
      · -- the digit is printed, and so are those in front of it
        have hprint : fmtFrac (prec + 1) v false text = fmtFrac (prec + 1) v true text := by
          simp [fmtFrac, hdigit]
        obtain ⟨ds, heq, hlength, hds, hvalue⟩ := fmtFrac_print (prec + 1) v text
        refine ⟨'.' :: ds, by rw [hprint, heq, List.cons_append], ?_⟩
        have hpos : 0 < v % 10 ^ (prec + 1) := by
          rw [pow_succ', Nat.mod_mul]
          omega
        have hfrac : Fraction (prec + 1) (Nat.ofDigitChars 10 ds 0 * 10 ^ 0) ('.' :: ds) :=
          .some 0 hds (by omega) (by rw [hvalue]; exact hpos)
        rwa [hvalue, pow_zero, Nat.mul_one] at hfrac

/-! ## What is written is read -/

theorem isDigit_toDigits (v : Nat) : ∀ c ∈ Nat.toDigits 10 v, c.isDigit = true := fun _ hc ↦
  Nat.isDigit_of_mem_toDigits (by decide) (by decide) hc

section Read

variable {product : FloatProduct}

/-- The text is read as an item that comes to `v`, whatever item comes next. -/
structure Item (product : FloatProduct) (s : List Char) (v : Nat) : Prop where
  read : ∀ rest : List Char, (∀ c ∈ rest.head?, numeric c = true) →
    parseItem product (s ++ rest) = .ok (v, rest)
  numeric : ∃ c t, s = c :: t ∧ t ≠ [] ∧ numeric c = true

/-- No digit and no point stands in the name of a unit. -/
theorem numeric_of_lookup {name : List Char} {unit : Nat}
    (hlookup : unitMap.lookup name = some unit) : ∀ c ∈ name, numeric c = false := by
  have hmem : (name, unit) ∈ unitMap := by
    obtain ⟨front, back, heq, -⟩ := List.lookup_eq_some_iff.mp hlookup
    rw [heq]
    exact List.mem_append_right front List.mem_cons_self
  have hall : unitMap.all (fun e ↦ e.1.all (!numeric ·)) = true := by decide
  intro c hc
  simpa using List.all_eq_true.mp (List.all_eq_true.mp hall _ hmem) c hc

/-- The name of a unit ends where the next item begins. -/
theorem span_unit {name rest : List Char} (hname : ∀ c ∈ name, numeric c = false)
    (hrest : ∀ c ∈ rest.head?, numeric c = true) :
    (name ++ rest).takeWhile (!numeric ·) = name ∧
      (name ++ rest).dropWhile (!numeric ·) = rest := by
  have hname' : ∀ c ∈ name, (!numeric c) = true := fun c hc ↦ by rw [hname c hc]; rfl
  rw [List.takeWhile_append_of_pos hname', List.dropWhile_append_of_pos hname']
  cases rest with
  | nil => simp
  | cons c rest =>
      have hc := hrest c rfl
      simp [hc]

/-- The number as it is written. -/
theorem parseNumber_append {v prec n : Nat} (hv : v ≤ 2 ^ 63) {frac : List Char}
    (hfrac : Fraction prec n frac) (hn : n < 2 ^ 63) {text : List Char} (htext : Stops text)
    (hpoint : text.head? ≠ some '.') : ∃ f scale,
      parseNumber (Nat.toDigits 10 v ++ (frac ++ text)) = some (v, f, scale, text) ∧
      (n = 0 ∧ f = 0 ∨ 0 < f ∧ ∃ zeros, n = f * 10 ^ zeros ∧ scale * 10 ^ zeros = 10 ^ prec) := by
  have hlead (t : List Char) (ht : Stops t) :
      leadingInt 0 (Nat.toDigits 10 v ++ t) = some (v, t) := by
    rw [leadingInt_append (isDigit_toDigits v) ht, Nat.ofDigitChars_ten_toDigits]
    rw [Nat.ofDigitChars_ten_toDigits]
    exact hv
  have hpos : 0 < (Nat.toDigits 10 v).length := Nat.length_toDigits_pos
  cases hfrac with
  | none =>
      refine ⟨0, 1, ?_, .inl ⟨rfl, rfl⟩⟩
      rw [parseNumber, List.nil_append, hlead text htext]
      have hlength : text.length ≠ (Nat.toDigits 10 v ++ text).length := by
        rw [List.length_append]
        omega
      split
      · rename_i h
        cases h
      · rename_i h
        cases h
        exact absurd rfl hpoint
      · rename_i h
        cases h
        rw [if_pos hlength]
  | @some ds zeros hds hlength hf =>
      refine ⟨_, 10 ^ ds.length, ?_, .inr ⟨hf, zeros, rfl, ?_⟩⟩
      · have hstops : Stops ('.' :: ds ++ text) := by
          rintro c ⟨⟩
          decide
        have hsmall : Nat.ofDigitChars 10 ds 0 < 2 ^ 63 :=
          lt_of_le_of_lt (Nat.le_mul_of_pos_right _ (Nat.pow_pos (by decide))) hn
        rw [parseNumber, hlead _ hstops]
        simp only [List.cons_append]
        rw [leadingFraction_append hds htext hsmall, Nat.one_mul, if_pos]
        left
        simp only [List.length_append, List.length_cons]
        omega
      · rw [← pow_add, hlength]

/-- A whole number and a fraction of a unit. -/
theorem item_number (hexact : Exact product) {v prec n unit : Nat} {frac name : List Char}
    (hlookup : unitMap.lookup name = some unit) (hunit : 0 < unit ∧ unit ≤ hour)
    (hfrac : Fraction prec n frac) (hprec : n < 10 ^ prec ∧ (n ≠ 0 → unit = 10 ^ prec))
    (hv : v * unit + n ≤ 2 ^ 63) (hn : n < 2 ^ 63) :
    Item product (Nat.toDigits 10 v ++ (frac ++ name)) (v * unit + n) := by
  have hname := numeric_of_lookup hlookup
  obtain ⟨c, cs, rfl⟩ : ∃ c cs, name = c :: cs := by
    cases name with
    | nil => cases hlookup
    | cons c cs => exact ⟨c, cs, rfl⟩
  obtain ⟨d, ds, hds⟩ := List.exists_cons_of_ne_nil (Nat.toDigits_ne_nil (n := v) (b := 10))
  have hd : numeric d = true := by
    have hdigit := isDigit_toDigits v d (hds ▸ List.mem_cons_self)
    rw [numeric, hdigit, Bool.or_true]
  refine ⟨fun rest hrest ↦ ?_, d, ds ++ (frac ++ c :: cs), by rw [hds, List.cons_append], by simp,
    hd⟩
  have hc := Bool.or_eq_false_iff.mp (hname c List.mem_cons_self)
  have hstops : Stops ((c :: cs) ++ rest) := by
    rintro c' ⟨⟩
    exact hc.2
  have hpoint : ((c :: cs) ++ rest).head? ≠ some '.' := by
    rintro ⟨⟩
    exact absurd hc.1 (by decide)
  have hmul : v * unit ≤ 2 ^ 63 := by omega
  obtain ⟨f, scale, hnumber, hvalue⟩ := parseNumber_append
    (le_trans (Nat.le_mul_of_pos_right v hunit.1) hmul) hfrac hn hstops hpoint
  obtain ⟨htake, hdrop⟩ := span_unit hname hrest
  have hamount : amount product v f scale unit = some (v * unit + n) := by
    rw [amount, if_neg (Nat.not_lt.mpr ((Nat.le_div_iff_mul_le hunit.1).mpr hmul))]
    rcases hvalue with ⟨rfl, rfl⟩ | ⟨hf, zeros, rfl, hscale⟩
    · rfl
    · have hunit' : unit = scale * 10 ^ zeros := by
        rw [hscale]
        exact hprec.2 (Nat.mul_ne_zero (by omega) (by positivity))
      have hpow : 0 < 10 ^ zeros := Nat.pow_pos (by decide)
      have hlt : f < scale := by
        have hless := hprec.1
        rw [← hscale] at hless
        exact Nat.lt_of_mul_lt_mul_right hless
      have hproduct : product f unit scale = f * 10 ^ zeros := by
        rw [hexact f unit scale ⟨_, hunit'⟩ hlt hunit.2, hunit',
          Nat.mul_div_cancel_left _ (by omega)]
      rw [if_pos hf]
      dsimp only
      rw [hproduct, if_neg (by omega)]
  have hhead : (Nat.toDigits 10 v ++ (frac ++ (c :: cs)) ++ rest).head?.any numeric = true := by
    rw [hds]
    exact hd
  rw [parseItem, hhead, List.append_assoc, List.append_assoc, hnumber]
  simp only [htake, hdrop, hlookup, hamount]
  rfl

/-- Items one after the other come to what they come to together. -/
theorem parseItems_flatten {items : List (List Char)} {values : List Nat}
    (h : List.Forall₂ (Item product) items values) {fuel d : Nat} (hfuel : items.length ≤ fuel)
    (hd : d + values.sum ≤ 2 ^ 63) :
    parseItems product fuel d items.flatten = .ok (d + values.sum) := by
  induction h generalizing fuel d with
  | nil => cases fuel <;> rfl
  | @cons s v items values hs hrest ih =>
      obtain ⟨fuel, rfl⟩ := Nat.exists_eq_succ_of_ne_zero
        (Nat.ne_of_gt (lt_of_lt_of_le (Nat.succ_pos items.length) hfuel))
      have hnext : ∀ c ∈ (items.flatten).head?, numeric c = true := by
        cases hrest with
        | nil => simp
        | cons ha _ =>
            obtain ⟨c, t, rfl, -, hc⟩ := ha.numeric
            rintro c' ⟨⟩
            exact hc
      rw [List.sum_cons] at hd ⊢
      have hread := hs.read _ hnext
      obtain ⟨c, t, rfl, -⟩ := hs.numeric
      rw [List.flatten_cons, List.cons_append, parseItems, ← List.cons_append, hread]
      · have hmod : (d + v) % 2 ^ 64 = d + v := Nat.mod_eq_of_lt (by omega)
        show (if 2 ^ 63 < (d + v) % 2 ^ 64 then _ else _) = _
        rw [hmod, if_neg (by omega), ih (Nat.le_of_succ_le_succ hfuel) (by omega), Nat.add_assoc]
      · exact List.cons_ne_nil _ _

theorem length_le_flatten {items : List (List Char)} {values : List Nat}
    (h : List.Forall₂ (Item product) items values) : items.length ≤ items.flatten.length := by
  induction h with
  | nil => exact Nat.le_refl 0
  | cons hs _ ih =>
      obtain ⟨c, t, rfl, -⟩ := hs.numeric
      rw [List.flatten_cons, List.length_append]
      simp only [List.length_cons]
      omega

/-- A number of units without a fraction. -/
theorem item_whole (hexact : Exact product) {v unit : Nat} {name : List Char}
    (hlookup : unitMap.lookup name = some unit) (hunit : 0 < unit ∧ unit ≤ hour)
    (hv : v * unit ≤ 2 ^ 63) :
    Item product (Nat.toDigits 10 v ++ name) (v * unit) :=
  item_number hexact hlookup hunit (.none : Fraction 0 0 []) ⟨by decide, fun h ↦ absurd rfl h⟩ hv
    (by decide)

/-- A number of nanoseconds in a unit that is a power of ten. -/
theorem item_fraction (hexact : Exact product) {u prec : Nat} {frac name : List Char}
    (hlookup : unitMap.lookup name = some (10 ^ prec)) (hunit : 10 ^ prec ≤ hour)
    (hfrac : Fraction prec (u % 10 ^ prec) frac) (hu : u ≤ 2 ^ 63) :
    Item product (Nat.toDigits 10 (u / 10 ^ prec) ++ (frac ++ name)) u := by
  have hpow : 0 < 10 ^ prec := Nat.pow_pos (by decide)
  have hlt := Nat.mod_lt u hpow
  have hhour : hour < 2 ^ 63 := by decide
  have hsum : u / 10 ^ prec * 10 ^ prec + u % 10 ^ prec = u := Nat.div_add_mod' u _
  have hitem := item_number hexact hlookup ⟨hpow, hunit⟩ hfrac ⟨hlt, fun _ ↦ rfl⟩
    (v := u / 10 ^ prec) (by omega) (by omega)
  rwa [hsum] at hitem

theorem formatSmall_item (hexact : Exact product) {u : Nat} (hu : u < second) :
    Item product (formatSmall u) u := by
  have hsecond : second ≤ 2 ^ 63 := by decide
  by_cases hzero : u = 0
  · subst hzero
    have hitem : Item product (Nat.toDigits 10 0 ++ ['s']) (0 * second) :=
      item_whole hexact (by decide) (by decide) (by omega)
    rwa [Nat.zero_mul] at hitem
  have hsmall (prec : Nat) {name : List Char} (hlookup : unitMap.lookup name = some (10 ^ prec))
      (hunit : 10 ^ prec ≤ hour) :
      Item product (fmtInt (fmtFrac prec u false name).2 (fmtFrac prec u false name).1) u := by
    obtain ⟨frac, heq, hfrac⟩ := fmtFrac_fraction prec u name
    rw [heq]
    exact item_fraction hexact hlookup hunit hfrac (by omega)
  rw [formatSmall, if_neg hzero]
  by_cases hmicro : u < microsecond
  · rw [if_pos hmicro]
    exact hsmall 0 (by decide) (by decide)
  rw [if_neg hmicro]
  by_cases hmilli : u < millisecond
  · rw [if_pos hmilli]
    exact hsmall 3 (by decide) (by decide)
  · rw [if_neg hmilli]
    exact hsmall 6 (by decide) (by decide)

/-- Nanoseconds as hours, minutes, seconds and the rest. -/
theorem split_hours (u : Nat) : u / 10 ^ 9 / 60 / 60 * hour + (u / 10 ^ 9 / 60 % 60 * minute +
    (u / 10 ^ 9 % 60 * second + u % 10 ^ 9)) = u := by
  have hnanos := Nat.div_add_mod' u (10 ^ 9)
  have hseconds := Nat.div_add_mod' (u / 10 ^ 9) 60
  have hminutes := Nat.div_add_mod' (u / 10 ^ 9 / 60) 60
  calc u / 10 ^ 9 / 60 / 60 * hour + (u / 10 ^ 9 / 60 % 60 * minute +
        (u / 10 ^ 9 % 60 * second + u % 10 ^ 9))
      = ((u / 10 ^ 9 / 60 / 60 * 60 + u / 10 ^ 9 / 60 % 60) * 60 + u / 10 ^ 9 % 60) * second +
          u % 10 ^ 9 := by
        rw [hour, minute]
        ring
    _ = u := by
        rw [hminutes, hseconds]
        exact hnanos

/-- Hours, minutes and seconds. -/
theorem formatLarge_items (hexact : Exact product) {u : Nat} (hu : u ≤ 2 ^ 63) :
    ∃ items values, formatLarge u = items.flatten ∧ items ≠ [] ∧
      List.Forall₂ (Item product) items values ∧ values.sum = u := by
  have hsecond : second = 1000000000 := rfl
  have hminute : minute = 60000000000 := rfl
  have hhour : hour = 3600000000000 := rfl
  have hsplit := split_hours u
  have hthree (a b c : Nat) : [a, b, c].sum = a + (b + c) := by simp
  have htwo (a b : Nat) : [a, b].sum = a + b := by simp
  obtain ⟨frac, heq, hfrac⟩ := fmtFrac_fraction 9 u ['s']
  have hseconds : Item product (Nat.toDigits 10 (u / 10 ^ 9 % 60) ++ (frac ++ ['s']))
      (u / 10 ^ 9 % 60 * second + u % 10 ^ 9) :=
    item_number hexact (by decide) (by decide) hfrac
      ⟨Nat.mod_lt _ (Nat.pow_pos (by decide)), fun _ ↦ by rw [hsecond]; norm_num⟩
      (by rw [hsecond]; omega) (by omega)
  have hminutes : Item product (Nat.toDigits 10 (u / 10 ^ 9 / 60 % 60) ++ ['m'])
      (u / 10 ^ 9 / 60 % 60 * minute) :=
    item_whole hexact (by decide) (by decide) (by rw [hminute]; omega)
  have hhours : Item product (Nat.toDigits 10 (u / 10 ^ 9 / 60 / 60) ++ ['h'])
      (u / 10 ^ 9 / 60 / 60 * hour) :=
    item_whole hexact (by decide) (by decide) (by rw [hhour]; omega)
  rw [formatLarge, heq]
  simp only [fmtInt]
  by_cases hm : 0 < u / 10 ^ 9 / 60
  · rw [if_pos hm]
    by_cases hh : 0 < u / 10 ^ 9 / 60 / 60
    · rw [if_pos hh]
      refine ⟨_, _, ?_, List.cons_ne_nil _ _, .cons hhours (.cons hminutes (.cons hseconds .nil)),
        ?_⟩
      · simp
      · exact (hthree _ _ _).trans hsplit
    · rw [if_neg hh]
      rw [Nat.eq_zero_of_not_pos hh, Nat.zero_mul, Nat.zero_add] at hsplit
      refine ⟨_, _, ?_, List.cons_ne_nil _ _, .cons hminutes (.cons hseconds .nil), ?_⟩
      · simp
      · exact (htwo _ _).trans hsplit
  · rw [if_neg hm]
    rw [Nat.eq_zero_of_not_pos hm, Nat.zero_div, Nat.zero_mod, Nat.zero_mul, Nat.zero_mul,
      Nat.zero_add, Nat.zero_add] at hsplit
    refine ⟨_, _, ?_, List.cons_ne_nil _ _, .cons hseconds .nil, ?_⟩
    · simp
    · exact List.sum_singleton.trans hsplit

/-- What is written of a number of nanoseconds is made up of items that come to it. -/
theorem format_items (hexact : Exact product) {u : Nat} (hu : u ≤ 2 ^ 63) :
    ∃ items values, (if u < second then formatSmall u else formatLarge u) = items.flatten ∧
      items ≠ [] ∧ List.Forall₂ (Item product) items values ∧ values.sum = u := by
  by_cases hsmall : u < second
  · rw [if_pos hsmall]
    exact ⟨[formatSmall u], [u], by simp, List.cons_ne_nil _ _,
      .cons (formatSmall_item hexact hsmall) .nil, by simp⟩
  · rw [if_neg hsmall]
    exact formatLarge_items hexact hu

theorem sign_numeric {c : Char} (h : numeric c = true) (t : List Char) :
    sign (c :: t) = (false, c :: t) := by
  rw [sign]
  · rintro t' ⟨⟩
    exact absurd h (by decide)
  · rintro t' ⟨⟩
    exact absurd h (by decide)

/-- A duration that is written is read as what it was. -/
theorem parse_format (hexact : Exact product) {d : Int} (hd : -2 ^ 63 ≤ d ∧ d < 2 ^ 63) :
    parse product (format d) = .ok d := by
  obtain ⟨items, values, htext, hne, hitems, hsum⟩ :=
    format_items (u := d.natAbs) hexact (by omega)
  have hread := parseItems_flatten hitems (d := 0) (length_le_flatten hitems) (by omega)
  rw [hsum, Nat.zero_add] at hread
  obtain ⟨c, t, hcons, ht, hc⟩ : ∃ c t, items.flatten = c :: t ∧ t ≠ [] ∧ numeric c = true := by
    cases hitems with
    | nil => exact absurd rfl hne
    | cons ha _ =>
        obtain ⟨c, t, rfl, ht, hc⟩ := ha.numeric
        exact ⟨c, _, List.cons_append, by simp [ht], hc⟩
  have hzero : c :: t ≠ ['0'] := fun h ↦ ht (List.cons.inj h).2
  have hnil : c :: t ≠ [] := List.cons_ne_nil c t
  rw [hcons] at hread
  rw [format, htext, hcons]
  by_cases hneg : d < 0
  · have hsign : sign ('-' :: c :: t) = (true, c :: t) := rfl
    rw [if_pos hneg, parse, hsign]
    simp only [if_neg hzero, if_neg hnil, hread]
    show Except.ok (-(d.natAbs : Int)) = .ok d
    congr 1
    omega
  · rw [if_neg hneg, parse, sign_numeric hc]
    simp only [if_neg hzero, if_neg hnil, hread]
    rw [if_neg (by decide), if_neg (by omega)]
    congr 1
    omega

end Read

/-! ## What is read -/

/-- What is read is a number of nanoseconds in 64 bits. -/
theorem parseItems_le {product : FloatProduct} {fuel d : Nat} {s : List Char} {v : Nat}
    (hd : d ≤ 2 ^ 63) (h : parseItems product fuel d s = .ok v) : v ≤ 2 ^ 63 := by
  induction fuel generalizing d s with
  | zero =>
      cases s with
      | nil =>
          cases h
          exact hd
      | cons c s => cases h
  | succ fuel ih =>
      cases s with
      | nil =>
          cases h
          exact hd
      | cons c s =>
          rw [parseItems] at h
          · cases hitem : parseItem product (c :: s) with
            | error e =>
                rw [hitem] at h
                cases h
            | ok item =>
                rw [hitem] at h
                obtain ⟨w, rest⟩ := item
                replace h : (if 2 ^ 63 < (d + w) % 2 ^ 64 then .error .invalid
                  else parseItems product fuel ((d + w) % 2 ^ 64) rest) = Except.ok v := h
                split at h
                · cases h
                · exact ih (Nat.not_lt.mp ‹_›) h
          · exact List.cons_ne_nil _ _

theorem parse_range {product : FloatProduct} {s : List Char} {d : Int}
    (h : parse product s = .ok d) : -2 ^ 63 ≤ d ∧ d < 2 ^ 63 := by
  rw [parse] at h
  generalize sign s = signed at h
  obtain ⟨neg, s⟩ := signed
  dsimp only at h
  split at h
  · cases h
    decide
  split at h
  · cases h
  split at h
  · cases h
  rename_i v hitems
  have hle := parseItems_le (Nat.zero_le _) hitems
  split at h
  · cases h
    omega
  split at h
  · cases h
  · cases h
    omega

example : String.ofList (format (-5025500000000)) = "-1h23m45.5s" := by decide

example : parse plainProduct "1.5h30m".toList = .ok 7200000000000 := by decide

end Duration
