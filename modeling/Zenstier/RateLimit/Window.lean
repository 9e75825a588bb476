import Zenstier.Auth.Store

/-!
# Counters that last a window

`consumeRateLimit` counts the charges under a key in a counter that expires a window after the
first of them, and lets `limit` of them pass.  A charge that meets an expired counter begins a new
window, so that the charges which pass in a stretch of time are bounded by the number of windows
that may begin in it.

The script takes the time that a counter has left for the time to wait, and lets a charge pass that
does not have to wait.  In the very millisecond in which it expires, a counter refuses nobody.
-/

namespace Zenstier

namespace AuthStore

open Store

variable {cr : Crypto} {s t : AuthStore} {key : String} {limit : Nat} {windowMs : Int}

/-- The script lets the charge pass. -/
def Passes (s : AuthStore) (key : String) (limit : Nat) (windowMs : Int) : Prop :=
  (s.windowScript key limit windowMs).1 ≤ 0

instance (s : AuthStore) (key : String) (limit : Nat) (windowMs : Int) :
    Decidable (s.Passes key limit windowMs) := inferInstanceAs (Decidable (_ ≤ _))

/-- The counter expires in this millisecond. -/
def Expiring (s : AuthStore) (key : String) : Prop :=
  (s.counters.find? key).bind (·.expiresAt) = some s.clock

instance (s : AuthStore) (key : String) : Decidable (s.Expiring key) :=
  inferInstanceAs (Decidable (_ = _))

/-- How many charges the counter lets pass from now on. -/
def room (s : AuthStore) (key : String) (limit : Nat) : Nat :=
  ((s.live key).map (limit - ·.count)).getD 0

/-! ## A single charge -/

theorem live_of_expiring (h : s.Expiring key) :
    ∃ c, s.live key = some c ∧ c.expiresAt = some s.clock := by
  obtain ⟨c, hc, hexpires⟩ := Option.bind_eq_some_iff.mp h
  refine ⟨c, Option.filter_eq_some_iff.mpr ⟨hc, ?_⟩, hexpires⟩
  rw [hexpires]
  exact decide_eq_true (Int.le_refl _)

theorem passes_of_expiring (h : s.Expiring key) : s.Passes key limit windowMs := by
  obtain ⟨c, hlive, hexpires⟩ := live_of_expiring h
  rw [Passes, windowScript, hlive]
  dsimp only
  split
  · simp [hexpires]
  · exact (Int.le_refl 0)

/-- A counter that has time left refuses whoever comes when it is full. -/
theorem passes_live {c : Counter} (hlive : s.live key = some c) (hexpiring : ¬ s.Expiring key)
    (hw : 0 < windowMs) : s.Passes key limit windowMs ↔ c.count < limit := by
  obtain ⟨hfind, htime⟩ := Option.filter_eq_some_iff.mp hlive
  rw [Passes, windowScript, hlive]
  dsimp only
  split
  · rename_i hfull
    refine iff_of_false (fun hle ↦ ?_) (by omega)
    cases hexpires : c.expiresAt with
    | none =>
        rw [hexpires] at hle
        exact absurd hw (Int.not_lt.mpr hle)
    | some e =>
        rw [hexpires, Option.all_some, decide_eq_true_eq] at htime
        rw [hexpires] at hle
        have hle : e - s.clock ≤ 0 := hle
        refine hexpiring ?_
        rw [Expiring, hfind, Option.bind_some, hexpires, Option.some.injEq]
        omega
  · exact iff_of_true (Int.le_refl 0) (by omega)

theorem passes_fresh (hlive : s.live key = none) (hw : 0 < windowMs) :
    s.Passes key limit windowMs ↔ 0 < limit := by
  rw [Passes, windowScript, hlive]
  dsimp only
  split
  · rename_i hfull
    refine iff_of_false (fun hle ↦ ?_) (by omega)
    have hle : s.clock + windowMs - s.clock ≤ 0 := hle
    omega
  · exact iff_of_true (Int.le_refl 0) (by omega)

/-! ## A stretch of time -/

/-- From the time `t₀` on, `w` windows have begun under the key; before that there may have been a
counter. -/
structure Windows (key : String) (windowMs t₀ : Int) (w : Nat) (s : AuthStore) : Prop where
  since : t₀ ≤ s.clock
  begun : 0 < w → ∃ c e, s.counters.find? key = some c ∧ c.expiresAt = some e ∧
    t₀ + w * windowMs ≤ e ∧ e ≤ s.clock + windowMs

/-- Of the charges that have passed since `t₀`, each has used up room that there was at `t₀` or that
came with a window. -/
structure Metered (key : String) (limit : Nat) (windowMs t₀ : Int) (held passed : Nat)
    (s : AuthStore) : Prop where
  books : ∃ w, passed + s.room key limit ≤ held + limit * w ∧ Windows key windowMs t₀ w s

/-- What a counter that is there at the beginning lets pass. -/
def held (s : AuthStore) (key : String) (limit : Nat) : Nat :=
  if (s.live key).isSome then limit else 0

theorem Metered.start : Metered key limit windowMs s.clock (s.held key limit) 0 s := by
  refine ⟨0, ?_, Int.le_refl _, nofun⟩
  rw [room, held]
  cases s.live key with
  | none => simp
  | some c => simp

/-- As time goes by, a counter stays as it is or is forgotten. -/
theorem room_later (hcounters : t.counters.find? key = s.counters.find? key)
    (hclock : s.clock ≤ t.clock) : t.room key limit ≤ s.room key limit := by
  rw [room, room]
  cases hlater : t.live key with
  | none => exact Nat.zero_le _
  | some c =>
      obtain ⟨hfind, htime⟩ := Option.filter_eq_some_iff.mp hlater
      have hlive : s.live key = some c := by
        refine Option.filter_eq_some_iff.mpr ⟨hcounters ▸ hfind, ?_⟩
        cases hexpires : c.expiresAt with
        | none => rfl
        | some e =>
            rw [hexpires, Option.all_some, decide_eq_true_eq] at htime
            rw [Option.all_some, decide_eq_true_eq]
            omega
      rw [hlive]

theorem Metered.later {t₀ : Int} {held passed : Nat}
    (h : Metered key limit windowMs t₀ held passed s)
    (hcounters : t.counters.find? key = s.counters.find? key) (hclock : s.clock ≤ t.clock) :
    Metered key limit windowMs t₀ held passed t := by
  obtain ⟨w, hbooks, hsince, hbegun⟩ := h.books
  have hroom : t.room key limit ≤ s.room key limit := room_later hcounters hclock
  refine ⟨w, by omega, by omega, fun hw ↦ ?_⟩
  obtain ⟨c, e, hc, he, hlow, hhigh⟩ := hbegun hw
  exact ⟨c, e, hcounters.trans hc, he, hlow, by omega⟩

theorem Metered.fewer {t₀ : Int} {held passed passed' : Nat}
    (h : Metered key limit windowMs t₀ held passed s) (hle : passed' ≤ passed) :
    Metered key limit windowMs t₀ held passed' s := by
  obtain ⟨w, hbooks, hwindows⟩ := h.books
  exact ⟨w, by omega, hwindows⟩

theorem find?_charge : (s.serve cr (.charge key limit windowMs)).2.counters.find? key =
    some (s.windowScript key limit windowMs).2 := by
  simp [serve]

/-- A counter that expires goes on to expire, charged or not. -/
theorem expiring_charge (h : s.Expiring key) :
    (s.serve cr (.charge key limit windowMs)).2.Expiring key := by
  obtain ⟨c, hlive, hexpires⟩ := live_of_expiring h
  rw [Expiring, find?_charge, windowScript, hlive]
  exact hexpires

theorem live_charge (hw : 0 < windowMs) :
    (s.serve cr (.charge key limit windowMs)).2.live key =
      some (s.windowScript key limit windowMs).2 := by
  refine Option.filter_eq_some_iff.mpr ⟨find?_charge, ?_⟩
  rw [windowScript]
  cases hlive : s.live key with
  | none =>
      show (some (s.clock + windowMs)).all (s.clock ≤ ·)
      rw [Option.all_some, decide_eq_true_eq]
      omega
  | some c => exact (Option.filter_eq_some_iff.mp hlive).2

theorem Metered.charge {t₀ : Int} {held passed : Nat}
    (h : Metered key limit windowMs t₀ held passed s) (hexpiring : ¬ s.Expiring key)
    (hw : 0 < windowMs) : Metered key limit windowMs t₀ held
      (passed + if s.Passes key limit windowMs then 1 else 0)
      (s.serve cr (.charge key limit windowMs)).2 := by
  obtain ⟨w, hbooks, hsince, hbegun⟩ := h.books
  have hroom : (s.serve cr (.charge key limit windowMs)).2.room key limit =
      limit - (s.windowScript key limit windowMs).2.count := by
    rw [room, live_charge hw]
    rfl
  cases hlive : s.live key with
  | some c =>
      have hcount : (s.windowScript key limit windowMs).2 = { c with count := c.count + 1 } := by
        rw [windowScript, hlive]
      have hbefore : s.room key limit = limit - c.count := by
        rw [room, hlive]
        rfl
      refine ⟨w, ?_, hsince, fun hpos ↦ ?_⟩
      · rw [hroom, hcount]
        rw [hbefore] at hbooks
        simp only [passes_live hlive hexpiring hw]
        split <;> omega
      · obtain ⟨c', e, hc', he, hlow, hhigh⟩ := hbegun hpos
        obtain rfl : c' = c :=
          Option.some.inj (hc'.symm.trans (Option.filter_eq_some_iff.mp hlive).1)
        exact ⟨_, e, find?_charge, by rw [hcount]; exact he, hlow, hhigh⟩
  | none =>
      have hfresh : (s.windowScript key limit windowMs).2 = ⟨1, some (s.clock + windowMs)⟩ := by
        rw [windowScript, hlive]
      -- the last window is over
      have hover : t₀ + w * windowMs ≤ s.clock := by
        rcases Nat.eq_zero_or_pos w with rfl | hpos
        · simpa using hsince
        · obtain ⟨c, e, hc, he, hlow, -⟩ := hbegun hpos
          have hexpired := Option.filter_eq_none_iff.mp hlive c hc
          rw [he, Option.all_some, decide_eq_true_eq] at hexpired
          omega
      refine ⟨w + 1, ?_, hsince, fun _ ↦ ?_⟩
      · rw [hroom, hfresh, Nat.mul_add_one]
        simp only [passes_fresh hlive hw]
        split <;> omega
      · refine ⟨_, s.clock + windowMs, find?_charge, by rw [hfresh], ?_, Int.le_refl _⟩
        rw [Int.natCast_succ, Int.add_mul, Int.one_mul]
        omega

/-- In a stretch of time there are at most as many windows as fit in, and one more. -/
theorem Metered.bound {t₀ : Int} {held passed : Nat}
    (h : Metered key limit windowMs t₀ held passed s) (hw : 0 < windowMs) :
    (passed : Int) ≤ held + limit * ((s.clock - t₀) / windowMs + 1) := by
  obtain ⟨w, hbooks, hsince, hbegun⟩ := h.books
  have hwindows : (w : Int) ≤ (s.clock - t₀) / windowMs + 1 := by
    rcases Nat.eq_zero_or_pos w with rfl | hpos
    · have := Int.ediv_nonneg (Int.sub_nonneg_of_le hsince) (Int.le_of_lt hw)
      omega
    · obtain ⟨c, e, -, -, hlow, hhigh⟩ := hbegun hpos
      have hfits : ((w : Int) - 1) * windowMs ≤ s.clock - t₀ := by
        rw [Int.sub_mul, Int.one_mul]
        omega
      have := Int.le_ediv_of_mul_le hw hfits
      omega
  have hpassed : (passed : Int) ≤ held + limit * w := by
    have : passed ≤ held + limit * w := by omega
    exact_mod_cast this
  have hmul := Int.mul_le_mul_of_nonneg_left hwindows (Int.natCast_nonneg limit)
  omega

end AuthStore

end Zenstier
