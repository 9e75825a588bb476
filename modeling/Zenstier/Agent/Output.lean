import Zenstier.Agent.Delivery

/-!
# Taking whatever a process writes

A `capWriter` reports every byte that it is handed as written, since a short count would make
the copier close the pipe.  What it holds in the end depends on the bytes only, not on the
writes they came in.  All of this needs a ring with room for at least one byte: with a bound of
one the first byte is written to a place that is not there, and the agent panics.
-/

namespace Zenstier.Agent

open Store Utf8

/-! ## The marker -/

/-- The loop of `itoa`, with the places of its buffer that are still free. -/
def itoaLoop : Nat → Nat → List UInt8 → Option (List UInt8)
  | _, 0, buf => some buf
  | 0, _ + 1, _ => none
  | places + 1, n + 1, buf =>
      itoaLoop places ((n + 1) / 10) ((48 + (n + 1) % 10).toUInt8 :: buf)

/-- `itoa`, with a buffer of 20 bytes. -/
def itoa (n : Nat) : Option (List UInt8) :=
  if n = 0 then some (Utf8.utf8 ['0']) else itoaLoop 20 n []

theorem utf8_digitChar {d : Nat} (h : d < 10) : Utf8.utf8 [d.digitChar] = [(48 + d).toUInt8] := by
  have hall : ∀ d : Fin 10, Utf8.utf8 [(d : Nat).digitChar] = [(48 + d.val).toUInt8] := by decide
  exact hall ⟨d, h⟩

/-- The digits are written from the last one on, into the end of the buffer. -/
theorem itoaLoop_eq (places n : Nat) (buf : List UInt8) (hn : 0 < n) (h : n < 10 ^ places) :
    itoaLoop places n buf = some (Utf8.utf8 (Nat.toDigits 10 n) ++ buf) := by
  induction places generalizing n buf with
  | zero => omega
  | succ places ih =>
      obtain ⟨m, rfl⟩ := Nat.exists_eq_add_of_lt hn
      rw [Nat.zero_add] at h ⊢
      rw [itoaLoop]
      have hlast := utf8_digitChar (Nat.mod_lt (m + 1) (by decide : 0 < 10))
      by_cases hsmall : m + 1 < 10
      · rw [Nat.div_eq_of_lt hsmall, itoaLoop, Nat.toDigits_of_lt_base hsmall]
        rw [Nat.mod_eq_of_lt hsmall] at hlast ⊢
        rw [hlast]
        rfl
      · have hdigits := Nat.toDigits_of_base_le (by decide : 1 < 10) (Nat.not_lt.mp hsmall)
        rw [ih _ _ (by omega) (by rw [Nat.pow_succ] at h; omega), hdigits, Utf8.utf8_append, hlast,
          List.append_assoc]
        rfl

/-- `itoa` gives the decimal digits of every number that an `int` can be. -/
theorem itoa_eq {n : Nat} (h : n < 2 ^ 63) : itoa n = some (Utf8.utf8 (toString n).toList) := by
  unfold itoa
  split
  · rename_i hzero
    rw [hzero]
    rfl
  · rename_i hpos
    have hrepr : (toString n).toList = Nat.toDigits 10 n := String.toList_ofList
    rw [itoaLoop_eq 20 n [] (Nat.pos_of_ne_zero hpos) (by omega), List.append_nil, hrepr]

/-- The marker as `Bytes` puts it together. -/
theorem marker_eq {n : Nat} (h : n < 2 ^ 63) : ∃ digits, itoa n = some digits ∧
    CapWriter.marker n = Zenstier.utf8 "\n...[" ++ digits ++
      Zenstier.utf8 " bytes truncated]...\n" := by
  refine ⟨_, itoa_eq h, ?_⟩
  have hmarker : s!"\n...[{n} bytes truncated]...\n" =
      "\n...[" ++ toString n ++ " bytes truncated]...\n" := rfl
  rw [CapWriter.marker, hmarker, String.toList_append, String.toList_append, Utf8.utf8_append,
    Utf8.utf8_append]
  rfl

/-! ## One writer -/

namespace CapWriter

/-- `Write`, with the number of bytes that it reports. -/
def report (w : CapWriter) (p : List UInt8) : Option (Nat × CapWriter) := do
  let n := p.length
  let w' ← w.write p
  return (n, w')

/-- Writes one after the other, with what they report. -/
def reports (w : CapWriter) : List (List UInt8) → Option (List Nat × CapWriter)
  | [] => some ([], w)
  | p :: writes => do
      let (n, w) ← w.report p
      let (ns, w) ← w.reports writes
      return (n :: ns, w)

variable {w : CapWriter} {written : List UInt8}

/-- A writer with room takes all there is. -/
theorem Captures.reports (h : w.Captures written) (hhalf : 0 < w.half)
    (writes : List (List UInt8)) :
    ∃ w', w.reports writes = some (writes.map (·.length), w') ∧ w'.half = w.half ∧
      w'.Captures (written ++ writes.flatten) := by
  induction writes generalizing w written with
  | nil =>
      refine ⟨w, rfl, rfl, ?_⟩
      rw [List.flatten_nil, List.append_nil]
      exact h
  | cons p writes ih =>
      obtain ⟨w₁, hwrite, hmax, h₁⟩ := h.write p (.inl hhalf)
      have hhalf₁ : w₁.half = w.half := by rw [CapWriter.half, hmax, CapWriter.half]
      obtain ⟨w', hreports, hhalf', h'⟩ := ih h₁ (hhalf₁ ▸ hhalf)
      refine ⟨w', ?_, hhalf'.trans hhalf₁, ?_⟩
      · rw [CapWriter.reports, CapWriter.report, hwrite]
        change (do
          let (ns, w) ← w₁.reports writes
          return (p.length :: ns, w)) = _
        rw [hreports]
        rfl
      · rw [List.flatten_cons, ← List.append_assoc]
        exact h'

/-- What a writer says that has taken some bytes. -/
theorem Captures.holds (h : w.Captures written) :
    (written.length ≤ 2 * w.half →
      w.bytes = written ∧ w.truncated = false ∧ w.dropped = 0) ∧
    (2 * w.half < written.length →
      w.bytes = written.take w.half ++ marker (written.length - 2 * w.half) ++
          written.rtake w.half ∧
        w.truncated = true ∧ w.dropped = written.length - 2 * w.half) := by
  rw [h.bytes, h.truncated, h.dropped, kept]
  constructor
  · intro hfits
    rw [if_pos hfits]
    exact ⟨rfl, decide_eq_false (by omega), by omega⟩
  · intro hlong
    rw [if_neg (by omega)]
    exact ⟨rfl, decide_eq_true hlong, rfl⟩

theorem half_newCapWriter {max : Int} (hmax : 2 ≤ max) :
    (newCapWriter max).half = (max / 2).toNat := by
  rw [half, newCapWriter, if_neg (by omega)]
  show max.toNat / 2 = _
  omega

/-- A new writer, and all that is written to it. -/
theorem reports_newCapWriter {max : Int} (hmax : 2 ≤ max) (writes : List (List UInt8)) :
    ∃ w, (newCapWriter max).reports writes = some (writes.map (·.length), w) ∧
      w.half = (max / 2).toNat ∧ w.Captures writes.flatten := by
  have hhalf := half_newCapWriter hmax
  obtain ⟨w, hreports, hw, hcaptures⟩ := (captures_new max).reports (by omega) writes
  exact ⟨w, hreports, hw.trans hhalf, hcaptures⟩

/-- Every write is reported in full; in the end the writer holds all the bytes, or half of its
bound at either end of them. -/
theorem newCapWriter_holds (max : Int) (hmax : 2 ≤ max) (writes : List (List UInt8)) :
    ∃ w, (newCapWriter max).reports writes = some (writes.map (·.length), w) ∧
      (writes.flatten.length ≤ 2 * (max / 2).toNat →
        w.bytes = writes.flatten ∧ w.truncated = false ∧ w.dropped = 0) ∧
      (2 * (max / 2).toNat < writes.flatten.length →
        w.bytes = writes.flatten.take (max / 2).toNat ++
            marker (writes.flatten.length - 2 * (max / 2).toNat) ++
            writes.flatten.rtake (max / 2).toNat ∧
          w.truncated = true ∧
          w.dropped = writes.flatten.length - 2 * (max / 2).toNat) ∧
      ∀ writes' : List (List UInt8), writes'.flatten = writes.flatten →
        ∃ w', (newCapWriter max).reports writes' = some (writes'.map (·.length), w') ∧
          w'.bytes = w.bytes ∧ w'.truncated = w.truncated ∧ w'.dropped = w.dropped := by
  obtain ⟨w, hreports, hhalf, h⟩ := reports_newCapWriter hmax writes
  have hholds := h.holds
  rw [hhalf] at hholds
  refine ⟨w, hreports, hholds.1, hholds.2, fun writes' hflatten ↦ ?_⟩
  obtain ⟨w', hreports', hhalf', h'⟩ := reports_newCapWriter hmax writes'
  refine ⟨w', hreports', ?_⟩
  rw [h'.bytes, h.bytes, h'.truncated, h.truncated, h'.dropped, h.dropped, hflatten, hhalf', hhalf]
  exact ⟨rfl, rfl, rfl⟩

/-- Five bytes in three writes, one more than there is room for. -/
theorem newCapWriter_holds_five :
    ∃ w, (newCapWriter 4).reports [[1, 2, 3], [], [4, 5]] = some ([3, 0, 2], w) ∧
      w.bytes = [1, 2] ++ marker 1 ++ [4, 5] ∧ w.truncated = true ∧ w.dropped = 1 := by
  obtain ⟨w, hreports, -, hlong, -⟩ := newCapWriter_holds 4 (by decide) [[1, 2, 3], [], [4, 5]]
  exact ⟨w, hreports, hlong (by decide)⟩

end CapWriter

/-! ## The writers of a command -/

/-- `Load`: the bound that the file gives, unless it gives none. -/
def loadExec (maxOutputBytes : Int) : ExecConfig where
  maxOutputBytes :=
    if maxOutputBytes ≤ 0 then defaultExec.maxOutputBytes else maxOutputBytes

namespace Execution

variable {x : Execution}

/-- The session after all that the process has written, unless a write has panicked. -/
def survive (x : Execution) : Option Session := x.events.foldlM x.serve x.start

/-- The writers take everything, or there is nothing to take. -/
theorem isSome_serveAll {s : Session} {pending written : OutputStream → List UInt8}
    (h : s.At x pending written) (events : List OutputEvent)
    (hroom : 0 < x.half ∨ ∀ stream, writes events stream = []) :
    (events.foldlM x.serve s).isSome := by
  induction events generalizing s pending written with
  | nil => rfl
  | cons e events ih =>
      obtain ⟨he, hevents⟩ := room_cons hroom
      obtain ⟨s', hserve, h', -, -⟩ := serve_eq h e he
      rw [List.foldlM_cons, hserve]
      exact ih h' hevents

/-- A session that survives ends with a result. -/
theorem follow_ne_nil {s : Session} {events : List OutputEvent}
    (h : (events.foldlM x.serve s).isSome) : x.follow s events ≠ [] := by
  induction events generalizing s with
  | nil => exact List.append_ne_nil_of_right_ne_nil _ (List.cons_ne_nil _ _)
  | cons e events ih =>
      rw [List.foldlM_cons] at h
      rw [follow]
      cases hserve : x.serve s e with
      | none =>
          rw [hserve] at h
          cases h
      | some s' =>
          rw [hserve] at h
          exact ih h

theorem isSome_survive_iff (x : Execution) : x.survive.isSome ↔ ¬ x.Panics := by
  constructor
  · intro h hpanics
    exact follow_ne_nil h (results_of_panics hpanics)
  · intro h
    refine isSome_serveAll start_at x.events ?_
    by_cases hhalf : x.half = 0
    · right
      intro stream
      by_contra hne
      exact h ⟨hhalf, stream, hne⟩
    · exact .inl (Nat.pos_of_ne_zero hhalf)

/-- The captures have no room at all if either bound is one. -/
theorem half_eq_zero_iff (fileMax : Int) (x : Execution) :
    { x with cfg := loadExec fileMax }.half = 0 ↔ fileMax = 1 ∨ x.maxOutput = 1 := by
  obtain ⟨bound, hbound, hpos, hone⟩ : ∃ bound, (loadExec fileMax).maxOutputBytes = bound ∧
      0 < bound ∧ (bound = 1 ↔ fileMax = 1) := by
    unfold loadExec
    split
    · exact ⟨_, rfl, by decide, iff_of_false (by decide) (by omega)⟩
    · exact ⟨fileMax, rfl, by omega, Iff.rfl⟩
  have hmax : { x with cfg := loadExec fileMax }.maxOut =
      if 0 < x.maxOutput ∧ x.maxOutput < bound then x.maxOutput else bound := by
    rw [← hbound]
    rfl
  rw [half, CapWriter.half, newCapWriter, hmax]
  dsimp only
  split <;> split <;> omega

/-- No write panics, unless one of the two bounds is one and there is something to write. -/
theorem survive_iff (fileMax : Int) (x : Execution) :
    { x with cfg := loadExec fileMax }.survive.isSome ↔
      (fileMax ≠ 1 ∧ x.maxOutput ≠ 1) ∨ ∀ stream, writes x.events stream = [] := by
  rw [isSome_survive_iff, Panics, half_eq_zero_iff]
  constructor
  · intro h
    by_cases hone : fileMax = 1 ∨ x.maxOutput = 1
    · refine .inr fun stream ↦ ?_
      by_contra hne
      exact h ⟨hone, stream, hne⟩
    · exact .inl (not_or.mp hone)
  · rintro (⟨hfile, hcommand⟩ | hnil) ⟨hone, stream, hne⟩
    · exact hone.elim hfile hcommand
    · exact hne (hnil stream)

/-- A command that asks for one byte of output is the end of the agent. -/
theorem not_survive :
    ¬ ∀ (fileMax : Int) (x : Execution), 1 ≤ fileMax →
      { x with cfg := loadExec fileMax }.survive.isSome := by
  intro hall
  have h := (isSome_survive_iff _).mp (hall (1 <<< 20)
    { exampleExecution false [⟨.stdout, .write [0x41]⟩] with maxOutput := 1 } (by decide))
  refine h ⟨(half_eq_zero_iff _ _).mpr (.inr rfl), .stdout, ?_⟩
  decide

end Execution

end Zenstier.Agent
