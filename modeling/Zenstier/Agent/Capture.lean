import Zenstier.Store.Ring
import Zenstier.Text.Utf8

/-!
# Captured output

A `capWriter` takes everything that a process writes to one of its streams, and keeps the
beginning and the end of it: half of its bytes for either.
-/

namespace Zenstier.Agent

open Store Utf8

structure CapWriter where
  head : List UInt8 := []
  /-- `tail` and `tailPos`. -/
  tail : RingBuffer UInt8 := {}
  max : Nat
  total : Nat := 0
deriving DecidableEq, Repr

def newCapWriter (max : Int) : CapWriter where
  max := if max ≤ 0 then 1 <<< 20 else max.toNat

namespace CapWriter

variable (w : CapWriter)

def half : Nat := w.max / 2

/-- Fills the head first, and then the ring.  A ring without places panics. -/
def write (p : List UInt8) : Option CapWriter := do
  let room := w.half - w.head.length
  let tail ← (p.drop room).foldlM (RingBuffer.push w.half) w.tail
  return { w with head := w.head ++ p.take room, tail, total := w.total + p.length }

def truncated : Bool := w.head.length + w.tail.items.length < w.total

def dropped : Nat := w.total - w.head.length - w.tail.items.length

/-- What stands for the bytes that are left out. -/
def marker (dropped : Nat) : List UInt8 :=
  Utf8.utf8 (s!"\n...[{dropped} bytes truncated]...\n").toList

def orderedTail : List UInt8 := w.tail.unroll w.half

def bytes : List UInt8 :=
  if w.truncated then w.head ++ marker w.dropped ++ w.orderedTail else w.head ++ w.orderedTail

/-! ## What is kept -/

/-- What is kept of some bytes: all of them, or `half` of them at either end with a marker in
between. -/
def kept (half : Nat) (bytes : List UInt8) : List UInt8 :=
  if bytes.length ≤ 2 * half then bytes
  else bytes.take half ++ marker (bytes.length - 2 * half) ++ bytes.rtake half

/-- The writer has taken the bytes. -/
structure Captures (w : CapWriter) (bytes : List UInt8) : Prop where
  head : w.head = bytes.take w.half
  tail : w.tail.Holds w.half (bytes.drop w.half) ∨ bytes = [] ∧ w.tail = {}
  total : w.total = bytes.length

theorem captures_new (max : Int) : (newCapWriter max).Captures [] where
  head := List.take_nil.symm
  tail := .inr ⟨rfl, rfl⟩
  total := rfl

variable {w} {written : List UInt8}

/-- Without places in the ring there is nothing that could have been written. -/
theorem Captures.eq_nil (h : w.Captures written) (hhalf : w.half = 0) : written = [] := by
  rcases h.tail with htail | ⟨hnil, -⟩
  · exact absurd htail.pos_lt (by omega)
  · exact hnil

/-- The writer takes whatever is written, if it has any room at all. -/
theorem Captures.write (h : w.Captures written) (p : List UInt8) (hroom : 0 < w.half ∨ p = []) :
    ∃ w', w.write p = some w' ∧ w'.max = w.max ∧ w'.Captures (written ++ p) := by
  have hsplit : w.half - w.head.length = w.half - written.length := by
    rw [h.head, List.length_take]
    omega
  have hhead : (written ++ p).take w.half =
      w.head ++ p.take (w.half - w.head.length) := by
    rw [List.take_append, h.head, ← h.head, hsplit]
  have hdrop : (written ++ p).drop w.half =
      written.drop w.half ++ p.drop (w.half - w.head.length) := by
    rw [List.drop_append, hsplit]
  have hpush : ∃ tail, (p.drop (w.half - w.head.length)).foldlM (RingBuffer.push w.half) w.tail =
      some tail ∧ (tail.Holds w.half ((written ++ p).drop w.half) ∨
        written ++ p = [] ∧ tail = {}) := by
    rcases h.tail with htail | ⟨rfl, htail⟩
    · obtain ⟨tail, hpush, hholds⟩ := htail.pushAll (p.drop (w.half - w.head.length))
      exact ⟨tail, hpush, .inl (hdrop ▸ hholds)⟩
    · rcases hroom with hpos | rfl
      · rw [htail, hdrop, List.drop_nil]
        obtain ⟨tail, hpush, hholds⟩ :=
          (RingBuffer.holds_nil hpos).pushAll (p.drop (w.half - w.head.length))
        exact ⟨tail, hpush, .inl hholds⟩
      · rw [List.drop_nil]
        exact ⟨w.tail, rfl, .inr ⟨rfl, htail⟩⟩
  obtain ⟨tail, hpush, htail⟩ := hpush
  refine ⟨{ w with head := w.head ++ p.take (w.half - w.head.length), tail
                   total := w.total + p.length }, ?_, rfl, hhead.symm, htail, ?_⟩
  · rw [CapWriter.write, hpush]
    rfl
  · rw [List.length_append, ← h.total]

/-- A write that does not fit anywhere panics. -/
theorem Captures.write_none (h : w.Captures written) (hhalf : w.half = 0) {p : List UInt8}
    (hp : p ≠ []) : w.write p = none := by
  have hbytes := h.eq_nil hhalf
  have htail : w.tail = {} := by
    rcases h.tail with htail | ⟨-, htail⟩
    · exact absurd htail.pos_lt (by omega)
    · exact htail
  obtain ⟨b, p, rfl⟩ := List.exists_cons_of_ne_nil hp
  rw [CapWriter.write, hhalf, Nat.zero_sub, List.drop_zero, List.foldlM_cons, htail,
    RingBuffer.push_zero _ b rfl]
  rfl

theorem Captures.length_tail (h : w.Captures written) :
    w.tail.items.length = min w.half (written.length - w.half) := by
  rcases h.tail with htail | ⟨rfl, htail⟩
  · rw [htail.length, List.length_drop]
  · rw [htail, List.length_nil, Nat.zero_sub, Nat.min_zero]

theorem Captures.orderedTail (h : w.Captures written) :
    w.orderedTail = (written.drop w.half).rtake w.half := by
  rcases h.tail with htail | ⟨rfl, htail⟩
  · exact htail.unroll
  · rw [CapWriter.orderedTail, htail, RingBuffer.unroll_of_pos_zero rfl, List.drop_nil,
      List.rtake_nil]

theorem Captures.length_head (h : w.Captures written) :
    w.head.length = min w.half written.length := by
  rw [h.head, List.length_take]

theorem Captures.truncated (h : w.Captures written) :
    w.truncated = decide (2 * w.half < written.length) := by
  rw [CapWriter.truncated, decide_eq_decide, h.length_head, h.length_tail, h.total]
  omega

theorem Captures.dropped (h : w.Captures written) : w.dropped = written.length - 2 * w.half := by
  rw [CapWriter.dropped, h.length_head, h.length_tail, h.total]
  omega

theorem Captures.bytes (h : w.Captures written) : w.bytes = kept w.half written := by
  rw [CapWriter.bytes, h.truncated, h.dropped, h.orderedTail, h.head, kept]
  by_cases hfits : written.length ≤ 2 * w.half
  · have hall : (written.drop w.half).rtake w.half = written.drop w.half := by
      rw [List.rtake, List.length_drop, show written.length - w.half - w.half = 0 by omega,
        List.drop_zero]
    rw [if_pos hfits, if_neg (by rw [decide_eq_true_eq]; omega), hall, List.take_append_drop]
  · have hlast : (written.drop w.half).rtake w.half = written.rtake w.half := by
      rw [List.rtake, List.rtake, List.length_drop, List.drop_drop]
      congr 1
      omega
    rw [if_neg hfits, if_pos (by rw [decide_eq_true_eq]; omega), hlast]

end CapWriter

end Zenstier.Agent
