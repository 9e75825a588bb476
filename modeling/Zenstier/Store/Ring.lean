import Mathlib.Data.List.DropRight

/-!
# Ring buffers

A ring keeps the items that were pushed last, as many as its capacity.  It grows until it is
full; from then on every item takes the place of the oldest one.
-/

namespace Store

structure RingBuffer (α : Type) where
  items : List α := []
  /-- Where the oldest item is. -/
  pos : Nat := 0
deriving DecidableEq, Repr

namespace RingBuffer

variable {α : Type} {cap : Nat} {r : RingBuffer α} {xs : List α}

/-- Writes an item; a full ring must have a place that can be overwritten. -/
def push (cap : Nat) (r : RingBuffer α) (a : α) : Option (RingBuffer α) :=
  if r.items.length < cap then some { r with items := r.items ++ [a] }
  else if r.pos < r.items.length then
    some { items := r.items.set r.pos a, pos := (r.pos + 1) % cap }
  else none

/-- The items, the oldest first. -/
def unroll (cap : Nat) (r : RingBuffer α) : List α :=
  if r.items.length < cap then r.items else r.items.drop r.pos ++ r.items.take r.pos

theorem unroll_of_pos_zero {items : List α} {pos : Nat} (h : pos = 0) :
    unroll cap ⟨items, pos⟩ = items := by
  rw [unroll, h]
  split
  · rfl
  · rw [List.drop_zero, List.take_zero, List.append_nil]

/-- The ring is what pushing the items one after the other leads to. -/
structure Holds (cap : Nat) (r : RingBuffer α) (xs : List α) : Prop where
  length : r.items.length = min cap xs.length
  pos_lt : r.pos < cap
  pos_eq : r.items.length < cap → r.pos = 0
  unroll : r.unroll cap = xs.rtake cap

theorem holds_nil (h : 0 < cap) : Holds cap ({} : RingBuffer α) [] where
  length := (Nat.min_zero cap).symm
  pos_lt := h
  pos_eq _ := rfl
  unroll := (unroll_of_pos_zero rfl).trans (List.rtake_nil cap).symm

/-- A ring without places cannot be written. -/
theorem push_zero (r : RingBuffer α) (a : α) (h : r.items = []) : r.push 0 a = none := by
  rw [push, if_neg (Nat.not_lt_zero _), h, List.length_nil, if_neg (Nat.not_lt_zero _)]

/-- Overwriting the oldest item drops it and adds the new one at the end. -/
theorem unroll_set {items : List α} {pos : Nat} (hlength : items.length = cap) (hpos : pos < cap)
    (a : α) :
    unroll cap { items := items.set pos a, pos := (pos + 1) % cap } =
      (items.drop pos ++ items.take pos).tail ++ [a] := by
  have hset : items.set pos a = items.take pos ++ a :: items.drop (pos + 1) :=
    List.set_eq_take_append_cons_drop.trans (if_pos (hlength ▸ hpos))
  have htake : (items.take pos).length = pos := List.length_take_of_le (by omega)
  have hdrop : (items.drop pos ++ items.take pos).tail =
      items.drop (pos + 1) ++ items.take pos := by
    rw [List.drop_eq_getElem_cons (hlength ▸ hpos)]
    rfl
  rw [hdrop]
  rcases Nat.lt_or_eq_of_le (Nat.succ_le_of_lt hpos) with hlt | heq
  · rw [unroll, if_neg (by simp [hlength]), Nat.mod_eq_of_lt hlt, hset]
    dsimp only
    have hsplit : items.take pos ++ a :: items.drop (pos + 1) =
        (items.take pos ++ [a]) ++ items.drop (pos + 1) := by
      rw [List.append_assoc]
      rfl
    have hlen : (items.take pos ++ [a]).length = pos + 1 := by
      rw [List.length_append, htake]
      rfl
    rw [hsplit, List.drop_left' hlen, List.take_left' hlen, List.append_assoc]
  · -- the last place has been written, and the oldest item is the first one
    have hmod : (pos + 1) % cap = 0 := by rw [← heq, Nat.mod_self]
    rw [unroll_of_pos_zero hmod, hset, List.drop_eq_nil_of_le (by omega)]
    rfl

theorem rtake_concat_of_le (h : cap ≤ xs.length) (hcap : 0 < cap) (a : α) :
    (xs ++ [a]).rtake cap = (xs.rtake cap).tail ++ [a] := by
  have hlen : (xs ++ [a]).length - cap = xs.length - cap + 1 := by
    rw [List.length_append, List.length_singleton]
    omega
  rw [List.rtake, List.rtake, hlen, List.drop_append_of_le_length (by omega), List.tail_drop]

theorem Holds.push (h : Holds cap r xs) (a : α) :
    ∃ r', r.push cap a = some r' ∧ Holds cap r' (xs ++ [a]) := by
  have hlen : (xs ++ [a]).length = xs.length + 1 := List.length_append
  have hlength := h.length
  have hcap := h.pos_lt
  unfold RingBuffer.push
  split
  · rename_i hroom
    refine ⟨_, rfl, ?_, hcap, fun _ ↦ h.pos_eq hroom, ?_⟩
    · rw [List.length_append, List.length_singleton, hlen]
      omega
    · have hitems := (unroll_of_pos_zero (h.pos_eq hroom)).symm.trans h.unroll
      rw [List.rtake, show xs.length - cap = 0 by omega, List.drop_zero] at hitems
      refine (unroll_of_pos_zero (h.pos_eq hroom)).trans ?_
      rw [List.rtake, hlen, show xs.length + 1 - cap = 0 by omega, List.drop_zero, hitems]
  · rename_i hfull
    have hitems : r.items.length = cap := by omega
    rw [if_pos (hitems ▸ hcap)]
    refine ⟨_, rfl, ?_, Nat.mod_lt _ (by omega), ?_, ?_⟩
    · rw [List.length_set, hlen]
      omega
    · intro hlt
      rw [List.length_set] at hlt
      exact absurd hlt hfull
    · have hunroll := h.unroll
      rw [RingBuffer.unroll, if_neg hfull] at hunroll
      rw [unroll_set hitems hcap a, hunroll, rtake_concat_of_le (by omega) (by omega)]

/-- Items pushed one after the other. -/
theorem Holds.pushAll (h : Holds cap r xs) (ys : List α) :
    ∃ r', ys.foldlM (RingBuffer.push cap) r = some r' ∧ Holds cap r' (xs ++ ys) := by
  induction ys generalizing r xs with
  | nil => exact ⟨r, rfl, (List.append_nil xs).symm ▸ h⟩
  | cons y ys ih =>
      obtain ⟨r₁, hpush, h₁⟩ := h.push y
      obtain ⟨r', hrest, h'⟩ := ih h₁
      rw [List.append_assoc] at h'
      refine ⟨r', ?_, h'⟩
      rw [List.foldlM_cons, hpush]
      exact hrest

end RingBuffer

end Store
