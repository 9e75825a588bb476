import Mathlib.Data.List.Basic

/-!
# Cutting a stream at a separator

A stream comes in pieces.  A reader keeps what it has not cut yet in a buffer, puts a piece behind
it, and cuts off whole frames while it finds the separator.  A piece can end inside a separator.
What the reader cuts is what it would cut of the whole stream: the earliest separator that is
complete stays the earliest one whatever comes after it.

A separator `x :: sep` is not empty.
-/

namespace Frames

variable {α : Type*} [DecidableEq α]

/-- Where a sequence stands first. -/
def indexOf (needle : List α) : List α → Option Nat
  | [] => if needle = [] then some 0 else none
  | y :: ys => if needle <+: y :: ys then some 0 else (indexOf needle ys).map (· + 1)

theorem length_le_of_indexOf {needle ys : List α} {i : Nat} (h : indexOf needle ys = some i) :
    i + needle.length ≤ ys.length := by
  induction ys generalizing i with
  | nil =>
      rw [indexOf] at h
      split at h
      · rename_i hnil
        rw [← Option.some.inj h, hnil]
        exact Nat.le_refl 0
      · contradiction
  | cons y ys ih =>
      rw [indexOf] at h
      split at h
      · rename_i hprefix
        rw [← Option.some.inj h, Nat.zero_add]
        exact hprefix.length_le
      · obtain ⟨j, hj, rfl⟩ := Option.map_eq_some_iff.mp h
        have := ih hj
        rw [List.length_cons]
        omega

/-- An occurrence that is complete stays the first one. -/
theorem indexOf_append {needle ys : List α} {i : Nat} (hne : needle ≠ [])
    (h : indexOf needle ys = some i) (zs : List α) : indexOf needle (ys ++ zs) = some i := by
  induction ys generalizing i with
  | nil => rw [indexOf, if_neg hne] at h; contradiction
  | cons y ys ih =>
      rw [indexOf] at h
      rw [List.cons_append, indexOf]
      split at h
      · rename_i hprefix
        have hwhole : needle <+: y :: (ys ++ zs) := hprefix.trans (List.prefix_append _ zs)
        rw [if_pos hwhole, h]
      · rename_i hprefix
        obtain ⟨j, hj, rfl⟩ := Option.map_eq_some_iff.mp h
        -- it cannot begin before and end in what comes after: there is one within
        have hlength : needle.length ≤ (y :: ys).length := by
          have := length_le_of_indexOf hj
          rw [List.length_cons]
          omega
        have hlater : ¬ needle <+: y :: (ys ++ zs) := fun hwhole ↦ hprefix
          (List.prefix_of_prefix_length_le hwhole (List.prefix_append (y :: ys) zs) hlength)
        rw [if_neg hlater, ih hj]
        rfl

/-- The frames that can be cut off, and what is left. -/
def cut (x : α) (sep : List α) (buffer : List α) : List (List α) × List α :=
  match _h : indexOf (x :: sep) buffer with
  | none => ([], buffer)
  | some i =>
      let (frames, rest) := cut x sep (buffer.drop (i + (x :: sep).length))
      (buffer.take i :: frames, rest)
termination_by buffer.length
decreasing_by
  have := length_le_of_indexOf _h
  rw [List.length_cons] at this
  rw [List.length_drop, List.length_cons]
  omega

variable {x : α} {sep : List α}

theorem cut_of_none {buffer : List α} (h : indexOf (x :: sep) buffer = none) :
    cut x sep buffer = ([], buffer) := by
  rw [cut]
  split
  · rfl
  · rename_i hsome
    rw [h] at hsome
    contradiction

theorem cut_of_some {buffer : List α} {i : Nat} (h : indexOf (x :: sep) buffer = some i) :
    cut x sep buffer = (buffer.take i :: (cut x sep (buffer.drop (i + (sep.length + 1)))).1,
      (cut x sep (buffer.drop (i + (sep.length + 1)))).2) := by
  rw [cut]
  split
  · rename_i hnone
    rw [h] at hnone
    contradiction
  · rename_i j hsome
    obtain rfl : i = j := Option.some.inj (h.symm.trans hsome)
    rfl

@[simp] theorem cut_nil : cut x sep [] = ([], []) := cut_of_none rfl

/-- What is cut of a buffer is cut also when more stands behind it, and the rest after that. -/
theorem cut_append (buffer more : List α) :
    cut x sep (buffer ++ more) =
      ((cut x sep buffer).1 ++ (cut x sep ((cut x sep buffer).2 ++ more)).1,
        (cut x sep ((cut x sep buffer).2 ++ more)).2) := by
  induction hlength : buffer.length using Nat.strongRecOn generalizing buffer with
  | _ n ih =>
      cases hindex : indexOf (x :: sep) buffer with
      | none =>
          rw [cut_of_none hindex]
          rfl
      | some i =>
          have hle := length_le_of_indexOf hindex
          rw [List.length_cons] at hle
          have hshort : (buffer.drop (i + (sep.length + 1))).length < n := by
            rw [List.length_drop]
            omega
          rw [cut_of_some (indexOf_append (List.cons_ne_nil x sep) hindex more),
            cut_of_some hindex, List.take_append_of_le_length (by omega),
            List.drop_append_of_le_length hle, ih _ hshort _ rfl]
          rfl

/-- The frames that a reader cuts whose buffer holds something, as pieces come. -/
def feed (x : α) (sep buffer : List α) : List (List α) → List (List α)
  | [] => []
  | piece :: pieces =>
      let (frames, rest) := cut x sep (buffer ++ piece)
      frames ++ feed x sep rest pieces

/-- The frames do not depend on how the stream comes in pieces. -/
theorem append_feed (buffer : List α) (pieces : List (List α)) :
    (cut x sep buffer).1 ++ feed x sep (cut x sep buffer).2 pieces =
      (cut x sep (buffer ++ pieces.flatten)).1 := by
  induction pieces generalizing buffer with
  | nil => rw [feed, List.append_nil, List.flatten_nil, List.append_nil]
  | cons piece pieces ih =>
      rw [feed, List.flatten_cons, ← List.append_assoc buffer, ← ih (buffer ++ piece),
        cut_append buffer, List.append_assoc]

theorem feed_nil (pieces : List (List α)) :
    feed x sep [] pieces = (cut x sep pieces.flatten).1 := by
  have h : (cut x sep []).1 ++ feed x sep (cut x sep []).2 pieces =
      (cut x sep ([] ++ pieces.flatten)).1 := append_feed [] pieces
  rwa [cut_nil, List.nil_append, List.nil_append] at h

end Frames
