import Mathlib.Data.List.Basic

/-!
# Fenced blocks in a text

A text is read line by line: a line may open a block, and what follows is inside of it up to the
next line that closes blocks.  What is outside of the blocks is what a reader takes at its word.
-/

/-- Lines that open and close blocks. -/
structure Fence (α : Type) [DecidableEq α] where
  /-- What separates lines. -/
  sep : α
  opens : List α → Bool
  closes : List α → Bool
  apart : ∀ l, closes l → opens l = false

namespace Fence

variable {α : Type} [DecidableEq α] (F : Fence α)

def lines (t : List α) : List (List α) := t.splitOn F.sep

/-- Whether a line leaves us inside of a block, by whether we are. -/
def step (inside : Bool) (l : List α) : Bool :=
  if inside then !F.closes l else F.opens l

/-- Whether we are inside of a block after some lines. -/
def ends (inside : Bool) (ls : List (List α)) : Bool := ls.foldl F.step inside

/-- The lines outside of the blocks, with those that open and close them. -/
def shown : Bool → List (List α) → List (List α)
  | _, [] => []
  | inside, l :: ls =>
      (if inside && !F.closes l then [] else [l]) ++ shown (F.step inside l) ls

/-- What a text has outside of its blocks. -/
def outside (t : List α) : List (List α) := F.shown false (F.lines t)

variable {F}

theorem lines_join (a b : List α) : F.lines (a ++ F.sep :: b) = F.lines a ++ F.lines b :=
  List.splitOn_append_cons_self a b

theorem lines_single {l : List α} (h : F.sep ∉ l) : F.lines l = [l] :=
  List.splitOn_eq_singleton h

theorem lines_ne_nil (t : List α) : F.lines t ≠ [] :=
  List.splitOn_ne_nil F.sep t

/-- A text begins with what its first line begins with. -/
theorem lines_append {p : List α} (h : F.sep ∉ p) (t : List α) :
    ∃ l ls, F.lines (p ++ t) = (p ++ l) :: ls := by
  induction p with
  | nil => exact List.exists_cons_of_ne_nil (lines_ne_nil t)
  | cons a p ih =>
      rw [List.mem_cons, not_or] at h
      obtain ⟨l, ls, hlines⟩ := ih h.2
      refine ⟨l, ls, ?_⟩
      rw [lines] at hlines
      rw [lines, List.cons_append, List.splitOn_cons_eq_if_modifyHead, if_neg, hlines]
      · rfl
      · simpa using Ne.symm h.1

@[simp] theorem ends_append (inside : Bool) (ls ls' : List (List α)) :
    F.ends inside (ls ++ ls') = F.ends (F.ends inside ls) ls' :=
  List.foldl_append

@[simp] theorem ends_cons (inside : Bool) (l : List α) (ls : List (List α)) :
    F.ends inside (l :: ls) = F.ends (F.step inside l) ls := rfl

@[simp] theorem ends_nil (inside : Bool) : F.ends inside [] = inside := rfl

theorem shown_append (inside : Bool) (ls ls' : List (List α)) :
    F.shown inside (ls ++ ls') = F.shown inside ls ++ F.shown (F.ends inside ls) ls' := by
  induction ls generalizing inside with
  | nil => rfl
  | cons l ls ih =>
      rw [List.cons_append, shown, shown, ih, List.append_assoc]
      rfl

theorem step_closes {l : List α} (h : F.closes l) (inside : Bool) : F.step inside l = false := by
  cases inside with
  | true => simp [step, h]
  | false => simp [step, F.apart l h]

/-- A line that opens blocks leaves us inside of one. -/
theorem step_opens {l : List α} (h : F.opens l) (inside : Bool) : F.step inside l = true := by
  have hopen : F.closes l = false := by
    cases hcloses : F.closes l with
    | true => exact absurd h (by simp [F.apart l hcloses])
    | false => rfl
  cases inside with
  | true => simp [step, hopen]
  | false => simp [step, h]

/-- Where a text leaves us once it has begun with a line that opens blocks. -/
theorem ends_opens {t : List α} {l : List α} {ls : List (List α)} (ht : F.lines t = l :: ls)
    (h : F.opens l) (inside : Bool) : F.ends inside (F.lines t) = F.ends false (F.lines t) := by
  rw [ht, ends_cons, ends_cons, step_opens h, step_opens h]

/-! ## Texts that read alike -/

/-- Two texts show the same, wherever they stand. -/
def Alike (F : Fence α) (t t' : List α) : Prop :=
  ∀ inside, F.shown inside (F.lines t) = F.shown inside (F.lines t') ∧
    F.ends inside (F.lines t) = F.ends inside (F.lines t')

theorem Alike.refl (t : List α) : F.Alike t t := fun _ ↦ ⟨rfl, rfl⟩

theorem Alike.outside_eq {t t' : List α} (h : F.Alike t t') : F.outside t = F.outside t' :=
  (h false).1

theorem Alike.join {a a' b b' : List α} (ha : F.Alike a a') (hb : F.Alike b b') :
    F.Alike (a ++ F.sep :: b) (a' ++ F.sep :: b') := by
  intro inside
  rw [lines_join, lines_join, shown_append, shown_append, ends_append, ends_append,
    (ha inside).1, (ha inside).2]
  exact ⟨congrArg _ (hb _).1, (hb _).2⟩

theorem Alike.paragraphs {ts ts' : List (List α)} (h : List.Forall₂ F.Alike ts ts') :
    F.Alike ([F.sep, F.sep].intercalate ts) ([F.sep, F.sep].intercalate ts') := by
  induction h with
  | nil => exact Alike.refl _
  | @cons t t' ts ts' ht hts ih =>
      cases hts with
      | nil => simpa using ht
      | cons hnext hts =>
          rw [List.intercalate_cons_cons, List.intercalate_cons_cons, List.append_assoc,
            List.append_assoc]
          exact ht.join (Alike.join (Alike.refl []) ih)

/-- What stands between a line that opens blocks and one that closes them may differ, as long as
it shows the same there. -/
theorem Alike.block {start t t' stop : List α}
    (hstart : ∃ l ls, F.lines start = l :: ls ∧ F.opens l) (hstop : F.closes stop)
    (hsep : F.sep ∉ stop)
    (h : F.shown (F.ends false (F.lines start)) (F.lines t) =
      F.shown (F.ends false (F.lines start)) (F.lines t')) :
    F.Alike (start ++ F.sep :: (t ++ F.sep :: stop)) (start ++ F.sep :: (t' ++ F.sep :: stop)) := by
  obtain ⟨l, ls, hlines, hopens⟩ := hstart
  intro inside
  have hshown : ∀ b, F.shown b [stop] = [stop] := by
    intro b
    simp [shown, hstop]
  have hends : ∀ b, F.ends b [stop] = false := by
    intro b
    rw [ends_cons, step_closes hstop, ends_nil]
  simp only [lines_join, shown_append, ends_append, lines_single hsep, hshown, hends, and_true,
    ends_opens hlines hopens inside, h]

/-! ## Leaks -/

variable {β : Type} {line : β → List α} {t : β → List α}

/-- A text that depends on `x` has it on a line of its own after one that closes blocks. -/
def Leaks (F : Fence α) (line t : β → List α) : Prop :=
  ∃ p stop, F.closes stop ∧ F.sep ∉ stop ∧
    ∀ x, ∃ s, t x = p ++ F.sep :: (stop ++ F.sep :: (line x ++ F.sep :: s))

theorem Leaks.append_left (h : F.Leaks line t) (q : List α) :
    F.Leaks line fun x ↦ q ++ t x := by
  obtain ⟨p, stop, hstop, hsep, ht⟩ := h
  refine ⟨q ++ p, stop, hstop, hsep, fun x ↦ ?_⟩
  obtain ⟨s, hs⟩ := ht x
  exact ⟨s, by simp [hs]⟩

theorem Leaks.append_right (h : F.Leaks line t) (r : β → List α) :
    F.Leaks line fun x ↦ t x ++ r x := by
  obtain ⟨p, stop, hstop, hsep, ht⟩ := h
  refine ⟨p, stop, hstop, hsep, fun x ↦ ?_⟩
  obtain ⟨s, hs⟩ := ht x
  exact ⟨s ++ r x, by simp [hs]⟩

/-- A leak shows, whatever else depends on `x`. -/
theorem Leaks.outside_ne (h : F.Leaks line t) {x y : β} (hx : F.sep ∉ line x)
    (hy : F.sep ∉ line y) (hne : line x ≠ line y) : F.outside (t x) ≠ F.outside (t y) := by
  obtain ⟨p, stop, hstop, hsep, ht⟩ := h
  have hends : ∀ b, F.ends b [stop] = false := by
    intro b
    rw [ends_cons, step_closes hstop, ends_nil]
  have hshown : ∀ l s, F.sep ∉ l → F.outside (p ++ F.sep :: (stop ++ F.sep :: (l ++ F.sep :: s))) =
      (F.shown false (F.lines p) ++ F.shown (F.ends false (F.lines p)) [stop]) ++
        l :: F.shown (F.step false l) (F.lines s) := by
    intro l s hl
    simp only [outside, lines_join, shown_append, lines_single hsep, lines_single hl, hends,
      List.append_assoc]
    rfl
  obtain ⟨s, hs⟩ := ht x
  obtain ⟨s', hs'⟩ := ht y
  rw [hs, hs', hshown _ s hx, hshown _ s' hy]
  intro heq
  exact hne (List.cons_eq_cons.mp (List.append_cancel_left heq)).1

end Fence
