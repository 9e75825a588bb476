import Zenstier.Concurrent.Logic
import Zenstier.Concurrent.Residual
import Mathlib.Logic.Function.Basic

/-!
# Interleaving

`Reach` collects the states a transition function reaches from an initial state by
events that satisfy a guard.  A `Pool` is a family of programs over one shared state;
its events are a single request of one of the programs, with the fate of that request,
or an event of the environment (the clock, an expiry).  `Pool.step` executes one event,
so `Reach` over it ranges over every interleaving, and a guard selects the schedules
that meet a condition.
-/

namespace Concurrent

universe u v

section Reach

variable {S : Type u} {L : Type v}

/-- The states reached by events that satisfy the guard. -/
inductive Reach (step : S → L → Option S) (guard : S → L → Prop) (s₀ : S) : S → Prop
  | start : Reach step guard s₀ s₀
  | next {s t : S} (l : L) (h : Reach step guard s₀ s) (hg : guard s l)
      (hs : step s l = some t) : Reach step guard s₀ t

variable {step : S → L → Option S} {guard : S → L → Prop} {s₀ : S}

/-- What holds initially and is preserved by every guarded step holds of every
reached state. -/
theorem Reach.invariant {I : S → Prop} (h₀ : I s₀)
    (hstep : ∀ s l t, I s → guard s l → step s l = some t → I t) {s : S}
    (h : Reach step guard s₀ s) : I s := by
  induction h with
  | start => exact h₀
  | next l _ hg hs ih => exact hstep _ l _ ih hg hs

/-- A stricter guard reaches fewer states. -/
theorem Reach.mono {guard' : S → L → Prop} (hg : ∀ s l, guard s l → guard' s l) {s : S}
    (h : Reach step guard s₀ s) : Reach step guard' s₀ s := by
  induction h with
  | start => exact .start
  | next l _ hl hs ih => exact ih.next l (hg _ _ hl) hs

/-- Reaching further, under a guard that is at least as strict. -/
theorem Reach.extend {guard' : S → L → Prop} {s t : S} (h : Reach step guard s₀ s)
    (ht : Reach step guard' s t) (hg : ∀ s l, guard' s l → guard s l) :
    Reach step guard s₀ t := by
  induction ht with
  | start => exact h
  | next l _ hl hs ih => exact ih.next l (hg _ _ hl) hs

/-- Executes a list of events, as long as they satisfy the guard. -/
def exec (step : S → L → Option S) (guard : S → L → Prop)
    [∀ s l, Decidable (guard s l)] : S → List L → Option S
  | s, [] => some s
  | s, l :: ls => if guard s l then (step s l).bind fun t ↦ exec step guard t ls else none

/-- Events that can be executed one after the other reach their final state. -/
theorem Reach.of_exec [∀ s l, Decidable (guard s l)] {s t : S} {ls : List L}
    (hr : Reach step guard s₀ s) (h : exec step guard s ls = some t) :
    Reach step guard s₀ t := by
  induction ls generalizing s with
  | nil =>
      cases h
      exact hr
  | cons l ls ih =>
      rw [exec] at h
      split at h
      · rename_i hg
        obtain ⟨m, hm, hls⟩ := Option.bind_eq_some_iff.mp h
        exact ih (hr.next l hg hm) hls
      · contradiction

/-- What holds at the end of an execution holds in a reached state. -/
theorem Reach.exists_of_exec [∀ s l, Decidable (guard s l)] {p : S → Prop} [DecidablePred p]
    (ls : List L) (h : (exec step guard s₀ ls).any (fun t ↦ decide (p t)) = true) :
    ∃ t, Reach step guard s₀ t ∧ p t := by
  cases ht : exec step guard s₀ ls with
  | none => simp [ht] at h
  | some t => exact ⟨t, Reach.start.of_exec ht, by simpa [ht] using h⟩

end Reach

/-- Programs indexed by `ι` over one shared state. -/
structure Pool (ι : Type) (Op : Type → Type) (ε α σ : Type) where
  /-- The shared state. -/
  shared : σ
  /-- What is left of each program. -/
  thread : ι → Prog Op ε α

/-- One event of a pool: a request of a program, or a move of the environment. -/
inductive Event (ι ε η : Type)
  /-- The program `i` issues its next request, which meets the fate `f`. -/
  | run (i : ι) (f : Fate ε)
  /-- The environment acts on the shared state. -/
  | env (x : η)
deriving DecidableEq

namespace Pool

variable {ι : Type} [DecidableEq ι] {Op : Type → Type} {ε α σ η : Type}

/-- The pool after the program `i` has issued `op`. -/
def resume (S : Server Op ε σ) (c : Pool ι Op ε α σ) (i : ι) (f : Fate ε) {β : Type}
    (op : Op β) (k : Except ε β → Prog Op ε α) : Pool ι Op ε α σ :=
  ⟨S.after f op c.shared, Function.update c.thread i (k (S.reply f op c.shared))⟩

/-- Executes one event. -/
def step (S : Server Op ε σ) (env : η → σ → σ) (c : Pool ι Op ε α σ) :
    Event ι ε η → Option (Pool ι Op ε α σ)
  | .run i f => match c.thread i with
      | .call op k => some (c.resume S i f op k)
      | .pure _ | .throw _ => none
  | .env x => some ⟨env x c.shared, c.thread⟩

variable {S : Server Op ε σ} {env : η → σ → σ} {c d : Pool ι Op ε α σ}

/-- A program that steps is at a request. -/
theorem step_run {i : ι} {f : Fate ε} (h : step S env c (.run i f) = some d) :
    ∃ (β : Type) (op : Op β) (k : Except ε β → Prog Op ε α),
      c.thread i = .call op k ∧ d = c.resume S i f op k := by
  cases hi : c.thread i with
  | pure a => simp [step, hi] at h
  | throw e => simp [step, hi] at h
  | call op k =>
      simp only [step, hi, Option.some.injEq] at h
      exact ⟨_, op, k, rfl, h.symm⟩

/-- An event of the environment leaves every program where it is. -/
theorem step_env {x : η} (h : step S env c (.env x) = some d) :
    d = ⟨env x c.shared, c.thread⟩ := (Option.some.inj h).symm

@[simp] theorem resume_shared (c : Pool ι Op ε α σ) (i : ι) (f : Fate ε) {β : Type}
    (op : Op β) (k : Except ε β → Prog Op ε α) :
    (c.resume S i f op k).shared = S.after f op c.shared := rfl

@[simp] theorem resume_thread_self (c : Pool ι Op ε α σ) (i : ι) (f : Fate ε) {β : Type}
    (op : Op β) (k : Except ε β → Prog Op ε α) :
    (c.resume S i f op k).thread i = k (S.reply f op c.shared) :=
  Function.update_self ..

theorem resume_thread_of_ne (c : Pool ι Op ε α σ) {i j : ι} (hj : j ≠ i) (f : Fate ε)
    {β : Type} (op : Op β) (k : Except ε β → Prog Op ε α) :
    (c.resume S i f op k).thread j = c.thread j := Function.update_of_ne hj ..

/-- A property of the residuals is kept if the residual that moves keeps it. -/
theorem forall_resume {Φ : ι → Prog Op ε α → Prop} (h : ∀ j, Φ j (c.thread j)) (i : ι)
    (f : Fate ε) {β : Type} (op : Op β) (k : Except ε β → Prog Op ε α)
    (hi : Φ i (k (S.reply f op c.shared))) (j : ι) :
    Φ j ((c.resume S i f op k).thread j) := by
  by_cases hj : j = i
  · subst hj
    rw [resume_thread_self]
    exact hi
  · rw [resume_thread_of_ne c hj]
    exact h j

/-- The replies of one server satisfy a contract that its answers satisfy and that no
error breaks. -/
theorem reply_contract {A : ∀ β : Type, Op β → Except ε β → Prop} {s : σ}
    (hserve : ∀ {β : Type} (op : Op β), A β op (S.serve op s).1)
    (herr : ∀ {β : Type} (op : Op β) (e : ε), A β op (.error e)) (f : Fate ε) {β : Type}
    (op : Op β) : A β op (S.reply f op s) := by
  cases f with
  | served => exact hserve op
  | refused e => exact herr op e
  | unanswered e => exact herr op e

end Pool

end Concurrent
