import Zenstier.Concurrent.Pool

/-!
# Keeping a record of a run

An observer notes what it wants to know about every step, and `Recorded.step` carries the
notes along.  A statement about all that has happened in a run is then a statement about
the state it has reached.  An observer of a pool sees the requests that take effect, with
the state they are served in.
-/

namespace Concurrent

universe u v

/-- A state with the notes taken on the way to it, the oldest first. -/
structure Recorded (S : Type u) (O : Type) where
  state : S
  log : List O

namespace Recorded

variable {S : Type u} {L : Type v} {O : Type}

/-- A step, and what the observer notes of it. -/
def step (step : S → L → Option S) (observe : S → L → List O) (r : Recorded S O) (l : L) :
    Option (Recorded S O) :=
  (step r.state l).map fun t ↦ ⟨t, r.log ++ observe r.state l⟩

theorem step_eq_some {step : S → L → Option S} {observe : S → L → List O}
    {r r' : Recorded S O} {l : L} (h : Recorded.step step observe r l = some r') :
    step r.state l = some r'.state ∧ r'.log = r.log ++ observe r.state l := by
  obtain ⟨t, ht, rfl⟩ := Option.map_eq_some_iff.mp h
  exact ⟨ht, rfl⟩

variable {step : S → L → Option S} {observe : S → L → List O}
  {guard : Recorded S O → L → Prop} {r₀ r : Recorded S O}

/-- Nothing is struck from the log. -/
theorem log_subset (h : Reach (Recorded.step step observe) guard r₀ r) : r₀.log ⊆ r.log := by
  induction h with
  | start => exact List.Subset.refl _
  | next l _ _ hs ih =>
      rw [(step_eq_some hs).2]
      exact List.Subset.trans ih (List.subset_append_left _ _)

/-- In hindsight every step of a run notes what is in the log at the end. -/
theorem reach_of_log {log : List O} (h : Reach (Recorded.step step observe) guard r₀ r)
    (hlog : r.log ⊆ log) :
    Reach step (fun s l ↦ observe s l ⊆ log) r₀.state r.state := by
  induction h with
  | start => exact .start
  | next l _ _ hs ih =>
      obtain ⟨hstep, heq⟩ := step_eq_some hs
      rw [heq, List.append_subset] at hlog
      exact (ih hlog.1).next l hlog.2 hstep

end Recorded

namespace Pool

variable {ι : Type} [DecidableEq ι] {Op : Type → Type} {ε α σ η O : Type}

/-- What an observer notes of the requests that take effect. -/
def observe (watch : ι → ∀ β : Type, Op β → σ → List O) (c : Pool ι Op ε α σ) :
    Event ι ε η → List O
  | .run i f => match c.thread i with
      | .call (β := β) op _ => match f with
          | .served | .unanswered _ => watch i β op c.shared
          | .refused _ => []
      | .pure _ | .throw _ => []
  | .env _ => []

variable {S : Server Op ε σ} {env : η → σ → σ} {watch : ι → ∀ β : Type, Op β → σ → List O}
  {r r' : Recorded (Pool ι Op ε α σ) O}

/-- A recorded request: it has no effect and is not noted, or it is served and noted. -/
theorem recorded_run {i : ι} {f : Fate ε}
    (h : Recorded.step (step S env) (observe watch) r (.run i f) = some r') :
    ∃ (β : Type) (op : Op β) (k : Except ε β → Prog Op ε α),
      r.state.thread i = .call op k ∧ r'.state = r.state.resume S i f op k ∧
      ((∃ e, f = .refused e) ∧ r'.state.shared = r.state.shared ∧ r'.log = r.log ∨
        (f = .served ∨ ∃ e, f = .unanswered e) ∧
          r'.state.shared = (S.serve op r.state.shared).2 ∧
          r'.log = r.log ++ watch i β op r.state.shared) := by
  obtain ⟨hstep, hlog⟩ := Recorded.step_eq_some h
  obtain ⟨β, op, k, hi, hstate⟩ := step_run hstep
  refine ⟨β, op, k, hi, hstate, ?_⟩
  rw [hstate, resume_shared, hlog]
  simp only [observe, hi]
  cases f with
  | served => exact .inr ⟨.inl rfl, rfl, rfl⟩
  | refused e => exact .inl ⟨⟨e, rfl⟩, rfl, List.append_nil _⟩
  | unanswered e => exact .inr ⟨.inr ⟨e, rfl⟩, rfl, rfl⟩

/-- Moves of the environment are not noted. -/
theorem recorded_env {x : η}
    (h : Recorded.step (step S env) (observe watch) r (.env x) = some r') :
    r' = ⟨⟨env x r.state.shared, r.state.thread⟩, r.log⟩ := by
  obtain ⟨hstep, hlog⟩ := Recorded.step_eq_some h
  have hstate := step_env hstep
  rw [observe, List.append_nil] at hlog
  cases r'
  simp_all

end Pool

end Concurrent
