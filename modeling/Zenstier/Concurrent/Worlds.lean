import Zenstier.Concurrent.Lift
import Zenstier.Concurrent.Residual
import Mathlib.Order.Defs.PartialOrder

/-!
# Programs in a growing world

What a program may request can depend on what has happened around it: a time that has passed, an
entry that has been made.  `Onward A P w p` says that in a world that only grows from `w` on, every
request of `p` satisfies `P` in the world in which it is made, as long as every reply satisfies the
contract `A` in the world in which it is given.
-/

namespace Concurrent

namespace Prog

variable {Op : Type → Type} {ε α γ τ : Type} [Preorder τ]
  {A : τ → ∀ β : Type, Op β → Except ε β → Prop}
  {P : τ → ∀ β : Type, Op β → Prop} {w w' : τ}

/-- In a world that grows between one request and the next, every request satisfies `P` when it is
made, as long as every reply satisfies `A` when it is given. -/
def Onward (A : τ → ∀ β : Type, Op β → Except ε β → Prop) (P : τ → ∀ β : Type, Op β → Prop) :
    τ → Prog Op ε α → Prop
  | _, .pure _ | _, .throw _ => True
  | w, .call (β := β) op k => P w β op ∧ ∀ w', w ≤ w' → ∀ r, A w' β op r → Onward A P w' (k r)

/-- What is fit for a world is fit for the worlds to come. -/
theorem Onward.later (hP : ∀ w w', w ≤ w' → ∀ β (op : Op β), P w β op → P w' β op)
    {p : Prog Op ε α} (h : Onward A P w p) (hle : w ≤ w') : Onward A P w' p := by
  cases p with
  | pure a => trivial
  | throw e => trivial
  | call op k => exact ⟨hP w w' hle _ op h.1, fun v hv ↦ h.2 v (le_trans hle hv)⟩

theorem onward_perform {op : Op γ} (h : P w γ op) :
    Onward A P w (.perform op : Prog Op ε γ) := by
  refine ⟨h, fun w' _ r _ ↦ ?_⟩
  cases r <;> trivial

theorem onward_ofExcept (x : Except ε α) : Onward A P w (.ofExcept x : Prog Op ε α) := by
  cases x <;> trivial

theorem Onward.bind {p : Prog Op ε γ} {f : γ → Prog Op ε α} (hp : Onward A P w p)
    (hf : ∀ w', w ≤ w' → ∀ a, Onward A P w' (f a)) : Onward A P w (p >>= f) := by
  induction p generalizing w with
  | pure a => exact hf w le_rfl a
  | throw e => trivial
  | call op k ih =>
      exact ⟨hp.1, fun w' hle r hr ↦ ih r (hp.2 w' hle r hr) fun v hv ↦ hf v (le_trans hle hv)⟩

/-- One awaited request, and what follows on the answers that satisfy the contract. -/
theorem Onward.await {op : Op γ} {f : γ → Prog Op ε α} (hop : P w γ op)
    (hf : ∀ w', w ≤ w' → ∀ a, A w' γ op (.ok a) → Onward A P w' (f a)) :
    Onward A P w (.perform op >>= f) := by
  refine ⟨hop, fun w' hle r hr ↦ ?_⟩
  cases r with
  | error e => trivial
  | ok a => exact hf w' hle a hr

/-- The discipline of a program within a larger system. -/
theorem Onward.lift {Op' : Type → Type} {A' : τ → ∀ β : Type, Op' β → Except ε β → Prop}
    {P' : τ → ∀ β : Type, Op' β → Prop} {f : ∀ β : Type, Op β → Op' β}
    (hP : ∀ w β (op : Op β), P w β op → P' w β (f β op))
    (hA : ∀ w β (op : Op β) r, A' w β (f β op) r → A w β op r) {p : Prog Op ε α}
    (h : Onward A P w p) : Onward A' P' w (p.lift f) := by
  induction p generalizing w with
  | pure a => trivial
  | throw e => trivial
  | call op k ih =>
      exact ⟨hP w _ op h.1, fun v hv r hr ↦ ih r (h.2 v hv r (hA v _ op r hr))⟩

theorem Onward.attempt {p : Prog Op ε α} (h : Onward A P w p) : Onward A P w p.attempt := by
  induction p generalizing w with
  | pure a => trivial
  | throw e => trivial
  | call op k ih => exact ⟨h.1, fun w' hle r hr ↦ ih r (h.2 w' hle r hr)⟩

/-- The handler starts in a world to come. -/
theorem Onward.tryCatch {p : Prog Op ε α} {h : ε → Prog Op ε α} (hp : Onward A P w p)
    (hh : ∀ w', w ≤ w' → ∀ e, Onward A P w' (h e)) : Onward A P w (p.tryCatch h) := by
  induction p generalizing w with
  | pure a => trivial
  | throw e => exact hh w le_rfl e
  | call op k ih =>
      exact ⟨hp.1, fun w' hle r hr ↦ ih r (hp.2 w' hle r hr) fun v hv ↦ hh v (le_trans hle hv)⟩

theorem Onward.forM {f : γ → Prog Op ε PUnit} (l : List γ)
    (h : ∀ w', w ≤ w' → ∀ b ∈ l, Onward A P w' (f b)) : Onward A P w (l.forM f) := by
  induction l generalizing w with
  | nil => trivial
  | cons b l ih =>
      refine Onward.bind (h w le_rfl b List.mem_cons_self) fun w' hle _ ↦ ?_
      exact ih fun v hv b' hb' ↦ h v (le_trans hle hv) b' (List.mem_cons_of_mem b hb')

/-- Requests that are fit for every world. -/
theorem Onward.of_only {P' : ∀ β : Type, Op β → Prop} {p : Prog Op ε α} (h : Only P' p)
    (hP : ∀ w β (op : Op β), P' β op → P w β op) : Onward A P w p := by
  induction p generalizing w with
  | pure a => trivial
  | throw e => trivial
  | call op k ih =>
      rw [only_call] at h
      exact ⟨hP w _ op h.1, fun w' _ r _ ↦ ih r (h.2 r)⟩

end Prog

/-- Where a world comes with each state, and every request that is fit for its world leads to a
state with a larger one, a program that keeps to the discipline keeps the invariant. -/
theorem wp_onward {Op : Type → Type} {ε α σ τ : Type} [Preorder τ]
    {A : τ → ∀ β : Type, Op β → Except ε β → Prop} {P : τ → ∀ β : Type, Op β → Prop}
    {S : Server Op ε σ} {I : τ → σ → Prop}
    (hstep : ∀ w β (op : Op β) s f, P w β op → I w s →
      ∃ w', w ≤ w' ∧ A w' β op (S.reply f op s) ∧ I w' (S.after f op s))
    {p : Prog Op ε α} {w : τ} {s : σ} (h : Prog.Onward A P w p) (hs : I w s) :
    wp S anyFate (fun _ _ _ ↦ True) (fun _ t ↦ ∃ w', I w' t) p s := by
  induction p generalizing w s with
  | pure a => exact ⟨w, hs⟩
  | throw e => exact ⟨w, hs⟩
  | call op k ih =>
      refine ⟨trivial, fun f _ ↦ ?_⟩
      obtain ⟨w', hle, hreply, hafter⟩ := hstep w _ op s f h.1 hs
      exact ih _ (h.2 w' hle _ hreply) hafter

end Concurrent
