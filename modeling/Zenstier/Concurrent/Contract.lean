import Zenstier.Concurrent.History
import Zenstier.Concurrent.Lift

/-!
# Programs that rely on their replies

`Meets A P Q p` says that `p` relies on a contract and gives one in return: as long as every
reply satisfies `A`, every request it issues satisfies `P` and every value it returns
satisfies `Q`.

Programs that meet such contracts keep an invariant in any interleaving.  For that the
invariant has to give the replies that the programs rely on, and the requests that they
issue have to keep it (`Upholds`).
-/

namespace Concurrent

namespace Prog

variable {Op : Type → Type} {ε α β γ : Type}

/-- As long as the replies satisfy `A`, the requests satisfy `P` and the value satisfies
`Q`. -/
def Meets (A : ∀ β : Type, Op β → Except ε β → Prop) (P : ∀ β : Type, Op β → Prop)
    (Q : α → Prop) : Prog Op ε α → Prop
  | .pure a => Q a
  | .throw _ => True
  | .call (β := β) op k => P β op ∧ ∀ r, A β op r → Meets A P Q (k r)

variable {A : ∀ β : Type, Op β → Except ε β → Prop} {P : ∀ β : Type, Op β → Prop}
  {Q : α → Prop} {R : β → Prop}

@[simp] theorem meets_pure (a : α) : Meets A P Q (.pure a) ↔ Q a := Iff.rfl

@[simp] theorem meets_throw (e : ε) : Meets A P Q (.throw e) ↔ True := Iff.rfl

@[simp] theorem meets_call (op : Op β) (k : Except ε β → Prog Op ε α) :
    Meets A P Q (.call op k) ↔ P β op ∧ ∀ r, A β op r → Meets A P Q (k r) := Iff.rfl

/-- A weaker promise about the value. -/
theorem Meets.mono {Q' : α → Prop} {p : Prog Op ε α} (hp : Meets A P Q p)
    (h : ∀ a, Q a → Q' a) : Meets A P Q' p := by
  induction p with
  | pure a => exact h a hp
  | throw e => trivial
  | call op k ih => exact ⟨hp.1, fun r hr ↦ ih r (hp.2 r hr)⟩

/-- Requests that need no reply to rely on. -/
theorem Meets.of_only {p : Prog Op ε α} (h : Only P p) : Meets A P (fun _ ↦ True) p := by
  induction p with
  | pure a => trivial
  | throw e => trivial
  | call op k ih =>
      rw [only_call] at h
      exact ⟨h.1, fun r _ ↦ ih r (h.2 r)⟩

/-- What the first program promises of its value, the second may rely on. -/
theorem Meets.bind {p : Prog Op ε α} {f : α → Prog Op ε β} (hp : Meets A P Q p)
    (hf : ∀ a, Q a → Meets A P R (f a)) : Meets A P R (p >>= f) := by
  induction p with
  | pure a => exact hf a hp
  | throw e => trivial
  | call op k ih => exact ⟨hp.1, fun r hr ↦ ih r (hp.2 r hr)⟩

/-- One awaited request: what follows relies on the answer. -/
theorem Meets.await {op : Op β} {k : β → Prog Op ε α} (hop : P β op)
    (hk : ∀ b, A β op (.ok b) → Meets A P Q (k b)) : Meets A P Q (.perform op >>= k) := by
  refine ⟨hop, fun r hr ↦ ?_⟩
  cases r with
  | ok b => exact hk b hr
  | error e => trivial

/-- One awaited request, at the end of a program. -/
theorem Meets.perform {op : Op β} (hop : P β op) (hQ : ∀ b, A β op (.ok b) → R b) :
    Meets A P R (.perform op : Prog Op ε β) := by
  refine ⟨hop, fun r hr ↦ ?_⟩
  cases r with
  | ok b => exact hQ b hr
  | error e => trivial

theorem Meets.ofExcept {r : Except ε α} (hQ : ∀ a, r = .ok a → Q a) :
    Meets A P Q (.ofExcept r) := by
  cases r with
  | ok a => exact hQ a rfl
  | error e => trivial

/-- The handler promises the same as the program. -/
theorem Meets.tryCatch {p : Prog Op ε α} {h : ε → Prog Op ε α} (hp : Meets A P Q p)
    (hh : ∀ e, Meets A P Q (h e)) : Meets A P Q (p.tryCatch h) := by
  induction p with
  | pure a => exact hp
  | throw e => exact hh e
  | call op k ih => exact ⟨hp.1, fun r hr ↦ ih r (hp.2 r hr)⟩

/-- What is promised of the value is promised of the outcome, if it is a value. -/
theorem Meets.attempt {p : Prog Op ε α} (hp : Meets A P Q p) :
    Meets A P (fun r ↦ ∀ a, r = .ok a → Q a) p.attempt := by
  induction p with
  | pure a =>
      rintro _ ⟨⟩
      exact hp
  | throw e => exact nofun
  | call op k ih => exact ⟨hp.1, fun r hr ↦ ih r (hp.2 r hr)⟩

/-- The contract of a program within a larger system. -/
theorem Meets.lift {Op' : Type → Type} {A' : ∀ β : Type, Op' β → Except ε β → Prop}
    {P' : ∀ β : Type, Op' β → Prop} {f : ∀ β : Type, Op β → Op' β}
    (hP : ∀ β (op : Op β), P β op → P' β (f β op))
    (hA : ∀ β (op : Op β) r, A' β (f β op) r → A β op r) {p : Prog Op ε α} (hp : Meets A P Q p) :
    Meets A' P' Q (p.lift f) := by
  induction p with
  | pure a => exact hp
  | throw e => trivial
  | call op k ih => exact ⟨hP _ op hp.1, fun r hr ↦ ih r (hp.2 r (hA _ op r hr))⟩

end Prog

open Prog

variable {ι : Type} [DecidableEq ι] {Op : Type → Type} {ε α σ η : Type}
  {A : ∀ β : Type, Op β → Except ε β → Prop} {P : ∀ β : Type, Op β → Prop} {Q : α → Prop}
  {S : Server Op ε σ} {env : η → σ → σ} {I : σ → Prop}

/-- In a state with the invariant the server answers as the programs rely on. -/
structure Server.Upholds (S : Server Op ε σ) (I : σ → Prop)
    (A : ∀ β : Type, Op β → Except ε β → Prop) : Prop where
  reply : ∀ {β : Type} (op : Op β) (s : σ), I s → A β op (S.serve op s).1
  error : ∀ {β : Type} (op : Op β) (e : ε), A β op (.error e)

/-- One request of a pool whose programs meet their contracts.  That serving it keeps the
invariant may depend on what the schedule admits. -/
theorem Pool.meets_run (hS : S.Upholds I A) {c d : Pool ι Op ε α σ} (hI : I c.shared)
    (hmeets : ∀ i, Meets A P Q (c.thread i)) {i : ι} {f : Fate ε}
    (hserve : ∀ {β : Type} (op : Op β) (k : Except ε β → Prog Op ε α),
      c.thread i = .call op k → P β op → I (S.after f op c.shared))
    (h : Pool.step S env c (.run i f) = some d) :
    I d.shared ∧ ∀ j, Meets A P Q (d.thread j) := by
  obtain ⟨β, op, k, hi, rfl⟩ := Pool.step_run h
  have hmeet := hmeets i
  rw [hi] at hmeet
  have hreply : A β op (S.reply f op c.shared) :=
    Pool.reply_contract (fun op ↦ hS.reply op c.shared hI) hS.error f op
  exact ⟨hserve op k hi hmeet.1, Pool.forall_resume hmeets i f op k (hmeet.2 _ hreply)⟩

end Concurrent
