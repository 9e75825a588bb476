import Mathlib.Logic.Basic

/-!
# Programs as trees of requests

A `Prog Op ε α` is a sequential program that talks to the outside only by
*requests*: each `call` node issues one request from the signature `Op` and continues
with the reply, which is either the answer or an error.  A request is the unit of
atomicity.  Between two requests a program has no effect, so the whole behaviour of
an asynchronous function whose awaits are its requests is described by its tree.

Programs are finite trees: every path ends after finitely many requests, although a
node may have infinitely many successors (one for each reply).  All definitions and
proofs about programs are therefore by structural recursion.
-/

namespace Concurrent

/-- Programs over the requests `Op` that throw errors of type `ε` and return values of
type `α`. -/
inductive Prog (Op : Type → Type) (ε α : Type) : Type 1
  /-- The program has returned. -/
  | pure (a : α)
  /-- The program has thrown. -/
  | throw (e : ε)
  /-- The program issues a request and continues with the reply. -/
  | call {β : Type} (op : Op β) (k : Except ε β → Prog Op ε α)

namespace Prog

variable {Op : Type → Type} {ε α β γ : Type}

/-- Sequencing: an error skips the continuation. -/
protected def bind : Prog Op ε α → (α → Prog Op ε β) → Prog Op ε β
  | .pure a, f => f a
  | .throw e, _ => .throw e
  | .call op k, f => .call op fun r ↦ (k r).bind f

instance : Monad (Prog Op ε) where
  pure := .pure
  bind := Prog.bind

/-- Running a handler on the error a program throws. -/
protected def tryCatch : Prog Op ε α → (ε → Prog Op ε α) → Prog Op ε α
  | .pure a, _ => .pure a
  | .throw e, h => h e
  | .call op k, h => .call op fun r ↦ (k r).tryCatch h

instance : MonadExcept ε (Prog Op ε) where
  throw := .throw
  tryCatch := Prog.tryCatch

/-- Continue with a reply: its answer is returned, its error thrown. -/
def ofExcept : Except ε α → Prog Op ε α
  | .ok a => .pure a
  | .error e => .throw e

/-- Await one request. -/
def perform (op : Op β) : Prog Op ε β := .call op ofExcept

/-- The outcome of a program as a value, so that an error no longer skips what follows. -/
def attempt (p : Prog Op ε α) : Prog Op ε (Except ε α) :=
  Prog.tryCatch (p >>= fun a ↦ pure (.ok a)) fun e ↦ pure (.error e)

/-! ## Computing with programs -/

@[simp] theorem pure_def (a : α) : (Pure.pure a : Prog Op ε α) = .pure a := rfl

@[simp] theorem throw_def (e : ε) :
    (MonadExcept.throw e : Prog Op ε α) = .throw e := rfl

@[simp] theorem tryCatch_def (p : Prog Op ε α) (h : ε → Prog Op ε α) :
    MonadExcept.tryCatch p h = p.tryCatch h := rfl

@[simp] theorem pure_bind (a : α) (f : α → Prog Op ε β) : (.pure a >>= f) = f a := rfl

@[simp] theorem throw_bind (e : ε) (f : α → Prog Op ε β) :
    ((.throw e : Prog Op ε α) >>= f) = .throw e := rfl

@[simp] theorem call_bind (op : Op γ) (k : Except ε γ → Prog Op ε α)
    (f : α → Prog Op ε β) : (.call op k >>= f) = .call op fun r ↦ k r >>= f := rfl

@[simp] theorem perform_bind (op : Op γ) (f : γ → Prog Op ε β) :
    (perform op >>= f) = .call op fun r ↦ ofExcept r >>= f := rfl

@[simp] theorem ofExcept_ok (a : α) : (ofExcept (.ok a) : Prog Op ε α) = .pure a := rfl

@[simp] theorem ofExcept_error (e : ε) :
    (ofExcept (.error e) : Prog Op ε α) = .throw e := rfl

@[simp] theorem tryCatch_pure (a : α) (h : ε → Prog Op ε α) :
    Prog.tryCatch (.pure a) h = .pure a := rfl

@[simp] theorem tryCatch_throw (e : ε) (h : ε → Prog Op ε α) :
    Prog.tryCatch (.throw e) h = h e := rfl

@[simp] theorem tryCatch_call (op : Op γ) (k : Except ε γ → Prog Op ε α)
    (h : ε → Prog Op ε α) :
    Prog.tryCatch (.call op k) h = .call op fun r ↦ (k r).tryCatch h := rfl

/-- Sequencing is associative. -/
@[simp] theorem bind_assoc (p : Prog Op ε α) (f : α → Prog Op ε β) (g : β → Prog Op ε γ) :
    (p >>= f >>= g) = p >>= fun a ↦ f a >>= g := by
  induction p with
  | pure a => rfl
  | throw e => rfl
  | call op k ih =>
      simp only [call_bind]
      exact congrArg (Prog.call op) (funext ih)

/-! ## Several programs started together -/

/-- Runs every program of a list, whatever becomes of the others, and collects the
outcomes. -/
def settleAll : List (Prog Op ε α) → Prog Op ε (List (Except ε α))
  | [] => pure []
  | p :: ps => do
      let r ← attempt p
      let rs ← settleAll ps
      return r :: rs

/-- The answers of a list of outcomes, or its first error. -/
def sequenceOutcomes : List (Except ε α) → Except ε (List α)
  | [] => .ok []
  | .ok a :: rs => (sequenceOutcomes rs).map (a :: ·)
  | .error e :: _ => .error e

/-- Awaits a list of programs started together.  A failure does not stop the others:
the first error is thrown once all of them have ended. -/
def awaitAll (ps : List (Prog Op ε α)) : Prog Op ε (List α) := do
  let rs ← settleAll ps
  ofExcept (sequenceOutcomes rs)

end Prog

end Concurrent
