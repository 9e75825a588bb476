import Zenstier.Concurrent.Logic

/-!
# Programs within a larger system

A service is written over the requests it knows of; in a larger system its requests are some of
the requests there (`Prog.lift`), or programs of their own (`Prog.interpret`).  What holds of a
service next to its own server holds of it in a system that has the state of that server as a
part.
-/

namespace Concurrent

variable {Op Op' : Type → Type} {ε α β γ σ τ : Type}

namespace Prog

/-- The program over other requests. -/
def lift (f : ∀ β : Type, Op β → Op' β) : Prog Op ε α → Prog Op' ε α
  | .pure a => .pure a
  | .throw e => .throw e
  | .call op k => .call (f _ op) fun r ↦ (k r).lift f

/-- Runs a program in place of each request. -/
def interpret (h : ∀ β : Type, Op β → Prog Op' ε β) : Prog Op ε α → Prog Op' ε α
  | .pure a => .pure a
  | .throw e => .throw e
  | .call op k => attempt (h _ op) >>= fun r ↦ (k r).interpret h

/-- The requests of a lifted program are those of the program. -/
theorem Only.lift {P : ∀ β : Type, Op β → Prop} {P' : ∀ β : Type, Op' β → Prop}
    {f : ∀ β : Type, Op β → Op' β} (hf : ∀ β (op : Op β), P β op → P' β (f β op))
    {p : Prog Op ε α} (hp : Only P p) : Only P' (p.lift f) := by
  induction p with
  | pure a => trivial
  | throw e => trivial
  | call op k ih =>
      rw [only_call] at hp
      rw [Prog.lift, only_call]
      exact ⟨hf _ op hp.1, fun r ↦ ih r (hp.2 r)⟩

end Prog

/-! ## A server that is part of another -/

/-- Where a server keeps the state of another one, and which of its requests are those of the
other. -/
structure Server.Part (S : Server Op ε σ) (S' : Server Op' ε τ) where
  get : τ → σ
  put : τ → σ → τ
  request : ∀ β : Type, Op β → Op' β
  get_put : ∀ s x, get (put s x) = x
  put_put : ∀ s x y, put (put s x) y = put s y
  put_get : ∀ s, put s (get s) = s
  serve_request : ∀ (β : Type) (op : Op β) (s : τ), S'.serve (request β op) s =
    ((S.serve op (get s)).1, put s (S.serve op (get s)).2)

section Part

variable {S : Server Op ε σ} {S' : Server Op' ε τ} (part : S.Part S')

theorem Server.Part.reply (f : Fate ε) (op : Op β) (s : τ) :
    S'.reply f (part.request β op) s = S.reply f op (part.get s) := by
  cases f with
  | served => exact congrArg Prod.fst (part.serve_request β op s)
  | refused e | unanswered e => rfl

theorem Server.Part.after (f : Fate ε) (op : Op β) (s : τ) :
    S'.after f (part.request β op) s = part.put s (S.after f op (part.get s)) := by
  cases f with
  | served | unanswered e => exact congrArg Prod.snd (part.serve_request β op s)
  | refused e => exact (part.put_get s).symm

/-- What a program does next to its own server it does in the part, and nothing else. -/
theorem wp_lift {adm : Admits Op' ε τ} {Q : Except ε α → σ → Prop} {p : Prog Op ε α} {s : τ}
    (h : wp S anyFate (fun _ _ _ ↦ True) Q p (part.get s)) :
    wp S' adm (fun _ _ _ ↦ True) (fun r t ↦ ∃ x, t = part.put s x ∧ Q r x)
      (p.lift part.request) s := by
  induction p generalizing s with
  | pure a => exact ⟨_, (part.put_get s).symm, h⟩
  | throw e => exact ⟨_, (part.put_get s).symm, h⟩
  | call op k ih =>
      refine ⟨trivial, fun f _ ↦ ?_⟩
      rw [part.reply, part.after]
      refine wp_mono (ih _ ?_) ?_
      · rw [part.get_put]
        exact h.2 f trivial
      · rintro r t ⟨x, rfl, hx⟩
        exact ⟨x, part.put_put _ _ _, hx⟩

end Part

/-- A program each of whose requests is replaced by one that keeps the invariant and answers as
the discipline of the program demands. -/
theorem wp_interpret {S : Server Op' ε σ} {adm : Admits Op' ε σ}
    {A : ∀ β : Type, Op β → Except ε β → Prop}
    {Φ : ∀ β : Type, Op β → (Except ε β → Prog Op ε α) → Prop} {I : σ → Prop}
    {h : ∀ β : Type, Op β → Prog Op' ε β}
    (hreq : ∀ (β : Type) (op : Op β) k s, Φ β op k → I s →
      wp S adm (fun _ _ _ ↦ True) (fun r t ↦ A β op r ∧ I t) (h β op) s)
    {p : Prog Op ε α} (hp : Prog.Always A Φ p) {s : σ} (hs : I s) :
    wp S adm (fun _ _ _ ↦ True) (fun _ t ↦ I t) (p.interpret h) s := by
  induction p generalizing s with
  | pure a => exact hs
  | throw e => exact hs
  | call op k ih =>
      rw [Prog.always_call] at hp
      rw [Prog.interpret, wp_bind, wp_attempt]
      refine wp_mono (hreq _ op k s hp.1 hs) ?_
      rintro r t ⟨hr, ht⟩
      exact ih r (hp.2 r hr) ht

end Concurrent
