import Zenstier.Concurrent.Prog

/-!
# What a suspended program can still do

Between two of its requests a program is represented by its *residual*: the tree of
what is left to run.  A race is a fact about residuals.  A request is *stale* when the
program decided on it from an answer that has since become wrong, and a program that
has made such a decision is exactly one that still has the request ahead of it and will
not ask again before issuing it.

* `Ahead R T p`: the residual `p` can come to a point satisfying `T` without issuing a
  request of the kind `R` on the way.
* `Always A Φ p`: at every request of `p` that is reached through replies satisfying
  the contract `A`, the request and its continuation satisfy `Φ`.
* `Only P p`: every request of `p` satisfies `P`.
* `Throughout G p`: whatever the residual `p` comes to satisfies `G`.
* `Surely R T p`: whatever it is answered, the residual `p` comes to a point satisfying `T`
  before it issues a request of the kind `R` or ends.
-/

namespace Concurrent

namespace Prog

variable {Op : Type → Type} {ε α β γ : Type}

/-- The next thing the program does is to issue a request satisfying `P`. -/
def AtRequest (P : ∀ β : Type, Op β → Prop) : Prog Op ε α → Prop
  | .pure _ | .throw _ => False
  | .call (β := β) op _ => P β op

@[simp] theorem atRequest_pure (P : ∀ β : Type, Op β → Prop) (a : α) :
    AtRequest P (.pure a : Prog Op ε α) ↔ False := Iff.rfl

@[simp] theorem atRequest_throw (P : ∀ β : Type, Op β → Prop) (e : ε) :
    AtRequest P (.throw e : Prog Op ε α) ↔ False := Iff.rfl

@[simp] theorem atRequest_call (P : ∀ β : Type, Op β → Prop) (op : Op β)
    (k : Except ε β → Prog Op ε α) : AtRequest P (.call op k) ↔ P β op := Iff.rfl

instance (P : ∀ β : Type, Op β → Prop) [∀ β op, Decidable (P β op)] (p : Prog Op ε α) :
    Decidable (AtRequest P p) :=
  match p with
  | .pure _ | .throw _ => .isFalse id
  | .call (β := β) op _ => inferInstanceAs (Decidable (P β op))

/-- The program has returned a value satisfying `P`. -/
def Returned (P : α → Prop) : Prog Op ε α → Prop
  | .pure a => P a
  | .throw _ | .call _ _ => False

@[simp] theorem returned_pure (P : α → Prop) (a : α) :
    Returned P (.pure a : Prog Op ε α) ↔ P a := Iff.rfl

@[simp] theorem returned_throw (P : α → Prop) (e : ε) :
    Returned P (.throw e : Prog Op ε α) ↔ False := Iff.rfl

@[simp] theorem returned_call (P : α → Prop) (op : Op β) (k : Except ε β → Prog Op ε α) :
    Returned P (.call op k) ↔ False := Iff.rfl

instance (P : α → Prop) [DecidablePred P] (p : Prog Op ε α) : Decidable (Returned P p) :=
  match p with
  | .pure a => inferInstanceAs (Decidable (P a))
  | .throw _ | .call _ _ => .isFalse id

/-! ## Points ahead -/

/-- The program can come to a point satisfying `T` without issuing a request of the
kind `R` before. -/
def Ahead (R : ∀ β : Type, Op β → Prop) (T : Prog Op ε α → Prop) : Prog Op ε α → Prop
  | .pure a => T (.pure a)
  | .throw e => T (.throw e)
  | .call (β := β) op k => T (.call op k) ∨ (¬ R β op ∧ ∃ r, Ahead R T (k r))

variable {R : ∀ β : Type, Op β → Prop} {T : Prog Op ε α → Prop}

@[simp] theorem ahead_pure (a : α) : Ahead R T (.pure a) ↔ T (.pure a) := Iff.rfl

@[simp] theorem ahead_throw (e : ε) : Ahead R T (.throw e) ↔ T (.throw e) := Iff.rfl

theorem ahead_call (op : Op β) (k : Except ε β → Prog Op ε α) :
    Ahead R T (.call op k) ↔ T (.call op k) ∨ (¬ R β op ∧ ∃ r, Ahead R T (k r)) := Iff.rfl

/-- A point satisfying `T` is ahead of itself. -/
theorem Ahead.of_self {p : Prog Op ε α} (h : T p) : Ahead R T p := by
  cases p with
  | pure a => exact h
  | throw e => exact h
  | call op k => exact .inl h

/-- Past a request that is not of the kind `R`, nothing new comes ahead. -/
theorem Ahead.of_reply {op : Op β} {k : Except ε β → Prog Op ε α} {r : Except ε β}
    (hR : ¬ R β op) (h : Ahead R T (k r)) : Ahead R T (.call op k) := .inr ⟨hR, r, h⟩

/-- The program comes to a point satisfying `T`, whatever it is answered, and before it issues a
request of the kind `R`. -/
def Surely (R : ∀ β : Type, Op β → Prop) (T : Prog Op ε α → Prop) : Prog Op ε α → Prop
  | .pure a => T (.pure a)
  | .throw e => T (.throw e)
  | .call (β := β) op k => T (.call op k) ∨ ¬ R β op ∧ ∀ r, Surely R T (k r)

/-! ## Requests and their continuations -/

/-- At every request reached through replies satisfying `A`, the request and its
continuation satisfy `Φ`. -/
def Always (A : ∀ β : Type, Op β → Except ε β → Prop)
    (Φ : ∀ β : Type, Op β → (Except ε β → Prog Op ε α) → Prop) : Prog Op ε α → Prop
  | .pure _ | .throw _ => True
  | .call (β := β) op k => Φ β op k ∧ ∀ r, A β op r → Always A Φ (k r)

variable {A : ∀ β : Type, Op β → Except ε β → Prop}
  {Φ : ∀ β : Type, Op β → (Except ε β → Prog Op ε α) → Prop}

@[simp] theorem always_pure (a : α) : Always A Φ (.pure a) ↔ True := Iff.rfl

@[simp] theorem always_throw (e : ε) : Always A Φ (.throw e) ↔ True := Iff.rfl

@[simp] theorem always_call (op : Op β) (k : Except ε β → Prog Op ε α) :
    Always A Φ (.call op k) ↔ Φ β op k ∧ ∀ r, A β op r → Always A Φ (k r) := Iff.rfl

theorem Always.mono {Φ' : ∀ β : Type, Op β → (Except ε β → Prog Op ε α) → Prop}
    (h : ∀ β (op : Op β) k, Φ β op k → Φ' β op k) {p : Prog Op ε α} (hp : Always A Φ p) :
    Always A Φ' p := by
  induction p with
  | pure a => trivial
  | throw e => trivial
  | call op k ih => exact ⟨h _ op k hp.1, fun r hr ↦ ih r (hp.2 r hr)⟩

/-- Whatever the program comes to satisfies `G`. -/
def Throughout (G : Prog Op ε α → Prop) : Prog Op ε α → Prop
  | .pure a => G (.pure a)
  | .throw e => G (.throw e)
  | .call op k => G (.call op k) ∧ ∀ r, Throughout G (k r)

theorem Throughout.self {G : Prog Op ε α → Prop} {p : Prog Op ε α} (h : Throughout G p) : G p := by
  cases p with
  | pure a => exact h
  | throw e => exact h
  | call op k => exact h.1

/-- Every request of the program satisfies `P`. -/
def Only (P : ∀ β : Type, Op β → Prop) (p : Prog Op ε α) : Prop :=
  Always (fun _ _ _ ↦ True) (fun β op _ ↦ P β op) p

variable {P : ∀ β : Type, Op β → Prop}

@[simp] theorem only_pure (a : α) : Only P (.pure a : Prog Op ε α) ↔ True := Iff.rfl

@[simp] theorem only_throw (e : ε) : Only P (.throw e : Prog Op ε α) ↔ True := Iff.rfl

@[simp] theorem only_call (op : Op β) (k : Except ε β → Prog Op ε α) :
    Only P (.call op k) ↔ P β op ∧ ∀ r, Only P (k r) := by
  simp [Only]

@[simp] theorem only_ofExcept (r : Except ε α) :
    Only P (.ofExcept r : Prog Op ε α) ↔ True := by cases r <;> rfl

@[simp] theorem only_perform (op : Op β) :
    Only P (.perform op : Prog Op ε β) ↔ P β op := by simp [perform]

theorem Only.mono {P' : ∀ β : Type, Op β → Prop} (h : ∀ β (op : Op β), P β op → P' β op)
    {p : Prog Op ε α} (hp : Only P p) : Only P' p := by
  induction p with
  | pure a => trivial
  | throw e => trivial
  | call op k ih =>
      rw [only_call] at hp ⊢
      exact ⟨h _ op hp.1, fun r ↦ ih r (hp.2 r)⟩

theorem Only.of_forall (h : ∀ β (op : Op β), P β op) (p : Prog Op ε α) : Only P p := by
  induction p with
  | pure a => trivial
  | throw e => trivial
  | call op k ih => exact (only_call op k).mpr ⟨h _ op, ih⟩

/-- The requests of a sequence are those of its parts. -/
theorem Only.bind {p : Prog Op ε γ} {f : γ → Prog Op ε α} (hp : Only P p)
    (hf : ∀ a, Only P (f a)) : Only P (p >>= f) := by
  induction p with
  | pure a => exact hf a
  | throw e => trivial
  | call op k ih =>
      rw [only_call] at hp
      rw [call_bind, only_call]
      exact ⟨hp.1, fun r ↦ ih r (hp.2 r)⟩

/-- One awaited request and what follows. -/
theorem Only.await {op : Op γ} {f : γ → Prog Op ε α} (hop : P γ op)
    (hf : ∀ a, Only P (f a)) : Only P (.perform op >>= f) :=
  Only.bind ((only_perform op).mpr hop) hf

theorem Only.attempt {p : Prog Op ε α} (hp : Only P p) : Only P p.attempt := by
  unfold Prog.attempt
  induction p with
  | pure a => trivial
  | throw e => trivial
  | call op k ih =>
      rw [only_call] at hp
      rw [call_bind, tryCatch_call, only_call]
      exact ⟨hp.1, fun r ↦ ih r (hp.2 r)⟩

/-- The requests of a handled program are its own and those of the handler. -/
theorem Only.tryCatch {p : Prog Op ε α} {h : ε → Prog Op ε α} (hp : Only P p)
    (hh : ∀ e, Only P (h e)) : Only P (p.tryCatch h) := by
  induction p with
  | pure a => trivial
  | throw e => exact hh e
  | call op k ih =>
      rw [only_call] at hp
      rw [tryCatch_call, only_call]
      exact ⟨hp.1, fun r ↦ ih r (hp.2 r)⟩

theorem Only.settleAll {ps : List (Prog Op ε α)} (h : ∀ p ∈ ps, Only P p) :
    Only P (settleAll ps) := by
  induction ps with
  | nil => trivial
  | cons p ps ih =>
      rw [Prog.settleAll]
      refine (h p List.mem_cons_self).attempt.bind fun r ↦ ?_
      exact (ih fun q hq ↦ h q (List.mem_cons_of_mem p hq)).bind fun rs ↦ trivial

theorem Only.forM {f : β → Prog Op ε PUnit} (l : List β) (h : ∀ b ∈ l, Only P (f b)) :
    Only P (l.forM f) := by
  induction l with
  | nil => trivial
  | cons b l ih =>
      exact (h b List.mem_cons_self).bind fun _ ↦
        ih fun b' hb' ↦ h b' (List.mem_cons_of_mem b hb')

theorem Only.awaitAll {ps : List (Prog Op ε α)} (h : ∀ p ∈ ps, Only P p) :
    Only P (awaitAll ps) :=
  (Only.settleAll h).bind fun _ ↦ (only_ofExcept _).mpr trivial

/-- A prefix whose requests satisfy `Φ` with any continuation. -/
theorem Always.bind {p : Prog Op ε γ} {f : γ → Prog Op ε α} (hp : Only P p)
    (hΦ : ∀ β (op : Op β) k, P β op → Φ β op k) (hf : ∀ a, Always A Φ (f a)) :
    Always A Φ (p >>= f) := by
  induction p with
  | pure a => exact hf a
  | throw e => trivial
  | call op k ih =>
      rw [only_call] at hp
      exact ⟨hΦ _ op _ hp.1, fun r _ ↦ ih r (hp.2 r)⟩

/-- The same for a whole program. -/
theorem Always.of_only {p : Prog Op ε α} (hp : Only P p)
    (hΦ : ∀ β (op : Op β) k, P β op → Φ β op k) : Always A Φ p := by
  induction p with
  | pure a => trivial
  | throw e => trivial
  | call op k ih =>
      rw [only_call] at hp
      exact ⟨hΦ _ op _ hp.1, fun r _ ↦ ih r (hp.2 r)⟩

/-- A discipline of the first program that survives whatever follows it. -/
theorem Always.andThen {Ψ : ∀ β : Type, Op β → (Except ε β → Prog Op ε γ) → Prop}
    {p : Prog Op ε γ} {f : γ → Prog Op ε α} (hp : Always A Ψ p)
    (hΨ : ∀ β (op : Op β) k, Ψ β op k → Φ β op fun r ↦ k r >>= f)
    (hf : ∀ a, Always A Φ (f a)) : Always A Φ (p >>= f) := by
  induction p with
  | pure a => exact hf a
  | throw e => trivial
  | call op k ih => exact ⟨hΨ _ op k hp.1, fun r hr ↦ ih r (hp.2 r hr)⟩

/-- A discipline that survives handling, as far as the handler keeps it too. -/
theorem Always.tryCatch {p : Prog Op ε α} {h : ε → Prog Op ε α} (hp : Always A Φ p)
    (hΦ : ∀ β (op : Op β) k, Φ β op k → Φ β op fun r ↦ (k r).tryCatch h)
    (hh : ∀ e, Always A Φ (h e)) : Always A Φ (p.tryCatch h) := by
  induction p with
  | pure a => trivial
  | throw e => exact hh e
  | call op k ih => exact ⟨hΦ _ op k hp.1, fun r hr ↦ ih r (hp.2 r hr)⟩

/-- A program that goes on with something unreturned has not returned. -/
theorem not_returned_bind {P : β → Prop} (p : Prog Op ε α) {f : α → Prog Op ε β}
    (hf : ∀ a, ¬ Returned P (f a)) : ¬ Returned P (p >>= f) := by
  cases p with
  | pure a => exact hf a
  | throw e => exact id
  | call op k => exact id

/-- Every return satisfying `P` comes right after a request satisfying `T`. -/
def Lands (T : Prog Op ε α → Prop) (P : α → Prop) (p : Prog Op ε α) : Prop :=
  Always (fun _ _ _ ↦ True) (fun _ op k ↦ T (.call op k) ∨ ∀ r, ¬ Returned P (k r)) p

/-- What comes before a program that has not returned does not matter. -/
theorem Lands.bind {P : α → Prop} {p : Prog Op ε γ} {f : γ → Prog Op ε α}
    (hf : ∀ a, ¬ Returned P (f a)) (hl : ∀ a, Lands T P (f a)) : Lands T P (p >>= f) := by
  induction p with
  | pure a => exact hl a
  | throw e => trivial
  | call op k ih => exact ⟨.inr fun r ↦ not_returned_bind (k r) hf, fun r _ ↦ ih r⟩

/-- If a return is ahead, so is the request it comes after. -/
theorem Ahead.of_lands {P : α → Prop} {p : Prog Op ε α} (h : Lands T P p)
    (hp : ¬ Returned P p) (ha : Ahead R (Returned P) p) : Ahead R T p := by
  induction p with
  | pure a => exact absurd ha hp
  | throw e => exact absurd ha hp
  | call op k ih =>
      obtain ⟨hop, hk⟩ := h
      rcases (ahead_call op k).mp ha with hT | ⟨hR, r, hr⟩
      · exact absurd hT hp
      · rcases hop with hT | hnext
        · exact .inl hT
        · exact .inr ⟨hR, r, ih r (hk r trivial) (hnext r) hr⟩

/-- More requests to stop at leave less ahead. -/
theorem Ahead.mono {R' : ∀ β : Type, Op β → Prop} {T' : Prog Op ε α → Prop} {p : Prog Op ε α}
    (hR : ∀ β (op : Op β), R' β op → R β op) (hT : ∀ q, T q → T' q) (h : Ahead R T p) :
    Ahead R' T' p := by
  induction p with
  | pure a => exact hT _ h
  | throw e => exact hT _ h
  | call op k ih =>
      rcases (ahead_call op k).mp h with h | ⟨hop, r, hr⟩
      · exact .inl (hT _ h)
      · exact .inr ⟨fun h' ↦ hop (hR _ _ h'), r, ih r hr⟩

theorem Ahead.or {T' : Prog Op ε α → Prop} {p : Prog Op ε α}
    (h : Ahead R (fun q ↦ T q ∨ T' q) p) : Ahead R T p ∨ Ahead R T' p := by
  induction p with
  | pure a => exact h
  | throw e => exact h
  | call op k ih =>
      rcases (ahead_call op k).mp h with h | ⟨hop, r, hr⟩
      · exact h.imp .inl .inl
      · exact (ih r hr).imp (fun h ↦ .inr ⟨hop, r, h⟩) fun h ↦ .inr ⟨hop, r, h⟩

/-- A request that no request of the program is, is not ahead. -/
theorem Only.not_ahead {C : ∀ β : Type, Op β → Prop} (hC : ∀ β (op : Op β), P β op → ¬ C β op)
    {p : Prog Op ε α} (hp : Only P p) : ¬ Ahead R (AtRequest C) p := by
  induction p with
  | pure a => exact id
  | throw e => exact id
  | call op k ih =>
      rw [only_call] at hp
      rintro (h | ⟨-, r, h⟩)
      · exact hC _ op hp.1 h
      · exact ih r (hp.2 r) h

/-- What is ahead of a program is ahead of everything that leads to it and cannot fail. -/
theorem Ahead.bind (hε : ε → False) {p : Prog Op ε γ} {f : γ → Prog Op ε α} (hp : Only P p)
    (hP : ∀ β (op : Op β), P β op → ¬ R β op ∧ Nonempty β) (hf : ∀ a, Ahead R T (f a)) :
    Ahead R T (p >>= f) := by
  induction p with
  | pure a => exact hf a
  | throw e => exact (hε e).elim
  | call op k ih =>
      rw [only_call] at hp
      obtain ⟨hR, ⟨b⟩⟩ := hP _ op hp.1
      exact .inr ⟨hR, .ok b, ih (.ok b) (hp.2 _)⟩

/-- What is sure to come after everything that leads to it and cannot fail. -/
theorem Surely.bind (hε : ε → False) {p : Prog Op ε γ} {f : γ → Prog Op ε α} (hp : Only P p)
    (hP : ∀ β (op : Op β), P β op → ¬ R β op) (hf : ∀ a, Surely R T (f a)) :
    Surely R T (p >>= f) := by
  induction p with
  | pure a => exact hf a
  | throw e => exact (hε e).elim
  | call op k ih =>
      rw [only_call] at hp
      exact .inr ⟨hP _ op hp.1, fun r ↦ ih r (hp.2 r)⟩

/-- A discipline that follows from what is ahead. -/
theorem Always.bind_ahead (hε : ε → False) {p : Prog Op ε γ} {f : γ → Prog Op ε α} (hp : Only P p)
    (hP : ∀ β (op : Op β), P β op → ¬ R β op ∧ Nonempty β) (hahead : ∀ a, Ahead R T (f a))
    (hΦ : ∀ β (op : Op β) k, P β op → Ahead R T (.call op k) → Φ β op k)
    (hf : ∀ a, Always A Φ (f a)) : Always A Φ (p >>= f) := by
  induction p with
  | pure a => exact hf a
  | throw e => trivial
  | call op k ih =>
      rw [only_call] at hp
      refine ⟨hΦ _ op _ hp.1 ?_, fun r _ ↦ ih r (hp.2 r)⟩
      obtain ⟨hR, ⟨b⟩⟩ := hP _ op hp.1
      exact .inr ⟨hR, .ok b, Ahead.bind hε (hp.2 _) hP hahead⟩

/-- A prefix without points satisfying `T` brings none ahead. -/
theorem not_ahead_bind {p : Prog Op ε γ} {f : γ → Prog Op ε α} (hp : Only P p)
    (hT : ∀ β (op : Op β) k, P β op → ¬ T (.call op k)) (he : ∀ e, ¬ T (.throw e))
    (hf : ∀ a, ¬ Ahead R T (f a)) : ¬ Ahead R T (p >>= f) := by
  induction p with
  | pure a => exact hf a
  | throw e => exact he e
  | call op k ih =>
      rw [only_call] at hp
      rw [call_bind, ahead_call]
      rintro (h | ⟨-, r, h⟩)
      · exact hT _ op _ hp.1 h
      · exact ih r (hp.2 r) h

end Prog

end Concurrent
