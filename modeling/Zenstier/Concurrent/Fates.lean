import Zenstier.Concurrent.History

/-!
# Runs with a given pattern of failures

Where the fate of each request is a function of the request, a program has exactly one run, and
`runBy` computes it.  `Server.recording` keeps a note of the requests that took effect, whether
or not the program got to know.
-/

namespace Concurrent

variable {Op : Type → Type} {ε σ α β γ : Type}

/-! ## One run for each pattern -/

section RunBy

variable (S : Server Op ε σ) (fate : ∀ β : Type, Op β → Fate ε)

/-- The run in which each request meets the fate that is given for it. -/
def runBy : Prog Op ε α → σ → Except ε α × σ
  | .pure a, s => (.ok a, s)
  | .throw e, s => (.error e, s)
  | .call op k, s => runBy (k (S.reply (fate _ op) op s)) (S.after (fate _ op) op s)

/-- Requests meet the fates that are given for them. -/
def given (fate : ∀ β : Type, Op β → Fate ε) : Admits Op ε σ := fun β op f _ ↦ f = fate β op

variable {S fate}

theorem Eval.runBy (p : Prog Op ε α) (s : σ) :
    Eval S (given fate) p s (runBy S fate p s).1 (runBy S fate p s).2 := by
  induction p generalizing s with
  | pure a => exact .pure a s
  | throw e => exact .throw e s
  | call op k ih => exact .call (fate _ op) rfl (ih _ _)

/-- There is no other run. -/
theorem Eval.eq_runBy {p : Prog Op ε α} {s t : σ} {r : Except ε α}
    (h : Eval S (given fate) p s r t) : Concurrent.runBy S fate p s = (r, t) := by
  induction h with
  | pure a s => rfl
  | throw e s => rfl
  | call f hf _ ih =>
      cases hf
      exact ih

/-- What holds at the end of the run holds at the end of all. -/
theorem forall_eval_iff {Q : Except ε α → σ → Prop} {p : Prog Op ε α} {s : σ} :
    (∀ r t, Eval S (given fate) p s r t → Q r t) ↔
      Q (runBy S fate p s).1 (runBy S fate p s).2 := by
  constructor
  · intro h
    exact h _ _ (Eval.runBy p s)
  · intro h r t heval
    rw [heval.eq_runBy] at h
    exact h

/-- What holds whenever the program throws. -/
theorem forall_throws_iff {R : ε → σ → Prop} {p : Prog Op ε α} {s : σ} :
    (∀ e t, Eval S (given fate) p s (.error e) t → R e t) ↔
      ∀ e, (runBy S fate p s).1 = .error e → R e (runBy S fate p s).2 := by
  rw [← forall_eval_iff (Q := fun r t ↦ ∀ e, r = .error e → R e t)]
  exact ⟨fun h r t ht e he ↦ h e t (he ▸ ht), fun h e t ht ↦ h _ t ht e rfl⟩

/-- A program none of whose requests matters: only the end of its run does. -/
theorem wp_of_runBy {P : ∀ β : Type, Op β → σ → Prop} {Q : Except ε α → σ → Prop}
    {p : Prog Op ε α} (hp : Prog.Only (fun β op ↦ ∀ s, P β op s) p) {s : σ}
    (hQ : Q (runBy S fate p s).1 (runBy S fate p s).2) : wp S (given fate) P Q p s := by
  induction p generalizing s with
  | pure a => exact hQ
  | throw e => exact hQ
  | call op k ih =>
      rw [Prog.only_call] at hp
      refine ⟨hp.1 s, ?_⟩
      rintro _ rfl
      exact ih _ (hp.2 _) hQ

/-- The run in which nothing fails. -/
theorem forall_noFailure_iff {Q : Except ε α → σ → Prop} {p : Prog Op ε α} {s : σ} :
    (∀ r t, Eval S noFailure p s r t → Q r t) ↔
      Q (Concurrent.runBy S (fun _ _ ↦ .served) p s).1
        (Concurrent.runBy S (fun _ _ ↦ .served) p s).2 :=
  forall_eval_iff

/-- The run in which nothing fails, if what it asks for is admissible where it asks. -/
def Along (S : Server Op ε σ) (C : ∀ β : Type, Op β → σ → Prop) : Prog Op ε α → σ → Prop
  | .pure _, _ | .throw _, _ => True
  | .call op k, s => C _ op s ∧ Along S C (k (S.reply .served op s)) (S.after .served op s)

instance decidableAlong {C : ∀ β : Type, Op β → σ → Prop}
    [∀ (β : Type) (op : Op β), DecidablePred (C β op)] :
    ∀ (p : Prog Op ε α) (s : σ), Decidable (Along S C p s)
  | .pure _, _ | .throw _, _ => .isTrue trivial
  | .call op k, s =>
      have : Decidable (Along S C (k (S.reply .served op s)) (S.after .served op s)) :=
        decidableAlong _ _
      inferInstanceAs (Decidable (C _ op s ∧ Along S C (k (S.reply .served op s)) _))

theorem Eval.of_along {adm : Admits Op ε σ} {C : ∀ β : Type, Op β → σ → Prop}
    (hadm : ∀ (β : Type) (op : Op β) s, C β op s → adm β op .served s) {p : Prog Op ε α} {s : σ}
    (h : Along S C p s) : Eval S adm p s (run S [] p s).1 (run S [] p s).2 := by
  induction p generalizing s with
  | pure a => exact .pure a s
  | throw e => exact .throw e s
  | call op k ih => exact .call .served (hadm _ op s h.1) (ih _ h.2)

theorem runBy_bind (p : Prog Op ε α) (f : α → Prog Op ε β) (s : σ) :
    runBy S fate (p >>= f) s = match runBy S fate p s with
      | (.ok a, t) => runBy S fate (f a) t
      | (.error e, t) => (.error e, t) := by
  induction p generalizing s with
  | pure a => rfl
  | throw e => rfl
  | call op k ih => exact ih _ _

@[simp] theorem runBy_ofExcept (r : Except ε α) (s : σ) :
    runBy S fate (.ofExcept r) s = (r, s) := by
  cases r <;> rfl

theorem runBy_perform (op : Op α) (s : σ) :
    runBy S fate (.perform op) s = (S.reply (fate _ op) op s, S.after (fate _ op) op s) := by
  rw [Prog.perform, runBy, runBy_ofExcept]

theorem runBy_tryCatch (p : Prog Op ε α) (h : ε → Prog Op ε α) (s : σ) :
    runBy S fate (p.tryCatch h) s = match runBy S fate p s with
      | (.ok a, t) => (.ok a, t)
      | (.error e, t) => runBy S fate (h e) t := by
  induction p generalizing s with
  | pure a => rfl
  | throw e => rfl
  | call op k ih => exact ih _ _

/-- One awaited request and what follows. -/
theorem runBy_await (op : Op γ) (k : γ → Prog Op ε α) (s : σ) :
    runBy S fate (.perform op >>= k) s =
      runBy S fate (.ofExcept (S.reply (fate _ op) op s) >>= k) (S.after (fate _ op) op s) := by
  rw [Prog.perform_bind, runBy]

section Await

variable (fate) (op : Op γ) {k : γ → Prog Op ε α} {s t : σ} {e : ε}

/-- A request that is refused: the program fails where it was. -/
theorem runBy_refused (h : fate _ op = .refused e) :
    runBy S fate (.perform op >>= k) s = (.error e, s) := by
  rw [runBy_await, h]
  rfl

/-- A request that takes effect without an answer: the program fails all the same. -/
theorem runBy_unanswered (h : fate _ op = .unanswered e) :
    runBy S fate (.perform op >>= k) s = (.error e, (S.serve op s).2) := by
  rw [runBy_await, h]
  rfl

theorem runBy_served {b : γ} (h : fate _ op = .served) (hserve : S.serve op s = (.ok b, t)) :
    runBy S fate (.perform op >>= k) s = runBy S fate (k b) t := by
  rw [runBy_await, h, Server.reply_served, Server.after_served, hserve]
  rfl

/-- A request that is served with an error. -/
theorem runBy_rejected (h : fate _ op = .served) (hserve : S.serve op s = (.error e, t)) :
    runBy S fate (.perform op >>= k) s = (.error e, t) := by
  rw [runBy_await, h, Server.reply_served, Server.after_served, hserve]
  rfl

/-- A request that changes nothing: without its answer the program fails where it was. -/
theorem runBy_read {b : γ} (hserve : S.serve op s = (.ok b, s)) (h : fate _ op ≠ .served) :
    ∃ e, runBy S fate (.perform op >>= k) s = (.error e, s) := by
  cases hf : fate _ op with
  | served => exact absurd hf h
  | refused e => exact ⟨e, runBy_refused fate op hf⟩
  | unanswered e => exact ⟨e, by rw [runBy_unanswered fate op hf, hserve]⟩

end Await

theorem runBy_attempt (p : Prog Op ε α) (s : σ) :
    runBy S fate p.attempt s = (.ok (runBy S fate p s).1, (runBy S fate p s).2) := by
  induction p generalizing s with
  | pure a => rfl
  | throw e => rfl
  | call op k ih => exact ih _ _

/-- Programs started together, each of which is one step. -/
theorem runBy_awaitAll {f : γ → Prog Op ε α} {out : γ → Except ε α} {next : σ → γ → σ}
    (h : ∀ c s, runBy S fate (f c) s = (out c, next s c)) (l : List γ) (s : σ) :
    runBy S fate (.awaitAll (l.map f)) s =
      (Prog.sequenceOutcomes (l.map out), l.foldl next s) := by
  have hsettle : runBy S fate (.settleAll (l.map f)) s = (.ok (l.map out), l.foldl next s) := by
    induction l generalizing s with
    | nil => rfl
    | cons c l ih =>
        rw [List.map_cons, Prog.settleAll, runBy_bind, runBy_attempt]
        dsimp only
        rw [runBy_bind, h, ih]
        rfl
  rw [Prog.awaitAll, runBy_bind, hsettle]
  dsimp only
  cases Prog.sequenceOutcomes (l.map out) with
  | ok as => rfl
  | error e => rfl

end RunBy

/-- All have an answer, or the error of one of them is thrown. -/
theorem Prog.sequenceOutcomes_map (f : γ → Except ε α) (g : γ → α) (l : List γ)
    (hf : ∀ c a, f c = .ok a → a = g c) :
    (∀ c ∈ l, f c = .ok (g c)) ∧ Prog.sequenceOutcomes (l.map f) = .ok (l.map g) ∨
      ∃ e, (∃ c ∈ l, f c = .error e) ∧ Prog.sequenceOutcomes (l.map f) = .error e := by
  induction l with
  | nil => exact .inl ⟨fun c hc ↦ absurd hc List.not_mem_nil, rfl⟩
  | cons c l ih =>
      rw [List.map_cons]
      cases hc : f c with
      | error e => exact .inr ⟨e, ⟨c, List.mem_cons_self, hc⟩, rfl⟩
      | ok a =>
          obtain rfl := hf c a hc
          rcases ih with ⟨hall, hok⟩ | ⟨e, ⟨d, hd, hde⟩, herr⟩
          · refine .inl ⟨List.forall_mem_cons.mpr ⟨hc, hall⟩, ?_⟩
            rw [Prog.sequenceOutcomes, hok]
            rfl
          · refine .inr ⟨e, ⟨d, List.mem_cons_of_mem _ hd, hde⟩, ?_⟩
            rw [Prog.sequenceOutcomes, herr]
            rfl

/-! ## Keeping a record -/

/-- The server with a record of the requests that take effect. -/
def Server.recording {O : Type} (S : Server Op ε σ) (note : ∀ β : Type, Op β → List O) :
    Server Op ε (Recorded σ O) where
  serve op r := ((S.serve op r.state).1, ⟨(S.serve op r.state).2, r.log ++ note _ op⟩)

/-- The server with a record of what an observer notes of the requests that take effect and of
the states they are served in. -/
def Server.watching {O : Type} (S : Server Op ε σ)
    (watch : ∀ β : Type, Op β → σ → List O) : Server Op ε (Recorded σ O) where
  serve op r :=
    ((S.serve op r.state).1, ⟨(S.serve op r.state).2, r.log ++ watch _ op r.state⟩)

end Concurrent
