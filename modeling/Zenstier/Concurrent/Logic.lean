import Zenstier.Concurrent.Residual

/-!
# Running a program against a server

A `Server` says how requests act on a shared state.  What becomes of a single request
is its `Fate`: it is served; it is refused before it had any effect; or it takes effect
but its answer is lost and the program sees an error.  The last two are the failures a
client of a remote store has to live with.

A run is judged in three ways: by how it ends (`Eval`), by the requests it issues on
the way (`Issues`), and by the weakest precondition `wp` that covers both.  `wp` is
computed from the program tree, and `wp_bind` and `wp_tryCatch` let a proof follow the
source of a function from top to bottom.
-/

namespace Concurrent

/-- How the requests `Op` act on a state `σ`: the reply and the state afterwards. -/
structure Server (Op : Type → Type) (ε σ : Type) where
  /-- The effect of one request. -/
  serve : ∀ {β : Type}, Op β → σ → Except ε β × σ

/-- What becomes of one request. -/
inductive Fate (ε : Type)
  /-- The request takes effect and its reply arrives. -/
  | served
  /-- The request fails without effect. -/
  | refused (e : ε)
  /-- The request takes effect, but the program sees a failure. -/
  | unanswered (e : ε)
deriving DecidableEq, Repr

variable {Op : Type → Type} {ε σ α β : Type}

namespace Server

/-- The reply the program sees. -/
def reply (S : Server Op ε σ) (f : Fate ε) (op : Op β) (s : σ) : Except ε β :=
  match f with
  | .served => (S.serve op s).1
  | .refused e | .unanswered e => .error e

/-- The state the request leaves. -/
def after (S : Server Op ε σ) (f : Fate ε) (op : Op β) (s : σ) : σ :=
  match f with
  | .served | .unanswered _ => (S.serve op s).2
  | .refused _ => s

variable (S : Server Op ε σ) (op : Op β) (s : σ) (e : ε)

@[simp] theorem reply_served : S.reply .served op s = (S.serve op s).1 := rfl
@[simp] theorem reply_refused : S.reply (.refused e) op s = .error e := rfl
@[simp] theorem reply_unanswered : S.reply (.unanswered e) op s = .error e := rfl
@[simp] theorem after_served : S.after .served op s = (S.serve op s).2 := rfl
@[simp] theorem after_refused : S.after (.refused e) op s = s := rfl
@[simp] theorem after_unanswered : S.after (.unanswered e) op s = (S.serve op s).2 := rfl

/-- A request leaves either the state it found or the state it is served to. -/
theorem after_cases (f : Fate ε) : S.after f op s = s ∨ S.after f op s = (S.serve op s).2 := by
  cases f with
  | served => exact .inr rfl
  | refused e => exact .inl rfl
  | unanswered e => exact .inr rfl

variable {S op s} in
/-- What holds before a request and after it is served holds whatever becomes of it. -/
theorem after_of (P : σ → Prop) (hs : P s) (hserve : P (S.serve op s).2) (f : Fate ε) :
    P (S.after f op s) := by
  rcases S.after_cases op s f with h | h
  · rw [h]
    exact hs
  · rw [h]
    exact hserve

variable {S op s} in
/-- A request that is not refused takes effect. -/
theorem after_of_ne_refused {f : Fate ε} (h : ∀ e, f ≠ .refused e) :
    S.after f op s = (S.serve op s).2 := by
  cases f with
  | served => rfl
  | refused e => exact absurd rfl (h e)
  | unanswered e => rfl

variable {S op s} in
/-- A reply that is an answer was given by the server. -/
theorem served_of_reply_ok {f : Fate ε} {b : β} (h : S.reply f op s = .ok b) :
    f = .served ∧ (S.serve op s).1 = .ok b := by
  cases f with
  | served => exact ⟨rfl, h⟩
  | refused e => cases h
  | unanswered e => cases h

end Server

/-- Which fates a request may meet in a state. -/
abbrev Admits (Op : Type → Type) (ε σ : Type) : Type 1 :=
  ∀ β : Type, Op β → Fate ε → σ → Prop

/-- Any request may fail at any time. -/
def anyFate : Admits Op ε σ := fun _ _ _ _ ↦ True

/-- No request fails. -/
def noFailure : Admits Op ε σ := fun _ _ f _ ↦ f = .served

section Runs

variable (S : Server Op ε σ) (adm : Admits Op ε σ)

/-- `Eval S adm p s r t`: some run of `p` from `s` ends with the outcome `r` in `t`. -/
inductive Eval : Prog Op ε α → σ → Except ε α → σ → Prop
  | pure (a : α) (s : σ) : Eval (.pure a) s (.ok a) s
  | throw (e : ε) (s : σ) : Eval (.throw e) s (.error e) s
  | call {β : Type} {op : Op β} {k : Except ε β → Prog Op ε α} {s t : σ}
      {r : Except ε α} (f : Fate ε) (hf : adm β op f s)
      (h : Eval (k (S.reply f op s)) (S.after f op s) r t) : Eval (.call op k) s r t

/-- `Issues S adm op t p s`: some run of `p` from `s` issues the request `op` in `t`. -/
inductive Issues {β : Type} (op : Op β) (t : σ) : Prog Op ε α → σ → Prop
  | here (k : Except ε β → Prog Op ε α) : Issues op t (.call op k) t
  | later {γ : Type} {op' : Op γ} {k : Except ε γ → Prog Op ε α} {s : σ} (f : Fate ε)
      (hf : adm γ op' f s) (h : Issues op t (k (S.reply f op' s)) (S.after f op' s)) :
      Issues op t (.call op' k) s

/-- The weakest precondition: every request of every run satisfies `P` in the state it
is issued in, and every run that ends does so in `Q`. -/
def wp (P : ∀ β : Type, Op β → σ → Prop) (Q : Except ε α → σ → Prop) :
    Prog Op ε α → σ → Prop
  | .pure a, s => Q (.ok a) s
  | .throw e, s => Q (.error e) s
  | .call (β := β) op k, s => P β op s ∧
      ∀ f, adm β op f s → wp P Q (k (S.reply f op s)) (S.after f op s)

end Runs

variable {S : Server Op ε σ} {adm : Admits Op ε σ}
  {P : ∀ β : Type, Op β → σ → Prop} {Q : Except ε α → σ → Prop}

@[simp] theorem wp_pure (a : α) (s : σ) : wp S adm P Q (.pure a) s = Q (.ok a) s := rfl

@[simp] theorem wp_throw (e : ε) (s : σ) :
    wp S adm P Q (.throw e) s = Q (.error e) s := rfl

theorem wp_call (op : Op β) (k : Except ε β → Prog Op ε α) (s : σ) :
    wp S adm P Q (.call op k) s = (P β op s ∧
      ∀ f, adm β op f s → wp S adm P Q (k (S.reply f op s)) (S.after f op s)) := rfl

@[simp] theorem wp_ofExcept (r : Except ε α) (s : σ) :
    wp S adm P Q (.ofExcept r) s = Q r s := by cases r <;> rfl

/-- How a run ends is covered by its weakest precondition. -/
theorem Eval.of_wp {p : Prog Op ε α} {s t : σ} {r : Except ε α} (h : Eval S adm p s r t)
    (hwp : wp S adm P Q p s) : Q r t := by
  induction h with
  | pure a s => exact hwp
  | throw e s => exact hwp
  | call f hf _ ih => exact ih (hwp.2 f hf)

/-- Under weaker conditions on the fates there are more runs. -/
theorem Eval.mono {adm' : Admits Op ε σ}
    (hadm : ∀ β (op : Op β) f s, adm β op f s → adm' β op f s) {p : Prog Op ε α} {s t : σ}
    {r : Except ε α} (h : Eval S adm p s r t) : Eval S adm' p s r t := by
  induction h with
  | pure a s => exact .pure a s
  | throw e s => exact .throw e s
  | call f hf _ ih => exact .call f (hadm _ _ f _ hf) ih

/-- So is every request it issues. -/
theorem Issues.of_wp {op : Op β} {p : Prog Op ε α} {s t : σ} (h : Issues S adm op t p s)
    (hwp : wp S adm P Q p s) : P β op t := by
  induction h with
  | here k => exact hwp.1
  | later f hf _ ih => exact ih (hwp.2 f hf)

/-- An awaited request is issued. -/
theorem Issues.await {γ : Type} {op : Op β} {k : β → Prog Op ε γ} {s : σ} :
    Issues S adm op s (.perform op >>= k) s := by
  rw [Prog.perform_bind]
  exact .here _

/-- Past a request that is served with an answer. -/
theorem Issues.past {γ δ : Type} {op : Op β} {op' : Op γ} {k : γ → Prog Op ε δ} {b : γ}
    {s s' t : σ} (hadm : adm γ op' .served s) (hserve : S.serve op' s = (.ok b, s'))
    (h : Issues S adm op t (k b) s') : Issues S adm op t (.perform op' >>= k) s := by
  rw [Prog.perform_bind]
  refine .later .served hadm ?_
  rw [Server.reply_served, Server.after_served, hserve]
  exact h

/-- The postcondition of a weakest precondition may be weakened. -/
theorem wp_mono {Q' : Except ε α → σ → Prop} {p : Prog Op ε α} {s : σ}
    (h : wp S adm P Q p s) (hQ : ∀ r t, Q r t → Q' r t) : wp S adm P Q' p s := by
  induction p generalizing s with
  | pure a => exact hQ _ _ h
  | throw e => exact hQ _ _ h
  | call op k ih => exact ⟨h.1, fun f hf ↦ ih _ (h.2 f hf)⟩

/-- What two proofs show of a run holds together. -/
theorem wp_and {S : Server Op ε σ} {adm : Admits Op ε σ} {P P' : ∀ β : Type, Op β → σ → Prop}
    {Q Q' : Except ε α → σ → Prop} {p : Prog Op ε α} {s : σ} (h : wp S adm P Q p s)
    (h' : wp S adm P' Q' p s) : wp S adm P (fun r t ↦ Q r t ∧ Q' r t) p s := by
  induction p generalizing s with
  | pure a => exact ⟨h, h'⟩
  | throw e => exact ⟨h, h'⟩
  | call op k ih => exact ⟨h.1, fun f hf ↦ ih _ (h.2 f hf) (h'.2 f hf)⟩

/-- Sequencing: the first program must establish the precondition of the second. -/
theorem wp_bind {γ : Type} {Q : Except ε γ → σ → Prop} (p : Prog Op ε α)
    (f : α → Prog Op ε γ) (s : σ) :
    wp S adm P Q (p >>= f) s ↔ wp S adm P (fun r t ↦ match r with
      | .ok a => wp S adm P Q (f a) t
      | .error e => Q (.error e) t) p s := by
  induction p generalizing s with
  | pure a => rfl
  | throw e => rfl
  | call op k ih =>
      rw [Prog.call_bind, wp_call, wp_call]
      exact and_congr Iff.rfl (forall₂_congr fun f _ ↦ ih _ _)

/-- Handling: an error must establish the precondition of the handler. -/
theorem wp_tryCatch (p : Prog Op ε α) (h : ε → Prog Op ε α) (s : σ) :
    wp S adm P Q (p.tryCatch h) s ↔ wp S adm P (fun r t ↦ match r with
      | .ok a => Q (.ok a) t
      | .error e => wp S adm P Q (h e) t) p s := by
  induction p generalizing s with
  | pure a => rfl
  | throw e => rfl
  | call op k ih =>
      rw [Prog.tryCatch_call, wp_call, wp_call]
      exact and_congr Iff.rfl (forall₂_congr fun f _ ↦ ih _ _)

/-- One awaited request. -/
theorem wp_perform {Q : Except ε β → σ → Prop} (op : Op β) (s : σ) :
    wp S adm P Q (.perform op) s ↔
      P β op s ∧ ∀ f, adm β op f s → Q (S.reply f op s) (S.after f op s) := by
  simp [Prog.perform, wp_call]

/-- An awaited request and what follows: it is served and the program goes on, or it fails
before or after it took effect. -/
theorem wp_await {γ : Type} {Q : Except ε γ → σ → Prop} {op : Op β} {k : β → Prog Op ε γ}
    {s : σ} (hP : P β op s)
    (hserved : adm β op .served s →
      wp S adm P Q (.ofExcept (S.serve op s).1 >>= k) (S.serve op s).2)
    (hrefused : ∀ e, adm β op (.refused e) s → Q (.error e) s)
    (hunanswered : ∀ e, adm β op (.unanswered e) s → Q (.error e) (S.serve op s).2) :
    wp S adm P Q (.perform op >>= k) s := by
  rw [Prog.perform_bind, wp_call]
  refine ⟨hP, fun f hf ↦ ?_⟩
  cases f with
  | served => exact hserved hf
  | refused e => exact hrefused e hf
  | unanswered e => exact hunanswered e hf

/-- An awaited request that changes nothing: the program goes on with the answer, or fails. -/
theorem wp_await_read {γ : Type} {Q : Except ε γ → σ → Prop} {op : Op β}
    {k : β → Prog Op ε γ} {s : σ} {b : β} (hP : P β op s) (hserve : S.serve op s = (.ok b, s))
    (hk : wp S adm P Q (k b) s) (hfails : ∀ e, Q (.error e) s) :
    wp S adm P Q (.perform op >>= k) s := by
  refine wp_await hP (fun _ ↦ ?_) (fun e _ ↦ hfails e) fun e _ ↦ ?_
  · rw [hserve]
    exact hk
  · rw [hserve]
    exact hfails e

/-- An awaited request that is answered. -/
theorem wp_await_served {γ : Type} {Q : Except ε γ → σ → Prop} {op : Op β}
    {k : β → Prog Op ε γ} {s s' : σ} {b : β} (hP : P β op s) (hserve : S.serve op s = (.ok b, s'))
    (hk : wp S noFailure P Q (k b) s') : wp S noFailure P Q (.perform op >>= k) s := by
  refine wp_await hP (fun _ ↦ ?_) (fun e he ↦ nomatch he) fun e he ↦ nomatch he
  rw [hserve]
  exact hk

theorem wp_attempt {Q : Except ε (Except ε α) → σ → Prop} (p : Prog Op ε α) (s : σ) :
    wp S adm P Q p.attempt s ↔ wp S adm P (fun r t ↦ Q (.ok r) t) p s := by
  rw [Prog.attempt, wp_tryCatch, wp_bind]
  constructor <;> refine fun h ↦ wp_mono h fun r t hr ↦ ?_ <;> cases r <;> exact hr

/-- Programs started together: what each of them keeps, all of them keep. -/
theorem wp_settleAll {I : σ → Prop} {ps : List (Prog Op ε α)}
    (h : ∀ p ∈ ps, ∀ s, I s → wp S adm P (fun _ t ↦ I t) p s) {s : σ} (hs : I s) :
    wp S adm P (fun r t ↦ I t ∧ ∃ rs, r = .ok rs) (.settleAll ps) s := by
  induction ps generalizing s with
  | nil => exact ⟨hs, [], rfl⟩
  | cons p ps ih =>
      rw [Prog.settleAll, wp_bind, wp_attempt]
      refine wp_mono (h p List.mem_cons_self s hs) fun r t ht ↦ ?_
      refine (wp_bind _ _ _).mpr
        (wp_mono (ih (fun q hq ↦ h q (List.mem_cons_of_mem p hq)) ht) ?_)
      rintro r' t' ⟨ht', rs, rfl⟩
      exact ⟨ht', _, rfl⟩

theorem wp_awaitAll {I : σ → Prop} {ps : List (Prog Op ε α)}
    (h : ∀ p ∈ ps, ∀ s, I s → wp S adm P (fun _ t ↦ I t) p s) {s : σ} (hs : I s) :
    wp S adm P (fun _ t ↦ I t) (.awaitAll ps) s := by
  rw [Prog.awaitAll, wp_bind]
  refine wp_mono (wp_settleAll h hs) ?_
  rintro r t ⟨ht, rs, rfl⟩
  simpa using ht

/-- A program all of whose requests keep an invariant keeps it. -/
theorem wp_of_only {I : σ → Prop} {K : ∀ β : Type, Op β → Prop}
    (hK : ∀ β (op : Op β) s f, K β op → I s → adm β op f s → I (S.after f op s))
    (hP : ∀ β (op : Op β) s, K β op → I s → P β op s) {p : Prog Op ε α}
    (hp : Prog.Only K p) {s : σ} (hs : I s) : wp S adm P (fun _ t ↦ I t) p s := by
  induction p generalizing s with
  | pure a => exact hs
  | throw e => exact hs
  | call op k ih =>
      rw [Prog.only_call] at hp
      exact ⟨hP _ op s hp.1 hs, fun f hf ↦ ih _ (hp.2 _) (hK _ op s f hp.1 hs hf)⟩

/-- A loop: `I rest` holds when `rest` is still to be gone through. -/
theorem wp_forM {Q : Except ε PUnit → σ → Prop} {I : List β → σ → Prop}
    {f : β → Prog Op ε PUnit} (l : List β)
    (hf : ∀ b rest s, I (b :: rest) s → wp S adm P (fun r t ↦ match r with
      | .ok _ => I rest t
      | .error e => Q (.error e) t) (f b) s)
    (hnil : ∀ s, I [] s → Q (.ok ⟨⟩) s) {s : σ} (hs : I l s) :
    wp S adm P Q (l.forM f) s := by
  induction l generalizing s with
  | nil => exact hnil s hs
  | cons b rest ih =>
      refine (wp_bind (f b) (fun _ ↦ rest.forM f) s).mpr (wp_mono (hf b rest s hs) ?_)
      rintro (e | u) t ht
      · exact ht
      · exact ih ht

/-- The states between the calls of a sequence: each call runs to its end before the next
starts, and the environment acts in between. -/
inductive Serial {ι η : Type} (S : Server Op ε σ) (call : ι → Prog Op ε α)
    (adm : ι → Admits Op ε σ) (env : η → σ → σ) (s₀ : σ) : σ → Prop
  | start : Serial S call adm env s₀ s₀
  | call {s t : σ} {r : Except ε α} (i : ι) (h : Serial S call adm env s₀ s)
      (hi : Eval S (adm i) (call i) s r t) : Serial S call adm env s₀ t
  | env {s : σ} (x : η) (h : Serial S call adm env s₀ s) : Serial S call adm env s₀ (env x s)

/-- What every call and the environment keep holds between calls. -/
theorem Serial.invariant {ι η : Type} {call : ι → Prog Op ε α} {adm : ι → Admits Op ε σ}
    {env : η → σ → σ} {I : σ → Prop} {s₀ s : σ} (h₀ : I s₀)
    (hcall : ∀ i s, I s → wp S (adm i) P (fun _ t ↦ I t) (call i) s)
    (henv : ∀ x s, I s → I (env x s)) (h : Serial S call adm env s₀ s) : I s := by
  induction h with
  | start => exact h₀
  | call i _ hi ih => exact hi.of_wp (hcall i _ ih)
  | env x _ ih => exact henv x _ ih

/-! ## Executing a program -/

/-- Executes a program against given fates; once they are used up, every request is
served. -/
def run (S : Server Op ε σ) : List (Fate ε) → Prog Op ε α → σ → Except ε α × σ
  | _, .pure a, s => (.ok a, s)
  | _, .throw e, s => (.error e, s)
  | [], .call op k, s => run S [] (k (S.reply .served op s)) (S.after .served op s)
  | f :: fs, .call op k, s => run S fs (k (S.reply f op s)) (S.after f op s)

/-- An execution is a run, if its fates are admissible everywhere. -/
theorem Eval.of_run {fs : List (Fate ε)} {p : Prog Op ε α} {s : σ}
    (hadm : ∀ f ∈ Fate.served :: fs, ∀ (β : Type) (op : Op β) (s : σ), adm β op f s) :
    Eval S adm p s (run S fs p s).1 (run S fs p s).2 := by
  induction p generalizing fs s with
  | pure a => exact .pure a s
  | throw e => exact .throw e s
  | call op k ih =>
      cases fs with
      | nil => exact .call .served (hadm _ List.mem_cons_self _ op s) (ih _ hadm)
      | cons f fs =>
          refine .call f (hadm _ (List.mem_cons_of_mem _ List.mem_cons_self) _ op s) (ih _ ?_)
          intro g hg
          rcases List.mem_cons.mp hg with rfl | hg
          · exact hadm _ List.mem_cons_self
          · exact hadm _ (List.mem_cons_of_mem _ (List.mem_cons_of_mem _ hg))

/-- An execution without failures. -/
theorem Eval.of_run_served (p : Prog Op ε α) (s : σ) :
    Eval S noFailure p s (run S [] p s).1 (run S [] p s).2 :=
  .of_run fun _ hf _ _ _ ↦ List.mem_singleton.mp hf

end Concurrent
