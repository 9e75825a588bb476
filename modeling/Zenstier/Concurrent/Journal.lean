import Mathlib.Algebra.BigOperators.Group.Finset.Piecewise
import Mathlib.Algebra.Order.BigOperators.Group.Finset
import Zenstier.Concurrent.Contract
import Zenstier.Concurrent.Linearization

/-!
# What a call notes by itself

A statement about one call of many may need no more than the guard of the schedule: whatever
state each of its requests meets, as long as the guard admits it, the notes that have been
taken of the call satisfy `Q`.  Then they do so in every interleaving.
-/

namespace Concurrent

open Prog

variable {Op : Type → Type} {ε α β γ σ O : Type}

/-- Of a call that has been noted as `n`, whatever is noted from here on satisfies `Q`. -/
def Tracks (S : Server Op ε σ) (watch : Fate ε → ∀ β : Type, Op β → σ → List O)
    (guard : List O → ∀ β : Type, Op β → σ → Prop) (Q : List O → Prop) :
    Prog Op ε α → List O → Prop
  | .pure _, n | .throw _, n => Q n
  | .call (β := β) op k, n => Q n ∧ ∀ s f, ((∀ e, f ≠ .refused e) → guard n β op s) →
      Tracks S watch guard Q (k (S.reply f op s)) (n ++ watch f β op s)

section Rules

variable {S : Server Op ε σ} {watch : Fate ε → ∀ β : Type, Op β → σ → List O}
  {guard : List O → ∀ β : Type, Op β → σ → Prop} {Q : List O → Prop} {n : List O}

theorem Tracks.now {p : Prog Op ε α} (h : Tracks S watch guard Q p n) : Q n := by
  cases p with
  | pure a => exact h
  | throw e => exact h
  | call op k => exact h.1

/-- One awaited request: what is noted of it is fine, and if it is answered the rest is too. -/
theorem Tracks.await {op : Op β} {k : β → Prog Op ε α} (hn : Q n)
    (hnote : ∀ s f, ((∀ e, f ≠ .refused e) → guard n β op s) → Q (n ++ watch f β op s))
    (hk : ∀ s b, guard n β op s → (S.serve op s).1 = .ok b →
      Tracks S watch guard Q (k b) (n ++ watch .served β op s)) :
    Tracks S watch guard Q (.perform op >>= k) n := by
  refine ⟨hn, fun s f hg ↦ ?_⟩
  cases f with
  | refused e => exact hnote s _ hg
  | unanswered e => exact hnote s _ hg
  | served =>
      have hguard : guard n β op s := hg fun e ↦ by simp
      show Tracks S watch guard Q (.ofExcept (S.serve op s).1 >>= k) _
      cases hr : (S.serve op s).1 with
      | error e => exact hnote s _ hg
      | ok b => exact hk s b hguard hr

/-- A request of which nothing is noted. -/
theorem Tracks.skip {op : Op β} {k : β → Prog Op ε α} (hwatch : ∀ f s, watch f β op s = [])
    (hn : Q n) (hk : ∀ b, Tracks S watch guard Q (k b) n) :
    Tracks S watch guard Q (.perform op >>= k) n := by
  refine .await hn (fun s f _ ↦ ?_) fun s b _ _ ↦ ?_
  · rwa [hwatch, List.append_nil]
  · rw [hwatch, List.append_nil]
    exact hk b

/-- What holds of any notes. -/
theorem Tracks.of_forall (hQ : ∀ n, Q n) (p : Prog Op ε α) : Tracks S watch guard Q p n := by
  induction p generalizing n with
  | pure a => exact hQ n
  | throw e => exact hQ n
  | call op k ih => exact ⟨hQ n, fun s f _ ↦ ih _⟩

/-- A weaker statement about the notes. -/
theorem Tracks.mono {Q' : List O → Prop} (h : ∀ n, Q n → Q' n) {p : Prog Op ε α}
    (hp : Tracks S watch guard Q p n) : Tracks S watch guard Q' p n := by
  induction p generalizing n with
  | pure a => exact h n hp
  | throw e => exact h n hp
  | call op k ih => exact ⟨h n hp.1, fun s f hg ↦ ih _ (hp.2 s f hg)⟩

/-- What the notes of each request keep. -/
theorem Tracks.of_only {P : ∀ β : Type, Op β → Prop} {p : Prog Op ε α} (hp : Only P p)
    (hP : ∀ (β : Type) (op : Op β) f s n, P β op → Q n → Q (n ++ watch f β op s)) (hn : Q n) :
    Tracks S watch guard Q p n := by
  induction p generalizing n with
  | pure a => exact hn
  | throw e => exact hn
  | call op k ih =>
      rw [only_call] at hp
      exact ⟨hn, fun s f _ ↦ ih _ (hp.2 _) (hP _ op f s n hp.1 hn)⟩

/-- A program of which nothing is noted. -/
theorem Tracks.quiet {p : Prog Op ε γ} {k : γ → Prog Op ε α}
    (hp : Only (fun β op ↦ ∀ f s, watch f β op s = []) p) (hn : Q n)
    (hk : ∀ c, Tracks S watch guard Q (k c) n) : Tracks S watch guard Q (p >>= k) n := by
  induction p with
  | pure c => exact hk c
  | throw e => exact hn
  | call op k' ih =>
      rw [only_call] at hp
      refine ⟨hn, fun s f _ ↦ ?_⟩
      rw [hp.1, List.append_nil]
      exact ih _ (hp.2 _)

/-- A program of which nothing is noted, and what follows on the values it returns. -/
theorem Tracks.returned {R : γ → Prop} {p : Prog Op ε γ} {k : γ → Prog Op ε α}
    (hp : Meets (fun _ _ _ ↦ True) (fun β op ↦ ∀ f s, watch f β op s = []) R p) (hn : Q n)
    (hk : ∀ c, R c → Tracks S watch guard Q (k c) n) : Tracks S watch guard Q (p >>= k) n := by
  induction p with
  | pure c => exact hk c hp
  | throw e => exact hn
  | call op k' ih =>
      refine ⟨hn, fun s f _ ↦ ?_⟩
      rw [hp.1, List.append_nil]
      exact ih _ (hp.2 _ trivial)

end Rules

/-! ## Notes and the value -/

/-- Of a call that has been noted as `n`, whatever is noted from here on satisfies `Q none`, and
`Q (some a)` once it has returned `a`. -/
def Concludes (S : Server Op ε σ) (watch : Fate ε → ∀ β : Type, Op β → σ → List O)
    (guard : List O → ∀ β : Type, Op β → σ → Prop) (Q : Option α → List O → Prop) :
    Prog Op ε α → List O → Prop
  | .pure a, n => Q (some a) n
  | .throw _, n => Q none n
  | .call (β := β) op k, n => Q none n ∧ ∀ s f, ((∀ e, f ≠ .refused e) → guard n β op s) →
      Concludes S watch guard Q (k (S.reply f op s)) (n ++ watch f β op s)

section Rules

variable {S : Server Op ε σ} {watch : Fate ε → ∀ β : Type, Op β → σ → List O}
  {guard : List O → ∀ β : Type, Op β → σ → Prop} {Q : Option α → List O → Prop} {n : List O}

/-- One awaited request: what is noted of it is fine, and if it is answered the rest is too. -/
theorem Concludes.await {op : Op β} {k : β → Prog Op ε α} (hn : Q none n)
    (hnote : ∀ s f, ((∀ e, f ≠ .refused e) → guard n β op s) → Q none (n ++ watch f β op s))
    (hk : ∀ s b, guard n β op s → (S.serve op s).1 = .ok b →
      Concludes S watch guard Q (k b) (n ++ watch .served β op s)) :
    Concludes S watch guard Q (.perform op >>= k) n := by
  refine ⟨hn, fun s f hg ↦ ?_⟩
  cases f with
  | refused e => exact hnote s _ hg
  | unanswered e => exact hnote s _ hg
  | served =>
      have hguard : guard n β op s := hg fun e ↦ by simp
      show Concludes S watch guard Q (.ofExcept (S.serve op s).1 >>= k) _
      cases hr : (S.serve op s).1 with
      | error e => exact hnote s _ hg
      | ok b => exact hk s b hguard hr

/-- A request of which nothing is noted. -/
theorem Concludes.skip {op : Op β} {k : β → Prog Op ε α} (hwatch : ∀ f s, watch f β op s = [])
    (hn : Q none n) (hk : ∀ b, Concludes S watch guard Q (k b) n) :
    Concludes S watch guard Q (.perform op >>= k) n := by
  refine .await hn (fun s f _ ↦ ?_) fun s b _ _ ↦ ?_
  · rwa [hwatch, List.append_nil]
  · rw [hwatch, List.append_nil]
    exact hk b

/-- What holds of any notes. -/
theorem Concludes.of_forall (hQ : ∀ res n, Q res n) (p : Prog Op ε α) :
    Concludes S watch guard Q p n := by
  induction p generalizing n with
  | pure a => exact hQ (some a) n
  | throw e => exact hQ none n
  | call op k ih => exact ⟨hQ none n, fun s f _ ↦ ih _⟩

/-- What the first part concludes, the second part goes on from. -/
theorem Concludes.bind {R : Option γ → List O → Prop} {p : Prog Op ε γ} {f : γ → Prog Op ε α}
    (hp : Concludes S watch guard R p n) (hnone : ∀ m, R none m → Q none m)
    (hf : ∀ c m, R (some c) m → Concludes S watch guard Q (f c) m) :
    Concludes S watch guard Q (p >>= f) n := by
  induction p generalizing n with
  | pure c => exact hf c n hp
  | throw e => exact hnone n hp
  | call op k ih => exact ⟨hnone n hp.1, fun s fate hg ↦ ih _ (hp.2 s fate hg)⟩

/-- The outcome instead of the value. -/
theorem Concludes.attempt {R : Option (Except ε α) → List O → Prop} {p : Prog Op ε α}
    (hp : Concludes S watch guard (fun res m ↦ R (res.map .ok) m) p n)
    (herror : ∀ e m, R none m → R (some (.error e)) m) :
    Concludes S watch guard R p.attempt n := by
  induction p generalizing n with
  | pure a => exact hp
  | throw e => exact herror e n hp
  | call op k ih => exact ⟨hp.1, fun s fate hg ↦ ih _ (hp.2 s fate hg)⟩

/-- What is concluded next to a server is concluded in a system of which it is a part. -/
theorem Concludes.lift {Op' : Type → Type} {τ : Type} {S' : Server Op' ε τ} (part : S.Part S')
    {watch' : Fate ε → ∀ β : Type, Op' β → τ → List O}
    {guard' : List O → ∀ β : Type, Op' β → τ → Prop}
    (hwatch : ∀ f β op s, watch' f β (part.request β op) s = watch f β op (part.get s))
    (hguard : ∀ n β op s, guard' n β (part.request β op) s → guard n β op (part.get s))
    {p : Prog Op ε α} (hp : Concludes S watch guard Q p n) :
    Concludes S' watch' guard' Q (p.lift part.request) n := by
  induction p generalizing n with
  | pure a => exact hp
  | throw e => exact hp
  | call op k ih =>
      refine ⟨hp.1, fun s f hg ↦ ?_⟩
      rw [part.reply, hwatch]
      exact ih _ (hp.2 (part.get s) f fun h ↦ hguard _ _ _ _ (hg h))

theorem Concludes.now {p : Prog Op ε α} (h : Concludes S watch guard Q p n) :
    ∃ res, (∀ P : α → Prop, Returned P p → ∃ a, res = some a ∧ P a) ∧ Q res n := by
  cases p with
  | pure a => exact ⟨some a, fun P hP ↦ ⟨a, rfl, hP⟩, h⟩
  | throw e => exact ⟨none, fun P hP ↦ hP.elim, h⟩
  | call op k => exact ⟨none, fun P hP ↦ hP.elim, h.1⟩

end Rules

/-! ## Notes and requests -/

/-- Every request of a call that has been noted as `n` satisfies `P` after the notes that have
been taken of the call by then. -/
def Heeds (S : Server Op ε σ) (watch : Fate ε → ∀ β : Type, Op β → σ → List O)
    (P : List O → ∀ β : Type, Op β → Prop) : Prog Op ε α → List O → Prop
  | .pure _, _ | .throw _, _ => True
  | .call (β := β) op k, n => P n β op ∧ ∀ s f,
      Heeds S watch P (k (S.reply f op s)) (n ++ watch f β op s)

section Rules

variable {S : Server Op ε σ} {watch : Fate ε → ∀ β : Type, Op β → σ → List O}
  {P : List O → ∀ β : Type, Op β → Prop} {n : List O}

/-- One awaited request. -/
theorem Heeds.await {op : Op β} {k : β → Prog Op ε α} (hP : P n β op)
    (hk : ∀ s b, (S.serve op s).1 = .ok b →
      Heeds S watch P (k b) (n ++ watch .served β op s)) :
    Heeds S watch P (.perform op >>= k) n := by
  refine ⟨hP, fun s f ↦ ?_⟩
  cases f with
  | refused e => trivial
  | unanswered e => trivial
  | served =>
      show Heeds S watch P (.ofExcept (S.serve op s).1 >>= k) _
      cases hr : (S.serve op s).1 with
      | error e => trivial
      | ok b => exact hk s b hr

/-- One awaited request whose error is handled. -/
theorem Heeds.handled {op : Op β} {h : ε → Prog Op ε β} {k : β → Prog Op ε α} (hP : P n β op)
    (hk : ∀ s b, (S.serve op s).1 = .ok b →
      Heeds S watch P (k b) (n ++ watch .served β op s))
    (hh : ∀ s f e, S.reply f op s = .error e →
      Heeds S watch P (h e >>= k) (n ++ watch f β op s)) :
    Heeds S watch P (Prog.tryCatch (.perform op) h >>= k) n := by
  refine ⟨hP, fun s f ↦ ?_⟩
  show Heeds S watch P (Prog.tryCatch (.ofExcept (S.reply f op s)) h >>= k) _
  cases hr : S.reply f op s with
  | error e => exact hh s f e hr
  | ok b =>
      obtain ⟨rfl, hserve⟩ := Server.served_of_reply_ok hr
      exact hk s b hserve

/-- One request whose outcome is a value. -/
theorem Heeds.attempt {op : Op β} {k : Except ε β → Prog Op ε α} (hP : P n β op)
    (hk : ∀ s f, Heeds S watch P (k (S.reply f op s)) (n ++ watch f β op s)) :
    Heeds S watch P ((.perform op : Prog Op ε β).attempt >>= k) n := by
  refine ⟨hP, fun s f ↦ ?_⟩
  have hkf := hk s f
  revert hkf
  cases S.reply f op s <;> exact id

/-- The outcome of a program instead of its value. -/
theorem Heeds.attempted {p : Prog Op ε α} (hp : Heeds S watch P p n) :
    Heeds S watch P p.attempt n := by
  induction p generalizing n with
  | pure a => trivial
  | throw e => trivial
  | call op k ih => exact ⟨hp.1, fun s f ↦ ih _ (hp.2 s f)⟩

theorem Heeds.of_only {p : Prog Op ε α} (h : Only (fun β op ↦ ∀ n, P n β op) p) :
    Heeds S watch P p n := by
  induction p generalizing n with
  | pure a => trivial
  | throw e => trivial
  | call op k ih =>
      rw [only_call] at h
      exact ⟨h.1 n, fun s f ↦ ih _ (h.2 _)⟩

/-- What follows heeds whatever has been noted by then. -/
theorem Heeds.bind {p : Prog Op ε γ} {f : γ → Prog Op ε α} (hp : Heeds S watch P p n)
    (hf : ∀ c n, Heeds S watch P (f c) n) : Heeds S watch P (p >>= f) n := by
  induction p generalizing n with
  | pure c => exact hf c n
  | throw e => trivial
  | call op k ih => exact ⟨hp.1, fun s f ↦ ih _ (hp.2 s f)⟩

/-- What follows heeds the notes that come with the values of the first part. -/
theorem Heeds.concluded {R : γ → List O → Prop} {p : Prog Op ε γ} {f : γ → Prog Op ε α}
    (hp : Heeds S watch P p n)
    (hR : Concludes S watch (fun _ _ _ _ ↦ True) (fun res m ↦ ∀ c, res = some c → R c m) p n)
    (hf : ∀ c m, R c m → Heeds S watch P (f c) m) : Heeds S watch P (p >>= f) n := by
  induction p generalizing n with
  | pure c => exact hf c n (hR c rfl)
  | throw e => trivial
  | call op k ih => exact ⟨hp.1, fun s fate ↦ ih _ (hp.2 s fate) (hR.2 s fate fun _ ↦ trivial)⟩

theorem Heeds.foldlM {f : γ → β → Prog Op ε γ} {l : List β}
    (hf : ∀ b ∈ l, ∀ c n, Heeds S watch P (f c b) n) (c : γ) :
    Heeds S watch P (l.foldlM f c) n := by
  induction l generalizing c n with
  | nil => trivial
  | cons b l ih =>
      exact (hf b List.mem_cons_self c n).bind fun c n ↦
        ih (fun b' hb' ↦ hf b' (List.mem_cons_of_mem b hb')) c

end Rules

/-! ## Runs -/

variable {ι η : Type} [DecidableEq ι] {S : Server Op ε σ} {env : η → σ → σ}
  {watch : Fate ε → ∀ β : Type, Op β → σ → List O}
  {guard : ι → List O → ∀ β : Type, Op β → σ → Prop} {Q : ι → List O → Prop}

/-- What holds of what is left of a call and of its notes, if every request keeps it whatever
state it meets. -/
theorem Pool.notes_invariant {Φ : ι → Prog Op ε α → List O → Prop} {c : Pool ι Op ε α σ}
    (hstart : ∀ i, Φ i (c.thread i) [])
    (hstep : ∀ i (β : Type) (op : Op β) k n s f, Φ i (.call op k) n →
      ((∀ e, f ≠ .refused e) → guard i n β op s) →
      Φ i (k (S.reply f op s)) (n ++ watch f β op s))
    {r : Recorded (Pool ι Op ε α σ) (ι × O)}
    (h : Reach (Recorded.step (Pool.step S env) (Pool.attend watch)) (Guarded guard) ⟨c, []⟩ r)
    (i : ι) : Φ i (r.state.thread i) (notesOf i r.log) := by
  revert i
  refine h.invariant (I := fun r : Recorded (Pool ι Op ε α σ) (ι × O) ↦
    ∀ j, Φ j (r.state.thread j) (notesOf j r.log)) hstart ?_
  intro r l r' hr hg hs j
  obtain ⟨hstate, hlog⟩ := Recorded.step_eq_some hs
  cases l with
  | env x =>
      rw [hlog, Pool.step_env hstate]
      simpa [Pool.attend] using hr j
  | run i' f =>
      obtain ⟨β, op, k, hi, hstate⟩ := Pool.step_run hstate
      have hattend : Pool.attend watch r.state (.run i' f : Event ι ε η) =
          (watch f β op r.state.shared).map (i', ·) := by
        simp only [Pool.attend, hi]
      rw [hlog, hattend, hstate]
      by_cases hj : j = i'
      · subst hj
        have hthread := hr j
        rw [hi] at hthread
        simp only [Guarded, hi, atRequest_call] at hg
        rw [notesOf_append_self, Pool.resume_thread_self]
        exact hstep j β op k _ _ f hthread hg
      · rw [notesOf_append_of_ne hj, Pool.resume_thread_of_ne _ hj]
        exact hr j

/-- What the calls keep by themselves, they keep in every interleaving. -/
theorem Tracks.reach {c : Pool ι Op ε α σ}
    (hstart : ∀ i, Tracks S watch (guard i) (Q i) (c.thread i) [])
    {r : Recorded (Pool ι Op ε α σ) (ι × O)}
    (h : Reach (Recorded.step (Pool.step S env) (Pool.attend watch)) (Guarded guard) ⟨c, []⟩ r)
    (i : ι) : Q i (notesOf i r.log) :=
  (Pool.notes_invariant hstart
    (fun _ _ _ _ _ s f hcall hg ↦ hcall.2 s f hg) h i).now

/-- What the calls note by themselves until they have returned, they note in every
interleaving. -/
theorem Concludes.reach {Q : ι → Option α → List O → Prop} {c : Pool ι Op ε α σ}
    (hstart : ∀ i, Concludes S watch (guard i) (Q i) (c.thread i) [])
    {r : Recorded (Pool ι Op ε α σ) (ι × O)}
    (h : Reach (Recorded.step (Pool.step S env) (Pool.attend watch)) (Guarded guard) ⟨c, []⟩ r)
    (i : ι) : Concludes S watch (guard i) (Q i) (r.state.thread i) (notesOf i r.log) :=
  Pool.notes_invariant hstart (fun _ _ _ _ _ s f hcall hg ↦ hcall.2 s f hg) h i

/-- A request that is made is guarded by a guard that allows everything. -/
theorem Pool.reach_guarded {c : Recorded (Pool ι Op ε α σ) (ι × O)}
    {guard' : Recorded (Pool ι Op ε α σ) (ι × O) → Event ι ε η → Prop}
    {r : Recorded (Pool ι Op ε α σ) (ι × O)}
    (h : Reach (Recorded.step (Pool.step S env) (Pool.attend watch)) guard' c r) :
    Reach (Recorded.step (Pool.step S env) (Pool.attend watch))
      (Guarded fun _ _ _ _ _ ↦ True) c r := by
  induction h with
  | start => exact .start
  | next l _ _ hs ih =>
      refine ih.next l ?_ hs
      cases l with
      | env x => trivial
      | run i f =>
          obtain ⟨β, op, k, hi, -⟩ := Pool.step_run (Recorded.step_eq_some hs).1
          intro _
          rw [hi]
          trivial

/-- The requests of a call heed its notes in every interleaving. -/
theorem Heeds.reach {P : ι → List O → ∀ β : Type, Op β → Prop} {c : Pool ι Op ε α σ}
    (hstart : ∀ i, Heeds S watch (P i) (c.thread i) [])
    {guard' : Recorded (Pool ι Op ε α σ) (ι × O) → Event ι ε η → Prop}
    {r : Recorded (Pool ι Op ε α σ) (ι × O)}
    (h : Reach (Recorded.step (Pool.step S env) (Pool.attend watch)) guard' ⟨c, []⟩ r) (i : ι) :
    Heeds S watch (P i) (r.state.thread i) (notesOf i r.log) :=
  Pool.notes_invariant hstart (fun _ _ _ _ _ s f hcall _ ↦ hcall.2 s f)
    (Pool.reach_guarded h) i

/-- An attended request, and what is noted of it. -/
theorem Pool.attended_run {i : ι} {f : Fate ε} {r r' : Recorded (Pool ι Op ε α σ) (ι × O)}
    (h : Recorded.step (Pool.step S env) (Pool.attend watch) r (.run i f) = some r') :
    ∃ (β : Type) (op : Op β) (k : Except ε β → Prog Op ε α), r.state.thread i = .call op k ∧
      r'.state = r.state.resume S i f op k ∧
      r'.log = r.log ++ (watch f β op r.state.shared).map (i, ·) := by
  obtain ⟨hstate, hlog⟩ := Recorded.step_eq_some h
  obtain ⟨β, op, k, hi, hstate⟩ := Pool.step_run hstate
  refine ⟨β, op, k, hi, hstate, ?_⟩
  rw [hlog]
  simp only [Pool.attend, hi]

theorem Pool.attended_env {x : η} {r r' : Recorded (Pool ι Op ε α σ) (ι × O)}
    (h : Recorded.step (Pool.step S env) (Pool.attend watch) r (.env x) = some r') :
    r'.state = ⟨env x r.state.shared, r.state.thread⟩ ∧ r'.log = r.log := by
  obtain ⟨hstate, hlog⟩ := Recorded.step_eq_some h
  exact ⟨Pool.step_env hstate, hlog.trans (List.append_nil _)⟩

/-- Where the last note of a call is. -/
theorem exists_of_getLast?_notesOf {i : ι} {log : List (ι × O)} {x : O}
    (h : (notesOf i log).getLast? = some x) :
    ∃ before after, log = before ++ (i, x) :: after ∧ ∀ y ∈ after, y.1 ≠ i := by
  induction log using List.reverseRecOn with
  | nil => cases h
  | append_singleton log y ih =>
      obtain ⟨j, y⟩ := y
      by_cases hj : j = i
      · subst hj
        rw [notesOf_concat_self, List.getLast?_concat, Option.some.injEq] at h
        exact ⟨log, [], by rw [h], fun _ hmem ↦ absurd hmem List.not_mem_nil⟩
      · rw [notesOf_concat_of_ne (Ne.symm hj)] at h
        obtain ⟨before, after, rfl, hafter⟩ := ih h
        refine ⟨before, after ++ [(j, y)], by simp, fun z hz ↦ ?_⟩
        rcases List.mem_append.mp hz with hz | hz
        · exact hafter z hz
        · exact List.mem_singleton.mp hz ▸ hj

/-- A request takes effect only if a guard allows it that sees the state and what has been noted
of everybody. -/
def Overseen (guard : ι → Recorded (Pool ι Op ε α σ) (ι × O) → ∀ β : Type, Op β → Prop)
    (r : Recorded (Pool ι Op ε α σ) (ι × O)) : Event ι ε η → Prop
  | .run i f => (∀ e, f ≠ .refused e) → AtRequest (guard i r) (r.state.thread i)
  | .env _ => True

instance (guard : ι → Recorded (Pool ι Op ε α σ) (ι × O) → ∀ β : Type, Op β → Prop)
    [∀ i r β op, Decidable (guard i r β op)] (r : Recorded (Pool ι Op ε α σ) (ι × O))
    (l : Event ι ε η) : Decidable (Overseen guard r l) :=
  match l with
  | .run _ (.refused e) => .isTrue fun h ↦ absurd rfl (h e)
  | .run i .served => decidable_of_iff (AtRequest (guard i r) (r.state.thread i))
      ⟨fun h _ ↦ h, fun h ↦ h fun _ h ↦ by cases h⟩
  | .run i (.unanswered _) => decidable_of_iff (AtRequest (guard i r) (r.state.thread i))
      ⟨fun h _ ↦ h, fun h ↦ h fun _ h ↦ by cases h⟩
  | .env _ => .isTrue trivial

/-! ## Each note at its time -/

section AtEach

variable {P : List O → O → Prop} {log new : List O}

/-- Every note satisfies `P` with what had been noted before it. -/
def AtEach (P : List O → O → Prop) (log : List O) : Prop :=
  ∀ before x after, log = before ++ x :: after → P before x

theorem atEach_append : AtEach P (log ++ new) ↔
    AtEach P log ∧ AtEach (fun before ↦ P (log ++ before)) new := by
  constructor
  · intro h
    refine ⟨fun before x after heq ↦ ?_, fun before x after heq ↦ ?_⟩
    · exact h before x (after ++ new) (by rw [heq, List.append_assoc, List.cons_append])
    · exact h (log ++ before) x after (by rw [heq, List.append_assoc])
  · rintro ⟨hlog, hnew⟩ before x after heq
    rcases List.append_eq_append_iff.mp heq with ⟨l, rfl, hl⟩ | ⟨l, rfl, hl⟩
    · exact hnew l x after hl
    · cases l with
      | nil => simpa using hnew [] x after hl.symm
      | cons y l =>
          obtain ⟨rfl, -⟩ := List.cons.inj hl
          exact hlog before x l rfl

theorem atEach_singleton {x : O} : AtEach P [x] ↔ P [] x := by
  constructor
  · intro h
    exact h [] x [] rfl
  · intro h before y after heq
    cases before with
    | nil => exact (List.cons.inj heq).1 ▸ h
    | cons z before => exact absurd (List.cons.inj heq).2 (by simp)

theorem AtEach.of_forall (h : ∀ x ∈ log, ∀ before, P before x) : AtEach P log := by
  rintro before x after rfl
  exact h x (by simp) before

end AtEach

/-! ## What has happened since -/

section Since

variable {p q : O → Bool} {log log' : List O}

/-- `p` has happened since `q` last did. -/
def happenedSince (p q : O → Bool) (log : List O) : Bool :=
  log.foldl (fun happened x ↦ if q x then false else happened || p x) false

theorem happenedSince_concat (p q : O → Bool) (log : List O) (x : O) :
    happenedSince p q (log ++ [x]) = if q x then false else happenedSince p q log || p x :=
  List.foldl_append ..

/-- What has not happened lately has happened before. -/
theorem happenedSince_append (hp : ∀ x ∈ log', p x = false)
    (h : happenedSince p q (log ++ log') = true) : happenedSince p q log = true := by
  induction log' using List.reverseRecOn with
  | nil => rwa [List.append_nil] at h
  | append_singleton log' x ih =>
      rw [← List.append_assoc, happenedSince_concat] at h
      have hx : p x = false := hp x (by simp)
      refine ih (fun y hy ↦ hp y (List.mem_append_left _ hy)) ?_
      split at h
      · cases h
      · rwa [hx, Bool.or_false] at h

/-- Since something that occurs more rarely, more has happened. -/
theorem happenedSince_mono {q' : O → Bool} (hq : ∀ x, q' x = true → q x = true)
    (h : happenedSince p q log = true) : happenedSince p q' log = true := by
  induction log using List.reverseRecOn with
  | nil => exact h
  | append_singleton log x ih =>
      rw [happenedSince_concat] at h ⊢
      split at h
      · cases h
      · rename_i hx
        rw [if_neg fun hx' ↦ hx (hq x hx')]
        rcases Bool.or_eq_true_iff.mp h with h | h
        · rw [ih h, Bool.true_or]
        · rw [h, Bool.or_true]

/-- After `q` and nothing of the kind, all that has happened since counts. -/
theorem happenedSince_of_mem {x : O} (hx : x ∈ log') (hp : p x = true)
    (hq : ∀ y ∈ log', q y = false) : happenedSince p q (log ++ log') = true := by
  induction log' using List.reverseRecOn with
  | nil => cases hx
  | append_singleton log' y ih =>
      rw [← List.append_assoc, happenedSince_concat, if_neg (by simp [hq y (by simp)])]
      rcases List.mem_append.mp hx with hx | hx
      · rw [ih hx fun z hz ↦ hq z (List.mem_append_left _ hz), Bool.true_or]
      · rw [List.mem_singleton.mp hx] at hp
        rw [hp, Bool.or_true]

end Since

end Concurrent
