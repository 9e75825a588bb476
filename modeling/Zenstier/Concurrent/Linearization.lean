import Zenstier.Concurrent.History
import Mathlib.Data.Fintype.Basic

/-!
# Linearization

Calls run at the same time over one shared state, and what matters of the state is a *view* of
it.  A call is `Pending` while it has not touched the view.  It may then change the view in a
single step, to what its *effect* makes of it, and does not touch it again; or it ends without
a change, and its effect is to leave any view alone.  The order in which the calls take effect
is a sequential history, and it explains the view (`Linearized`).

The effect of a call may depend on what the call has been told, so notes are taken of its
requests.  Between its steps a call relies on what the steps of the others grant.
-/

namespace Concurrent

open Prog

variable {Op : Type → Type} {ε α β σ O V : Type}

/-! ## Pending calls -/

section Pending

variable (S : Server Op ε σ) (rely : σ → σ → Prop) (view : σ → V)
  (watch : Fate ε → ∀ β : Type, Op β → σ → List O)

/-- The request does not touch the view. -/
def Keeps (β : Type) (op : Op β) : Prop := ∀ s f, view (S.after f op s) = view s

variable (guard : List O → ∀ β : Type, Op β → σ → Prop) (effect : List O → V → V → Prop)

/-- The call of which `n` has been noted, last seen in `s₀`, has its effect still to come. -/
def Pending : Prog Op ε α → List O → σ → Prop
  | .pure _, n, _ | .throw _, n, _ => ∀ v, effect n v v
  | .call (β := β) op k, n, s₀ => ∀ s f, rely s₀ s →
      ((∀ e, f ≠ .refused e) → guard n β op s) →
      (view (S.after f op s) = view s ∧
        Pending (k (S.reply f op s)) (n ++ watch f β op s) (S.after f op s)) ∨
      ((∀ m, effect (n ++ watch f β op s ++ m) (view s) (view (S.after f op s))) ∧
        Only (Keeps S view) (k (S.reply f op s)))

end Pending

section Rules

variable {S : Server Op ε σ} {rely : σ → σ → Prop} {view : σ → V}
  {watch : Fate ε → ∀ β : Type, Op β → σ → List O}
  {guard : List O → ∀ β : Type, Op β → σ → Prop} {effect : List O → V → V → Prop}

/-- What the others do does not concern a pending call. -/
theorem Pending.relied (htrans : ∀ s t u, rely s t → rely t u → rely s u) {p : Prog Op ε α}
    {n : List O} {s t : σ} (h : Pending S rely view watch guard effect p n s) (hst : rely s t) :
    Pending S rely view watch guard effect p n t := by
  cases p with
  | pure a => exact h
  | throw e => exact h
  | call op k => exact fun u f htu ↦ h u f (htrans s t u hst htu)

/-- A call that does not touch the view, and whose effect is none. -/
theorem Pending.of_only {p : Prog Op ε α} (hp : Only (Keeps S view) p)
    (hnone : ∀ n v, effect n v v) (n : List O) (s : σ) :
    Pending S rely view watch guard effect p n s := by
  induction p generalizing n s with
  | pure a => exact hnone n
  | throw e => exact hnone n
  | call op k ih =>
      rw [only_call] at hp
      intro t f _ _
      exact .inl ⟨hp.1 t f, ih _ (hp.2 _) _ _⟩

/-- An error that is handled by returning. -/
theorem Pending.tryCatch {p : Prog Op ε α} {h : ε → Prog Op ε α}
    (hh : ∀ e, ∃ a, h e = .pure a) {n : List O} {s : σ}
    (hp : Pending S rely view watch guard effect p n s) :
    Pending S rely view watch guard effect (p.tryCatch h) n s := by
  induction p generalizing n s with
  | pure a => exact hp
  | throw e =>
      obtain ⟨a, ha⟩ := hh e
      rw [tryCatch_throw, ha]
      exact hp
  | call op k ih =>
      intro t f ht hg
      rcases hp t f ht hg with ⟨hview, hk⟩ | ⟨heffect, hk⟩
      · exact .inl ⟨hview, ih _ hk⟩
      · refine .inr ⟨heffect, hk.tryCatch fun e ↦ ?_⟩
        obtain ⟨a, ha⟩ := hh e
        rw [ha]
        trivial

/-- An awaited request that does not touch the view: the call stays pending, or the answer
shows that its effect is none at this point. -/
theorem Pending.read {op : Op β} {k : β → Prog Op ε α} {n : List O} {s₀ : σ}
    (hop : Keeps S view β op)
    (hserved : ∀ s, rely s₀ s → ∃ b, (S.serve op s).1 = .ok b ∧
      (Pending S rely view watch guard effect (k b) (n ++ watch .served β op s) (S.serve op s).2 ∨
        (∀ m, effect (n ++ watch .served β op s ++ m) (view s) (view s)) ∧
          Only (Keeps S view) (k b)))
    (hfails : ∀ s f, f ≠ .served → ∀ v, effect (n ++ watch f β op s) v v) :
    Pending S rely view watch guard effect (.perform op >>= k) n s₀ := by
  intro s f hs _
  cases f with
  | served =>
      obtain ⟨b, hb, hk⟩ := hserved s hs
      have hview : view (S.after .served op s) = view s := hop s .served
      rw [Server.reply_served, hb, hview]
      exact hk.imp (fun h ↦ ⟨rfl, h⟩) fun h ↦ h
  | refused e => exact .inl ⟨hop s _, hfails s _ (fun h ↦ nomatch h)⟩
  | unanswered e => exact .inl ⟨hop s _, hfails s _ (fun h ↦ nomatch h)⟩

/-- An awaited request with which the call takes effect. -/
theorem Pending.write {op : Op β} {k : β → Prog Op ε α} {n : List O} {s₀ : σ}
    (heffect : ∀ s f, rely s₀ s → guard n β op s →
      ∀ m, effect (n ++ watch f β op s ++ m) (view s) (view (S.serve op s).2))
    (hrefused : ∀ s e v, effect (n ++ watch (.refused e) β op s) v v)
    (hk : ∀ b, Only (Keeps S view) (k b)) :
    Pending S rely view watch guard effect (.perform op >>= k) n s₀ := by
  intro s f hs hg
  cases f with
  | served =>
      refine .inr ⟨heffect s .served hs (hg fun e h ↦ nomatch h), ?_⟩
      exact Only.bind ((only_ofExcept _).mpr trivial) hk
  | refused e => exact .inl ⟨rfl, hrefused s e⟩
  | unanswered e => exact .inr ⟨heffect s (.unanswered e) hs (hg fun e h ↦ nomatch h), trivial⟩

end Rules

/-! ## Runs -/

section Runs

variable {ι η : Type} [DecidableEq ι]

/-- The notes taken of the requests of a pool, with the calls they are about. -/
def Pool.attend (watch : Fate ε → ∀ β : Type, Op β → σ → List O) (c : Pool ι Op ε α σ) :
    Event ι ε η → List (ι × O)
  | .run i f => match c.thread i with
      | .call (β := β) op _ => (watch f β op c.shared).map (i, ·)
      | .pure _ | .throw _ => []
  | .env _ => []

/-- What has been noted of a call. -/
def notesOf (i : ι) (log : List (ι × O)) : List O :=
  log.filterMap fun e ↦ if e.1 = i then some e.2 else none

@[simp] theorem notesOf_nil (i : ι) : notesOf i ([] : List (ι × O)) = [] := rfl

theorem mem_notesOf {i : ι} {log : List (ι × O)} {x : O} :
    x ∈ notesOf i log ↔ (i, x) ∈ log := by
  simp only [notesOf, List.mem_filterMap]
  constructor
  · rintro ⟨⟨j, y⟩, hmem, hy⟩
    split at hy
    · rename_i hj
      obtain rfl : j = i := hj
      obtain rfl := Option.some.inj hy
      exact hmem
    · cases hy
  · intro hmem
    exact ⟨_, hmem, if_pos rfl⟩

theorem notesOf_append_self (i : ι) (log : List (ι × O)) (n : List O) :
    notesOf i (log ++ n.map (i, ·)) = notesOf i log ++ n := by
  rw [notesOf, List.filterMap_append, List.filterMap_map]
  refine congrArg (_ ++ ·) ?_
  simp

theorem notesOf_append_of_ne {i j : ι} (h : j ≠ i) (log : List (ι × O)) (n : List O) :
    notesOf j (log ++ n.map (i, ·)) = notesOf j log := by
  rw [notesOf, List.filterMap_append, List.filterMap_map]
  simp [Ne.symm h, notesOf]

theorem notesOf_concat_self (i : ι) (log : List (ι × O)) (note : O) :
    notesOf i (log ++ [(i, note)]) = notesOf i log ++ [note] :=
  notesOf_append_self i log [note]

theorem notesOf_concat_of_ne {i j : ι} (h : j ≠ i) (log : List (ι × O)) (note : O) :
    notesOf j (log ++ [(i, note)]) = notesOf j log :=
  notesOf_append_of_ne h log [note]

/-- A request takes effect only if its guard allows it after what has been noted. -/
def Guarded (guard : ι → List O → ∀ β : Type, Op β → σ → Prop)
    (r : Recorded (Pool ι Op ε α σ) (ι × O)) : Event ι ε η → Prop
  | .run i f => (∀ e, f ≠ .refused e) →
      AtRequest (fun β op ↦ guard i (notesOf i r.log) β op r.state.shared) (r.state.thread i)
  | .env _ => True

instance (guard : ι → List O → ∀ β : Type, Op β → σ → Prop)
    [∀ i n β op s, Decidable (guard i n β op s)] (r : Recorded (Pool ι Op ε α σ) (ι × O))
    (l : Event ι ε η) : Decidable (Guarded guard r l) :=
  match l with
  | .run _ (.refused e) => .isTrue fun h ↦ absurd rfl (h e)
  | .run i .served => decidable_of_iff
      (AtRequest (fun β op ↦ guard i (notesOf i r.log) β op r.state.shared) (r.state.thread i))
      ⟨fun h _ ↦ h, fun h ↦ h fun _ h ↦ nomatch h⟩
  | .run i (.unanswered _) => decidable_of_iff
      (AtRequest (fun β op ↦ guard i (notesOf i r.log) β op r.state.shared) (r.state.thread i))
      ⟨fun h _ ↦ h, fun h ↦ h fun _ h ↦ nomatch h⟩
  | .env _ => .isTrue trivial

/-- The calls, one after the other, take the view from `v` to `w`. -/
inductive Sequential (effect : ι → V → V → Prop) (v : V) : List ι → V → Prop
  | start : Sequential effect v [] v
  | next {order : List ι} {w w' : V} (i : ι) (h : Sequential effect v order w)
      (hi : effect i w w') : Sequential effect v (order ++ [i]) w'

omit [DecidableEq ι] in
theorem Sequential.mono {effect effect' : ι → V → V → Prop}
    (h : ∀ i w w', effect i w w' → effect' i w w') {v w : V} {order : List ι}
    (hs : Sequential effect v order w) : Sequential effect' v order w := by
  induction hs with
  | start => exact .start
  | next i _ hi ih => exact ih.next i (h i _ _ hi)

omit [DecidableEq ι] in
/-- Calls without an effect may come last. -/
theorem Sequential.append {effect : ι → V → V → Prop} {v w : V} {order : List ι}
    (hs : Sequential effect v order w) {rest : List ι} (h : ∀ i ∈ rest, effect i w w) :
    Sequential effect v (order ++ rest) w := by
  induction rest generalizing order with
  | nil =>
      rw [List.append_nil]
      exact hs
  | cons i rest ih =>
      rw [List.append_cons]
      exact ih (hs.next i (h i List.mem_cons_self)) fun j hj ↦ h j (List.mem_cons_of_mem i hj)

variable {S : Server Op ε σ} {rely : σ → σ → Prop} {view : σ → V}
  {watch : Fate ε → ∀ β : Type, Op β → σ → List O}
  {guard : ι → List O → ∀ β : Type, Op β → σ → Prop} {effect : ι → List O → V → V → Prop}

variable (S rely view watch guard effect) in
/-- The calls of `order` have taken effect in this order, and the others have not. -/
structure Linearized (v : V) (order : List ι) (r : Recorded (Pool ι Op ε α σ) (ι × O)) :
    Prop where
  nodup : order.Nodup
  sequential : Sequential (fun i w w' ↦ ∀ m, effect i (notesOf i r.log ++ m) w w') v order
    (view r.state.shared)
  pending : ∀ i, i ∉ order → Pending S rely view watch (guard i) (effect i) (r.state.thread i)
    (notesOf i r.log) r.state.shared
  settled : ∀ i ∈ order, Only (Keeps S view) (r.state.thread i)

variable {env : η → σ → σ} {v : V} {order : List ι} {r r' : Recorded (Pool ι Op ε α σ) (ι × O)}

/-- A step of the run: the call that moves takes effect, or the order stays as it is. -/
theorem Linearized.step (hrefl : ∀ s, rely s s)
    (htrans : ∀ s t u, rely s t → rely t u → rely s u)
    (hgrant : ∀ (β : Type) (op : Op β) f s, rely s (S.after f op s))
    (henv : ∀ x s, rely s (env x s) ∧ view (env x s) = view s)
    (h : Linearized S rely view watch guard effect v order r) {l : Event ι ε η}
    (hg : Guarded guard r l)
    (hs : Recorded.step (Pool.step S env) (Pool.attend watch) r l = some r') :
    ∃ order', Linearized S rely view watch guard effect v order' r' := by
  obtain ⟨hstep, hlog⟩ := Recorded.step_eq_some hs
  cases l with
  | env x =>
      have hstate := Pool.step_env hstep
      rw [Pool.attend, List.append_nil] at hlog
      obtain ⟨state', log'⟩ := r'
      subst hlog hstate
      refine ⟨order, h.nodup, ?_, fun i hi ↦ ?_, h.settled⟩
      · rw [(henv x _).2]
        exact h.sequential
      · exact (h.pending i hi).relied htrans (henv x _).1
  | run i f =>
      obtain ⟨β, op, k, hi, hstate⟩ := Pool.step_run hstep
      simp only [Pool.attend, hi] at hlog
      obtain ⟨state', log'⟩ := r'
      dsimp only at hlog hstate
      subst hlog hstate
      have hself := notesOf_append_self i r.log (watch f β op r.state.shared)
      have hother : ∀ j, j ≠ i → notesOf j (r.log ++ (watch f β op r.state.shared).map (i, ·)) =
          notesOf j r.log := fun j hj ↦ notesOf_append_of_ne hj _ _
      -- more notes of a call that has taken effect do not matter
      have hsequential : Sequential (fun j w w' ↦ ∀ m,
          effect j (notesOf j (r.log ++ (watch f β op r.state.shared).map (i, ·)) ++ m) w w') v
          order (view r.state.shared) := by
        refine h.sequential.mono fun j w w' hj m ↦ ?_
        by_cases hji : j = i
        · subst hji
          rw [hself, List.append_assoc]
          exact hj _
        · rw [hother j hji]
          exact hj m
      have hpending : ∀ j, j ∉ order → j ≠ i → Pending S rely view watch (guard j) (effect j)
          ((r.state.resume S i f op k).thread j)
          (notesOf j (r.log ++ (watch f β op r.state.shared).map (i, ·)))
          (S.after f op r.state.shared) := by
        intro j hj hji
        rw [hother j hji, Pool.resume_thread_of_ne _ hji]
        exact (h.pending j hj).relied htrans (hgrant β op f _)
      by_cases hmem : i ∈ order
      · have hsettled := h.settled i hmem
        rw [hi, only_call] at hsettled
        refine ⟨order, h.nodup, ?_, fun j hj ↦ ?_, fun j hj ↦ ?_⟩
        · rw [Pool.resume_shared, hsettled.1]
          exact hsequential
        · exact hpending j hj fun heq ↦ hj (heq ▸ hmem)
        · by_cases hji : j = i
          · subst hji
            rw [Pool.resume_thread_self]
            exact hsettled.2 _
          · rw [Pool.resume_thread_of_ne _ hji]
            exact h.settled j hj
      · have hcall := h.pending i hmem
        rw [hi] at hcall
        have hguard : (∀ e, f ≠ .refused e) → guard i (notesOf i r.log) β op r.state.shared := by
          intro hf
          have := hg hf
          rwa [hi] at this
        rcases hcall _ f (hrefl _) hguard with ⟨hview, hk⟩ | ⟨heffect, hk⟩
        · refine ⟨order, h.nodup, ?_, fun j hj ↦ ?_, fun j hj ↦ ?_⟩
          · rw [Pool.resume_shared, hview]
            exact hsequential
          · by_cases hji : j = i
            · subst hji
              rw [Pool.resume_thread_self, hself]
              exact hk
            · exact hpending j hj hji
          · have hji : j ≠ i := fun heq ↦ hmem (heq ▸ hj)
            rw [Pool.resume_thread_of_ne _ hji]
            exact h.settled j hj
        · refine ⟨order ++ [i], ?_, ?_, fun j hj ↦ ?_, fun j hj ↦ ?_⟩
          · exact h.nodup.append (List.nodup_singleton i) (by simpa using hmem)
          · refine hsequential.next i fun m ↦ ?_
            rw [hself]
            exact heffect m
          · rw [List.mem_append, List.mem_singleton, not_or] at hj
            exact hpending j hj.1 hj.2
          · by_cases hji : j = i
            · subst hji
              rw [Pool.resume_thread_self]
              exact hk
            · rw [List.mem_append, List.mem_singleton] at hj
              rw [Pool.resume_thread_of_ne _ hji]
              exact h.settled j (hj.resolve_right hji)

/-- The program has ended. -/
def Ended : Prog Op ε α → Prop
  | .pure _ | .throw _ => True
  | .call .. => False

instance (p : Prog Op ε α) : Decidable (Ended p) :=
  match p with
  | .pure _ | .throw _ => .isTrue trivial
  | .call .. => .isFalse id

/-- Once all calls have ended, the view is what the calls make of it one after the other. -/
theorem linearizable [Fintype ι] (hrefl : ∀ s, rely s s)
    (htrans : ∀ s t u, rely s t → rely t u → rely s u)
    (hgrant : ∀ (β : Type) (op : Op β) f s, rely s (S.after f op s))
    (henv : ∀ x s, rely s (env x s) ∧ view (env x s) = view s) {c : Pool ι Op ε α σ}
    (hstart : ∀ i, Pending S rely view watch (guard i) (effect i) (c.thread i) [] c.shared)
    (h : Reach (Recorded.step (Pool.step S env) (Pool.attend watch)) (Guarded guard) ⟨c, []⟩ r)
    (hended : ∀ i, Ended (r.state.thread i)) :
    ∃ order : List ι, order.Nodup ∧ (∀ i, i ∈ order) ∧
      Sequential (fun i ↦ effect i (notesOf i r.log)) (view c.shared) order
        (view r.state.shared) := by
  obtain ⟨order, hr⟩ : ∃ order,
      Linearized S rely view watch guard effect (view c.shared) order r := by
    refine h.invariant (I := fun r ↦ ∃ order,
      Linearized S rely view watch guard effect (view c.shared) order r) ?_ ?_
    · refine ⟨[], List.nodup_nil, .start, fun i _ ↦ hstart i, ?_⟩
      exact fun i hi ↦ absurd hi List.not_mem_nil
    · rintro r l r' ⟨order, hr⟩ hg hs
      exact hr.step hrefl htrans hgrant henv hg hs
  -- whoever has not taken effect has ended without a change
  refine ⟨order ++ Finset.univ.toList.filter (· ∉ order), ?_, fun i ↦ ?_, ?_⟩
  · refine hr.nodup.append (Finset.univ.nodup_toList.filter _) fun i hi hrest ↦ ?_
    rw [List.mem_filter, decide_eq_true_eq] at hrest
    exact hrest.2 hi
  · by_cases hi : i ∈ order
    · exact List.mem_append_left _ hi
    · refine List.mem_append_right _ (List.mem_filter.mpr ⟨?_, decide_eq_true hi⟩)
      exact Finset.mem_toList.mpr (Finset.mem_univ i)
  · have hsequential := hr.sequential.mono fun i w w' hi ↦ by
      have := hi []
      rwa [List.append_nil] at this
    refine hsequential.append fun i hi ↦ ?_
    rw [List.mem_filter, decide_eq_true_eq] at hi
    have hpending := hr.pending i hi.2
    have hend := hended i
    cases hthread : r.state.thread i with
    | pure a =>
        rw [hthread] at hpending
        exact hpending _
    | throw e =>
        rw [hthread] at hpending
        exact hpending _
    | call op k =>
        rw [hthread] at hend
        exact hend.elim

end Runs

end Concurrent
