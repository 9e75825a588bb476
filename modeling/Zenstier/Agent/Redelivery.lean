import Zenstier.Agent.Settling
import Zenstier.Worker.Handlers

/-!
# Redelivered commands

A duplicate of a command that has been executed is answered with the result that the dedupe
cache holds.  But the cache is asked only after the expiry has been checked, so a duplicate
that comes late is answered with a rejection instead; and a rejection for overload is
published after the command has been taken out of the cache again, when another delivery may
already have brought it in anew.  The backend stores whatever result comes last.
-/

namespace Zenstier.Agent

open Store Concurrent Prog

/-! ## What is noted of a run -/

/-- What happens to the results of a command. -/
inductive Note
  /-- A result is published, while the cache has an entry of the command or not. -/
  | result (r : Result) (held : Bool)
  /-- The cache has no longer an entry of the command, or a new one. -/
  | forgotten
deriving DecidableEq

section Run

variable {ι : Type}

def watchResults (id : String) (_ : ι) : ∀ β : Type, AgentOp β → Dispatcher → List Note
  | _, .publish r, s =>
      if r.kind = .result ∧ r.id = id then [.result r (s.seen.entry id).isSome] else []
  | _, .add id', s =>
      if (s.seen.evict s.clock).entry id = none ∨ id' = id ∧ (s.seen.add s.clock id').1 then
        [.forgotten]
      else []
  | _, .remove id', _ => if id' = id then [.forgotten] else []
  | _, _, _ => []

/-- The state of the agent, with the results of a command. -/
abbrev ResultsRun (ι : Type) := Recorded (AgentPool ι) Note

/-- Once the result of executing the command is published, nothing else is, as long as the
cache has the entry of the command. -/
def Stable (log : List Note) : Prop :=
  ∀ a b r, log = a ++ .result r true :: b → Executed r → .forgotten ∉ b →
    ∀ r' held, .result r' held ∈ b → r' = r

/-! ### Splitting a log at its end -/

theorem snoc_eq_append_cons {l a b : List Note} {m n : Note} (h : l ++ [n] = a ++ m :: b) :
    (b = [] ∧ n = m) ∨ ∃ b', b = b' ++ [n] ∧ l = a ++ m :: b' := by
  rcases List.eq_nil_or_concat b with rfl | ⟨b', m', rfl⟩
  · exact .inl ⟨rfl, (List.append_inj' h rfl).2 |> List.cons.inj |>.1⟩
  · rw [List.concat_eq_append, ← List.cons_append, ← List.append_assoc] at h
    obtain ⟨hl, hn⟩ := List.append_inj' h rfl
    cases hn
    exact .inr ⟨b', List.concat_eq_append, hl⟩

/-- A new beginning. -/
theorem Stable.forget (log : List Note) : Stable (log ++ [.forgotten]) := by
  intro a b r h _ hkept
  rcases snoc_eq_append_cons h with ⟨-, h⟩ | ⟨b', rfl, -⟩
  · cases h
  · exact absurd (List.mem_append_right b' List.mem_cons_self) hkept

/-- A result that equals the one before. -/
theorem Stable.publish {log : List Note} (hlog : Stable log) {r' : Result} {held : Bool}
    (h : ∀ a b r, log = a ++ .result r true :: b → Executed r → .forgotten ∉ b → r' = r) :
    Stable (log ++ [.result r' held]) := by
  intro a b r hsplit hexecuted hkept r'' held' hmem
  rcases snoc_eq_append_cons hsplit with ⟨rfl, -⟩ | ⟨b', rfl, hb⟩
  · cases hmem
  · have hkept' : .forgotten ∉ b' := fun h ↦ hkept (List.mem_append_left _ h)
    rcases List.mem_append.mp hmem with hmem | hmem
    · exact hlog a b' r hb hexecuted hkept' r'' held' hmem
    · cases List.mem_singleton.mp hmem
      exact h a b' r hb hexecuted hkept'

/-! ## When the cache holds duplicates back -/

/-- How often the command is in the queue. -/
def Dispatcher.queued (s : Dispatcher) (id : String) : Nat := (s.queue.map (·.id)).count id

/-- The cache holds the result. -/
def Holds (s : Dispatcher) (id : String) (r : Result) : Prop :=
  ∃ e, s.seen.entry id = some e ∧ e.result = some r

/-- The request publishes a refusal of the command. -/
def Declines (id : String) : ∀ β : Type, AgentOp β → Prop
  | _, .publish r => r.kind = .result ∧ r.id = id ∧ ¬ Executed r
  | _, _ => False

/-- The command is queued or with a task, or its result is about to be published. -/
def Unsettled (c : AgentPool ι) (id : String) : Prop :=
  0 < c.shared.queued id ∨ ∃ i, Pends id (c.thread i) ∨ ∃ r, Reporting id r (c.thread i)

/-- No refusal of the command is published while the cache holds a result of it, and a delivery
that comes before the result is published finds the entry of the command, young enough. -/
def AnswersFromCache (id : String) (c : AgentPool ι) : Event ι Empty Nat → Prop
  | .run i _ =>
      (AtRequest (Declines id) (c.thread i) → ∀ r, ¬ Holds c.shared id r) ∧
      (AtRequest (Adds id) (c.thread i) → Unsettled c id →
        ∃ e, (c.shared.seen.evict c.shared.clock).entry id = some e ∧
          c.shared.clock - e.seen < c.shared.seen.ttl)
  | .env _ => True

/-! ## The invariant -/

/-- The results of a command that is executed at most once at a time. -/
structure Settled (id : String) (r : ResultsRun ι) : Prop where
  tasks : ∀ i, Always AnyReply (Settles id) (r.state.thread i)
  /-- The cache holds results under their ids. -/
  stored : ∀ id' r', Holds r.state.shared id' r' → r'.id = id'
  queue : r.state.shared.queued id ≤ 1
  apart : ∀ i, Pends id (r.state.thread i) → r.state.shared.queued id = 0
  single : ∀ i j, Pends id (r.state.thread i) → Pends id (r.state.thread j) → i = j
  /-- Before a result is stored, there is none to publish. -/
  fresh : 0 < r.state.shared.queued id ∨ (∃ i, Pends id (r.state.thread i)) →
    (∀ r', ¬ Holds r.state.shared id r') ∧ ∀ i r', ¬ Reporting id r' (r.state.thread i)
  /-- A result that is about to be published is the one the cache holds. -/
  reporting : ∀ i r', Reporting id r' (r.state.thread i) →
    ∀ e, r.state.shared.seen.entry id = some e → e.result = some r'
  /-- And so is one that has been published. -/
  noted : ∀ a b r', r.log = a ++ .result r' true :: b → Executed r' → .forgotten ∉ b →
    Holds r.state.shared id r'
  stable : Stable r.log

variable {id : String} {r d : ResultsRun ι}

/-- A step after which everything is as before, or the cache has forgotten something. -/
theorem Settled.calm (hr : Settled id r)
    (htasks : ∀ i, Always AnyReply (Settles id) (d.state.thread i))
    (hstored : ∀ id' r', Holds d.state.shared id' r' → Holds r.state.shared id' r')
    (hqueue : d.state.shared.queued id = r.state.shared.queued id)
    (hpends : ∀ j, Pends id (d.state.thread j) → Pends id (r.state.thread j))
    (hreports : ∀ j r', Reporting id r' (d.state.thread j) → Reporting id r' (r.state.thread j))
    (hentry : d.state.shared.seen.entry id = none ∧ d.log = r.log ++ [.forgotten] ∨
      d.state.shared.seen.entry id = r.state.shared.seen.entry id ∧ d.log = r.log) :
    Settled id d where
  tasks := htasks
  stored id' r' h := hr.stored id' r' (hstored id' r' h)
  queue := hqueue ▸ hr.queue
  apart j h := hqueue ▸ hr.apart j (hpends j h)
  single i j h h' := hr.single i j (hpends i h) (hpends j h')
  fresh h := by
    rw [hqueue] at h
    obtain ⟨hholds, hnone⟩ := hr.fresh (h.imp_right fun ⟨i, h⟩ ↦ ⟨i, hpends i h⟩)
    exact ⟨fun r' h ↦ hholds r' (hstored id r' h), fun i r' h ↦ hnone i r' (hreports i r' h)⟩
  reporting j r' h e he := by
    rcases hentry with ⟨hentry, -⟩ | ⟨hentry, -⟩
    · rw [hentry] at he
      cases he
    · rw [hentry] at he
      exact hr.reporting j r' (hreports j r' h) e he
  noted a b r' hsplit hexecuted hkept := by
    rcases hentry with ⟨-, hlog⟩ | ⟨hentry, hlog⟩
    · rw [hlog] at hsplit
      rcases snoc_eq_append_cons hsplit with ⟨-, h⟩ | ⟨b', rfl, -⟩
      · cases h
      · exact absurd (List.mem_append_right b' List.mem_cons_self) hkept
    · rw [hlog] at hsplit
      unfold Holds
      rw [hentry]
      exact hr.noted a b r' hsplit hexecuted hkept
  stable := by
    rcases hentry with ⟨-, hlog⟩ | ⟨-, hlog⟩
    · rw [hlog]
      exact .forget _
    · rw [hlog]
      exact hr.stable

/-- A step by which a command that has no result yet goes from one place to another. -/
theorem Settled.move (hr : Settled id r)
    (htasks : ∀ i, Always AnyReply (Settles id) (d.state.thread i))
    (hfresh : 0 < r.state.shared.queued id ∨ ∃ i, Pends id (r.state.thread i))
    (hseen : d.state.shared.seen = r.state.shared.seen) (hlog : d.log = r.log)
    (hqueue : d.state.shared.queued id ≤ 1)
    (hapart : ∀ i, Pends id (d.state.thread i) → d.state.shared.queued id = 0)
    (hsingle : ∀ i j, Pends id (d.state.thread i) → Pends id (d.state.thread j) → i = j)
    (hreports : ∀ j r', Reporting id r' (d.state.thread j) → Reporting id r' (r.state.thread j)) :
    Settled id d := by
  have hholds : ∀ id' r', Holds d.state.shared id' r' ↔ Holds r.state.shared id' r' := by
    intro id' r'
    rw [Holds, Holds, hseen]
  obtain ⟨hnone, hunreported⟩ := hr.fresh hfresh
  have hunreported' : ∀ j r', ¬ Reporting id r' (d.state.thread j) := fun j r' hj ↦
    hunreported j r' (hreports j r' hj)
  refine ⟨htasks, fun id' r' h ↦ hr.stored id' r' ((hholds id' r').mp h), hqueue, hapart, hsingle,
    fun _ ↦ ⟨fun r' h ↦ hnone r' ((hholds id r').mp h), hunreported'⟩,
    fun j r' hj ↦ absurd hj (hunreported' j r'), fun a b r' hsplit hexecuted hkept ↦ ?_,
    hlog ▸ hr.stable⟩
  exact (hholds id r').mpr (hr.noted a b r' (hlog ▸ hsplit) hexecuted hkept)

/-- The requests that leave the cache alone. -/
def LeavesCache : ∀ β : Type, AgentOp β → Prop
  | _, .add _ | _, .remove _ | _, .complete .. => False
  | _, _ => True

theorem serve_seen {β : Type} {op : AgentOp β} (h : LeavesCache β op) {s : Dispatcher} :
    (s.serve op).2.seen = s.seen := by
  cases op with
  | add => exact h.elim
  | remove => exact h.elim
  | complete => exact h.elim
  | enqueue cmd =>
      rw [Dispatcher.serve]
      split <;> rfl
  | dequeue =>
      rw [Dispatcher.serve]
      split <;> rfl
  | cancelRunning id =>
      rw [Dispatcher.serve]
      split <;> rfl
  | _ => rfl

/-! ### One request -/

/-- The task `i` makes the request `op`, and goes on with `k`. -/
structure Requests (id : String) (r d : ResultsRun ι) (i : ι) {β : Type} (op : AgentOp β)
    (k : Except Empty β → AgentM Unit) : Prop where
  thread : r.state.thread i = .call op k
  shared : d.state.shared = (r.state.shared.serve op).2
  self : d.state.thread i = k (.ok (r.state.shared.serve op).1)
  other : ∀ j, j ≠ i → d.state.thread j = r.state.thread j
  log : d.log = r.log ++ watchResults id i β op r.state.shared

section Request

variable {i : ι} {β : Type} {op : AgentOp β} {k : Except Empty β → AgentM Unit}

/-- What a task is at was there before, unless it is the task that moves. -/
theorem Requests.cases (h : Requests id r d i op k) {φ : AgentM Unit → Prop} {j : ι}
    (hj : φ (d.state.thread j)) :
    j = i ∧ φ (k (.ok (r.state.shared.serve op).1)) ∨ j ≠ i ∧ φ (r.state.thread j) := by
  by_cases hji : j = i
  · subst hji
    rw [h.self] at hj
    exact .inl ⟨rfl, hj⟩
  · rw [h.other j hji] at hj
    exact .inr ⟨hji, hj⟩

theorem Settled.discipline (hr : Settled id r) (h : Requests id r d i op k) :
    Settles id β op k ∧ ∀ j, Always AnyReply (Settles id) (d.state.thread j) := by
  have hthread := hr.tasks i
  rw [h.thread, always_call] at hthread
  refine ⟨hthread.1, fun j ↦ ?_⟩
  by_cases hj : j = i
  · subst hj
    rw [h.self]
    exact hthread.2 _ trivial
  · rw [h.other j hj]
    exact hr.tasks j

/-- A request that leaves the cache and the queue alone and is not about a result. -/
theorem Settled.neutral (hr : Settled id r) (h : Requests id r d i op k)
    (hseen : d.state.shared.seen = r.state.shared.seen)
    (hqueue : d.state.shared.queued id = r.state.shared.queued id) (hlog : d.log = r.log)
    (hpends : Pends id (k (.ok (r.state.shared.serve op).1)) → Pends id (r.state.thread i))
    (hreports : ∀ r', ¬ Reporting id r' (k (.ok (r.state.shared.serve op).1))) :
    Settled id d := by
  refine hr.calm (hr.discipline h).2 ?_ hqueue ?_ ?_ (.inr ⟨by rw [hseen], hlog⟩)
  · intro id' r' hholds
    unfold Holds at hholds ⊢
    rwa [hseen] at hholds
  · intro j hj
    rcases h.cases hj with ⟨rfl, hj⟩ | ⟨-, hj⟩
    · exact hpends hj
    · exact hj
  · intro j r' hj
    rcases h.cases hj with ⟨-, hj⟩ | ⟨-, hj⟩
    · exact absurd hj (hreports r')
    · exact hj

/-- Whatever a task has in hand after a request that takes nothing, it had before. -/
theorem Requests.pends (h : Requests id r d i op k) (hop : ¬ Takes β op)
    (hk : Pends id (k (.ok (r.state.shared.serve op).1))) : Pends id (r.state.thread i) := by
  rw [h.thread]
  exact (pends_call op k).mpr (.inr ⟨hop, _, hk⟩)

end Request

theorem Settled.add {i : ι} {id' : String} {k : Except Empty Bool → AgentM Unit}
    (hr : Settled id r) (h : Requests id r d i (.add id') k)
    (hg : AnswersFromCache id r.state (.run i .served)) : Settled id d := by
  obtain ⟨hdisc, htasks⟩ := hr.discipline h
  have hqueue : d.state.shared.queued id = r.state.shared.queued id := by rw [h.shared]; rfl
  have hseen : d.state.shared.seen = (r.state.shared.seen.add r.state.shared.clock id').2 := by
    rw [h.shared]
    rfl
  have hreports : ∀ j r', Reporting id r' (d.state.thread j) →
      Reporting id r' (r.state.thread j) := by
    intro j r' hj
    rcases h.cases hj with ⟨-, hj⟩ | ⟨-, hj⟩
    · exact absurd hj ((hdisc _).2 r')
    · exact hj
  have hstored : ∀ id'' r', Holds d.state.shared id'' r' → Holds r.state.shared id'' r' := by
    rintro id'' r' ⟨e, he, hresult⟩
    rw [hseen] at he
    exact ⟨e, Cache.entry_of_entry_add he hresult, hresult⟩
  have hlog := h.log
  rw [watchResults] at hlog
  by_cases hnew : id' = id ∧ (r.state.shared.seen.add r.state.shared.clock id').1 = true
  · -- the command is found new, so that nobody is left with it
    obtain ⟨rfl, hfirst⟩ := hnew
    rw [if_pos (.inr ⟨rfl, hfirst⟩)] at hlog
    obtain ⟨-, hexpired, hentry⟩ : (r.state.shared.seen.add r.state.shared.clock id').1 = true ∧
        (∀ e, (r.state.shared.seen.evict r.state.shared.clock).entry id' = some e →
          r.state.shared.seen.ttl ≤ r.state.shared.clock - e.seen) ∧
        d.state.shared.seen.entry id' = some ⟨r.state.shared.clock, none, true⟩ := by
      rcases Cache.add_cases r.state.shared.clock id' r.state.shared.seen with
        ⟨hold, -, -⟩ | ⟨hfirst, hexpired, hentry⟩
      · rw [hold] at hfirst
        cases hfirst
      · exact ⟨hfirst, hexpired, by rw [hseen, hentry, if_pos rfl]⟩
    have hsettled : ¬ Unsettled r.state id' := by
      intro hunsettled
      obtain ⟨e, he, hyoung⟩ := hg.2 (by rw [h.thread]; rfl) hunsettled
      have := hexpired e he
      omega
    have hnone : ∀ j, j ≠ i → ¬ Pends id' (d.state.thread j) := by
      intro j hj hpends
      rw [h.other j hj] at hpends
      exact hsettled (.inr ⟨j, .inl hpends⟩)
    have hreports' : ∀ j r', ¬ Reporting id' r' (d.state.thread j) := fun j r' hj ↦
      hsettled (.inr ⟨j, .inr ⟨r', hreports j r' hj⟩⟩)
    have hqueue' : d.state.shared.queued id' = 0 := by
      rw [hqueue]
      exact Nat.eq_zero_of_not_pos fun h ↦ hsettled (.inl h)
    refine ⟨htasks, fun id'' r' h ↦ hr.stored id'' r' (hstored id'' r' h), by omega,
      fun _ _ ↦ hqueue', fun j j' hj hj' ↦ ?_, fun _ ↦ ⟨?_, hreports'⟩,
      fun j r' hj ↦ absurd hj (hreports' j r'), ?_, ?_⟩
    · have hji : j = i := by_contra fun hne ↦ hnone j hne hj
      have hji' : j' = i := by_contra fun hne ↦ hnone j' hne hj'
      rw [hji, hji']
    · rintro r' ⟨e, he, hresult⟩
      rw [hentry] at he
      cases he
      cases hresult
    · intro a b r' hsplit _ hkept
      rw [hlog] at hsplit
      rcases snoc_eq_append_cons hsplit with ⟨-, h⟩ | ⟨b', rfl, -⟩
      · cases h
      · exact absurd (List.mem_append_right b' List.mem_cons_self) hkept
    · rw [hlog]
      exact .forget _
  · refine hr.calm htasks hstored hqueue (fun j hj ↦ ?_) hreports ?_
    · rcases h.cases hj with ⟨-, hj⟩ | ⟨-, hj⟩
      · obtain ⟨hfirst, rfl⟩ := (hdisc _).1 hj
        exact absurd ⟨rfl, hfirst⟩ hnew
      · exact hj
    · rw [hseen, Cache.entry_add_of_not_new hnew]
      cases he : (r.state.shared.seen.evict r.state.shared.clock).entry id with
      | none =>
          rw [if_pos (.inl he)] at hlog
          exact .inl ⟨rfl, hlog⟩
      | some e =>
          rw [if_neg (by simp [he, hnew]), List.append_nil] at hlog
          rcases Cache.entry_evict r.state.shared.seen r.state.shared.clock id with hevict | hevict
          · rw [hevict] at he
            cases he
          · exact .inr ⟨by rw [← hevict, he], hlog⟩

theorem Settled.dequeue {i : ι} {k : Except Empty (Option Command) → AgentM Unit}
    (hr : Settled id r) (h : Requests id r d i .dequeue k) : Settled id d := by
  obtain ⟨hdisc, htasks⟩ := hr.discipline h
  have hlog : d.log = r.log := h.log.trans (List.append_nil _)
  cases hq : r.state.shared.queue with
  | nil =>
      have hserve : r.state.shared.serve .dequeue = (none, r.state.shared) := by
        rw [Dispatcher.serve, hq]
      have hshared : d.state.shared = r.state.shared := by rw [h.shared, hserve]
      refine hr.neutral h (by rw [hshared]) (by rw [hshared]) hlog (fun hk ↦ ?_) (hdisc _).2
      obtain ⟨cmd, hcmd, -⟩ := (hdisc _).1 hk
      rw [hserve] at hcmd
      cases hcmd
  | cons cmd queue =>
      have hserve : r.state.shared.serve .dequeue = (some cmd, { r.state.shared with queue }) := by
        rw [Dispatcher.serve, hq]
      have hshared : d.state.shared = { r.state.shared with queue } := by rw [h.shared, hserve]
      have hqueue : r.state.shared.queued id =
          d.state.shared.queued id + if cmd.id = id then 1 else 0 := by
        simp only [Dispatcher.queued, hq, hshared, List.map_cons, List.count_cons, beq_iff_eq]
      have hseen : d.state.shared.seen = r.state.shared.seen := by rw [hshared]
      by_cases hcmd : cmd.id = id
      · -- the command goes from the queue to the task
        rw [if_pos hcmd] at hqueue
        have honce := hr.queue
        have hpends : ∀ j, Pends id (d.state.thread j) → j = i := by
          intro j hj
          rcases h.cases hj with ⟨rfl, -⟩ | ⟨-, hj⟩
          · rfl
          · have := hr.apart j hj
            omega
        refine hr.move htasks (.inl (by omega)) hseen hlog (by omega) (fun _ _ ↦ by omega)
          (fun j j' hj hj' ↦ (hpends j hj).trans (hpends j' hj').symm) fun j r' hj ↦ ?_
        rcases h.cases hj with ⟨-, hj⟩ | ⟨-, hj⟩
        · exact absurd hj ((hdisc _).2 r')
        · exact hj
      · rw [if_neg hcmd] at hqueue
        refine hr.neutral h hseen hqueue.symm hlog (fun hk ↦ ?_) (hdisc _).2
        obtain ⟨cmd', hcmd', rfl⟩ := (hdisc _).1 hk
        rw [hserve] at hcmd'
        cases hcmd'
        exact absurd rfl hcmd

theorem Settled.enqueue {i : ι} {cmd : Command} {k : Except Empty Bool → AgentM Unit}
    (hr : Settled id r) (h : Requests id r d i (.enqueue cmd) k) : Settled id d := by
  obtain ⟨hdisc, htasks⟩ := hr.discipline h
  have hlog : d.log = r.log := h.log.trans (List.append_nil _)
  by_cases hroom : r.state.shared.queue.length < r.state.shared.queueDepth
  · have hshared : d.state.shared =
        { r.state.shared with queue := r.state.shared.queue ++ [cmd] } := by
      rw [h.shared, Dispatcher.serve, if_pos hroom]
    have hqueue : d.state.shared.queued id =
        r.state.shared.queued id + if cmd.id = id then 1 else 0 := by
      simp only [Dispatcher.queued, hshared, List.map_append, List.count_append, List.map_cons,
        List.map_nil, List.count_cons, List.count_nil, beq_iff_eq, Nat.zero_add]
    have hseen : d.state.shared.seen = r.state.shared.seen := by rw [hshared]
    by_cases hcmd : cmd.id = id
    · -- the command goes from the task to the queue
      have hown : Pends id (r.state.thread i) := by
        rw [h.thread]
        exact .inl hcmd
      rw [if_pos hcmd] at hqueue
      have hapart := hr.apart i hown
      have hpends : ∀ j, ¬ Pends id (d.state.thread j) := by
        intro j hj
        rcases h.cases hj with ⟨-, hj⟩ | ⟨hne, hj⟩
        · exact (hdisc _).1 hj
        · exact hne (hr.single j i hj hown)
      refine hr.move htasks (.inr ⟨i, hown⟩) hseen hlog (by omega)
        (fun j hj ↦ absurd hj (hpends j)) (fun j _ hj ↦ absurd hj (hpends j)) fun j r' hj ↦ ?_
      rcases h.cases hj with ⟨-, hj⟩ | ⟨-, hj⟩
      · exact absurd hj ((hdisc _).2 r')
      · exact hj
    · rw [if_neg hcmd] at hqueue
      exact hr.neutral h hseen hqueue hlog (fun hk ↦ absurd hk (hdisc _).1) (hdisc _).2
  · have hshared : d.state.shared = r.state.shared := by
      rw [h.shared, Dispatcher.serve, if_neg hroom]
    exact hr.neutral h (by rw [hshared]) (by rw [hshared]) hlog
      (fun hk ↦ absurd hk (hdisc _).1) (hdisc _).2

theorem Settled.complete {i : ι} {id' : String} {x : Result} {k : Except Empty Unit → AgentM Unit}
    (hr : Settled id r) (h : Requests id r d i (.complete id' x) k) : Settled id d := by
  obtain ⟨⟨hid, -, hpends, hreport⟩, htasks⟩ := hr.discipline h
  have hlog : d.log = r.log := h.log.trans (List.append_nil _)
  have hqueue : d.state.shared.queued id = r.state.shared.queued id := by rw [h.shared]; rfl
  have hentry : ∀ id'', d.state.shared.seen.entry id'' = if id'' = id' then
      (r.state.shared.seen.entry id'').map fun e ↦ { e with result := some x, running := false }
      else r.state.shared.seen.entry id'' := by
    intro id''
    rw [h.shared]
    exact Cache.entry_complete x
  have hstored : ∀ id'' r', Holds d.state.shared id'' r' → r'.id = id'' := by
    rintro id'' r' ⟨e, he, hresult⟩
    rw [hentry] at he
    split at he
    · rename_i heq
      obtain ⟨e', -, rfl⟩ := Option.map_eq_some_iff.mp he
      cases hresult
      rw [hid, heq]
    · exact hr.stored id'' r' ⟨e, he, hresult⟩
  have hpends' : ∀ j, Pends id (d.state.thread j) → j ≠ i ∧ Pends id (r.state.thread j) := by
    intro j hj
    rcases h.cases hj with ⟨-, hj⟩ | hj
    · exact absurd hj hpends
    · exact hj
  by_cases hcmd : id' = id
  · -- the task has the command in hand, so that there was no result before
    subst hcmd
    have hown : Pends id' (r.state.thread i) := by
      rw [h.thread]
      exact .inl rfl
    obtain ⟨hnone, hunreported⟩ := hr.fresh (.inr ⟨i, hown⟩)
    have hnobody : ∀ j, ¬ Pends id' (d.state.thread j) := fun j hj ↦
      (hpends' j hj).1 (hr.single j i (hpends' j hj).2 hown)
    have hempty := hr.apart i hown
    refine ⟨htasks, hstored, by omega, fun j hj ↦ absurd hj (hnobody j),
      fun j _ hj ↦ absurd hj (hnobody j), ?_, fun j r' hj e he ↦ ?_,
      fun a b r' hsplit hexecuted hkept ↦ ?_, hlog ▸ hr.stable⟩
    · rintro (hpos | ⟨j, hj⟩)
      · omega
      · exact absurd hj (hnobody j)
    · rcases h.cases hj with ⟨-, hj⟩ | ⟨-, hj⟩
      · obtain rfl := hreport r' hj
        rw [hentry, if_pos rfl] at he
        obtain ⟨e', -, rfl⟩ := Option.map_eq_some_iff.mp he
        rfl
      · exact absurd hj (hunreported j r')
    · exact absurd (hr.noted a b r' (hlog ▸ hsplit) hexecuted hkept) (hnone r')
  · have hsame : d.state.shared.seen.entry id = r.state.shared.seen.entry id := by
      rw [hentry, if_neg (Ne.symm hcmd)]
    have hholds : ∀ r', Holds d.state.shared id r' ↔ Holds r.state.shared id r' := by
      intro r'
      rw [Holds, Holds, hsame]
    have hreports : ∀ j r', Reporting id r' (d.state.thread j) →
        Reporting id r' (r.state.thread j) := by
      intro j r' hj
      rcases h.cases hj with ⟨-, hj⟩ | ⟨-, hj⟩
      · obtain rfl := hreport r' hj
        refine absurd (hid.symm.trans ?_) hcmd
        exact (reporting_id hj).1
      · exact hj
    refine ⟨htasks, hstored, hqueue ▸ hr.queue, fun j hj ↦ hqueue ▸ hr.apart j (hpends' j hj).2,
      fun j j' hj hj' ↦ hr.single j j' (hpends' j hj).2 (hpends' j' hj').2, fun hplace ↦ ?_,
      fun j r' hj e he ↦ hr.reporting j r' (hreports j r' hj) e (hsame ▸ he),
      fun a b r' hsplit hexecuted hkept ↦ ?_, hlog ▸ hr.stable⟩
    · rw [hqueue] at hplace
      obtain ⟨hnone, hunreported⟩ := hr.fresh (hplace.imp_right fun ⟨j, hj⟩ ↦ ⟨j, (hpends' j hj).2⟩)
      exact ⟨fun r' hholds' ↦ hnone r' ((hholds r').mp hholds'),
        fun j r' hj ↦ hunreported j r' (hreports j r' hj)⟩
    · exact (hholds r').mpr (hr.noted a b r' (hlog ▸ hsplit) hexecuted hkept)

theorem Settled.remove {i : ι} {id' : String} {k : Except Empty Unit → AgentM Unit}
    (hr : Settled id r) (h : Requests id r d i (.remove id') k) : Settled id d := by
  obtain ⟨hdisc, htasks⟩ := hr.discipline h
  have hentry : ∀ id'', d.state.shared.seen.entry id'' =
      if id'' = id' then none else r.state.shared.seen.entry id'' := by
    intro id''
    rw [h.shared]
    exact Cache.entry_remove
  have hlog := h.log
  refine hr.calm htasks ?_ (by rw [h.shared]; rfl) (fun j hj ↦ ?_) (fun j r' hj ↦ ?_) ?_
  · rintro id'' r' ⟨e, he, hresult⟩
    rw [hentry] at he
    split at he
    · cases he
    · exact ⟨e, he, hresult⟩
  · rcases h.cases hj with ⟨rfl, hj⟩ | ⟨-, hj⟩
    · exact h.pends (fun h ↦ h) hj
    · exact hj
  · rcases h.cases hj with ⟨-, hj⟩ | ⟨-, hj⟩
    · exact absurd hj (hdisc _ r')
    · exact hj
  · rw [watchResults] at hlog
    rw [hentry]
    by_cases hid : id' = id
    · rw [if_pos hid] at hlog
      exact .inl ⟨if_pos hid.symm, hlog⟩
    · rw [if_neg hid, List.append_nil] at hlog
      exact .inr ⟨if_neg (Ne.symm hid), hlog⟩

theorem Settled.cachedResult {i : ι} {id' : String}
    {k : Except Empty (Option (Option Result × Bool)) → AgentM Unit}
    (hr : Settled id r) (h : Requests id r d i (.cachedResult id') k) : Settled id d := by
  obtain ⟨hdisc, htasks⟩ := hr.discipline h
  have hlog : d.log = r.log := h.log.trans (List.append_nil _)
  have hshared : d.state.shared = r.state.shared := h.shared
  have hpends : ∀ j, Pends id (d.state.thread j) → Pends id (r.state.thread j) := by
    intro j hj
    rcases h.cases hj with ⟨rfl, hj⟩ | ⟨-, hj⟩
    · exact h.pends (fun h ↦ h) hj
    · exact hj
  -- what the task reports is what the cache holds
  have hreports : ∀ j r', Reporting id r' (d.state.thread j) →
      Reporting id r' (r.state.thread j) ∨ Holds r.state.shared id r' := by
    intro j r' hj
    rcases h.cases hj with ⟨-, hj⟩ | ⟨-, hj⟩
    · right
      obtain ⟨e, he, heq⟩ := Option.map_eq_some_iff.mp (hdisc _ r' hj)
      have hholds : Holds r.state.shared id' r' := ⟨e, he, congrArg Prod.fst heq⟩
      rwa [← hr.stored id' r' hholds, (reporting_id hj).1] at hholds
    · exact .inl hj
  refine ⟨htasks, ?_, ?_, ?_, ?_, ?_, ?_, ?_, hlog ▸ hr.stable⟩
  · rw [hshared]
    exact hr.stored
  · rw [hshared]
    exact hr.queue
  · rw [hshared]
    exact fun j hj ↦ hr.apart j (hpends j hj)
  · exact fun j j' hj hj' ↦ hr.single j j' (hpends j hj) (hpends j' hj')
  · rw [hshared]
    intro hplace
    obtain ⟨hnone, hunreported⟩ := hr.fresh (hplace.imp_right fun ⟨j, hj⟩ ↦ ⟨j, hpends j hj⟩)
    refine ⟨hnone, fun j r' hj ↦ ?_⟩
    rcases hreports j r' hj with hj | hholds
    · exact hunreported j r' hj
    · exact hnone r' hholds
  · rw [hshared]
    intro j r' hj e he
    rcases hreports j r' hj with hj | ⟨e', he', hresult⟩
    · exact hr.reporting j r' hj e he
    · rw [he] at he'
      cases he'
      exact hresult
  · rw [hshared, hlog]
    exact hr.noted

theorem Settled.publish {i : ι} {x : Result} {k : Except Empty Unit → AgentM Unit}
    (hr : Settled id r) (h : Requests id r d i (.publish x) k)
    (hg : AnswersFromCache id r.state (.run i .served)) : Settled id d := by
  obtain ⟨hdisc, htasks⟩ := hr.discipline h
  have hshared : d.state.shared = r.state.shared := h.shared
  have hpends := h.pends (fun h ↦ h)
  have hlog := h.log
  rw [watchResults] at hlog
  by_cases hx : x.kind = .result ∧ x.id = id
  · rw [if_pos hx] at hlog
    have hreporting : Executed x → Reporting id x (r.state.thread i) := by
      intro hexecuted
      rw [h.thread]
      exact ⟨rfl, hx.1, hx.2, hexecuted⟩
    -- the published result is the one the cache holds
    have hequal : ∀ r', Holds r.state.shared id r' → x = r' := by
      rintro r' ⟨e, he, hresult⟩
      by_cases hexecuted : Executed x
      · have := hr.reporting i x (hreporting hexecuted) e he
        rw [hresult] at this
        exact (Option.some.inj this).symm
      · refine absurd ⟨e, he, hresult⟩ (hg.1 ?_ r')
        rw [h.thread]
        exact ⟨hx.1, hx.2, hexecuted⟩
    have hbefore : Settled id (⟨d.state, r.log⟩ : ResultsRun ι) := by
      refine hr.calm htasks ?_ (by rw [hshared]) (fun j hj ↦ ?_) (fun j r' hj ↦ ?_)
        (.inr ⟨by rw [hshared], rfl⟩)
      · rw [hshared]
        exact fun _ _ h ↦ h
      · rcases h.cases hj with ⟨rfl, hj⟩ | ⟨-, hj⟩
        · exact hpends hj
        · exact hj
      · rcases h.cases hj with ⟨-, hj⟩ | ⟨-, hj⟩
        · exact absurd hj (hdisc _ r')
        · exact hj
    refine { hbefore with noted := fun a b r' hsplit hexecuted hkept ↦ ?_, stable := ?_ }
    · rw [hlog] at hsplit
      rcases snoc_eq_append_cons hsplit with ⟨-, hnote⟩ | ⟨b', rfl, hb⟩
      · simp only [Note.result.injEq] at hnote
        obtain ⟨rfl, hheld⟩ := hnote
        obtain ⟨e, he⟩ := Option.isSome_iff_exists.mp hheld
        rw [hshared]
        exact ⟨e, he, hr.reporting i x (hreporting hexecuted) e he⟩
      · exact hbefore.noted a b' r' hb hexecuted fun h ↦ hkept (List.mem_append_left _ h)
    · rw [hlog]
      refine hr.stable.publish fun a b r' hsplit hexecuted hkept ↦ ?_
      exact hequal r' (hr.noted a b r' hsplit hexecuted hkept)
  · rw [if_neg hx, List.append_nil] at hlog
    exact hr.neutral h (by rw [hshared]) (by rw [hshared]) hlog hpends (hdisc _)

variable [DecidableEq ι]

theorem Settled.run {i : ι} {f : Fate Empty} (hr : Settled id r)
    (hg : AnswersFromCache id r.state (.run i f))
    (hs : Recorded.step agentStep (Pool.observe (watchResults id)) r (.run i f) = some d) :
    Settled id d := by
  obtain ⟨β, op, k, hi, hshared, hself, hother, hlog⟩ := agentStep_recorded hs
  have h : Requests id r d i op k := ⟨hi, hshared, hself, hother, hlog⟩
  cases op with
  | add id' => exact hr.add h hg
  | dequeue => exact hr.dequeue h
  | enqueue cmd => exact hr.enqueue h
  | complete id' x => exact hr.complete h
  | remove id' => exact hr.remove h
  | cachedResult id' => exact hr.cachedResult h
  | publish x => exact hr.publish h hg
  | deleteRunning id' =>
      refine hr.neutral h ?_ ?_ (h.log.trans (List.append_nil _)) (h.pends fun h ↦ h)
        ((hr.discipline h).1 _)
      · rw [hshared]
        rfl
      · rw [hshared]
        rfl
  | _ =>
      refine hr.neutral h ?_ ?_ (h.log.trans (List.append_nil _)) (h.pends fun h ↦ h)
        ((hr.discipline h).1 _)
      · rw [hshared]
        refine serve_seen ?_
        trivial
      · rw [hshared]
        refine congrArg (fun q ↦ (q.map (·.id)).count id) (serve_queue ?_)
        trivial

theorem Settled.step (hr : Settled id r) {l : Event ι Empty Nat}
    (hg : AnswersFromCache id r.state l)
    (hs : Recorded.step agentStep (Pool.observe (watchResults id)) r l = some d) :
    Settled id d := by
  cases l with
  | run i f => exact hr.run hg hs
  | env ms =>
      obtain rfl := Pool.recorded_env hs
      exact hr.calm hr.tasks (fun _ _ h ↦ h) rfl (fun _ h ↦ h) (fun _ _ h ↦ h) (.inr ⟨rfl, rfl⟩)

end Run

/-! ### Commands that are not queued -/

section Control

variable {ι : Type} {id deviceID : String}

theorem run_only_of_not_adds (cmd : Command) :
    Only (fun β op ↦ ¬ Adds id β op) (run deviceID cmd) := by
  refine Only.await (fun h ↦ h) fun ctx ↦ Only.bind ?_ fun _ ↦ (only_perform _).mpr fun h ↦ h
  exact runJob_only (fun h ↦ h) (fun _ _ h ↦ h) (fun _ h ↦ h) (fun _ _ h ↦ h) (fun _ h ↦ h) ctx

/-- Only a command that goes through the queue gets an entry. -/
theorem program_not_adds (cfg : Config) (task : Task)
    (hcontrol : ∀ msg, task = .message (some msg) →
      (msg.normalize cfg.sha1 cfg.deviceID).id = id →
      ¬ (msg.normalize cfg.sha1 cfg.deviceID).Queued) :
    Only (fun β op ↦ ¬ Adds id β op) (task.program cfg) := by
  cases task with
  | worker turns =>
      show Only _ (worker cfg.deviceID turns)
      induction turns with
      | zero => trivial
      | succ turns ih =>
          refine Only.await (fun h ↦ h) fun job ↦ ?_
          cases job with
          | none => exact ih fun _ h ↦ nomatch h
          | some cmd => exact (run_only_of_not_adds cmd).bind fun _ ↦ ih fun _ h ↦ nomatch h
  | message payload =>
      cases payload with
      | none => trivial
      | some msg =>
          have hcontrol := hcontrol msg rfl
          dsimp only [Task.program, handleMessage]
          generalize msg.normalize cfg.sha1 cfg.deviceID = cmd at hcontrol ⊢
          split
          · exact reject_only (fun _ h ↦ h) ..
          refine (expired_only (fun h ↦ h) cmd).bind fun late ↦ ?_
          split
          · exact reject_only (fun _ h ↦ h) ..
          unfold handleLive
          split
          · exact (only_perform _).mpr fun h ↦ h
          split
          · exact handleUpdateGroups_only (fun _ h ↦ h) (fun _ _ h ↦ h) (fun _ h ↦ h) cmd
          rename_i hcancel hgroups
          refine Only.await (fun hid ↦ hcontrol hid ⟨hcancel, hgroups⟩) fun first ↦ ?_
          split
          · exact Only.await (fun h ↦ h) fun _ ↦ queued_only (fun _ h ↦ h) (fun _ h ↦ h) ..
          · exact replay_only (fun _ h ↦ h) (fun _ h ↦ h) cmd

/-- The cache never has an entry of the command. -/
structure Unknown (id : String) (r : ResultsRun ι) : Prop where
  tasks : ∀ i, Only (fun β op ↦ ¬ Adds id β op) (r.state.thread i)
  entry : r.state.shared.seen.entry id = none
  log : ∀ r', .result r' true ∉ r.log

theorem Unknown.step [DecidableEq ι] {r d : ResultsRun ι} (hr : Unknown id r)
    {l : Event ι Empty Nat}
    (hs : Recorded.step agentStep (Pool.observe (watchResults id)) r l = some d) :
    Unknown id d := by
  cases l with
  | env ms =>
      obtain rfl := Pool.recorded_env hs
      exact ⟨hr.tasks, hr.entry, hr.log⟩
  | run i f =>
      obtain ⟨β, op, k, hi, hshared, hself, hother, hlog⟩ := agentStep_recorded hs
      have hthread := hr.tasks i
      rw [hi, only_call] at hthread
      refine ⟨fun j ↦ ?_, ?_, fun r' hmem ↦ ?_⟩
      · by_cases hj : j = i
        · subst hj
          rw [hself]
          exact hthread.2 _
        · rw [hother j hj]
          exact hr.tasks j
      · rw [hshared]
        cases op with
        | add id' =>
            have hentry : (r.state.shared.seen.add r.state.shared.clock id').2.entry id =
                (r.state.shared.seen.evict r.state.shared.clock).entry id :=
              Cache.entry_add_of_not_new fun h ↦ hthread.1 h.1
            rcases Cache.entry_evict r.state.shared.seen r.state.shared.clock id with h | h
            · exact hentry.trans h
            · exact hentry.trans (h.trans hr.entry)
        | remove id' =>
            refine (Cache.entry_remove (c := r.state.shared.seen)).trans ?_
            rw [hr.entry, ite_self]
        | complete id' x =>
            refine (Cache.entry_complete (c := r.state.shared.seen) x).trans ?_
            rw [hr.entry, Option.map_none, ite_self]
        | _ =>
            refine Eq.trans (congrArg (·.entry id) (serve_seen ?_)) hr.entry
            trivial
      · rw [hlog] at hmem
        rcases List.mem_append.mp hmem with hmem | hmem
        · exact hr.log r' hmem
        · cases op with
          | publish x =>
              rw [watchResults, hr.entry] at hmem
              split at hmem
              · cases List.mem_singleton.mp hmem
              · cases hmem
          | add id' =>
              rw [watchResults] at hmem
              split at hmem
              · cases List.mem_singleton.mp hmem
              · cases hmem
          | remove id' =>
              rw [watchResults] at hmem
              split at hmem
              · cases List.mem_singleton.mp hmem
              · cases hmem
          | _ => cases hmem

end Control

/-! ## What the backend makes of it -/

/-- The row of the command shows the status, the exit code and the output of the result. -/
def Shows (s : Fleet) (id : String) (r : Result) : Prop :=
  ∃ c, s.commands.find? id = some c ∧ c.status = mapStatus r.status ∧ c.exitCode = r.exitCode ∧
    c.stdout = omitEmpty r.stdout ∧ c.stderr = omitEmpty r.stderr

/-- The request leaves the row of the command as it shows the result. -/
def KeepsShown (id : String) (r : Result) (β : Type) (op : CommandOp β) : Prop :=
  ∀ (s : Fleet) (f : Fate Err), Shows s id r → Shows (commandServer.after f op s) id r

theorem KeepsShown.of_serve {id : String} {r : Result} {β : Type} {op : CommandOp β}
    (h : ∀ s : Fleet, Shows s id r → Shows (s.serve op).2 id r) : KeepsShown id r β op := by
  intro s f hs
  cases f with
  | served => exact h s hs
  | refused e => exact hs
  | unanswered e => exact h s hs

/-- A status that an agent reports is neither of those that a command starts with. -/
theorem mapStatus_ne (status : Option ResultStatus) :
    mapStatus status ≠ .pending ∧ mapStatus status ≠ .dispatched := by
  rcases status with _ | (_ | _ | _ | _ | _ | _ | _) <;> exact ⟨nofun, nofun⟩

section Server

variable {id : String} {r : Result}

/-- A command that is past its start is not marked as running. -/
theorem markRunning_keepsShown (id' : String) (startedAt : Int) :
    KeepsShown id r Unit (.markRunning id' startedAt) := by
  refine .of_serve fun s hs ↦ ?_
  obtain ⟨c, hc, hstatus, hrest⟩ := hs
  obtain ⟨hpending, hdispatched⟩ := mapStatus_ne r.status
  refine ⟨c, ?_, hstatus, hrest⟩
  simp [Fleet.serve, hc, hstatus, hpending, hdispatched]

/-- Storing the same result again. -/
theorem storeResult_keepsShown {payload : ResultPayload} (h : payload.id = id → payload = r.payload)
    (finishedAt : Int) :
    KeepsShown id r Unit (.storeResult payload.id (storedResult payload finishedAt)) := by
  refine .of_serve fun s hs ↦ ?_
  obtain ⟨c, hc, hrow⟩ := hs
  rw [Fleet.serve, Fleet.updateCommand]
  split
  · exact ⟨c, hc, hrow⟩
  by_cases hid : id = payload.id
  · refine ⟨(storedResult payload finishedAt).apply c, ?_, ?_⟩
    · rw [Fleet.commit_ok, Table.find?_update, if_pos hid, hc]
      rfl
    · rw [h hid.symm]
      exact ⟨rfl, rfl, rfl, rfl⟩
  · exact ⟨c, by simp [hid, hc], hrow⟩

theorem handleResult_keepsShown (deviceId : String) {payload : ResultPayload}
    (h : payload.kind = .result → payload.id = id → payload = r.payload) :
    Only (KeepsShown id r) (handleResult deviceId (some payload)) := by
  have hread : ∀ {β : Type} {op : CommandOp β},
      (∀ s : Fleet, (s.serve op).2.commands = s.commands) → KeepsShown id r β op := by
    intro β op hop
    refine .of_serve fun s ⟨c, hc, hrow⟩ ↦ ⟨c, ?_, hrow⟩
    rw [hop, hc]
  have hnow : KeepsShown id r Int .now := hread fun _ ↦ rfl
  have hemit : ∀ channel event, KeepsShown id r Unit (.emit channel event) :=
    fun _ _ ↦ hread fun _ ↦ rfl
  refine Only.await (hread fun _ ↦ rfl) fun found ↦ ?_
  rcases found with _ | ⟨rowId, owner⟩
  · trivial
  dsimp only
  split
  · trivial
  unfold handleKind
  cases hkind : payload.kind with
  | accepted =>
      dsimp only [handleAccepted]
      split
      · exact (only_perform _).mpr (hemit _ _)
      · refine Only.await hnow fun startedAt ↦ ?_
        exact Only.await (markRunning_keepsShown _ _) fun _ ↦ (only_perform _).mpr (hemit _ _)
  | chunk =>
      have hcreate : ∀ seq row, KeepsShown id r Unit (.createOutput payload.id seq row) := by
        refine fun seq row ↦ hread fun s ↦ ?_
        rw [Fleet.serve, Fleet.createOutput]
        split
        · rfl
        · split <;> rfl
      refine Only.bind ?_ fun _ ↦ (only_perform _).mpr (hemit _ _)
      rw [storeChunk, tryCatch_def, perform, tryCatch_call, only_call]
      refine ⟨hcreate _ _, ?_⟩
      rintro (e | _)
      · rw [ofExcept_error, tryCatch_throw]
        split <;> trivial
      · trivial
  | result =>
      refine Only.bind ?_ fun finishedAt ↦ ?_
      · cases payload.finishedAt with
        | some t => trivial
        | none => exact (only_perform _).mpr hnow
      · exact Only.await (storeResult_keepsShown (h hkind) finishedAt) fun _ ↦
          (only_perform _).mpr (hemit _ _)

end Server

/-! ## Redelivery -/

/-- Every delivery under the id of the command is a duplicate of it. -/
def Duplicates {ι : Type} (cfg : Config) (tasks : ι → Task) (msg : Command) : Prop :=
  ∀ i m, tasks i = .message (some m) →
    (m.normalize cfg.sha1 cfg.deviceID).id = (msg.normalize cfg.sha1 cfg.deviceID).id → m = msg

theorem Settled.start {ι : Type} (cfg : Config) (tasks : ι → Task) (clock : Int)
    (outcome : Nat → Outcome) (onUpdateGroups : List String → GroupUpdate) {id : String}
    (hqueued : ∀ i msg, tasks i = .message (some msg) →
      (msg.normalize cfg.sha1 cfg.deviceID).id = id →
      (msg.normalize cfg.sha1 cfg.deviceID).Queued) :
    Settled id ⟨start cfg tasks clock outcome onUpdateGroups, []⟩ where
  tasks i := (program_settles cfg (tasks i) (hqueued i)).1
  stored id' r' h := by
    obtain ⟨e, he, -⟩ := h
    cases he
  queue := Nat.zero_le 1
  apart _ _ := rfl
  single i _ h := absurd h (program_settles cfg (tasks i) (hqueued i)).2.1
  fresh h := by
    rcases h with h | ⟨i, h⟩
    · cases h
    · exact absurd h (program_settles cfg (tasks i) (hqueued i)).2.1
  reporting i r' h := absurd h ((program_settles cfg (tasks i) (hqueued i)).2.2 r')
  noted a b r' h := by simp at h
  stable a b r' h := by simp at h

/-- As long as duplicates are answered from the cache, whatever is published after the result of
executing a command equals it, and the backend keeps showing it. -/
theorem redelivery_stable {ι : Type} [DecidableEq ι] (cfg : Config) (tasks : ι → Task)
    (clock : Int) (outcome : Nat → Outcome) (onUpdateGroups : List String → GroupUpdate)
    (msg : Command) (hdup : Duplicates cfg tasks msg) {id : String}
    (hid : (msg.normalize cfg.sha1 cfg.deviceID).id = id) {r : ResultsRun ι}
    (hr : Reach (Recorded.step agentStep (Pool.observe (watchResults id)))
      (fun r ↦ AnswersFromCache id r.state)
      ⟨start cfg tasks clock outcome onUpdateGroups, []⟩ r) :
    Stable r.log ∧
    ∀ a b x, r.log = a ++ .result x true :: b → Executed x → .forgotten ∉ b →
      ∀ deviceId payload,
        (payload.kind = .result → payload.id = id →
          ∃ x' held, .result x' held ∈ .result x true :: b ∧ payload = x'.payload) →
        Only (KeepsShown id x) (handleResult deviceId (some payload)) := by
  have hstable : Stable r.log := by
    by_cases hqueued : (msg.normalize cfg.sha1 cfg.deviceID).Queued
    · have hinv : Settled id r := by
        refine hr.invariant ?_ fun _ _ _ hs hg hstep ↦ hs.step hg hstep
        refine Settled.start cfg tasks clock outcome onUpdateGroups fun i m hm hmid ↦ ?_
        obtain rfl := hdup i m hm (hmid.trans hid.symm)
        exact hqueued
      exact hinv.stable
    · have hinv : Unknown id r := by
        refine hr.invariant ⟨fun i ↦ ?_, rfl, fun _ h ↦ nomatch h⟩
          fun _ _ _ hs _ hstep ↦ hs.step hstep
        refine program_not_adds cfg (tasks i) fun m hm hmid ↦ ?_
        obtain rfl := hdup i m hm (hmid.trans hid.symm)
        exact hqueued
      intro a b x hsplit
      refine absurd ?_ (hinv.log x)
      rw [hsplit]
      exact List.mem_append_right a List.mem_cons_self
  refine ⟨hstable, fun a b x hsplit hexecuted hkept deviceId payload hpayload ↦ ?_⟩
  refine handleResult_keepsShown deviceId fun hkind hpid ↦ ?_
  obtain ⟨x', held, hmem, rfl⟩ := hpayload hkind hpid
  rcases List.mem_cons.mp hmem with heq | hmem
  · cases heq
    rfl
  · rw [hstable a b x hsplit hexecuted hkept x' held hmem]

/-! ## A duplicate in time, and one too late -/

instance (id : String) {β : Type} (op : AgentOp β) : Decidable (Declines id β op) := by
  apply AgentOp.casesOn (motive := fun β op ↦ Decidable (Declines id β op)) op
  case publish =>
    exact fun r ↦ inferInstanceAs (Decidable (r.kind = .result ∧ r.id = id ∧ ¬ Executed r))
  all_goals intros; exact .isFalse fun h ↦ h

/-- Every delivery is of a command that the cache knows, and none is refused. -/
def Replays {ι : Type} (id : String) (r : ResultsRun ι) (l : Event ι Empty Nat) : Prop :=
  Redelivers r.state l ∧ match l with
    | .run i _ => ¬ AtRequest (Declines id) (r.state.thread i)
    | .env _ => True

instance {ι : Type} (id : String) (r : ResultsRun ι) (l : Event ι Empty Nat) :
    Decidable (Replays id r l) :=
  match l with
  | .run i _ => inferInstanceAs
      (Decidable (Redelivers r.state _ ∧ ¬ AtRequest (Declines id) (r.state.thread i)))
  | .env _ => inferInstanceAs (Decidable (Redelivers r.state _ ∧ True))

theorem Replays.answersFromCache {ι : Type} {id : String} {r : ResultsRun ι}
    {l : Event ι Empty Nat} (h : Replays id r l) : AnswersFromCache id r.state l := by
  cases l with
  | env ms => trivial
  | run i f => exact ⟨fun hdeclines ↦ absurd hdeclines h.2, fun hadds _ ↦ h.1.finds hadds⟩

/-- The result of a shell that has run at once. -/
def promptResult : Result := finalResult "dev" "cmd" (Dispatcher.execResult {} false 0 0) 0

theorem twoDeliveries_duplicates : Duplicates smallConfig twoDeliveries dateCommand := by
  intro i m hm _
  match i, hm with
  | 0, rfl | 2, rfl => rfl
  | 1, hm => cases hm
  | _ + 3, hm => cases hm

def redeliveredStart : ResultsRun Nat := ⟨twoDeliveriesStart, []⟩

/-- A duplicate that is answered with the result. -/
theorem redelivery_stable_replayed : ∃ r : ResultsRun Nat,
    r.log = [.forgotten, .result promptResult true, .result promptResult true] ∧
    Stable r.log := by
  have hfirst : AnswersFromCache "cmd" redeliveredStart.state (.run 0 .served) := by
    refine ⟨fun h ↦ h.elim, ?_⟩
    have hsettles := fun i ↦ program_settles smallConfig (twoDeliveries i) fun msg hm hid ↦ by
      obtain rfl := twoDeliveries_duplicates i msg hm hid
      exact ⟨by decide, by decide⟩
    rintro - (hpos | ⟨i, hpends | ⟨r, hreporting⟩⟩)
    · exact absurd hpos (by decide)
    · exact absurd hpends (hsettles i).2.1
    · exact absurd hreporting ((hsettles i).2.2 r)
  obtain ⟨r, hr, hlog⟩ : ∃ r : ResultsRun Nat,
      Reach (Recorded.step agentStep (Pool.observe (watchResults "cmd"))) (Replays "cmd")
        ((Recorded.step agentStep (Pool.observe (watchResults "cmd")) redeliveredStart
          (.run 0 .served)).get rfl) r ∧
      r.log = [.forgotten, .result promptResult true, .result promptResult true] :=
    Reach.exists_of_exec [
      .run 0 .served, .run 0 .served,
      .run 1 .served, .run 1 .served, .run 1 .served, .run 1 .served, .run 1 .served,
      .run 1 .served, .run 1 .served, .run 1 .served,
      .run 2 .served, .run 2 .served, .run 2 .served] (by decide)
  have hstart : Reach (Recorded.step agentStep (Pool.observe (watchResults "cmd")))
      (fun r ↦ AnswersFromCache "cmd" r.state) redeliveredStart
      ((Recorded.step agentStep (Pool.observe (watchResults "cmd")) redeliveredStart
        (.run 0 .served)).get rfl) :=
    Reach.start.next _ hfirst (Option.some_get rfl).symm
  have hreach := hstart.extend hr fun _ _ ↦ Replays.answersFromCache
  exact ⟨r, hlog, (redelivery_stable smallConfig twoDeliveries 0 (fun _ ↦ {})
    (fun _ ↦ .unsupported) dateCommand twoDeliveries_duplicates rfl hreach).1⟩

/-- The same command with an expiry after a second. -/
def secondCommand : Command := { dateCommand with expiresAt := some 1000 }

/-- Two deliveries of it, and a worker. -/
def lateDelivery : Nat → Task
  | 0 | 2 => .message (some secondCommand)
  | _ => .worker 1

def lateDeliveryStart : ResultsRun Nat :=
  ⟨start smallConfig lateDelivery 0 (fun _ ↦ {}) fun _ ↦ .unsupported, []⟩

/-- The refusal of a duplicate that comes too late. -/
def lateResult : Result := rejectedResult "dev" "cmd" .expired "command expired before delivery"

/-- The backend after it has stored the result of the command. -/
def promptShown : Fleet where
  clock := 0
  devices := ⟨[("row", { userId := "user", teamId := "team", deviceId := "dev", name := "host" })],
    List.nodup_singleton _⟩
  deviceGroups := ∅
  batches := ∅
  commands := ⟨[("cmd",
      { userId := "user", teamId := "team", deviceId := "row", batchId := none
        correlationId := "correlation", command := "date", status := .succeeded
        exitCode := some 0 })],
    List.nodup_singleton _⟩
  outputs := ∅
  auditLogs := []
  limiter := fun _ _ ↦ []
  graceUntil := 0
  connected := true

theorem lateDelivery_duplicates : Duplicates smallConfig lateDelivery secondCommand := by
  intro i m hm _
  match i, hm with
  | 0, rfl | 2, rfl => rfl
  | 1, hm => cases hm
  | _ + 3, hm => cases hm

/-- A duplicate that comes too late is refused although the cache holds the result, and the
backend then shows the refusal. -/
theorem redelivery_unstable : Duplicates smallConfig lateDelivery secondCommand ∧
    Executed promptResult ∧
    (∃ r : ResultsRun Nat, Reach (Recorded.step agentStep (Pool.observe (watchResults "cmd")))
      (fun _ _ ↦ True) lateDeliveryStart r ∧
      r.log = [.forgotten, .result promptResult true, .result lateResult true]) ∧
    Shows promptShown "cmd" promptResult ∧
    ¬ Shows (Concurrent.run commandServer [] (handleResult "dev" (some lateResult.payload))
      promptShown).2 "cmd" promptResult := by
  refine ⟨lateDelivery_duplicates, by decide, ?_, ⟨_, rfl, rfl, rfl, rfl, rfl⟩, ?_⟩
  · refine Reach.exists_of_exec [
      -- the command is delivered, queued, taken and run
      .run 0 .served, .run 0 .served, .run 0 .served, .run 0 .served,
      .run 1 .served, .run 1 .served, .run 1 .served, .run 1 .served, .run 1 .served,
      .run 1 .served, .run 1 .served, .run 1 .served,
      -- two seconds later, a duplicate is found to have expired
      .env 2000, .run 2 .served, .run 2 .served] ?_
    decide
  · rintro ⟨c, hc, hstatus, -⟩
    have hfailed : ((Concurrent.run commandServer [] (handleResult "dev" (some lateResult.payload))
      promptShown).2.commands.find? "cmd").map (·.status) = some .failed := by decide
    rw [hc, Option.map_some, hstatus] at hfailed
    exact absurd hfailed (by decide)

end Zenstier.Agent
