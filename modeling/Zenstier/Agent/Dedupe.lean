import Zenstier.Store.Table

/-!
# The dedupe cache

`dedupe.Cache` remembers the ids of the commands it has seen, with the result once there is
one.  It forgets the oldest ids when it is full and those that are older than its TTL, and
it does not look at whether their commands are still running.  An id that is removed stays
in `order`, so if it is added again, it may be forgotten early.
-/

namespace Zenstier.Agent

open Store

/-- `entry`. -/
structure Entry (R : Type) where
  seen : Int
  result : Option R
  running : Bool
deriving DecidableEq, Repr

structure Cache (R : Type) where
  entries : Table String (Entry R)
  /-- The ids in the order in which they were added. -/
  order : List String
  capacity : Nat
  ttl : Int

namespace Cache

variable {R : Type}

/-- `New(1024, time.Hour)`. -/
def new : Cache R := ⟨∅, [], 1024, 3600000⟩

/-- The loop of `evictLocked`. -/
def evictOrder (capacity : Nat) (ttl now : Int) :
    List String → Table String (Entry R) → List String × Table String (Entry R)
  | [], entries => ([], entries)
  | oldest :: order, entries => match entries.find? oldest with
      | none => evictOrder capacity ttl now order entries
      | some e =>
          if ttl < now - e.seen ∨ capacity ≤ entries.entries.length then
            evictOrder capacity ttl now order (entries.delete oldest)
          else (oldest :: order, entries)

/-- `evictLocked`. -/
def evict (now : Int) (c : Cache R) : Cache R :=
  let (order, entries) := evictOrder c.capacity c.ttl now c.order c.entries
  { c with order, entries }

/-- `Add`: records an id, unless it is known. -/
def add (now : Int) (id : String) (c : Cache R) : Bool × Cache R :=
  let c := c.evict now
  if (c.entries.find? id).any fun e ↦ decide (now - e.seen < c.ttl) then (false, c)
  else (true, { c with
    entries := c.entries.put id ⟨now, none, true⟩
    order := c.order ++ [id] })

/-- `Remove`. -/
def remove (id : String) (c : Cache R) : Cache R :=
  { c with entries := c.entries.delete id }

/-- `Complete`: stores the result of a command that is known. -/
def complete (id : String) (result : R) (c : Cache R) : Cache R :=
  { c with entries := c.entries.update id fun e ↦
      { e with result := some result, running := false } }

/-- `CachedResult`: the result, and whether the command is running, if it is known. -/
def cachedResult (id : String) (c : Cache R) : Option (Option R × Bool) :=
  (c.entries.find? id).map fun e ↦ (e.result, e.running)

/-- The entry of an id. -/
def entry (c : Cache R) (id : String) : Option (Entry R) := c.entries.find? id

/-! ## What becomes of an entry -/

variable {c : Cache R} {now : Int} {id id' : String}

theorem evictOrder_find? (capacity : Nat) (ttl now : Int) (order : List String)
    (entries : Table String (Entry R)) (id : String) :
    (evictOrder capacity ttl now order entries).2.find? id = none ∨
      (evictOrder capacity ttl now order entries).2.find? id = entries.find? id := by
  induction order generalizing entries with
  | nil => exact .inr rfl
  | cons oldest order ih =>
      unfold evictOrder
      cases entries.find? oldest with
      | none => exact ih entries
      | some e =>
          dsimp only
          split
          · rcases ih (entries.delete oldest) with h | h
            · exact .inl h
            · rw [h, Table.find?_delete]
              split
              · exact .inl rfl
              · exact .inr rfl
          · exact .inr rfl

/-- Eviction forgets an entry or leaves it as it is. -/
theorem entry_evict (c : Cache R) (now : Int) (id : String) :
    (c.evict now).entry id = none ∨ (c.evict now).entry id = c.entry id :=
  evictOrder_find? c.capacity c.ttl now c.order c.entries id

/-- An id is known to `Add` if its entry is young enough. -/
theorem add_cases (now : Int) (id : String) (c : Cache R) :
    ((c.add now id).1 = false ∧ (∃ e, (c.evict now).entry id = some e ∧ now - e.seen < c.ttl) ∧
      ∀ id', (c.add now id).2.entry id' = (c.evict now).entry id') ∨
    ((c.add now id).1 = true ∧ (∀ e, (c.evict now).entry id = some e → c.ttl ≤ now - e.seen) ∧
      ∀ id', (c.add now id).2.entry id' =
        if id' = id then some ⟨now, none, true⟩ else (c.evict now).entry id') := by
  have httl : (c.evict now).ttl = c.ttl := rfl
  unfold add
  dsimp only
  split
  · rename_i hknown
    cases he : (c.evict now).entries.find? id with
    | none => simp [he] at hknown
    | some e =>
        rw [he] at hknown
        exact .inl ⟨rfl, ⟨e, he, by simpa [httl] using hknown⟩, fun _ ↦ rfl⟩
  · rename_i hknown
    refine .inr ⟨rfl, fun e he ↦ ?_, fun id' ↦ ?_⟩
    · rw [entry] at he
      rw [he] at hknown
      simp only [Option.any_some, httl, decide_eq_true_eq] at hknown
      omega
    · exact Table.find?_put ..

/-- The entry of an id after an attempt to add another one, or the same in vain. -/
theorem entry_add_of_not_new (h : ¬ (id = id' ∧ (c.add now id).1 = true)) :
    (c.add now id).2.entry id' = (c.evict now).entry id' := by
  rcases add_cases now id c with ⟨-, -, hentry⟩ | ⟨hfirst, -, hentry⟩
  · exact hentry id'
  · rw [hentry, if_neg]
    rintro rfl
    exact h ⟨rfl, hfirst⟩

/-- A new entry has no result. -/
theorem entry_of_entry_add {e : Entry R} {r : R} (h : (c.add now id).2.entry id' = some e)
    (hr : e.result = some r) : c.entry id' = some e := by
  by_cases hnew : id = id' ∧ (c.add now id).1 = true
  · obtain ⟨rfl, hfirst⟩ := hnew
    rcases add_cases now id c with ⟨hold, -, -⟩ | ⟨-, -, hentry⟩
    · rw [hold] at hfirst
      cases hfirst
    · rw [hentry, if_pos rfl] at h
      cases h
      cases hr
  · rw [entry_add_of_not_new hnew] at h
    rcases entry_evict c now id' with hevict | hevict
    · rw [hevict] at h
      cases h
    · rw [← hevict, h]

@[simp] theorem entry_remove : (c.remove id).entry id' = if id' = id then none else c.entry id' :=
  Table.find?_delete ..

@[simp] theorem entry_complete (r : R) : (c.complete id r).entry id' =
    if id' = id then (c.entry id').map fun e ↦ { e with result := some r, running := false }
    else c.entry id' := Table.find?_update ..

end Cache

end Zenstier.Agent
