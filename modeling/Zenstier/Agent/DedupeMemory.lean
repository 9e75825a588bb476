import Mathlib.Data.List.Dedup
import Zenstier.Agent.Dedupe

/-!
# What the dedupe cache remembers

The cache makes room before it looks whether it knows the id, and for that it forgets the id
that comes first in `order`.  So a duplicate that arrives while the cache is full costs an id
that might have been kept, possibly the very one that it is a duplicate of.  And an id that
has been removed and added again is in `order` twice: when the first of the two comes up, the
second goes with it.

`Ripe` is the condition on a call of `Add` that rules this out: whatever is forgotten for lack
of room has been followed by as many other ids as the cache has places.
-/

namespace Zenstier.Agent

open Store

inductive CacheCall (R : Type)
  | add (id : String)
  | remove (id : String)
  | complete (id : String) (result : R)
  | cachedResult (id : String)

/-- A call at a time. -/
structure CacheEvent (R : Type) where
  time : Int
  call : CacheCall R

namespace Cache

variable {R : Type}

/-- `New`. -/
def make (capacity ttl : Int) : Cache R where
  entries := ∅
  order := []
  capacity := if capacity ≤ 0 then 1024 else capacity.toNat
  ttl := if ttl ≤ 0 then 3600000 else ttl

/-- What a call leaves. -/
def step (c : Cache R) (e : CacheEvent R) : Cache R :=
  match e.call with
  | .add id => (c.add e.time id).2
  | .remove id => c.remove id
  | .complete id result => c.complete id result
  | .cachedResult _ => c

def follow (c : Cache R) (events : List (CacheEvent R)) : Cache R := events.foldl step c

/-- The id that a call adds successfully. -/
def added (c : Cache R) (e : CacheEvent R) : List String :=
  match e.call with
  | .add id => if (c.add e.time id).1 then [id] else []
  | _ => []

/-- The ids that have been added, in order. -/
def allAdded (c : Cache R) : List (CacheEvent R) → List String
  | [] => []
  | e :: events => c.added e ++ (c.step e).allAdded events

/-! ## When it is safe to forget -/

/-- The cache without the ids that have expired at the front of the order. -/
def young (now : Int) (c : Cache R) : Cache R :=
  let (order, entries) :=
    evictOrder (c.entries.entries.length + 1) c.ttl now c.order c.entries
  { c with order, entries }

/-- The id has been seen, and not too long ago. -/
def knows (now : Int) (id : String) (c : Cache R) : Bool :=
  (c.entries.find? id).any fun e ↦ decide (now - e.seen < c.ttl)

/-- What comes after the last place of an id. -/
def since (id : String) (order : List String) : List String :=
  (order.reverse.takeWhile (· ≠ id)).reverse

/-- If an `Add` finds the cache full, then since the last time that its oldest id was added as
many others have been as it has places, the new one included. -/
def Ripe (c : Cache R) (e : CacheEvent R) : Prop :=
  match e.call with
  | .add id =>
      c.capacity ≤ (c.young e.time).entries.entries.length →
        ∀ oldest ∈ (c.young e.time).order.head?,
          c.capacity ≤ (since oldest (c.young e.time).order ++
            if (c.young e.time).knows e.time id then [] else [id]).dedup.length
  | _ => True

instance (c : Cache R) (e : CacheEvent R) : Decidable (c.Ripe e) := by
  unfold Ripe
  split <;> infer_instance

/-- Every call of a history is ripe. -/
def AllRipe (c : Cache R) : List (CacheEvent R) → Prop
  | [] => True
  | e :: events => c.Ripe e ∧ (c.step e).AllRipe events

/-! ## How eviction goes -/

section Evict

variable {capacity big : Nat} {ttl now : Int} {order front rest : List String}
  {entries : Table String (Entry R)} {id : String} {e : Entry R}

theorem evictOrder_missing (h : entries.find? id = none) :
    evictOrder capacity ttl now (id :: order) entries =
      evictOrder capacity ttl now order entries := by
  rw [evictOrder, h]

theorem evictOrder_drop (h : entries.find? id = some e)
    (hdrop : ttl < now - e.seen ∨ capacity ≤ entries.entries.length) :
    evictOrder capacity ttl now (id :: order) entries =
      evictOrder capacity ttl now order (entries.delete id) := by
  rw [evictOrder, h]
  exact if_pos hdrop

theorem evictOrder_keep (h : entries.find? id = some e)
    (hkeep : ¬ (ttl < now - e.seen ∨ capacity ≤ entries.entries.length)) :
    evictOrder capacity ttl now (id :: order) entries = (id :: order, entries) := by
  rw [evictOrder, h]
  exact if_neg hkeep

/-- Eviction leaves less than a full cache, and every id that it leaves is in the order. -/
theorem evictOrder_room (hcapacity : 0 < capacity)
    (hlive : ∀ id, (entries.find? id).isSome → id ∈ order) :
    (evictOrder capacity ttl now order entries).2.entries.length < capacity ∧
      ∀ id, ((evictOrder capacity ttl now order entries).2.find? id).isSome →
        id ∈ (evictOrder capacity ttl now order entries).1 := by
  induction order generalizing entries with
  | nil =>
      refine ⟨?_, hlive⟩
      have hnone : ∀ id, entries.find? id = none := by
        intro id
        rw [← Option.not_isSome_iff_eq_none]
        exact fun hsome ↦ List.not_mem_nil (hlive id hsome)
      rw [evictOrder, Table.entries_eq_nil hnone]
      exact hcapacity
  | cons oldest order ih =>
      have hothers : ∀ id, id ≠ oldest → (entries.find? id).isSome → id ∈ order :=
        fun id hne hsome ↦ (List.mem_cons.mp (hlive id hsome)).resolve_left hne
      cases hfind : entries.find? oldest with
      | none =>
          rw [evictOrder_missing hfind]
          refine ih fun id hsome ↦ hothers id ?_ hsome
          rintro rfl
          rw [hfind] at hsome
          cases hsome
      | some e =>
          by_cases hdrop : ttl < now - e.seen ∨ capacity ≤ entries.entries.length
          · rw [evictOrder_drop hfind hdrop]
            refine ih fun id hsome ↦ ?_
            rw [Table.find?_delete] at hsome
            split at hsome
            · cases hsome
            · rename_i hne
              exact hothers id hne hsome
          · rw [evictOrder_keep hfind hdrop]
            exact ⟨Nat.lt_of_not_le fun hfull ↦ hdrop (.inr hfull), hlive⟩

/-- As long as there is room, an id that has not expired stays where it is in the order. -/
theorem evictOrder_stays (hroom : entries.entries.length < capacity)
    (hfind : entries.find? id = some e) (hseen : now - e.seen ≤ ttl) (front : List String) :
    ∃ front', (evictOrder capacity ttl now (front ++ id :: rest) entries).1 =
        front' ++ id :: rest ∧
      (evictOrder capacity ttl now (front ++ id :: rest) entries).2.find? id = some e := by
  have hkeep : ∀ {entries : Table String (Entry R)}, entries.entries.length < capacity →
      ¬ (ttl < now - e.seen ∨ capacity ≤ entries.entries.length) := by
    rintro entries hroom (hold | hfull)
    · omega
    · omega
  induction front generalizing entries with
  | nil =>
      rw [List.nil_append, evictOrder_keep hfind (hkeep hroom)]
      exact ⟨[], rfl, hfind⟩
  | cons oldest front ih =>
      rw [List.cons_append]
      cases holdest : entries.find? oldest with
      | none =>
          rw [evictOrder_missing holdest]
          exact ih hroom hfind
      | some e' =>
          by_cases hdrop : ttl < now - e'.seen ∨ capacity ≤ entries.entries.length
          · rw [evictOrder_drop holdest hdrop]
            have hne : id ≠ oldest := by
              rintro rfl
              rw [hfind] at holdest
              obtain rfl := Option.some.inj holdest
              exact hkeep hroom hdrop
            refine ih (Nat.lt_of_le_of_lt (entries.length_delete_le oldest) hroom) ?_
            rw [Table.find?_delete, if_neg hne]
            exact hfind
          · rw [evictOrder_keep holdest hdrop]
            exact ⟨oldest :: front, rfl, hfind⟩

/-- To make room is to drop what has expired at the front first. -/
theorem evictOrder_evictOrder (hbig : entries.entries.length < big) :
    evictOrder capacity ttl now (evictOrder big ttl now order entries).1
      (evictOrder big ttl now order entries).2 = evictOrder capacity ttl now order entries := by
  induction order generalizing entries with
  | nil => rfl
  | cons oldest order ih =>
      cases hfind : entries.find? oldest with
      | none =>
          rw [evictOrder_missing hfind, evictOrder_missing hfind]
          exact ih hbig
      | some e =>
          by_cases hold : ttl < now - e.seen
          · rw [evictOrder_drop hfind (.inl hold), evictOrder_drop hfind (.inl hold)]
            exact ih (Nat.lt_of_le_of_lt (entries.length_delete_le oldest) hbig)
          · have hkeep : ¬ (ttl < now - e.seen ∨ big ≤ entries.entries.length) := by
              rintro (h | hfull)
              · exact hold h
              · omega
            rw [evictOrder_keep hfind hkeep]

/-- What has not expired at the front is there. -/
theorem evictOrder_front (hbig : entries.entries.length < big) {oldest : String}
    (h : (evictOrder big ttl now order entries).1.head? = some oldest) :
    ∃ e, (evictOrder big ttl now order entries).2.find? oldest = some e ∧
      ¬ ttl < now - e.seen := by
  induction order generalizing entries with
  | nil => cases h
  | cons id order ih =>
      cases hfind : entries.find? id with
      | none =>
          rw [evictOrder_missing hfind] at h ⊢
          exact ih hbig h
      | some e =>
          by_cases hdrop : ttl < now - e.seen ∨ big ≤ entries.entries.length
          · rw [evictOrder_drop hfind hdrop] at h ⊢
            exact ih (Nat.lt_of_le_of_lt (entries.length_delete_le id) hbig) h
          · rw [evictOrder_keep hfind hdrop] at h ⊢
            obtain rfl := Option.some.inj h
            exact ⟨e, hfind, fun hold ↦ hdrop (.inl hold)⟩

theorem evictOrder_length_le : (evictOrder capacity ttl now order entries).2.entries.length ≤
    entries.entries.length := by
  induction order generalizing entries with
  | nil => exact Nat.le_refl _
  | cons id order ih =>
      cases hfind : entries.find? id with
      | none =>
          rw [evictOrder_missing hfind]
          exact ih
      | some e =>
          by_cases hdrop : ttl < now - e.seen ∨ capacity ≤ entries.entries.length
          · rw [evictOrder_drop hfind hdrop]
            exact Nat.le_trans ih (entries.length_delete_le id)
          · have hkeep : evictOrder capacity ttl now (id :: order) entries =
                (id :: order, entries) := evictOrder_keep hfind hdrop
            exact Nat.le_of_eq (congrArg (fun x ↦ x.2.entries.length) hkeep)

end Evict

/-! ## The size of the cache -/

/-- The cache is within its capacity, and everything in it is in the order. -/
structure Sized (c : Cache R) : Prop where
  pos : 0 < c.capacity
  size : c.entries.entries.length ≤ c.capacity
  live : ∀ id, (c.entries.find? id).isSome → id ∈ c.order

variable {c : Cache R} {e : CacheEvent R} {id : String} {now : Int}

theorem Sized.make {capacity : Int} (hcapacity : 1 ≤ capacity) (ttl : Int) :
    (Cache.make capacity ttl : Cache R).Sized where
  pos := by
    rw [Cache.make, if_neg (by omega)]
    show 0 < capacity.toNat
    omega
  size := Nat.zero_le _
  live id h := by cases h

/-- Eviction makes room for one more. -/
theorem Sized.evict (h : c.Sized) (now : Int) :
    (c.evict now).entries.entries.length < c.capacity ∧
      ∀ id, ((c.evict now).entries.find? id).isSome → id ∈ (c.evict now).order :=
  evictOrder_room h.pos h.live

theorem Sized.step (h : c.Sized) (e : CacheEvent R) : (c.step e).Sized := by
  unfold Cache.step
  split
  · rename_i id _
    obtain ⟨hroom, hlive⟩ := h.evict e.time
    unfold add
    dsimp only
    split
    · exact ⟨h.pos, Nat.le_of_lt hroom, hlive⟩
    · refine ⟨h.pos, Nat.le_trans (Table.length_put_le ..) hroom, fun id' hsome ↦ ?_⟩
      rw [Table.find?_put] at hsome
      split at hsome
      · rename_i heq
        rw [heq]
        exact List.mem_append_right _ (List.mem_singleton_self _)
      · exact List.mem_append_left _ (hlive id' hsome)
  · rename_i id _
    refine ⟨h.pos, Nat.le_trans (c.entries.length_delete_le id) h.size, fun id' hsome ↦ ?_⟩
    refine h.live id' ?_
    rw [Cache.remove, Table.find?_delete] at hsome
    split at hsome
    · cases hsome
    · exact hsome
  · rename_i id result _
    refine ⟨h.pos, ?_, fun id' hsome ↦ h.live id' ?_⟩
    · rw [Cache.complete, Table.update, Table.updateMany]
      simpa using h.size
    · rw [Cache.complete, Table.find?_update] at hsome
      split at hsome
      · rw [Option.isSome_map] at hsome
        exact hsome
      · exact hsome
  · exact h

theorem Sized.follow (h : c.Sized) (events : List (CacheEvent R)) : (c.follow events).Sized := by
  induction events generalizing c with
  | nil => exact h
  | cons e events ih => exact ih (h.step e)

/-! ## Following one id -/

/-- The id has been added at a time, and some others after it. -/
structure Tracked (c : Cache R) (id : String) (t : Int) (rest : List String) : Prop where
  entry : ∃ e, c.entries.find? id = some e ∧ e.seen = t
  order : ∃ front, c.order = front ++ id :: rest
  fresh : id ∉ rest

/-- How many different ids there are beside one. -/
def others (id : String) (added : List String) : Nat := (added.filter (· ≠ id)).dedup.length

variable {t : Int} {rest : List String}

theorem others_mono {added added' : List String} (h : added ⊆ added') :
    others id added ≤ others id added' := by
  refine (List.nodup_dedup _).length_le_of_subset fun x hx ↦ ?_
  rw [List.mem_dedup, List.mem_filter] at hx ⊢
  exact ⟨h hx.1, hx.2⟩

theorem since_append (front : List String) (h : id ∉ rest) :
    since id (front ++ id :: rest) = rest := by
  have hrest : ∀ x ∈ rest.reverse, decide (x ≠ id) = true := by
    intro x hx
    rw [decide_eq_true_eq]
    rintro rfl
    exact h (List.mem_reverse.mp hx)
  rw [since, List.reverse_append, List.reverse_cons, List.append_assoc,
    List.takeWhile_append_of_pos hrest, List.singleton_append, List.takeWhile_cons_of_neg (by simp),
    List.append_nil, List.reverse_reverse]

/-- Eviction spares a tracked id, unless it is the first to go and the cache is full. -/
theorem Tracked.evict (hs : c.Sized) (h : c.Tracked id t rest) (hseen : now - t ≤ c.ttl) :
    (c.evict now).Tracked id t rest ∨
      c.capacity ≤ (c.young now).entries.entries.length ∧ (c.young now).Tracked id t rest ∧
        (c.young now).order.head? = some id := by
  obtain ⟨e, hfind, rfl⟩ := h.entry
  obtain ⟨front, horder⟩ := h.order
  have hbig : c.entries.entries.length < c.entries.entries.length + 1 := Nat.lt_succ_self _
  obtain ⟨front', horder', hfind'⟩ := evictOrder_stays hbig hfind hseen front
  rw [← horder] at horder' hfind'
  change (c.young now).order = _ at horder'
  change (c.young now).entries.find? id = _ at hfind'
  have hyoung : (c.young now).Tracked id e.seen rest :=
    ⟨⟨e, hfind', rfl⟩, ⟨front', horder'⟩, h.fresh⟩
  have hevict : evictOrder c.capacity c.ttl now (c.young now).order (c.young now).entries =
      ((c.evict now).order, (c.evict now).entries) := evictOrder_evictOrder hbig
  have htracked : ∀ {front : List String}, (c.evict now).order = front ++ id :: rest →
      (c.evict now).entries.find? id = some e → (c.evict now).Tracked id e.seen rest :=
    fun horder hfind ↦ ⟨⟨e, hfind, rfl⟩, ⟨_, horder⟩, h.fresh⟩
  by_cases hfull : c.capacity ≤ (c.young now).entries.entries.length
  · rcases front' with - | ⟨oldest, front'⟩
    · refine .inr ⟨hfull, hyoung, ?_⟩
      rw [horder']
      rfl
    · by_cases holdest : oldest = id
      · refine .inr ⟨hfull, hyoung, ?_⟩
        rw [horder', holdest]
        rfl
      -- another id makes room
      · left
        have hhead : (evictOrder (c.entries.entries.length + 1) c.ttl now c.order
            c.entries).1.head? = some oldest := by
          change (c.young now).order.head? = _
          rw [horder']
          rfl
        obtain ⟨e', hfront, -⟩ := evictOrder_front hbig hhead
        have hdrop : evictOrder c.capacity c.ttl now (oldest :: (front' ++ id :: rest))
            (c.young now).entries = evictOrder c.capacity c.ttl now (front' ++ id :: rest)
              ((c.young now).entries.delete oldest) := evictOrder_drop hfront (.inr hfull)
        have hroom : ((c.young now).entries.delete oldest).entries.length < c.capacity :=
          Nat.lt_of_lt_of_le (Table.length_delete_lt hfront)
            (Nat.le_trans evictOrder_length_le hs.size)
        have hstill : ((c.young now).entries.delete oldest).find? id = some e := by
          rw [Table.find?_delete, if_neg (Ne.symm holdest)]
          exact hfind'
        obtain ⟨front, horder, hfind⟩ := evictOrder_stays hroom hstill hseen front'
        rw [← hdrop, ← List.cons_append, ← horder', hevict] at horder hfind
        exact htracked horder hfind
  · left
    obtain ⟨front, horder, hfind⟩ := evictOrder_stays (Nat.lt_of_not_le hfull) hfind' hseen
      front'
    rw [← horder', hevict] at horder hfind
    exact htracked horder hfind

theorem others_of_not_mem {added : List String} (h : id ∉ added) :
    others id added = added.dedup.length := by
  rw [others, List.filter_eq_self.mpr]
  intro x hx
  rw [decide_eq_true_eq]
  rintro rfl
  exact h hx

/-- An id that is not known once the expired ones are gone is added. -/
theorem add_of_not_knows {z : String} (h : (c.young now).knows now z = false) :
    (c.add now z).1 = true := by
  have hbig : c.entries.entries.length < c.entries.entries.length + 1 := Nat.lt_succ_self _
  have hevict : (c.evict now).entries.find? z = none ∨
      (c.evict now).entries.find? z = (c.young now).entries.find? z := by
    have hfind := evictOrder_find? c.capacity c.ttl now (c.young now).order
      (c.young now).entries z
    have hsame : evictOrder c.capacity c.ttl now (c.young now).order (c.young now).entries =
        ((c.evict now).order, (c.evict now).entries) := evictOrder_evictOrder hbig
    rw [hsame] at hfind
    exact hfind
  unfold add
  rw [if_neg]
  change ¬ ((c.evict now).entries.find? z).any (fun e ↦ decide (now - e.seen < c.ttl)) = true
  rcases hevict with hnone | hsame
  · rw [hnone]
    exact Bool.false_ne_true
  · rw [hsame, Bool.not_eq_true]
    exact h

/-- A tracked id is known for its time. -/
theorem Tracked.knows (h : c.Tracked id t rest) (hseen : now - t < c.ttl) :
    c.knows now id = true := by
  obtain ⟨e, hfind, rfl⟩ := h.entry
  rw [Cache.knows, hfind]
  exact decide_eq_true hseen

/-- What a ripe call forgets of a tracked id has been followed by enough others. -/
theorem Ripe.enough {z : String} (hripe : c.Ripe ⟨now, .add z⟩)
    (hfull : c.capacity ≤ (c.young now).entries.entries.length)
    (h : (c.young now).Tracked id t rest) (hhead : (c.young now).order.head? = some id)
    (hseen : now - t < c.ttl) : c.capacity ≤ others id (rest ++ c.added ⟨now, .add z⟩) := by
  obtain ⟨front, horder⟩ := h.order
  have hcount := hripe hfull id hhead
  rw [horder, since_append front h.fresh] at hcount
  split at hcount
  · rw [List.append_nil, ← others_of_not_mem h.fresh] at hcount
    exact Nat.le_trans hcount (others_mono (List.subset_append_left _ _))
  · rename_i hnew
    have hne : z ≠ id := by
      rintro rfl
      exact hnew (h.knows hseen)
    have hadded : c.added ⟨now, .add z⟩ = [z] :=
      if_pos (add_of_not_knows (Bool.not_eq_true _ ▸ hnew))
    rw [hadded, others_of_not_mem]
    · exact hcount
    · rw [List.mem_append, List.mem_singleton, not_or]
      exact ⟨h.fresh, hne.symm⟩

/-- A tracked id is not added again, and what is added comes after it in the order. -/
theorem Tracked.add {z : String} (h : (c.evict now).Tracked id t rest) (hseen : now - t < c.ttl) :
    (z = id → (c.add now z).1 = false) ∧
      (c.add now z).2.Tracked id t (rest ++ c.added ⟨now, .add z⟩) := by
  obtain ⟨e, hfind, rfl⟩ := h.entry
  obtain ⟨front, horder⟩ := h.order
  rw [added]
  unfold Cache.add
  dsimp only
  split
  · refine ⟨fun _ ↦ rfl, ?_⟩
    rw [if_neg Bool.false_ne_true, List.append_nil]
    exact h
  · rename_i hnew
    have hne : z ≠ id := by
      rintro rfl
      rw [hfind] at hnew
      exact hnew (decide_eq_true hseen)
    refine ⟨fun heq ↦ absurd heq hne, ?_⟩
    rw [if_pos rfl]
    refine ⟨⟨e, ?_, rfl⟩, ⟨front, ?_⟩, ?_⟩
    · rw [Table.find?_put, if_neg hne.symm]
      exact hfind
    · rw [horder, List.append_assoc, List.cons_append]
    · rw [List.mem_append, List.mem_singleton, not_or]
      exact ⟨h.fresh, hne.symm⟩

/-- A call after which an id is still tracked, or enough others have been added. -/
theorem Tracked.step (hs : c.Sized) (h : c.Tracked id t rest) (hripe : c.Ripe e)
    (htime : e.time < t + c.ttl) (hremove : e.call ≠ .remove id) :
    (c.step e).Tracked id t (rest ++ c.added e) ∨
      c.capacity ≤ others id (rest ++ c.added e) := by
  obtain ⟨now, call⟩ := e
  have hseen : now - t < c.ttl := by
    dsimp only at htime
    omega
  cases call with
  | add z =>
      rcases h.evict hs (Int.le_of_lt hseen) with hevict | ⟨hfull, hyoung, hhead⟩
      · exact .inl (hevict.add hseen).2
      · exact .inr (hripe.enough hfull hyoung hhead hseen)
  | remove z =>
      left
      obtain ⟨e, hfind, rfl⟩ := h.entry
      have hne : id ≠ z := fun heq ↦ hremove (by rw [heq])
      refine ⟨⟨e, ?_, rfl⟩, ?_, ?_⟩
      · show (c.entries.delete z).find? id = _
        rw [Table.find?_delete, if_neg hne]
        exact hfind
      · rw [added, List.append_nil]
        exact h.order
      · rw [added, List.append_nil]
        exact h.fresh
  | complete z result =>
      left
      obtain ⟨e, hfind, rfl⟩ := h.entry
      refine ⟨?_, ?_, ?_⟩
      · show ∃ e', (c.entries.update z _).find? id = some e' ∧ _
        rw [Table.find?_update, hfind]
        split
        · exact ⟨_, rfl, rfl⟩
        · exact ⟨e, rfl, rfl⟩
      · rw [added, List.append_nil]
        exact h.order
      · rw [added, List.append_nil]
        exact h.fresh
  | cachedResult z =>
      left
      rw [added, List.append_nil]
      exact h

theorem step_capacity (c : Cache R) (e : CacheEvent R) : (c.step e).capacity = c.capacity := by
  unfold Cache.step
  split
  · unfold Cache.add
    dsimp only
    split <;> rfl
  · rfl
  · rfl
  · rfl

theorem step_ttl (c : Cache R) (e : CacheEvent R) : (c.step e).ttl = c.ttl := by
  unfold Cache.step
  split
  · unfold Cache.add
    dsimp only
    split <;> rfl
  · rfl
  · rfl
  · rfl

/-- The calls of a history after which an id is still tracked, or enough others have been
added. -/
theorem Tracked.follow (hs : c.Sized) (h : c.Tracked id t rest) {events : List (CacheEvent R)}
    (hripe : c.AllRipe events) (htime : ∀ e ∈ events, e.time < t + c.ttl)
    (hremove : ∀ e ∈ events, e.call ≠ .remove id) :
    (c.follow events).Tracked id t (rest ++ c.allAdded events) ∨
      c.capacity ≤ others id (rest ++ c.allAdded events) := by
  induction events generalizing c rest with
  | nil =>
      left
      rw [allAdded, List.append_nil]
      exact h
  | cons e events ih =>
      obtain ⟨he, hevents⟩ := hripe
      obtain ⟨htime₁, htime⟩ := List.forall_mem_cons.mp htime
      obtain ⟨hremove₁, hremove⟩ := List.forall_mem_cons.mp hremove
      rw [allAdded, ← List.append_assoc]
      rcases h.step hs he htime₁ hremove₁ with htracked | hcount
      · have hrest := ih (hs.step e) htracked hevents (by rw [step_ttl]; exact htime) hremove
        rw [step_capacity] at hrest
        exact hrest
      · exact .inr (Nat.le_trans hcount (others_mono (List.subset_append_left _ _)))

/-- An id that has just been added is tracked. -/
theorem tracked_of_add (h : (c.add now id).1 = true) : (c.add now id).2.Tracked id now [] := by
  unfold Cache.add at h ⊢
  dsimp only at h ⊢
  split at h
  · cases h
  · rename_i hnew
    rw [if_neg hnew]
    exact ⟨⟨_, by rw [Table.find?_put, if_pos rfl], rfl⟩, ⟨_, rfl⟩, List.not_mem_nil⟩

/-- What a cache is there for: an id that has been added is not added again, as long as it is
neither removed nor too old and fewer other ids have been added than there are places. -/
def Remembers (capacity ttl : Int) (events : List (CacheEvent R)) : Prop :=
  ∀ before between after id t now,
    events = before ++ ⟨t, .add id⟩ :: (between ++ ⟨now, .add id⟩ :: after) →
    (((make capacity ttl).follow before).add t id).1 = true →
    (∀ e ∈ between, e.call ≠ .remove id) → now < t + ttl →
    (others id (((make capacity ttl).follow (before ++ [⟨t, .add id⟩])).allAdded between) : Int) <
      capacity →
    (((make capacity ttl).follow (before ++ ⟨t, .add id⟩ :: between)).add now id).1 = false

theorem allRipe_append {before after : List (CacheEvent R)} (h : c.AllRipe (before ++ after)) :
    c.AllRipe before ∧ (c.follow before).AllRipe after := by
  induction before generalizing c with
  | nil => exact ⟨trivial, h⟩
  | cons e before ih => exact ⟨⟨h.1, (ih h.2).1⟩, (ih h.2).2⟩

theorem follow_append (c : Cache R) (before after : List (CacheEvent R)) :
    c.follow (before ++ after) = (c.follow before).follow after := List.foldl_append

theorem follow_capacity (c : Cache R) (events : List (CacheEvent R)) :
    (c.follow events).capacity = c.capacity ∧ (c.follow events).ttl = c.ttl := by
  induction events generalizing c with
  | nil => exact ⟨rfl, rfl⟩
  | cons e events ih =>
      rw [follow, List.foldl_cons]
      obtain ⟨hcapacity, httl⟩ := ih (c.step e)
      exact ⟨hcapacity.trans (c.step_capacity e), httl.trans (c.step_ttl e)⟩

/-- A tracked id is not added again by a ripe call, unless enough others have been added. -/
theorem Tracked.not_added (hs : c.Sized) (h : c.Tracked id t rest)
    (hripe : c.Ripe ⟨now, .add id⟩) (hseen : now - t < c.ttl)
    (hcount : others id rest < c.capacity) : (c.add now id).1 = false := by
  rcases h.evict hs (Int.le_of_lt hseen) with hevict | ⟨hfull, hyoung, hhead⟩
  · exact (hevict.add hseen).1 rfl
  · obtain ⟨front, horder⟩ := hyoung.order
    have henough := hripe hfull id hhead
    rw [horder, since_append front hyoung.fresh, if_pos (hyoung.knows hseen), List.append_nil,
      ← others_of_not_mem hyoung.fresh] at henough
    omega

/-- The cache never holds more than it has places for, and in a history of ripe calls it
remembers what it should. -/
theorem cache_remembers (capacity ttl : Int) (hcapacity : 1 ≤ capacity)
    (events : List (CacheEvent R)) :
    (∀ before, before <+: events →
      (((make capacity ttl).follow before).entries.entries.length : Int) ≤ capacity) ∧
    (events.Pairwise (fun e e' ↦ e.time ≤ e'.time) → (make capacity ttl).AllRipe events →
      Remembers capacity ttl events) := by
  have hmake : ((make capacity ttl : Cache R).capacity : Int) = capacity := by
    rw [make, if_neg (by omega)]
    exact Int.toNat_of_nonneg (by omega)
  constructor
  · intro before _
    have hsize := ((Sized.make hcapacity ttl).follow before).size
    rw [(follow_capacity _ before).1] at hsize
    omega
  intro htimes hripe before between after id t now hevents hadd hremove hnow hcount
  rw [hevents] at hripe htimes
  obtain ⟨-, hripe⟩ := allRipe_append hripe
  obtain ⟨-, hripe⟩ := hripe
  obtain ⟨hbetween, hlast, -⟩ := allRipe_append hripe
  set c := (make capacity ttl : Cache R).follow before with hc
  have hs : c.Sized := (Sized.make hcapacity ttl).follow before
  have hcap : (c.capacity : Int) = capacity := by rw [(follow_capacity _ before).1, hmake]
  have httl : now < t + c.ttl := by
    rw [(follow_capacity _ before).2, make]
    dsimp only
    split <;> omega
  have hbefore : ∀ e ∈ between, e.time ≤ now := by
    intro e he
    have hpair := (List.pairwise_cons.mp (List.pairwise_append.mp htimes).2.1).2
    exact (List.pairwise_append.mp hpair).2.2 e he _ List.mem_cons_self
  have hstep : c.step ⟨t, .add id⟩ = (c.add t id).2 := rfl
  have htracked := (hstep ▸ tracked_of_add hadd : (c.step ⟨t, .add id⟩).Tracked id t []).follow
    (hs.step _) hbetween (fun e he ↦ by
      have := hbefore e he
      rw [step_ttl]
      omega) hremove
  rw [follow_append, ← hc, List.nil_append, step_capacity] at *
  change (others id ((c.step ⟨t, .add id⟩).allAdded between) : Int) < capacity at hcount
  change (((c.step ⟨t, .add id⟩).follow between).add now id).1 = false
  rcases htracked with htracked | henough
  · refine htracked.not_added ((hs.step _).follow between) hlast ?_ ?_
    · rw [(follow_capacity _ between).2, step_ttl]
      omega
    · rw [(follow_capacity _ between).1, step_capacity]
      omega
  · omega

/-- A full cache forgets the id that is added again. -/
theorem cache_forgets :
    ¬ ∀ (capacity ttl : Int) (events : List (CacheEvent Unit)), 1 ≤ capacity →
      events.Pairwise (fun e e' ↦ e.time ≤ e'.time) → Remembers capacity ttl events := by
  intro hall
  have h := hall 2 1000 [⟨0, .add "a"⟩, ⟨1, .add "b"⟩, ⟨2, .add "a"⟩] (by decide) (by decide)
    [] [⟨1, .add "b"⟩] [] "a" 0 2 rfl (by decide) (by simp) (by decide) (by decide)
  exact absurd h (by decide)

/-- A duplicate that comes while there is room. -/
theorem cache_remembers_duplicate :
    ∃ events : List (CacheEvent Unit), events = [⟨0, .add "a"⟩, ⟨1, .add "a"⟩] ∧
      events.Pairwise (fun e e' ↦ e.time ≤ e'.time) ∧ (make 2 1000).AllRipe events ∧
      Remembers 2 1000 events := by
  have htimes : [(⟨0, .add "a"⟩ : CacheEvent Unit), ⟨1, .add "a"⟩].Pairwise
      (fun e e' ↦ e.time ≤ e'.time) := by decide
  have hripe : (make 2 1000 : Cache Unit).AllRipe [⟨0, .add "a"⟩, ⟨1, .add "a"⟩] :=
    ⟨by decide, by decide, trivial⟩
  exact ⟨_, rfl, htimes, hripe, (cache_remembers 2 1000 (by decide) _).2 htimes hripe⟩

end Cache

end Zenstier.Agent
