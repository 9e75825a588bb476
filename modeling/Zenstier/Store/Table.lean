import Mathlib.Data.List.Nodup
import Mathlib.Logic.Function.Basic

/-!
# Tables with a primary key

A `Table K V` is a finite relation from keys to rows in which every key occurs at
most once.  The uniqueness proof is a field of the structure, so each operation
below re-establishes it once and no later proof speaks of duplicate keys again.

Everything about a table is read through `find?`: the update and delete operations
are characterised by what they do to `find?`, and membership in the answer of a
scan (`findMany`) by `find?` as well.  The order of the rows carries no meaning.
-/

namespace Store

variable {K V : Type}

/-- Rows of type `V` under a primary key of type `K`. -/
structure Table (K V : Type) where
  /-- The rows with their keys. -/
  entries : List (K × V)
  /-- No key occurs twice. -/
  nodupKeys : (entries.map Prod.fst).Nodup

namespace Table

/-- The table without rows. -/
def empty : Table K V := ⟨[], List.nodup_nil⟩

instance : EmptyCollection (Table K V) := ⟨empty⟩

instance : Inhabited (Table K V) := ⟨empty⟩

section Lookup

variable [DecidableEq K]

/-- The row under a key. -/
def find? (t : Table K V) (k : K) : Option V :=
  (t.entries.find? fun e ↦ e.1 = k).map Prod.snd

theorem find?_eq_some {t : Table K V} {k : K} {v : V} :
    t.find? k = some v ↔ (k, v) ∈ t.entries := by
  obtain ⟨es, hnd⟩ := t
  simp only [find?]
  induction es with
  | nil => simp
  | cons e es ih =>
      rw [List.map_cons, List.nodup_cons] at hnd
      by_cases he : e.1 = k
      · subst he
        have hnot : ∀ w, (e.1, w) ∉ es := fun w hw ↦
          hnd.1 (List.mem_map.mpr ⟨_, hw, rfl⟩)
        simp only [List.find?_cons, decide_true, Option.map_some, Option.some.injEq,
          List.mem_cons, hnot v, or_false]
        exact ⟨fun h ↦ h ▸ rfl, fun h ↦ (congrArg Prod.snd h).symm⟩
      · have hne : ¬ (k, v) = e := fun h ↦ he (by rw [← h])
        simp only [List.find?_cons, he, decide_false, List.mem_cons, hne, false_or]
        exact ih hnd.2

theorem find?_eq_none {t : Table K V} {k : K} :
    t.find? k = none ↔ ∀ v, (k, v) ∉ t.entries := by
  rw [Option.eq_none_iff_forall_ne_some]
  exact forall_congr' fun v ↦ not_congr find?_eq_some

/-- The keys that are taken. -/
def keys (t : Table K V) : List K := t.entries.map Prod.fst

theorem mem_keys {t : Table K V} {k : K} : k ∈ t.keys ↔ (t.find? k).isSome := by
  rw [Option.isSome_iff_exists]
  simp only [keys, List.mem_map, Prod.exists, find?_eq_some]
  constructor
  · rintro ⟨k, v, h, rfl⟩
    exact ⟨v, h⟩
  · rintro ⟨v, h⟩
    exact ⟨k, v, h, rfl⟩

@[simp] theorem find?_empty (k : K) : (∅ : Table K V).find? k = none := rfl

/-- Two tables answer a lookup alike once they hold the same row under that key. -/
theorem find?_congr {t t' : Table K V} {k k' : K}
    (h : ∀ v, (k, v) ∈ t.entries ↔ (k', v) ∈ t'.entries) : t.find? k = t'.find? k' :=
  Option.ext fun v ↦ find?_eq_some.trans ((h v).trans find?_eq_some.symm)

/-! ## Scans -/

/-- The rows that satisfy a condition, with their keys. -/
def findMany (t : Table K V) (p : K → V → Bool) : List (K × V) :=
  t.entries.filter fun e ↦ p e.1 e.2

theorem mem_findMany {t : Table K V} {p : K → V → Bool} {k : K} {v : V} :
    (k, v) ∈ t.findMany p ↔ t.find? k = some v ∧ p k v = true := by
  simp [findMany, find?_eq_some]

omit [DecidableEq K] in
theorem nodup_findMany (t : Table K V) (p : K → V → Bool) :
    ((t.findMany p).map Prod.fst).Nodup :=
  t.nodupKeys.sublist (List.filter_sublist.map Prod.fst)

/-- One of the rows that satisfy a condition, with its key. -/
def findFirst (t : Table K V) (p : K → V → Bool) : Option (K × V) :=
  t.entries.find? fun e ↦ p e.1 e.2

theorem findFirst_eq_some {t : Table K V} {p : K → V → Bool} {k : K} {v : V}
    (h : t.findFirst p = some (k, v)) : t.find? k = some v ∧ p k v = true :=
  ⟨find?_eq_some.mpr (List.mem_of_find?_eq_some h),
    List.find?_some (p := fun e : K × V ↦ p e.1 e.2) h⟩

theorem findFirst_eq_none {t : Table K V} {p : K → V → Bool}
    (h : t.findFirst p = none) {k : K} {v : V} (hv : t.find? k = some v) : p k v = false := by
  have := List.find?_eq_none.mp h (k, v) (find?_eq_some.mp hv)
  simpa using this

/-- The earlier of two rows by a column; of equals the first. -/
def earlier (col : V → Int) (e : K × V) : Option (K × V) → K × V
  | some e' => if col e'.2 < col e.2 then e' else e
  | none => e

/-- The first by a column of the rows that satisfy a condition, with its key. -/
def findEarliest (t : Table K V) (p : K → V → Bool) (col : V → Int) : Option (K × V) :=
  (t.findMany p).foldr (fun e found ↦ some (earlier col e found)) none

theorem findEarliest_eq_some {t : Table K V} {p : K → V → Bool} {col : V → Int} {k : K} {v : V}
    (h : t.findEarliest p col = some (k, v)) : t.find? k = some v ∧ p k v = true := by
  have hmem : ∀ (es : List (K × V)) e,
      es.foldr (fun e found ↦ some (earlier col e found)) none = some e → e ∈ es := by
    intro es
    induction es with
    | nil =>
        intro e he
        cases he
    | cons e₀ es ih =>
        intro e he
        rw [List.foldr_cons, Option.some.injEq] at he
        subst he
        cases hfound : es.foldr (fun e found ↦ some (earlier col e found)) none with
        | none => exact List.mem_cons_self
        | some e' =>
            dsimp only [earlier]
            split
            · exact List.mem_cons_of_mem e₀ (ih e' hfound)
            · exact List.mem_cons_self
  exact mem_findMany.mp (hmem _ _ h)

/-! ## Insertion -/

/-- Insertion of a new row; a key that is already taken is refused. -/
def insert (t : Table K V) (k : K) (v : V) : Option (Table K V) :=
  if h : k ∈ t.entries.map Prod.fst then none
  else some ⟨(k, v) :: t.entries, by simpa using ⟨by simpa using h, t.nodupKeys⟩⟩

theorem insert_eq_some {t t' : Table K V} {k : K} {v : V} (h : t.insert k v = some t') :
    t.find? k = none ∧ t'.entries = (k, v) :: t.entries := by
  unfold insert at h
  split at h
  · contradiction
  · rename_i hk
    cases h
    refine ⟨find?_eq_none.mpr fun w hw ↦ hk (List.mem_map.mpr ⟨_, hw, rfl⟩), rfl⟩

theorem isSome_of_insert_eq_none {t : Table K V} {k : K} {v : V} (h : t.insert k v = none) :
    (t.find? k).isSome := by
  unfold insert at h
  split at h
  · rename_i hk
    obtain ⟨⟨k', w⟩, hmem, rfl⟩ := List.mem_map.mp hk
    rw [find?_eq_some.mpr hmem]
    rfl
  · cases h

theorem find?_insert {t t' : Table K V} {k : K} {v : V} (h : t.insert k v = some t')
    (k' : K) : t'.find? k' = if k' = k then some v else t.find? k' := by
  obtain ⟨hnone, hent⟩ := insert_eq_some h
  split
  · rename_i hk
    subst hk
    exact find?_eq_some.mpr (by simp [hent])
  · rename_i hk
    refine find?_congr fun w ↦ ?_
    have hne : ¬ (k', w) = (k, v) := fun e ↦ hk (congrArg Prod.fst e)
    simp [hent, hne]

/-- An inserted row leaves the others as they are. -/
theorem find?_of_insert {t t' : Table K V} {k k' : K} {v w : V} (h : t.insert k v = some t')
    (hw : t.find? k' = some w) : t'.find? k' = some w := by
  rw [find?_insert h, if_neg]
  · exact hw
  · rintro rfl
    rw [(insert_eq_some h).1] at hw
    cases hw

/-! ## Updates -/

omit [DecidableEq K] in
private theorem map_update_fst (es : List (K × V)) (p : K → V → Bool) (f : V → V) :
    (es.map fun e ↦ (e.1, if p e.1 e.2 then f e.2 else e.2)).map Prod.fst =
      es.map Prod.fst := by
  rw [List.map_map]
  rfl

/-- Rewrites every row that satisfies a condition.  Keys are left alone. -/
def updateMany (t : Table K V) (p : K → V → Bool) (f : V → V) : Table K V :=
  ⟨t.entries.map fun e ↦ (e.1, if p e.1 e.2 then f e.2 else e.2),
    (map_update_fst t.entries p f).symm ▸ t.nodupKeys⟩

@[simp] theorem find?_updateMany (t : Table K V) (p : K → V → Bool) (f : V → V) (k : K) :
    (t.updateMany p f).find? k = (t.find? k).map fun v ↦ if p k v then f v else v := by
  refine Option.ext fun w ↦ ?_
  rw [find?_eq_some, Option.map_eq_some_iff]
  simp only [updateMany, List.mem_map, Prod.mk.injEq, Prod.exists, find?_eq_some]
  constructor
  · rintro ⟨k', v, hv, rfl, hw⟩
    exact ⟨v, hv, hw⟩
  · rintro ⟨v, hv, hw⟩
    exact ⟨k, v, hv, rfl, hw⟩

omit [DecidableEq K] in
/-- An update that does not change which rows are looked for. -/
theorem findFirst_updateMany (t : Table K V) {p q : K → V → Bool} {f : V → V}
    (hf : ∀ k v, p k v = true → q k (f v) = q k v) :
    (t.updateMany p f).findFirst q =
      (t.findFirst q).map fun e ↦ (e.1, if p e.1 e.2 then f e.2 else e.2) := by
  rw [findFirst, updateMany, List.find?_map]
  refine congrArg _ (congrArg (t.entries.find? ·) (funext fun e ↦ ?_))
  dsimp only [Function.comp_apply]
  split
  · rename_i hp
    exact hf e.1 e.2 hp
  · rfl

/-- Rewrites the row under one key, if there is one. -/
def update (t : Table K V) (k : K) (f : V → V) : Table K V :=
  t.updateMany (fun k' _ ↦ k' = k) f

@[simp] theorem find?_update (t : Table K V) (k : K) (f : V → V) (k' : K) :
    (t.update k f).find? k' = if k' = k then (t.find? k').map f else t.find? k' := by
  rw [update, find?_updateMany]
  by_cases hk : k' = k
  · simp [hk]
  · simp [hk]

/-- A row of an updated table is the updated one, or has been there. -/
theorem find?_update_eq_some {t : Table K V} {k k' : K} {f : V → V} {v : V}
    (h : (t.update k f).find? k' = some v) :
    (∃ w, k' = k ∧ t.find? k' = some w ∧ f w = v) ∨ k' ≠ k ∧ t.find? k' = some v := by
  rw [find?_update] at h
  split at h
  · rename_i hk
    obtain ⟨w, hw, hf⟩ := Option.map_eq_some_iff.mp h
    exact .inl ⟨w, hk, hw, hf⟩
  · rename_i hk
    exact .inr ⟨hk, h⟩

/-- Rewrites every row by its key. -/
def mapRows (t : Table K V) (f : K → V → V) : Table K V :=
  ⟨t.entries.map fun e ↦ (e.1, f e.1 e.2), by
    rw [List.map_map]
    exact t.nodupKeys⟩

@[simp] theorem find?_mapRows (t : Table K V) (f : K → V → V) (k : K) :
    (t.mapRows f).find? k = (t.find? k).map (f k) := by
  refine Option.ext fun w ↦ ?_
  rw [find?_eq_some, Option.map_eq_some_iff]
  simp only [mapRows, List.mem_map, Prod.mk.injEq, Prod.exists, find?_eq_some]
  constructor
  · rintro ⟨k', v, hv, rfl, hw⟩
    exact ⟨v, hv, hw⟩
  · rintro ⟨v, hv, hw⟩
    exact ⟨k, v, hv, rfl, hw⟩

omit [DecidableEq K] in
/-- Rewriting does not change which rows a condition on other columns finds. -/
theorem findMany_mapRows (t : Table K V) {f : K → V → V} {p q : K → V → Bool}
    (hf : ∀ k v, p k (f k v) = q k v) :
    (t.mapRows f).findMany p = (t.findMany q).map fun e ↦ (e.1, f e.1 e.2) := by
  rw [findMany, mapRows, List.filter_map]
  exact congrArg (List.map _) (List.filter_congr fun e _ ↦ hf e.1 e.2)

/-! ## Deletion -/

/-- Removes every row that satisfies a condition. -/
def deleteMany (t : Table K V) (p : K → V → Bool) : Table K V :=
  ⟨t.entries.filter fun e ↦ !p e.1 e.2,
    t.nodupKeys.sublist (List.Sublist.map Prod.fst List.filter_sublist)⟩

@[simp] theorem find?_deleteMany (t : Table K V) (p : K → V → Bool) (k : K) :
    (t.deleteMany p).find? k = (t.find? k).filter fun v ↦ !p k v := by
  refine Option.ext fun w ↦ ?_
  rw [find?_eq_some, Option.filter_eq_some_iff, find?_eq_some]
  simp [deleteMany]

/-- Removes the row under one key, if there is one. -/
def delete (t : Table K V) (k : K) : Table K V := t.deleteMany fun k' _ ↦ k' = k

@[simp] theorem find?_delete (t : Table K V) (k k' : K) :
    (t.delete k).find? k' = if k' = k then none else t.find? k' := by
  rw [delete, find?_deleteMany]
  by_cases hk : k' = k
  · cases h : t.find? k' <;> simp [hk, Option.filter]
  · cases h : t.find? k' <;> simp [hk, Option.filter]

theorem length_delete_le (t : Table K V) (k : K) :
    (t.delete k).entries.length ≤ t.entries.length := List.length_filter_le _ _

/-- Deleting a row that is there leaves fewer of them. -/
theorem length_delete_lt {t : Table K V} {k : K} {v : V} (h : t.find? k = some v) :
    (t.delete k).entries.length < t.entries.length :=
  List.length_filter_lt_length_iff_exists.mpr ⟨(k, v), find?_eq_some.mp h, by simp⟩

/-- A table in which nothing is found is empty. -/
theorem entries_eq_nil {t : Table K V} (h : ∀ k, t.find? k = none) : t.entries = [] := by
  rw [List.eq_nil_iff_forall_not_mem]
  rintro ⟨k, v⟩ hmem
  rw [← find?_eq_some, h] at hmem
  cases hmem

/-! ## Overwriting -/

/-- Writes the row under a key, whether or not the key is taken. -/
def put (t : Table K V) (k : K) (v : V) : Table K V :=
  ⟨(k, v) :: (t.delete k).entries, List.nodup_cons.mpr
    ⟨by simp [delete, deleteMany], (t.delete k).nodupKeys⟩⟩

@[simp] theorem find?_put (t : Table K V) (k : K) (v : V) (k' : K) :
    (t.put k v).find? k' = if k' = k then some v else t.find? k' := by
  by_cases hk : k' = k
  · subst hk
    rw [if_pos rfl, find?_eq_some]
    exact List.mem_cons_self
  · have hdel : (t.put k v).find? k' = (t.delete k).find? k' :=
      find?_congr fun w ↦ by simp [put, hk]
    rw [hdel, find?_delete, if_neg hk, if_neg hk]

theorem length_put_le (t : Table K V) (k : K) (v : V) :
    (t.put k v).entries.length ≤ t.entries.length + 1 :=
  Nat.succ_le_succ (t.length_delete_le k)

/-- Writes the row `f k` under every key `k` of a list. -/
def putAll (t : Table K V) (ks : List K) (f : K → V) : Table K V :=
  ks.foldl (fun t k ↦ t.put k (f k)) t

@[simp] theorem find?_putAll (t : Table K V) (ks : List K) (f : K → V) (k : K) :
    (t.putAll ks f).find? k = if k ∈ ks then some (f k) else t.find? k := by
  unfold putAll
  induction ks generalizing t with
  | nil => rfl
  | cons k' ks ih =>
      rw [List.foldl_cons, ih, find?_put]
      by_cases hk : k = k'
      · subst hk
        simp
      · simp [hk]

end Lookup

/-! ## A part of a table -/

section Restrict

variable [DecidableEq K]

/-- The rows that satisfy a condition, as a function of their keys. -/
def restrict (t : Table K V) (p : V → Bool) (k : K) : Option V := (t.find? k).filter p

theorem restrict_eq_some {t : Table K V} {p : V → Bool} {k : K} {v : V} :
    t.restrict p k = some v ↔ t.find? k = some v ∧ p v := Option.filter_eq_some_iff

variable {t t' : Table K V} {p : V → Bool} {k : K} {v : V}

theorem restrict_of_find? (hv : t.find? k = some v) :
    t.restrict p k = if p v then some v else none := by
  rw [restrict, hv]
  rfl

theorem restrict_eq_none (h : t.find? k = none) : t.restrict p k = none := by
  rw [restrict, h]
  rfl

/-- Two tables that differ under one key only have parts that do. -/
theorem restrict_eq_update (hoff : ∀ k', k' ≠ k → t'.find? k' = t.find? k') (p : V → Bool) :
    t'.restrict p = Function.update (t.restrict p) k (t'.restrict p k) := by
  funext k'
  by_cases hk : k' = k
  · subst hk
    rw [Function.update_self]
  · rw [Function.update_of_ne hk, restrict, hoff k' hk, restrict]

/-- A row outside the part has no place in it. -/
theorem update_restrict_none (h : t.restrict p k = none) :
    Function.update (t.restrict p) k none = t.restrict p := by
  rw [← h, Function.update_eq_self]

/-- An inserted row joins the part, if it belongs to it. -/
theorem restrict_insert (h : t.insert k v = some t') (p : V → Bool) :
    t'.restrict p = if p v then Function.update (t.restrict p) k (some v) else t.restrict p := by
  rw [restrict_eq_update (t := t) (k := k) (fun k' hk ↦ by rw [find?_insert h, if_neg hk]),
    restrict_of_find? (v := v) (by rw [find?_insert h, if_pos rfl])]
  split
  · rfl
  · exact update_restrict_none (restrict_eq_none (insert_eq_some h).1)

/-- An update of one row that keeps it in or out of the part. -/
theorem restrict_update (hv : t.find? k = some v) {f : V → V} (hf : p (f v) = p v) :
    (t.update k f).restrict p =
      if p v then Function.update (t.restrict p) k (some (f v)) else t.restrict p := by
  rw [restrict_eq_update (t := t) (k := k) (fun k' hk ↦ by rw [find?_update, if_neg hk]),
    restrict_of_find? (v := f v) (by simp [hv]), hf]
  split
  · rfl
  · rename_i hp
    exact update_restrict_none (by rw [restrict_of_find? hv, if_neg hp])

theorem restrict_delete (hv : t.find? k = some v) (p : V → Bool) :
    (t.delete k).restrict p =
      if p v then Function.update (t.restrict p) k none else t.restrict p := by
  rw [restrict_eq_update (t := t) (k := k) (fun k' hk ↦ by rw [find?_delete, if_neg hk]),
    restrict_eq_none (t := t.delete k) (by simp)]
  split
  · rfl
  · rename_i hp
    exact update_restrict_none (by rw [restrict_of_find? hv, if_neg hp])

theorem restrict_deleteMany (t : Table K V) (q : K → V → Bool) (p : V → Bool) (k : K) :
    (t.deleteMany q).restrict p k = (t.restrict p k).filter fun v ↦ !q k v := by
  rw [restrict, find?_deleteMany, restrict, Option.filter_filter, Option.filter_filter]
  congr 1
  funext v
  exact Bool.and_comm _ _

end Restrict

/-! ## Rows that are left -/

section Left

variable [DecidableEq K] {γ : Type} {t : Table K V} {col : V → γ}

/-- Every row of `t'` is, as far as the column `col` tells, a row of `t`. -/
def LeftOf (t' t : Table K V) (col : V → γ) : Prop :=
  ∀ ⦃k v'⦄, t'.find? k = some v' → ∃ v, t.find? k = some v ∧ col v = col v'

theorem LeftOf.refl (t : Table K V) (col : V → γ) : t.LeftOf t col := fun _ v hv ↦ ⟨v, hv, rfl⟩

theorem leftOf_updateMany (p : K → V → Bool) {f : V → V} (hf : ∀ v, col (f v) = col v) :
    (t.updateMany p f).LeftOf t col := by
  intro k v' hv'
  rw [find?_updateMany, Option.map_eq_some_iff] at hv'
  obtain ⟨v, hv, rfl⟩ := hv'
  refine ⟨v, hv, ?_⟩
  split
  · exact (hf v).symm
  · rfl

theorem leftOf_deleteMany (p : K → V → Bool) : (t.deleteMany p).LeftOf t col := by
  intro k v' hv'
  rw [find?_deleteMany, Option.filter_eq_some_iff] at hv'
  exact ⟨v', hv'.1, rfl⟩

end Left

/-! ## Unique columns -/

section Unique

variable [DecidableEq K] {γ : Type}

/-- No two rows of the table agree on the column `col`. -/
def UniqueOn (t : Table K V) (col : V → γ) : Prop :=
  ∀ ⦃k k' v v'⦄, t.find? k = some v → t.find? k' = some v' → col v = col v' → k = k'

variable {t : Table K V} {col : V → γ}

/-- A column without repetitions is unique. -/
theorem UniqueOn.of_nodup (h : (t.entries.map fun e ↦ col e.2).Nodup) : t.UniqueOn col := by
  intro k k' v v' hv hv' heq
  exact congrArg Prod.fst
    (List.inj_on_of_nodup_map h (find?_eq_some.mp hv) (find?_eq_some.mp hv') heq)

/-- A scan lists each value of a unique column once. -/
theorem UniqueOn.nodup_findMany (ht : t.UniqueOn col) (p : K → V → Bool) :
    ((t.findMany p).map fun e ↦ col e.2).Nodup := by
  refine List.Nodup.map_on ?_ (t.nodupKeys.of_map.filter _)
  rintro ⟨k, v⟩ hv ⟨k', v'⟩ hv' heq
  obtain ⟨hv, -⟩ := mem_findMany.mp hv
  obtain ⟨hv', -⟩ := mem_findMany.mp hv'
  obtain rfl := ht hv hv' heq
  rw [Option.some.inj (hv.symm.trans hv')]

/-- A row that is new in a column may be inserted. -/
theorem UniqueOn.insert {t' : Table K V} {k : K} {v : V} (ht : t.UniqueOn col)
    (h : t.insert k v = some t') (hnew : ∀ k' v', t.find? k' = some v' → col v' ≠ col v) :
    t'.UniqueOn col := by
  intro k₁ k₂ v₁ v₂ h₁ h₂ heq
  rw [find?_insert h] at h₁ h₂
  split at h₁ <;> split at h₂
  · simp_all
  · cases h₁
    exact absurd heq.symm (hnew _ _ h₂)
  · cases h₂
    exact absurd heq (hnew _ _ h₁)
  · exact ht h₁ h₂ heq

/-- An update that leaves a column alone keeps it unique. -/
theorem UniqueOn.updateMany (ht : t.UniqueOn col) (p : K → V → Bool) {f : V → V}
    (hf : ∀ v, col (f v) = col v) : (t.updateMany p f).UniqueOn col := by
  have hcol : ∀ {k v}, (t.updateMany p f).find? k = some v →
      ∃ w, t.find? k = some w ∧ col v = col w := by
    intro k v hv
    rw [find?_updateMany, Option.map_eq_some_iff] at hv
    obtain ⟨w, hw, rfl⟩ := hv
    exact ⟨w, hw, by split <;> simp [hf]⟩
  intro k k' v v' hv hv' heq
  obtain ⟨w, hw, hcw⟩ := hcol hv
  obtain ⟨w', hw', hcw'⟩ := hcol hv'
  exact ht hw hw' (by rw [← hcw, ← hcw', heq])

/-- Deleting rows keeps every column unique. -/
theorem UniqueOn.deleteMany (ht : t.UniqueOn col) (p : K → V → Bool) :
    (t.deleteMany p).UniqueOn col := by
  intro k k' v v' hv hv' heq
  rw [find?_deleteMany, Option.filter_eq_some_iff] at hv hv'
  exact ht hv.1 hv'.1 heq

end Unique

end Table

end Store
