import Zenstier.Store.Table

/-!
# Tables with owners

Rows that belong to someone.  `Untouched owner t a b` says that the tables differ in rows of the
owner `t` only: no other row is created, modified or deleted.  `Refers` is a foreign key that stays
within an owner: the row it names is there and belongs to whoever has the row that names it.
-/

namespace Store

namespace Table

variable {K L V W O : Type} [DecidableEq K] [DecidableEq L]

/-! ## Rows that are left alone -/

section Untouched

variable {owner : V → O} {t : O} {a b c : Table K V} {k : K} {v : V}

/-- The rows of all other owners are the same in both tables. -/
def Untouched (owner : V → O) (t : O) (a b : Table K V) : Prop :=
  ∀ k v, owner v ≠ t → (b.find? k = some v ↔ a.find? k = some v)

/-- A row that is there belongs to the owner. -/
def Owned (owner : V → O) (t : O) (a : Table K V) (k : K) : Prop :=
  ∀ v, a.find? k = some v → owner v = t

theorem Untouched.refl (owner : V → O) (t : O) (a : Table K V) : Untouched owner t a a :=
  fun _ _ _ ↦ Iff.rfl

theorem Untouched.trans (h : Untouched owner t a b) (h' : Untouched owner t b c) :
    Untouched owner t a c := fun k v hv ↦ (h' k v hv).trans (h k v hv)

/-- What belongs to the owner goes on to. -/
theorem Owned.later (ha : Owned owner t a k) (h : Untouched owner t a b) : Owned owner t b k := by
  intro v hv
  by_contra hne
  exact hne (ha v ((h k v hne).mp hv))

theorem Owned.of_find? (h : a.find? k = some v) (hv : owner v = t) : Owned owner t a k := by
  intro w hw
  rw [h] at hw
  cases hw
  exact hv

/-- A row that has been looked up together with its owner. -/
theorem Owned.of_filter [DecidableEq O] (h : (a.find? k).filter (fun v ↦ owner v = t) = some v) :
    Owned owner t a k := by
  obtain ⟨hv, howner⟩ := Option.filter_eq_some_iff.mp h
  exact .of_find? hv (of_decide_eq_true howner)

/-- There is no row yet. -/
theorem Owned.of_insert (h : a.insert k v = some b) : Owned owner t a k := by
  intro w hw
  rw [(insert_eq_some h).1] at hw
  cases hw

theorem Untouched.insert (h : a.insert k v = some b) (hv : owner v = t) :
    Untouched owner t a b := by
  intro k' v' hne
  rw [find?_insert h]
  by_cases hk : k' = k
  · subst hk
    rw [if_pos rfl, (insert_eq_some h).1]
    refine iff_of_false ?_ (by simp)
    rintro heq
    cases heq
    exact hne hv
  · rw [if_neg hk]

/-- Rows of the owner are rewritten, and stay with the owner. -/
theorem Untouched.updateMany {p : K → V → Bool} {f : V → V}
    (h : ∀ k v, a.find? k = some v → p k v = true → owner v = t ∧ owner (f v) = t) :
    Untouched owner t a (a.updateMany p f) := by
  intro k v hne
  rw [find?_updateMany]
  cases hfind : a.find? k with
  | none => simp
  | some w =>
      rw [Option.map_some]
      by_cases hp : p k w = true
      · obtain ⟨hw, hfw⟩ := h k w hfind hp
        rw [if_pos hp]
        refine iff_of_false ?_ ?_
        · rintro heq
          cases heq
          exact hne hfw
        · rintro heq
          cases heq
          exact hne hw
      · rw [if_neg hp]

theorem Untouched.update {f : V → V} (h : Owned owner t a k)
    (hf : ∀ v, a.find? k = some v → owner (f v) = owner v) :
    Untouched owner t a (a.update k f) := by
  refine Untouched.updateMany fun k' v hv hk ↦ ?_
  have hkey : k' = k := of_decide_eq_true hk
  subst hkey
  exact ⟨h v hv, (hf v hv).trans (h v hv)⟩

theorem Untouched.deleteMany {p : K → V → Bool}
    (h : ∀ k v, a.find? k = some v → p k v = true → owner v = t) :
    Untouched owner t a (a.deleteMany p) := by
  intro k v hne
  rw [find?_deleteMany, Option.filter_eq_some_iff, and_iff_left_iff_imp]
  intro hv
  by_contra hp
  exact hne (h k v hv (by simpa using hp))

theorem Untouched.delete (h : Owned owner t a k) : Untouched owner t a (a.delete k) := by
  refine Untouched.deleteMany fun k' v hv hk ↦ ?_
  have hkey : k' = k := of_decide_eq_true hk
  subst hkey
  exact h v hv

end Untouched

/-! ## References -/

section Refers

variable {owner : V → O} {owner' : W → O} {col : K → V → Option L} {a b : Table K V}
  {a' b' : Table L W} {k : K} {v : V} {l : L} {w : W}

/-- The row that a row names is there, and has the same owner. -/
def Refers (owner : V → O) (owner' : W → O) (col : K → V → Option L) (a : Table K V)
    (a' : Table L W) : Prop :=
  ∀ k v, a.find? k = some v → ∀ l ∈ col k v, ∃ w, a'.find? l = some w ∧ owner' w = owner v

theorem Refers.insert (h : Refers owner owner' col a a') (hins : a.insert k v = some b)
    (hv : ∀ l ∈ col k v, ∃ w, a'.find? l = some w ∧ owner' w = owner v) :
    Refers owner owner' col b a' := by
  intro k' v' hfind
  rw [find?_insert hins] at hfind
  split at hfind
  · rename_i hk
    cases hfind
    exact hk ▸ hv
  · exact h k' v' hfind

theorem Refers.updateMany (h : Refers owner owner' col a a') {p : K → V → Bool} {f : V → V}
    (hf : ∀ k v, a.find? k = some v → p k v = true →
      ∀ l ∈ col k (f v), ∃ w, a'.find? l = some w ∧ owner' w = owner (f v)) :
    Refers owner owner' col (a.updateMany p f) a' := by
  intro k v hfind
  rw [find?_updateMany, Option.map_eq_some_iff] at hfind
  obtain ⟨v', hv', rfl⟩ := hfind
  split
  · rename_i hp
    exact hf k v' hv' hp
  · exact h k v' hv'

theorem Refers.update (h : Refers owner owner' col a a') {f : V → V}
    (hf : ∀ v, a.find? k = some v →
      ∀ l ∈ col k (f v), ∃ w, a'.find? l = some w ∧ owner' w = owner (f v)) :
    Refers owner owner' col (a.update k f) a' := by
  refine h.updateMany fun k' v hv hk ↦ ?_
  have hkey : k' = k := of_decide_eq_true hk
  subst hkey
  exact hf v hv

theorem Refers.deleteMany (h : Refers owner owner' col a a') (p : K → V → Bool) :
    Refers owner owner' col (a.deleteMany p) a' := by
  intro k v hfind
  rw [find?_deleteMany, Option.filter_eq_some_iff] at hfind
  exact h k v hfind.1

/-- The rows that are named are still there, with their owners. -/
theorem Refers.of_target (h : Refers owner owner' col a a')
    (ht : ∀ l w, a'.find? l = some w → ∃ w', b'.find? l = some w' ∧ owner' w' = owner' w) :
    Refers owner owner' col a b' := by
  intro k v hfind l hl
  obtain ⟨w, hw, howner⟩ := h k v hfind l hl
  obtain ⟨w', hw', howner'⟩ := ht l w hw
  exact ⟨w', hw', howner'.trans howner⟩

theorem Refers.target_insert (h : Refers owner owner' col a a') (hins : a'.insert l w = some b') :
    Refers owner owner' col a b' :=
  h.of_target fun _ w' hw' ↦ ⟨w', find?_of_insert hins hw', rfl⟩

theorem Refers.target_updateMany (h : Refers owner owner' col a a') {p : L → W → Bool} {f : W → W}
    (hf : ∀ w, owner' (f w) = owner' w) : Refers owner owner' col a (a'.updateMany p f) := by
  refine h.of_target fun l w hw ↦ ?_
  refine ⟨if p l w then f w else w, by rw [find?_updateMany, hw, Option.map_some], ?_⟩
  split
  · exact hf w
  · rfl

/-- A row that none names may go. -/
theorem Refers.target_delete (h : Refers owner owner' col a a')
    (hl : ∀ k v, a.find? k = some v → col k v ≠ some l) :
    Refers owner owner' col a (a'.delete l) := by
  intro k v hfind l' hl'
  obtain ⟨w, hw, howner⟩ := h k v hfind l' hl'
  refine ⟨w, ?_, howner⟩
  rw [find?_delete, if_neg, hw]
  rintro rfl
  exact hl k v hfind hl'

/-! ## What goes with a row -/

variable {t : O} {f : V → V}

/-- The rows that name a row of the owner are the owner's: they may be rewritten. -/
theorem Untouched.unlink (h : Refers owner owner' col a a') (hl : Owned owner' t a' l)
    (hf : ∀ v, owner (f v) = owner v) :
    Untouched owner t a (a.updateMany (fun k v ↦ col k v = some l) f) := by
  refine Untouched.updateMany fun k v hv hcol ↦ ?_
  obtain ⟨w, hw, howner⟩ := h k v hv l (of_decide_eq_true hcol)
  have hteam : owner v = t := howner.symm.trans (hl w hw)
  exact ⟨hteam, (hf v).trans hteam⟩

/-- They may be deleted. -/
theorem Untouched.cascade (h : Refers owner owner' col a a') (hl : Owned owner' t a' l) :
    Untouched owner t a (a.deleteMany fun k v ↦ col k v = some l) := by
  refine Untouched.deleteMany fun k v hv hcol ↦ ?_
  obtain ⟨w, hw, howner⟩ := h k v hv l (of_decide_eq_true hcol)
  exact howner.symm.trans (hl w hw)

/-- A row goes, and the rows that named it name none. -/
theorem Refers.unlink (h : Refers owner owner' col a a') (hf : ∀ k v, col k (f v) = none) :
    Refers owner owner' col (a.updateMany (fun k v ↦ col k v = some l) f) (a'.delete l) := by
  refine Refers.target_delete (h.updateMany fun k v _ _ l' hl' ↦ ?_) fun k v hfind ↦ ?_
  · rw [hf k v] at hl'
    cases hl'
  · rw [find?_updateMany, Option.map_eq_some_iff] at hfind
    obtain ⟨v', -, rfl⟩ := hfind
    split
    · rw [hf k v']
      exact Option.some_ne_none l |>.symm
    · rename_i hcol
      exact of_decide_eq_false (Bool.eq_false_iff.mpr hcol)

/-- A row goes, and the rows that named it with it. -/
theorem Refers.cascade (h : Refers owner owner' col a a') :
    Refers owner owner' col (a.deleteMany fun k v ↦ col k v = some l) (a'.delete l) := by
  refine (h.deleteMany _).target_delete fun k v hfind ↦ ?_
  rw [find?_deleteMany, Option.filter_eq_some_iff] at hfind
  simpa using hfind.2

/-! ## The rows of one owner -/

variable [DecidableEq O] {p : K → V → Bool}

/-- What is there for one that sees the rows of one owner only. -/
def rowsOf (owner : V → O) (t : O) (a : Table K V) : Table K V :=
  a.deleteMany fun _ v ↦ owner v ≠ t

theorem find?_rowsOf : (a.rowsOf owner t).find? k = (a.find? k).filter fun v ↦ owner v = t := by
  rw [rowsOf, find?_deleteMany]
  exact congrArg (Option.filter · _) (funext fun v ↦ by simp)

omit [DecidableEq K] in
/-- A search for rows of the owner needs no others. -/
theorem findMany_rowsOf (hp : ∀ k v, p k v = true → owner v = t) :
    (a.rowsOf owner t).findMany p = a.findMany p := by
  rw [findMany, rowsOf, deleteMany, List.filter_filter]
  refine List.filter_congr fun e _ ↦ ?_
  cases hpe : p e.1 e.2 with
  | false => rfl
  | true => simp [hp e.1 e.2 hpe]

/-- Nor does one that goes on to the row that such a row names. -/
theorem Refers.find?_rowsOf (h : Refers owner owner' col a a') (hv : a.find? k = some v)
    (howner : owner v = t) (hl : col k v = some l) :
    (a'.rowsOf owner' t).find? l = a'.find? l := by
  obtain ⟨w, hw, hw'⟩ := h k v hv l hl
  rw [Table.find?_rowsOf, hw, Option.filter_some, if_pos (by simp [hw', howner])]

end Refers

end Table

end Store
