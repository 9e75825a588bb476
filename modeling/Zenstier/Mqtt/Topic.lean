import Mathlib.Data.List.Basic

/-!
# Topics and topic filters

A topic is a string whose levels are separated by slashes.  A filter is a topic in which a
level `+` stands for any level and a last level `#` for any levels that follow, none
included.  Topics that start with a dollar sign are matched only by filters that do.
-/

namespace Mqtt

/-- The levels of a topic. -/
def levels (topic : String) : List String := (topic.toList.splitOn '/').map String.ofList

/-- The levels of two topics that are joined by a slash. -/
theorem levels_join (s t : String) : levels (s ++ "/" ++ t) = levels s ++ levels t := by
  have hlist : (s ++ "/" ++ t).toList = s.toList ++ '/' :: t.toList := by
    rw [String.toList_append, String.toList_append, List.append_assoc]
    rfl
  rw [levels, hlist, List.splitOn_append_cons_self, List.map_append]
  rfl

theorem levels_of_notMem {s : String} (h : '/' ∉ s.toList) : levels s = [s] := by
  rw [levels, List.splitOn_eq_singleton h, List.map_singleton, String.ofList_toList]

theorem intercalate_splitOn (cs : List Char) : ['/'].intercalate (cs.splitOn '/') = cs :=
  List.intercalate_splitOn '/'

/-- A topic is given by its levels. -/
theorem levels_inj {s t : String} (h : levels s = levels t) : s = t := by
  have hlist : s.toList.splitOn '/' = t.toList.splitOn '/' :=
    List.map_injective_iff.mpr (fun _ _ ↦ String.ofList_injective) h
  have hjoin : s.toList = t.toList := by
    rw [← intercalate_splitOn s.toList, hlist, intercalate_splitOn]
  exact String.toList_injective hjoin

/-- A topic of a single level. -/
theorem eq_of_levels {s t : String} (h : levels s = [t]) : s = t := by
  have hcs : s.toList.splitOn '/' = [t.toList] := by
    have := congrArg (List.map String.toList) h
    simpa [levels] using this
  have hjoin : s.toList = t.toList := by
    rw [← intercalate_splitOn s.toList, hcs]
    simp [List.intercalate]
  exact String.toList_injective hjoin

/-! ## Filters -/

/-- Matches the levels of a topic against the levels of a filter. -/
def matchLevels : List String → List String → Bool
  | [], ts => ts.isEmpty
  | f :: fs, ts =>
      if f = "#" ∧ fs = [] then true
      else match ts with
        | [] => false
        | t :: ts => (f = "+" || f = t) && matchLevels fs ts

/-- The topic belongs to the broker itself. -/
def isReserved (topic : String) : Bool := topic.toList.head? = some '$'

/-- The filter matches the topic. -/
def matchTopic (filter topic : String) : Bool :=
  isReserved filter = isReserved topic && matchLevels (levels filter) (levels topic)

/-- A filter without wildcards. -/
def Literal (filter : String) : Prop := '+' ∉ filter.toList ∧ '#' ∉ filter.toList

/-- A part of a list that has been split is made of elements of the list. -/
theorem mem_of_mem_splitOn {a c : Char} {xs l : List Char} (h : l ∈ xs.splitOn a) (hc : c ∈ l) :
    c ∈ xs := by
  induction xs generalizing l with
  | nil =>
      rw [List.splitOn_nil, List.mem_singleton] at h
      exact h ▸ hc
  | cons x xs ih =>
      rw [List.splitOn_cons_eq_if_modifyHead] at h
      split at h
      · rcases List.mem_cons.mp h with rfl | h
        · cases hc
        · exact List.mem_cons_of_mem x (ih h hc)
      · cases hsplit : xs.splitOn a with
        | nil => exact absurd hsplit (List.splitOn_ne_nil a xs)
        | cons p ps =>
            rw [hsplit, List.modifyHead_cons] at h
            rcases List.mem_cons.mp h with rfl | h
            · rcases List.mem_cons.mp hc with rfl | hc
              · exact List.mem_cons_self
              · exact List.mem_cons_of_mem x (ih (hsplit ▸ List.mem_cons_self) hc)
            · exact List.mem_cons_of_mem x (ih (hsplit ▸ List.mem_cons_of_mem p h) hc)

/-- The characters of a level are characters of the topic. -/
theorem mem_of_mem_levels {s l : String} (h : l ∈ levels s) {c : Char} (hc : c ∈ l.toList) :
    c ∈ s.toList := by
  obtain ⟨cs, hcs, rfl⟩ := List.mem_map.mp h
  rw [String.toList_ofList] at hc
  exact mem_of_mem_splitOn hcs hc

theorem matchLevels_literal {fs : List String} (hfs : ∀ f ∈ fs, f ≠ "+" ∧ f ≠ "#")
    (ts : List String) : matchLevels fs ts = true ↔ ts = fs := by
  induction fs generalizing ts with
  | nil =>
      rw [matchLevels]
      exact List.isEmpty_iff
  | cons f fs ih =>
      obtain ⟨⟨hplus, hhash⟩, hfs⟩ := List.forall_mem_cons.mp hfs
      unfold matchLevels
      rw [if_neg fun h ↦ hhash h.1]
      cases ts with
      | nil => simp only [Bool.false_eq_true, reduceCtorEq]
      | cons t ts =>
          simp only [hplus, decide_false, Bool.false_or, Bool.and_eq_true, decide_eq_true_eq,
            ih hfs, List.cons.injEq, eq_comm (a := f)]

/-- Where the last level of a filter is no wildcard, it is the last level of what matches. -/
theorem getLast?_of_matchLevels {fs ts : List String} (hfs : "#" ∉ fs) {l : String}
    (hl : fs.getLast? = some l) (hplus : l ≠ "+") (h : matchLevels fs ts = true) :
    ts.getLast? = some l := by
  induction fs generalizing ts with
  | nil => cases hl
  | cons f fs ih =>
      rw [List.mem_cons, not_or] at hfs
      unfold matchLevels at h
      rw [if_neg fun hf ↦ hfs.1 hf.1.symm] at h
      cases ts with
      | nil => cases h
      | cons t ts =>
          obtain ⟨ht, hts⟩ := Bool.and_eq_true_iff.mp h
          cases fs with
          | nil =>
              obtain rfl := List.isEmpty_iff.mp hts
              rw [List.getLast?_singleton] at hl
              obtain rfl := Option.some.inj hl
              have hf : f = t := by simpa [hplus] using ht
              rw [hf]
              rfl
          | cons f' fs =>
              rw [List.getLast?_cons_cons] at hl
              have hlast := ih hfs.2 hl hts
              cases ts with
              | nil => cases hlast
              | cons t' ts =>
                  rw [List.getLast?_cons_cons]
                  exact hlast

/-- A filter without wildcards matches just the topic that it is. -/
theorem matchTopic_literal {filter : String} (h : Literal filter) (topic : String) :
    matchTopic filter topic = true ↔ topic = filter := by
  have hfs : ∀ f ∈ levels filter, f ≠ "+" ∧ f ≠ "#" := by
    intro f hf
    constructor
    · rintro rfl
      exact h.1 (mem_of_mem_levels hf (by decide))
    · rintro rfl
      exact h.2 (mem_of_mem_levels hf (by decide))
  rw [matchTopic, Bool.and_eq_true, matchLevels_literal hfs, decide_eq_true_iff]
  constructor
  · intro hm
    exact levels_inj hm.2
  · rintro rfl
    exact ⟨rfl, rfl⟩

end Mqtt
