import Mathlib.Data.List.TakeWhile
import Zenstier.Store.Table

/-!
# The environment of a command

`buildEnv` of the executor makes the environment of a process from a few variables of its own and
from those that have come with the command.  It leaves out what could subvert the shell, by the
keys of the map.  The process gets a list of strings, and to the process the name of a variable
ends at the first `=`, wherever in the string that is.
-/

namespace Zenstier.Agent

open Store

section Upper

-- The upper case of a character beyond ASCII, which is beyond ASCII as well but for two of them.
variable (other : Char → {c : Char // 128 ≤ c.val})

/-- `unicode.ToUpper`.  There are two characters beyond ASCII whose upper case is not. -/
def upperRune (c : Char) : Char :=
  if c.val < 128 then c.toUpper
  else if c = 'ı' then 'I'
  else if c = 'ſ' then 'S'
  else (other c).val

/-- `strings.ToUpper`. -/
def toUpper (s : String) : String := String.ofList (s.toList.map (upperRune other))

theorem toUpper_ascii {s : String} (h : ∀ c ∈ s.toList, c.val < 128) :
    toUpper other s = String.ofList (s.toList.map Char.toUpper) := by
  rw [toUpper]
  congr 1
  exact List.map_congr_left fun c hc ↦ if_pos (h c hc)

theorem mem_toUpper {s : String} (h : '=' ∈ s.toList) : '=' ∈ (toUpper other s).toList := by
  rw [toUpper, String.toList_ofList, List.mem_map]
  exact ⟨'=', h, rfl⟩

end Upper

/-- Variables that can subvert the shell. -/
def denied : List String := ["LD_PRELOAD", "LD_LIBRARY_PATH", "IFS", "BASH_ENV", "ENV"]

theorem not_mem_denied {s : String} (h : '=' ∈ s.toList) : s ∉ denied := by
  intro hs
  have hall : ∀ s ∈ denied, '=' ∉ s.toList := by decide
  exact hall s hs h

/-- The variables that are not from the command. -/
def baseEnv (id home username : String) : List (String × String) :=
  [("PATH", "/usr/local/sbin:/usr/local/bin:/usr/sbin:/usr/bin:/sbin:/bin"), ("HOME", home),
    ("USER", username), ("LOGNAME", username), ("SHELL", "/bin/sh"), ("LANG", "C.UTF-8"),
    ("TERM", "dumb"), ("DEBIAN_FRONTEND", "noninteractive"), ("ZENSTIER_COMMAND_ID", id)]

section BuildEnv

variable (other : Char → {c : Char // 128 ≤ c.val}) (lookup : String → Option (String × String))

/-- A variable from the wire, unless it is denied. -/
def putEnv (env : Table String String) (e : String × String) : Table String String :=
  if toUpper other e.1 ∈ denied then env else env.put e.1 e.2

/-- The home directory and the name of the user. -/
def homeOf (runAs : String) : String × String :=
  if runAs ≠ "" then (lookup runAs).getD ("/root", "root") else ("/root", "root")

/-- The environment as a map.  Every key comes once, so that the order does not matter. -/
def envMap (id runAs : String) (cmdEnv : Table String String) : Table String String :=
  let (home, username) := homeOf lookup runAs
  cmdEnv.entries.foldl (putEnv other)
    ((baseEnv id home username).foldl (fun env e ↦ env.put e.1 e.2) ∅)

def buildEnv (id runAs : String) (cmdEnv : Table String String) : List String :=
  (envMap other lookup id runAs cmdEnv).entries.map fun e ↦ e.1 ++ "=" ++ e.2

end BuildEnv

/-! ## What the process reads -/

/-- The name of a variable, as a process reads it. -/
def entryName (entry : String) : String := String.ofList (entry.toList.takeWhile (· ≠ '='))

theorem entryName_of_not_mem {k : String} (h : '=' ∉ k.toList) : entryName k = k := by
  have hall : k.toList.takeWhile (· ≠ '=') = k.toList :=
    List.takeWhile_eq_self_iff.mpr fun c hc ↦ decide_eq_true fun heq ↦ h (heq ▸ hc)
  rw [entryName, hall, String.ofList_toList]

/-- What follows the key is not part of the name. -/
theorem entryName_append (k v : String) : entryName (k ++ "=" ++ v) = entryName k := by
  have htake : ∀ l : List Char,
      (l ++ '=' :: v.toList).takeWhile (· ≠ '=') = l.takeWhile (· ≠ '=') := by
    intro l
    induction l with
    | nil => rfl
    | cons c l ih =>
        rw [List.cons_append, List.takeWhile_cons, List.takeWhile_cons, ih]
  rw [entryName, String.toList_append, String.toList_append, List.append_assoc]
  exact congrArg String.ofList (htake k.toList)

section Names

variable (other : Char → {c : Char // 128 ≤ c.val}) (lookup : String → Option (String × String))
  (id runAs : String) (cmdEnv : Table String String)

/-- No variable is one of those that are denied, whatever its case. -/
def Sanitized (env : List String) : Prop :=
  ∀ entry ∈ env, toUpper other (entryName entry) ∉ denied

theorem sanitized_iff_keys :
    Sanitized other (buildEnv other lookup id runAs cmdEnv) ↔
      ∀ k, ((envMap other lookup id runAs cmdEnv).find? k).isSome →
        toUpper other (entryName k) ∉ denied := by
  simp only [Sanitized, buildEnv, List.forall_mem_map, entryName_append, Prod.forall,
    Option.isSome_iff_exists, forall_exists_index, Table.find?_eq_some]

variable {other}

theorem isSome_putEnv (k : String) (es : List (String × String)) (env : Table String String) :
    ((es.foldl (putEnv other) env).find? k).isSome ↔
      (env.find? k).isSome ∨ k ∈ es.map Prod.fst ∧ toUpper other k ∉ denied := by
  induction es generalizing env with
  | nil => simp
  | cons e es ih =>
      rw [List.foldl_cons, ih, putEnv]
      split
      · rename_i hdenied
        by_cases hk : k = e.1
        · subst hk
          simp [hdenied]
        · simp [hk]
      · rename_i hallowed
        rw [Table.find?_put]
        by_cases hk : k = e.1
        · simp [hk, hallowed]
        · simp [hk]

theorem isSome_base (k : String) (es : List (String × String)) (env : Table String String) :
    ((es.foldl (fun env e ↦ env.put e.1 e.2) env).find? k).isSome ↔
      (env.find? k).isSome ∨ k ∈ es.map Prod.fst := by
  induction es generalizing env with
  | nil => simp
  | cons e es ih =>
      rw [List.foldl_cons, ih, Table.find?_put]
      by_cases hk : k = e.1
      · simp [hk]
      · simp [hk]

/-- The variables are the agent's own ones and those of the command that pass. -/
theorem isSome_envMap (k : String) :
    ((envMap other lookup id runAs cmdEnv).find? k).isSome ↔
      k ∈ (baseEnv id (homeOf lookup runAs).1 (homeOf lookup runAs).2).map Prod.fst ∨
        (cmdEnv.find? k).isSome ∧ toUpper other k ∉ denied := by
  have hmem : k ∈ cmdEnv.entries.map Prod.fst ↔ (cmdEnv.find? k).isSome := by
    rw [Option.isSome_iff_exists]
    simp [Table.find?_eq_some]
  rw [envMap, isSome_putEnv, isSome_base, hmem]
  simp

/-- None of the agent's own variables is denied. -/
theorem base_allowed (id home username : String) {k : String}
    (hk : k ∈ (baseEnv id home username).map Prod.fst) : toUpper other (entryName k) ∉ denied := by
  have hascii : ∀ k ∈ ["PATH", "HOME", "USER", "LOGNAME", "SHELL", "LANG", "TERM",
      "DEBIAN_FRONTEND", "ZENSTIER_COMMAND_ID"],
      (entryName k).toList.all (fun c ↦ c.val < 128) = true ∧
        String.ofList ((entryName k).toList.map Char.toUpper) ∉ denied := by
    decide +kernel
  obtain ⟨hall, hdenied⟩ := hascii k hk
  have hc : ∀ c ∈ (entryName k).toList, c.val < 128 := fun c hc ↦
    of_decide_eq_true (List.all_eq_true.mp hall c hc)
  rwa [toUpper_ascii other hc]

/-- The environment is free of the variables that are denied, just if no key with a `=` in it
begins with one of them. -/
theorem buildEnv_sanitized_iff (other : Char → {c : Char // 128 ≤ c.val})
    (lookup : String → Option (String × String)) (id runAs : String)
    (cmdEnv : Table String String) :
    Sanitized other (buildEnv other lookup id runAs cmdEnv) ↔
      ∀ k v, cmdEnv.find? k = some v → '=' ∈ k.toList → toUpper other (entryName k) ∉ denied := by
  rw [sanitized_iff_keys]
  constructor
  · intro h k v hk hmem
    refine h k ((isSome_envMap lookup id runAs cmdEnv k).mpr (.inr ⟨?_, ?_⟩))
    · rw [hk]
      rfl
    · exact not_mem_denied (mem_toUpper other hmem)
  · intro h k hk
    rcases (isSome_envMap lookup id runAs cmdEnv k).mp hk with hbase | ⟨hwire, hallowed⟩
    · exact base_allowed _ _ _ hbase
    · by_cases hmem : '=' ∈ k.toList
      · obtain ⟨v, hv⟩ := Option.isSome_iff_exists.mp hwire
        exact h k v hv hmem
      · rwa [entryName_of_not_mem hmem]

end Names

/-- A key that goes on after the name of a variable that is denied. -/
theorem buildEnv_not_sanitized :
    ¬ ∀ (other : Char → {c : Char // 128 ≤ c.val}) (lookup : String → Option (String × String))
        (id runAs : String) (cmdEnv : Table String String),
      Sanitized other (buildEnv other lookup id runAs cmdEnv) := by
  intro hall
  let cmdEnv : Table String String := (∅ : Table String String).put "LD_PRELOAD=/tmp/a.so " ""
  have h := hall (fun _ ↦ ⟨'é', by decide⟩) (fun _ ↦ none) "id" "" cmdEnv
    ("LD_PRELOAD=/tmp/a.so " ++ "=" ++ "") (by decide +kernel)
  exact absurd h (by decide +kernel)

end Zenstier.Agent
