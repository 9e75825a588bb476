import Mathlib.Data.List.Forall2
import Zenstier.Text.JsonString

/-!
# Flat JSON objects

Objects whose values are strings, whole numbers, lists of strings and the like, as compact texts:
what two programs that exchange records need of JSON.  `Reads item text a` says that a reader finds
`a` at the beginning of a text wherever an object or a list goes on or ends after it; a text that
is put together from such parts is read as the whole.
-/

namespace FlatJson

/-! ## Objects -/

inductive Value
  | null
  | bool (b : Bool)
  | number (n : Int)
  | string (s : String)
  | strings (l : List String)
deriving DecidableEq, Repr

abbrev Object := List (String × Value)

/-- The value of a name; the last one counts. -/
def find (o : Object) (name : String) : Option Value :=
  (o.reverse.find? fun m ↦ m.1 = name).map (·.2)

@[simp] theorem find_nil (name : String) : find [] name = none := rfl

@[simp] theorem find_append (o o' : Object) (name : String) :
    find (o ++ o') name = (find o' name).or (find o name) := by
  rw [find, find, find, List.reverse_append, List.find?_append]
  cases o'.reverse.find? fun m ↦ decide (m.1 = name) <;> rfl

@[simp] theorem find_cons (m : String × Value) (o : Object) (name : String) :
    find (m :: o) name = (find o name).or (if m.1 = name then some m.2 else none) := by
  rw [← List.singleton_append, find_append]
  congr 1
  by_cases h : m.1 = name <;> simp [find, h]

/-! ## Reading -/

/-- What stands up to the closing quote, and what comes after it. -/
def literal : List Char → Option (List Char × List Char)
  | [] => none
  | '"' :: text => some ([], text)
  | '\\' :: c :: text => (literal text).map fun r ↦ ('\\' :: c :: r.1, r.2)
  | c :: text => (literal text).map fun r ↦ (c :: r.1, r.2)

/-- Reads a string. -/
def string : List Char → Option (String × List Char)
  | '"' :: text => (literal text).bind fun r ↦
      (JsonString.decode r.1).map fun s ↦ (String.ofList s, r.2)
  | _ => none

/-- Reads digits, without a zero in front of others. -/
def digits (text : List Char) : Option (Nat × List Char) :=
  let ds := text.takeWhile Char.isDigit
  let n := Nat.ofDigitChars 10 ds 0
  if Nat.toDigits 10 n = ds then some (n, text.dropWhile Char.isDigit) else none

/-- Reads a whole number. -/
def int : List Char → Option (Int × List Char)
  | '-' :: text => (digits text).map fun r ↦ (-r.1, r.2)
  | text => (digits text).map fun r ↦ (r.1, r.2)

/-- Reads what is separated by commas, up to the closing bracket. -/
def separated {α : Type} (item : List Char → Option (α × List Char)) (close : Char) :
    Nat → List Char → Option (List α × List Char)
  | 0, _ => none
  | fuel + 1, text => (item text).bind fun r ↦ match r.2 with
      | c :: text =>
          if c = close then some ([r.1], text)
          else if c = ',' then
            (separated item close fuel text).map fun r' ↦ (r.1 :: r'.1, r'.2)
          else none
      | [] => none

/-- Reads what stands between two brackets. -/
def bracketed {α : Type} (item : List Char → Option (α × List Char)) (opening close : Char)
    (text : List Char) : Option (List α × List Char) :=
  match text with
  | c :: text =>
      if c ≠ opening then none
      else if text.head? = some close then some ([], text.tail)
      else separated item close text.length text
  | [] => none

/-- Reads a value. -/
def value (text : List Char) : Option (Value × List Char) :=
  match text with
  | 'n' :: 'u' :: 'l' :: 'l' :: text => some (.null, text)
  | 't' :: 'r' :: 'u' :: 'e' :: text => some (.bool true, text)
  | 'f' :: 'a' :: 'l' :: 's' :: 'e' :: text => some (.bool false, text)
  | '"' :: _ => (string text).map fun r ↦ (.string r.1, r.2)
  | '[' :: _ => (bracketed string '[' ']' text).map fun r ↦ (.strings r.1, r.2)
  | _ => (int text).map fun r ↦ (.number r.1, r.2)

/-- Reads a name and its value. -/
def member (text : List Char) : Option ((String × Value) × List Char) :=
  (string text).bind fun r ↦ match r.2 with
    | ':' :: text => (value text).map fun r' ↦ ((r.1, r'.1), r'.2)
    | _ => none

/-- Reads an object, with nothing after it. -/
def parse (text : List Char) : Option Object :=
  (bracketed member '{' '}' text).bind fun r ↦ if r.2 = [] then some r.1 else none

/-! ## What is written is read -/

/-- After the text an object or a list goes on or ends. -/
def Stops (text : List Char) : Prop := ∃ c rest, text = c :: rest ∧ c ∈ [',', ']', '}']

/-- The reader finds `a` in the text, whatever comes after it. -/
def Reads {α : Type} (item : List Char → Option (α × List Char)) (text : List Char) (a : α) :
    Prop := ∀ rest, Stops rest → item (text ++ rest) = some (a, rest)

theorem Reads.cons {α : Type} {item : List Char → Option (α × List Char)} {text : List Char}
    {a : α} (h : Reads item text a) {c : Char} (hc : c ∈ [',', ']', '}']) (rest : List Char) :
    item (text ++ c :: rest) = some (a, c :: rest) := h _ ⟨c, rest, rfl, hc⟩

section Separated

variable {α : Type} {item : List Char → Option (α × List Char)} {close : Char}
  {texts : List (List Char)} {l : List α}

/-- Parts that are read, with commas between them. -/
theorem separated_reads (hclose : close = ']' ∨ close = '}')
    (h : List.Forall₂ (Reads item) texts l) (hne : texts ≠ []) {fuel : Nat}
    (hfuel : texts.length ≤ fuel) (rest : List Char) :
    separated item close fuel ([','].intercalate texts ++ close :: rest) = some (l, rest) := by
  have hstops : close ∈ [',', ']', '}'] := by
    rcases hclose with rfl | rfl <;> simp
  have hcomma : ¬ ',' = close := by
    rcases hclose with rfl | rfl <;> decide
  induction h generalizing fuel with
  | nil => exact absurd rfl hne
  | @cons text a texts l ha hrest ih =>
      obtain ⟨fuel, rfl⟩ : ∃ n, fuel = n + 1 :=
        Nat.exists_eq_succ_of_ne_zero (by rw [List.length_cons] at hfuel; omega)
      by_cases hnil : texts = []
      · subst hnil
        cases hrest
        rw [List.intercalate_singleton, separated, ha.cons hstops]
        simp
      · rw [List.intercalate_cons_of_ne_nil hnil, List.append_assoc, List.append_assoc, separated,
          List.singleton_append, ha.cons List.mem_cons_self]
        have hnext := ih hnil (Nat.le_of_succ_le_succ hfuel)
        simp [hcomma, hnext]

/-- Texts that are not empty are no more than the characters that they have together. -/
theorem length_le_intercalate (h : ∀ text ∈ texts, text ≠ []) :
    texts.length ≤ ([','].intercalate texts).length := by
  induction texts with
  | nil => exact Nat.le_refl 0
  | cons text texts ih =>
      have hpos : 0 < text.length := List.length_pos_of_ne_nil (h text List.mem_cons_self)
      have hrest := ih fun text hmem ↦ h text (List.mem_cons_of_mem _ hmem)
      by_cases hnil : texts = []
      · subst hnil
        rw [List.intercalate_singleton]
        exact hpos
      · rw [List.intercalate_cons_of_ne_nil hnil, List.length_append, List.length_append]
        simp only [List.length_cons, List.length_nil]
        omega

/-- A list or an object. -/
theorem bracketed_reads {opening : Char} (hclose : close = ']' ∨ close = '}')
    (h : List.Forall₂ (Reads item) texts l)
    (hfirst : ∀ text ∈ texts, text ≠ [] ∧ text.head? ≠ some close) (rest : List Char) :
    bracketed item opening close (opening :: ([','].intercalate texts ++ close :: rest)) =
      some (l, rest) := by
  rw [bracketed, if_neg (fun h ↦ h rfl)]
  cases h with
  | nil => simp
  | @cons text a texts l ha hrest =>
      have hne : text :: texts ≠ [] := List.cons_ne_nil _ _
      have hhead : ([','].intercalate (text :: texts) ++ close :: rest).head? ≠ some close := by
        obtain ⟨htext, hhead⟩ := hfirst text List.mem_cons_self
        obtain ⟨c, cs, rfl⟩ := List.exists_cons_of_ne_nil htext
        by_cases hnil : texts = []
        · subst hnil
          rw [List.intercalate_singleton]
          exact hhead
        · rw [List.intercalate_cons_of_ne_nil hnil]
          exact hhead
      rw [if_neg hhead]
      refine separated_reads hclose (.cons ha hrest) hne ?_ rest
      have hlength := length_le_intercalate fun text hmem ↦ (hfirst text hmem).1
      rw [List.length_append]
      omega

end Separated

/-! ### Strings -/

/-- The characters stand for one character of a string. -/
structure Stands (u : List Char) (c : Char) : Prop where
  literal : ∀ text, literal (u ++ text) = (literal text).map fun r ↦ (u ++ r.1, r.2)
  decode : ∀ text, JsonString.decode (u ++ text) = (JsonString.decode text).map (c :: ·)

theorem literal_cons {c : Char} (hquote : c ≠ '"') (hslash : c ≠ '\\') (text : List Char) :
    literal (c :: text) = (literal text).map fun r ↦ (c :: r.1, r.2) := by
  rw [literal]
  · rintro rfl
    exact absurd rfl hquote
  · rintro c' text' rfl
    exact fun _ ↦ hslash rfl

theorem literal_escape (e : Char) (text : List Char) :
    literal ('\\' :: e :: text) = (literal text).map fun r ↦ ('\\' :: e :: r.1, r.2) := by
  rw [literal]

theorem hexDigit_plain {n : Nat} (h : n < 16) :
    JsonString.hexDigit n ≠ '"' ∧ JsonString.hexDigit n ≠ '\\' := by
  have hall : ∀ n : Fin 16, JsonString.hexDigit n ≠ '"' ∧ JsonString.hexDigit n ≠ '\\' := by decide
  exact hall ⟨n, h⟩

theorem literal_unicodeEscape (n : Nat) (text : List Char) :
    literal (JsonString.unicodeEscape n ++ text) =
      (literal text).map fun r ↦ (JsonString.unicodeEscape n ++ r.1, r.2) := by
  have hplain : ∀ m, JsonString.hexDigit (m % 16) ≠ '"' ∧ JsonString.hexDigit (m % 16) ≠ '\\' :=
    fun m ↦ hexDigit_plain (Nat.mod_lt m (by decide))
  simp only [JsonString.unicodeEscape, List.cons_append, List.nil_append]
  rw [literal_escape, literal_cons (hplain _).1 (hplain _).2,
    literal_cons (hplain _).1 (hplain _).2, literal_cons (hplain _).1 (hplain _).2,
    literal_cons (hplain _).1 (hplain _).2]
  simp [Option.map_map, Function.comp_def]

theorem stands_self {c : Char} (hshort : JsonString.shortEscape c = none)
    (hcontrol : ¬ c.toNat < 0x20) : Stands [c] c := by
  obtain ⟨hquote, hslash⟩ := JsonString.ne_of_shortEscape_none hshort
  refine ⟨literal_cons hquote hslash, fun text ↦ ?_⟩
  show JsonString.decode (c :: text) = _
  rw [JsonString.decode, if_neg]
  · rintro (h | h | h)
    · exact hquote h
    · exact hslash h
    · exact hcontrol h
  · rintro a b d d' rest rfl
    exact fun _ ↦ hslash rfl
  · rintro e rest rfl
    exact fun _ ↦ hslash rfl

theorem stands_shortEscape {c e : Char} (h : JsonString.shortEscape c = some e) :
    Stands ['\\', e] c := by
  obtain ⟨hread, hu⟩ := JsonString.ofShortEscape_shortEscape h
  refine ⟨literal_escape e, fun text ↦ ?_⟩
  show JsonString.decode ('\\' :: e :: text) = _
  rw [JsonString.decode, hread]
  · rfl
  · rintro a b d d' rest rfl
    exact absurd rfl hu

theorem stands_unicodeEscape {c : Char} (h : c.toNat < 0x10000) :
    Stands (JsonString.unicodeEscape c.toNat) c :=
  ⟨literal_unicodeEscape _, JsonString.decode_unicodeEscape_append h⟩

/-- The characters of Go. -/
theorem stands_escapeChar (c : Char) : Stands (JsonString.escapeChar c) c := by
  unfold JsonString.escapeChar
  cases hshort : JsonString.shortEscape c with
  | some e => exact stands_shortEscape hshort
  | none =>
      dsimp only
      split
      · rename_i hesc
        exact stands_unicodeEscape hesc.toNat_lt
      · rename_i hplain
        exact stands_self hshort fun h ↦ hplain (.inl h)

/-- How `JSON.stringify` writes a character. -/
def quoteChar (c : Char) : List Char :=
  match JsonString.shortEscape c with
  | some e => ['\\', e]
  | none => if c.toNat < 0x20 then JsonString.unicodeEscape c.toNat else [c]

theorem stands_quoteChar (c : Char) : Stands (quoteChar c) c := by
  unfold quoteChar
  cases hshort : JsonString.shortEscape c with
  | some e => exact stands_shortEscape hshort
  | none =>
      dsimp only
      split
      · exact stands_unicodeEscape (by omega)
      · rename_i hplain
        exact stands_self hshort hplain

/-- A string, written character by character. -/
def quoted (write : Char → List Char) (s : String) : List Char :=
  '"' :: s.toList.flatMap write ++ ['"']

/-- A string that is written is read, whatever comes after it. -/
theorem string_append {write : Char → List Char} {s : String}
    (h : ∀ c ∈ s.toList, Stands (write c) c) (rest : List Char) :
    string (quoted write s ++ rest) = some (s, rest) := by
  have hliteral : ∀ text : List Char, (∀ c ∈ text, Stands (write c) c) →
      literal (text.flatMap write ++ '"' :: rest) = some (text.flatMap write, rest) ∧
        JsonString.decode (text.flatMap write) = some text := by
    intro text htext
    induction text with
    | nil => exact ⟨rfl, rfl⟩
    | cons c text ih =>
        obtain ⟨hread, hdecode⟩ := ih fun d hd ↦ htext d (List.mem_cons_of_mem c hd)
        have hc := htext c List.mem_cons_self
        rw [List.flatMap_cons, List.append_assoc, hc.literal, hc.decode, hread, hdecode]
        exact ⟨rfl, rfl⟩
  obtain ⟨hread, hdecode⟩ := hliteral s.toList h
  show string ('"' :: (s.toList.flatMap write ++ ['"'] ++ rest)) = _
  rw [List.append_assoc, List.singleton_append, string, hread]
  simp only [Option.bind_some, hdecode, Option.map_some, String.ofList_toList]

theorem string_reads {write : Char → List Char} (h : ∀ c, Stands (write c) c) (s : String) :
    Reads string (quoted write s) s := fun rest _ ↦ string_append (fun c _ ↦ h c) rest

/-! ### Values -/

theorem isDigit_toDigits (n : Nat) : ∀ d ∈ Nat.toDigits 10 n, d.isDigit = true := fun d hd ↦
  Nat.isDigit_of_mem_toDigits (by decide) (by decide) hd

theorem digits_append (n : Nat) {rest : List Char} (h : Stops rest) :
    digits (Nat.toDigits 10 n ++ rest) = some (n, rest) := by
  obtain ⟨c, rest, rfl, hc⟩ := h
  have hstop : c.isDigit = false := by
    have hall : ([',', ']', '}'].all fun c ↦ c.isDigit = false) = true := by decide
    exact of_decide_eq_true (List.all_eq_true.mp hall c hc)
  have htake : (Nat.toDigits 10 n ++ c :: rest).takeWhile Char.isDigit = Nat.toDigits 10 n := by
    rw [List.takeWhile_append_of_pos (isDigit_toDigits n),
      List.takeWhile_cons_of_neg (by rw [hstop]; decide), List.append_nil]
  have hdrop : (Nat.toDigits 10 n ++ c :: rest).dropWhile Char.isDigit = c :: rest := by
    rw [List.dropWhile_append_of_pos (isDigit_toDigits n),
      List.dropWhile_cons_of_neg (by rw [hstop]; decide)]
  simp only [digits, htake, hdrop, Nat.ofDigitChars_ten_toDigits, if_true]

/-- The characters of a whole number. -/
def written (n : Int) : List Char := (toString n).toList

theorem written_eq (n : Int) :
    written n = if n < 0 then '-' :: Nat.toDigits 10 n.natAbs else Nat.toDigits 10 n.natAbs := by
  cases n with
  | ofNat m =>
      rw [if_neg (by simp), written, Int.toString_eq_repr, Int.repr]
      exact Nat.toList_repr
  | negSucc m =>
      rw [if_pos (Int.negSucc_lt_zero m), written, Int.toString_eq_repr, Int.repr]
      rw [String.toList_append, Nat.toList_repr]
      rfl

/-- A number begins with a digit or a sign. -/
theorem head_written (n : Int) :
    ∃ c cs, written n = c :: cs ∧ (c = '-' ∨ c.isDigit = true) := by
  rw [written_eq]
  split
  · exact ⟨'-', _, rfl, .inl rfl⟩
  · obtain ⟨c, cs, h⟩ :=
      List.exists_cons_of_ne_nil (Nat.toDigits_ne_nil : Nat.toDigits 10 n.natAbs ≠ [])
    exact ⟨c, cs, h, .inr (isDigit_toDigits n.natAbs c (h ▸ List.mem_cons_self))⟩

theorem int_reads (n : Int) : Reads int (written n) n := by
  intro rest hrest
  obtain ⟨c, cs, hc, hhead⟩ := head_written n
  have hread := digits_append n.natAbs hrest
  rw [written_eq] at hc ⊢
  split at hc
  · rename_i hneg
    rw [if_pos hneg]
    show int ('-' :: (Nat.toDigits 10 n.natAbs ++ rest)) = _
    rw [int, hread, Option.map_some]
    congr 2
    omega
  · rename_i hpos
    have hdigit : c.isDigit = true :=
      isDigit_toDigits n.natAbs c (hc ▸ List.mem_cons_self)
    rw [hc, List.cons_append] at hread
    rw [if_neg hpos, hc, List.cons_append, int, hread, Option.map_some]
    · congr 2
      omega
    · intro text htext
      cases htext
      cases hdigit

/-- A number is no other value. -/
theorem number_reads (n : Int) : Reads value (written n) (.number n) := by
  intro rest hrest
  have hread := int_reads n rest hrest
  obtain ⟨c, cs, hc, hhead⟩ := head_written n
  rw [hc, List.cons_append] at hread ⊢
  have hother : ∀ d ∈ ['n', 't', 'f', '"', '['], c ≠ d := by
    rintro d hd rfl
    have hall : (['n', 't', 'f', '"', '['].all fun d ↦ ¬ (d = '-' ∨ d.isDigit = true)) = true := by
      decide
    exact of_decide_eq_true (List.all_eq_true.mp hall c hd) hhead
  rw [value, hread]
  · rfl
  all_goals
    intro text htext
    exact absurd (List.cons.inj htext).1 (hother _ (by simp))

theorem stringValue_reads {write : Char → List Char} (h : ∀ c, Stands (write c) c) (s : String) :
    Reads value (quoted write s) (.string s) := by
  intro rest hrest
  have hread := string_reads h s rest hrest
  rw [quoted, List.cons_append, List.cons_append] at hread ⊢
  rw [value, hread]
  rfl

theorem bool_reads (b : Bool) :
    Reads value (if b then "true".toList else "false".toList) (.bool b) := by
  intro rest _
  cases b <;> rfl

/-- A list of strings. -/
theorem strings_reads {write : Char → List Char} (h : ∀ c, Stands (write c) c)
    (l : List String) :
    Reads value ('[' :: ([','].intercalate (l.map (quoted write)) ++ [']'])) (.strings l) := by
  intro rest _
  have hitems : List.Forall₂ (Reads string) (l.map (quoted write)) l := by
    induction l with
    | nil => exact .nil
    | cons s l ih => exact .cons (string_reads h s) ih
  have hread := @bracketed_reads _ string ']' _ l '[' (.inl rfl) hitems (fun text htext ↦ by
    obtain ⟨s, -, rfl⟩ := List.mem_map.mp htext
    exact ⟨List.cons_ne_nil _ _, fun h ↦ by cases h⟩) rest
  rw [List.cons_append, List.append_assoc, List.singleton_append]
  rw [value, hread]
  rfl

/-! ### Objects -/

/-- A name stands for itself in a string. -/
def Bare (name : String) : Prop :=
  ∀ c ∈ name.toList, JsonString.shortEscape c = none ∧ ¬ c.toNat < 0x20

instance (name : String) : Decidable (Bare name) :=
  decidable_of_iff (name.toList.all fun c ↦ JsonString.shortEscape c = none ∧ ¬ c.toNat < 0x20)
    (by simp [Bare])

/-- A member with a name that needs no escapes. -/
def named (name : String) (text : List Char) : List Char :=
  '"' :: name.toList ++ '"' :: ':' :: text

/-- The text of a member of an object. -/
structure Member (text : List Char) (m : String × Value) : Prop where
  reads : Reads member text m
  /-- It does not look like the end of the object. -/
  head : text ≠ [] ∧ text.head? ≠ some '}'

theorem Member.named {name : String} (hname : Bare name) {text : List Char} {v : Value}
    (h : Reads value text v) : Member (named name text) (name, v) where
  reads rest hrest := by
    have hbare : ∀ c ∈ name.toList, Stands [c] c := fun c hc ↦
      stands_self (hname c hc).1 (hname c hc).2
    have hstring := string_append hbare (':' :: (text ++ rest))
    rw [quoted, List.flatMap_singleton', List.append_assoc, List.singleton_append] at hstring
    have htext : FlatJson.named name text ++ rest =
        '"' :: name.toList ++ '"' :: ':' :: (text ++ rest) := by
      simp [FlatJson.named]
    rw [htext, member, hstring]
    simp only [Option.bind_some, h rest hrest, Option.map_some]
  head := by
    constructor
    · exact List.cons_ne_nil _ _
    · intro h
      cases h

/-- An object with nothing after it. -/
theorem parse_object {texts : List (List Char)} {o : Object} (h : List.Forall₂ Member texts o) :
    parse ('{' :: ([','].intercalate texts ++ ['}'])) = some o := by
  have hhead : ∀ text ∈ texts, text ≠ [] ∧ text.head? ≠ some '}' := by
    intro text htext
    induction h with
    | nil => cases htext
    | cons hm _ ih =>
        rcases List.mem_cons.mp htext with rfl | htext
        · exact hm.head
        · exact ih htext
  have hread := @bracketed_reads _ member '}' texts o '{' (.inr rfl) (h.imp fun _ _ ↦ Member.reads)
    hhead []
  rw [parse, hread]
  rfl

end FlatJson
