import Zenstier.Ai.Context

/-!
# Conversations of the AI console

The console keeps what is typed and answered as entries, and `ask` sends all of them with every
question.  The route checks the body against `bodySchema` before `streamChat` trims the
conversation, and the schema is bounded: a conversation that has grown past its bounds is
refused, until it is cleared.
-/

namespace Zenstier

/-! ## Entries -/

inductive ConsoleKind
  | prompt
  | reply
  | note
  | run
deriving DecidableEq, Repr

structure ConsoleEntry where
  id : Nat
  kind : ConsoleKind
  text : String
deriving DecidableEq, Repr

structure AiConsole where
  entries : List ConsoleEntry := []
  nextId : Nat := 1
  /-- An id is given once. -/
  fresh : ∀ e ∈ entries, e.id < nextId := by simp

namespace AiConsole

def push (s : AiConsole) (kind : ConsoleKind) (text : String) : AiConsole where
  entries := s.entries ++ [⟨s.nextId, kind, text⟩]
  nextId := s.nextId + 1
  fresh e he := by
    rcases List.mem_append.mp he with hold | hnew
    · exact Nat.lt_succ_of_lt (s.fresh e hold)
    · rw [List.mem_singleton.mp hnew]
      exact Nat.lt_succ_self _

/-- Replaces the text of an entry. -/
def setText (s : AiConsole) (id : Nat) (text : String) : AiConsole where
  entries := s.entries.map fun e ↦ if e.id = id then { e with text := text } else e
  nextId := s.nextId
  fresh e he := by
    obtain ⟨e', he', rfl⟩ := List.mem_map.mp he
    split <;> exact s.fresh e' he'

/-- `setEntries([])`. -/
def clear (s : AiConsole) : AiConsole where
  entries := []
  nextId := s.nextId
  fresh _ he := absurd he List.not_mem_nil

@[simp] theorem entries_push (s : AiConsole) (kind : ConsoleKind) (text : String) :
    (s.push kind text).entries = s.entries ++ [⟨s.nextId, kind, text⟩] := rfl

/-- Only the last entry has the last id. -/
theorem entries_setText_push (s : AiConsole) (kind : ConsoleKind) (text text' : String) :
    ((s.push kind text).setText s.nextId text').entries = (s.push kind text').entries := by
  have hkeep : s.entries.map (fun e ↦ if e.id = s.nextId then { e with text := text' } else e) =
      s.entries :=
    (List.map_congr_left fun e he ↦ if_neg (Nat.ne_of_lt (s.fresh e he))).trans (List.map_id _)
  rw [setText]
  dsimp only
  rw [entries_push, List.map_append, hkeep, List.map_singleton, if_pos rfl, entries_push]

end AiConsole

/-! ## Requests -/

/-- A message of the body. -/
structure ChatTurn where
  role : ChatRole
  content : String
deriving DecidableEq, Repr

/-- `m.content.trim()` as a condition. -/
def isBlank (content : String) : Bool := trim content = ""

structure ChatBody where
  deviceIds : Option (List String)
  messages : List ChatTurn
deriving DecidableEq, Repr

/-- `bodySchema`: the devices and the messages of a body that it accepts. -/
def bodySchema (body : ChatBody) : Option (List String × List ChatTurn) :=
  let deviceIds := body.deviceIds.getD []
  if (∀ id ∈ deviceIds, 1 ≤ utf16Length id) ∧ deviceIds.length ≤ 100 ∧
      (∀ m ∈ body.messages, (m.role = .user ∨ m.role = .assistant) ∧
        1 ≤ utf16Length m.content ∧ utf16Length m.content ≤ 8000) ∧
      1 ≤ body.messages.length ∧ body.messages.length ≤ 40 then
    some (deviceIds, body.messages)
  else none

namespace AiConsole

/-- The turn that an entry stands for. -/
def turnOf (e : ConsoleEntry) : Option ChatTurn := match e.kind with
  | .prompt => some ⟨.user, e.text⟩
  | .reply => some ⟨.assistant, e.text⟩
  | .note | .run => none

def priorTurns (s : AiConsole) : List ChatTurn :=
  (s.entries.filterMap turnOf).filter (!isBlank ·.content)

/-- What `ask` sends. -/
def requestBody (s : AiConsole) (selected : List String) (question : String) : ChatBody :=
  ⟨some selected, s.priorTurns ++ [⟨.user, question⟩]⟩

/-- `ask`, when the answer has come: the whole reply, or none if there is an error. -/
def ask (s : AiConsole) (question : String) (answer : Option String) : AiConsole :=
  let s := s.push .prompt question
  let replyId := s.nextId
  let s := s.push .reply ""
  match answer with
  | none => s
  | some text => s.setText replyId text

end AiConsole

/-! ## What is typed -/

inductive ConsoleOutput
  | note (text : String)
  | run
deriving DecidableEq, Repr

/-- A line, with the answer to it if it is a question, and with what the console prints if it is
a command. -/
structure TypedLine where
  raw : String
  answer : Option String := none
  output : List ConsoleOutput := []
deriving DecidableEq, Repr

/-- The commands that are entered as prompts, next to `clear`. -/
def consoleCommands : List String := ["help", "targets", "groups", "run", "use"]

/-- `line.split(/\s+/)[0]`. -/
def verbOf (line : String) : String := String.ofList (line.toList.takeWhile (!isTrimmed ·))

namespace AiConsole

def print (s : AiConsole) : ConsoleOutput → AiConsole
  | .note text => s.push .note text
  | .run => s.push .run ""

def submit (s : AiConsole) (t : TypedLine) : AiConsole :=
  let line := trim t.raw
  if line = "" then s
  else if verbOf line = "clear" then s.clear
  else if verbOf line ∈ consoleCommands then t.output.foldl print (s.push .prompt line)
  else s.ask line t.answer

def run (typed : List TypedLine) : AiConsole := typed.foldl submit {}

end AiConsole

/-! ## Conversations -/

/-- A text that is said, unless it is blank. -/
def said (role : ChatRole) (text : String) : List ChatTurn :=
  if isBlank text then [] else [⟨role, text⟩]

/-- The conversation after a line. -/
def TypedLine.turns (before : List ChatTurn) (t : TypedLine) : List ChatTurn :=
  let line := trim t.raw
  if line = "" then before
  else if verbOf line = "clear" then []
  else if verbOf line ∈ consoleCommands then before ++ said .user line
  else before ++ said .user line ++ said .assistant (t.answer.getD "")

/-- What has been said since the entries were cleared. -/
def conversation (typed : List TypedLine) : List ChatTurn := typed.foldl TypedLine.turns []

namespace AiConsole

variable (s : AiConsole)

@[simp] theorem priorTurns_prompt (text : String) :
    (s.push .prompt text).priorTurns = s.priorTurns ++ said .user text := by
  rw [priorTurns, entries_push, List.filterMap_append, List.filter_append]
  cases h : isBlank text <;> simp [priorTurns, said, turnOf, h]

@[simp] theorem priorTurns_reply (text : String) :
    (s.push .reply text).priorTurns = s.priorTurns ++ said .assistant text := by
  rw [priorTurns, entries_push, List.filterMap_append, List.filter_append]
  cases h : isBlank text <;> simp [priorTurns, said, turnOf, h]

/-- Notes and runs are not sent. -/
@[simp] theorem priorTurns_print (output : ConsoleOutput) :
    (s.print output).priorTurns = s.priorTurns := by
  cases output <;> simp [print, priorTurns, turnOf]

theorem priorTurns_foldl_print (output : List ConsoleOutput) :
    (output.foldl print s).priorTurns = s.priorTurns := by
  induction output generalizing s with
  | nil => rfl
  | cons o output ih => rw [List.foldl_cons, ih, priorTurns_print]

/-- A question and its answer are two turns, the answer if there is one. -/
theorem priorTurns_ask (question : String) (answer : Option String) :
    (s.ask question answer).priorTurns =
      s.priorTurns ++ said .user question ++ said .assistant (answer.getD "") := by
  cases answer with
  | none =>
      change ((s.push .prompt question).push .reply "").priorTurns = _
      rw [priorTurns_reply, priorTurns_prompt, Option.getD_none]
  | some text =>
      change (((s.push .prompt question).push .reply "").setText
        (s.push .prompt question).nextId text).priorTurns = _
      rw [priorTurns, entries_setText_push, ← priorTurns, priorTurns_reply, priorTurns_prompt,
        Option.getD_some]

theorem priorTurns_submit (t : TypedLine) : (s.submit t).priorTurns = t.turns s.priorTurns := by
  rw [submit, TypedLine.turns]
  split
  · rfl
  split
  · rfl
  split
  · rw [priorTurns_foldl_print, priorTurns_prompt]
  · exact priorTurns_ask s _ _

/-- The turns of a run are what has been said. -/
theorem priorTurns_run (typed : List TypedLine) : (run typed).priorTurns = conversation typed := by
  have hfold (s : AiConsole) :
      (typed.foldl submit s).priorTurns = typed.foldl TypedLine.turns s.priorTurns := by
    induction typed generalizing s with
    | nil => rfl
    | cons t typed ih => rw [List.foldl_cons, ih, priorTurns_submit, List.foldl_cons]
  exact hfold {}

/-- Turns are said by the user or the assistant, and are not empty. -/
theorem of_mem_priorTurns {m : ChatTurn} (h : m ∈ s.priorTurns) :
    (m.role = .user ∨ m.role = .assistant) ∧ m.content ≠ "" := by
  obtain ⟨hmem, hblank⟩ := List.mem_filter.mp h
  obtain ⟨e, -, he⟩ := List.mem_filterMap.mp hmem
  constructor
  · unfold turnOf at he
    split at he
    · exact .inl (Option.some.inj he ▸ rfl)
    · exact .inr (Option.some.inj he ▸ rfl)
    · contradiction
    · contradiction
  · intro hempty
    rw [hempty] at hblank
    exact absurd hblank (by decide)

end AiConsole

/-- A question with an answer, neither of them blank. -/
structure TypedLine.Answered (t : TypedLine) : Prop where
  line : isBlank (trim t.raw) = false
  verb : verbOf (trim t.raw) ∉ "clear" :: consoleCommands
  answer : isBlank (t.answer.getD "") = false

/-- Questions and answers add up: twenty of them are all that a body can hold. -/
theorem length_conversation {typed : List TypedLine} (h : ∀ t ∈ typed, t.Answered) :
    (conversation typed).length = 2 * typed.length := by
  have hfold (before : List ChatTurn) :
      (typed.foldl TypedLine.turns before).length = before.length + 2 * typed.length := by
    induction typed generalizing before with
    | nil => rfl
    | cons t typed ih =>
        obtain ⟨ht, htail⟩ := List.forall_mem_cons.mp h
        have hline : trim t.raw ≠ "" := fun hempty ↦
          absurd (hempty ▸ ht.line : isBlank "" = false) (by decide)
        have hturns : t.turns before = before ++ [⟨.user, trim t.raw⟩] ++
            [⟨.assistant, t.answer.getD ""⟩] := by
          rw [TypedLine.turns, if_neg hline,
            if_neg (fun hclear : verbOf (trim t.raw) = "clear" ↦
              ht.verb (hclear ▸ List.mem_cons_self)),
            if_neg fun hverb ↦ ht.verb (List.mem_cons_of_mem _ hverb)]
          simp [said, ht.line, ht.answer]
        rw [List.foldl_cons, ih htail, hturns]
        simp only [List.length_append, List.length_cons, List.length_nil]
        omega
  simpa [conversation] using hfold []

theorem utf16Length_pos_iff {text : String} : 1 ≤ utf16Length text ↔ text ≠ "" := by
  rw [← String.toList_inj.ne, utf16Length]
  cases text.toList with
  | nil => simp
  | cons c rest =>
      have hunit : 1 ≤ if c.toNat < 0x10000 then 1 else 2 := by split <;> decide
      simp only [List.map_cons, List.sum_cons, String.toList_empty, ne_eq, reduceCtorEq,
        not_false_eq_true, iff_true]
      exact le_add_right hunit

theorem isSome_bodySchema {body : ChatBody} :
    (bodySchema body).isSome ↔ (∀ id ∈ body.deviceIds.getD [], 1 ≤ utf16Length id) ∧
      (body.deviceIds.getD []).length ≤ 100 ∧
      (∀ m ∈ body.messages, (m.role = .user ∨ m.role = .assistant) ∧
        1 ≤ utf16Length m.content ∧ utf16Length m.content ≤ 8000) ∧
      1 ≤ body.messages.length ∧ body.messages.length ≤ 40 := by
  rw [bodySchema]
  split <;> simp_all

/-- What the bounds of the schema leave of a conversation and the next question. -/
structure FitsSchema (turns : List ChatTurn) (selected : List String) (question : String) :
    Prop where
  count : turns.length < 40
  turns : ∀ m ∈ turns, utf16Length m.content ≤ 8000
  question : utf16Length question ≤ 8000
  devices : selected.length ≤ 100
  ids : ∀ id ∈ selected, id ≠ ""

/-- The next question is accepted if and only if fewer than forty turns have been said since the
entries were cleared, all texts are short enough, and not too many devices are selected. -/
theorem conversation_accepted_iff (typed : List TypedLine) (selected : List String)
    {question : String} (h : question ≠ "") :
    (bodySchema ((AiConsole.run typed).requestBody selected question)).isSome ↔
      FitsSchema (conversation typed) selected question := by
  rw [isSome_bodySchema, AiConsole.requestBody, AiConsole.priorTurns_run, Option.getD_some]
  have hturns : ∀ m ∈ conversation typed,
      (m.role = .user ∨ m.role = .assistant) ∧ 1 ≤ utf16Length m.content := by
    intro m hm
    rw [← AiConsole.priorTurns_run] at hm
    obtain ⟨hrole, hne⟩ := (AiConsole.run typed).of_mem_priorTurns hm
    exact ⟨hrole, utf16Length_pos_iff.mpr hne⟩
  constructor
  · rintro ⟨hids, hdevices, hmessages, -, hcount⟩
    rw [List.forall_mem_append, List.forall_mem_singleton] at hmessages
    rw [List.length_append, List.length_singleton] at hcount
    exact {
      count := hcount
      turns := fun m hm ↦ (hmessages.1 m hm).2.2
      question := hmessages.2.2.2
      devices := hdevices
      ids := fun id hid ↦ utf16Length_pos_iff.mp (hids id hid) }
  · intro hfits
    refine ⟨fun id hid ↦ utf16Length_pos_iff.mpr (hfits.ids id hid), hfits.devices, ?_, ?_, ?_⟩
    · rw [List.forall_mem_append, List.forall_mem_singleton]
      exact ⟨fun m hm ↦ ⟨(hturns m hm).1, (hturns m hm).2, hfits.turns m hm⟩, .inl rfl,
        utf16Length_pos_iff.mpr h, hfits.question⟩
    · rw [List.length_append, List.length_singleton]
      exact Nat.le_add_left 1 _
    · rw [List.length_append, List.length_singleton]
      exact hfits.count

/-- One question about a device. -/
theorem conversation_accepted_first :
    (bodySchema ((AiConsole.run []).requestBody ["dev-a"] "uptime?")).isSome :=
  (conversation_accepted_iff [] ["dev-a"] (by decide)).mpr {
    count := by decide
    turns := fun m hm ↦ absurd hm List.not_mem_nil
    question := by decide
    devices := by decide
    ids := by decide }

/-- Of short questions with short answers the twentieth is accepted, the next one is not. -/
theorem conversation_refused :
    (bodySchema ((AiConsole.run (List.replicate 19 ⟨"why?", some "no", []⟩)).requestBody
        ["dev-a"] "why?")).isSome ∧
      bodySchema ((AiConsole.run (List.replicate 20 ⟨"why?", some "no", []⟩)).requestBody
        ["dev-a"] "why?") = none := by
  decide +kernel

end Zenstier
