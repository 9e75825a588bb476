import Mathlib.Data.List.Sort
import Zenstier.Commands.Protocol
import Zenstier.Store.Table

/-!
# The event stream in the browser

`reducer` keeps what the dashboard shows: the status of devices and the runs of commands, with
their lines of output.  Events come in no particular order, and some more than once.
-/

namespace Zenstier.Browser

open Store

/-! ## Runs -/

/-- A line of output on the screen. -/
structure Line where
  seq : Nat
  stream : OutputStream
  data : String
deriving DecidableEq, Repr

structure CommandRun where
  commandId : String
  deviceId : String
  status : String
  exitCode : Option Int
  lines : List Line
  durationMs : Option Int
  error : Option String
  finished : Bool
deriving DecidableEq, Repr

/-- The status of devices, the time of their latest sample, and the runs of commands. -/
structure StreamState where
  status : Table String DeviceStatus := ∅
  metrics : Table String Int := ∅
  runs : Table String CommandRun := ∅
  connected : Bool := false

inductive Action
  | event (event : SseEvent)
  | connected (value : Bool)
deriving DecidableEq, Repr

/-- How a status is spelled. -/
def spell : CommandStatus → String
  | .pending => "PENDING"
  | .dispatched => "DISPATCHED"
  | .running => "RUNNING"
  | .succeeded => "SUCCEEDED"
  | .failed => "FAILED"
  | .timeout => "TIMEOUT"
  | .canceled => "CANCELED"

/-- The lines that stand for an output that did not stream. -/
def fallback (stdout stderr : String) : List Line :=
  (if stdout ≠ "" then [⟨0, .stdout, stdout⟩] else []) ++
    if stderr ≠ "" then [⟨1, .stderr, stderr⟩] else []

/-- Lines in the order of their numbers. -/
def Line.le (a b : Line) : Prop := a.seq ≤ b.seq

instance : DecidableRel Line.le := fun a b ↦ Nat.decLe a.seq b.seq

def reducer (state : StreamState) : Action → StreamState
  | .connected value => { state with connected := value }
  | .event (.deviceStatus deviceId status) =>
      { state with status := state.status.put deviceId status }
  | .event (.deviceMetrics deviceId recordedAt) =>
      { state with metrics := state.metrics.put deviceId recordedAt }
  | .event (.commandAccepted commandId deviceId running) =>
      let existing := state.runs.find? commandId
      -- A late "accepted" must never reopen a run that already has its terminal result.
      if existing.any (·.finished) then state
      else
        let run : CommandRun :=
          { commandId, deviceId, status := if running then "running" else "queued"
            exitCode := none, lines := existing.elim [] (·.lines), durationMs := none
            error := none, finished := false }
        { state with runs := state.runs.put commandId run }
  | .event (.commandChunk commandId deviceId stream seq data) =>
      let run : CommandRun := (state.runs.find? commandId).getD
        { commandId, deviceId, status := "running", exitCode := none, lines := []
          durationMs := none, error := none, finished := false }
      if run.lines.any (·.seq = seq) then state
      else
        let lines := (run.lines ++ [({ seq, stream, data } : Line)]).insertionSort Line.le
        { state with runs := state.runs.put commandId { run with lines } }
  | .event (.commandResult commandId deviceId status exitCode stdout stderr _ durationMs error) =>
      let lines := (state.runs.find? commandId).elim [] (·.lines)
      -- If no chunks streamed, fall back to the final buffered output.
      let shown :=
        if lines = [] ∧ (stdout ≠ "" ∨ stderr ≠ "") then fallback stdout stderr else lines
      let run : CommandRun :=
        { commandId, deviceId, status := spell status, exitCode, lines := shown, durationMs, error
          finished := true }
      { state with runs := state.runs.put commandId run }

/-- The state after some actions. -/
def view (state : StreamState) (events : List SseEvent) : StreamState :=
  (events.map .event).foldl reducer state

/-! ## The run of one command -/

/-- The command an event is about. -/
def commandOf : SseEvent → Option String
  | .commandAccepted commandId .. | .commandChunk commandId .. | .commandResult commandId .. =>
      some commandId
  | .deviceStatus .. | .deviceMetrics .. => none

/-- The lines that are shown of a command. -/
def linesOf (state : StreamState) (id : String) : List Line :=
  (state.runs.find? id).elim [] (·.lines)

theorem linesOf_of_find? {state : StreamState} {id : String} {run : CommandRun}
    (h : state.runs.find? id = some run) : linesOf state id = run.lines := by
  rw [linesOf, h]
  rfl

/-- An event about something else leaves a run alone. -/
theorem find?_reducer_of_ne {id : String} {event : SseEvent} (h : commandOf event ≠ some id)
    (state : StreamState) : (reducer state (.event event)).runs.find? id = state.runs.find? id := by
  cases event with
  | commandAccepted commandId deviceId running =>
      have hne : id ≠ commandId := fun e ↦ h (congrArg some e.symm)
      dsimp only [reducer]
      split
      · rfl
      · rw [Table.find?_put, if_neg hne]
  | commandChunk commandId deviceId stream seq data =>
      have hne : id ≠ commandId := fun e ↦ h (congrArg some e.symm)
      dsimp only [reducer]
      split
      · rfl
      · rw [Table.find?_put, if_neg hne]
  | commandResult commandId deviceId status exitCode stdout stderr truncated durationMs error =>
      have hne : id ≠ commandId := fun e ↦ h (congrArg some e.symm)
      dsimp only [reducer]
      rw [Table.find?_put, if_neg hne]
  | deviceStatus deviceId status => rfl
  | deviceMetrics deviceId recordedAt => rfl

section Events

variable {state : StreamState} {id : String} (deviceId : String)

theorem find?_accepted_of_finished {run : CommandRun} (hrun : state.runs.find? id = some run)
    (hdone : run.finished = true) (running : Bool) :
    (reducer state (.event (.commandAccepted id deviceId running))).runs.find? id = some run := by
  dsimp only [reducer]
  rw [if_pos (by rw [hrun]; exact hdone)]
  exact hrun

/-- An accepted event keeps the lines. -/
theorem find?_accepted (h : (state.runs.find? id).any (·.finished) = false) (running : Bool) :
    ∃ run, (reducer state (.event (.commandAccepted id deviceId running))).runs.find? id =
      some run ∧ run.lines = linesOf state id ∧ run.finished = false := by
  dsimp only [reducer]
  rw [if_neg (by rw [h]; exact Bool.false_ne_true), Table.find?_put, if_pos rfl]
  exact ⟨_, rfl, rfl, rfl⟩

/-- A chunk whose number is taken changes nothing. -/
theorem find?_chunk_of_mem {run : CommandRun} (hrun : state.runs.find? id = some run)
    {seq : Nat} (h : ∃ l ∈ run.lines, l.seq = seq)
    (stream : OutputStream) (data : String) :
    (reducer state (.event (.commandChunk id deviceId stream seq data))).runs.find? id =
      some run := by
  dsimp only [reducer]
  rw [hrun, Option.getD_some, if_pos]
  · exact hrun
  · obtain ⟨l, hl, hseq⟩ := h
    exact List.any_eq_true.mpr ⟨l, hl, decide_eq_true hseq⟩

theorem find?_chunk {run : CommandRun} (hrun : state.runs.find? id = some run)
    {seq : Nat} (h : ∀ l ∈ run.lines, l.seq ≠ seq) (stream : OutputStream) (data : String) :
    (reducer state (.event (.commandChunk id deviceId stream seq data))).runs.find? id =
      some { run with
        lines := (run.lines ++ [({ seq, stream, data } : Line)]).insertionSort Line.le } := by
  dsimp only [reducer]
  rw [hrun, Option.getD_some, if_neg, Table.find?_put, if_pos rfl]
  intro hany
  obtain ⟨l, hl, hseq⟩ := List.any_eq_true.mp hany
  exact h l hl (of_decide_eq_true hseq)

/-- The first event about a command may be a chunk. -/
theorem find?_chunk_of_none (hrun : state.runs.find? id = none) (stream : OutputStream)
    (seq : Nat) (data : String) :
    ∃ run, (reducer state (.event (.commandChunk id deviceId stream seq data))).runs.find? id =
      some run ∧ run.lines = [⟨seq, stream, data⟩] ∧ run.finished = false := by
  dsimp only [reducer]
  rw [hrun, Option.getD_none, if_neg (fun h ↦ nomatch h), Table.find?_put, if_pos rfl]
  exact ⟨_, rfl, rfl, rfl⟩

/-- A result replaces everything but the lines, unless there are none. -/
theorem find?_result {lines : List Line}
    (hlines : linesOf state id = lines) (status : CommandStatus)
    (exitCode : Option Int) (stdout stderr : String) (truncated : Bool) (durationMs : Option Int)
    (error : Option String) :
    (reducer state (.event (.commandResult id deviceId status exitCode stdout stderr truncated
      durationMs error))).runs.find? id =
      some { commandId := id, deviceId, status := spell status, exitCode, durationMs, error
             lines := if lines = [] then fallback stdout stderr else lines
             finished := true } := by
  dsimp only [reducer]
  rw [Table.find?_put, if_pos rfl, ← linesOf, hlines]
  by_cases hnil : lines = []
  · subst hnil
    by_cases hout : stdout ≠ "" ∨ stderr ≠ ""
    · rw [if_pos ⟨rfl, hout⟩, if_pos rfl]
    · rw [if_neg fun h ↦ hout h.2, if_pos rfl]
      rw [not_or, not_not, not_not] at hout
      rw [hout.1, hout.2]
      rfl
  · rw [if_neg fun h ↦ hnil h.1, if_neg hnil]

end Events

/-- A line that is shown stays. -/
theorem mem_linesOf_reducer {state : StreamState} {id : String} {l : Line}
    (h : l ∈ linesOf state id) (event : SseEvent) :
    l ∈ linesOf (reducer state (.event event)) id := by
  by_cases hid : commandOf event = some id
  · cases hrun : state.runs.find? id with
    | none =>
        rw [linesOf, hrun] at h
        cases h
    | some run =>
        rw [linesOf_of_find? hrun] at h
        cases event with
        | commandAccepted commandId deviceId running =>
            obtain rfl := Option.some.inj hid
            cases hdone : run.finished with
            | true =>
                rw [linesOf_of_find? (find?_accepted_of_finished deviceId hrun hdone running)]
                exact h
            | false =>
                obtain ⟨run', hnew, hlines, -⟩ :=
                  find?_accepted deviceId (by rw [hrun]; exact hdone) running
                rw [linesOf_of_find? hnew, hlines, linesOf_of_find? hrun]
                exact h
        | commandChunk commandId deviceId stream seq data =>
            obtain rfl := Option.some.inj hid
            by_cases htaken : ∃ l ∈ run.lines, l.seq = seq
            · rw [linesOf_of_find? (find?_chunk_of_mem deviceId hrun htaken stream data)]
              exact h
            · have hfree : ∀ l ∈ run.lines, l.seq ≠ seq := fun l hl hseq ↦ htaken ⟨l, hl, hseq⟩
              rw [linesOf_of_find? (find?_chunk deviceId hrun hfree stream data)]
              exact List.mem_insertionSort Line.le |>.mpr (List.mem_append_left _ h)
        | commandResult commandId deviceId =>
            obtain rfl := Option.some.inj hid
            rw [linesOf_of_find? (find?_result deviceId (linesOf_of_find? hrun) ..),
              if_neg (List.ne_nil_of_mem h)]
            exact h
        | deviceStatus deviceId status => cases hid
        | deviceMetrics deviceId recordedAt => cases hid
  · rw [linesOf, find?_reducer_of_ne hid]
    exact h

end Zenstier.Browser
