import Zenstier.Agent.Capture
import Zenstier.Agent.Emitter
import Zenstier.Agent.Payload

/-!
# Deliverable results

The broker takes no payload of more than `messageSizeLimit` bytes.  `Execution` is a run of the
executor that the dispatcher reports on: what the process writes goes into the captures, which
end up in the terminal result, and through the emitters, which are flushed into chunks.  How
large a payload becomes depends on how much is kept or comes together, and on the characters.
-/

namespace Zenstier.Agent

open Utf8 Json

/-- `message_size_limit`. -/
def messageSizeLimit : Nat := 262144

/-- What the executor reads of its configuration. -/
structure ExecConfig where
  maxOutputBytes : Int
deriving DecidableEq, Repr

/-- The default of `Defaults`. -/
def defaultExec : ExecConfig where
  maxOutputBytes := 1 <<< 20

/-- `ctx.Err()`. -/
inductive CtxErr
  | deadlineExceeded
  | canceled
deriving DecidableEq, Repr

/-- How a process has ended. -/
structure Ending where
  /-- `exitCodeOf(waitErr)`. -/
  exitCode : Int := 0
  ctxErr : Option CtxErr := none
  startedAt : String
  finishedAt : String
  durationMS : Int
deriving DecidableEq, Repr

/-- A write to a stream, or a flush of it by the ticker. -/
structure OutputEvent where
  stream : OutputStream
  call : Emitter.Call
deriving DecidableEq, Repr

/-- A command whose process has been started, what it writes and how it ends. -/
structure Execution where
  deviceID : String
  agentVersion : String
  cfg : ExecConfig
  id : String
  stream : Bool := false
  maxOutput : Int := 0
  events : List OutputEvent
  ending : Ending
deriving DecidableEq, Repr

/-- The writers of a process, and what has been published. -/
structure Session where
  capture : OutputStream → CapWriter
  emitter : OutputStream → Emitter := fun _ ↦ {}
  seq : Nat := 0
  published : List Report := []

namespace Execution

variable (x : Execution)

/-- The bound on the captures: that of the command, if it is smaller. -/
def maxOut : Int :=
  if 0 < x.maxOutput ∧ x.maxOutput < x.cfg.maxOutputBytes then x.maxOutput
  else x.cfg.maxOutputBytes

/-! ## The run -/

def chunk (seq : Nat) (stream : OutputStream) (data : List UInt8) : Report where
  id := x.id
  deviceID := x.deviceID
  kind := .chunk
  seq
  stream := some stream
  data

/-- The sink numbers the chunks across both streams. -/
def sink (s : Session) (stream : OutputStream) (data : List UInt8) : Session :=
  { s with seq := s.seq + 1, published := s.published ++ [x.chunk s.seq stream data] }

/-- A call of an emitter; without a sink there is nothing to do. -/
def emit (s : Session) (e : OutputEvent) : Session :=
  if x.stream then
    let (batch, emitter) := (s.emitter e.stream).call streamChunkBytes e.call
    let s := { s with emitter := Function.update s.emitter e.stream emitter }
    match batch with
    | none => s
    | some data => x.sink s e.stream data
  else s

/-- What the capture of a stream takes. -/
def captured (w : CapWriter) : Emitter.Call → Option CapWriter
  | .write p => w.write p
  | .tick => some w

/-- The capture comes first, and then the emitter; the agent does not survive a panic. -/
def serve (s : Session) (e : OutputEvent) : Option Session := do
  let w ← captured (s.capture e.stream) e.call
  return x.emit { s with capture := Function.update s.capture e.stream w } e

/-- The terminal result of what has been captured. -/
def final (stdout stderr : List UInt8) (truncated : Bool) (droppedBytes : Nat) : Report where
  id := x.id
  deviceID := x.deviceID
  kind := .result
  status := match x.ending.ctxErr with
    | some .deadlineExceeded => some .timeout
    | some .canceled => some .canceled
    | none => if x.ending.exitCode ≠ 0 then some .failed else some .completed
  exitCode := match x.ending.ctxErr with
    | some .deadlineExceeded => some 124
    | some .canceled => some 125
    | none => some x.ending.exitCode
  stdout
  stderr
  truncated
  droppedBytes
  startedAt := some x.ending.startedAt
  finishedAt := some x.ending.finishedAt
  durationMS := some x.ending.durationMS
  agentVersion := x.agentVersion
  errorCode := match x.ending.ctxErr with
    | some .deadlineExceeded => some .timeout
    | some .canceled | none => none

/-- The result of what the two writers hold. -/
def finalOf (outW errW : CapWriter) : Report :=
  x.final outW.bytes errW.bytes (outW.truncated || errW.truncated) (outW.dropped + errW.dropped)

/-- What is handed to `PublishResult` from here on: chunks, and in the end the result. -/
def follow (s : Session) : List OutputEvent → List Report
  | [] =>
      let s := x.emit (x.emit s ⟨.stdout, .tick⟩) ⟨.stderr, .tick⟩
      s.published ++ [x.finalOf (s.capture .stdout) (s.capture .stderr)]
  | e :: events => match x.serve s e with
      | none => s.published
      | some s => follow s events

def start : Session where
  capture _ := newCapWriter x.maxOut

/-- The chunks and the terminal result of the command. -/
def results : List Report := x.follow x.start x.events

/-! ## What is written and flushed -/

/-- What the events write to a stream. -/
def writes : List OutputEvent → OutputStream → List UInt8
  | [], _ => []
  | e :: events, stream =>
      (if e.stream = stream then Emitter.written [e.call] else []) ++ writes events stream

/-- What a call flushes of the bytes that are pending, and what is pending afterwards. -/
def flushed (pending : List UInt8) (call : Emitter.Call) : Option (List UInt8) × List UInt8 :=
  if x.stream then
    match call with
    | .write p =>
        if streamChunkBytes ≤ (pending ++ p).length then (some (pending ++ p), [])
        else (none, pending ++ p)
    | .tick => if pending = [] then (none, []) else (some pending, [])
  else (none, pending)

/-- What a call flushes, with its stream. -/
def batch (pending : OutputStream → List UInt8) (e : OutputEvent) :
    List (OutputStream × List UInt8) :=
  (x.flushed (pending e.stream) e.call).1.toList.map (e.stream, ·)

/-- What is pending after a call. -/
def left (pending : OutputStream → List UInt8) (e : OutputEvent) : OutputStream → List UInt8 :=
  Function.update pending e.stream (x.flushed (pending e.stream) e.call).2

/-- The batches of the events and of the end: what has been written to a stream since it was
flushed. -/
def batchesFrom (pending : OutputStream → List UInt8) : List OutputEvent →
    List (OutputStream × List UInt8)
  | [] =>
      x.batch pending ⟨.stdout, .tick⟩ ++
        x.batch (x.left pending ⟨.stdout, .tick⟩) ⟨.stderr, .tick⟩
  | e :: events => x.batch pending e ++ batchesFrom (x.left pending e) events

def batches : List (OutputStream × List UInt8) := x.batchesFrom (fun _ ↦ []) x.events

/-- The chunks of some batches. -/
def chunks (seq : Nat) (batches : List (OutputStream × List UInt8)) : List Report :=
  (batches.zipIdx seq).map fun b ↦ x.chunk b.2 b.1.1 b.1.2

/-- Half of the bound on a capture. -/
def half : Nat := (newCapWriter x.maxOut).half

/-- The result of all that has been written. -/
def finalFor (written : OutputStream → List UInt8) : Report :=
  x.final (CapWriter.kept x.half (written .stdout)) (CapWriter.kept x.half (written .stderr))
    (decide (2 * x.half < (written .stdout).length) ||
      decide (2 * x.half < (written .stderr).length))
    ((written .stdout).length - 2 * x.half + ((written .stderr).length - 2 * x.half))

end Execution

/-! ## The run, step by step -/

/-- The emitters are open and hold what is pending, and the captures what has been written. -/
structure Session.At (s : Session) (x : Execution) (pending written : OutputStream → List UInt8) :
    Prop where
  emitter : s.emitter = fun stream ↦ { buf := pending stream }
  captures : ∀ stream, (s.capture stream).Captures (written stream)
  half : ∀ stream, (s.capture stream).half = x.half

namespace Execution

variable {x : Execution} {s : Session} {pending written : OutputStream → List UInt8}

theorem writes_cons (e : OutputEvent) (events : List OutputEvent) (stream : OutputStream) :
    writes (e :: events) stream = writes [e] stream ++ writes events stream := by
  rw [writes, writes, writes, List.append_nil]

/-- If there is nothing to take of some events, there is nothing to take of the first of them. -/
theorem room_cons {e : OutputEvent} {events : List OutputEvent}
    (hroom : 0 < x.half ∨ ∀ stream, writes (e :: events) stream = []) :
    (0 < x.half ∨ writes [e] e.stream = []) ∧
      (0 < x.half ∨ ∀ stream, writes events stream = []) := by
  have hparts : (∀ stream, writes (e :: events) stream = []) →
      ∀ stream, writes [e] stream = [] ∧ writes events stream = [] := by
    intro hnil stream
    have hall := hnil stream
    rw [writes_cons] at hall
    exact List.append_eq_nil_iff.mp hall
  exact ⟨hroom.imp_right fun hnil ↦ (hparts hnil e.stream).1,
    hroom.imp_right fun hnil stream ↦ (hparts hnil stream).2⟩

theorem chunks_append (seq : Nat) (l l' : List (OutputStream × List UInt8)) :
    x.chunks seq (l ++ l') = x.chunks seq l ++ x.chunks (seq + l.length) l' := by
  rw [chunks, List.zipIdx_append, List.map_append, chunks, chunks]

theorem flushed_of_full (hx : x.stream = true) {bytes p : List UInt8}
    (h : streamChunkBytes ≤ (bytes ++ p).length) :
    x.flushed bytes (.write p) = (some (bytes ++ p), []) := by
  unfold flushed
  rw [if_pos hx]
  exact if_pos h

theorem flushed_of_room (hx : x.stream = true) {bytes p : List UInt8}
    (h : (bytes ++ p).length < streamChunkBytes) :
    x.flushed bytes (.write p) = (none, bytes ++ p) := by
  unfold flushed
  rw [if_pos hx]
  exact if_neg (Nat.not_le_of_lt h)

/-- An open emitter does what its pending bytes say. -/
theorem call_eq_flushed (hx : x.stream = true) (bytes : List UInt8) (call : Emitter.Call) :
    ({ buf := bytes } : Emitter).call streamChunkBytes call =
      ((x.flushed bytes call).1, { buf := (x.flushed bytes call).2 }) := by
  cases call with
  | write p =>
      show (if decide (streamChunkBytes ≤ (bytes ++ p).length) = true then _ else _) = _
      by_cases hfull : streamChunkBytes ≤ (bytes ++ p).length
      · have hne : bytes ++ p ≠ [] := by
          rintro hnil
          rw [hnil] at hfull
          exact absurd hfull (by decide)
        rw [if_pos (decide_eq_true hfull), flushed_of_full hx hfull]
        exact if_neg fun h ↦ h.elim hne Bool.false_ne_true
      · rw [if_neg (by rw [decide_eq_true_eq]; exact hfull),
          flushed_of_room hx (Nat.lt_of_not_le hfull)]
  | tick =>
      unfold flushed
      rw [if_pos hx]
      by_cases hnil : bytes = []
      · rw [hnil]
        rfl
      · dsimp only
        rw [if_neg hnil]
        exact if_neg fun h ↦ h.elim hnil Bool.false_ne_true

/-- A call of an emitter publishes what it flushes. -/
theorem emit_eq (h : s.emitter = fun stream ↦ { buf := pending stream }) (e : OutputEvent) :
    x.emit s e = { s with
      emitter := fun stream ↦ { buf := x.left pending e stream }
      seq := s.seq + (x.batch pending e).length
      published := s.published ++ x.chunks s.seq (x.batch pending e) } := by
  have hupdate : Function.update s.emitter e.stream
      { buf := (x.flushed (pending e.stream) e.call).2 } =
        fun stream ↦ ({ buf := x.left pending e stream } : Emitter) := by
    rw [h]
    exact (Function.comp_update (fun bytes ↦ ({ buf := bytes } : Emitter)) pending e.stream _).symm
  by_cases hx : x.stream = true
  · rw [emit, if_pos hx, h, call_eq_flushed hx, ← h]
    dsimp only
    rw [hupdate, batch]
    cases (x.flushed (pending e.stream) e.call).1 with
    | none => simp [chunks]
    | some data => rfl
  · have hleft : x.left pending e = pending := by
      unfold left flushed
      rw [if_neg hx]
      exact Function.update_eq_self e.stream pending
    have hbatch : x.batch pending e = [] := by
      unfold batch flushed
      rw [if_neg hx]
      rfl
    rw [emit, if_neg hx, hleft, hbatch, ← h]
    simp [chunks]

/-- A call that the captures have room for. -/
theorem serve_eq (h : s.At x pending written) (e : OutputEvent)
    (hroom : 0 < x.half ∨ writes [e] e.stream = []) :
    ∃ s', x.serve s e = some s' ∧
      s'.At x (x.left pending e) (fun stream ↦ written stream ++ writes [e] stream) ∧
      s'.seq = s.seq + (x.batch pending e).length ∧
      s'.published = s.published ++ x.chunks s.seq (x.batch pending e) := by
  obtain ⟨w, hw, hhalf, hcaptures⟩ : ∃ w, captured (s.capture e.stream) e.call = some w ∧
      w.half = x.half ∧ w.Captures (written e.stream ++ writes [e] e.stream) := by
    rw [writes, if_pos rfl, writes, List.append_nil] at hroom ⊢
    cases hcall : e.call with
    | write p =>
        rw [hcall, Emitter.written, Emitter.written, List.append_nil, ← h.half e.stream] at hroom
        obtain ⟨w, hw, hmax, hcaptures⟩ := (h.captures e.stream).write p hroom
        refine ⟨w, hw, ?_, ?_⟩
        · rw [← h.half e.stream, CapWriter.half, hmax, CapWriter.half]
        · rw [Emitter.written, Emitter.written, List.append_nil]
          exact hcaptures
    | tick =>
        refine ⟨_, rfl, h.half e.stream, ?_⟩
        rw [Emitter.written, Emitter.written, List.append_nil]
        exact h.captures e.stream
  have hemit := emit_eq (x := x)
    (s := { s with capture := Function.update s.capture e.stream w }) h.emitter e
  refine ⟨_, by rw [serve, hw]; rfl, ?_⟩
  rw [hemit]
  refine ⟨⟨rfl, fun stream ↦ ?_, fun stream ↦ ?_⟩, rfl, rfl⟩
  · by_cases hstream : stream = e.stream
    · rw [hstream]
      show (Function.update s.capture e.stream w e.stream).Captures _
      rw [Function.update_self]
      exact hcaptures
    · show (Function.update s.capture e.stream w stream).Captures _
      rw [Function.update_of_ne hstream, writes, if_neg (Ne.symm hstream), writes,
        List.append_nil, List.append_nil]
      exact h.captures stream
  · show (Function.update s.capture e.stream w stream).half = x.half
    by_cases hstream : stream = e.stream
    · rw [hstream, Function.update_self]
      exact hhalf
    · rw [Function.update_of_ne hstream]
      exact h.half stream

/-- What two writers hold that have taken all that has been written. -/
theorem finalOf_eq (h : s.At x pending written) :
    x.finalOf (s.capture .stdout) (s.capture .stderr) = x.finalFor written := by
  rw [finalOf, (h.captures .stdout).bytes, (h.captures .stderr).bytes,
    (h.captures .stdout).truncated, (h.captures .stderr).truncated,
    (h.captures .stdout).dropped, (h.captures .stderr).dropped, h.half, h.half]
  rfl

/-- The chunks are the batches, and the result is that of all that has been written. -/
theorem follow_eq (h : s.At x pending written) (events : List OutputEvent)
    (hroom : 0 < x.half ∨ ∀ stream, writes events stream = []) :
    x.follow s events = s.published ++ x.chunks s.seq (x.batchesFrom pending events) ++
      [x.finalFor fun stream ↦ written stream ++ writes events stream] := by
  induction events generalizing s pending written with
  | nil =>
      have hwritten : (fun stream ↦ written stream ++ writes [] stream) = written := by
        funext stream
        exact List.append_nil _
      have hfirst := emit_eq (x := x) h.emitter ⟨.stdout, .tick⟩
      have hmiddle : (x.emit s ⟨.stdout, .tick⟩).emitter =
          fun stream ↦ { buf := x.left pending ⟨.stdout, .tick⟩ stream } := by rw [hfirst]
      have hsecond := emit_eq (x := x) hmiddle ⟨.stderr, .tick⟩
      rw [hwritten, ← finalOf_eq h, batchesFrom, chunks_append, ← List.append_assoc]
      show (x.emit (x.emit s ⟨.stdout, .tick⟩) ⟨.stderr, .tick⟩).published ++ _ = _
      rw [hsecond, hfirst]
  | cons e events ih =>
      obtain ⟨he, hevents⟩ := room_cons hroom
      obtain ⟨s', hserve, h', hseq, hpublished⟩ := serve_eq h e he
      have hwritten : (fun stream ↦ written stream ++ writes [e] stream ++ writes events stream) =
          fun stream ↦ written stream ++ writes (e :: events) stream := by
        funext stream
        rw [writes_cons e events stream, List.append_assoc]
      rw [follow, hserve]
      dsimp only
      rw [ih h' hevents, hseq, hpublished, batchesFrom, chunks_append, hwritten,
        List.append_assoc s.published]

/-- Without any room in the captures, the agent is gone with the first bytes. -/
theorem follow_of_panics (h : s.At x (fun _ ↦ []) fun _ ↦ []) (hhalf : x.half = 0)
    {events : List OutputEvent} (hwrites : ∃ stream, writes events stream ≠ []) :
    x.follow s events = s.published := by
  induction events generalizing s with
  | nil =>
      obtain ⟨stream, hne⟩ := hwrites
      exact absurd rfl hne
  | cons e events ih =>
      by_cases hnil : writes [e] e.stream = []
      · have hflushed : x.flushed [] e.call = (none, []) := by
          rw [writes, if_pos rfl, writes, List.append_nil] at hnil
          unfold flushed
          split
          · cases hcall : e.call with
            | write p =>
                rw [hcall, Emitter.written, Emitter.written, List.append_nil] at hnil
                rw [hnil]
                rfl
            | tick => rfl
          · rfl
        have hleft : x.left (fun _ ↦ []) e = fun _ ↦ [] := by
          rw [left, hflushed]
          exact Function.update_eq_self e.stream _
        have hbatch : x.batch (fun _ ↦ []) e = [] := by
          rw [batch, hflushed]
          rfl
        obtain ⟨s', hserve, h', -, hpublished⟩ := serve_eq h e (.inr hnil)
        have hnone : ∀ stream, writes [e] stream = [] := by
          intro stream
          by_cases hstream : stream = e.stream
          · rw [hstream]
            exact hnil
          · rw [writes, if_neg (Ne.symm hstream)]
            rfl
        have hwritten : (fun stream ↦ [] ++ writes [e] stream) = fun _ ↦ ([] : List UInt8) := by
          funext stream
          exact hnone stream
        rw [hleft, hwritten] at h'
        rw [hbatch] at hpublished
        rw [follow, hserve]
        dsimp only
        rw [ih h', hpublished]
        · exact List.append_nil _
        · obtain ⟨stream, hne⟩ := hwrites
          rw [writes_cons, hnone stream] at hne
          exact ⟨stream, hne⟩
      · have hnone : x.serve s e = none := by
          rw [writes, if_pos rfl, writes, List.append_nil] at hnil
          rw [serve]
          cases hcall : e.call with
          | write p =>
              rw [hcall, Emitter.written, Emitter.written, List.append_nil] at hnil
              rw [captured, (h.captures e.stream).write_none ((h.half _).trans hhalf) hnil]
              rfl
          | tick =>
              rw [hcall] at hnil
              exact absurd rfl hnil
        rw [follow, hnone]

/-- Something is written, and the captures have no room at all. -/
def Panics (x : Execution) : Prop := x.half = 0 ∧ ∃ stream, writes x.events stream ≠ []

theorem start_at : x.start.At x (fun _ ↦ []) fun _ ↦ [] where
  emitter := rfl
  captures _ := CapWriter.captures_new _
  half _ := rfl

/-- All that is handed over by an agent that does not panic. -/
theorem results_eq (h : ¬ x.Panics) :
    x.results = x.chunks 0 x.batches ++ [x.finalFor (writes x.events)] := by
  refine follow_eq start_at x.events ?_
  by_cases hhalf : x.half = 0
  · right
    intro stream
    by_contra hne
    exact h ⟨hhalf, stream, hne⟩
  · exact .inl (Nat.pos_of_ne_zero hhalf)

theorem results_of_panics (h : x.Panics) : x.results = [] :=
  follow_of_panics start_at h.1 h.2

/-- The kept output and the batches fit into what the other fields leave of a payload. -/
structure Fits (x : Execution) : Prop where
  final : size (x.finalFor (writes x.events)).envelope.marshal +
    taken "stdout" (CapWriter.kept x.half (writes x.events .stdout)) +
    taken "stderr" (CapWriter.kept x.half (writes x.events .stderr)) ≤ messageSizeLimit
  chunks : ∀ b ∈ x.batches.zipIdx,
    size (x.chunk b.2 b.1.1 []).marshal + taken "data" b.1.2 ≤ messageSizeLimit

theorem size_final (written : OutputStream → List UInt8) :
    size (x.finalFor written).marshal = size (x.finalFor written).envelope.marshal +
      taken "stdout" (CapWriter.kept x.half (written .stdout)) +
      taken "stderr" (CapWriter.kept x.half (written .stderr)) := by
  have hdata : (x.finalFor written).data = [] := rfl
  have hstdout : (x.finalFor written).stdout = CapWriter.kept x.half (written .stdout) := rfl
  have hstderr : (x.finalFor written).stderr = CapWriter.kept x.half (written .stderr) := rfl
  rw [Report.size_marshal, hdata, taken_nil, Nat.add_zero, hstdout, hstderr]

theorem size_chunk (seq : Nat) (stream : OutputStream) (data : List UInt8) :
    size (x.chunk seq stream data).marshal =
      size (x.chunk seq stream []).marshal + taken "data" data := by
  have henvelope : (x.chunk seq stream data).envelope = x.chunk seq stream [] := rfl
  have hstdout : (x.chunk seq stream data).stdout = [] := rfl
  have hstderr : (x.chunk seq stream data).stderr = [] := rfl
  have hdata : (x.chunk seq stream data).data = data := rfl
  rw [Report.size_marshal, hstdout, hstderr, taken_nil, taken_nil, Nat.add_zero, henvelope,
    hdata]

/-- The broker takes all payloads exactly if the output fits, or the agent panics before it has
any. -/
theorem results_deliverable (x : Execution) :
    (∀ r ∈ x.results, size r.marshal ≤ messageSizeLimit) ↔ x.Panics ∨ x.Fits := by
  by_cases hpanics : x.Panics
  · rw [results_of_panics hpanics]
    exact iff_of_true (fun _ hr ↦ nomatch hr) (.inl hpanics)
  · rw [results_eq hpanics, or_iff_right hpanics]
    constructor
    · intro h
      constructor
      · rw [← size_final]
        exact h _ (List.mem_append_right _ List.mem_cons_self)
      · intro b hb
        rw [← size_chunk]
        exact h _ (List.mem_append_left _ (List.mem_map_of_mem hb))
    · rintro ⟨hfinal, hchunks⟩ r hr
      rcases List.mem_append.mp hr with hr | hr
      · obtain ⟨b, hb, rfl⟩ := List.mem_map.mp hr
        rw [size_chunk]
        exact hchunks b hb
      · rw [List.mem_singleton.mp hr, size_final]
        exact hfinal

/-! ## Results that are too large -/

theorem length_writes_replicate (n : Nat) (stream : OutputStream) (p : List UInt8) :
    (writes (List.replicate n ⟨stream, .write p⟩) stream).length = n * p.length := by
  induction n with
  | zero => exact (Nat.zero_mul _).symm
  | succ n ih =>
      rw [List.replicate_succ, writes, if_pos rfl, Emitter.written, Emitter.written,
        List.append_nil, List.length_append, ih, Nat.succ_mul, Nat.add_comm]

theorem length_lt_taken (name : String) {data : List UInt8} (h : data ≠ []) :
    data.length < taken name data := by
  have hsize := (JsonString.escapedSize_bounds data).1
  rw [taken, if_neg h]
  omega

/-- A process that writes, with the default configuration. -/
def exampleExecution (stream : Bool) (events : List OutputEvent) : Execution where
  deviceID := "dev"
  agentVersion := "dev"
  cfg := defaultExec
  id := "cmd"
  stream
  events
  ending := { startedAt := "2026-01-01T00:00:00Z", finishedAt := "2026-01-01T00:00:01Z"
              durationMS := 1000 }

theorem exampleExecution_half (stream : Bool) (events : List OutputEvent) :
    (exampleExecution stream events).half = 524288 := by
  have hmax : (exampleExecution stream events).maxOut = defaultExec.maxOutputBytes :=
    if_neg fun h ↦ Int.lt_irrefl 0 h.1
  rw [half, hmax]
  decide

theorem exampleExecution_results (stream : Bool) (events : List OutputEvent) :
    (exampleExecution stream events).results =
      (exampleExecution stream events).chunks 0 (exampleExecution stream events).batches ++
        [(exampleExecution stream events).finalFor (writes events)] := by
  refine results_eq fun h ↦ ?_
  rw [Panics, exampleExecution_half] at h
  cases h.1

/-- 256 KiB of text, read in pieces of 32 KiB. -/
def longText : Execution :=
  exampleExecution false (List.replicate 8 ⟨.stdout, .write (List.replicate 32768 97)⟩)

/-- Zero bytes, of which one more would have filled the buffer, and another piece of them. -/
def zeroBytes : Execution :=
  exampleExecution true [⟨.stdout, .write (List.replicate 32767 0)⟩,
    ⟨.stdout, .write (List.replicate 32768 0)⟩]

/-- The result of a text of 256 KiB is too large, and so is a chunk of less than 64 KiB. -/
theorem results_undeliverable :
    (∃ r ∈ longText.results, r.kind = .result ∧ messageSizeLimit < size r.marshal) ∧
    ∃ r ∈ zeroBytes.results, r.kind = .chunk ∧ messageSizeLimit < size r.marshal := by
  constructor
  · refine ⟨longText.finalFor (writes longText.events), ?_, rfl, ?_⟩
    · rw [longText, exampleExecution_results]
      exact List.mem_append_right _ List.mem_cons_self
    · have hlength : (writes longText.events .stdout).length = 262144 := by
        refine (length_writes_replicate 8 .stdout _).trans ?_
        rw [List.length_replicate]
      have hhalf : longText.half = 524288 := exampleExecution_half _ _
      have hkept : CapWriter.kept longText.half (writes longText.events .stdout) =
          writes longText.events .stdout := if_pos (by omega)
      have hne : writes longText.events .stdout ≠ [] := by
        intro hnil
        rw [hnil] at hlength
        cases hlength
      have hlarge := length_lt_taken "stdout" hne
      rw [size_final, hkept, messageSizeLimit]
      omega
  · have hbatch : (OutputStream.stdout, List.replicate 65535 0) ∈ zeroBytes.batches := by
      have hfirst : zeroBytes.left (fun _ ↦ []) ⟨.stdout, .write (List.replicate 32767 0)⟩ .stdout =
          List.replicate 32767 0 := by
        rw [left, flushed_of_room rfl]
        · exact Function.update_self _ _ _
        · rw [List.length_append, List.length_replicate]
          decide
      have hsecond : zeroBytes.flushed (List.replicate 32767 0) (.write (List.replicate 32768 0)) =
          (some (List.replicate 65535 0), []) := by
        rw [flushed_of_full rfl, List.replicate_append_replicate]
        rw [List.length_append, List.length_replicate, List.length_replicate]
        decide
      refine List.mem_append_right _ (List.mem_append_left _ ?_)
      rw [batch, hfirst, hsecond]
      exact List.mem_cons_self
    obtain ⟨n, hn⟩ : ∃ n, ((OutputStream.stdout, List.replicate 65535 0), n) ∈
        zeroBytes.batches.zipIdx := by
      obtain ⟨n, hn⟩ := List.mem_iff_getElem?.mp hbatch
      exact ⟨n, List.mem_zipIdx_iff_getElem?.mpr hn⟩
    refine ⟨zeroBytes.chunk n .stdout (List.replicate 65535 0), ?_, rfl, ?_⟩
    · rw [zeroBytes, exampleExecution_results]
      exact List.mem_append_left _ (List.mem_map.mpr ⟨_, hn, rfl⟩)
    · have hne : List.replicate 65535 (0 : UInt8) ≠ [] := by
        rw [Ne, List.replicate_eq_nil_iff]
        decide
      rw [size_chunk, taken, if_neg hne, JsonString.escapedSize_replicate_zero, messageSizeLimit]
      omega

end Execution

end Zenstier.Agent
