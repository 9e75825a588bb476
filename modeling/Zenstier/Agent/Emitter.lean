import Zenstier.Text.JsonString

/-!
# Live output

A `chunkEmitter` collects what a process writes to one of its streams and hands it to a sink in
batches: when enough has come together, when some time has passed, and when the process has
ended.  A batch ends where it happens to end, which may be within a character; the encoder of the
message then replaces the bytes on either side.
-/

namespace Zenstier.Agent

open Utf8

/-- The size trigger. -/
def streamChunkBytes : Nat := 32 * 1024

structure Emitter where
  buf : List UInt8 := []
  closed : Bool := false
deriving DecidableEq, Repr

namespace Emitter

/-- The locked section of `Write`: whether the buffer is full, and the emitter after it. -/
def write (e : Emitter) (max : Nat) (p : List UInt8) : Bool × Emitter :=
  let buf := e.buf ++ p
  (max ≤ buf.length, { e with buf })

/-- The locked section of `Flush`: what is to be handed to the sink. -/
def take (e : Emitter) : Option (List UInt8) × Emitter :=
  if e.buf = [] ∨ e.closed then (none, e) else (some e.buf, { e with buf := [] })

@[simp] theorem write_buf (e : Emitter) (max : Nat) (p : List UInt8) :
    (e.write max p).2.buf = e.buf ++ p := rfl

@[simp] theorem write_closed (e : Emitter) (max : Nat) (p : List UInt8) :
    (e.write max p).2.closed = e.closed := rfl

@[simp] theorem take_closed (e : Emitter) : e.take.2.closed = e.closed := by
  unfold take
  split <;> rfl

/-- As long as the emitter is open, nothing is lost and nothing stays. -/
theorem take_of_open {e : Emitter} (h : e.closed = false) :
    e.take.1.getD [] = e.buf ∧ e.take.2.buf = [] := by
  unfold take
  split
  · rename_i hnone
    rcases hnone with hbuf | hclosed
    · exact ⟨hbuf.symm, hbuf⟩
    · rw [h] at hclosed
      cases hclosed
  · exact ⟨rfl, rfl⟩

theorem take_of_closed {e : Emitter} (h : e.closed = true) : e.take = (none, e) := if_pos (.inr h)

/-- Whatever is not handed over is still there. -/
theorem take_data (e : Emitter) : e.take.1.getD [] ++ e.take.2.buf = e.buf := by
  unfold take
  split
  · rfl
  · exact List.append_nil e.buf

theorem take_buf_of_nil {e : Emitter} (h : e.buf = []) : e.take.2.buf = [] := by
  unfold take
  rw [if_pos (.inl h)]
  exact h

/-! ## One call after the other -/

/-- What is called before `Close`: a write, or a flush by the ticker. -/
inductive Call
  | write (p : List UInt8)
  | tick
deriving DecidableEq, Repr

/-- The batch that a call hands to the sink, if any. -/
def call (e : Emitter) (max : Nat) : Call → Option (List UInt8) × Emitter
  | .write p =>
      let (full, e) := e.write max p
      if full then e.take else (none, e)
  | .tick => e.take

/-- The batches of some calls and of `Close`. -/
def batches (max : Nat) : Emitter → List Call → List (List UInt8)
  | e, [] => e.take.1.toList
  | e, c :: cs => (e.call max c).1.toList ++ batches max (e.call max c).2 cs

/-- The chunks of a stream. -/
def chunks (max : Nat) (calls : List Call) : List (List UInt8) := batches max {} calls

/-- What has been written. -/
def written : List Call → List UInt8
  | [] => []
  | .write p :: cs => p ++ written cs
  | .tick :: cs => written cs

theorem flatten_toList (o : Option (List UInt8)) : o.toList.flatten = o.getD [] := by
  cases o with
  | none => rfl
  | some bytes => exact List.append_nil bytes

/-- A call hands on from the front of what there is. -/
theorem call_of_open {e : Emitter} (h : e.closed = false) (max : Nat) (c : Call) :
    (e.call max c).1.getD [] ++ (e.call max c).2.buf = e.buf ++ written [c] ∧
      (e.call max c).2.closed = false := by
  cases c with
  | write p =>
      rw [written, written, List.append_nil]
      dsimp only [call]
      split
      · obtain ⟨hall, hnil⟩ := take_of_open (e := (e.write max p).2) h
        refine ⟨?_, (take_closed _).trans h⟩
        rw [hall, hnil, List.append_nil]
        rfl
      · exact ⟨rfl, h⟩
  | tick =>
      obtain ⟨hall, hnil⟩ := take_of_open h
      refine ⟨?_, (take_closed e).trans h⟩
      show e.take.1.getD [] ++ e.take.2.buf = e.buf ++ []
      rw [hall, hnil]

/-- The batches are what was in the buffer and what has been written. -/
theorem flatten_batches {e : Emitter} (h : e.closed = false) (max : Nat) (calls : List Call) :
    (batches max e calls).flatten = e.buf ++ written calls := by
  induction calls generalizing e with
  | nil =>
      rw [batches, flatten_toList, (take_of_open h).1, written, List.append_nil]
  | cons c cs ih =>
      obtain ⟨hcall, hopen⟩ := call_of_open h max c
      rw [batches, List.flatten_append, flatten_toList, ih hopen, ← List.append_assoc, hcall,
        List.append_assoc]
      congr 1
      cases c with
      | write p =>
          show p ++ written [] ++ written cs = p ++ written cs
          rw [written, List.append_nil]
      | tick => rfl

theorem flatten_chunks (max : Nat) (calls : List Call) :
    (chunks max calls).flatten = written calls := flatten_batches rfl max calls

end Emitter

/-! ## The text that the console shows -/

/-- The chunks as the console gets them, one after the other: each has been encoded as the
`data` of a result and decoded by the worker. -/
def consoleText (chunks : List (List UInt8)) : Option (List Char) :=
  (chunks.mapM fun chunk ↦ JsonString.decode (JsonString.encode chunk)).map List.flatten

theorem consoleText_eq (chunks : List (List UInt8)) :
    consoleText chunks = some (chunks.flatMap lossy) := by
  have hdecode : (fun chunk ↦ JsonString.decode (JsonString.encode chunk)) =
      fun chunk ↦ some (lossy chunk) := by
    funext chunk
    exact JsonString.decode_encode chunk
  have hmap : (chunks.mapM fun chunk ↦ some (lossy chunk)) = some (chunks.map lossy) := by
    induction chunks with
    | nil => rfl
    | cons chunk chunks ih =>
        rw [List.mapM_cons, ih]
        rfl
  rw [consoleText, hdecode, hmap]
  rfl

/-- The console shows the text that was written exactly if no chunk begins within a
character. -/
theorem chunked_text (max : Nat) (calls : List Emitter.Call) (text : List Char)
    (h : Emitter.written calls = Utf8.utf8 text) :
    consoleText (Emitter.chunks max calls) = some text ↔
      ∀ chunk ∈ Emitter.chunks max calls, Aligned chunk := by
  rw [consoleText_eq, Option.some.injEq]
  exact flatMap_lossy_eq_iff (h.symm.trans (Emitter.flatten_chunks max calls).symm)

/-- A character that is written at once. -/
theorem chunked_text_whole :
    consoleText (Emitter.chunks streamChunkBytes [.write [0xC3, 0xA9], .tick]) = some ['é'] := by
  refine (chunked_text streamChunkBytes [.write [0xC3, 0xA9], .tick] ['é'] (by decide)).mpr ?_
  decide

/-- If the ticker fires between the two bytes of a character, it is not shown. -/
theorem chunked_text_broken :
    Emitter.written [.write [0xC3], .tick, .write [0xA9]] = Utf8.utf8 ['é'] ∧
    consoleText (Emitter.chunks streamChunkBytes [.write [0xC3], .tick, .write [0xA9]]) =
      some [replacement, replacement] ∧
    consoleText (Emitter.chunks streamChunkBytes [.write [0xC3], .tick, .write [0xA9]]) ≠
      some ['é'] := by
  decide

end Zenstier.Agent
