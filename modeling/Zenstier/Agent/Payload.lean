import Zenstier.Agent.Protocol
import Zenstier.Text.JsonString

/-!
# Payloads

What `PublishResult` sends: a result as the standard encoder of Go writes it.  The fields stand
in the order of the structure, and most of them are omitted when they are empty.  What a process
has written is bytes, and takes its room in the payload character by character.
-/

namespace Zenstier.Agent

open Utf8

/-! ## Results -/

/-- `Result`, as the encoder gets it.  A time is the text that stands for it. -/
structure Report where
  v : Int := version
  id : String
  deviceID : String
  kind : ResultKind
  status : Option ResultStatus := none
  exitCode : Option Int := none
  stdout : List UInt8 := []
  stderr : List UInt8 := []
  truncated : Bool := false
  droppedBytes : Nat := 0
  startedAt : Option String := none
  finishedAt : Option String := none
  durationMS : Option Int := none
  agentVersion : String := ""
  errorCode : Option ErrorCode := none
  error : String := ""
  seq : Nat := 0
  stream : Option OutputStream := none
  data : List UInt8 := []
deriving DecidableEq, Repr

end Zenstier.Agent

namespace Zenstier

/-! ## Names on the wire -/

def ResultKind.name : ResultKind → String
  | .accepted => "accepted"
  | .chunk => "chunk"
  | .result => "result"

def ResultStatus.name : ResultStatus → String
  | .queued => "queued"
  | .running => "running"
  | .completed => "completed"
  | .failed => "failed"
  | .timeout => "timeout"
  | .canceled => "canceled"
  | .rejected => "rejected"

def OutputStream.name : OutputStream → String
  | .stdout => "stdout"
  | .stderr => "stderr"

def Agent.ErrorCode.name : Agent.ErrorCode → String
  | .agentBusy => "agent_busy"
  | .invalidCommand => "invalid_command"
  | .expired => "expired"
  | .unsupportedType => "unsupported_type"
  | .spawnFailed => "spawn_failed"
  | .timeout => "timeout"
  | .internal => "internal"

end Zenstier

namespace Zenstier.Agent

open Utf8

/-! ## The encoder -/

namespace Json

/-- A string. -/
def string (bytes : List UInt8) : List Char := '"' :: JsonString.encode bytes ++ ['"']

def text (s : String) : List Char := string (utf8 s)

def int (n : Int) : List Char := (toString n).toList

def field (name : String) (value : List Char) : List Char :=
  '"' :: name.toList ++ '"' :: ':' :: value

/-- A field that is omitted when it is `nil`, zero or empty. -/
def optional (name : String) (value : Option (List Char)) : List (List Char) :=
  (value.map (field name)).toList

def flag (name : String) (value : Bool) : List (List Char) :=
  if value then [field name "true".toList] else []

def number (name : String) (value : Nat) : List (List Char) :=
  if value = 0 then [] else [field name (int value)]

/-- A field for bytes, omitted when there are none. -/
def bytes (name : String) (data : List UInt8) : List (List Char) :=
  if data = [] then [] else [field name (string data)]

def object (fields : List (List Char)) : List Char :=
  '{' :: [','].intercalate fields ++ ['}']

end Json

namespace Report

open Json

def fields (r : Report) : List (List Char) :=
  [field "v" (int r.v), field "id" (text r.id), field "device_id" (text r.deviceID),
    field "kind" (text r.kind.name)] ++
  optional "status" (r.status.map fun s ↦ text s.name) ++
  optional "exit_code" (r.exitCode.map int) ++
  bytes "stdout" r.stdout ++
  bytes "stderr" r.stderr ++
  flag "truncated" r.truncated ++
  number "dropped_bytes" r.droppedBytes ++
  optional "started_at" (r.startedAt.map text) ++
  optional "finished_at" (r.finishedAt.map text) ++
  optional "duration_ms" (r.durationMS.map int) ++
  bytes "agent_version" (utf8 r.agentVersion) ++
  optional "error_code" (r.errorCode.map fun c ↦ text c.name) ++
  bytes "error" (utf8 r.error) ++
  number "seq" r.seq ++
  optional "stream" (r.stream.map fun s ↦ text s.name) ++
  bytes "data" r.data

/-- The payload. -/
def marshal (r : Report) : List Char := object r.fields

/-- The same result without what the process has written. -/
def envelope (r : Report) : Report := { r with stdout := [], stderr := [], data := [] }

end Report

/-! ## Sizes -/

namespace Json

/-- The bytes that a field takes in an object, with its comma. -/
def taken (name : String) (data : List UInt8) : Nat :=
  if data = [] then 0 else size name.toList + JsonString.escapedSize data + 6

@[simp] theorem taken_nil (name : String) : taken name [] = 0 := rfl

/-- The bytes of some fields with their commas. -/
def total (fields : List (List Char)) : Nat := (fields.map fun f ↦ size f + 1).sum

@[simp] theorem total_append (fields fields' : List (List Char)) :
    total (fields ++ fields') = total fields + total fields' := by
  rw [total, List.map_append, List.sum_append, total, total]

theorem total_bytes (name : String) (data : List UInt8) :
    total (bytes name data) = taken name data := by
  rw [bytes, taken]
  split
  · rfl
  · rw [total, List.map_singleton, List.sum_singleton, field, string]
    simp only [size_cons, size_append, List.cons_append, size_nil, JsonString.size_encode]
    have hquote : '"'.utf8Size = 1 := rfl
    have hcolon : ':'.utf8Size = 1 := rfl
    omega

/-- An object is as long as its fields. -/
theorem size_object {fields : List (List Char)} (h : fields ≠ []) :
    size (object fields) = total fields + 1 := by
  have hcomma : ','.utf8Size = 1 := rfl
  have hinter : ∀ f fs, size ([','].intercalate (f :: fs)) + 1 = total (f :: fs) := by
    intro f fs
    induction fs generalizing f with
    | nil => simp [total]
    | cons f' fs ih =>
        have hrest := ih f'
        rw [List.intercalate_cons_cons, size_append, size_append]
        rw [total, List.map_cons, List.sum_cons, ← total, ← hrest, size_cons, size_nil]
        omega
  obtain ⟨f, fs, rfl⟩ := List.exists_cons_of_ne_nil h
  have hfields := hinter f fs
  have hopen : '{'.utf8Size = 1 := rfl
  have hclose : '}'.utf8Size = 1 := rfl
  rw [object, size_append, size_cons, size_cons, size_nil]
  omega

end Json

namespace Report

open Json

/-- What the process has written comes on top of the rest. -/
theorem size_marshal (r : Report) :
    size r.marshal = size r.envelope.marshal + taken "stdout" r.stdout +
      taken "stderr" r.stderr + taken "data" r.data := by
  have hfields : ∀ r : Report, r.fields ≠ [] := fun r h ↦ by
    simp only [fields, List.append_eq_nil_iff, List.cons_ne_nil, false_and] at h
  rw [marshal, marshal, size_object (hfields r), size_object (hfields r.envelope)]
  simp only [fields, total_append, total_bytes, envelope, taken_nil]
  omega

end Report

end Zenstier.Agent
