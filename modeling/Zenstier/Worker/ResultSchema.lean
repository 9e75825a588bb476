import Zenstier.Agent.Payload
import Zenstier.Text.FlatJson

/-!
# The schema of results

`resultPayloadSchema` of `protocol.ts`, and what it makes of the results that the encoder of the
agent writes.  The agent omits a field that is empty; the schema takes a field that is missing, or
`null` where it says so, and leaves it to `handleResult` to put something in its place.
-/

namespace Zenstier

open FlatJson

/-! ## Schemas -/

/-- `Number.MAX_SAFE_INTEGER`. -/
def MAX_SAFE_INTEGER : Int := 9007199254740991

/-- A whole number that a double holds as it is. -/
def Safe (n : Int) : Prop := -MAX_SAFE_INTEGER ≤ n ∧ n ≤ MAX_SAFE_INTEGER

instance (n : Int) : Decidable (Safe n) := by unfold Safe; infer_instance

namespace Zod

/-- What a schema makes of a value; `none` is an error. -/
abbrev Schema (α : Type) := Value → Option α

def string : Schema String
  | .string s => some s
  | _ => none

/-- `string().min(1)`. -/
def nonempty : Schema String
  | .string s => if 1 ≤ utf16Length s then some s else none
  | _ => none

def boolean : Schema Bool
  | .bool b => some b
  | _ => none

/-- `number().int()`. -/
def int : Schema Int
  | .number n => if Safe n then some n else none
  | _ => none

/-- `number().int().nonnegative()`. -/
def count : Schema Nat
  | .number n => if Safe n ∧ 0 ≤ n then some n.toNat else none
  | _ => none

def literal (n : Int) : Schema Unit
  | .number m => if m = n then some () else none
  | _ => none

/-- `enum`, of the values with their names. -/
def enum {α : Type} (name : α → String) (values : List α) : Schema α
  | .string s => values.find? fun a ↦ name a = s
  | _ => none

def nullable {α : Type} (schema : Schema α) : Schema (Option α)
  | .null => some none
  | v => (schema v).map some

/-- A field that must be there. -/
def required {α : Type} (schema : Schema α) (o : Object) (name : String) : Option α :=
  (find o name).bind schema

def optional {α : Type} (schema : Schema α) (o : Object) (name : String) : Option (Option α) :=
  match find o name with
  | none => some none
  | some v => (schema v).map some

/-- An optional field that is missing, or one that the schema takes. -/
theorem optional_map {α β : Type} {schema : Schema β} {o : Object} {name : String} {a : Option α}
    {b : α → β} (write : α → Value) (hfind : find o name = a.map write)
    (h : ∀ x ∈ a, schema (write x) = some (b x)) : optional schema o name = some (a.map b) := by
  rw [optional, hfind]
  cases a with
  | none => rfl
  | some x => exact congrArg (Option.map some) (h x rfl)

theorem optional_self {α : Type} {schema : Schema α} {o : Object} {name : String} {a : Option α}
    (write : α → Value) (hfind : find o name = a.map write)
    (h : ∀ x ∈ a, schema (write x) = some x) : optional schema o name = some a := by
  rw [optional_map write hfind h, Option.map_id']

end Zod

/-! ## The schema -/

def resultKinds : List ResultKind := [.accepted, .chunk, .result]

def resultStatuses : List ResultStatus :=
  [.queued, .running, .completed, .failed, .timeout, .canceled, .rejected]

/-- `resultErrorCodeSchema`. -/
def resultErrorCodes : List String :=
  ["agent_busy", "invalid_command", "expired", "unsupported_type", "spawn_failed", "run_as_failed",
    "timeout", "internal"]

/-- `ResultPayload`, with a missing field told from one that is `null`. -/
structure ResultMessage where
  id : String
  deviceId : String
  kind : ResultKind
  status : Option ResultStatus
  exitCode : Option (Option Int)
  stdout : Option String
  stderr : Option String
  truncated : Option Bool
  droppedBytes : Option Nat
  startedAt : Option (Option String)
  finishedAt : Option (Option String)
  durationMs : Option (Option Nat)
  agentVersion : Option String
  errorCode : Option (Option String)
  error : Option (Option String)
  seq : Option Nat
  stream : Option OutputStream
  data : Option String
  eof : Option Bool
deriving DecidableEq, Repr

section Schema

open Zod

def resultPayloadSchema (o : Object) : Option ResultMessage := do
  required (literal PROTOCOL_VERSION) o "v"
  let id ← required nonempty o "id"
  let deviceId ← required nonempty o "device_id"
  let kind ← required (enum ResultKind.name resultKinds) o "kind"
  let status ← optional (enum ResultStatus.name resultStatuses) o "status"
  let exitCode ← optional (nullable int) o "exit_code"
  let stdout ← optional string o "stdout"
  let stderr ← optional string o "stderr"
  let truncated ← optional boolean o "truncated"
  let droppedBytes ← optional count o "dropped_bytes"
  let startedAt ← optional (nullable string) o "started_at"
  let finishedAt ← optional (nullable string) o "finished_at"
  let durationMs ← optional (nullable count) o "duration_ms"
  let agentVersion ← optional string o "agent_version"
  let errorCode ← optional (nullable (enum (fun c ↦ c) resultErrorCodes)) o "error_code"
  let error ← optional (nullable string) o "error"
  let seq ← optional count o "seq"
  let stream ← optional (enum OutputStream.name [.stdout, .stderr]) o "stream"
  let data ← optional string o "data"
  let eof ← optional boolean o "eof"
  return { id, deviceId, kind, status, exitCode, stdout, stderr, truncated, droppedBytes, startedAt
           finishedAt, durationMs, agentVersion, errorCode, error, seq, stream, data, eof }

end Schema

/-- The message as `handleResult` goes on with it: what may be `null` counts as missing.  A time
that is not missing is made a `Date`. -/
def ResultMessage.payload (date : String → Int) (m : ResultMessage) : ResultPayload where
  id := m.id
  kind := m.kind
  status := m.status
  exitCode := m.exitCode.join
  stdout := m.stdout
  stderr := m.stderr
  truncated := m.truncated
  startedAt := (truthy m.startedAt.join).map date
  finishedAt := (truthy m.finishedAt.join).map date
  durationMs := m.durationMs.join.map Nat.cast
  error := m.error.join
  seq := m.seq
  stream := m.stream
  data := m.data

/-! ## What the agent writes -/

namespace Agent

/-- The result as `PublishResult` gets it.  A terminal result carries the version of the agent. -/
def Result.report (agentVersion : String) (formatTime : Int → String) (r : Result) : Report where
  v := r.v
  id := r.id
  deviceID := r.deviceID
  kind := r.kind
  status := r.status
  exitCode := r.exitCode
  stdout := utf8 r.stdout
  stderr := utf8 r.stderr
  truncated := r.truncated
  droppedBytes := r.droppedBytes
  startedAt := r.startedAt.map formatTime
  finishedAt := r.finishedAt.map formatTime
  durationMS := r.durationMS
  agentVersion := if r.kind = .result then agentVersion else ""
  errorCode := r.errorCode
  error := r.error
  seq := r.seq
  stream := r.stream
  data := utf8 r.data

/-- A member that may be missing. -/
def present {α : Type} (name : String) (a : Option α) (write : α → Value) : Object :=
  (a.map fun x ↦ (name, write x)).toList

@[simp] theorem find_present {α : Type} (name : String) (a : Option α) (write : α → Value)
    (name' : String) :
    find (present name a write) name' = if name = name' then a.map write else none := by
  cases a with
  | none => simp [present]
  | some x => simp [present]

/-- A number that is omitted when it is zero. -/
def omitZero (n : Nat) : Option Nat := if n = 0 then none else some n

/-- The members of the object that is written. -/
def Result.members (agentVersion : String) (formatTime : Int → String) (r : Result) : Object :=
  [("v", .number r.v), ("id", .string r.id), ("device_id", .string r.deviceID),
    ("kind", .string r.kind.name)] ++
  present "status" r.status (fun s ↦ .string s.name) ++
  present "exit_code" r.exitCode .number ++
  present "stdout" (omitEmpty r.stdout) .string ++
  present "stderr" (omitEmpty r.stderr) .string ++
  present "truncated" (if r.truncated then some true else none) .bool ++
  present "dropped_bytes" (omitZero r.droppedBytes) (fun n ↦ .number n) ++
  present "started_at" (r.startedAt.map formatTime) .string ++
  present "finished_at" (r.finishedAt.map formatTime) .string ++
  present "duration_ms" r.durationMS .number ++
  present "agent_version" (omitEmpty (if r.kind = .result then agentVersion else "")) .string ++
  present "error_code" r.errorCode (fun c ↦ .string c.name) ++
  present "error" (omitEmpty r.error) .string ++
  present "seq" (omitZero r.seq) (fun n ↦ .number n) ++
  present "stream" r.stream (fun s ↦ .string s.name) ++
  present "data" (omitEmpty r.data) .string

theorem text_reads (s : String) : Reads value (Json.text s) (.string s) := by
  have hencode : JsonString.encode (utf8 s) = s.toList.flatMap JsonString.escapeChar := by
    have hscan : Utf8.scan (utf8 s) = s.toList.map some := Utf8.scan_utf8 s.toList
    rw [JsonString.encode, hscan, List.flatMap_map]
    rfl
  have hread := stringValue_reads stands_escapeChar s
  rw [Json.text, Json.string, hencode]
  exact hread

theorem utf8_eq_nil {s : String} : utf8 s = [] ↔ s = "" := by
  constructor
  · intro h
    have hback : Utf8.lossy (utf8 s) = s.toList := Utf8.lossy_utf8 s.toList
    rw [h] at hback
    exact String.toList_eq_nil_iff.mp hback.symm
  · rintro rfl
    rfl

/-- Fields that are read one after the other. -/
theorem append_members {texts texts' : List (List Char)} {o o' : Object}
    (h : List.Forall₂ Member texts o) (h' : List.Forall₂ Member texts' o') :
    List.Forall₂ Member (texts ++ texts') (o ++ o') := List.rel_append h h'

section Fields

variable {name : String} (hname : Bare name)
include hname

theorem optional_members {α : Type} (a : Option α) {write : α → List Char} {v : α → Value}
    (h : ∀ x, Reads value (write x) (v x)) :
    List.Forall₂ Member (Json.optional name (a.map write)) (present name a v) := by
  cases a with
  | none => exact .nil
  | some x => exact .cons (.named hname (h x)) .nil

theorem bytes_members (s : String) :
    List.Forall₂ Member (Json.bytes name (utf8 s)) (present name (omitEmpty s) .string) := by
  by_cases hs : s = ""
  · subst hs
    exact .nil
  · rw [Json.bytes, if_neg fun h ↦ hs (utf8_eq_nil.mp h), omitEmpty, if_neg hs]
    exact .cons (.named hname (text_reads s)) .nil

theorem flag_members (b : Bool) :
    List.Forall₂ Member (Json.flag name b)
      (present name (if b then some true else none) .bool) := by
  cases b with
  | false => exact .nil
  | true => exact .cons (.named hname (bool_reads true)) .nil

theorem number_members (n : Nat) :
    List.Forall₂ Member (Json.number name n)
      (present name (omitZero n) fun n ↦ .number n) := by
  by_cases hn : n = 0
  · subst hn
    exact .nil
  · rw [Json.number, if_neg hn, omitZero, if_neg hn]
    exact .cons (.named hname (number_reads n)) .nil

end Fields

theorem report_members (agentVersion : String) (formatTime : Int → String) (r : Result) :
    List.Forall₂ Member (r.report agentVersion formatTime).fields
      (r.members agentVersion formatTime) := by
  have hhead : List.Forall₂ Member
      [Json.field "v" (Json.int r.v), Json.field "id" (Json.text r.id),
        Json.field "device_id" (Json.text r.deviceID), Json.field "kind" (Json.text r.kind.name)]
      [("v", .number r.v), ("id", .string r.id), ("device_id", .string r.deviceID),
        ("kind", .string r.kind.name)] :=
    .cons (.named (by decide) (number_reads r.v)) <|
    .cons (.named (by decide) (text_reads r.id)) <|
    .cons (.named (by decide) (text_reads r.deviceID)) <|
    .cons (.named (by decide) (text_reads r.kind.name)) .nil
  refine append_members ?_ (bytes_members (by decide) _)
  refine append_members ?_ (optional_members (by decide) _ fun _ ↦ text_reads _)
  refine append_members ?_ (number_members (by decide) _)
  refine append_members ?_ (bytes_members (by decide) _)
  refine append_members ?_ (optional_members (by decide) _ fun _ ↦ text_reads _)
  refine append_members ?_ (bytes_members (by decide) _)
  refine append_members ?_ (optional_members (by decide) _ number_reads)
  refine append_members ?_ (optional_members (by decide) _ text_reads)
  refine append_members ?_ (optional_members (by decide) _ text_reads)
  refine append_members ?_ (number_members (by decide) _)
  refine append_members ?_ (flag_members (by decide) _)
  refine append_members ?_ (bytes_members (by decide) _)
  refine append_members ?_ (bytes_members (by decide) _)
  refine append_members ?_ (optional_members (by decide) _ number_reads)
  exact append_members hhead (optional_members (by decide) _ fun _ ↦ text_reads _)

/-- The payload is read as the object. -/
theorem parse_marshal (agentVersion : String) (formatTime : Int → String) (r : Result) :
    parse (r.report agentVersion formatTime).marshal = some (r.members agentVersion formatTime) :=
  parse_object (report_members agentVersion formatTime r)

/-! ## What the schema accepts -/

/-- What the schema asks of a result. -/
structure Result.Sound (r : Result) : Prop where
  v : r.v = version
  id : r.id ≠ ""
  deviceID : r.deviceID ≠ ""
  exitCode : ∀ c ∈ r.exitCode, Safe c
  droppedBytes : Safe r.droppedBytes
  durationMS : ∀ d ∈ r.durationMS, 0 ≤ d ∧ Safe d
  seq : Safe r.seq

/-- The message that the schema finds in a result. -/
def Result.message (agentVersion : String) (formatTime : Int → String) (r : Result) :
    ResultMessage where
  id := r.id
  deviceId := r.deviceID
  kind := r.kind
  status := r.status
  exitCode := r.exitCode.map some
  stdout := omitEmpty r.stdout
  stderr := omitEmpty r.stderr
  truncated := if r.truncated then some true else none
  droppedBytes := omitZero r.droppedBytes
  startedAt := (r.startedAt.map formatTime).map some
  finishedAt := (r.finishedAt.map formatTime).map some
  durationMs := r.durationMS.map fun d ↦ some d.toNat
  agentVersion := omitEmpty (if r.kind = .result then agentVersion else "")
  errorCode := r.errorCode.map fun c ↦ some c.name
  error := (omitEmpty r.error).map some
  seq := omitZero r.seq
  stream := r.stream
  data := omitEmpty r.data
  eof := none

theorem nonempty_string {s : String} (h : s ≠ "") : Zod.nonempty (.string s) = some s := by
  obtain ⟨c, cs, hs⟩ := List.exists_cons_of_ne_nil fun hnil ↦ h (String.toList_eq_nil_iff.mp hnil)
  have hlength : 1 ≤ utf16Length s := by
    rw [utf16Length, hs, List.map_cons, List.sum_cons]
    split <;> omega
  exact if_pos hlength

theorem kind_schema (k : ResultKind) :
    Zod.enum ResultKind.name resultKinds (.string k.name) = some k := by
  cases k <;> rfl

theorem status_schema (s : ResultStatus) :
    Zod.enum ResultStatus.name resultStatuses (.string s.name) = some s := by
  cases s <;> rfl

theorem errorCode_schema (c : ErrorCode) :
    Zod.enum (fun c ↦ c) resultErrorCodes (.string c.name) = some c.name := by
  cases c <;> rfl

theorem stream_schema (s : OutputStream) :
    Zod.enum OutputStream.name [.stdout, .stderr] (.string s.name) = some s := by
  cases s <;> rfl

theorem count_schema {n : Nat} (h : Safe n) : Zod.count (.number n) = some n :=
  if_pos ⟨h, Int.natCast_nonneg n⟩

theorem mem_of_omitZero {n x : Nat} (h : x ∈ omitZero n) : x = n := by
  rw [omitZero] at h
  split at h
  · cases h
  · cases h
    rfl

/-- The schema finds in every sound result what the agent has put there. -/
theorem schema_members {r : Result} (h : r.Sound) (agentVersion : String)
    (formatTime : Int → String) :
    resultPayloadSchema (r.members agentVersion formatTime) =
      some (r.message agentVersion formatTime) := by
  generalize ho : r.members agentVersion formatTime = o
  have hv : Zod.required (Zod.literal PROTOCOL_VERSION) o "v" = some () := by
    have hfind : find o "v" = some (.number r.v) := by simp [← ho, Result.members]
    rw [Zod.required, hfind, h.v]
    rfl
  have hid : Zod.required Zod.nonempty o "id" = some r.id := by
    have hfind : find o "id" = some (.string r.id) := by simp [← ho, Result.members]
    rw [Zod.required, hfind]
    exact nonempty_string h.id
  have hdevice : Zod.required Zod.nonempty o "device_id" = some r.deviceID := by
    have hfind : find o "device_id" = some (.string r.deviceID) := by simp [← ho, Result.members]
    rw [Zod.required, hfind]
    exact nonempty_string h.deviceID
  have hkind : Zod.required (Zod.enum ResultKind.name resultKinds) o "kind" = some r.kind := by
    have hfind : find o "kind" = some (.string r.kind.name) := by simp [← ho, Result.members]
    rw [Zod.required, hfind]
    exact kind_schema r.kind
  have hstatus : Zod.optional (Zod.enum ResultStatus.name resultStatuses) o "status" =
      some r.status :=
    Zod.optional_self (fun s ↦ .string s.name) (by simp [← ho, Result.members])
      fun s _ ↦ status_schema s
  have hexit : Zod.optional (Zod.nullable Zod.int) o "exit_code" = some (r.exitCode.map some) :=
    Zod.optional_map .number (by simp [← ho, Result.members]) fun c hc ↦
      congrArg (Option.map some) (if_pos (h.exitCode c hc))
  have hstdout : Zod.optional Zod.string o "stdout" = some (omitEmpty r.stdout) :=
    Zod.optional_self .string (by simp [← ho, Result.members]) fun _ _ ↦ rfl
  have hstderr : Zod.optional Zod.string o "stderr" = some (omitEmpty r.stderr) :=
    Zod.optional_self .string (by simp [← ho, Result.members]) fun _ _ ↦ rfl
  have htruncated : Zod.optional Zod.boolean o "truncated" =
      some (if r.truncated then some true else none) :=
    Zod.optional_self .bool (by simp [← ho, Result.members]) fun _ _ ↦ rfl
  have hdropped : Zod.optional Zod.count o "dropped_bytes" = some (omitZero r.droppedBytes) :=
    Zod.optional_self (fun n ↦ .number n) (by simp [← ho, Result.members]) fun n hn ↦
      count_schema (mem_of_omitZero hn ▸ h.droppedBytes)
  have hstarted : Zod.optional (Zod.nullable Zod.string) o "started_at" =
      some ((r.startedAt.map formatTime).map some) :=
    Zod.optional_map .string (by simp [← ho, Result.members]) fun _ _ ↦ rfl
  have hfinished : Zod.optional (Zod.nullable Zod.string) o "finished_at" =
      some ((r.finishedAt.map formatTime).map some) :=
    Zod.optional_map .string (by simp [← ho, Result.members]) fun _ _ ↦ rfl
  have hduration : Zod.optional (Zod.nullable Zod.count) o "duration_ms" =
      some (r.durationMS.map fun d ↦ some d.toNat) :=
    Zod.optional_map .number (by simp [← ho, Result.members]) fun d hd ↦
      congrArg (Option.map some) (if_pos ⟨(h.durationMS d hd).2, (h.durationMS d hd).1⟩)
  have hagent : Zod.optional Zod.string o "agent_version" =
      some (omitEmpty (if r.kind = .result then agentVersion else "")) :=
    Zod.optional_self .string (by simp [← ho, Result.members]) fun _ _ ↦ rfl
  have hcode : Zod.optional (Zod.nullable (Zod.enum (fun c ↦ c) resultErrorCodes)) o "error_code" =
      some (r.errorCode.map fun c ↦ some c.name) :=
    Zod.optional_map (fun c ↦ .string c.name) (by simp [← ho, Result.members]) fun c _ ↦
      congrArg (Option.map some) (errorCode_schema c)
  have herror : Zod.optional (Zod.nullable Zod.string) o "error" =
      some ((omitEmpty r.error).map some) :=
    Zod.optional_map .string (by simp [← ho, Result.members]) fun _ _ ↦ rfl
  have hseq : Zod.optional Zod.count o "seq" = some (omitZero r.seq) :=
    Zod.optional_self (fun n ↦ .number n) (by simp [← ho, Result.members]) fun n hn ↦
      count_schema (mem_of_omitZero hn ▸ h.seq)
  have hstream : Zod.optional (Zod.enum OutputStream.name [.stdout, .stderr]) o "stream" =
      some r.stream :=
    Zod.optional_self (fun s ↦ .string s.name) (by simp [← ho, Result.members])
      fun s _ ↦ stream_schema s
  have hdata : Zod.optional Zod.string o "data" = some (omitEmpty r.data) :=
    Zod.optional_self .string (by simp [← ho, Result.members]) fun _ _ ↦ rfl
  have heof : Zod.optional Zod.boolean o "eof" = some none := by
    have hfind : find o "eof" = none := by simp [← ho, Result.members]
    rw [Zod.optional, hfind]
  simp only [resultPayloadSchema, hv, hid, hdevice, hkind, hstatus, hexit, hstdout, hstderr,
    htruncated, hdropped, hstarted, hfinished, hduration, hagent, hcode, herror, hseq, hstream,
    hdata, heof, Option.bind_eq_bind, Option.bind_some]
  rfl

/-- The payload that is written is accepted. -/
theorem schema_marshal {r : Result} (h : r.Sound) (agentVersion : String)
    (formatTime : Int → String) :
    (parse (r.report agentVersion formatTime).marshal).bind resultPayloadSchema =
      some (r.message agentVersion formatTime) := by
  rw [parse_marshal, Option.bind_some, schema_members h]

/-! ## What is recovered -/

/-- The payload says what the result says, once `handleResult` has put its defaults in the place of
what is missing. -/
structure Result.Recovered (r : Result) (p : ResultPayload) : Prop where
  id : p.id = r.id
  kind : p.kind = r.kind
  status : p.status = r.status
  exitCode : p.exitCode = r.exitCode
  seq : p.seq.getD 0 = r.seq
  stream : p.stream = r.stream
  /-- A chunk always names its stream. -/
  chunkStream : r.kind = .chunk → r.stream = some (p.stream.getD .stdout)
  data : p.data.getD "" = r.data
  stdout : p.stdout.getD "" = r.stdout
  stderr : p.stderr.getD "" = r.stderr
  truncated : p.truncated.getD false = r.truncated
  durationMS : p.durationMs = r.durationMS
  error : p.error.getD "" = r.error

theorem getD_omitEmpty (s : String) : (omitEmpty s).getD "" = s := by
  rw [omitEmpty]
  split
  · rename_i h
    exact h.symm
  · rfl

theorem getD_omitZero (n : Nat) : (omitZero n).getD 0 = n := by
  rw [omitZero]
  split
  · rename_i h
    exact h.symm
  · rfl

theorem join_map_some {α : Type} (a : Option α) : (a.map some).join = a := by
  cases a <;> rfl

/-- A duration is never negative. -/
theorem duration_cast {r : Result} (h : r.Sound) :
    (r.durationMS.map fun d ↦ some d.toNat).join.map Nat.cast = r.durationMS := by
  cases hd : r.durationMS with
  | none => rfl
  | some d => exact congrArg some (Int.toNat_of_nonneg (h.durationMS d hd).1)

theorem message_recovered {r : Result} (h : r.Sound) (hchunk : r.kind = .chunk → r.stream.isSome)
    (agentVersion : String) (formatTime : Int → String) (date : String → Int) :
    r.Recovered ((r.message agentVersion formatTime).payload date) where
  id := rfl
  kind := rfl
  status := rfl
  exitCode := join_map_some _
  seq := getD_omitZero _
  stream := rfl
  chunkStream hkind := by
    obtain ⟨s, hs⟩ := Option.isSome_iff_exists.mp (hchunk hkind)
    show r.stream = some (r.stream.getD .stdout)
    rw [hs]
    rfl
  data := getD_omitEmpty _
  stdout := getD_omitEmpty _
  stderr := getD_omitEmpty _
  truncated := by
    show (if r.truncated then some true else none).getD false = r.truncated
    cases r.truncated <;> rfl
  durationMS := duration_cast h
  error := by
    show ((omitEmpty r.error).map some).join.getD "" = r.error
    rw [join_map_some, getD_omitEmpty]

/-- Where the backend reads the times that the agent writes, the payload is the one that the worker
is modelled with. -/
theorem message_payload {r : Result} (h : r.Sound) (agentVersion : String)
    {formatTime : Int → String} {date : String → Int}
    (hdate : ∀ t, formatTime t ≠ "" ∧ date (formatTime t) = t) :
    (r.message agentVersion formatTime).payload date = r.payload := by
  have htime : ∀ t : Option Int, (truthy (t.map formatTime)).map date = t := by
    intro t
    cases t with
    | none => rfl
    | some t =>
        obtain ⟨hne, heq⟩ := hdate t
        have htruthy : truthy (some (formatTime t)) = some (formatTime t) := by
          rw [truthy]
          exact fun h ↦ hne (Option.some.inj h)
        show (truthy (some (formatTime t))).map date = some t
        rw [htruthy, Option.map_some, heq]
  simp only [ResultMessage.payload, Result.message, Result.payload, duration_cast h,
    join_map_some, htime, omitZero]

end Agent

end Zenstier
