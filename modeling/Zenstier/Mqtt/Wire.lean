import Zenstier.Agent.Publishes
import Zenstier.Agent.Unmarshal
import Zenstier.Commands.Dispatch
import Zenstier.Groups.Service
import Zenstier.Worker.Status

/-!
# The wire

What `protocol.go` and `protocol.ts` have to agree on.  The results of the agent are what the schema
of the backend takes; and the payloads of the backend, as `JSON.stringify` writes them, are what the
decoder and the validation of the agent take.
-/

namespace Zenstier

open FlatJson Concurrent Prog

/-! ## What the backend writes -/

namespace Stringify

def text (s : String) : List Char := quoted quoteChar s

/-- A `Date` after `toISOString`. -/
def time (t : Int) : List Char := text (String.ofList (IsoTime.format t))

def strings (l : List String) : List Char := '[' :: ([','].intercalate (l.map text) ++ [']'])

def object (texts : List (List Char)) : List Char := '{' :: ([','].intercalate texts ++ ['}'])

theorem text_reads (s : String) : Reads value (text s) (.string s) :=
  stringValue_reads stands_quoteChar s

/-- A member that is a string. -/
theorem text_member {name : String} (hname : Bare name) (s : String) :
    Member (named name (text s)) (name, .string s) := .named hname (text_reads s)

theorem number_member {name : String} (hname : Bare name) (n : Int) :
    Member (named name (written n)) (name, .number n) := .named hname (number_reads n)

end Stringify

/-- The payload as it is published: the id and the stream flag are there for one device only. -/
def CommandPayload.texts (p : CommandPayload) : List (List Char) :=
  named "v" (written p.v) :: (p.id.map fun id ↦ named "id" (Stringify.text id)).toList ++
  [named "batch_id" (Stringify.text p.batchId), named "type" (Stringify.text p.type),
    named "issued_at" (Stringify.time p.issuedAt), named "expires_at" (Stringify.time p.expiresAt),
    named "issued_by" (Stringify.text p.issuedBy), named "command" (Stringify.text p.command),
    named "timeout_sec" (written p.timeoutSec)] ++
  if p.stream then [named "stream" "true".toList] else []

def CommandPayload.stringify (p : CommandPayload) : List Char := Stringify.object p.texts

def GroupsPayload.texts (p : GroupsPayload) : List (List Char) :=
  [named "v" (written p.v), named "id" (Stringify.text p.id), named "type" (Stringify.text p.type),
    named "issued_at" (Stringify.time p.issuedAt), named "expires_at" (Stringify.time p.expiresAt),
    named "groups" (Stringify.strings p.groups)]

def GroupsPayload.stringify (p : GroupsPayload) : List Char := Stringify.object p.texts

/-! ## What the agent reads -/

/-- The time is one that both sides can write: from 1970 to 9999. -/
def Timely (t : Int) : Prop := 0 ≤ t ∧ t < 253402300800000

theorem timeOf_format {t : Int} (h : Timely t) :
    Agent.timeOf (.string (String.ofList (IsoTime.format t))) = some (t * 1000000) := by
  rw [Agent.timeOf, String.toList_ofList, IsoTime.parse_format h]

section Read

open Agent

/-- The members of a payload, as an object. -/
def CommandPayload.members (p : CommandPayload) : Object :=
  ("v", .number p.v) :: (p.id.map fun id ↦ ("id", .string id)).toList ++
  [("batch_id", .string p.batchId), ("type", .string p.type),
    ("issued_at", .string (String.ofList (IsoTime.format p.issuedAt))),
    ("expires_at", .string (String.ofList (IsoTime.format p.expiresAt))),
    ("issued_by", .string p.issuedBy), ("command", .string p.command),
    ("timeout_sec", .number p.timeoutSec)] ++
  if p.stream then [("stream", .bool true)] else []

theorem CommandPayload.texts_members (p : CommandPayload) :
    List.Forall₂ Member p.texts p.members := by
  have hid : List.Forall₂ Member (p.id.map fun id ↦ named "id" (Stringify.text id)).toList
      (p.id.map fun id ↦ ("id", .string id)).toList := by
    cases p.id with
    | none => exact .nil
    | some id => exact .cons (Stringify.text_member (by decide) id) .nil
  have hstream : List.Forall₂ Member (if p.stream then [named "stream" "true".toList] else [])
      (if p.stream then [("stream", .bool true)] else []) := by
    split
    · exact .cons (.named (by decide) (bool_reads true)) .nil
    · exact .nil
  refine List.rel_append (List.rel_append (.cons (Stringify.number_member (by decide) _) hid) ?_)
    hstream
  exact .cons (Stringify.text_member (by decide) _) <|
    .cons (Stringify.text_member (by decide) _) <|
    .cons (Stringify.text_member (by decide) _) <|
    .cons (Stringify.text_member (by decide) _) <|
    .cons (Stringify.text_member (by decide) _) <|
    .cons (Stringify.text_member (by decide) _) <|
    .cons (Stringify.number_member (by decide) _) .nil

/-- The command that the decoder makes of a payload. -/
def CommandPayload.received (p : CommandPayload) : FullCommand where
  v := p.v
  id := p.id.getD ""
  batchID := p.batchId
  type := p.type
  issuedAt := p.issuedAt * 1000000
  expiresAt := p.expiresAt * 1000000
  issuedBy := p.issuedBy
  command := p.command
  timeoutSec := p.timeoutSec
  stream := p.stream

/-- What `FullCommand.set` makes of the names. -/
theorem fold_names : foldName "v" = "v" ∧ foldName "id" = "id" ∧ foldName "batch_id" = "batch_id" ∧
    foldName "type" = "type" ∧ foldName "issued_at" = "issued_at" ∧
    foldName "expires_at" = "expires_at" ∧ foldName "issued_by" = "issued_by" ∧
    foldName "command" = "command" ∧ foldName "timeout_sec" = "timeout_sec" ∧
    foldName "stream" = "stream" ∧ foldName "groups" = "groups" := by
  decide

theorem intOf_number {n : Int} (h : -2 ^ 63 ≤ n ∧ n < 2 ^ 63) : intOf (.number n) = some n :=
  if_pos h

theorem CommandPayload.unmarshal_stringify {p : CommandPayload}
    (hv : (p.v : Int) < 2 ^ 63) (hissued : Timely p.issuedAt) (hexpires : Timely p.expiresAt)
    (htimeout : -2 ^ 63 ≤ p.timeoutSec ∧ p.timeoutSec < 2 ^ 63) :
    unmarshal p.stringify = some p.received := by
  have hparse : parse p.stringify = some p.members := parse_object p.texts_members
  have hversion : intOf (.number p.v) = some p.v := intOf_number (by omega)
  rw [unmarshal, hparse, Option.bind_some]
  cases hid : p.id <;> cases hstream : p.stream <;>
    simp [CommandPayload.members, hid, hstream, FullCommand.set, fold_names, hversion, stringOf,
      timeOf_format hissued, timeOf_format hexpires, intOf_number htimeout, boolOf,
      CommandPayload.received]

theorem strings_member {name : String} (hname : Bare name) (l : List String) :
    Member (named name (Stringify.strings l)) (name, .strings l) :=
  .named hname (strings_reads stands_quoteChar l)

def GroupsPayload.members (p : GroupsPayload) : Object :=
  [("v", .number p.v), ("id", .string p.id), ("type", .string p.type),
    ("issued_at", .string (String.ofList (IsoTime.format p.issuedAt))),
    ("expires_at", .string (String.ofList (IsoTime.format p.expiresAt))),
    ("groups", .strings p.groups)]

theorem GroupsPayload.texts_members (p : GroupsPayload) :
    List.Forall₂ Member p.texts p.members :=
  .cons (Stringify.number_member (by decide) _) <|
    .cons (Stringify.text_member (by decide) _) <|
    .cons (Stringify.text_member (by decide) _) <|
    .cons (Stringify.text_member (by decide) _) <|
    .cons (Stringify.text_member (by decide) _) <|
    .cons (strings_member (by decide) _) .nil

def GroupsPayload.received (p : GroupsPayload) : FullCommand where
  v := p.v
  id := p.id
  type := p.type
  issuedAt := p.issuedAt * 1000000
  expiresAt := p.expiresAt * 1000000
  groups := p.groups

theorem GroupsPayload.unmarshal_stringify {p : GroupsPayload} (hv : (p.v : Int) < 2 ^ 63)
    (hissued : Timely p.issuedAt) (hexpires : Timely p.expiresAt) :
    unmarshal p.stringify = some p.received := by
  have hparse : parse p.stringify = some p.members := parse_object p.texts_members
  have hversion : intOf (.number p.v) = some p.v := intOf_number (by omega)
  rw [unmarshal, hparse, Option.bind_some]
  simp [GroupsPayload.members, FullCommand.set, fold_names, hversion, stringOf,
    timeOf_format hissued, timeOf_format hexpires, stringsOf, GroupsPayload.received]

/-- An expiry is recovered to the millisecond. -/
theorem toCommand_expiresAt {c : FullCommand} {t : Int} (ht : Timely t)
    (h : c.expiresAt = t * 1000000) : c.toCommand.expiresAt = some t := by
  have hne : ¬ c.expiresAt = zeroTime := by
    unfold Timely zeroTime at *
    omega
  rw [FullCommand.toCommand, if_neg hne, h, Int.mul_ediv_cancel t (by decide)]

/-! ## What is recovered -/

/-- The command says what the payload says. -/
structure CommandPayload.Recovered (p : CommandPayload) (c : FullCommand) : Prop where
  id : c.id = p.id.getD ""
  batchID : c.batchID = p.batchId
  type : c.type = p.type
  command : c.command = p.command
  timeoutSec : c.timeoutSec = p.timeoutSec
  expiresAt : c.toCommand.expiresAt = some p.expiresAt
  stream : c.stream = p.stream
  groups : c.groups = []

structure GroupsPayload.Recovered (p : GroupsPayload) (c : FullCommand) : Prop where
  id : c.id = p.id
  batchID : c.batchID = ""
  type : c.type = p.type
  expiresAt : c.toCommand.expiresAt = some p.expiresAt
  stream : c.stream = false
  groups : c.groups = p.groups

/-- The decoder of an agent takes the text, and its validation the command, which is as it should
be. -/
def Understood (sha1 : List UInt8 → List UInt8) (text : List Char) (R : FullCommand → Prop) :
    Prop :=
  ∀ deviceID, ∃ c, unmarshal text = some c ∧ R c ∧
    (c.toCommand.normalize sha1 deviceID).validate = none

/-- A payload of which the times can be written is understood. -/
def CommandPayload.Agreed (sha1 : List UInt8 → List UInt8) (p : CommandPayload) : Prop :=
  Timely p.issuedAt → Timely p.expiresAt → Understood sha1 p.stringify p.Recovered

def GroupsPayload.Agreed (sha1 : List UInt8 → List UInt8) (p : GroupsPayload) : Prop :=
  Timely p.issuedAt → Timely p.expiresAt → Understood sha1 p.stringify p.Recovered

end Read

theorem uuidString_ne_empty (b : List UInt8) : uuidString b ≠ "" := by
  intro h
  have hchars := congrArg String.toList h
  rw [uuidString, String.toList_ofList] at hchars
  simp at hchars

/-- The id under which an agent runs a command: the one it is given, or that of its own. -/
theorem normalize_id_ne (sha1 : List UInt8 → List UInt8) (deviceID : String) {c : Agent.Command}
    (h : c.id = "" → c.batchID ≠ "") : (c.normalize sha1 deviceID).id ≠ "" := by
  rw [Agent.Command.normalize]
  dsimp only
  split
  · rw [deriveCommandID_eq]
    exact uuidString_ne_empty _
  · rename_i hid
    exact fun hempty ↦ hid ⟨hempty, h hempty⟩

/-- The validation of an `exec` command. -/
theorem validate_exec {c : Agent.Command} (hv : c.v = Agent.version) (hid : c.id ≠ "")
    (htype : c.type = "exec") (hcommand : c.command ≠ "") : c.validate = none := by
  rw [Agent.Command.validate, if_neg (not_not_intro hv), if_neg hid, if_pos (.inr htype),
    if_neg hcommand]

/-- The validation of a change of groups. -/
theorem validate_updateGroups {c : Agent.Command} (hv : c.v = Agent.version) (hid : c.id ≠ "")
    (htype : c.type = "update_groups") : c.validate = none := by
  rw [Agent.Command.validate, if_neg (not_not_intro hv), if_neg hid, htype]
  rfl

section Dispatch

variable {sha1 : List UInt8 → List UInt8}

/-- A command for one device or for a batch is understood. -/
theorem payload_agreed {p : CommandPayload} (hv : p.v = PROTOCOL_VERSION) (htype : p.type = "exec")
    (hbatch : p.batchId ≠ "") (hcommand : p.command ≠ "")
    (htimeout : -2 ^ 63 ≤ p.timeoutSec ∧ p.timeoutSec < 2 ^ 63) : p.Agreed sha1 := by
  intro hissued hexpires deviceID
  have hversion : (p.v : Int) < 2 ^ 63 := by
    rw [hv]
    decide
  refine ⟨p.received, CommandPayload.unmarshal_stringify hversion hissued hexpires htimeout,
    ⟨rfl, rfl, rfl, rfl, rfl, toCommand_expiresAt hexpires rfl, rfl, rfl⟩, ?_⟩
  refine validate_exec (congrArg Nat.cast hv) (normalize_id_ne sha1 deviceID fun _ ↦ hbatch) ?_
    hcommand
  show (if p.type = "" then "exec" else p.type) = "exec"
  rw [htype, ite_self]

/-- So is a push of groups. -/
theorem push_agreed {p : GroupsPayload} (hv : p.v = PROTOCOL_VERSION)
    (htype : p.type = "update_groups") (hid : p.id ≠ "") : p.Agreed sha1 := by
  intro hissued hexpires deviceID
  have hversion : (p.v : Int) < 2 ^ 63 := by
    rw [hv]
    decide
  refine ⟨p.received, GroupsPayload.unmarshal_stringify hversion hissued hexpires,
    ⟨rfl, rfl, rfl, toCommand_expiresAt hexpires rfl, rfl, rfl⟩, ?_⟩
  refine validate_updateGroups (congrArg Nat.cast hv)
    (normalize_id_ne sha1 deviceID fun h ↦ absurd h hid) ?_
  show (if p.type = "" then "exec" else p.type) = "update_groups"
  rw [htype]
  rfl

/-! ## Every payload -/

/-- The requests that publish a payload publish one that is understood. -/
def Agrees (sha1 : List UInt8 → List UInt8) : ∀ β : Type, CommandOp β → Prop
  | _, .publishCommand _ p => p.Agreed sha1
  | _, .publishGroups _ p => p.Agreed sha1
  | _, _ => True

def AgreesOnGroups (sha1 : List UInt8 → List UInt8) : ∀ β : Type, GroupOp β → Prop
  | _, .publishCommand _ p => p.Agreed sha1
  | _, _ => True

variable {batchId userId teamId : String} {input : DispatchCommandInput}

/-- The payloads of `dispatchCommand`. -/
theorem broadcast_agreed (hbatch : batchId ≠ "") (hcommand : input.command ≠ "")
    (htimeout : 1000 ≤ input.timeoutMs ∧ input.timeoutMs ≤ 3600000) (issuedAt : Int) :
    (broadcastPayload batchId userId input issuedAt).Agreed sha1 :=
  payload_agreed rfl rfl hbatch hcommand (by
    show -2 ^ 63 ≤ ceilSeconds input.timeoutMs ∧ ceilSeconds input.timeoutMs < 2 ^ 63
    unfold ceilSeconds
    omega)

theorem device_agreed (hbatch : batchId ≠ "") (hcommand : input.command ≠ "")
    (htimeout : 1000 ≤ input.timeoutMs ∧ input.timeoutMs ≤ 3600000) (issuedAt : Int) (t : Target) :
    (devicePayload sha1 batchId userId input issuedAt t).Agreed sha1 :=
  payload_agreed rfl rfl hbatch hcommand (by
    show -2 ^ 63 ≤ ceilSeconds input.timeoutMs ∧ ceilSeconds input.timeoutMs < 2 ^ 63
    unfold ceilSeconds
    omega)

theorem publishBatch_agrees (hbatch : batchId ≠ "") (hcommand : input.command ≠ "")
    (htimeout : 1000 ≤ input.timeoutMs ∧ input.timeoutMs ≤ 3600000) (issuedAt : Int)
    (finalTargets : List Target) :
    Only (Agrees sha1) (publishBatch sha1 batchId userId input issuedAt finalTargets) := by
  unfold publishBatch
  split
  · exact Only.await (broadcast_agreed hbatch hcommand htimeout issuedAt) fun _ ↦ trivial
  · refine Only.awaitAll fun p hp ↦ ?_
    obtain ⟨t, -, rfl⟩ := List.mem_map.mp hp
    exact Only.await (device_agreed hbatch hcommand htimeout issuedAt t) fun _ ↦ trivial

theorem dispatchAllowed_agrees (hbatch : batchId ≠ "") (hcommand : input.command ≠ "")
    (htimeout : 1000 ≤ input.timeoutMs ∧ input.timeoutMs ≤ 3600000) (targets : List Target)
    (limit : RateLimitResult) :
    Only (Agrees sha1) (dispatchAllowed sha1 batchId userId teamId input targets limit) := by
  unfold dispatchAllowed
  split
  · exact Only.await trivial fun _ ↦ trivial
  split
  · trivial
  refine Only.await trivial fun issuedAt ↦ Only.await trivial fun _ ↦ ?_
  refine Only.bind (publishBatch_agrees hbatch hcommand htimeout issuedAt _) fun _ ↦ ?_
  exact Only.await trivial fun _ ↦ Only.await trivial fun _ ↦ trivial

theorem dispatchCommand_agrees (hbatch : batchId ≠ "") (hcommand : input.command ≠ "")
    (htimeout : 1000 ≤ input.timeoutMs ∧ input.timeoutMs ≤ 3600000) :
    Only (Agrees sha1) (dispatchCommand sha1 batchId userId teamId input) := by
  refine Only.await trivial fun targets ↦ ?_
  unfold dispatchTargets
  split
  · trivial
  split
  · trivial
  refine Only.bind (Only.await trivial fun _ ↦ trivial) fun limit ↦ ?_
  exact dispatchAllowed_agrees hbatch hcommand htimeout targets limit

/-- The push after a change of groups. -/
theorem notifyGroupsChanged_agrees {id : String} (hid : id ≠ "") (deviceId : String)
    (groups : List String) :
    Only (AgreesOnGroups sha1) (notifyGroupsChanged id deviceId groups) :=
  Only.await trivial fun _ ↦ Only.await trivial fun _ ↦
    (only_perform _).mpr (push_agreed rfl rfl hid)

/-- The push on every connect. -/
theorem pushGroups_agrees {pushId : String} (hid : pushId ≠ "") (deviceId : String)
    (groups : List String) : Only (Agrees sha1) (pushGroups pushId deviceId groups) := by
  refine Only.tryCatch ?_ fun _ ↦ trivial
  exact Only.await trivial fun _ ↦ Only.await trivial fun _ ↦
    (only_perform _).mpr (push_agreed rfl rfl hid)

end Dispatch

/-! ## Both directions -/

/-- Whatever the dispatcher publishes in a run, the schema of the backend takes, and the defaults of
`handleResult` recover what it says; whatever `dispatchCommand` or a push of groups publishes, the
agent takes, and recovers what it says. -/
theorem wire_agrees (sha1 : List UInt8 → List UInt8) (agentVersion : String)
    (formatTime : Int → String) :
    (∀ {ι : Type} [DecidableEq ι] (cfg : Agent.Config) (tasks : ι → Agent.Task) (clock : Int)
      (outcome : Nat → Agent.Outcome) (onUpdateGroups : List String → Agent.GroupUpdate)
      (c : Agent.AgentPool ι), cfg.deviceID ≠ "" → 0 ≤ clock → (∀ ctx, (outcome ctx).Sane) →
      Reach Agent.agentStep (fun _ _ ↦ True)
        (Agent.start cfg tasks clock outcome onUpdateGroups) c →
      c.shared.clock ≤ MAX_SAFE_INTEGER → ∀ i r k, c.thread i = .call (.publish r) k →
        ∃ m, (parse (r.report agentVersion formatTime).marshal).bind resultPayloadSchema = some m ∧
          ∀ date, r.Recovered (m.payload date)) ∧
    (∀ batchId userId teamId input, batchId ≠ "" → input.command ≠ "" →
      1000 ≤ input.timeoutMs ∧ input.timeoutMs ≤ 3600000 →
      Only (Agrees sha1) (dispatchCommand sha1 batchId userId teamId input)) ∧
    (∀ id deviceId groups, id ≠ "" →
      Only (AgreesOnGroups sha1) (notifyGroupsChanged id deviceId groups) ∧
      Only (Agrees sha1) (pushGroups id deviceId groups)) := by
  refine ⟨?_, ?_, ?_⟩
  · intro ι _ cfg tasks clock outcome onUpdateGroups c hdevice hclock houtcome hc hnow i r k hi
    have hdue := Agent.published_due hclock houtcome hc hi
    have hsound := hdue.sound hdevice hnow
    exact ⟨_, Agent.schema_marshal hsound agentVersion formatTime,
      Agent.message_recovered hsound hdue.stream agentVersion formatTime⟩
  · exact fun _ _ _ _ hbatch hcommand htimeout ↦ dispatchCommand_agrees hbatch hcommand htimeout
  · exact fun _ deviceId groups hid ↦
      ⟨notifyGroupsChanged_agrees hid deviceId groups, pushGroups_agrees hid deviceId groups⟩

/-! ### A rejection and a dispatch -/

/-- A command of another version. -/
def outdated : Fin 1 → Agent.Task := fun _ ↦ .message (some { v := 2, id := "cmd", type := "exec" })

def outdatedStart : Agent.AgentPool (Fin 1) :=
  Agent.start { sha1 := fun b ↦ b, deviceID := "dev" } outdated 0 (fun _ ↦ {}) fun _ ↦ .done

/-- What answers it. -/
def outdatedResult : Agent.Result :=
  Agent.rejectedResult "dev" "cmd" .invalidCommand "unsupported protocol version 2"

theorem wire_agrees_outdated :
    (∃ m, (parse (outdatedResult.report "1.0.0" fun _ ↦ "").marshal).bind resultPayloadSchema =
      some m ∧ ∀ date, outdatedResult.Recovered (m.payload date)) ∧
    Only (Agrees fun b ↦ b)
      (dispatchCommand (fun b ↦ b) "batch" "user" "team"
        { command := "date", deviceIds := ["dev"] }) ∧
    Only (AgreesOnGroups fun b ↦ b) (notifyGroupsChanged "push" "dev" ["group"]) := by
  obtain ⟨hresults, hcommands, hpushes⟩ := wire_agrees (fun b ↦ b) "1.0.0" fun _ ↦ ""
  refine ⟨?_, hcommands _ _ _ _ (by decide) (by decide) (by decide),
    (hpushes _ _ _ (by decide)).1⟩
  have hthread : ∃ k, outdatedStart.thread 0 = .call (.publish outdatedResult) k := ⟨_, rfl⟩
  obtain ⟨k, hk⟩ := hthread
  refine hresults { sha1 := fun b ↦ b, deviceID := "dev" } outdated 0 (fun _ ↦ {}) (fun _ ↦ .done)
    outdatedStart (by decide) (by decide) (fun _ ↦ ?_) .start (by decide) 0 _ k hk
  exact ⟨by decide, by decide, by decide⟩

end Zenstier
