import Zenstier.Agent.Protocol
import Zenstier.Text.FlatJson
import Zenstier.Text.IsoTime

/-!
# How the agent reads a command

What `json.Unmarshal` makes of a payload.  The decoder of Go goes through the members of an object
one after the other and sets the fields with their names, whatever their case; it skips what it has
no field for and leaves a field as it is on `null`.  A time counts nanoseconds; an escape in its
string is resolved here, where Go refuses it.
-/

namespace Zenstier.Agent

open FlatJson

/-- `time.Time{}`, in nanoseconds since 1970. -/
def zeroTime : Int := -62135596800000000000

/-- `Command`, with all its fields but the environment, which no payload of the backend has. -/
structure FullCommand where
  v : Int := 0
  id : String := ""
  batchID : String := ""
  type : String := ""
  issuedAt : Int := zeroTime
  expiresAt : Int := zeroTime
  issuedBy : String := ""
  command : String := ""
  shell : String := ""
  workDir : String := ""
  runAs : String := ""
  timeoutSec : Int := 0
  stream : Bool := false
  maxOutput : Int := 0
  targetID : String := ""
  groups : List String := []
deriving DecidableEq, Repr

/-- The command as the dispatcher looks at it: its expiry is in milliseconds, if it has one. -/
def FullCommand.toCommand (c : FullCommand) : Command where
  v := c.v
  id := c.id
  batchID := c.batchID
  type := c.type
  expiresAt := if c.expiresAt = zeroTime then none else some (c.expiresAt / 1000000)
  command := c.command
  stream := c.stream
  targetID := c.targetID
  groups := c.groups

/-! ## The decoder -/

/-- The character that stands for all those that differ from it in case only. -/
def foldChar (c : Char) : Char :=
  if c.toNat = 0x17F then 's' else if c.toNat = 0x212A then 'k' else c.toLower

def foldName (name : String) : String := String.ofList (name.toList.map foldChar)

def stringOf : Value → Option String
  | .string s => some s
  | _ => none

def boolOf : Value → Option Bool
  | .bool b => some b
  | _ => none

/-- A number that an `int` has room for. -/
def intOf : Value → Option Int
  | .number n => if -2 ^ 63 ≤ n ∧ n < 2 ^ 63 then some n else none
  | _ => none

def timeOf : Value → Option Int
  | .string s => IsoTime.parse s.toList
  | _ => none

def stringsOf : Value → Option (List String)
  | .strings l => some l
  | _ => none

/-- Sets the field that a member names. -/
def FullCommand.set (c : FullCommand) (m : String × Value) : Option FullCommand :=
  if m.2 = .null then some c
  else match foldName m.1 with
    | "v" => (intOf m.2).map fun v ↦ { c with v }
    | "id" => (stringOf m.2).map fun id ↦ { c with id }
    | "batch_id" => (stringOf m.2).map fun batchID ↦ { c with batchID }
    | "type" => (stringOf m.2).map fun type ↦ { c with type }
    | "issued_at" => (timeOf m.2).map fun issuedAt ↦ { c with issuedAt }
    | "expires_at" => (timeOf m.2).map fun expiresAt ↦ { c with expiresAt }
    | "issued_by" => (stringOf m.2).map fun issuedBy ↦ { c with issuedBy }
    | "command" => (stringOf m.2).map fun command ↦ { c with command }
    | "shell" => (stringOf m.2).map fun shell ↦ { c with shell }
    | "work_dir" => (stringOf m.2).map fun workDir ↦ { c with workDir }
    | "run_as" => (stringOf m.2).map fun runAs ↦ { c with runAs }
    | "timeout_sec" => (intOf m.2).map fun timeoutSec ↦ { c with timeoutSec }
    | "stream" => (boolOf m.2).map fun stream ↦ { c with stream }
    | "max_output_bytes" => (intOf m.2).map fun maxOutput ↦ { c with maxOutput }
    | "target_id" => (stringOf m.2).map fun targetID ↦ { c with targetID }
    | "groups" => (stringsOf m.2).map fun groups ↦ { c with groups }
    -- none of the values is a map
    | "env" => none
    | _ => some c

/-- `json.Unmarshal`, into a command. -/
def unmarshal (payload : List Char) : Option FullCommand :=
  (parse payload).bind fun o ↦ o.foldlM FullCommand.set {}

end Zenstier.Agent
