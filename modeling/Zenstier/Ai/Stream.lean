import Zenstier.Runtime
import Zenstier.Text.Frames
import Zenstier.Text.TextDecoder

/-!
# The stream of a completion

The provider answers with server-sent events.  `streamChat` decodes what it reads, keeps in a
buffer what is not a whole frame yet, and yields the delta of every line of a frame that holds
one.  `JSON.parse` is an argument.
-/

namespace Zenstier

/-! ## Documents -/

/-- What `JSON.parse` gives.  Of a number only counts whether it is zero. -/
inductive Json
  | null
  | bool (b : Bool)
  | number (isZero : Bool)
  | string (s : JsString)
  | array (items : List Json)
  | object (members : List (JsString × Json))

namespace Json

/-- `v[key]`, that is `undefined` where there is no such member. -/
def get? (key : String) : Json → Option Json
  | .object members => (members.reverse.find? fun m ↦ m.1 = utf16 key).map (·.2)
  | .array items => if key = "0" then items.head? else none
  | .string s => if key = "0" then s.head?.map fun unit ↦ .string [unit] else none
  | .null | .bool _ | .number _ => none

/-- The value as a condition sees it. -/
def truthy : Json → Bool
  | .null => false
  | .bool b => b
  | .number isZero => !isZero
  | .string s => !s.isEmpty
  | .array _ | .object _ => true

mutual

/-- The value cannot be made a number: an object has a member in place of its `toString`. -/
def refuses : Json → Bool
  | .object members => members.any fun m ↦ m.1 = utf16 "toString"
  | .array items => anyRefuses items
  | .null | .bool _ | .number _ | .string _ => false

def anyRefuses : List Json → Bool
  | [] => false
  | item :: items => item.refuses || anyRefuses items

end

/-- `v[key] ?? 0`. -/
def count (key : String) (v : Json) : Json := match v.get? key with
  | none | some .null => .number true
  | some n => n

end Json

/-- The usage can be logged: the rate is a quotient, where there is a total. -/
def canLogUsage (usage : Json) : Bool :=
  let hit := usage.count "prompt_cache_hit_tokens"
  let total := usage.count "prompt_tokens"
  !total.truthy || !(hit.refuses || total.refuses)

/-- What is yielded for a document. -/
def deltaOf (parsed : Json) : Option JsString :=
  if (parsed.get? "usage").any fun usage ↦ usage.truthy && !canLogUsage usage then none
  else
    match (parsed.get? "choices").bind fun choices ↦ (choices.get? "0").bind fun choice ↦
        (choice.get? "delta").bind (Json.get? "content") with
    | some (.string delta) => if delta = [] then none else some delta
    | _ => none

/-! ## Frames -/

/-- The data of a line, if it has some. -/
def dataOf (line : List Char) : Option String :=
  if "data:".toList <+: line then
    let data := trim (String.ofList (line.drop 5))
    if data = "" ∨ data = "[DONE]" then none else some data
  else none

variable (parse : String → Option Json)

def lineDeltas (line : List Char) : List JsString :=
  (((dataOf line).bind parse).bind deltaOf).toList

def frameDeltas (frame : List Char) : List JsString :=
  (frame.splitOn '\n').flatMap (lineDeltas parse)

/-! ## Reading -/

structure CompletionReader where
  decoder : TextDecoder := {}
  buffer : List Char := []
deriving DecidableEq, Repr

/-- What is read is decoded, and whole frames are taken from the buffer. -/
def CompletionReader.read (s : CompletionReader) (value : List UInt8) :
    List JsString × CompletionReader :=
  let (text, decoder) := s.decoder.decode value
  let (frames, buffer) := Frames.cut '\n' ['\n'] (s.buffer ++ text)
  (frames.flatMap (frameDeltas parse), { decoder := decoder, buffer := buffer })

/-- The deltas of what a reader reads. -/
def CompletionReader.deltas (s : CompletionReader) : List (List UInt8) → List JsString
  | [] => []
  | value :: values =>
      let (out, s) := s.read parse value
      out ++ s.deltas values

/-- What `streamChat` yields for the values that it reads. -/
def streamDeltas (values : List (List UInt8)) : List JsString :=
  CompletionReader.deltas parse {} values

/-- The deltas are those of the frames that are cut of the decoded texts. -/
theorem CompletionReader.deltas_eq (s : CompletionReader) (values : List (List UInt8)) :
    s.deltas parse values =
      (Frames.feed '\n' ['\n'] s.buffer (s.decoder.texts values)).flatMap (frameDeltas parse) := by
  induction values generalizing s with
  | nil => rfl
  | cons value values ih =>
      change (s.read parse value).1 ++ (s.read parse value).2.deltas parse values = _
      rw [ih, TextDecoder.texts, Frames.feed, List.flatMap_append]
      rfl

/-- What is yielded is determined by the bytes alone. -/
theorem streamDeltas_eq (values : List (List UInt8)) :
    streamDeltas parse values =
      (Frames.cut '\n' ['\n'] (TextDecoder.decode {} values.flatten).1).1.flatMap
        (frameDeltas parse) := by
  rw [streamDeltas, CompletionReader.deltas_eq, Frames.feed_nil, TextDecoder.flatten_texts]

/-- The same deltas are yielded however the stream of the provider is cut into reads. -/
theorem streamChat_chunks {values values' : List (List UInt8)}
    (h : values.flatten = values'.flatten) :
    streamDeltas parse values = streamDeltas parse values' := by
  rw [streamDeltas_eq, streamDeltas_eq, h]

/-- A document with one delta. -/
def eventData : String := "\x7b\"choices\":[\x7b\"delta\":\x7b\"content\":\"é\"\x7d\x7d]\x7d"

def parseEvent (data : String) : Option Json :=
  if data = eventData then
    some (.object [(utf16 "choices", .array [.object [(utf16 "delta",
      .object [(utf16 "content", .string (utf16 "é"))])]])])
  else none

def eventBytes : List UInt8 :=
  Utf8.utf8 ("data: " ++ eventData ++ "\n\ndata: [DONE]\n\n").toList

/-- The reads end within the character and between the two line ends. -/
theorem streamChat_chunks_event :
    streamDeltas parseEvent [eventBytes.take 40, (eventBytes.drop 40).take 7,
      eventBytes.drop 47] = [utf16 "é"] := by
  have hwhole : streamDeltas parseEvent [eventBytes] = [utf16 "é"] := by decide +kernel
  have hcut : [eventBytes.take 40, (eventBytes.drop 40).take 7, eventBytes.drop 47].flatten =
      [eventBytes].flatten := by decide
  rw [streamChat_chunks parseEvent hcut, hwhole]

end Zenstier
