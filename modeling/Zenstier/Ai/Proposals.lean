import Zenstier.Runtime
import Zenstier.Store.Table

/-!
# Proposed commands

A reply has commands in fences, and the console gives each a number to run it by.
`extractProposedCommands` of the server looks for fences that are closed.  `segments` of the
console also serves to show a reply that is still coming in, and takes the end of the text for the
end of a fence; once the reply has ended it is the same function that numbers the commands.
-/

namespace Zenstier

open Store

/-! ## Regular expressions -/

structure FenceMatch where
  /-- How many characters are matched. -/
  length : Nat
  /-- What is captured. -/
  body : List Char
  closed : Bool
deriving DecidableEq, Repr

/-- The matches of an expression from left to right, each with its index.  The search goes on
behind a match, of which `skip` characters are left. -/
def matchAll (fence : List Char → Option FenceMatch) :
    Nat → Nat → List Char → List (Nat × FenceMatch)
  | _, _, [] => []
  | i, skip + 1, _ :: s => matchAll fence (i + 1) skip s
  | i, 0, c :: s => match fence (c :: s) with
      | some m => (i, m) :: matchAll fence (i + 1) (m.length - 1) s
      | none => matchAll fence (i + 1) 0 s

def ticks : List Char := "```".toList

/-- `([\s\S]*?)` before the next backticks, or before the end. -/
def untilTicks : List Char → List Char × Bool
  | [] => ([], false)
  | c :: s =>
      if ticks.isPrefixOf (c :: s) then ([], true)
      else (c :: (untilTicks s).1, (untilTicks s).2)

/-- What follows "```(?:sh|bash|shell)\n", with the length of that. -/
def openFence (s : List Char) : Option (Nat × List Char) :=
  ["```sh\n", "```bash\n", "```shell\n"].findSome? fun opener ↦
    (s.dropPrefix? opener.toList).map (opener.toList.length, ·)

/-- "```(?:sh|bash|shell)\n([\s\S]*?)(?:```|$)". -/
def consoleFence (s : List Char) : Option FenceMatch :=
  (openFence s).map fun (n, rest) ↦ match untilTicks rest with
    | (body, true) => ⟨n + body.length + 3, body, true⟩
    | (body, false) => ⟨n + body.length, body, false⟩

/-- What a fence proposes. -/
def FenceMatch.command (m : FenceMatch) : String := trim (String.ofList m.body)

inductive Segment
  | text (value : String)
  | command (value : String)
deriving DecidableEq, Repr

/-- The prose and the commands from `last` on. -/
def segmentsFrom (markdown : List Char) (last : Nat) : List (Nat × FenceMatch) → List Segment
  | [] => if last < markdown.length then [.text (String.ofList (markdown.drop last))] else []
  | (i, m) :: ms =>
      (if last < i then [.text (String.ofList ((markdown.drop last).take (i - last)))] else []) ++
        .command m.command :: segmentsFrom markdown (i + m.length) ms

/-- Splits a reply into prose and runnable command blocks. -/
def segments (markdown : String) : List Segment :=
  segmentsFrom markdown.toList 0 (matchAll consoleFence 0 0 markdown.toList)

def Segment.command? : Segment → Option String
  | .text _ => none
  | .command value => some value

/-- The proposals of a console. -/
structure Proposals where
  nextProposal : Nat := 1
  commands : Table Nat String := ∅

/-- Gives each command a number. -/
def Proposals.number (p : Proposals) : List String → List Nat × Proposals
  | [] => ([], p)
  | command :: commands =>
      let (ids, p') := number ⟨p.nextProposal + 1, p.commands.put p.nextProposal command⟩ commands
      (p.nextProposal :: ids, p')

/-- How the stream of a reply ends. -/
inductive ReplyEnd
  | done
  /-- The console loses the connection to the server. -/
  | lost
deriving DecidableEq, Repr

/-- Numbers the proposals once the reply is complete. -/
def Proposals.finish (p : Proposals) (text : String) : ReplyEnd → List Nat × Proposals
  | .done => p.number ((segments text).filterMap Segment.command?)
  | .lost => ([], p)

/-! ## What the console registers -/

end Zenstier
