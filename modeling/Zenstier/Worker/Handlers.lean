import Zenstier.Commands.Dispatch

/-!
# Results of commands

`handleResult` of the worker: what becomes of a message on a device's result topic.  An
`accepted` message marks the command running unless it is past that; a chunk is stored
once; a result is terminal and overwrites whatever status the command has.
-/

namespace Zenstier

open Concurrent

def mapStatus : Option ResultStatus → CommandStatus
  | some .completed => .succeeded
  | some .failed | some .rejected => .failed
  | some .timeout => .timeout
  | some .canceled => .canceled
  | some .running => .running
  | some .queued | none => .succeeded

section Handlers

variable (deviceId : String) (payload : ResultPayload)

def handleAccepted : CommandM Unit := do
  let accepted (running : Bool) : CommandM Unit :=
    .perform (.emit (deviceChannel deviceId) (.commandAccepted payload.id deviceId running))
  if payload.status = some .queued then accepted false
  else do
    let startedAt ← .perform .now
    -- a late "running" must never clobber a terminal status
    .perform (.markRunning payload.id startedAt)
    accepted true

/-- Stores a chunk of output.  QoS 1 is at-least-once, so a chunk that is already there
counts as stored. -/
def storeChunk (rowId : String) (stream : OutputStream) (seq : Nat) : CommandM Unit :=
  tryCatch
    (.perform (.createOutput payload.id seq
      { deviceId := rowId, stream, chunk := payload.data.getD "" }))
    fun err ↦ if err = .uniqueViolation then return else throw err

/-- `rowId` is the row of the device. -/
def handleChunk (rowId : String) : CommandM Unit := do
  let seq := payload.seq.getD 0
  let stream := payload.stream.getD .stdout
  storeChunk payload rowId stream seq
  .perform (.emit (deviceChannel deviceId)
    (.commandChunk payload.id deviceId stream seq (payload.data.getD "")))

/-- The time a payload reports, or the present. -/
def timeOrNow : Option Int → CommandM Int
  | some t => return t
  | none => .perform .now

/-- What a terminal result stores. -/
def storedResult (finishedAt : Int) : StoredResult where
  status := mapStatus payload.status
  exitCode := payload.exitCode
  stdout := payload.stdout
  stderr := payload.stderr
  truncated := payload.truncated.getD false
  error := payload.error
  durationMs := payload.durationMs
  startedAt := payload.startedAt
  finishedAt

def handleTerminal : CommandM Unit := do
  let finishedAt ← timeOrNow payload.finishedAt
  .perform (.storeResult payload.id (storedResult payload finishedAt))
  .perform (.emit (deviceChannel deviceId)
    (.commandResult payload.id deviceId (mapStatus payload.status) payload.exitCode
      (payload.stdout.getD "") (payload.stderr.getD "") (payload.truncated.getD false)
      payload.durationMs payload.error))

/-- Handles a result about a known command of the device. -/
def handleKind (rowId : String) : CommandM Unit :=
  match payload.kind with
  | .accepted => handleAccepted deviceId payload
  | .chunk => handleChunk deviceId payload rowId
  | .result => handleTerminal deviceId payload

end Handlers

/-- A message on the result topic of a device; it is ignored unless it can be parsed. -/
def handleResult (deviceId : String) : Option ResultPayload → CommandM Unit
  | none => return
  | some payload => do
      match ← .perform (.findCommand payload.id) with
      | none => return
      | some (rowId, owner) =>
          -- A device may only report on its own commands.
          if owner ≠ deviceId then return else handleKind deviceId payload rowId

/-- The requests of `handleResult`. -/
def Handles : ∀ β : Type, CommandOp β → Prop
  | _, .now | _, .findCommand _ | _, .markRunning .. | _, .createOutput ..
  | _, .storeResult .. | _, .emit .. => True
  | _, _ => False

theorem handleAccepted_only (deviceId : String) (payload : ResultPayload) :
    Prog.Only Handles (handleAccepted deviceId payload) := by
  dsimp only [handleAccepted]
  split
  · exact (Prog.only_perform _).mpr trivial
  · refine Prog.Only.await trivial fun startedAt ↦ ?_
    exact Prog.Only.await trivial fun _ ↦ (Prog.only_perform _).mpr trivial

theorem handleChunk_only (deviceId : String) (payload : ResultPayload) (rowId : String) :
    Prog.Only Handles (handleChunk deviceId payload rowId) := by
  refine Prog.Only.bind ?_ fun _ ↦ (Prog.only_perform _).mpr trivial
  rw [storeChunk, Prog.tryCatch_def, Prog.perform, Prog.tryCatch_call, Prog.only_call]
  refine ⟨trivial, ?_⟩
  rintro (e | _)
  · rw [Prog.ofExcept_error, Prog.tryCatch_throw]
    split <;> trivial
  · trivial

theorem handleTerminal_only (deviceId : String) (payload : ResultPayload) :
    Prog.Only Handles (handleTerminal deviceId payload) := by
  refine Prog.Only.bind ?_ fun finishedAt ↦ ?_
  · cases payload.finishedAt with
    | some t => trivial
    | none => exact (Prog.only_perform _).mpr trivial
  · exact Prog.Only.await trivial fun _ ↦ (Prog.only_perform _).mpr trivial

theorem handleResult_only (deviceId : String) (payload : Option ResultPayload) :
    Prog.Only Handles (handleResult deviceId payload) := by
  cases payload with
  | none => trivial
  | some payload =>
      refine Prog.Only.await trivial fun found ↦ ?_
      rcases found with _ | ⟨rowId, owner⟩
      · trivial
      dsimp only
      split
      · trivial
      unfold handleKind
      cases payload.kind with
      | accepted => exact handleAccepted_only deviceId payload
      | chunk => exact handleChunk_only deviceId payload rowId
      | result => exact handleTerminal_only deviceId payload

end Zenstier
