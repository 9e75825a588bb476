import Zenstier.Worker.Overdue
import Zenstier.Concurrent.Fates

/-!
# What the columns do not take

`resultPayloadSchema` and the tables do not agree on what a string, an integer and a time are: a
text column takes no U+0000, an `Int` column takes 32 bits, and a time must be one.  A message
with anything else passes the schema, and is refused by the database.
-/

namespace Zenstier

open Store Concurrent

/-! ## The message -/

/-- What `resultPayloadSchema` accepts, as far as `handleResult` reads it: the times are any
strings. -/
structure WireResult where
  id : String
  kind : ResultKind
  status : Option ResultStatus := none
  exitCode : Option Int := none
  stdout : Option String := none
  stderr : Option String := none
  truncated : Option Bool := none
  startedAt : Option String := none
  finishedAt : Option String := none
  durationMs : Option Int := none
  error : Option String := none
  seq : Option Nat := none
  stream : Option OutputStream := none
  data : Option String := none
deriving DecidableEq, Repr

section Message

-- `newDate` is the time that `new Date` makes of a string, if any.
variable (newDate : String → Option Int) (deviceId : String) (w : WireResult)

/-- The payload with its times read. -/
def WireResult.payload : ResultPayload where
  id := w.id
  kind := w.kind
  status := w.status
  exitCode := w.exitCode
  stdout := w.stdout
  stderr := w.stderr
  truncated := w.truncated
  startedAt := (truthy w.startedAt).bind newDate
  finishedAt := (truthy w.finishedAt).bind newDate
  durationMs := w.durationMs
  error := w.error
  seq := w.seq
  stream := w.stream
  data := w.data

/-- No time is an `Invalid Date`. -/
def WireResult.DatesValid : Prop :=
  (∀ x ∈ truthy w.startedAt, (newDate x).isSome) ∧ ∀ x ∈ truthy w.finishedAt, (newDate x).isSome

instance : Decidable (w.DatesValid newDate) := inferInstanceAs (Decidable (_ ∧ _))

/-- The update of a terminal result is not even sent with an `Invalid Date`. -/
def handleWireKind (rowId : String) : CommandM Unit :=
  if w.kind = .result ∧ ¬ w.DatesValid newDate then
    throw (.error "Provided Date object is invalid")
  else handleKind deviceId (w.payload newDate) rowId

/-- `handleResult`, from what the schema has accepted. -/
def handleWire : CommandM Unit := do
  match ← .perform (.findCommand w.id) with
  | none => return
  | some (rowId, owner) =>
      if owner ≠ deviceId then return else handleWireKind newDate deviceId w rowId

/-- With times that can be read, this is `handleResult`. -/
theorem handleWire_eq (h : w.kind = .result → w.DatesValid newDate) :
    handleWire newDate deviceId w = handleResult deviceId (some (w.payload newDate)) := by
  have hkind (rowId : String) : handleWireKind newDate deviceId w rowId =
      handleKind deviceId (w.payload newDate) rowId :=
    if_neg fun ⟨hresult, hinvalid⟩ ↦ hinvalid (h hresult)
  simp only [handleWire, handleResult, hkind]
  rfl

end Message

/-! ## The columns -/

/-- `text` -/
def FitsText (x : String) : Prop := Char.ofNat 0 ∉ x.toList

instance (x : String) : Decidable (FitsText x) := inferInstanceAs (Decidable (¬ _))

/-- `integer` -/
def FitsInt (n : Int) : Prop := -2147483648 ≤ n ∧ n ≤ 2147483647

instance (n : Int) : Decidable (FitsInt n) := inferInstanceAs (Decidable (_ ∧ _))

/-- The columns take what a result stores. -/
structure StoredResult.Fits (r : StoredResult) : Prop where
  exitCode : ∀ n ∈ r.exitCode, FitsInt n
  durationMs : ∀ n ∈ r.durationMs, FitsInt n
  stdout : ∀ x ∈ r.stdout, FitsText x
  stderr : ∀ x ∈ r.stderr, FitsText x
  error : ∀ x ∈ r.error, FitsText x

instance (r : StoredResult) : Decidable r.Fits :=
  decidable_of_iff ((∀ n ∈ r.exitCode, FitsInt n) ∧ (∀ n ∈ r.durationMs, FitsInt n) ∧
      (∀ x ∈ r.stdout, FitsText x) ∧ (∀ x ∈ r.stderr, FitsText x) ∧ ∀ x ∈ r.error, FitsText x)
    ⟨fun ⟨h₁, h₂, h₃, h₄, h₅⟩ ↦ ⟨h₁, h₂, h₃, h₄, h₅⟩,
      fun ⟨h₁, h₂, h₃, h₄, h₅⟩ ↦ ⟨h₁, h₂, h₃, h₄, h₅⟩⟩

/-- The columns take what the handlers of results write. -/
def FitsColumns : ∀ β : Type, CommandOp β → Prop
  | _, .createOutput _ seq row => FitsInt seq ∧ FitsText row.chunk
  | _, .storeResult _ result => result.Fits
  | _, _ => True

instance (β : Type) (op : CommandOp β) : Decidable (FitsColumns β op) := by
  apply CommandOp.casesOn (motive := fun β op ↦ Decidable (FitsColumns β op)) op <;> intros <;>
    first
    | exact .isTrue trivial
    | exact inferInstanceAs (Decidable (_ ∧ _))
    | exact inferInstanceAs (Decidable (StoredResult.Fits _))

/-- What is thrown then. -/
def columnError : Err := .error "value rejected by a column"

/-- The stores, with columns that refuse what they do not take. -/
def columnServer : Server CommandOp Err Fleet where
  serve op s := if FitsColumns _ op then s.serve op else (.error columnError, s)

/-- Nothing fails but what a column refuses. -/
abbrev answered (β : Type) (_ : CommandOp β) : Fate Err := .served

section Requests

variable {α β : Type} {op : CommandOp β} {s : Fleet}

theorem columnServer_fits (h : FitsColumns β op) : columnServer.serve op s = s.serve op := if_pos h

theorem runBy_perform_fits (h : FitsColumns β op) :
    runBy columnServer answered (.perform op) s = s.serve op := by
  rw [runBy_perform, Server.reply_served, Server.after_served, columnServer_fits h]

theorem runBy_await_fits (h : FitsColumns β op) (k : β → CommandM α) :
    runBy columnServer answered (.perform op >>= k) s =
      runBy columnServer answered (.ofExcept (s.serve op).1 >>= k) (s.serve op).2 := by
  rw [runBy_await, Server.reply_served, Server.after_served, columnServer_fits h]

/-- What does not fit is refused. -/
theorem runBy_perform_unfit (h : ¬ FitsColumns β op) :
    runBy columnServer answered (.perform op) s = (.error columnError, s) := by
  rw [runBy_perform]
  exact if_neg h

end Requests

/-! ## The three kinds of messages -/

section Kinds

variable (deviceId : String) (payload : ResultPayload) (s : Fleet)

/-- An accepted command is past its dispatch, unless it is queued at the agent. -/
theorem runBy_handleAccepted :
    ∃ t, runBy columnServer answered (handleAccepted deviceId payload) s = (.ok (), t) ∧
      (payload.status ≠ some .queued → ∀ c, t.commands.find? payload.id = some c →
        c.status ≠ .pending ∧ c.status ≠ .dispatched) := by
  dsimp only [handleAccepted]
  split
  · rename_i hqueued
    exact ⟨s, runBy_perform_fits trivial, fun h ↦ absurd hqueued h⟩
  · rw [runBy_await_fits (show FitsColumns _ .now from trivial)]
    show ∃ t, runBy columnServer answered (.perform (.markRunning payload.id s.clock) >>= _) s =
      _ ∧ _
    rw [runBy_await_fits (show FitsColumns _ (.markRunning payload.id s.clock) from trivial)]
    refine ⟨_, runBy_perform_fits trivial, fun _ c hc ↦ ?_⟩
    obtain ⟨c', -, hc'⟩ := Option.map_eq_some_iff.mp ((Table.find?_updateMany s.commands
      (fun k c ↦ k = payload.id ∧ (c.status = .pending ∨ c.status = .dispatched)) ({ · with
        status := .running, startedAt := some s.clock }) payload.id).symm.trans hc)
    rw [← hc']
    split
    · exact ⟨nofun, nofun⟩
    · rename_i hlater
      have hlater : ¬ (c'.status = .pending ∨ c'.status = .dispatched) := fun h ↦
        hlater (decide_eq_true ⟨rfl, h⟩)
      exact not_or.mp hlater

/-- The row of a chunk. -/
def chunkRow (rowId : String) : CommandOutput where
  deviceId := rowId
  stream := payload.stream.getD .stdout
  chunk := payload.data.getD ""

/-- The insertion of a chunk. -/
def insertChunk (rowId : String) : CommandOp Unit :=
  .createOutput payload.id (payload.seq.getD 0) (chunkRow payload rowId)

/-- The columns take the row. -/
def ChunkFits : Prop := FitsInt (payload.seq.getD 0 : Nat) ∧ FitsText (payload.data.getD "")

instance : Decidable (ChunkFits payload) := inferInstanceAs (Decidable (_ ∧ _))

/-- A chunk of a known command is inserted, unless its number is taken. -/
theorem serve_insertChunk {rowId : String} {c : Command} {d : Device}
    (hcommand : s.commands.find? payload.id = some c)
    (hdevice : s.devices.find? rowId = some d) :
    (∃ outputs, s.outputs.insert (payload.id, payload.seq.getD 0) (chunkRow payload rowId) =
          some outputs ∧
        s.serve (insertChunk payload rowId) = (.ok (), { s with outputs })) ∨
      (s.outputs.find? (payload.id, payload.seq.getD 0)).isSome ∧
        s.serve (insertChunk payload rowId) = (.error .uniqueViolation, s) := by
  have hserve : s.serve (insertChunk payload rowId) =
      s.commit (s.createOutput payload.id (payload.seq.getD 0) (chunkRow payload rowId)) := rfl
  have hdevice' : s.devices.find? (chunkRow payload rowId).deviceId = some d := hdevice
  rw [hserve, Fleet.createOutput, if_neg (by simp [hcommand, hdevice'])]
  cases hins : s.outputs.insert (payload.id, payload.seq.getD 0) (chunkRow payload rowId) with
  | some outputs => exact .inl ⟨outputs, rfl, rfl⟩
  | none => exact .inr ⟨Table.isSome_of_insert_eq_none hins, rfl⟩

/-- The chunk is there, with its content unless its number was taken. -/
def ChunkStored (rowId : String) (t : Fleet) : Prop :=
  ∃ row, t.outputs.find? (payload.id, payload.seq.getD 0) = some row ∧
    (s.outputs.find? (payload.id, payload.seq.getD 0) = none → row = chunkRow payload rowId)

/-- A chunk that fits is stored, or has been before. -/
theorem runBy_storeChunk {rowId : String} {c : Command} {d : Device}
    (hcommand : s.commands.find? payload.id = some c) (hdevice : s.devices.find? rowId = some d)
    (hfits : ChunkFits payload) :
    ∃ t, runBy columnServer answered
        (storeChunk payload rowId (payload.stream.getD .stdout) (payload.seq.getD 0)) s =
        (.ok (), t) ∧ ChunkStored payload s rowId t := by
  have hrun : runBy columnServer answered (.perform (insertChunk payload rowId)) s =
      s.serve (insertChunk payload rowId) := runBy_perform_fits hfits
  show ∃ t, runBy columnServer answered
    (Prog.tryCatch (.perform (insertChunk payload rowId)) _) s = _ ∧ _
  rw [runBy_tryCatch, hrun]
  rcases serve_insertChunk payload s hcommand hdevice with ⟨outputs, hins, hserve⟩ |
    ⟨htaken, hserve⟩
  · rw [hserve]
    refine ⟨_, rfl, chunkRow payload rowId, ?_, fun _ ↦ rfl⟩
    exact (Table.find?_insert hins _).trans (if_pos rfl)
  · rw [hserve]
    obtain ⟨row, hrow⟩ := Option.isSome_iff_exists.mp htaken
    exact ⟨s, rfl, row, hrow, fun hnone ↦ absurd (hrow.symm.trans hnone) nofun⟩

theorem runBy_handleChunk {rowId : String} {c : Command} {d : Device}
    (hcommand : s.commands.find? payload.id = some c) (hdevice : s.devices.find? rowId = some d)
    (hfits : ChunkFits payload) :
    ∃ t, runBy columnServer answered (handleChunk deviceId payload rowId) s = (.ok (), t) ∧
      ChunkStored payload s rowId t := by
  obtain ⟨t, ht, hstored⟩ := runBy_storeChunk payload s hcommand hdevice hfits
  refine ⟨t, ?_, hstored⟩
  rw [handleChunk, runBy_bind, ht]
  exact runBy_perform_fits trivial

/-- A chunk that does not fit is refused. -/
theorem runBy_handleChunk_unfit (rowId : String) (hunfit : ¬ ChunkFits payload) :
    runBy columnServer answered (handleChunk deviceId payload rowId) s =
      (.error columnError, s) := by
  have hrefused : runBy columnServer answered (.perform (insertChunk payload rowId)) s =
      (.error columnError, s) := runBy_perform_unfit hunfit
  have hstore : runBy columnServer answered
      (storeChunk payload rowId (payload.stream.getD .stdout) (payload.seq.getD 0)) s =
      (.error columnError, s) := by
    show runBy columnServer answered
      (Prog.tryCatch (.perform (insertChunk payload rowId)) _) s = _
    rw [runBy_tryCatch, hrefused]
    rfl
  rw [handleChunk, runBy_bind, hstore]

/-- What a terminal result stores now. -/
def resultNow : StoredResult := storedResult payload (payload.finishedAt.getD s.clock)

/-- The update of a terminal result. -/
def updateResult : CommandOp Unit := .storeResult payload.id (resultNow payload s)

/-- What the browser hears of it. -/
def reportResult : CommandM Unit :=
  .perform (.emit (deviceChannel deviceId)
    (.commandResult payload.id deviceId (mapStatus payload.status) payload.exitCode
      (payload.stdout.getD "") (payload.stderr.getD "") (payload.truncated.getD false)
      payload.durationMs payload.error))

theorem runBy_handleTerminal_eq : runBy columnServer answered (handleTerminal deviceId payload) s =
    runBy columnServer answered
      (.perform (updateResult payload s) >>= fun _ ↦ reportResult deviceId payload) s := by
  have htime : runBy columnServer answered (timeOrNow payload.finishedAt) s =
      (.ok (payload.finishedAt.getD s.clock), s) := by
    cases payload.finishedAt with
    | some t => rfl
    | none => exact runBy_perform_fits trivial
  rw [handleTerminal, runBy_bind, htime]
  rfl

theorem runBy_handleTerminal {c : Command} (hcommand : s.commands.find? payload.id = some c)
    (hfits : (resultNow payload s).Fits) :
    ∃ t, runBy columnServer answered (handleTerminal deviceId payload) s = (.ok (), t) ∧
      t.commands.find? payload.id = some ((resultNow payload s).apply c) := by
  have hserve : s.serve (updateResult payload s) = (.ok (), { s with
      commands := s.commands.update payload.id (resultNow payload s).apply }) := by
    show s.commit (s.updateCommand payload.id _) = _
    rw [Fleet.updateCommand, if_neg (by simp [hcommand])]
    rfl
  rw [runBy_handleTerminal_eq,
    runBy_await_fits (show FitsColumns _ (updateResult payload s) from hfits), hserve]
  refine ⟨_, runBy_perform_fits trivial, ?_⟩
  show (s.commands.update payload.id (resultNow payload s).apply).find? payload.id = _
  rw [Table.find?_update, if_pos rfl, hcommand, Option.map_some]

theorem runBy_handleTerminal_unfit (hunfit : ¬ (resultNow payload s).Fits) :
    runBy columnServer answered (handleTerminal deviceId payload) s = (.error columnError, s) := by
  have hrefused : runBy columnServer answered (.perform (updateResult payload s)) s =
      (.error columnError, s) := runBy_perform_unfit hunfit
  rw [runBy_handleTerminal_eq, runBy_bind, hrefused]

end Kinds

/-! ## Whether a message is stored -/

section Wire

variable (newDate : String → Option Int) (w : WireResult)

/-- What a message reports is in the tables. -/
def Persisted (rowId : String) (s t : Fleet) : Prop :=
  match w.kind with
  | .accepted => w.status ≠ some .queued → ∀ c, t.commands.find? w.id = some c →
      c.status ≠ .pending ∧ c.status ≠ .dispatched
  | .chunk => ChunkStored (w.payload newDate) s rowId t
  | .result => ∀ c, s.commands.find? w.id = some c →
      t.commands.find? w.id = some ((resultNow (w.payload newDate) s).apply c)

/-- The columns and `Date` take what the handler reads of the message. -/
def WireResult.Storable : Prop :=
  match w.kind with
  | .accepted => True
  | .chunk => FitsInt (w.seq.getD 0 : Nat) ∧ FitsText (w.data.getD "")
  | .result => w.DatesValid newDate ∧ (∀ n ∈ w.exitCode, FitsInt n) ∧
      (∀ n ∈ w.durationMs, FitsInt n) ∧ (∀ x ∈ w.stdout, FitsText x) ∧
      (∀ x ∈ w.stderr, FitsText x) ∧ ∀ x ∈ w.error, FitsText x

instance : Decidable (w.Storable newDate) := by
  unfold WireResult.Storable
  split <;> infer_instance

end Wire

/-- A message about a command of the device gets past the checks. -/
theorem runBy_handleWire (newDate : String → Option Int) {deviceId : String} {w : WireResult}
    {s : Fleet} {c : Command} (hcommand : s.commands.find? w.id = some c)
    (howner : s.publicId c.deviceId = some deviceId) :
    runBy columnServer answered (handleWire newDate deviceId w) s =
      runBy columnServer answered (handleWireKind newDate deviceId w c.deviceId) s := by
  have hserve : s.serve (.findCommand w.id) = (.ok (some (c.deviceId, deviceId)), s) := by
    rw [Fleet.serve, hcommand, Option.bind_some, howner]
    rfl
  rw [handleWire, runBy_await_fits (show FitsColumns _ (.findCommand w.id) from trivial), hserve]
  show runBy _ _ (if deviceId ≠ deviceId then _ else _) s = _
  rw [if_neg (not_not.mpr rfl)]

/-- A message about a command of the device is handled and stored exactly when the columns and
`Date` take what it says. -/
theorem result_persisted (newDate : String → Option Int) (deviceId : String) (w : WireResult)
    (s : Fleet) {c : Command} (hcommand : s.commands.find? w.id = some c)
    (howner : s.publicId c.deviceId = some deviceId) :
    (∀ r t, Eval columnServer noFailure (handleWire newDate deviceId w) s r t →
      r = .ok () ∧ Persisted newDate w c.deviceId s t) ↔ w.Storable newDate := by
  obtain ⟨d, hdevice, -⟩ := Option.map_eq_some_iff.mp howner
  have hkind : (w.payload newDate).kind = w.kind := rfl
  rw [forall_noFailure_iff]
  show (runBy columnServer answered _ s).1 = _ ∧
    Persisted _ _ _ _ (runBy columnServer answered _ s).2 ↔ _
  rw [runBy_handleWire newDate hcommand howner, handleWireKind, handleKind, hkind, Persisted,
    WireResult.Storable]
  cases w.kind with
  | accepted =>
      obtain ⟨t, ht, hstored⟩ := runBy_handleAccepted deviceId (w.payload newDate) s
      rw [if_neg (fun h ↦ absurd h.1 nofun), ht]
      exact iff_of_true ⟨rfl, hstored⟩ trivial
  | chunk =>
      rw [if_neg (fun h ↦ absurd h.1 nofun)]
      by_cases hfits : ChunkFits (w.payload newDate)
      · obtain ⟨t, ht, hstored⟩ := runBy_handleChunk deviceId _ s hcommand hdevice hfits
        dsimp only
        rw [ht]
        exact iff_of_true ⟨rfl, hstored⟩ hfits
      · dsimp only
        rw [runBy_handleChunk_unfit deviceId _ s _ hfits]
        exact iff_of_false (fun h ↦ absurd h.1 nofun) hfits
  | result =>
      by_cases hdates : w.DatesValid newDate
      · rw [if_neg fun h ↦ h.2 hdates]
        have hiff : (resultNow (w.payload newDate) s).Fits ↔ (∀ n ∈ w.exitCode, FitsInt n) ∧
            (∀ n ∈ w.durationMs, FitsInt n) ∧ (∀ x ∈ w.stdout, FitsText x) ∧
            (∀ x ∈ w.stderr, FitsText x) ∧ ∀ x ∈ w.error, FitsText x :=
          ⟨fun h ↦ ⟨h.1, h.2, h.3, h.4, h.5⟩, fun ⟨h₁, h₂, h₃, h₄, h₅⟩ ↦ ⟨h₁, h₂, h₃, h₄, h₅⟩⟩
        by_cases hfits : (resultNow (w.payload newDate) s).Fits
        · obtain ⟨t, ht, hstored⟩ := runBy_handleTerminal deviceId _ s hcommand hfits
          dsimp only
          rw [ht]
          refine iff_of_true ⟨rfl, fun c' hc' ↦ ?_⟩ ⟨hdates, hiff.mp hfits⟩
          obtain rfl : c = c' := Option.some.inj (hcommand.symm.trans hc')
          exact hstored
        · dsimp only
          rw [runBy_handleTerminal_unfit deviceId _ s hfits]
          exact iff_of_false (fun h ↦ absurd h.1 nofun) fun h ↦ hfits (hiff.mpr h.2)
      · rw [if_pos ⟨rfl, hdates⟩]
        exact iff_of_false (fun h ↦ absurd h.1 nofun) fun h ↦ hdates h.1

/-- A command that has printed its uptime. -/
def completedResult : WireResult where
  id := "cmd"
  kind := .result
  status := some .completed
  exitCode := some 0
  stdout := some "up 3 days"
  startedAt := some "2026-07-01T10:00:00Z"

theorem result_persisted_completed :
    let newDate (x : String) : Option Int :=
      if x = "2026-07-01T10:00:00Z" then some 1782900000000 else none
    ∀ r t, Eval columnServer noFailure (handleWire newDate "dev" completedResult) unanswered r t →
      r = .ok () ∧ Persisted newDate completedResult "row" unanswered t :=
  (result_persisted _ "dev" completedResult unanswered rfl rfl).mpr (by decide)

/-- One that has printed a null byte: the result is lost, and its row stays as it was. -/
theorem result_lost : ∃ r t, Eval columnServer noFailure
    (handleWire (fun _ ↦ none) "dev"
      { id := "cmd", kind := .result, status := some .completed, exitCode := some 0
        stdout := some (String.singleton (Char.ofNat 0)) }) unanswered r t ∧
    r = .error columnError ∧
    t.commands.find? "cmd" = unanswered.commands.find? "cmd" ∧
    ∀ c, t.commands.find? "cmd" = some c → c.status = .dispatched ∧ c.stdout = none := by
  refine ⟨_, _, Eval.runBy _ _, by rfl, by rfl, ?_⟩
  rintro c ⟨⟩
  exact ⟨rfl, rfl⟩

end Zenstier
