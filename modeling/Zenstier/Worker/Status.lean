import Zenstier.Worker.Handlers
import Zenstier.Worker.Reap

/-!
# Presence

`handleStatus` of the worker: what becomes of a message on a device's status topic.  Presence
is fenced by session id: an offline message of a session that has been superseded is dropped.
The row is read first and then updated, and messages are handled concurrently.  `onMessage`
tells the messages apart, and opens the grace window when the broker has just restarted.
-/

namespace Zenstier

open Store Concurrent

/-! ## Status messages -/

inductive PresenceState
  | online
  | offline
deriving DecidableEq, Repr

structure OsInfo where
  distro : Option String := none
  version : Option String := none
  kernel : Option String := none
  arch : Option String := none
  hostname : Option String := none
deriving DecidableEq, Repr

/-- A resource sample, as far as the roll-up of metrics reads it. -/
structure Metrics where
  cpuPercent : ℚ := 0
  memPercent : ℚ := 0
  diskPercent : ℚ := 0
  load1 : ℚ := 0
deriving DecidableEq

structure StatusPayload where
  state : PresenceState
  deviceId : String
  agentVersion : Option String := none
  /-- New per connection attempt; fences stale Last-Will messages. -/
  sessionId : Option String := none
  os : Option OsInfo := none
  metrics : Option Metrics := none
deriving DecidableEq

/-- The session has been superseded by the current one. -/
def superseded (sessionId currentSessionId : Option String) : Bool :=
  match truthy sessionId, truthy currentSessionId with
  | some sessionId, some currentSessionId => sessionId ≠ currentSessionId
  | _, _ => false

/-! ## Handling a status message -/

section Handler

variable (pushId deviceId : String) (payload : StatusPayload)

/-- What an online message stores. -/
def sighting (lastSeenAt : Int) : Sighting where
  lastSeenAt
  currentSessionId := payload.sessionId
  hostname := payload.os.bind (·.hostname)
  osName := payload.os.bind (·.distro)
  osVersion := payload.os.bind (·.version)
  kernel := payload.os.bind (·.kernel)
  arch := payload.os.bind (·.arch)
  agentVersion := payload.agentVersion

/-- Re-asserts broadcast group membership.  A failure is only logged. -/
def pushGroups (groups : List String) : CommandM Unit :=
  tryCatch (do
    let issuedAt ← .perform .now
    let now ← .perform .now
    .perform (.publishGroups (.command deviceId)
      { v := PROTOCOL_VERSION, id := pushId, type := "update_groups", issuedAt
        expiresAt := now + 60000, groups }))
    fun _ ↦ return

/-- Persists a resource sample and fans it out. -/
def storeMetrics (rowId : String) (m : Metrics) : CommandM Unit := do
  let recordedAt ← .perform .now
  .perform (.createMetric
    { deviceId := rowId, cpuPercent := m.cpuPercent, memPercent := m.memPercent
      diskPercent := m.diskPercent, load1 := m.load1, recordedAt })
  .perform (.emit (deviceChannel deviceId) (.deviceMetrics deviceId recordedAt))

/-- What follows on the update of a device that is online. -/
def afterOnline (device : KnownDevice) : CommandM Unit := do
  .perform (.emit (deviceChannel deviceId) (.deviceStatus deviceId .online))
  pushGroups pushId deviceId ((truthy device.groupId).elim [] ([·]))
  match payload.metrics with
  | none => return
  | some m => storeMetrics deviceId device.id m

def handleOnline (device : KnownDevice) : CommandM Unit := do
  let lastSeenAt ← .perform .now
  .perform (.markOnline deviceId (sighting payload lastSeenAt))
  afterOnline pushId deviceId payload device

/-- Stores that a device has gone offline. -/
def storeOffline : CommandM Unit := do
  let lastSeenAt ← .perform .now
  .perform (.noteOffline deviceId lastSeenAt)
  .perform (.emit (deviceChannel deviceId) (.deviceStatus deviceId .offline))

/-- Drops a will belonging to a session that has already been superseded. -/
def handleOffline (device : KnownDevice) : CommandM Unit :=
  if superseded payload.sessionId device.currentSessionId then return
  else storeOffline deviceId

/-- Handles the message of a device that has been looked up. -/
def handleKnown : Option KnownDevice → CommandM Unit
  | none => return
  | some device => match payload.state with
      | .online => handleOnline pushId deviceId payload device
      | .offline => handleOffline deviceId payload device

end Handler

/-- A message on the status topic of a device; it is ignored if it is empty or cannot be
parsed. -/
def handleStatus (pushId deviceId : String) : Option StatusPayload → CommandM Unit
  | none => return
  | some payload => do
      let device ← .perform (.findDevice deviceId)
      handleKnown pushId deviceId payload device

/-! ## Messages of the broker -/

def GRACE_WINDOW_MS : Int := 120000

/-- A message on one of the topics that the worker subscribes to; the topics of devices by
their second level. -/
inductive WorkerMessage
  /-- The uptime of the broker in seconds, if it is a number. -/
  | uptime (seconds : Option Int)
  | status (device : String) (payload : Option StatusPayload)
  | result (device : String) (payload : Option ResultPayload)
deriving DecidableEq

/-- The device of a topic. -/
def deviceIdFromTopic (level : String) : Option String :=
  if level = "broadcast" ∨ level = "" then none else some level

/-- Opens the grace window if the broker has just restarted. -/
def noteUptime : Option Int → CommandM Unit
  | none => return
  | some seconds =>
      if seconds < 120 then do
        let now ← .perform .now
        .perform (.setGraceUntil (now + GRACE_WINDOW_MS))
      else return

/-- Handles the message of a device. -/
def handleDevice (level : String) (handle : String → CommandM Unit) : CommandM Unit :=
  match deviceIdFromTopic level with
  | none => return
  | some deviceId => handle deviceId

/-- An error in a handler is only logged. -/
def onMessage (pushId : String) (message : WorkerMessage) : CommandM Unit :=
  tryCatch (match message with
    | .uptime seconds => noteUptime seconds
    | .status level payload =>
        handleDevice level fun deviceId ↦ handleStatus pushId deviceId payload
    | .result level payload =>
        handleDevice level fun deviceId ↦ handleResult deviceId payload)
    fun _ ↦ return

/-! ## The requests of the handlers -/

/-- The requests of `onMessage`. -/
def Receives : ∀ β : Type, CommandOp β → Prop
  | _, .now | _, .findDevice _ | _, .markOnline .. | _, .noteOffline .. | _, .publishGroups ..
  | _, .createMetric _ | _, .emit .. | _, .setGraceUntil _ => True
  | _, .findCommand _ | _, .markRunning .. | _, .createOutput .. | _, .storeResult .. => True
  | _, _ => False

section Requests

variable {P : ∀ β : Type, CommandOp β → Prop} {deviceId : String}

theorem pushGroups_only (hnow : P Int .now)
    (hpublish : ∀ topic payload, P Unit (.publishGroups topic payload)) (pushId : String)
    (groups : List String) : Prog.Only P (pushGroups pushId deviceId groups) := by
  refine Prog.Only.tryCatch ?_ fun _ ↦ trivial
  refine Prog.Only.await hnow fun _ ↦ Prog.Only.await hnow fun _ ↦ ?_
  exact (Prog.only_perform _).mpr (hpublish _ _)

theorem afterOnline_only (hnow : P Int .now) (hemit : ∀ channel event, P Unit (.emit channel event))
    (hpublish : ∀ topic payload, P Unit (.publishGroups topic payload))
    (hmetric : ∀ row, P Unit (.createMetric row)) (pushId : String) (payload : StatusPayload)
    (device : KnownDevice) : Prog.Only P (afterOnline pushId deviceId payload device) := by
  refine Prog.Only.await (hemit _ _) fun _ ↦ ?_
  refine (pushGroups_only hnow hpublish ..).bind fun _ ↦ ?_
  cases payload.metrics with
  | none => trivial
  | some m =>
      refine Prog.Only.await hnow fun _ ↦ Prog.Only.await (hmetric _) fun _ ↦ ?_
      exact (Prog.only_perform _).mpr (hemit _ _)

/-- The requests of `handleStatus`. -/
theorem handleStatus_requests (hnow : P Int .now)
    (hfind : P (Option KnownDevice) (.findDevice deviceId))
    (honline : ∀ sighting, P Unit (.markOnline deviceId sighting))
    (hoffline : ∀ t, P Unit (.noteOffline deviceId t))
    (hemit : ∀ channel event, P Unit (.emit channel event))
    (hpublish : ∀ topic payload, P Unit (.publishGroups topic payload))
    (hmetric : ∀ row, P Unit (.createMetric row)) (pushId : String)
    (payload : Option StatusPayload) : Prog.Only P (handleStatus pushId deviceId payload) := by
  cases payload with
  | none => trivial
  | some payload =>
      refine Prog.Only.await hfind fun device ↦ ?_
      cases device with
      | none => trivial
      | some device =>
          unfold handleKnown
          cases payload.state with
          | online =>
              refine Prog.Only.await hnow fun t ↦ Prog.Only.await (honline _) fun _ ↦ ?_
              exact afterOnline_only hnow hemit hpublish hmetric ..
          | offline =>
              dsimp only [handleOffline]
              split
              · trivial
              · refine Prog.Only.await hnow fun t ↦ Prog.Only.await (hoffline t) fun _ ↦ ?_
                exact (Prog.only_perform _).mpr (hemit _ _)

theorem handleStatus_only (pushId deviceId : String) (payload : Option StatusPayload) :
    Prog.Only Receives (handleStatus pushId deviceId payload) :=
  handleStatus_requests trivial trivial (fun _ ↦ trivial) (fun _ ↦ trivial)
    (fun _ _ ↦ trivial) (fun _ _ ↦ trivial) (fun _ ↦ trivial) pushId payload

theorem onMessage_only (pushId : String) (message : WorkerMessage) :
    Prog.Only Receives (onMessage pushId message) := by
  have hdevice : ∀ level (handle : String → CommandM Unit),
      (∀ deviceId, Prog.Only Receives (handle deviceId)) →
      Prog.Only Receives (handleDevice level handle) := by
    intro level handle h
    unfold handleDevice
    split
    · trivial
    · exact h _
  refine Prog.Only.tryCatch ?_ fun _ ↦ trivial
  cases message with
  | uptime seconds =>
      cases seconds with
      | none => trivial
      | some seconds =>
          dsimp only [noteUptime]
          split
          · exact Prog.Only.await trivial fun _ ↦ (Prog.only_perform _).mpr trivial
          · trivial
  | status level payload => exact hdevice level _ fun deviceId ↦ handleStatus_only ..
  | result level payload =>
      refine hdevice level _ fun deviceId ↦ (handleResult_only deviceId payload).mono ?_
      intro β op h
      cases op <;> first | exact h.elim | trivial

end Requests

/-! ## What a request does to the devices -/

section Devices

variable (s : Fleet) (deviceId : String)

/-- An update of a device that is not there fails, and changes nothing. -/
@[simp] theorem Fleet.find?_updateDevice (f : Device → Device) (id : String) :
    (s.commit (s.updateDevice deviceId f)).2.devices.find? id =
      (s.devices.find? id).map fun d ↦ if d.deviceId = deviceId then f d else d := by
  unfold updateDevice
  split
  · rename_i hnone
    rw [commit_error]
    cases hd : s.devices.find? id with
    | none => rfl
    | some d =>
        have hne := Table.findFirst_eq_none (Option.isNone_iff_eq_none.mp hnone) hd
        rw [Option.map_some, if_neg (of_decide_eq_false hne)]
  · rw [commit_ok, Table.find?_updateMany]
    simp only [decide_eq_true_eq]

theorem Fleet.markOffline_eq : s.markOffline deviceId =
    s.updateDevice deviceId ({ · with status := .offline }) := rfl

end Devices

/-- The request updates a device. -/
def WritesDevice : ∀ β : Type, CommandOp β → Prop
  | _, .markOffline _ | _, .markOnline .. | _, .noteOffline .. => True
  | _, _ => False

def SetsGrace : ∀ β : Type, CommandOp β → Prop
  | _, .setGraceUntil _ => True
  | _, _ => False

/-- What the request may change of the devices and the worker's own variables. -/
structure Frame {β : Type} (op : CommandOp β) (s t : Fleet) : Prop where
  clock : t.clock = s.clock
  connected : t.connected = s.connected
  graceUntil : ¬ SetsGrace β op → t.graceUntil = s.graceUntil
  devices : ¬ WritesDevice β op → t.devices = s.devices

theorem Frame.refl {β : Type} (op : CommandOp β) (s : Fleet) : Frame op s s :=
  ⟨rfl, rfl, fun _ ↦ rfl, fun _ ↦ rfl⟩

theorem Fleet.frame_serve {β : Type} (op : CommandOp β) (s : Fleet) :
    Frame op s (s.serve op).2 := by
  cases op with
  | insertBatch id batch rows audit =>
      simp only [serve, insertBatch]
      cases s.batches.insert id batch with
      | none => exact .refl _ s
      | some batches =>
          dsimp only
          cases insertCommands s.devices batches s.commands (s.created rows) with
          | error e => exact .refl _ s
          | ok commands => exact ⟨rfl, rfl, fun _ ↦ rfl, fun _ ↦ rfl⟩
  | createOutput id seq row =>
      simp only [serve, createOutput]
      split
      · exact .refl _ s
      cases s.outputs.insert (id, seq) row with
      | none => exact .refl _ s
      | some outputs => exact ⟨rfl, rfl, fun _ ↦ rfl, fun _ ↦ rfl⟩
  | storeResult id result =>
      simp only [serve, updateCommand]
      split <;> exact ⟨rfl, rfl, fun _ ↦ rfl, fun _ ↦ rfl⟩
  | expire id t error =>
      simp only [serve, updateCommand]
      split <;> exact ⟨rfl, rfl, fun _ ↦ rfl, fun _ ↦ rfl⟩
  | createMetric row =>
      simp only [serve, createMetric]
      split <;> exact ⟨rfl, rfl, fun _ ↦ rfl, fun _ ↦ rfl⟩
  | markOffline deviceId =>
      simp only [serve, markOffline]
      split <;> exact ⟨rfl, rfl, fun _ ↦ rfl, fun h ↦ absurd trivial h⟩
  | markOnline deviceId sighting =>
      simp only [serve, updateDevice]
      split <;> exact ⟨rfl, rfl, fun _ ↦ rfl, fun h ↦ absurd trivial h⟩
  | noteOffline deviceId t =>
      simp only [serve, updateDevice]
      split <;> exact ⟨rfl, rfl, fun _ ↦ rfl, fun h ↦ absurd trivial h⟩
  | setGraceUntil graceUntil => exact ⟨rfl, rfl, fun h ↦ absurd trivial h, fun _ ↦ rfl⟩
  | _ => exact ⟨rfl, rfl, fun _ ↦ rfl, fun _ ↦ rfl⟩

theorem frame_after {β : Type} (op : CommandOp β) (f : Fate Err) (s : Fleet) :
    Frame op s (commandServer.after f op s) :=
  Server.after_of (Frame op s) (.refl op s) (s.frame_serve op) f

end Zenstier
