import Zenstier.Concurrent.Logic
import Zenstier.Commands.Protocol
import Zenstier.Metrics.Retention
import Zenstier.Runtime
import Zenstier.Store.Table

/-!
# The stores behind command execution

The web process dispatches commands, the worker stores what the agents report and reaps
what they do not.  They share the database and talk to the browser through Redis.  `Fleet`
is their state: the rows they read and write, the rate limiter, and the two variables of
the worker that decide whether it reaps at all.  `CommandOp` lists the requests: single
database statements, transactions, broker publishes.
-/

namespace Zenstier

open Store Concurrent

structure Fleet where
  clock : Int
  devices : Table String Device
  deviceGroups : Table String DeviceGroup
  batches : Table String CommandBatch
  commands : Table String Command
  /-- Keyed by command and sequence number, which are unique together. -/
  outputs : Table (String × Nat) CommandOutput
  auditLogs : List AuditLog
  /-- What the rate-limiting script answers a user for a list of devices: the wait of each
  device, then the wait of the user. -/
  limiter : String → List String → List Int
  /-- The worker's `graceUntil`. -/
  graceUntil : Int
  /-- The worker is connected to the broker. -/
  connected : Bool
  metrics : List DeviceMetric := []

/-- How `dispatchCommand` selects devices within a team. -/
inductive TargetFilter
  | group (groupId : String)
  | devices (deviceIds : List String)
deriving DecidableEq, Repr

/-- The device satisfies the filter. -/
def TargetFilter.matches (f : TargetFilter) (d : Device) : Bool :=
  match f with
  | .group groupId => d.groupId = some groupId
  | .devices deviceIds => d.deviceId ∈ deviceIds

/-- A selected device: its row id, public id and status. -/
structure Target where
  id : String
  deviceId : String
  status : DeviceStatus
deriving DecidableEq, Repr

/-- What a result stores in the command row. -/
structure StoredResult where
  status : CommandStatus
  exitCode : Option Int
  stdout : Option String
  stderr : Option String
  truncated : Bool
  error : Option String
  durationMs : Option Int
  /-- Left as it is if absent. -/
  startedAt : Option Int
  finishedAt : Int
deriving DecidableEq, Repr

/-- The command row with the result stored. -/
def StoredResult.apply (r : StoredResult) (c : Command) : Command :=
  { c with
    status := r.status, exitCode := r.exitCode, stdout := r.stdout, stderr := r.stderr
    truncated := r.truncated, error := r.error, durationMs := r.durationMs
    startedAt := r.startedAt.or c.startedAt, finishedAt := some r.finishedAt }

/-- A command that may be overdue. -/
structure OverdueCommand where
  id : String
  timeoutMs : Int
  dispatchedAt : Option Int
  /-- The public id of its device. -/
  deviceId : String
deriving DecidableEq, Repr

/-- What an online message stores in the device row, besides the status.  What it does not
report about the host is left as it is. -/
structure Sighting where
  lastSeenAt : Int
  currentSessionId : Option String
  hostname : Option String := none
  osName : Option String := none
  osVersion : Option String := none
  kernel : Option String := none
  arch : Option String := none
  agentVersion : Option String := none
deriving DecidableEq, Repr

/-- The device row with an online message stored. -/
def Sighting.apply (x : Sighting) (d : Device) : Device :=
  { d with
    status := .online, lastSeenAt := some x.lastSeenAt, currentSessionId := x.currentSessionId
    hostname := x.hostname.or d.hostname, osName := x.osName.or d.osName
    osVersion := x.osVersion.or d.osVersion, kernel := x.kernel.or d.kernel
    arch := x.arch.or d.arch, agentVersion := x.agentVersion.or d.agentVersion }

/-- What `handleStatus` reads of a device. -/
structure KnownDevice where
  id : String
  currentSessionId : Option String
  groupId : Option String
deriving DecidableEq, Repr

inductive CommandOp : Type → Type
  | now : CommandOp Int
  | findTargets (teamId : String) (filter : TargetFilter) : CommandOp (List Target)
  | evalRateLimit (userId : String) (deviceIds : List String) : CommandOp (List Int)
  | createAuditLog (row : AuditLog) : CommandOp Unit
  /-- The transaction that inserts a batch with its commands. -/
  | insertBatch (batchId : String) (batch : CommandBatch) (rows : List (String × Command))
      (audit : AuditLog) : CommandOp Unit
  | publishCommand (topic : Topic) (payload : CommandPayload) : CommandOp Unit
  | markDispatched (batchId : String) (dispatchedAt : Int) : CommandOp Unit
  /-- The row and public ids of the device of a command. -/
  | findCommand (id : String) : CommandOp (Option (String × String))
  | markRunning (id : String) (startedAt : Int) : CommandOp Unit
  | createOutput (commandId : String) (seq : Nat) (row : CommandOutput) : CommandOp Unit
  | storeResult (id : String) (result : StoredResult) : CommandOp Unit
  | emit (channel : String) (event : SseEvent) : CommandOp Unit
  | graceUntil : CommandOp Int
  | connected : CommandOp Bool
  /-- Online devices not seen since. -/
  | findStale (staleBefore : Int) : CommandOp (List String)
  | markOffline (deviceId : String) : CommandOp Unit
  | findOverdue (take : Nat) : CommandOp (List OverdueCommand)
  | expire (id : String) (finishedAt : Int) (error : String) : CommandOp Unit
  | findDevice (deviceId : String) : CommandOp (Option KnownDevice)
  | markOnline (deviceId : String) (sighting : Sighting) : CommandOp Unit
  /-- What the status handler writes for an offline message. -/
  | noteOffline (deviceId : String) (lastSeenAt : Int) : CommandOp Unit
  | publishGroups (topic : Topic) (payload : GroupsPayload) : CommandOp Unit
  | createMetric (row : DeviceMetric) : CommandOp Unit
  | setGraceUntil (graceUntil : Int) : CommandOp Unit

namespace Fleet

variable (s : Fleet)

/-- The public id of a device. -/
def publicId (rowId : String) : Option String := (s.devices.find? rowId).map (·.deviceId)

/-- The devices of a team that satisfy a filter. -/
def findTargets (teamId : String) (filter : TargetFilter) : List Target :=
  (s.devices.findMany fun _ d ↦ d.teamId = teamId ∧ filter.matches d).map fun e ↦
    ⟨e.1, e.2.deviceId, e.2.status⟩

/-- A target is a device of the team. -/
theorem mem_findTargets {s : Fleet} {teamId : String} {filter : TargetFilter} {t : Target} :
    t ∈ s.findTargets teamId filter ↔ ∃ d, s.devices.find? t.id = some d ∧
      d.teamId = teamId ∧ filter.matches d ∧ t.deviceId = d.deviceId ∧ t.status = d.status := by
  simp only [findTargets, List.mem_map, Prod.exists, Table.mem_findMany]
  constructor
  · rintro ⟨id, d, ⟨hd, hp⟩, rfl⟩
    have := of_decide_eq_true hp
    exact ⟨d, hd, this.1, this.2, rfl, rfl⟩
  · rintro ⟨d, hd, hteam, hmatch, hid, hst⟩
    refine ⟨t.id, d, ⟨hd, by simp [hteam, hmatch]⟩, ?_⟩
    rw [← hid, ← hst]

/-! ## Writes -/

/-- The constraint that a new command row violates, apart from its id. -/
def violation (devices : Table String Device) (batches : Table String CommandBatch)
    (commands : Table String Command) (row : Command) : Option Err :=
  if (devices.find? row.deviceId).isNone ∨ ∃ b ∈ row.batchId, (batches.find? b).isNone then
    some .foreignKeyViolation
  else if (commands.findFirst fun _ c ↦ c.correlationId = row.correlationId).isSome then
    some .uniqueViolation
  else none

/-- Inserts the rows one by one; a violated constraint undoes all. -/
def insertCommands (devices : Table String Device) (batches : Table String CommandBatch)
    (commands : Table String Command) :
    List (String × Command) → Except Err (Table String Command)
  | [] => .ok commands
  | (id, row) :: rows => match violation devices batches commands row with
      | some e => .error e
      | none => match commands.insert id row with
        | some commands => insertCommands devices batches commands rows
        | none => .error .uniqueViolation

/-- The rows as they are created now. -/
def created (rows : List (String × Command)) : List (String × Command) :=
  rows.map fun row ↦ (row.1, { row.2 with createdAt := s.clock })

theorem mem_created {s : Fleet} {rows : List (String × Command)} {id : String} {c : Command} :
    (id, c) ∈ s.created rows ↔
      ∃ row, (id, row) ∈ rows ∧ { row with createdAt := s.clock } = c := by
  simp [created]

def insertBatch (batchId : String) (batch : CommandBatch) (rows : List (String × Command))
    (audit : AuditLog) : Except Err Fleet :=
  match s.batches.insert batchId batch with
  | none => .error .uniqueViolation
  | some batches => (insertCommands s.devices batches s.commands (s.created rows)).map
      fun commands ↦ { s with batches, commands, auditLogs := s.auditLogs ++ [audit] }

/-- The commands once the rows are in: the old ones and the new ones, whose batches
exist. -/
theorem find?_insertCommands {devices : Table String Device}
    {batches : Table String CommandBatch} {cs cs' : Table String Command}
    {rows : List (String × Command)} (h : insertCommands devices batches cs rows = .ok cs') :
    (∀ id c, cs'.find? id = some c ↔ cs.find? id = some c ∨ (id, c) ∈ rows) ∧
      ∀ id c b, (id, c) ∈ rows → c.batchId = some b → (batches.find? b).isSome := by
  induction rows generalizing cs with
  | nil =>
      cases h
      simp
  | cons row rows ih =>
      obtain ⟨k, row⟩ := row
      rw [insertCommands] at h
      cases hv : violation devices batches cs row with
      | some e => simp [hv] at h
      | none =>
          cases hins : cs.insert k row with
          | none => simp [hv, hins] at h
          | some cs₁ =>
              simp only [hv, hins] at h
              obtain ⟨hfind, hbatch⟩ := ih h
              constructor
              · intro id c
                rw [hfind, Table.find?_insert hins, List.mem_cons, Prod.mk.injEq]
                by_cases hk : id = k
                · subst hk
                  simp [(Table.insert_eq_some hins).1, eq_comm]
                · simp [hk]
              · intro id c b hmem hb
                rcases List.mem_cons.mp hmem with heq | hmem
                · cases heq
                  by_contra hnone
                  have : violation devices batches cs row = some .foreignKeyViolation :=
                    if_pos (.inr ⟨b, hb, by simpa using hnone⟩)
                  simp [this] at hv
                · exact hbatch id c b hmem hb

/-- What a committed batch has changed. -/
theorem insertBatch_ok {s s' : Fleet} {batchId : String} {batch : CommandBatch}
    {rows : List (String × Command)} {audit : AuditLog}
    (h : s.insertBatch batchId batch rows audit = .ok s') :
    s.batches.find? batchId = none ∧
    (∀ b, s'.batches.find? b = if b = batchId then some batch else s.batches.find? b) ∧
    (∀ id c, s'.commands.find? id = some c ↔
      s.commands.find? id = some c ∨ (id, c) ∈ s.created rows) ∧
    (∀ id c b, (id, c) ∈ s.created rows → c.batchId = some b → (s'.batches.find? b).isSome) ∧
    s'.devices = s.devices := by
  unfold insertBatch at h
  cases hb : s.batches.insert batchId batch with
  | none => simp [hb] at h
  | some batches =>
      simp only [hb] at h
      cases hc : insertCommands s.devices batches s.commands (s.created rows) with
      | error e => simp [hc, Except.map] at h
      | ok commands =>
          simp only [hc, Except.map, Except.ok.injEq] at h
          subst h
          obtain ⟨hfind, hbatch⟩ := find?_insertCommands hc
          exact ⟨(Table.insert_eq_some hb).1, Table.find?_insert hb, hfind, hbatch, rfl⟩

/-- Updates one row, which must exist. -/
def updateCommand (id : String) (f : Command → Command) : Except Err Fleet :=
  if (s.commands.find? id).isNone then .error .recordNotFound
  else .ok { s with commands := s.commands.update id f }

def createOutput (commandId : String) (seq : Nat) (row : CommandOutput) : Except Err Fleet :=
  if (s.commands.find? commandId).isNone ∨ (s.devices.find? row.deviceId).isNone then
    .error .foreignKeyViolation
  else match s.outputs.insert (commandId, seq) row with
    | some outputs => .ok { s with outputs }
    | none => .error .uniqueViolation

def markOffline (deviceId : String) : Except Err Fleet :=
  if (s.devices.findFirst fun _ d ↦ d.deviceId = deviceId).isNone then .error .recordNotFound
  else .ok { s with
    devices := s.devices.updateMany (fun _ d ↦ d.deviceId = deviceId) ({ · with
      status := .offline }) }

/-- Updates the device with this public id, which must exist. -/
def updateDevice (deviceId : String) (f : Device → Device) : Except Err Fleet :=
  if (s.devices.findFirst fun _ d ↦ d.deviceId = deviceId).isNone then .error .recordNotFound
  else .ok { s with devices := s.devices.updateMany (fun _ d ↦ d.deviceId = deviceId) f }

def createMetric (row : DeviceMetric) : Except Err Fleet :=
  if (s.devices.find? row.deviceId).isNone then .error .foreignKeyViolation
  else .ok { s with metrics := s.metrics ++ [row] }

/-- The reply to a write and the state it leaves: a failed write leaves the old one. -/
def commit : Except Err Fleet → Except Err Unit × Fleet
  | .ok s' => (.ok (), s')
  | .error e => (.error e, s)

@[simp] theorem commit_ok (s' : Fleet) : s.commit (.ok s') = (.ok (), s') := rfl

@[simp] theorem commit_error (e : Err) : s.commit (.error e) = (.error e, s) := rfl

/-- The batch a command refers to exists. -/
def BatchesExist : Prop :=
  ∀ ⦃id c b⦄, s.commands.find? id = some c → c.batchId = some b → (s.batches.find? b).isSome

/-! ## The server -/

/-- Serves one request. -/
def serve {β : Type} : CommandOp β → Except Err β × Fleet
  | .now => (.ok s.clock, s)
  | .findTargets teamId filter => (.ok (s.findTargets teamId filter), s)
  | .evalRateLimit userId deviceIds => (.ok (s.limiter userId deviceIds), s)
  | .createAuditLog row => (.ok (), { s with auditLogs := s.auditLogs ++ [row] })
  | .insertBatch id batch rows audit => s.commit (s.insertBatch id batch rows audit)
  | .publishCommand _ _ => (.ok (), s)
  | .markDispatched batchId dispatchedAt =>
      (.ok (), { s with
        commands := s.commands.updateMany (fun _ c ↦ c.batchId = some batchId) ({ · with
          status := .dispatched, dispatchedAt := some dispatchedAt }) })
  | .findCommand id =>
      (.ok ((s.commands.find? id).bind fun c ↦ (s.publicId c.deviceId).map (c.deviceId, ·)), s)
  | .markRunning id startedAt =>
      (.ok (), { s with
        commands := s.commands.updateMany
          (fun k c ↦ k = id ∧ (c.status = .pending ∨ c.status = .dispatched)) ({ · with
            status := .running, startedAt := some startedAt }) })
  | .createOutput id seq row => s.commit (s.createOutput id seq row)
  | .storeResult id result => s.commit (s.updateCommand id (StoredResult.apply result))
  | .emit _ _ => (.ok (), s)
  | .graceUntil => (.ok s.graceUntil, s)
  | .connected => (.ok s.connected, s)
  | .findStale staleBefore =>
      (.ok ((s.devices.findMany fun _ d ↦ d.status = .online ∧
        (d.lastSeenAt.all fun t ↦ t < staleBefore)).map (·.2.deviceId)), s)
  | .markOffline deviceId => s.commit (s.markOffline deviceId)
  | .findOverdue take =>
      (.ok (((s.commands.findMany fun _ c ↦ (c.status = .dispatched ∨ c.status = .running) ∧
        c.dispatchedAt.isSome).take take).map fun e ↦
          ⟨e.1, e.2.timeoutMs, e.2.dispatchedAt, (s.publicId e.2.deviceId).getD ""⟩), s)
  | .expire id finishedAt error =>
      s.commit (s.updateCommand id ({ · with
        status := .timeout, finishedAt := some finishedAt, error := some error }))
  | .findDevice deviceId =>
      (.ok ((s.devices.findFirst fun _ d ↦ d.deviceId = deviceId).map fun e ↦
        ⟨e.1, e.2.currentSessionId, e.2.groupId⟩), s)
  | .markOnline deviceId sighting => s.commit (s.updateDevice deviceId sighting.apply)
  | .noteOffline deviceId lastSeenAt =>
      s.commit (s.updateDevice deviceId ({ · with
        status := .offline, lastSeenAt := some lastSeenAt }))
  | .publishGroups _ _ => (.ok (), s)
  | .createMetric row => s.commit (s.createMetric row)
  | .setGraceUntil graceUntil => (.ok (), { s with graceUntil })

end Fleet

/-- The stores as a server. -/
def commandServer : Server CommandOp Err Fleet := ⟨fun op s ↦ s.serve op⟩

@[simp] theorem commandServer_serve {β : Type} (op : CommandOp β) (s : Fleet) :
    commandServer.serve op s = s.serve op := rfl

/-- What happens to the stores from elsewhere. -/
inductive FleetEvent
  | tick (ms : Nat)
  /-- The rate limiter changes its mind. -/
  | limit (limiter : String → List String → List Int)
  /-- The worker loses or regains its connection, or a broker restart starts a grace
  window. -/
  | worker (graceUntil : Int) (connected : Bool)

def FleetEvent.apply : FleetEvent → Fleet → Fleet
  | .tick ms, s => { s with clock := s.clock + ms }
  | .limit limiter, s => { s with limiter }
  | .worker graceUntil connected, s => { s with graceUntil, connected }

end Zenstier
