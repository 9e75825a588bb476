import Zenstier.Commands.Fleet

/-!
# Dispatching a command

`dispatchCommand` resolves the targets within the caller's team, drops those that are
offline or rate limited, inserts one row for each device that is left, publishes, and
marks the batch dispatched.  It publishes either once for each of these devices or once
to the broadcast topic of the group it was given.  The batch id, drawn at random, is an
argument.
-/

namespace Zenstier

open Store Concurrent

/-- Programs of command execution. -/
abbrev CommandM := Prog CommandOp Err

/-! ## The input -/

structure DispatchCommandInput where
  command : String
  /-- Public device ids to target. -/
  deviceIds : List String := []
  /-- Optional group to broadcast to instead of / in addition to deviceIds. -/
  groupId : Option String := none
  timeoutMs : Int := 60000
  /-- Use the group broadcast topic rather than per-device fan-out. -/
  useBroadcastTopic : Bool := false
deriving DecidableEq, Repr

/-- What `dispatchCommandSchema` guarantees of the inputs it accepts. -/
structure DispatchCommandInput.Accepted (v : DispatchCommandInput) : Prop where
  trimmed : trim v.command = v.command
  command : 1 ≤ utf16Length v.command ∧ utf16Length v.command ≤ 8192
  deviceIds : v.deviceIds.length ≤ 500 ∧ ∀ d ∈ v.deviceIds, d ≠ ""
  groupId : v.groupId ≠ some ""
  timeoutMs : 1000 ≤ v.timeoutMs ∧ v.timeoutMs ≤ 3600000
  /-- Select at least one device or a group. -/
  target : v.deviceIds ≠ [] ∨ (truthy v.groupId).isSome

instance (v : DispatchCommandInput) : Decidable v.Accepted :=
  decidable_of_iff (trim v.command = v.command ∧
      (1 ≤ utf16Length v.command ∧ utf16Length v.command ≤ 8192) ∧
      (v.deviceIds.length ≤ 500 ∧ ∀ d ∈ v.deviceIds, d ≠ "") ∧ v.groupId ≠ some "" ∧
      (1000 ≤ v.timeoutMs ∧ v.timeoutMs ≤ 3600000) ∧
      (v.deviceIds ≠ [] ∨ (truthy v.groupId).isSome))
    ⟨fun ⟨h₁, h₂, h₃, h₄, h₅, h₆⟩ ↦ ⟨h₁, h₂, h₃, h₄, h₅, h₆⟩,
      fun ⟨h₁, h₂, h₃, h₄, h₅, h₆⟩ ↦ ⟨h₁, h₂, h₃, h₄, h₅, h₆⟩⟩

/-! ## Rate limiting -/

structure RateLimitResult where
  /-- Device ids that may proceed. -/
  allowed : List String
  /-- Device ids that were throttled, with the wait in milliseconds. -/
  limited : List (String × Int)
  /-- Positive when the per-user budget is exhausted. -/
  userRetryAfterMs : Int
deriving DecidableEq, Repr

/-- How `checkCommandRateLimit` reads the answer of the script. -/
def rateLimitResult (deviceIds : List String) (results : List Int) : RateLimitResult :=
  let userRetryAfterMs := results.getLast?.getD 0
  let waits := deviceIds.zipIdx.map fun (deviceId, i) ↦ (deviceId, results.getD i 0)
  let allowed := (waits.filter fun w ↦ ¬ 0 < w.2).map (·.1)
  { allowed := if 0 < userRetryAfterMs then [] else allowed
    limited := waits.filter fun w ↦ 0 < w.2
    userRetryAfterMs }

def checkCommandRateLimit (userId : String) (deviceIds : List String) :
    CommandM RateLimitResult := do
  let results ← .perform (.evalRateLimit userId deviceIds)
  return rateLimitResult deviceIds results

/-! ## Selecting the targets -/

/-- Targets are always resolved within the caller's team. -/
def targetFilter (input : DispatchCommandInput) : TargetFilter :=
  match truthy input.groupId, input.deviceIds with
  | some groupId, [] => .group groupId
  | _, deviceIds => .devices deviceIds

structure Skipped where
  deviceId : String
  reason : String
deriving DecidableEq, Repr

structure Dispatched where
  deviceId : String
  commandId : String
deriving DecidableEq, Repr

structure DispatchOutcome where
  batchId : String
  dispatched : List Dispatched
  skipped : List Skipped
deriving DecidableEq, Repr

/-- The targets that are online. -/
def onlineTargets (targets : List Target) : List Target :=
  targets.filter fun t ↦ t.status = .online

/-- The targets that `onlineTargets` drops. -/
def skippedOffline (targets : List Target) : List Skipped :=
  (targets.filter fun t ↦ t.status ≠ .online).map fun t ↦ ⟨t.deviceId, "offline"⟩

/-- `Math.ceil(ms / 1000)`. -/
def ceilSeconds (ms : Int) : Int := (ms + 999) / 1000

def skippedLimited (limit : RateLimitResult) : List Skipped :=
  limit.limited.map fun l ↦ ⟨l.1, s!"rate limited ({ceilSeconds l.2}s)"⟩

/-- The online targets that the limiter lets proceed. -/
def allowedTargets (online : List Target) (limit : RateLimitResult) : List Target :=
  online.filter fun d ↦ d.deviceId ∈ limit.allowed

/-! ## Dispatching -/

section Dispatch

variable (sha1 : List UInt8 → List UInt8) (batchId userId teamId : String)
  (input : DispatchCommandInput)

/-- The row for one device. -/
def commandRow (t : Target) : Command where
  userId
  teamId
  correlationId := commandIdFor sha1 batchId t.deviceId
  deviceId := t.id
  batchId := some batchId
  command := input.command
  status := .pending
  timeoutMs := input.timeoutMs

/-- The rows of a batch, under the ids that the agents will use. -/
def commandRows (finalTargets : List Target) : List (String × Command) :=
  finalTargets.map fun t ↦ (commandIdFor sha1 batchId t.deviceId,
    commandRow sha1 batchId userId teamId input t)

/-- The payload of a broadcast: each agent derives its own id. -/
def broadcastPayload (issuedAt : Int) : CommandPayload where
  v := PROTOCOL_VERSION
  id := none
  batchId
  type := "exec"
  issuedAt
  expiresAt := issuedAt + input.timeoutMs + 30000
  issuedBy := userId
  command := input.command
  timeoutSec := ceilSeconds input.timeoutMs
  stream := false

/-- The payload for one device. -/
def devicePayload (issuedAt : Int) (t : Target) : CommandPayload :=
  { broadcastPayload batchId userId input issuedAt with
    id := some (commandIdFor sha1 batchId t.deviceId)
    stream := true }

/-- The group whose topic is published to, if any. -/
def broadcastGroup : Option String :=
  if input.useBroadcastTopic then truthy input.groupId else none

/-- Per-device fan-out: one publish each, giving per-device delivery control. -/
def publishTo (issuedAt : Int) (t : Target) : CommandM Dispatched := do
  .perform (.publishCommand (.command t.deviceId)
    (devicePayload sha1 batchId userId input issuedAt t))
  return ⟨t.deviceId, commandIdFor sha1 batchId t.deviceId⟩

/-- One publish to the group, or one for each device. -/
def publishBatch (issuedAt : Int) (finalTargets : List Target) : CommandM (List Dispatched) :=
  match broadcastGroup input with
  | some groupId => do
      .perform (.publishCommand (.broadcastCommand groupId)
        (broadcastPayload batchId userId input issuedAt))
      return finalTargets.map fun t ↦ ⟨t.deviceId, commandIdFor sha1 batchId t.deviceId⟩
  | none => .awaitAll (finalTargets.map (publishTo sha1 batchId userId input issuedAt))

/-- Inserts the rows of the batch and publishes it. -/
def dispatchBatch (skipped : List Skipped) (finalTargets : List Target) :
    CommandM DispatchOutcome := do
  let issuedAt ← .perform .now
  -- Rows must exist BEFORE publishing: a fast agent can return a result before the
  -- insert lands.
  .perform (.insertBatch batchId
    { userId, teamId, command := input.command, groupId := input.groupId }
    (commandRows sha1 batchId userId teamId input finalTargets)
    { userId, teamId, action := .commandDispatched, targetType := "batch"
      targetId := batchId })
  let dispatched ← publishBatch sha1 batchId userId input issuedAt finalTargets
  let dispatchedAt ← .perform .now
  .perform (.markDispatched batchId dispatchedAt)
  return ⟨batchId, dispatched, skipped⟩

/-- Refuses a caller whose budget is exhausted. -/
def refuseLimitedUser (userRetryAfterMs : Int) : CommandM DispatchOutcome := do
  .perform (.createAuditLog
    { userId, teamId, action := .commandRateLimited, targetType := "user"
      targetId := userId })
  throw (.error s!"Rate limit reached. Try again in {ceilSeconds userRetryAfterMs}s")

/-- Dispatches to the targets that the limiter lets proceed. -/
def dispatchAllowed (targets : List Target) (limit : RateLimitResult) :
    CommandM DispatchOutcome :=
  if 0 < limit.userRetryAfterMs then refuseLimitedUser userId teamId limit.userRetryAfterMs
  else if allowedTargets (onlineTargets targets) limit = [] then
    throw (.error "All selected devices are rate limited")
  else dispatchBatch sha1 batchId userId teamId input
    (skippedOffline targets ++ skippedLimited limit)
    (allowedTargets (onlineTargets targets) limit)

/-- Dispatches to the targets that are online. -/
def dispatchTargets (targets : List Target) : CommandM DispatchOutcome :=
  if targets = [] then throw (.error "No matching devices in this team")
  else if onlineTargets targets = [] then throw (.error "All selected devices are offline")
  else do
    -- Rate limit before writing anything.
    let limit ← checkCommandRateLimit userId ((onlineTargets targets).map (·.deviceId))
    dispatchAllowed sha1 batchId userId teamId input targets limit

def dispatchCommand : CommandM DispatchOutcome := do
  let targets ← .perform (.findTargets teamId (targetFilter input))
  dispatchTargets sha1 batchId userId teamId input targets

end Dispatch

/-! ## What is selected -/

namespace Fleet

variable (s : Fleet) (userId teamId : String) (input : DispatchCommandInput)

/-- The public ids of the online targets. -/
def onlineIds : List String :=
  (onlineTargets (s.findTargets teamId (targetFilter input))).map (·.deviceId)

/-- What the limiter makes of them. -/
def rateLimit : RateLimitResult :=
  rateLimitResult (s.onlineIds teamId input) (s.limiter userId (s.onlineIds teamId input))

/-- The targets that `dispatchCommand` inserts rows for. -/
def finalTargets : List Target :=
  allowedTargets (onlineTargets (s.findTargets teamId (targetFilter input)))
    (s.rateLimit userId teamId input)

/-- The targets it skips. -/
def skippedTargets : List Skipped :=
  skippedOffline (s.findTargets teamId (targetFilter input)) ++
    skippedLimited (s.rateLimit userId teamId input)

/-- The dispatch would publish to the device: the input selects it, it is online, and the
limiter lets it proceed. -/
structure Eligible (d : Device) : Prop where
  team : d.teamId = teamId
  selected : (targetFilter input).matches d
  online : d.status = .online
  allowed : d.deviceId ∈ (s.rateLimit userId teamId input).allowed

variable {s userId teamId input}

/-- A final target is an online device of the team that the limiter lets proceed. -/
theorem mem_finalTargets {t : Target} : t ∈ s.finalTargets userId teamId input ↔
    t ∈ s.findTargets teamId (targetFilter input) ∧ t.status = .online ∧
      t.deviceId ∈ (s.rateLimit userId teamId input).allowed := by
  simp [finalTargets, allowedTargets, onlineTargets, and_comm]

/-- A caller over budget selects nothing. -/
theorem user_within_budget (h : s.finalTargets userId teamId input ≠ []) :
    ¬ 0 < (s.rateLimit userId teamId input).userRetryAfterMs := by
  intro hlim
  obtain ⟨t, ht⟩ := List.exists_mem_of_ne_nil _ h
  obtain ⟨-, -, hallowed⟩ := mem_finalTargets.mp ht
  have hnil : (s.rateLimit userId teamId input).allowed = [] := if_pos hlim
  rw [hnil] at hallowed
  exact absurd hallowed List.not_mem_nil

/-- A final target is an eligible device. -/
theorem eligible_of_mem {t : Target} (ht : t ∈ s.finalTargets userId teamId input) :
    ∃ d, s.devices.find? t.id = some d ∧ t.deviceId = d.deviceId ∧
      s.Eligible userId teamId input d := by
  obtain ⟨htarget, honline, hallowed⟩ := mem_finalTargets.mp ht
  obtain ⟨d, hd, hteam, hmatch, hid, hst⟩ := mem_findTargets.mp htarget
  exact ⟨d, hd, hid, hteam, hmatch, hst ▸ honline, hid ▸ hallowed⟩

theorem Eligible.mem {id : String} {d : Device} (hd : s.devices.find? id = some d)
    (h : s.Eligible userId teamId input d) :
    ⟨id, d.deviceId, d.status⟩ ∈ s.finalTargets userId teamId input :=
  mem_finalTargets.mpr
    ⟨mem_findTargets.mpr ⟨d, hd, h.team, h.selected, rfl, rfl⟩, h.online, h.allowed⟩

theorem finalTargets_ne_nil : s.finalTargets userId teamId input ≠ [] ↔
    ∃ id d, s.devices.find? id = some d ∧ s.Eligible userId teamId input d := by
  constructor
  · intro h
    obtain ⟨t, ht⟩ := List.exists_mem_of_ne_nil _ h
    obtain ⟨d, hd, -, hel⟩ := eligible_of_mem ht
    exact ⟨t.id, d, hd, hel⟩
  · rintro ⟨id, d, hd, hel⟩
    exact List.ne_nil_of_mem (hel.mem hd)

end Fleet

/-! ## What is published -/

section Publishes

variable {sha1 : List UInt8 → List UInt8} {batchId userId teamId : String}
  {input : DispatchCommandInput}

/-- The message is one of those of the batch. -/
def MessageOf (sha1 : List UInt8 → List UInt8) (batchId userId : String)
    (input : DispatchCommandInput) (issuedAt : Int) (finalTargets : List Target)
    (topic : Topic) (payload : CommandPayload) : Prop :=
  match broadcastGroup input with
  | some groupId => topic = .broadcastCommand groupId ∧
      payload = broadcastPayload batchId userId input issuedAt
  | none => ∃ t ∈ finalTargets, topic = .command t.deviceId ∧
      payload = devicePayload sha1 batchId userId input issuedAt t

/-- The batch as `dispatchCommand` inserts it. -/
def Fleet.insertSelected (s : Fleet) (sha1 : List UInt8 → List UInt8)
    (batchId userId teamId : String) (input : DispatchCommandInput) : Except Err Fleet :=
  s.insertBatch batchId { userId, teamId, command := input.command, groupId := input.groupId }
    (commandRows sha1 batchId userId teamId input (s.finalTargets userId teamId input))
    { userId, teamId, action := .commandDispatched, targetType := "batch"
      targetId := batchId }

/-- The dispatch gets as far as publishing to the topic of a group: the input asks for it,
some device is eligible, and the database takes the rows. -/
structure Fleet.BroadcastsTo (s : Fleet) (sha1 : List UInt8 → List UInt8)
    (batchId userId teamId : String) (input : DispatchCommandInput) (groupId : String) :
    Prop where
  group : broadcastGroup input = some groupId
  eligible : ∃ id d, s.devices.find? id = some d ∧ s.Eligible userId teamId input d
  inserted : ∃ s', s.insertSelected sha1 batchId userId teamId input = .ok s'

/-- The requests of a dispatch that starts in `s`: a publish is a message of the batch and
finds its rows inserted. -/
def DispatchRequest (sha1 : List UInt8 → List UInt8) (batchId userId teamId : String)
    (input : DispatchCommandInput) (s : Fleet) : ∀ β : Type, CommandOp β → Fleet → Prop
  | _, .publishCommand topic payload, s' =>
      s.finalTargets userId teamId input ≠ [] ∧
      s.insertSelected sha1 batchId userId teamId input = .ok s' ∧
      ∃ issuedAt, MessageOf sha1 batchId userId input issuedAt
        (s.finalTargets userId teamId input) topic payload
  | _, _, _ => True

/-- Publishing a batch sends its messages only, and changes nothing in the stores. -/
theorem wp_publishBatch {P : ∀ β : Type, CommandOp β → Fleet → Prop} {issuedAt : Int}
    {finalTargets : List Target} {s : Fleet}
    (hP : ∀ topic payload, MessageOf sha1 batchId userId input issuedAt finalTargets topic payload →
      P Unit (.publishCommand topic payload) s) :
    wp commandServer anyFate P (fun _ t ↦ t = s)
      (publishBatch sha1 batchId userId input issuedAt finalTargets) s := by
  have hsame : ∀ f topic payload,
      commandServer.after f (.publishCommand topic payload) s = s := fun f topic payload ↦
    (commandServer.after_cases (.publishCommand topic payload) s f).elim id id
  unfold publishBatch
  cases hg : broadcastGroup input with
  | some groupId =>
      refine wp_await (hP _ _ ?_) (fun _ ↦ rfl) (fun _ _ ↦ rfl) fun _ _ ↦ rfl
      simp [MessageOf, hg]
  | none =>
      refine wp_awaitAll (I := fun t ↦ t = s) (fun p hp t ht ↦ ?_) rfl
      subst ht
      obtain ⟨target, htarget, rfl⟩ := List.mem_map.mp hp
      refine wp_await (hP _ _ ?_) (fun _ ↦ rfl) (fun _ _ ↦ rfl) fun _ _ ↦ rfl
      simp only [MessageOf, hg]
      exact ⟨target, htarget, rfl, rfl⟩

theorem wp_dispatchCommand (s : Fleet) :
    wp commandServer anyFate (DispatchRequest sha1 batchId userId teamId input s)
      (fun _ _ ↦ True) (dispatchCommand sha1 batchId userId teamId input) s := by
  unfold dispatchCommand
  refine wp_await trivial (fun _ ↦ ?_) (fun _ _ ↦ trivial) fun _ _ ↦ trivial
  rw [commandServer_serve, Fleet.serve, Prog.ofExcept_ok, Prog.pure_bind, dispatchTargets]
  split
  · trivial
  split
  · trivial
  rw [checkCommandRateLimit, Prog.bind_assoc]
  refine wp_await trivial (fun _ ↦ ?_) (fun _ _ ↦ trivial) fun _ _ ↦ trivial
  rw [commandServer_serve, Fleet.serve, Prog.ofExcept_ok, Prog.pure_bind, Prog.pure_def,
    Prog.pure_bind, dispatchAllowed]
  split
  · exact wp_await trivial (fun _ ↦ trivial) (fun _ _ ↦ trivial) fun _ _ ↦ trivial
  split
  · trivial
  rename_i hne
  unfold dispatchBatch
  refine wp_await trivial (fun _ ↦ ?_) (fun _ _ ↦ trivial) fun _ _ ↦ trivial
  rw [commandServer_serve, Fleet.serve, Prog.ofExcept_ok, Prog.pure_bind]
  refine wp_await trivial (fun _ ↦ ?_) (fun _ _ ↦ trivial) fun _ _ ↦ trivial
  change wp _ _ _ _ (.ofExcept
    (s.commit (s.insertSelected sha1 batchId userId teamId input)).1 >>= _)
    (s.commit (s.insertSelected sha1 batchId userId teamId input)).2
  cases hins : s.insertSelected sha1 batchId userId teamId input with
  | error e => trivial
  | ok s' =>
      rw [Fleet.commit_ok, Prog.ofExcept_ok, Prog.pure_bind]
      refine (wp_bind _ _ _).mpr (wp_mono (wp_publishBatch fun topic payload hmsg ↦
        ⟨hne, hins, _, hmsg⟩) ?_)
      rintro (e | dispatched) t ht
      · trivial
      refine wp_await trivial (fun _ ↦ ?_) (fun _ _ ↦ trivial) fun _ _ ↦ trivial
      exact wp_await trivial (fun _ ↦ trivial) (fun _ _ ↦ trivial) fun _ _ ↦ trivial

/-- What a dispatch publishes, and when. -/
theorem dispatchCommand_publishes {s s' : Fleet} {topic : Topic} {payload : CommandPayload}
    (h : Issues commandServer anyFate (.publishCommand topic payload) s'
      (dispatchCommand sha1 batchId userId teamId input) s) :
    DispatchRequest sha1 batchId userId teamId input s _ (.publishCommand topic payload) s' :=
  h.of_wp (wp_dispatchCommand s)

/-- A broadcast that is selected and inserted is published. -/
theorem dispatchCommand_broadcasts {s s' : Fleet} {groupId : String}
    (hg : broadcastGroup input = some groupId)
    (hne : s.finalTargets userId teamId input ≠ [])
    (hins : s.insertSelected sha1 batchId userId teamId input = .ok s') :
    Issues commandServer anyFate (.publishCommand (.broadcastCommand groupId)
        (broadcastPayload batchId userId input s.clock)) s'
      (dispatchCommand sha1 batchId userId teamId input) s := by
  have hmem : ∃ t, t ∈ s.finalTargets userId teamId input := List.exists_mem_of_ne_nil _ hne
  obtain ⟨t, ht⟩ := hmem
  obtain ⟨htarget, honline, -⟩ := Fleet.mem_finalTargets.mp ht
  have htargets : s.findTargets teamId (targetFilter input) ≠ [] := List.ne_nil_of_mem htarget
  have honlines : onlineTargets (s.findTargets teamId (targetFilter input)) ≠ [] :=
    List.ne_nil_of_mem (a := t) (by simp [onlineTargets, htarget, honline])
  refine .past trivial rfl ?_
  rw [dispatchTargets, if_neg htargets, if_neg honlines, checkCommandRateLimit, Prog.bind_assoc]
  refine .past trivial rfl ?_
  change Issues _ _ _ _ (dispatchAllowed sha1 batchId userId teamId input _
    (s.rateLimit userId teamId input)) s
  rw [dispatchAllowed, if_neg (Fleet.user_within_budget hne)]
  change Issues _ _ _ _ (if s.finalTargets userId teamId input = [] then _ else _) s
  rw [if_neg hne, dispatchBatch]
  refine .past trivial rfl ?_
  have hserve : s.commit (s.insertSelected sha1 batchId userId teamId input) = (.ok (), s') := by
    rw [hins, Fleet.commit_ok]
  refine .past trivial hserve ?_
  rw [publishBatch, hg, Prog.bind_assoc]
  exact .await

end Publishes

end Zenstier
