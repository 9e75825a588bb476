import Zenstier.Mqtt.Topic
import Zenstier.Worker.Grace

/-!
# What a device can change

The broker lets a device publish on its own status and result topics only, so the worker
takes the topic, and nothing else, for the identity of the sender.  The payloads carry ids of
their own: a device id, which no handler reads, and the id of a command, which `handleResult`
checks against the topic.  Whatever a device sends, and however the handlers of its messages
interleave, the rows of other devices stay as they are.
-/

namespace Zenstier

open Store Concurrent Prog

/-! ## Messages as they arrive -/

def SYS_UPTIME : String := "$SYS/broker/uptime"

/-- `deviceIdFromTopic`, of a whole topic. -/
def deviceOfTopic (topic : String) : Option String :=
  match Mqtt.levels topic with
  | ["zenstier", level, _] => deviceIdFromTopic level
  | _ => none

def endsWith (s suffix : String) : Bool := suffix.toList.isSuffixOf s.toList

/-- How the bytes of a payload are read: as a number of seconds, or by one of the schemas. -/
structure PayloadReader where
  uptime : List UInt8 → Option Int
  status : List UInt8 → Option StatusPayload
  result : List UInt8 → Option ResultPayload

/-- `onMessage` as it is called, with the topic and the bytes of the payload.  An empty
status is the tombstone of a deleted device. -/
def receive (reader : PayloadReader) (pushId topic : String) (payload : List UInt8) :
    CommandM Unit :=
  tryCatch
    (if topic = SYS_UPTIME then noteUptime (reader.uptime payload)
    else match deviceOfTopic topic with
      | none => return
      | some deviceId =>
          if endsWith topic "/status" then
            handleStatus pushId deviceId (if payload = [] then none else reader.status payload)
          else if endsWith topic "/result" then handleResult deviceId (reader.result payload)
          else return)
    fun _ ↦ return

theorem ReportTopic.levels_path (topic : ReportTopic) (u : String) :
    Mqtt.levels (topic.path u) = "zenstier" :: (Mqtt.levels u ++ [topic.level]) := by
  have hfirst : Mqtt.levels "zenstier" = ["zenstier"] := Mqtt.levels_of_notMem (by decide)
  have hlast : Mqtt.levels topic.level = [topic.level] := by
    cases topic <;> exact Mqtt.levels_of_notMem (by decide)
  rw [path_eq, Mqtt.levels_join, Mqtt.levels_join, hfirst, hlast, List.append_assoc]
  rfl

/-- The device of a topic of `u` is no other than `u`. -/
theorem deviceOfTopic_path {topic : ReportTopic} {u v : String}
    (h : deviceOfTopic (topic.path u) = some v) : v = u := by
  rw [deviceOfTopic, ReportTopic.levels_path] at h
  split at h
  · rename_i level last hlevels
    have hparts : Mqtt.levels u ++ [topic.level] = [level] ++ [last] := (List.cons.inj hlevels).2
    have hu : u = level := Mqtt.eq_of_levels (List.append_inj_left' hparts rfl)
    unfold deviceIdFromTopic at h
    split at h
    · cases h
    · rw [hu]
      exact (Option.some.inj h).symm
  · cases h

/-- The topics of a device are recognised. -/
theorem deviceOfTopic_of_level (topic : ReportTopic) {u : String} (hu : u ≠ "")
    (hslash : '/' ∉ u.toList) (hbroadcast : u ≠ "broadcast") :
    deviceOfTopic (topic.path u) = some u := by
  rw [deviceOfTopic, ReportTopic.levels_path, Mqtt.levels_of_notMem hslash]
  exact if_neg fun h ↦ h.elim hbroadcast hu

/-! ## The rows of a device -/

namespace Fleet

/-- The public id of the device that a command is for. -/
def owner (s : Fleet) (id : String) : Option String :=
  (s.commands.find? id).bind fun c ↦ s.publicId c.deviceId

/-- The rows that do not belong to the device `u` are the same. -/
structure Unaffected (u : String) (s t : Fleet) : Prop where
  /-- No device row changes hands, -/
  publicId : ∀ id, t.publicId id = s.publicId id
  /-- and no command does. -/
  owner : ∀ id, t.owner id = s.owner id
  devices : ∀ id, s.publicId id ≠ some u → t.devices.find? id = s.devices.find? id
  metrics : t.metrics.filter (fun m ↦ s.publicId m.deviceId ≠ some u) =
    s.metrics.filter fun m ↦ s.publicId m.deviceId ≠ some u
  commands : ∀ id, s.owner id ≠ some u → t.commands.find? id = s.commands.find? id
  outputs : ∀ id seq, s.owner id ≠ some u →
    t.outputs.find? (id, seq) = s.outputs.find? (id, seq)
  batches : t.batches = s.batches
  deviceGroups : t.deviceGroups = s.deviceGroups
  auditLogs : t.auditLogs = s.auditLogs

variable {u : String} {s t r : Fleet}

/-- Nothing but variables that are no rows has changed. -/
theorem Unaffected.of_rows (hdevices : t.devices = s.devices) (hmetrics : t.metrics = s.metrics)
    (hcommands : t.commands = s.commands) (houtputs : t.outputs = s.outputs)
    (hbatches : t.batches = s.batches) (hgroups : t.deviceGroups = s.deviceGroups)
    (hlogs : t.auditLogs = s.auditLogs) : Unaffected u s t := by
  have hpublic : t.publicId = s.publicId := by
    funext id
    rw [Fleet.publicId, Fleet.publicId, hdevices]
  constructor
  case publicId => exact fun id ↦ congrFun hpublic id
  case owner =>
    intro id
    rw [Fleet.owner, Fleet.owner, hcommands, hpublic]
  case devices => exact fun id _ ↦ by rw [hdevices]
  case metrics => rw [hmetrics]
  case commands => exact fun id _ ↦ by rw [hcommands]
  case outputs => exact fun id seq _ ↦ by rw [houtputs]
  case batches => exact hbatches
  case deviceGroups => exact hgroups
  case auditLogs => exact hlogs

theorem Unaffected.refl (u : String) (s : Fleet) : Unaffected u s s :=
  .of_rows rfl rfl rfl rfl rfl rfl rfl

theorem Unaffected.trans (h : Unaffected u s t) (h' : Unaffected u t r) : Unaffected u s r where
  publicId id := (h'.publicId id).trans (h.publicId id)
  owner id := (h'.owner id).trans (h.owner id)
  devices id hid := (h'.devices id (h.publicId id ▸ hid)).trans (h.devices id hid)
  metrics := by
    have h' := h'.metrics
    simp only [h.publicId] at h'
    exact h'.trans h.metrics
  commands id hid := (h'.commands id (h.owner id ▸ hid)).trans (h.commands id hid)
  outputs id seq hid := (h'.outputs id seq (h.owner id ▸ hid)).trans (h.outputs id seq hid)
  batches := h'.batches.trans h.batches
  deviceGroups := h'.deviceGroups.trans h.deviceGroups
  auditLogs := h'.auditLogs.trans h.auditLogs

/-! ## What a request may touch -/

/-- The request touches rows of the device `u` only. -/
def Confines (s : Fleet) (u : String) : ∀ β : Type, CommandOp β → Prop
  | _, .markOnline deviceId _ | _, .noteOffline deviceId _ => deviceId = u
  | _, .createMetric row => s.publicId row.deviceId = some u
  | _, .markRunning id _ | _, .storeResult id _ | _, .createOutput id _ _ => s.owner id = some u
  | _, .now | _, .findDevice _ | _, .findCommand _ | _, .emit .. | _, .publishGroups ..
  | _, .setGraceUntil _ => True
  | _, _ => False

theorem Unaffected.confines {β : Type} {op : CommandOp β} (h : Unaffected u s t)
    (hop : s.Confines u β op) : t.Confines u β op := by
  cases op with
  | createMetric row => exact (h.publicId _).trans hop
  | markRunning id _ => exact (h.owner id).trans hop
  | storeResult id _ => exact (h.owner id).trans hop
  | createOutput id _ _ => exact (h.owner id).trans hop
  | _ => exact hop

/-- An update of the devices with the public id `u` that leaves public ids alone. -/
theorem unaffected_updateDevice (f : Device → Device) (hf : ∀ d, (f d).deviceId = d.deviceId) :
    Unaffected u s (s.commit (s.updateDevice u f)).2 := by
  have hfind : ∀ id, (s.commit (s.updateDevice u f)).2.devices.find? id =
      (s.devices.find? id).map fun d ↦ if d.deviceId = u then f d else d :=
    s.find?_updateDevice u f
  have hpublic : ∀ id, (s.commit (s.updateDevice u f)).2.publicId id = s.publicId id := by
    intro id
    rw [Fleet.publicId, hfind, Option.map_map, Fleet.publicId]
    congr 1
    funext d
    show (if d.deviceId = u then f d else d).deviceId = d.deviceId
    split
    · exact hf d
    · rfl
  have hrest : (s.commit (s.updateDevice u f)).2 =
      { s with devices := (s.commit (s.updateDevice u f)).2.devices } := by
    unfold updateDevice
    split <;> rfl
  rw [hrest]
  constructor
  case publicId => exact hpublic
  case owner =>
    intro id
    show (s.commands.find? id).bind
      (fun c ↦ (s.commit (s.updateDevice u f)).2.publicId c.deviceId) = s.owner id
    rw [funext fun c : Command ↦ hpublic c.deviceId]
    rfl
  case devices =>
    intro id hid
    show (s.commit (s.updateDevice u f)).2.devices.find? id = s.devices.find? id
    rw [hfind]
    cases hd : s.devices.find? id with
    | none => rfl
    | some d =>
        have hne : d.deviceId ≠ u := by
          rintro rfl
          exact hid (by rw [Fleet.publicId, hd]; rfl)
        rw [Option.map_some, if_neg hne]
  case metrics => rfl
  case commands => exact fun _ _ ↦ rfl
  case outputs => exact fun _ _ _ ↦ rfl
  case batches => rfl
  case deviceGroups => rfl
  case auditLogs => rfl

/-- An update of one command of the device that leaves the device of the command alone. -/
theorem unaffected_commands {commands : Table String Command} {id : String}
    (hid : s.owner id = some u)
    (hne : ∀ id', id' ≠ id → commands.find? id' = s.commands.find? id')
    (hdevice : (commands.find? id).map (·.deviceId) = (s.commands.find? id).map (·.deviceId)) :
    Unaffected u s { s with commands } := by
  have howner : ∀ id', (commands.find? id').bind (fun c ↦ s.publicId c.deviceId) = s.owner id' := by
    intro id'
    have hmap : (commands.find? id').map (·.deviceId) =
        (s.commands.find? id').map (·.deviceId) := by
      by_cases h : id' = id
      · exact h ▸ hdevice
      · rw [hne id' h]
    calc (commands.find? id').bind (fun c ↦ s.publicId c.deviceId)
        = ((commands.find? id').map (·.deviceId)).bind s.publicId := by
          rw [Option.bind_map]; rfl
      _ = ((s.commands.find? id').map (·.deviceId)).bind s.publicId := by rw [hmap]
      _ = s.owner id' := by
          rw [Option.bind_map]; rfl
  constructor
  case publicId => exact fun _ ↦ rfl
  case owner => exact howner
  case devices => exact fun _ _ ↦ rfl
  case metrics => rfl
  case commands =>
    intro id' hid'
    refine hne id' ?_
    rintro rfl
    exact hid' hid
  case outputs => exact fun _ _ _ ↦ rfl
  case batches => rfl
  case deviceGroups => rfl
  case auditLogs => rfl

theorem unaffected_createMetric {row : DeviceMetric} (hrow : s.publicId row.deviceId = some u) :
    Unaffected u s (s.commit (s.createMetric row)).2 := by
  unfold createMetric
  split
  · exact .refl u s
  refine ⟨fun _ ↦ rfl, fun _ ↦ rfl, fun _ _ ↦ rfl, ?_, fun _ _ ↦ rfl, fun _ _ _ ↦ rfl,
    rfl, rfl, rfl⟩
  show (s.metrics ++ [row]).filter _ = _
  rw [List.filter_append, List.filter_singleton]
  simp only [hrow, ne_eq, not_true_eq_false, decide_false, cond_false, List.append_nil]

theorem unaffected_createOutput {id : String} (seq : Nat) (row : CommandOutput)
    (hid : s.owner id = some u) : Unaffected u s (s.commit (s.createOutput id seq row)).2 := by
  unfold createOutput
  split
  · exact .refl u s
  cases hins : s.outputs.insert (id, seq) row with
  | none => exact .refl u s
  | some outputs =>
      refine ⟨fun _ ↦ rfl, fun _ ↦ rfl, fun _ _ ↦ rfl, rfl, fun _ _ ↦ rfl, ?_, rfl, rfl, rfl⟩
      intro id' seq' hid'
      have hne : (id', seq') ≠ (id, seq) := by
        rintro ⟨⟩
        exact hid' hid
      exact (Table.find?_insert hins (id', seq')).trans (if_neg hne)

theorem unaffected_serve {β : Type} {op : CommandOp β} (hop : s.Confines u β op) :
    Unaffected u s (s.serve op).2 := by
  cases op with
  | markOnline deviceId sighting =>
      obtain rfl : deviceId = u := hop
      exact unaffected_updateDevice sighting.apply fun _ ↦ rfl
  | noteOffline deviceId t =>
      obtain rfl : deviceId = u := hop
      exact unaffected_updateDevice _ fun _ ↦ rfl
  | createMetric row => exact unaffected_createMetric hop
  | createOutput id seq row => exact unaffected_createOutput seq row hop
  | markRunning id t =>
      refine unaffected_commands hop (fun id' hid' ↦ ?_) ?_
      · rw [Table.find?_updateMany]
        cases s.commands.find? id' with
        | none => rfl
        | some c => exact congrArg some (if_neg fun h ↦ hid' (of_decide_eq_true h).1)
      · rw [Table.find?_updateMany, Option.map_map]
        congr 1
        funext c
        dsimp only [Function.comp_apply]
        split <;> rfl
  | storeResult id result =>
      rw [serve, updateCommand]
      split
      · exact .refl u s
      refine unaffected_commands hop (fun id' hid' ↦ ?_) ?_
      · rw [Table.find?_update, if_neg hid']
      · rw [Table.find?_update, if_pos rfl, Option.map_map]
        rfl
  | now => exact .refl u s
  | findDevice deviceId => exact .refl u s
  | findCommand id => exact .refl u s
  | emit channel event => exact .refl u s
  | publishGroups topic payload => exact .refl u s
  | setGraceUntil graceUntil => exact .of_rows rfl rfl rfl rfl rfl rfl rfl
  | _ => exact hop.elim

theorem unaffected_after {β : Type} {op : CommandOp β} (hop : s.Confines u β op) (f : Fate Err) :
    Unaffected u s (commandServer.after f op s) :=
  Server.after_of (Unaffected u s) (.refl u s) (unaffected_serve hop) f

/-! ## The handlers -/

/-- What a reply says of the owners of rows. -/
def Tells (s : Fleet) : ∀ β : Type, CommandOp β → Except Err β → Prop
  | _, .findDevice deviceId => fun r ↦
      ∀ device, r = .ok (some device) → s.publicId device.id = some deviceId
  | _, .findCommand id => fun r ↦
      ∀ rowId owner, r = .ok (some (rowId, owner)) → s.owner id = some owner
  | _, _ => fun _ ↦ True

theorem tells_error (s : Fleet) {β : Type} (op : CommandOp β) (e : Err) :
    s.Tells β op (.error e) := by
  cases op with
  | findDevice deviceId => exact fun _ h ↦ nomatch h
  | findCommand id => exact fun _ _ h ↦ nomatch h
  | _ => trivial

theorem tells_serve (s : Fleet) {β : Type} (op : CommandOp β) :
    s.Tells β op (s.serve op).1 := by
  cases op with
  | findDevice deviceId =>
      intro device h
      obtain ⟨⟨id, d⟩, hfind, rfl⟩ := Option.map_eq_some_iff.mp (Except.ok.inj h)
      obtain ⟨hd, hid⟩ := Table.findFirst_eq_some hfind
      exact Option.map_eq_some_iff.mpr ⟨d, hd, of_decide_eq_true hid⟩
  | findCommand id =>
      intro rowId owner h
      obtain ⟨c, hc, hpublic⟩ := Option.bind_eq_some_iff.mp (Except.ok.inj h)
      obtain ⟨owner', howner, hpair⟩ := Option.map_eq_some_iff.mp hpublic
      obtain ⟨-, rfl⟩ := Prod.mk.inj hpair
      exact Option.bind_eq_some_iff.mpr ⟨c, hc, howner⟩
  | _ => trivial

/-- What a reply says of rows whose owners are the same as in the beginning. -/
theorem Unaffected.tells (h : Unaffected u s t) {β : Type} {op : CommandOp β}
    {r : Except Err β} (hr : t.Tells β op r) : s.Tells β op r := by
  cases op with
  | findDevice deviceId => exact fun device hok ↦ h.publicId _ ▸ hr device hok
  | findCommand id => exact fun rowId owner hok ↦ h.owner _ ▸ hr rowId owner hok
  | _ => trivial

/-- The call asks for nothing that touches other rows than those of `u`, whatever it is told
as long as that is true. -/
def Confined (s : Fleet) (u : String) (p : CommandM Unit) : Prop :=
  Always s.Tells (fun β op _ ↦ s.Confines u β op) p

theorem Confined.of_only {p : CommandM Unit} (h : Only (s.Confines u) p) : s.Confined u p :=
  Always.of_only h fun _ _ _ hop ↦ hop

theorem Confined.await {β : Type} {op : CommandOp β} {f : β → CommandM Unit}
    (hop : s.Confines u β op) (hf : ∀ b, s.Tells β op (.ok b) → s.Confined u (f b)) :
    s.Confined u (.perform op >>= f) := by
  refine ⟨hop, fun r hr ↦ ?_⟩
  cases r with
  | ok b => exact hf b hr
  | error e => trivial

theorem Confined.tryCatch {p : CommandM Unit} (hp : s.Confined u p)
    {h : Err → CommandM Unit} (hh : ∀ e, s.Confined u (h e)) : s.Confined u (p.tryCatch h) :=
  Always.tryCatch hp (fun _ _ _ hop ↦ hop) hh

theorem confined_handleStatus (pushId : String) (payload : Option StatusPayload) :
    s.Confined u (handleStatus pushId u payload) := by
  cases payload with
  | none => trivial
  | some payload =>
      refine Confined.await trivial fun device hdevice ↦ ?_
      cases device with
      | none => trivial
      | some device =>
          have hrow : s.publicId device.id = some u := hdevice device rfl
          refine Confined.of_only ?_
          unfold handleKnown
          cases payload.state with
          | online =>
              refine Only.await trivial fun t ↦ Only.await rfl fun _ ↦ ?_
              refine Only.await trivial fun _ ↦ ?_
              refine (pushGroups_only trivial (fun _ _ ↦ trivial) ..).bind fun _ ↦ ?_
              cases payload.metrics with
              | none => trivial
              | some m =>
                  refine Only.await trivial fun _ ↦ Only.await hrow fun _ ↦ ?_
                  exact (only_perform _).mpr trivial
          | offline =>
              dsimp only [handleOffline]
              split
              · trivial
              · refine Only.await trivial fun t ↦ Only.await rfl fun _ ↦ ?_
                exact (only_perform _).mpr trivial

/-- The handlers of results touch the row of the command that the payload names, and its
output. -/
theorem only_handleKind {payload : ResultPayload} (h : s.owner payload.id = some u)
    (deviceId rowId : String) : Only (s.Confines u) (handleKind deviceId payload rowId) := by
  unfold handleKind
  cases payload.kind with
  | accepted =>
      dsimp only [handleAccepted]
      split
      · exact (only_perform _).mpr trivial
      · refine Only.await trivial fun t ↦ Only.await h fun _ ↦ ?_
        exact (only_perform _).mpr trivial
  | chunk =>
      refine Only.bind (Only.tryCatch ((only_perform _).mpr h) fun e ↦ ?_) fun _ ↦ ?_
      · split <;> trivial
      · exact (only_perform _).mpr trivial
  | result =>
      refine Only.bind ?_ fun t ↦ Only.await h fun _ ↦ (only_perform _).mpr trivial
      cases payload.finishedAt with
      | none => exact (only_perform _).mpr trivial
      | some t => trivial

theorem confined_handleResult (payload : Option ResultPayload) :
    s.Confined u (handleResult u payload) := by
  cases payload with
  | none => trivial
  | some payload =>
      refine Confined.await trivial fun found hfound ↦ ?_
      rcases found with _ | ⟨rowId, owner⟩
      · trivial
      dsimp only
      split
      · trivial
      · rename_i howner
        have hid : s.owner payload.id = some u := by
          rw [hfound rowId owner rfl, not_not.mp howner]
        exact Confined.of_only (only_handleKind hid u rowId)

/-- Any message on a topic of `u` is handled within the rows of `u`. -/
theorem confined_receive (reader : PayloadReader) (pushId : String) (topic : ReportTopic)
    (payload : List UInt8) : s.Confined u (receive reader pushId (topic.path u) payload) := by
  refine Confined.tryCatch ?_ fun _ ↦ trivial
  split
  · cases reader.uptime payload with
    | none => trivial
    | some seconds =>
        refine Confined.of_only ?_
        dsimp only [noteUptime]
        split
        · exact Only.await trivial fun _ ↦ (only_perform _).mpr trivial
        · trivial
  split
  · trivial
  · rename_i hdevice
    obtain rfl := deviceOfTopic_path hdevice
    split
    · exact confined_handleStatus ..
    split
    · exact confined_handleResult _
    · trivial

end Fleet

/-! ## Runs -/

/-- A message on a topic of a device. -/
structure Report where
  pushId : String
  topic : ReportTopic
  payload : List UInt8

def Report.prog (reader : PayloadReader) (u : String) (report : Report) : CommandM Unit :=
  receive reader report.pushId (report.topic.path u) report.payload

theorem unaffected_env {u : String} {s t : Fleet} (h : s.Unaffected u t) (x : WorkerEvent) :
    s.Unaffected u (x.apply t) := by
  refine h.trans ?_
  cases x with
  | tick ms => exact .of_rows rfl rfl rfl rfl rfl rfl rfl
  | connection connected => exact .of_rows rfl rfl rfl rfl rfl rfl rfl

theorem unaffected_step {ι : Type} [DecidableEq ι] {u : String} {s : Fleet} {c d : WorkerPool ι}
    {l : Event ι Err WorkerEvent}
    (hc : s.Unaffected u c.shared ∧ ∀ i, s.Confined u (c.thread i))
    (hstep : workerStep c l = some d) :
    s.Unaffected u d.shared ∧ ∀ i, s.Confined u (d.thread i) := by
  obtain ⟨hs, hthread⟩ := hc
  cases l with
  | run i f =>
      obtain ⟨β, op, k, hi, rfl⟩ := Pool.step_run hstep
      obtain ⟨hop, hk⟩ : s.Confined u (.call op k) := hi ▸ hthread i
      constructor
      · exact hs.trans (Fleet.unaffected_after (hs.confines hop) f)
      · refine Pool.forall_resume hthread i f op k (hk _ (hs.tells ?_))
        exact Pool.reply_contract (c.shared.tells_serve ·) (c.shared.tells_error · ·) f op
  | env x =>
      obtain rfl := Pool.step_env hstep
      exact ⟨unaffected_env hs x, hthread⟩

/-- However the messages of a device are handled, the rows of no other device change. -/
theorem device_confined {ι : Type} [DecidableEq ι] (reader : PayloadReader) (u : String)
    (report : ι → Report) (s : Fleet) {c : WorkerPool ι}
    (hc : Reach workerStep (fun _ _ ↦ True) ⟨s, fun i ↦ (report i).prog reader u⟩ c) :
    s.Unaffected u c.shared := by
  have hinv : s.Unaffected u c.shared ∧ ∀ i, s.Confined u (c.thread i) := by
    refine hc.invariant (I := fun c ↦ s.Unaffected u c.shared ∧ ∀ i, s.Confined u (c.thread i))
      ⟨.refl u s, fun i ↦ Fleet.confined_receive ..⟩ ?_
    intro c l d hinv _ hstep
    exact unaffected_step hinv hstep
  exact hinv.1

/-! ## A device that claims to be another -/

/-- Two devices, each with a command. -/
def twoDevices : Fleet where
  clock := 0
  devices := ⟨[("row", { userId := "user", teamId := "team", deviceId := "dev", name := "host" }),
    ("row2", { userId := "user", teamId := "team", deviceId := "dev2", name := "host2" })],
    by decide⟩
  deviceGroups := ∅
  batches := ∅
  commands := ⟨[("mine", { userId := "user", teamId := "team", deviceId := "row"
                           batchId := none, correlationId := "1", command := "uptime" }),
    ("theirs", { userId := "user", teamId := "team", deviceId := "row2"
                 batchId := none, correlationId := "2", command := "uptime" })], by decide⟩
  outputs := ∅
  auditLogs := []
  limiter := fun _ _ ↦ []
  graceUntil := 0
  connected := true

/-- Both payloads name the second device. -/
def forgedReader : PayloadReader where
  uptime _ := none
  status _ := some { state := .online, deviceId := "dev2" }
  result _ := some { id := "theirs", kind := .result, status := some .completed }

/-- A status message and a result of the first device. -/
def forgedReport : Fin 2 → Report
  | 0 => ⟨"push", .status, [0]⟩
  | 1 => ⟨"push", .result, [0]⟩

/-- The first device is marked online; the command of the second is left alone. -/
theorem device_confined_forged : ∃ c : WorkerPool (Fin 2),
    (c.shared.devices.find? "row").map (·.status) = some .online ∧
    (c.shared.commands.find? "theirs").map (·.status) = some .pending := by
  have hrun : ∃ c : WorkerPool (Fin 2), Reach workerStep (fun _ _ ↦ True)
      ⟨twoDevices, fun i ↦ (forgedReport i).prog forgedReader "dev"⟩ c ∧
      (c.shared.devices.find? "row").map (·.status) = some .online := by
    refine Reach.exists_of_exec (.run 0 .served :: .run 0 .served :: .run 0 .served ::
      [.run 1 .served]) ?_
    decide
  obtain ⟨c, hc, honline⟩ := hrun
  refine ⟨c, honline, ?_⟩
  have hkept := (device_confined forgedReader "dev" forgedReport twoDevices hc).commands "theirs"
  rw [hkept (by decide)]
  rfl

end Zenstier
