import Zenstier.Agent.Client
import Zenstier.Concurrent.History
import Zenstier.Worker.Presence

/-!
# The fence from end to end

One agent, the broker and the worker.  The agent loses its connection and reconnects; the broker
publishes the Last-Will of a connection that was lost, but not at once; the worker takes the
status messages one by one in the order in which they are published.  The fence is to drop a
Last-Will that comes after the agent is back.  It compares session ids, and an agent has the
same id in all its connections.
-/

namespace Zenstier.Agent

open Store Concurrent

/-! ## Messages on their way -/

inductive MessageKind
  | online
  | heartbeat
  | will
  | shutdown
deriving DecidableEq, Repr

/-- A status message of a connection. -/
structure Message where
  kind : MessageKind
  /-- The connections of an agent are numbered. -/
  connection : Nat
  status : Status
deriving DecidableEq

/-- A connection that is up. -/
structure Connection where
  number : Nat
  /-- `OnConnect` has come to its end. -/
  announced : Bool
deriving DecidableEq, Repr

/-- An agent, the broker and the worker. -/
structure Link where
  client : Client
  /-- How often the agent has connected. -/
  connections : Nat := 0
  current : Option Connection := none
  /-- The agent has shut down. -/
  stopped : Bool := false
  /-- The lost connections whose Last-Will is still to be published. -/
  wills : List Nat := []
  /-- What the broker has published and the worker has not taken yet. -/
  published : List Message := []
  fleet : Fleet

inductive LinkEvent
  /-- The first connect, or a reconnect. -/
  | connect
  | announce (os : OSInfo) (metrics : Metrics)
  | heartbeat (metrics : Metrics)
  | lose
  | publishWill (connection : Nat)
  | disconnect
  /-- The worker takes the next message. -/
  | process (pushId : String)
  | tick (ms : Nat)

namespace Link

variable (x : Link)

/-- The broker publishes a message of a connection. -/
def publish (kind : MessageKind) (connection : Nat) (status : Status) : Link :=
  { x with published := x.published ++ [⟨kind, connection, status⟩] }

/-- The worker handles a message. -/
def handle (pushId : String) (m : Message) : Fleet :=
  (Concurrent.run commandServer []
    (onMessage pushId (.status x.client.deviceID m.status.payload)) x.fleet).2

def step (x : Link) : LinkEvent → Option Link
  | .connect =>
      if x.current.isNone ∧ x.stopped = false then
        some { x with connections := x.connections + 1, current := some ⟨x.connections, false⟩ }
      else none
  | .announce os metrics => match x.current with
      | some ⟨number, false⟩ => some
          { x.publish .online number (x.client.online os metrics) with
            current := some ⟨number, true⟩ }
      | _ => none
  | .heartbeat metrics => x.current.map fun connection ↦
      x.publish .heartbeat connection.number (x.client.heartbeat metrics)
  | .lose => x.current.map fun connection ↦
      { x with current := none, wills := x.wills ++ [connection.number] }
  | .publishWill connection =>
      if connection ∈ x.wills then
        some { x.publish .will connection x.client.will with wills := x.wills.erase connection }
      else none
  | .disconnect => x.current.map fun connection ↦
      { x.publish .shutdown connection.number x.client.shutdown with
        current := none, stopped := true }
  | .process pushId => match x.published with
      | [] => none
      | m :: rest => some { x with published := rest, fleet := x.handle pushId m }
  | .tick ms => some { x with fleet := { x.fleet with clock := x.fleet.clock + ms } }

/-- The status of the agent's device. -/
def status : Option DeviceStatus := (x.fleet.presence x.client.deviceID).map (·.status)

end Link

/-! ## What has been processed -/

/-- A message that the worker has processed, and the status in which it left the device. -/
structure Processed where
  message : Message
  left : Option DeviceStatus
deriving DecidableEq

def Link.observe (x : Link) : LinkEvent → List Processed
  | .process pushId => match x.published with
      | [] => []
      | m :: _ => [⟨m, { x with fleet := x.handle pushId m }.status⟩]
  | _ => []

/-- `b` is the Last-Will of a connection that is earlier than the one which `a` announces. -/
def Processed.Outdates (a b : Processed) : Prop :=
  a.message.kind = .online ∧ b.message.kind = .will ∧
    b.message.connection < a.message.connection

instance (a b : Processed) : Decidable (a.Outdates b) := by
  unfold Processed.Outdates; infer_instance

/-- A Last-Will that is processed after a later connection has been announced leaves the device
online. -/
def Fenced (log : List Processed) : Prop :=
  log.Pairwise fun a b ↦ a.Outdates b → b.left = some .online

/-- No Last-Will is processed after a later connection has been announced. -/
def InOrder (log : List Processed) : Prop := log.Pairwise fun a b ↦ ¬ a.Outdates b

instance (log : List Processed) : Decidable (Fenced log) := by
  unfold Fenced; infer_instance

instance (log : List Processed) : Decidable (InOrder log) := by
  unfold InOrder; infer_instance

/-! ## The messages of a client -/

section Messages

variable {c : Client} {m : Message}

/-- The message is one the client has built. -/
structure Message.From (c : Client) (m : Message) : Prop where
  v : m.status.v = version
  deviceID : m.status.deviceID = c.deviceID
  sessionID : m.status.sessionID = c.sessionID
  online : m.kind = .online → m.status.state = .online
  will : m.kind = .will → m.status.state = .offline

/-- The worker can parse it. -/
theorem Message.From.payload (h : m.From c) (hid : c.deviceID ≠ "") :
    ∃ payload, m.status.payload = some payload ∧ payload.state = m.status.state ∧
      payload.sessionId = omitEmpty c.sessionID := by
  have haccepted : ¬ (m.status.v ≠ PROTOCOL_VERSION ∨ m.status.deviceID = "") := by
    rw [h.v, h.deviceID]
    rintro (hv | hempty)
    · exact hv rfl
    · exact hid hempty
  refine ⟨_, if_neg haccepted, rfl, ?_⟩
  rw [← h.sessionID]

theorem not_superseded_self (session : Option String) : superseded session session = false := by
  unfold superseded
  split
  · rename_i a b ha hb
    rw [ha] at hb
    cases hb
    exact decide_eq_false fun h ↦ h rfl
  · rfl

end Messages

/-! ## The invariant -/

/-- What a message makes of a device that is in the session of the message. -/
theorem move_session {payload : StatusPayload} {t : Int} {p : Presence}
    (h : p.session = payload.sessionId) : (payload.move t p).session = payload.sessionId := by
  unfold StatusPayload.move
  split
  · rfl
  · unfold Presence.leave
    split
    · exact h
    · exact h

theorem move_status_offline {payload : StatusPayload} {t : Int} {p : Presence}
    (hstate : payload.state = .offline) (h : p.session = payload.sessionId) :
    (payload.move t p).status = .offline := by
  unfold StatusPayload.move
  rw [hstate]
  show (p.leave payload.sessionId).status = .offline
  rw [Presence.leave_of_current, Presence.offline]
  rw [h, not_superseded_self]
  exact Bool.false_ne_true

/-- What the worker makes of a message of the client. -/
theorem Link.presence_handle {x : Link} {c : Client} {m : Message} (hclient : x.client = c)
    (hlevel : deviceIdFromTopic c.deviceID = some c.deviceID) {payload : StatusPayload}
    (hpayload : m.status.payload = some payload) (pushId : String) :
    (x.handle pushId m).presence c.deviceID =
      (x.fleet.presence c.deviceID).map (payload.move x.fleet.clock) := by
  rw [Link.handle, hclient, hpayload, presence_onMessage, WorkerCall.move_status hlevel]
  rfl

/-- What of a run bears on the fence. -/
structure Held (c : Client) (r : Recorded Link Processed) : Prop where
  client : r.state.client = c
  published : ∀ m ∈ r.state.published, m.From c
  /-- Once the agent has been announced, its session is the current one. -/
  session : ∀ e ∈ r.log, e.message.kind = .online →
    ∀ p, r.state.fleet.presence c.deviceID = some p → p.session = omitEmpty c.sessionID
  late : r.log.Pairwise fun a b ↦ a.Outdates b → b.left ≠ some .online

section Invariant

variable {c : Client} {r r' : Recorded Link Processed}

/-- The broker publishes a message of the client. -/
theorem Held.publish (h : Held c r) {kind : MessageKind} {connection : Nat} {status : Status}
    (hm : (⟨kind, connection, status⟩ : Message).From c) :
    ∀ m ∈ (r.state.publish kind connection status).published, m.From c := by
  intro m hmem
  rcases List.mem_append.mp hmem with hmem | hmem
  · exact h.published m hmem
  · obtain rfl := List.mem_singleton.mp hmem
    exact hm

/-- The worker takes a message. -/
theorem Held.process (h : Held c r) (hlevel : deviceIdFromTopic c.deviceID = some c.deviceID)
    {pushId : String} {m : Message} {rest : List Message}
    (hpublished : r.state.published = m :: rest) :
    Held c ⟨{ r.state with published := rest, fleet := r.state.handle pushId m },
      r.log ++ [⟨m, { r.state with fleet := r.state.handle pushId m }.status⟩]⟩ := by
  have hm : m.From c := h.published m (hpublished ▸ List.mem_cons_self)
  have hid : c.deviceID ≠ "" := by
    intro hempty
    rw [hempty] at hlevel
    cases hlevel
  obtain ⟨payload, hpayload, hstate, hsession⟩ := hm.payload hid
  have hpresence := Link.presence_handle h.client hlevel hpayload pushId
  refine ⟨h.client, fun m' hm' ↦ ?_, ?_, ?_⟩
  · exact h.published m' (hpublished ▸ List.mem_cons_of_mem m hm')
  · intro e he honline p' hp'
    dsimp only at hp'
    rw [hpresence, Option.map_eq_some_iff] at hp'
    obtain ⟨p, hp, rfl⟩ := hp'
    rcases List.mem_append.mp he with he | he
    · rw [← hsession]
      exact move_session ((h.session e he honline p hp).trans hsession.symm)
    · obtain rfl := List.mem_singleton.mp he
      have honline : payload.state = .online := hstate.trans (hm.online honline)
      rw [StatusPayload.move, honline]
      exact hsession
  · refine List.pairwise_append.mpr ⟨h.late, List.pairwise_singleton _ _, fun a ha b hb ↦ ?_⟩
    obtain rfl := List.mem_singleton.mp hb
    rintro ⟨honline, hwill, -⟩
    rw [Link.status]
    dsimp only
    rw [h.client, hpresence]
    cases hp : r.state.fleet.presence c.deviceID with
    | none => simp
    | some p =>
        have hcurrent := (h.session a ha honline p hp).trans hsession.symm
        have hoffline := move_status_offline (t := r.state.fleet.clock)
          (hstate.trans (hm.will hwill)) hcurrent
        rw [Option.map_some, Option.map_some, hoffline]
        simp

/-- A step that the worker has no part in. -/
theorem Held.elsewhere (h : Held c r) {x : Link} (hclient : x.client = r.state.client)
    (hpublished : ∀ m ∈ x.published, m.From c)
    (hpresence : x.fleet.presence c.deviceID = r.state.fleet.presence c.deviceID) :
    Held c ⟨x, r.log ++ []⟩ := by
  rw [List.append_nil]
  refine ⟨hclient.trans h.client, hpublished, ?_, h.late⟩
  intro e he honline p hp
  exact h.session e he honline p (hpresence ▸ hp)

theorem Held.step (h : Held c r) (hlevel : deviceIdFromTopic c.deviceID = some c.deviceID)
    (hwill : ∀ connection, (⟨.will, connection, c.will⟩ : Message).From c) {l : LinkEvent}
    (hs : Recorded.step Link.step Link.observe r l = some r') : Held c r' := by
  obtain ⟨hstep, hlog⟩ := Recorded.step_eq_some hs
  obtain ⟨x', log'⟩ := r'
  dsimp only at hstep hlog
  subst hlog
  cases l with
  | connect =>
      dsimp only [Link.step] at hstep
      split at hstep
      · cases hstep
        exact h.elsewhere rfl h.published rfl
      · cases hstep
  | announce os metrics =>
      dsimp only [Link.step] at hstep
      split at hstep
      · cases hstep
        refine h.elsewhere rfl (h.publish ?_) rfl
        rw [h.client]
        exact ⟨rfl, rfl, rfl, fun _ ↦ rfl, fun h ↦ nomatch h⟩
      · cases hstep
  | heartbeat metrics =>
      obtain ⟨connection, -, rfl⟩ := Option.map_eq_some_iff.mp hstep
      refine h.elsewhere rfl (h.publish ?_) rfl
      rw [h.client]
      exact ⟨rfl, rfl, rfl, fun _ ↦ rfl, fun h ↦ nomatch h⟩
  | lose =>
      obtain ⟨connection, -, rfl⟩ := Option.map_eq_some_iff.mp hstep
      exact h.elsewhere rfl h.published rfl
  | publishWill connection =>
      dsimp only [Link.step] at hstep
      split at hstep
      · cases hstep
        refine h.elsewhere rfl (h.publish ?_) rfl
        rw [h.client]
        exact hwill connection
      · cases hstep
  | disconnect =>
      obtain ⟨connection, -, rfl⟩ := Option.map_eq_some_iff.mp hstep
      refine h.elsewhere rfl (h.publish ?_) rfl
      rw [h.client]
      exact ⟨rfl, rfl, rfl, (fun h ↦ nomatch h), fun h ↦ nomatch h⟩
  | process pushId =>
      cases hpublished : r.state.published with
      | nil =>
          simp only [Link.step, hpublished] at hstep
          cases hstep
      | cons m rest =>
          simp only [Link.step, hpublished, Option.some.injEq] at hstep
          subst hstep
          simp only [Link.observe, hpublished]
          exact h.process hlevel hpublished
  | tick ms =>
      cases hstep
      exact h.elsewhere rfl h.published rfl

end Invariant

/-- The runs of an agent, recorded by what the worker has processed. -/
def linkStep : Recorded Link Processed → LinkEvent → Option (Recorded Link Processed) :=
  Recorded.step Link.step Link.observe

/-- In every run of an agent, whatever Last-Wills the broker still publishes, the fence holds if
and only if no Last-Will is processed after a later connection has been announced: whenever one
is, it leaves the device offline. -/
theorem presence_fence (deviceID agentVersion : String) (intn : Nat → Fin 16) (s : Fleet)
    (hlevel : deviceIdFromTopic deviceID = some deviceID) {r : Recorded Link Processed}
    (hr : Reach linkStep (fun _ _ ↦ True)
      ⟨{ client := .new deviceID agentVersion intn, fleet := s }, []⟩ r) :
    Fenced r.log ↔ InOrder r.log := by
  have hheld : Held (.new deviceID agentVersion intn) r := by
    refine hr.invariant ?_ fun _ _ _ h _ hs ↦ h.step hlevel ?_ hs
    · refine ⟨rfl, fun m hm ↦ ?_, fun e he ↦ ?_, .nil⟩
      · exact absurd hm List.not_mem_nil
      · exact absurd he List.not_mem_nil
    · intro connection
      exact ⟨rfl, rfl, rfl, (fun h ↦ nomatch h), fun _ ↦ rfl⟩
  constructor
  · intro hfenced
    exact hfenced.imp₂ (fun a b hleft hlate houtdates ↦ hlate houtdates (hleft houtdates))
      hheld.late
  · intro horder
    exact horder.imp fun houtdates h ↦ absurd h houtdates

/-! ## A connection that is lost and replaced -/

/-- The agent's device has a row. -/
def enrolled : Fleet where
  clock := 0
  devices := ⟨[("row", { userId := "user", teamId := "team", deviceId := "dev", name := "edge" })],
    List.nodup_singleton _⟩
  deviceGroups := ∅
  batches := ∅
  commands := ∅
  outputs := ∅
  auditLogs := []
  limiter := fun _ _ ↦ []
  graceUntil := 0
  connected := true

def freshLink : Recorded Link Processed :=
  ⟨{ client := .new "dev" "1" fun _ ↦ 0, fleet := enrolled }, []⟩

/-- The Last-Will comes before the agent is back. -/
theorem presence_fence_in_order : ∃ r : Recorded Link Processed,
    (∃ e ∈ r.log, e.message.kind = .will) ∧ r.state.status = some .online ∧ Fenced r.log := by
  obtain ⟨r, hr, hwill, honline, horder⟩ : ∃ r : Recorded Link Processed,
      Reach linkStep (fun _ _ ↦ True) freshLink r ∧ (∃ e ∈ r.log, e.message.kind = .will) ∧
      r.state.status = some .online ∧ InOrder r.log :=
    Reach.exists_of_exec [.connect, .announce {} {}, .lose, .publishWill 0, .connect,
      .announce {} {}, .process "push", .process "push", .process "push"] (by decide)
  exact ⟨r, hwill, honline,
    (presence_fence "dev" "1" (fun _ ↦ 0) enrolled (by decide) hr).mpr horder⟩

/-- It comes after the agent is back, and takes the device offline. -/
theorem presence_fence_broken : ∃ r : Recorded Link Processed,
    Reach linkStep (fun _ _ ↦ True) freshLink r ∧ ¬ Fenced r.log :=
  Reach.exists_of_exec [.connect, .announce {} {}, .lose, .connect, .announce {} {},
    .publishWill 0, .process "push", .process "push", .process "push"] (by decide)

end Zenstier.Agent
