import Zenstier.Worker.Grace

/-!
# What the worker knows of a device

`Presence` is what the rows of devices are kept for: whether a device is online, under which
session it said so, and when it was last heard of.  A message or a pass of the reaper moves the
presence of a device in one step.  `presence_prog` says that a call which runs on its own does
to the row what it does to the presence.
-/

namespace Zenstier

open Store Concurrent Prog

/-! ## Presence -/

structure Presence where
  status : DeviceStatus
  session : Option String
  /-- When it was last heard of, while it is online. -/
  lastSeenAt : Option Int
deriving DecidableEq, Repr

namespace Presence

/-- The device is heard of. -/
def online (session : Option String) (t : Int) : Presence := ⟨.online, session, some t⟩

/-- The device is gone; the session that was current stays current. -/
def offline (p : Presence) : Presence := ⟨.offline, p.session, none⟩

/-- The device of a session is gone: of no interest once another session is current. -/
def leave (session : Option String) (p : Presence) : Presence :=
  if superseded session p.session then p else p.offline

theorem leave_of_superseded {session : Option String} {p : Presence}
    (h : superseded session p.session = true) : p.leave session = p := if_pos h

theorem leave_of_current {session : Option String} {p : Presence}
    (h : ¬ superseded session p.session = true) : p.leave session = p.offline := if_neg h

/-- Online, but not heard of since. -/
def Stale (before : Int) (p : Presence) : Prop :=
  p.status = .online ∧ p.lastSeenAt.all (· < before)

instance (before : Int) (p : Presence) : Decidable (p.Stale before) := by
  unfold Stale; infer_instance

/-- The device is given up if it has not been heard of since. -/
def expire (before : Int) (p : Presence) : Presence := if p.Stale before then p.offline else p

end Presence

/-- What a call finds of the clock and of the worker's own variables. -/
structure Setting where
  clock : Int
  graceUntil : Int
  connected : Bool
deriving DecidableEq, Repr

/-- What a status message makes of the presence of its device. -/
def StatusPayload.move (payload : StatusPayload) (t : Int) (p : Presence) : Presence :=
  match payload.state with
  | .online => .online payload.sessionId t
  | .offline => p.leave payload.sessionId

/-- What a call makes of the presence of a device. -/
def WorkerCall.move (deviceId : String) (x : Setting) : WorkerCall → Presence → Presence
  | .message _ (.status level (some payload)), p =>
      if deviceIdFromTopic level = some deviceId then payload.move x.clock p else p
  | .message .., p => p
  | .reap, p =>
      if x.graceUntil ≤ x.clock ∧ x.connected = true then p.expire (x.clock - STALE_AFTER_MS)
      else p

namespace WorkerCall

variable {deviceId : String} {x : Setting}

/-- A message that does not concern the device. -/
theorem move_message {pushId : String} {message : WorkerMessage}
    (h : ∀ level payload, message = .status level (some payload) →
      deviceIdFromTopic level ≠ some deviceId) (x : Setting) :
    move deviceId x (.message pushId message) = id := by
  funext p
  cases message with
  | status level payload =>
      cases payload with
      | none => rfl
      | some payload => exact if_neg (h level payload rfl)
  | uptime seconds => rfl
  | result level payload => rfl

theorem move_status {pushId level : String} {payload : StatusPayload}
    (h : deviceIdFromTopic level = some deviceId) :
    move deviceId x (.message pushId (.status level (some payload))) = payload.move x.clock := by
  funext p
  exact if_pos h

theorem move_reap (hgrace : x.graceUntil ≤ x.clock) (hconnected : x.connected = true) :
    move deviceId x .reap = Presence.expire (x.clock - STALE_AFTER_MS) := by
  funext p
  exact if_pos ⟨hgrace, hconnected⟩

/-- A pass that is held back. -/
theorem move_reap_of_blind (h : x.clock < x.graceUntil ∨ x.connected = false) :
    move deviceId x .reap = id := by
  funext p
  refine if_neg ?_
  rintro ⟨hgrace, hconnected⟩
  rcases h with h | h
  · omega
  · rw [hconnected] at h
    cases h

end WorkerCall

/-! ## The rows -/

def Device.presence (d : Device) : Presence where
  status := d.status
  session := d.currentSessionId
  lastSeenAt := if d.status = .online then d.lastSeenAt else none

namespace Fleet

variable (s : Fleet) (deviceId : String)

/-- The presence of a device, if there is one with this public id. -/
def presence : Option Presence :=
  (s.devices.findFirst fun _ d ↦ d.deviceId = deviceId).map (·.2.presence)

def setting : Setting := ⟨s.clock, s.graceUntil, s.connected⟩

/-- The state as a call in the given setting finds it. -/
def within (x : Setting) : Fleet :=
  { s with clock := x.clock, graceUntil := x.graceUntil, connected := x.connected }

@[simp] theorem presence_within (x : Setting) :
    (s.within x).presence deviceId = s.presence deviceId := rfl

@[simp] theorem setting_within (x : Setting) : (s.within x).setting = x := rfl

/-- An update of devices that leaves their public ids alone. -/
theorem presence_updateDevice (f : Device → Device) (g : Presence → Presence)
    (hf : ∀ d, (f d).deviceId = d.deviceId) (hg : ∀ d, (f d).presence = g d.presence)
    (deviceId' : String) :
    (s.commit (s.updateDevice deviceId' f)).2.presence deviceId =
      if deviceId = deviceId' then (s.presence deviceId).map g else s.presence deviceId := by
  unfold updateDevice
  split
  · rename_i hnone
    rw [commit_error]
    split
    · rename_i heq
      rw [presence, heq, Option.isNone_iff_eq_none.mp hnone, Option.map_none, Option.map_none]
    · rfl
  · rw [commit_ok, presence, Table.findFirst_updateMany]
    · rw [presence, Option.map_map]
      cases hfind : s.devices.findFirst fun _ d ↦ decide (d.deviceId = deviceId) with
      | none => simp
      | some e =>
          have hid := of_decide_eq_true (Table.findFirst_eq_some hfind).2
          subst hid
          by_cases heq : e.2.deviceId = deviceId' <;> simp [heq, hg]
    · intro k d _
      rw [hf d]

end Fleet

/-- The request does not update the device. -/
def Spares (deviceId : String) : ∀ β : Type, CommandOp β → Prop
  | _, .markOffline deviceId' | _, .markOnline deviceId' _ | _, .noteOffline deviceId' _ =>
      deviceId' ≠ deviceId
  | _, _ => True

section Requests

variable (s : Fleet) (deviceId : String)

/-- What a request makes of the presence of a device. -/
theorem presence_markOnline (deviceId' : String) (x : Sighting) :
    (s.serve (.markOnline deviceId' x)).2.presence deviceId = if deviceId = deviceId' then
      (s.presence deviceId).map fun _ ↦ .online x.currentSessionId x.lastSeenAt
      else s.presence deviceId :=
  s.presence_updateDevice deviceId x.apply (fun _ ↦ .online x.currentSessionId x.lastSeenAt)
    (fun _ ↦ rfl) (fun _ ↦ rfl) deviceId'

theorem presence_noteOffline (deviceId' : String) (t : Int) :
    (s.serve (.noteOffline deviceId' t)).2.presence deviceId = if deviceId = deviceId' then
      (s.presence deviceId).map Presence.offline else s.presence deviceId :=
  s.presence_updateDevice deviceId ({ · with status := .offline, lastSeenAt := some t })
    Presence.offline (fun _ ↦ rfl) (fun _ ↦ rfl) deviceId'

theorem presence_markOffline (deviceId' : String) :
    (s.serve (.markOffline deviceId')).2.presence deviceId = if deviceId = deviceId' then
      (s.presence deviceId).map Presence.offline else s.presence deviceId := by
  rw [Fleet.serve, Fleet.markOffline_eq]
  exact s.presence_updateDevice deviceId ({ · with status := .offline }) Presence.offline
    (fun _ ↦ rfl) (fun _ ↦ rfl) deviceId'

theorem isSome_presence_markOffline (deviceId' : String) :
    ((s.serve (.markOffline deviceId')).2.presence deviceId).isSome =
      (s.presence deviceId).isSome := by
  rw [presence_markOffline]
  split
  · exact Option.isSome_map
  · rfl

variable {s} {deviceId} in
/-- A device that is there can be marked offline. -/
theorem markOffline_answered (h : (s.presence deviceId).isSome) :
    (s.serve (.markOffline deviceId)).1 = .ok () := by
  rw [Fleet.presence, Option.isSome_map] at h
  rw [Fleet.serve, Fleet.markOffline, if_neg, Fleet.commit_ok]
  rw [Option.isNone_iff_eq_none, ← ne_eq, Option.ne_none_iff_isSome]
  exact h

variable {deviceId} in
theorem presence_serve {β : Type} {op : CommandOp β} (h : Spares deviceId β op) :
    (s.serve op).2.presence deviceId = s.presence deviceId := by
  have hframe := s.frame_serve op
  cases op with
  | markOffline deviceId' => rw [presence_markOffline, if_neg fun heq ↦ h heq.symm]
  | markOnline deviceId' x => rw [presence_markOnline, if_neg fun heq ↦ h heq.symm]
  | noteOffline deviceId' t => rw [presence_noteOffline, if_neg fun heq ↦ h heq.symm]
  | _ => rw [Fleet.presence, hframe.devices fun h ↦ h, Fleet.presence]

variable {deviceId} in
theorem presence_after {β : Type} {op : CommandOp β} (h : Spares deviceId β op) (f : Fate Err) :
    (commandServer.after f op s).presence deviceId = s.presence deviceId :=
  Server.after_of (fun t : Fleet ↦ t.presence deviceId = s.presence deviceId) rfl
    (presence_serve s h) f

end Requests

/-! ## Calls that do not concern a device -/

section Spared

variable {deviceId : String}

theorem afterOnline_spares (pushId deviceId' : String) (payload : StatusPayload)
    (device : KnownDevice) :
    Only (Spares deviceId) (afterOnline pushId deviceId' payload device) :=
  afterOnline_only trivial (fun _ _ ↦ trivial) (fun _ _ ↦ trivial) (fun _ ↦ trivial) ..

theorem reapOverdue_spares : Only (Spares deviceId) reapOverdue :=
  reapOverdue_requests trivial (fun _ ↦ trivial) (fun _ _ _ ↦ trivial) fun _ _ ↦ trivial

theorem markStale_spares {stale : List String} (h : deviceId ∉ stale) :
    Only (Spares deviceId) (stale.forM markStale) := by
  refine Only.forM stale fun deviceId' hmem ↦ ?_
  refine Only.await (fun heq ↦ h (heq ▸ hmem)) fun _ ↦ ?_
  exact (only_perform _).mpr trivial

/-- A message that is not about the status of the device. -/
theorem onMessage_spares (pushId : String) {message : WorkerMessage}
    (h : ∀ level payload, message = .status level (some payload) →
      deviceIdFromTopic level ≠ some deviceId) :
    Only (Spares deviceId) (onMessage pushId message) := by
  refine Only.tryCatch ?_ fun _ ↦ trivial
  cases message with
  | uptime seconds =>
      cases seconds with
      | none => trivial
      | some seconds =>
          dsimp only [noteUptime]
          split
          · exact Only.await trivial fun _ ↦ (only_perform _).mpr trivial
          · trivial
  | status level payload =>
      cases payload with
      | none =>
          dsimp only [handleDevice]
          split <;> trivial
      | some payload =>
          have hother := h level payload rfl
          dsimp only [handleDevice]
          split
          · trivial
          · rename_i deviceId' hlevel
            have hne : deviceId' ≠ deviceId := fun heq ↦ hother (heq ▸ hlevel)
            exact handleStatus_requests trivial trivial (fun _ ↦ hne) (fun _ ↦ hne)
              (fun _ _ ↦ trivial) (fun _ _ ↦ trivial) (fun _ ↦ trivial) ..
  | result level payload =>
      dsimp only [handleDevice]
      split
      · trivial
      · refine (handleResult_only _ payload).mono fun β op h ↦ ?_
        cases op <;> first | exact h.elim | trivial

end Spared

/-! ## The devices a pass gives up -/

/-- The online devices that have not been heard of since. -/
def Fleet.stale (s : Fleet) (before : Int) : List String :=
  (s.devices.findMany fun _ d ↦ d.status = .online ∧ (d.lastSeenAt.all fun t ↦ t < before)).map
    (·.2.deviceId)

section Stale

variable {s : Fleet} {deviceId : String} {before : Int}

theorem Device.stale_presence (d : Device) : d.presence.Stale before ↔
    d.status = .online ∧ d.lastSeenAt.all fun t ↦ t < before := by
  unfold Presence.Stale Device.presence
  refine and_congr_right fun honline ↦ ?_
  rw [if_pos honline]

theorem Fleet.mem_stale (hunique : s.devices.UniqueOn (·.deviceId)) :
    deviceId ∈ s.stale before ↔ ∃ p, s.presence deviceId = some p ∧ p.Stale before := by
  rw [stale, List.mem_map]
  constructor
  · rintro ⟨⟨id, d⟩, he, rfl⟩
    obtain ⟨hd, hstale⟩ := Table.mem_findMany.mp he
    refine ⟨d.presence, ?_, d.stale_presence.mpr (of_decide_eq_true hstale)⟩
    cases hfind : s.devices.findFirst fun _ d' ↦ decide (d'.deviceId = d.deviceId) with
    | none => exact absurd rfl (of_decide_eq_false (Table.findFirst_eq_none hfind hd))
    | some e =>
        obtain ⟨hd', hid⟩ := Table.findFirst_eq_some hfind
        have hrow := hunique hd' hd (of_decide_eq_true hid)
        rw [hrow, hd] at hd'
        rw [Fleet.presence, hfind, Option.map_some, ← Option.some.inj hd']
  · rintro ⟨p, hp, hstale⟩
    rw [Fleet.presence, Option.map_eq_some_iff] at hp
    obtain ⟨⟨id, d⟩, hfind, rfl⟩ := hp
    obtain ⟨hd, hid⟩ := Table.findFirst_eq_some hfind
    refine ⟨(id, d), Table.mem_findMany.mpr ⟨hd, ?_⟩, of_decide_eq_true hid⟩
    exact decide_eq_true (d.stale_presence.mp hstale)

theorem Fleet.nodup_stale (hunique : s.devices.UniqueOn (·.deviceId)) :
    (s.stale before).Nodup := hunique.nodup_findMany _

/-- What becomes of the device in a pass. -/
theorem Fleet.map_expire (hunique : s.devices.UniqueOn (·.deviceId)) :
    (s.presence deviceId).map (Presence.expire before) =
      if deviceId ∈ s.stale before then (s.presence deviceId).map Presence.offline
      else s.presence deviceId := by
  have hmem := @Fleet.mem_stale s deviceId before hunique
  cases hp : s.presence deviceId with
  | none => split <;> rfl
  | some p =>
      rw [hp] at hmem
      rw [Option.map_some, Presence.expire]
      split
      · rename_i hstale
        rw [if_pos (hmem.mpr ⟨p, rfl, hstale⟩), Option.map_some]
      · rename_i hfresh
        rw [if_neg]
        rintro hin
        obtain ⟨p', hp', hstale⟩ := hmem.mp hin
        cases hp'
        exact hfresh hstale

end Stale

/-! ## A call on its own -/

section Alone

variable {s : Fleet} {deviceId : String} {v : Option Presence} {adm : Admits CommandOp Err Fleet}

/-- A call that does not concern the device leaves it alone. -/
theorem wp_spares {p : CommandM Unit} (hp : Only (Spares deviceId) p)
    (hv : s.presence deviceId = v) :
    wp commandServer adm (fun _ _ _ ↦ True) (fun _ t ↦ t.presence deviceId = v) p s := by
  refine wp_of_only (K := Spares deviceId) ?_ (fun _ _ _ _ _ ↦ trivial) hp hv
  intro β op t f hop ht _
  rw [presence_after t hop, ht]

/-- The last request that concerns the device. -/
theorem wp_await_last {β : Type} {op : CommandOp β} {k : β → CommandM Unit}
    (hv : (s.serve op).2.presence deviceId = v) (hk : ∀ b, Only (Spares deviceId) (k b)) :
    wp commandServer noFailure (fun _ _ _ ↦ True) (fun _ t ↦ t.presence deviceId = v)
      (.perform op >>= k) s := by
  refine wp_await trivial (fun _ ↦ ?_) (fun e he ↦ nomatch he) fun e he ↦ nomatch he
  exact wp_spares (Only.bind ((only_ofExcept _).mpr trivial) hk) hv

theorem wp_handleStatus (pushId : String) (payload : StatusPayload) :
    wp commandServer noFailure (fun _ _ _ ↦ True)
      (fun _ t ↦ t.presence deviceId = (s.presence deviceId).map (payload.move s.clock))
      (handleStatus pushId deviceId (some payload)) s := by
  refine wp_await_served trivial rfl ?_
  cases hfind : s.devices.findFirst fun _ d ↦ decide (d.deviceId = deviceId) with
  | none =>
      have hnone : s.presence deviceId = none := by rw [Fleet.presence, hfind, Option.map_none]
      exact hnone.trans (by rw [hnone, Option.map_none])
  | some e =>
      have hsome : s.presence deviceId = some e.2.presence := by
        rw [Fleet.presence, hfind, Option.map_some]
      rw [Option.map_some, handleKnown]
      cases hstate : payload.state with
      | online =>
          refine wp_await_served trivial rfl ?_
          refine wp_await_last ?_ fun _ ↦ afterOnline_spares ..
          rw [presence_markOnline, if_pos rfl]
          refine congrArg (Option.map · _) (funext fun p ↦ ?_)
          rw [StatusPayload.move, hstate]
          rfl
      | offline =>
          have hmove : payload.move s.clock = Presence.leave payload.sessionId := by
            funext p
            rw [StatusPayload.move, hstate]
          rw [hmove, hsome, Option.map_some]
          dsimp only [handleOffline]
          by_cases hfenced : superseded payload.sessionId e.2.currentSessionId = true
          · rw [if_pos hfenced, Presence.leave_of_superseded hfenced]
            exact hsome
          · rw [if_neg hfenced, Presence.leave_of_current hfenced]
            refine wp_await_served trivial rfl ?_
            refine wp_await_last ?_ fun _ ↦ (only_perform _).mpr trivial
            rw [presence_noteOffline, if_pos rfl, hsome]
            rfl

theorem wp_reapStale_presence (hunique : s.devices.UniqueOn (·.deviceId)) :
    wp commandServer noFailure (fun _ _ _ ↦ True)
      (fun _ t ↦ t.presence deviceId =
        (s.presence deviceId).map (Presence.expire (s.clock - STALE_AFTER_MS))) reapStale s := by
  refine wp_await_served trivial rfl ?_
  refine wp_await_served (b := s.stale (s.clock - STALE_AFTER_MS)) trivial rfl ?_
  rw [Fleet.map_expire hunique]
  by_cases hmem : deviceId ∈ s.stale (s.clock - STALE_AFTER_MS)
  · rw [if_pos hmem]
    refine wp_forM (I := fun rest t ↦ rest.Nodup ∧ (∀ d ∈ rest, (t.presence d).isSome) ∧
      t.presence deviceId = if deviceId ∈ rest then s.presence deviceId
        else (s.presence deviceId).map Presence.offline) _ ?_ ?_ ?_
    · rintro deviceId' rest t ⟨hnodup, hexist, hpresence⟩
      obtain ⟨hhead, hnodup⟩ := List.nodup_cons.mp hnodup
      have hanswer := markOffline_answered (hexist deviceId' List.mem_cons_self)
      refine wp_await_served trivial (Prod.ext hanswer rfl) ⟨trivial, ?_⟩
      rintro f rfl
      refine ⟨hnodup, fun d hd ↦ ?_, ?_⟩
      · change ((t.serve (.markOffline deviceId')).2.presence d).isSome
        rw [isSome_presence_markOffline]
        exact hexist d (List.mem_cons_of_mem _ hd)
      · change (t.serve (.markOffline deviceId')).2.presence deviceId = _
        rw [presence_markOffline, hpresence]
        by_cases heq : deviceId = deviceId'
        · subst heq
          rw [if_pos rfl, if_pos List.mem_cons_self, if_neg hhead]
        · simp only [List.mem_cons, heq, false_or, if_false]
    · rintro t ⟨-, -, hpresence⟩
      rwa [if_neg List.not_mem_nil] at hpresence
    · refine ⟨Fleet.nodup_stale hunique, fun d hd ↦ ?_, (if_pos hmem).symm⟩
      obtain ⟨p, hp, -⟩ := (Fleet.mem_stale hunique).mp hd
      rw [hp]
      rfl
  · rw [if_neg hmem]
    exact wp_spares (markStale_spares hmem) rfl

/-- A message on its own does to the row what it does to the presence. -/
theorem wp_onMessage (pushId : String) (message : WorkerMessage) :
    wp commandServer noFailure (fun _ _ _ ↦ True)
      (fun _ t ↦ t.presence deviceId = (s.presence deviceId).map
        (WorkerCall.move deviceId s.setting (.message pushId message)))
      (onMessage pushId message) s := by
  by_cases hconcerns : ∃ level payload, message = .status level (some payload) ∧
      deviceIdFromTopic level = some deviceId
  · obtain ⟨level, payload, rfl, hlevel⟩ := hconcerns
    rw [WorkerCall.move_status hlevel]
    dsimp only [onMessage, handleDevice]
    rw [hlevel, tryCatch_def, wp_tryCatch]
    refine wp_mono (wp_handleStatus pushId payload) ?_
    rintro (e | u) t ht
    · exact ht
    · exact ht
  · have hspares : ∀ level payload, message = .status level (some payload) →
        deviceIdFromTopic level ≠ some deviceId := fun level payload hmessage hlevel ↦
      hconcerns ⟨level, payload, hmessage, hlevel⟩
    rw [WorkerCall.move_message hspares, Option.map_id]
    exact wp_spares (onMessage_spares pushId hspares) rfl

/-- So does a pass of the reaper. -/
theorem wp_reap_presence (hunique : s.devices.UniqueOn (·.deviceId)) :
    wp commandServer noFailure (fun _ _ _ ↦ True)
      (fun _ t ↦ t.presence deviceId =
        (s.presence deviceId).map (WorkerCall.move deviceId s.setting .reap)) reap s := by
  refine wp_await_served trivial rfl ?_
  refine wp_await_served trivial rfl ?_
  by_cases hgrace : s.clock < s.graceUntil
  · rw [if_pos hgrace, WorkerCall.move_reap_of_blind (.inl hgrace), Option.map_id]
    exact rfl
  rw [if_neg hgrace]
  refine wp_await_served trivial rfl ?_
  cases hconnected : s.connected with
  | false =>
      rw [if_pos rfl, WorkerCall.move_reap_of_blind (.inr hconnected), Option.map_id]
      exact rfl
  | true =>
      rw [if_neg (by decide), WorkerCall.move_reap (Int.not_lt.mp hgrace) hconnected]
      have hstale := @wp_reapStale_presence s deviceId hunique
      refine (wp_bind _ _ _).mpr (wp_mono hstale ?_)
      rintro (e | u) t ht
      · exact ht
      · exact wp_spares reapOverdue_spares ht

/-- What a message on its own makes of the presence of a device. -/
theorem presence_onMessage (pushId : String) (message : WorkerMessage) :
    (run commandServer [] (onMessage pushId message) s).2.presence deviceId =
      (s.presence deviceId).map
        (WorkerCall.move deviceId s.setting (.message pushId message)) :=
  (Eval.of_run_served _ s).of_wp (wp_onMessage pushId message)

/-- What a call on its own makes of the presence of a device. -/
theorem presence_prog (hunique : s.devices.UniqueOn (·.deviceId)) (call : WorkerCall) :
    (run commandServer [] call.prog s).2.presence deviceId =
      (s.presence deviceId).map (call.move deviceId s.setting) := by
  cases call with
  | message pushId message => exact presence_onMessage pushId message
  | reap => exact (Eval.of_run_served reap s).of_wp (wp_reap_presence hunique)

end Alone

end Zenstier
