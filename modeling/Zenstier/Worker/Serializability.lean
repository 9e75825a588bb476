import Zenstier.Concurrent.Linearization
import Zenstier.Worker.Presence

/-!
# Whether presence is serializable

The worker does not await a handler before it starts the next, and both `handleStatus` and
`reap` read the row of a device first and update it later, whatever has become of it.  If the
row still is what the update was decided on, every call takes effect at its update, and the
presence of a device is what the calls make of it one after the other.
-/

namespace Zenstier

open Store Concurrent Prog

/-! ## What a call has been told -/

/-- What is noted of the requests of a call. -/
inductive Note
  | clock (t : Int)
  | graceUntil (t : Int)
  | connected (connected : Bool)
  /-- It looks for devices that have not been heard of since. -/
  | sought (before : Int)
  | failed
deriving DecidableEq

/-- What the answer to a request says. -/
def noteAnswer : ∀ β : Type, CommandOp β → Fleet → List Note
  | _, .now, s => [.clock s.clock]
  | _, .graceUntil, s => [.graceUntil s.graceUntil]
  | _, .connected, s => [.connected s.connected]
  | _, .findStale before, _ => [.sought before]
  | _, _, _ => []

def noteRequest : Fate Err → ∀ β : Type, CommandOp β → Fleet → List Note
  | .served, β, op, s => noteAnswer β op s
  | .refused _, _, _, _ | .unanswered _, _, _, _ => [.failed]

/-- One of the values that a call has read, or any value if it has read none. -/
def Told {γ : Type} (note : γ → Note) (n : List Note) (a : γ) : Prop :=
  note a ∈ n ∨ ∀ b, note b ∉ n

theorem exists_told {γ : Type} [Inhabited γ] (note : γ → Note) (n : List Note) :
    ∃ a, Told note n a := by
  by_cases h : ∃ a, note a ∈ n
  · obtain ⟨a, ha⟩ := h
    exact ⟨a, .inl ha⟩
  · exact ⟨default, .inr fun b hb ↦ h ⟨b, hb⟩⟩

/-- The setting in which a call finds itself, as far as it has looked. -/
structure Setting.Found (x : Setting) (n : List Note) : Prop where
  clock : Told Note.clock n x.clock
  graceUntil : Told Note.graceUntil n x.graceUntil
  connected : Told Note.connected n x.connected

/-- The setting of a call that has looked at the clock. -/
theorem exists_found {n : List Note} {t : Int} (h : .clock t ∈ n) :
    ∃ x : Setting, x.Found n ∧ x.clock = t := by
  obtain ⟨graceUntil, hgrace⟩ := exists_told Note.graceUntil n
  obtain ⟨connected, hconnected⟩ := exists_told Note.connected n
  exact ⟨⟨t, graceUntil, connected⟩, ⟨.inl h, hgrace, hconnected⟩, rfl⟩

/-! ## Calls one after the other -/

/-- A call in a sequence of calls: in which setting, and with which failures. -/
structure Turn (ι : Type) where
  call : ι
  setting : Setting
  fates : List (Fate Err)

section Sequences

variable {ι : Type}

/-- The calls one after the other, each to its end before the next. -/
def serially (call : ι → WorkerCall) (turns : List (Turn ι)) (s : Fleet) : Fleet :=
  turns.foldl
    (fun s turn ↦ (run commandServer turn.fates (call turn.call).prog (s.within turn.setting)).2) s

/-- Every call has one turn, in a setting that it has found in the run.  It meets failures only
if it has met failures in the run. -/
structure Replays [DecidableEq ι] (log : List (ι × Note)) (turns : List (Turn ι)) : Prop where
  once : (turns.map (·.call)).Nodup
  all : ∀ i, i ∈ turns.map (·.call)
  found : ∀ turn ∈ turns, turn.setting.Found (notesOf turn.call log)
  failures : ∀ turn ∈ turns, .failed ∉ notesOf turn.call log → turn.fates = []

/-- What is shown of a device: its status and current session. -/
def Fleet.shown (s : Fleet) (deviceId : String) : Option (DeviceStatus × Option String) :=
  (s.presence deviceId).map fun p ↦ (p.status, p.session)

end Sequences

/-! ## Updates that are still due -/

/-- The session an offline message is about. -/
def WorkerCall.session : WorkerCall → Option String
  | .message _ (.status _ (some payload)) => payload.sessionId
  | _ => none

/-- The reaper would still find the device. -/
def Note.Confirms (p : Presence) : Note → Prop
  | .sought before => p.Stale before
  | _ => True

/-- The device is offline already, or the update is one that the call would decide on now. -/
def WorkerCall.Due (call : WorkerCall) (n : List Note) : ∀ β : Type, CommandOp β → Fleet → Prop
  | _, .noteOffline deviceId _, s => ∀ p ∈ s.presence deviceId, p.status ≠ .offline →
      ¬ superseded call.session p.session = true
  | _, .markOffline deviceId, s => ∀ p ∈ s.presence deviceId, p.status ≠ .offline →
      ∀ note ∈ n, note.Confirms p
  | _, _, _ => True

instance (p : Presence) (note : Note) : Decidable (note.Confirms p) :=
  match note with
  | .sought before => inferInstanceAs (Decidable (p.Stale before))
  | .clock _ | .graceUntil _ | .connected _ | .failed => .isTrue trivial

instance (call : WorkerCall) (n : List Note) (β : Type) (op : CommandOp β) (s : Fleet) :
    Decidable (call.Due n β op s) := by
  apply CommandOp.casesOn (motive := fun β op ↦ Decidable (call.Due n β op s)) op <;> intros <;>
    first
    | exact .isTrue trivial
    | exact inferInstanceAs (Decidable (∀ p ∈ s.presence _, p.status ≠ .offline →
        ¬ superseded call.session p.session = true))
    | exact inferInstanceAs (Decidable (∀ p ∈ s.presence _, p.status ≠ .offline →
        ∀ note ∈ n, note.Confirms p))

/-! ## What can be relied on -/

/-- Time passes, and devices stay. -/
structure Grants (s t : Fleet) : Prop where
  clock : s.clock ≤ t.clock
  unique : s.devices.UniqueOn (·.deviceId) → t.devices.UniqueOn (·.deviceId)
  exist : ∀ deviceId, (s.presence deviceId).isSome → (t.presence deviceId).isSome

namespace Grants

theorem refl (s : Fleet) : Grants s s := ⟨Int.le_refl _, id, fun _ ↦ id⟩

theorem trans (s t u : Fleet) (h : Grants s t) (h' : Grants t u) : Grants s u :=
  ⟨h.clock.trans h'.clock, h'.unique ∘ h.unique, fun d ↦ h'.exist d ∘ h.exist d⟩

theorem of_devices {s t : Fleet} (hclock : s.clock ≤ t.clock) (h : t.devices = s.devices) :
    Grants s t := by
  refine ⟨hclock, fun hunique ↦ ?_, fun deviceId hd ↦ ?_⟩
  · rw [h]
    exact hunique
  · rw [Fleet.presence, h]
    exact hd

theorem serve {β : Type} (op : CommandOp β) (s : Fleet) : Grants s (s.serve op).2 := by
  have hframe := s.frame_serve op
  have hupdate : ∀ deviceId (f : Device → Device), (∀ d, (f d).deviceId = d.deviceId) →
      s.devices.UniqueOn (·.deviceId) →
      (s.commit (s.updateDevice deviceId f)).2.devices.UniqueOn (·.deviceId) := by
    intro deviceId f hf hunique
    unfold Fleet.updateDevice
    split
    · exact hunique
    · exact hunique.updateMany _ hf
  cases op with
  | markOffline deviceId =>
      refine ⟨hframe.clock.ge, hupdate deviceId _ fun _ ↦ rfl, fun d hd ↦ ?_⟩
      rw [isSome_presence_markOffline]
      exact hd
  | markOnline deviceId x =>
      refine ⟨hframe.clock.ge, hupdate deviceId _ fun _ ↦ rfl, fun d hd ↦ ?_⟩
      rw [presence_markOnline]
      split <;> simpa using hd
  | noteOffline deviceId t =>
      refine ⟨hframe.clock.ge, hupdate deviceId _ fun _ ↦ rfl, fun d hd ↦ ?_⟩
      rw [presence_noteOffline]
      split <;> simpa using hd
  | _ => exact of_devices hframe.clock.ge (hframe.devices fun h ↦ h)

theorem after {β : Type} (op : CommandOp β) (f : Fate Err) (s : Fleet) :
    Grants s (commandServer.after f op s) :=
  Server.after_of (Grants s) (refl s) (serve op s) f

theorem event (x : WorkerEvent) (s : Fleet) : Grants s (x.apply s) := by
  cases x with
  | tick ms => exact of_devices (Int.le_add_of_nonneg_right (Int.natCast_nonneg ms)) rfl
  | connection connected => exact of_devices (Int.le_refl _) rfl

end Grants

/-! ## The effect of a call -/

/-- What the call makes of the presence of a device, or nothing if it has failed. -/
def WorkerCall.Effect (deviceId : String) (call : WorkerCall) (n : List Note)
    (v w : Option Presence) : Prop :=
  ∃ x : Setting, x.Found n ∧ (v.map (call.move deviceId x) = w ∨ .failed ∈ n ∧ w = v)

/-- The call of which `n` has been noted has its effect on the device still to come. -/
abbrev Unsettled (deviceId : String) (call : WorkerCall) :
    CommandM Unit → List Note → Fleet → Prop :=
  Pending commandServer Grants (·.presence deviceId) noteRequest call.Due (call.Effect deviceId)

section Effect

variable {deviceId : String} {call : WorkerCall} {n : List Note} {v w : Option Presence}

theorem effect_of_failed (h : .failed ∈ n) (v : Option Presence) : call.Effect deviceId n v v := by
  obtain ⟨clock, hclock⟩ := exists_told Note.clock n
  obtain ⟨graceUntil, hgrace⟩ := exists_told Note.graceUntil n
  obtain ⟨connected, hconnected⟩ := exists_told Note.connected n
  exact ⟨⟨clock, graceUntil, connected⟩, ⟨hclock, hgrace, hconnected⟩, .inr ⟨h, rfl⟩⟩

theorem effect_of_move (h : ∀ x : Setting, v.map (call.move deviceId x) = w) :
    call.Effect deviceId n v w := by
  obtain ⟨clock, hclock⟩ := exists_told Note.clock n
  obtain ⟨graceUntil, hgrace⟩ := exists_told Note.graceUntil n
  obtain ⟨connected, hconnected⟩ := exists_told Note.connected n
  exact ⟨⟨clock, graceUntil, connected⟩, ⟨hclock, hgrace, hconnected⟩, .inl (h _)⟩

theorem effect_of_clock {t : Int} (ht : .clock t ∈ n)
    (h : ∀ x : Setting, x.clock = t → v.map (call.move deviceId x) = w) :
    call.Effect deviceId n v w := by
  obtain ⟨x, hx, hclock⟩ := exists_found ht
  exact ⟨x, hx, .inl (h x hclock)⟩

/-- A request that fails has no effect, and nothing follows. -/
theorem effect_of_fails {β : Type} {op : CommandOp β} {s : Fleet} {f : Fate Err}
    (hf : f ≠ .served) (v : Option Presence) :
    call.Effect deviceId (n ++ noteRequest f β op s) v v := by
  refine effect_of_failed (List.mem_append_right _ ?_) v
  cases f with
  | served => exact absurd rfl hf
  | refused e => exact List.mem_singleton.mpr rfl
  | unanswered e => exact List.mem_singleton.mpr rfl

theorem keeps_of_spares {β : Type} {op : CommandOp β} (h : Spares deviceId β op) :
    Keeps commandServer (·.presence deviceId) β op := fun s f ↦ presence_after s h f

theorem Only.keeps {p : CommandM Unit} (h : Only (Spares deviceId) p) :
    Only (Keeps commandServer (·.presence deviceId)) p := h.mono fun _ _ ↦ keeps_of_spares

/-- A device that is offline has been given up already. -/
theorem Fleet.offline_of_offline {s : Fleet} {p : Presence} (h : s.presence deviceId = some p)
    (hoffline : p.status = .offline) : p.offline = p := by
  rw [Fleet.presence, Option.map_eq_some_iff] at h
  obtain ⟨e, -, rfl⟩ := h
  have honline : e.2.status ≠ .online := by
    intro honline
    rw [Device.presence, honline] at hoffline
    cases hoffline
  rw [Device.presence] at hoffline ⊢
  rw [Presence.offline, if_neg honline]
  exact congrArg (Presence.mk · _ _) hoffline.symm

end Effect

/-! ## Messages -/

section Message

variable {deviceId : String} {n : List Note} {s : Fleet}

/-- An online message takes effect when it is stored. -/
theorem unsettled_online {pushId level : String} {payload : StatusPayload}
    (hlevel : deviceIdFromTopic level = some deviceId) (hstate : payload.state = .online)
    (device : KnownDevice) :
    Unsettled deviceId (.message pushId (.status level (some payload)))
      (handleOnline pushId deviceId payload device) n s := by
  refine Pending.read (keeps_of_spares trivial) (fun t ht ↦ ⟨t.clock, rfl, .inl ?_⟩)
    fun t f hf ↦ effect_of_fails hf
  refine Pending.write ?_ (fun u e ↦ effect_of_fails fun h ↦ nomatch h) fun _ ↦
    Only.keeps (afterOnline_spares ..)
  intro u f hu _ m
  refine effect_of_clock (t := t.clock) ?_ fun x hx ↦ ?_
  · simp [noteRequest, noteAnswer]
  · show _ = (u.serve (.markOnline deviceId (sighting payload t.clock))).2.presence deviceId
    rw [presence_markOnline, if_pos rfl, WorkerCall.move_status hlevel, hx]
    refine congrArg (Option.map · _) (funext fun p ↦ ?_)
    rw [StatusPayload.move, hstate]
    rfl

/-- An offline message takes effect when it is stored, if it still is due. -/
theorem unsettled_offline {pushId level : String} {payload : StatusPayload}
    (hlevel : deviceIdFromTopic level = some deviceId) (hstate : payload.state = .offline) :
    Unsettled deviceId (.message pushId (.status level (some payload)))
      (storeOffline deviceId) n s := by
  refine Pending.read (keeps_of_spares trivial) (fun t ht ↦ ⟨t.clock, rfl, .inl ?_⟩)
    fun t f hf ↦ effect_of_fails hf
  refine Pending.write ?_ (fun u e ↦ effect_of_fails fun h ↦ nomatch h) fun _ ↦
    (only_perform _).mpr (keeps_of_spares trivial)
  intro u f hu hdue m
  refine effect_of_move fun x ↦ ?_
  show _ = (u.serve (.noteOffline deviceId t.clock)).2.presence deviceId
  rw [presence_noteOffline, if_pos rfl, WorkerCall.move_status hlevel]
  cases hp : u.presence deviceId with
  | none => rfl
  | some p =>
      rw [Option.map_some, Option.map_some, StatusPayload.move, hstate]
      by_cases hoffline : p.status = .offline
      · rw [Presence.leave, Fleet.offline_of_offline hp hoffline, ite_self]
      · exact congrArg _ (Presence.leave_of_current (hdue p hp hoffline))

theorem unsettled_handleStatus {pushId level : String} {payload : StatusPayload}
    (hlevel : deviceIdFromTopic level = some deviceId) :
    Unsettled deviceId (.message pushId (.status level (some payload)))
      (handleStatus pushId deviceId (some payload)) n s := by
  refine Pending.read (keeps_of_spares trivial) (fun t ht ↦ ⟨_, rfl, ?_⟩)
    fun t f hf ↦ effect_of_fails hf
  cases hfind : t.devices.findFirst fun _ d ↦ decide (d.deviceId = deviceId) with
  | none =>
      refine .inr ⟨fun m ↦ effect_of_move fun x ↦ ?_, trivial⟩
      rw [Fleet.presence, hfind]
      rfl
  | some e =>
      have hp : t.presence deviceId = some e.2.presence := by
        rw [Fleet.presence, hfind, Option.map_some]
      rw [Option.map_some, handleKnown]
      cases hstate : payload.state with
      | online => exact .inl (unsettled_online hlevel hstate _)
      | offline =>
          dsimp only [handleOffline]
          by_cases hfenced : superseded payload.sessionId e.2.currentSessionId = true
          · rw [if_pos hfenced]
            refine .inr ⟨fun m ↦ effect_of_move fun x ↦ ?_, trivial⟩
            rw [hp, Option.map_some, WorkerCall.move_status hlevel, StatusPayload.move, hstate]
            exact congrArg _ (Presence.leave_of_superseded hfenced)
          · rw [if_neg hfenced]
            exact .inl (unsettled_offline hlevel hstate)

theorem unsettled_message (pushId : String) (message : WorkerMessage) :
    Unsettled deviceId (.message pushId message) (onMessage pushId message) n s := by
  by_cases hconcerns : ∃ level payload, message = .status level (some payload) ∧
      deviceIdFromTopic level = some deviceId
  · obtain ⟨level, payload, rfl, hlevel⟩ := hconcerns
    dsimp only [onMessage, handleDevice]
    rw [hlevel, tryCatch_def]
    exact (unsettled_handleStatus hlevel).tryCatch fun e ↦ ⟨(), rfl⟩
  · have hspares : ∀ level payload, message = .status level (some payload) →
        deviceIdFromTopic level ≠ some deviceId := fun level payload hmessage hlevel ↦
      hconcerns ⟨level, payload, hmessage, hlevel⟩
    refine Pending.of_only (Only.keeps (onMessage_spares pushId hspares)) (fun n v ↦ ?_) n s
    refine effect_of_move fun x ↦ ?_
    rw [WorkerCall.move_message hspares, Option.map_id]
    rfl

end Message

/-! ## Passes of the reaper -/

/-- The pass has not been held back, and looks for devices as of `t`. -/
structure Passing (t : Int) (n : List Note) : Prop where
  clock : .clock t ∈ n
  grace : ∃ graceUntil, .graceUntil graceUntil ∈ n ∧ graceUntil ≤ t
  connected : .connected true ∈ n

theorem Passing.append {t : Int} {n : List Note} (h : Passing t n) (m : List Note) :
    Passing t (n ++ m) := by
  obtain ⟨graceUntil, hgrace, hle⟩ := h.grace
  exact ⟨List.mem_append_left m h.clock, ⟨graceUntil, List.mem_append_left m hgrace, hle⟩,
    List.mem_append_left m h.connected⟩

section Reap

variable {deviceId : String} {n : List Note} {s : Fleet}

theorem effect_of_pass {t : Int} {v w : Option Presence} (h : Passing t n)
    (hw : v.map (Presence.expire (t - STALE_AFTER_MS)) = w) :
    WorkerCall.reap.Effect deviceId n v w := by
  obtain ⟨graceUntil, hgrace, hle⟩ := h.grace
  refine ⟨⟨t, graceUntil, true⟩, ⟨.inl h.clock, .inl hgrace, .inl h.connected⟩, .inl ?_⟩
  rw [WorkerCall.move_reap hle rfl]
  exact hw

/-- The loop over the devices that are given up, as long as the device is one of them. -/
theorem unsettled_markStale {t : Int} {stale : List String} (hpass : Passing t n)
    (hsought : .sought (t - STALE_AFTER_MS) ∈ n) (hmem : deviceId ∈ stale)
    (hnodup : stale.Nodup) (hexist : ∀ d ∈ stale, (s.presence d).isSome) :
    Unsettled deviceId .reap (stale.forM markStale >>= fun _ ↦ reapOverdue) n s := by
  induction stale generalizing n s with
  | nil => exact absurd hmem List.not_mem_nil
  | cons d rest ih =>
      obtain ⟨hhead, hnodup⟩ := List.nodup_cons.mp hnodup
      have hloop : ((d :: rest).forM markStale >>= fun _ ↦ reapOverdue) =
          (.perform (.markOffline d) >>= fun _ ↦
            .perform (.emit (deviceChannel d) (.deviceStatus d .offline)) >>= fun _ ↦
              rest.forM markStale >>= fun _ ↦ reapOverdue) := by
        show ((markStale d >>= fun _ ↦ rest.forM markStale) >>= fun _ ↦ reapOverdue) = _
        rw [Prog.bind_assoc, markStale, Prog.bind_assoc]
      rw [hloop]
      by_cases hd : d = deviceId
      · -- here the pass takes effect
        subst hd
        refine Pending.write ?_ (fun u e ↦ effect_of_fails fun h ↦ nomatch h) fun _ ↦ ?_
        · intro u f hu hdue m
          refine effect_of_pass ((hpass.append _).append _) ?_
          show _ = (u.serve (.markOffline d)).2.presence d
          rw [presence_markOffline, if_pos rfl]
          cases hp : u.presence d with
          | none => rfl
          | some p =>
              rw [Option.map_some, Option.map_some, Presence.expire]
              by_cases hoffline : p.status = .offline
              · rw [Fleet.offline_of_offline hp hoffline, ite_self]
              · have hstale : p.Stale (t - STALE_AFTER_MS) := hdue p hp hoffline _ hsought
                rw [if_pos hstale]
        · refine Only.await (keeps_of_spares trivial) fun _ ↦ Only.bind ?_ fun _ ↦ ?_
          · exact Only.keeps (markStale_spares hhead)
          · exact Only.keeps reapOverdue_spares
      · have hrest : deviceId ∈ rest := (List.mem_cons.mp hmem).resolve_left (Ne.symm hd)
        refine Pending.read (keeps_of_spares hd) (fun u hu ↦ ⟨(), ?_, .inl ?_⟩)
          fun u f hf ↦ effect_of_fails hf
        · exact markOffline_answered (hu.exist d (hexist d List.mem_cons_self))
        refine Pending.read (keeps_of_spares trivial) (fun w hw ↦ ⟨(), rfl, .inl ?_⟩)
          fun w f hf ↦ effect_of_fails hf
        refine ih ((hpass.append _).append _) ?_ hrest hnodup fun d' hd' ↦ ?_
        · exact List.mem_append_left _ (List.mem_append_left _ hsought)
        · refine hw.exist d' ((Grants.serve _ u).exist d' (hu.exist d' ?_))
          exact hexist d' (List.mem_cons_of_mem d hd')

theorem unsettled_reap (hunique : s.devices.UniqueOn (·.deviceId)) :
    Unsettled deviceId .reap reap n s := by
  refine Pending.read (keeps_of_spares trivial) (fun t ht ↦ ⟨t.clock, rfl, .inl ?_⟩)
    fun t f hf ↦ effect_of_fails hf
  refine Pending.read (keeps_of_spares trivial) (fun u hu ↦ ⟨u.graceUntil, rfl, .inl ?_⟩)
    fun u f hf ↦ effect_of_fails hf
  by_cases hgrace : t.clock < u.graceUntil
  · rw [if_pos hgrace]
    intro v
    obtain ⟨connected, hconnected⟩ := exists_told Note.connected
      (n ++ noteRequest .served Int .now t ++ noteRequest .served Int .graceUntil u)
    refine ⟨⟨t.clock, u.graceUntil, connected⟩, ⟨.inl ?_, .inl ?_, hconnected⟩, .inl ?_⟩
    · simp [noteRequest, noteAnswer]
    · simp [noteRequest, noteAnswer]
    · rw [WorkerCall.move_reap_of_blind (.inl hgrace), Option.map_id]
      rfl
  rw [if_neg hgrace]
  refine Pending.read (keeps_of_spares trivial) (fun w hw ↦ ⟨w.connected, rfl, .inl ?_⟩)
    fun w f hf ↦ effect_of_fails hf
  cases hconnected : w.connected with
  | false =>
      rw [if_pos rfl]
      intro v
      refine ⟨⟨t.clock, u.graceUntil, false⟩, ⟨.inl ?_, .inl ?_, .inl ?_⟩, .inl ?_⟩
      · simp [noteRequest, noteAnswer]
      · simp [noteRequest, noteAnswer]
      · simp [noteRequest, noteAnswer, hconnected]
      · rw [WorkerCall.move_reap_of_blind (.inr rfl), Option.map_id]
        rfl
  | true =>
      rw [if_neg (by decide), reapStale, Prog.bind_assoc]
      refine Pending.read (keeps_of_spares trivial) (fun x hx ↦ ⟨x.clock, rfl, .inl ?_⟩)
        fun x f hf ↦ effect_of_fails hf
      rw [Prog.bind_assoc]
      refine Pending.read (keeps_of_spares trivial) (fun y hy ↦ ⟨y.stale _, rfl, ?_⟩)
        fun y f hf ↦ effect_of_fails hf
      have hlate : u.graceUntil ≤ x.clock := by
        have htu : t.clock ≤ u.clock := hu.clock
        have huw : u.clock ≤ w.clock := hw.clock
        have hwx : w.clock ≤ x.clock := hx.clock
        omega
      have hyunique : y.devices.UniqueOn (·.deviceId) :=
        hy.unique (hx.unique (hw.unique (hu.unique (ht.unique hunique))))
      have hpass : ∀ m, Passing x.clock (n ++ noteRequest .served Int .now t ++
          noteRequest .served Int .graceUntil u ++ noteRequest .served Bool .connected w ++
          noteRequest .served Int .now x ++ m) := by
        intro m
        refine Passing.append ⟨?_, ⟨u.graceUntil, ?_, hlate⟩, ?_⟩ m
        · simp [noteRequest, noteAnswer]
        · simp [noteRequest, noteAnswer]
        · simp [noteRequest, noteAnswer, hconnected]
      by_cases hmem : deviceId ∈ y.stale (x.clock - STALE_AFTER_MS)
      · refine .inl (unsettled_markStale (hpass _) ?_ hmem (Fleet.nodup_stale hyunique) ?_)
        · exact List.mem_append_right _ (List.mem_singleton.mpr rfl)
        · intro d hd
          obtain ⟨p, hp, -⟩ := (Fleet.mem_stale hyunique).mp hd
          exact Option.isSome_iff_exists.mpr ⟨p, hp⟩
      · refine .inr ⟨fun m ↦ ?_, Only.bind (Only.keeps (markStale_spares hmem)) fun _ ↦
          Only.keeps reapOverdue_spares⟩
        rw [List.append_assoc _ _ m]
        refine effect_of_pass (hpass _) ?_
        rw [Fleet.map_expire hyunique, if_neg hmem]

end Reap

/-! ## Replaying a run -/

theorem Grants.run (fates : List (Fate Err)) (p : CommandM Unit) (s : Fleet) :
    Grants s (Concurrent.run commandServer fates p s).2 := by
  induction p generalizing fates s with
  | pure u => cases fates <;> exact refl s
  | throw e => cases fates <;> exact refl s
  | call op k ih =>
      cases fates with
      | nil => exact (Grants.after op .served s).trans _ _ _ (ih _ _ _)
      | cons f fates => exact (Grants.after op f s).trans _ _ _ (ih _ _ _)

section Replay

variable {ι : Type} {deviceId : String} {s : Fleet}

/-- A call on its own, in a setting. -/
theorem presence_run (hunique : s.devices.UniqueOn (·.deviceId)) (call : WorkerCall)
    (x : Setting) : (run commandServer [] call.prog (s.within x)).2.presence deviceId =
      (s.presence deviceId).map (call.move deviceId x) :=
  presence_prog (s := s.within x) hunique call

/-- A call whose first request fails does nothing. -/
theorem run_refused (call : WorkerCall) (e : Err) (s : Fleet) :
    (run commandServer [.refused e] call.prog s).2 = s := by
  cases call with
  | reap => rfl
  | message pushId message =>
      have hdevice : ∀ level (handle : String → CommandM Unit),
          (∀ deviceId, (run commandServer [.refused e]
            ((handle deviceId).tryCatch fun _ ↦ .pure ()) s).2 = s) →
          (run commandServer [.refused e]
            ((handleDevice level handle).tryCatch fun _ ↦ .pure ()) s).2 = s := by
        intro level handle h
        unfold handleDevice
        split
        · rfl
        · exact h _
      cases message with
      | uptime seconds =>
          cases seconds with
          | none => rfl
          | some seconds =>
              dsimp only [WorkerCall.prog, onMessage, noteUptime]
              split <;> rfl
      | status level payload =>
          refine hdevice level _ fun deviceId ↦ ?_
          cases payload <;> rfl
      | result level payload =>
          refine hdevice level _ fun deviceId ↦ ?_
          cases payload <;> rfl

/-- A sequence of effects is what the calls do one after the other. -/
theorem exists_turns [DecidableEq ι] {call : ι → WorkerCall} {log : List (ι × Note)}
    {order : List ι} {v : Option Presence} (hunique : s.devices.UniqueOn (·.deviceId))
    (h : Sequential (fun i ↦ (call i).Effect deviceId (notesOf i log)) (s.presence deviceId) order
      v) :
    ∃ turns : List (Turn ι), turns.map (·.call) = order ∧
      (∀ turn ∈ turns, turn.setting.Found (notesOf turn.call log) ∧
        (.failed ∉ notesOf turn.call log → turn.fates = [])) ∧
      (serially call turns s).presence deviceId = v ∧
      (serially call turns s).devices.UniqueOn (·.deviceId) := by
  induction h with
  | start =>
      refine ⟨[], rfl, ?_, rfl, hunique⟩
      intro turn hturn
      exact absurd hturn List.not_mem_nil
  | next i _ hi ih =>
      obtain ⟨turns, rfl, hturns, rfl, huniq⟩ := ih
      obtain ⟨x, hx, hmove⟩ := hi
      obtain ⟨fates, hfates, hrun⟩ : ∃ fates, (.failed ∉ notesOf i log → fates = []) ∧
          (run commandServer fates (call i).prog ((serially call turns s).within x)).2.presence
            deviceId = _ := by
        rcases hmove with hmove | ⟨hfailed, hsame⟩
        · exact ⟨[], fun _ ↦ rfl, (presence_run huniq (call i) x).trans hmove⟩
        · refine ⟨[.refused .recordNotFound], fun h ↦ absurd hfailed h, ?_⟩
          rw [run_refused, hsame, Fleet.presence_within]
      refine ⟨turns ++ [⟨i, x, fates⟩], List.map_append, ?_, ?_, ?_⟩
      · intro turn hturn
        rcases List.mem_append.mp hturn with hturn | hturn
        · exact hturns turn hturn
        · obtain rfl := List.mem_singleton.mp hturn
          exact ⟨hx, hfates⟩
      · rw [serially, List.foldl_append]
        exact hrun
      · rw [serially, List.foldl_append]
        exact (Grants.run fates (call i).prog _).unique huniq

end Replay

/-- Whatever handlers and passes overlap, the status and session of a device are in the end
those that the same calls leave one after the other in some order, as long as every update is
still due when it is made. -/
theorem presence_serializable {ι : Type} [Fintype ι] [DecidableEq ι] (call : ι → WorkerCall)
    (s : Fleet) (hunique : s.devices.UniqueOn (·.deviceId))
    {r : Recorded (WorkerPool ι) (ι × Note)}
    (hr : Reach (Recorded.step workerStep (Pool.attend noteRequest))
      (Guarded fun i ↦ (call i).Due) ⟨⟨s, fun i ↦ (call i).prog⟩, []⟩ r)
    (hended : ∀ i, Ended (r.state.thread i)) (deviceId : String) :
    ∃ turns, Replays r.log turns ∧
      (serially call turns s).shown deviceId = r.state.shared.shown deviceId := by
  have hstart : ∀ i, Unsettled deviceId (call i) (call i).prog [] s := by
    intro i
    cases call i with
    | message pushId message => exact unsettled_message pushId message
    | reap => exact unsettled_reap hunique
  obtain ⟨order, hnodup, hall, hsequential⟩ := linearizable Grants.refl Grants.trans
    (fun β op f s ↦ Grants.after op f s) (fun x s ↦ ⟨Grants.event x s, by cases x <;> rfl⟩)
    (c := ⟨s, fun i ↦ (call i).prog⟩) hstart hr hended
  obtain ⟨turns, rfl, hturns, hpresence, -⟩ := exists_turns hunique hsequential
  refine ⟨turns, ⟨hnodup, hall, fun turn h ↦ (hturns turn h).1, fun turn h ↦ (hturns turn h).2⟩, ?_⟩
  rw [Fleet.shown, hpresence, Fleet.shown]

/-! ## A late Last-Will -/

/-- The device of a session goes away, and comes back under the next. -/
def reconnecting : Fin 2 → WorkerCall
  | 0 => .message "push" (.status "dev" (some
      { state := .offline, deviceId := "dev", sessionId := some "session" }))
  | 1 => .message "push" (.status "dev" (some
      { state := .online, deviceId := "dev", sessionId := some "next" }))

/-- The handlers, one after the other. -/
theorem presence_serializable_apart : ∃ r : Recorded (WorkerPool (Fin 2)) (Fin 2 × Note),
    (∀ i, Ended (r.state.thread i)) ∧
    r.state.shared.shown "dev" = some (.online, some "next") ∧
    ∃ turns, Replays r.log turns ∧
      (serially reconnecting turns oneSession).shown "dev" = r.state.shared.shown "dev" := by
  obtain ⟨r, hr, hended, hshown⟩ : ∃ r : Recorded (WorkerPool (Fin 2)) (Fin 2 × Note),
      Reach (Recorded.step workerStep (Pool.attend noteRequest))
        (Guarded fun i ↦ (reconnecting i).Due)
        ⟨⟨oneSession, fun i ↦ (reconnecting i).prog⟩, []⟩ r ∧
      (∀ i, Ended (r.state.thread i)) ∧
      r.state.shared.shown "dev" = some (.online, some "next") :=
    Reach.exists_of_exec
      (List.replicate 4 (.run 0 .served) ++ List.replicate 7 (.run 1 .served)) (by decide)
  exact ⟨r, hended, hshown, presence_serializable reconnecting oneSession
    (Table.UniqueOn.of_nodup (List.nodup_singleton _)) hr hended "dev"⟩

/-- The offline message reads the row before the online message is stored, and is stored
afterwards: the device is offline in its new session, which no order of the two leaves. -/
theorem presence_not_serializable : ∃ r : Recorded (WorkerPool (Fin 2)) (Fin 2 × Note),
    Reach (Recorded.step workerStep (Pool.attend noteRequest)) (fun _ _ ↦ True)
      ⟨⟨oneSession, fun i ↦ (reconnecting i).prog⟩, []⟩ r ∧
    (∀ i, Ended (r.state.thread i)) ∧
    ¬ ∃ turns, Replays r.log turns ∧
      (serially reconnecting turns oneSession).shown "dev" = r.state.shared.shown "dev" := by
  obtain ⟨r, hr, hended, hfailed, hshown⟩ :
      ∃ r : Recorded (WorkerPool (Fin 2)) (Fin 2 × Note),
        Reach (Recorded.step workerStep (Pool.attend noteRequest)) (fun _ _ ↦ True)
          ⟨⟨oneSession, fun i ↦ (reconnecting i).prog⟩, []⟩ r ∧
        (∀ i, Ended (r.state.thread i)) ∧ (∀ i, .failed ∉ notesOf i r.log) ∧
        r.state.shared.shown "dev" = some (.offline, some "next") :=
    Reach.exists_of_exec (List.replicate 2 (.run 0 .served) ++
      List.replicate 7 (.run 1 .served) ++ List.replicate 2 (.run 0 .served)) (by decide)
  refine ⟨r, hr, hended, ?_⟩
  rintro ⟨turns, hturns, hserial⟩
  have hperm : (turns.map (·.call)).Perm [0, 1] := by
    refine (List.perm_ext_iff_of_nodup hturns.once (by decide)).mpr fun i ↦ ?_
    constructor
    · intro _
      exact match i with
        | 0 => List.mem_cons_self
        | 1 => List.mem_cons_of_mem _ List.mem_cons_self
    · intro _
      exact hturns.all i
  obtain ⟨⟨i, x, fates⟩, ⟨j, y, fates'⟩, rfl⟩ : ∃ a b, turns = [a, b] :=
    List.length_eq_two.mp (by simpa using hperm.length_eq)
  obtain rfl : fates = [] := hturns.failures _ List.mem_cons_self (hfailed i)
  obtain rfl : fates' = [] :=
    hturns.failures _ (List.mem_cons_of_mem _ List.mem_cons_self) (hfailed j)
  have hunique : oneSession.devices.UniqueOn (·.deviceId) :=
    Table.UniqueOn.of_nodup (List.nodup_singleton _)
  have hrun : (serially reconnecting [⟨i, x, []⟩, ⟨j, y, []⟩] oneSession).presence "dev" =
      ((oneSession.presence "dev").map ((reconnecting i).move "dev" x)).map
        ((reconnecting j).move "dev" y) := by
    have hnext := (Grants.run [] (reconnecting i).prog (oneSession.within x)).unique hunique
    exact (presence_run hnext (reconnecting j) y).trans
      (congrArg _ (presence_run hunique (reconnecting i) x))
  have hij : i ≠ j := by
    intro heq
    have := hturns.once
    simp [heq] at this
  have honline : (serially reconnecting [⟨i, x, []⟩, ⟨j, y, []⟩] oneSession).shown "dev" =
      some (.online, some "next") := by
    have hcalls : ∀ i j : Fin 2, i ≠ j → i = 0 ∧ j = 1 ∨ i = 1 ∧ j = 0 := by decide
    rw [Fleet.shown, hrun]
    rcases hcalls i j hij with ⟨rfl, rfl⟩ | ⟨rfl, rfl⟩
    · rfl
    · rfl
  rw [honline, hshown] at hserial
  exact absurd hserial (by decide)

end Zenstier
