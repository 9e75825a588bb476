import Zenstier.Concurrent.Pool
import Zenstier.Worker.Status

/-!
# The grace window

After a broker restart the worker is to mark no device offline for a while: everybody is about
to reconnect.  `reap` asks for the window before anything else, and not again during its pass.
`handleStatus` does not ask at all, and a broker that restarts publishes the Last-Wills of the
connections it has broken.
-/

namespace Zenstier

open Store Concurrent Prog

/-! ## The worker -/

/-- What runs in the worker: the handler of a message, or a pass of the reaper. -/
inductive WorkerCall
  | message (pushId : String) (msg : WorkerMessage)
  | reap

def WorkerCall.prog : WorkerCall → CommandM Unit
  | .message pushId msg => onMessage pushId msg
  | .reap => Zenstier.reap

/-- What happens to the worker from elsewhere. -/
inductive WorkerEvent
  | tick (ms : Nat)
  /-- It loses or regains its connection. -/
  | connection (connected : Bool)
deriving DecidableEq

def WorkerEvent.apply : WorkerEvent → Fleet → Fleet
  | .tick ms, s => { s with clock := s.clock + ms }
  | .connection connected, s => { s with connected }

abbrev WorkerPool (ι : Type) := Pool ι CommandOp Err Unit Fleet

def workerStep {ι : Type} [DecidableEq ι] :
    WorkerPool ι → Event ι Err WorkerEvent → Option (WorkerPool ι) :=
  Pool.step commandServer WorkerEvent.apply

namespace Grace

/-! ## Passes that have made their check -/

def AsksGrace : ∀ β : Type, CommandOp β → Prop
  | _, .graceUntil => True
  | _, _ => False

/-- The reaper marks a device offline. -/
def Marks : ∀ β : Type, CommandOp β → Prop
  | _, .markOffline _ => True
  | _, _ => False

/-- The call can come to marking a device offline without asking for the window again. -/
def PastCheck (p : CommandM Unit) : Prop := Ahead AsksGrace (AtRequest Marks) p

theorem pastCheck_call {β : Type} (op : CommandOp β) (k : Except Err β → CommandM Unit) :
    PastCheck (.call op k) ↔ Marks β op ∨ ¬ AsksGrace β op ∧ ∃ r, PastCheck (k r) :=
  ahead_call op k

/-- If the next request asks for the window, an answer later than `t` ends the pass. -/
def Honors (t : Int) : CommandM Unit → Prop
  | .call .graceUntil k => ∀ r, PastCheck (k r) → ∃ graceUntil, r = .ok graceUntil ∧ graceUntil ≤ t
  | _ => True

/-- A call that asks for the window has just looked at the clock, and goes on only if the window
was closed then. -/
def ChecksGrace : ∀ β : Type, CommandOp β → (Except Err β → CommandM Unit) → Prop
  | _, .now, k => (∀ t, Honors t (k (.ok t))) ∧ ∀ e t, Honors t (k (.error e))
  | _, _, k => ∀ r t, Honors t (k r)

/-- The next request does not ask for the window. -/
theorem honors_of_only {p : CommandM Unit} (h : Only (fun β op ↦ ¬ AsksGrace β op) p) (t : Int) :
    Honors t p := by
  cases p with
  | pure u => trivial
  | throw e => trivial
  | call op k =>
      rw [only_call] at h
      cases op with
      | graceUntil => exact absurd trivial h.1
      | _ => trivial

theorem checksGrace_of_only {p : CommandM Unit} (h : Only (fun β op ↦ ¬ AsksGrace β op) p) :
    Always (fun _ _ _ ↦ True) ChecksGrace p := by
  induction p with
  | pure u => trivial
  | throw e => trivial
  | call op k ih =>
      rw [only_call] at h
      have hnext : ∀ r t, Honors t (k r) := fun r ↦ honors_of_only (h.2 r)
      refine ⟨?_, fun r _ ↦ ih r (h.2 r)⟩
      cases op with
      | now => exact ⟨fun t ↦ hnext _ t, fun e ↦ hnext _⟩
      | _ => exact hnext

theorem not_pastCheck_of_only {p : CommandM Unit} (h : Only (fun β op ↦ ¬ Marks β op) p) :
    ¬ PastCheck p := Only.not_ahead (fun _ _ h ↦ h) h

/-- A pass does not ask for the window again. -/
theorem reapAfter_only (started graceUntil : Int) :
    Only (fun β op ↦ ¬ AsksGrace β op) (reapAfter started graceUntil) := by
  unfold reapAfter
  split
  · trivial
  refine Only.await (fun h ↦ h) fun connected ↦ ?_
  split
  · trivial
  refine Only.bind ?_ fun _ ↦ ?_
  · exact reapStale_requests (fun h ↦ h) (fun _ h ↦ h) (fun _ h ↦ h) fun _ _ h ↦ h
  · exact reapOverdue_requests (fun h ↦ h) (fun _ h ↦ h) (fun _ _ _ h ↦ h) fun _ _ h ↦ h

theorem reap_checksGrace : Always (fun _ _ _ ↦ True) ChecksGrace reap := by
  rw [reap_eq]
  refine ⟨⟨fun started ↦ ?_, fun e t ↦ trivial⟩, ?_⟩
  · rintro (e | graceUntil) h
    · exact h.elim
    · change PastCheck (reapAfter started graceUntil) at h
      refine ⟨graceUntil, rfl, ?_⟩
      by_contra hlate
      rw [reapAfter, if_pos (by omega)] at h
      exact h
  · rintro (e | started) -
    · trivial
    refine ⟨?_, ?_⟩
    · rintro (e | graceUntil) t
      · trivial
      · exact honors_of_only (reapAfter_only started graceUntil) t
    · rintro (e | graceUntil) -
      · trivial
      · exact checksGrace_of_only (reapAfter_only started graceUntil)

/-- What the calls do before they start. -/
theorem prog_checksGrace (call : WorkerCall) :
    Always (fun _ _ _ ↦ True) ChecksGrace call.prog ∧ ¬ PastCheck call.prog ∧
    ∀ t, Honors t call.prog := by
  cases call with
  | message pushId msg =>
      have hgrace : Only (fun β op ↦ ¬ AsksGrace β op) (onMessage pushId msg) :=
        (onMessage_only pushId msg).mono fun β op h ↦ by
          cases op <;> first | exact h.elim | exact fun h ↦ h
      have hmarks : Only (fun β op ↦ ¬ Marks β op) (onMessage pushId msg) :=
        (onMessage_only pushId msg).mono fun β op h ↦ by
          cases op <;> first | exact h.elim | exact fun h ↦ h
      exact ⟨checksGrace_of_only hgrace, not_pastCheck_of_only hmarks, honors_of_only hgrace⟩
  | reap =>
      refine ⟨reap_checksGrace, ?_, fun t ↦ trivial⟩
      rintro (h | ⟨-, (e | started), hr⟩)
      · exact h
      · exact hr
      · rcases hr with h | ⟨h, -⟩
        · exact h
        · exact h trivial

/-! ## The invariant -/

section Run

variable {ι : Type}

/-- The status handler writes that a device is offline. -/
def Notes (deviceId : String) : ∀ β : Type, CommandOp β → Prop
  | _, .noteOffline deviceId' _ => deviceId' = deviceId
  | _, _ => False

def Opens (graceUntil : Int) : ∀ β : Type, CommandOp β → Prop
  | _, .setGraceUntil graceUntil' => graceUntil' = graceUntil
  | _, _ => False

/-- The device is online. -/
def Online (s : Fleet) (deviceId : String) : Prop :=
  ∃ id d, s.devices.find? id = some d ∧ d.deviceId = deviceId ∧ d.status = .online

/-- No offline message of a device that is online is stored within the window, and the window
does not open while a pass of the reaper has made its check and may still mark a device. -/
def Suppresses (c : WorkerPool ι) : Event ι Err WorkerEvent → Prop
  | .run i f => (∀ e, f ≠ .refused e) →
      (∀ deviceId, AtRequest (Notes deviceId) (c.thread i) →
        c.shared.clock < c.shared.graceUntil → ¬ Online c.shared deviceId) ∧
      ∀ graceUntil, AtRequest (Opens graceUntil) (c.thread i) → c.shared.clock < graceUntil →
        ∀ j, ¬ PastCheck (c.thread j)
  | .env _ => True

/-- Within the window no pass is past its check. -/
structure Suppressed (c : WorkerPool ι) : Prop where
  calls : ∀ i, Always (fun _ _ _ ↦ True) ChecksGrace (c.thread i)
  asking : ∀ i, Honors c.shared.clock (c.thread i)
  past : ∀ i, PastCheck (c.thread i) → c.shared.graceUntil ≤ c.shared.clock

theorem Honors.mono {t t' : Int} (htt' : t ≤ t') {p : CommandM Unit} (h : Honors t p) :
    Honors t' p := by
  cases p with
  | pure u => trivial
  | throw e => trivial
  | call op k =>
      cases op with
      | graceUntil =>
          intro r hr
          obtain ⟨graceUntil, rfl, hle⟩ := h r hr
          exact ⟨graceUntil, rfl, by omega⟩
      | _ => trivial

variable [DecidableEq ι] {c d : WorkerPool ι}

theorem Suppressed.step (hc : Suppressed c) {l : Event ι Err WorkerEvent} (hg : Suppresses c l)
    (hs : workerStep c l = some d) : Suppressed d := by
  cases l with
  | env x =>
      obtain rfl := Pool.step_env hs
      cases x with
      | tick ms =>
          have hle : c.shared.clock ≤ c.shared.clock + ms := by omega
          exact ⟨hc.calls, fun i ↦ (hc.asking i).mono hle, fun i h ↦ (hc.past i h).trans hle⟩
      | connection connected => exact ⟨hc.calls, hc.asking, hc.past⟩
  | run i f =>
      obtain ⟨β, op, k, hi, rfl⟩ := Pool.step_run hs
      have hframe := frame_after op f c.shared
      have hdisc : ChecksGrace β op k ∧
          ∀ r, True → Always (fun _ _ _ ↦ True) ChecksGrace (k r) := by
        have := hc.calls i
        rwa [hi, always_call] at this
      have hpast : ∀ j, PastCheck ((c.resume commandServer i f op k).thread j) →
          ¬ AsksGrace β op → PastCheck (c.thread j) := by
        intro j hj hop
        by_cases hji : j = i
        · subst hji
          rw [Pool.resume_thread_self] at hj
          rw [hi]
          exact (pastCheck_call op k).mpr (.inr ⟨hop, _, hj⟩)
        · rwa [Pool.resume_thread_of_ne c hji] at hj
      refine ⟨Pool.forall_resume hc.calls i f op k (hdisc.2 _ trivial), ?_, fun j hj ↦ ?_⟩
      · rw [Pool.resume_shared, hframe.clock]
        refine Pool.forall_resume (Φ := fun _ p ↦ Honors c.shared.clock p) hc.asking i f op k ?_
        cases op with
        | now =>
            cases f with
            | served => exact hdisc.1.1 _
            | refused e => exact hdisc.1.2 e _
            | unanswered e => exact hdisc.1.2 e _
        | _ => exact hdisc.1 _ _
      · rw [Pool.resume_shared, hframe.clock]
        cases op with
        | graceUntil =>
            rw [hframe.graceUntil fun h ↦ h]
            by_cases hji : j = i
            · subst hji
              rw [Pool.resume_thread_self] at hj
              have hasking := hc.asking j
              rw [hi] at hasking
              obtain ⟨graceUntil, hreply, hle⟩ := hasking _ hj
              obtain ⟨-, hserve⟩ := Server.served_of_reply_ok hreply
              cases hserve
              exact hle
            · rw [Pool.resume_thread_of_ne c hji] at hj
              exact hc.past j hj
        | setGraceUntil graceUntil =>
            have hbefore := hpast j hj fun h ↦ h
            have hold := hc.past j hbefore
            have hopens := fun hf ↦ (hg hf).2 graceUntil (by rw [hi]; rfl)
            cases f with
            | refused e => exact hold
            | served =>
                by_contra hlate
                exact hopens (by simp) (by simpa [Fleet.serve] using hlate) j hbefore
            | unanswered e =>
                by_contra hlate
                exact hopens (by simp) (by simpa [Fleet.serve] using hlate) j hbefore
        | _ =>
            rw [hframe.graceUntil fun h ↦ h]
            exact hc.past j (hpast j hj fun h ↦ h)

/-- Within the window, no step takes a device from online to offline. -/
theorem Suppressed.online (hc : Suppressed c) {l : Event ι Err WorkerEvent} (hg : Suppresses c l)
    (hs : workerStep c l = some d) (hopen : c.shared.clock < c.shared.graceUntil) {id : String}
    {device device' : Device} (hdevice : c.shared.devices.find? id = some device)
    (honline : device.status = .online) (hdevice' : d.shared.devices.find? id = some device') :
    device'.status ≠ .offline := by
  have hsame : d.shared.devices = c.shared.devices → device'.status ≠ .offline := by
    intro heq
    rw [heq, hdevice] at hdevice'
    cases hdevice'
    rw [honline]
    decide
  cases l with
  | env x =>
      obtain rfl := Pool.step_env hs
      exact hsame (by cases x <;> rfl)
  | run i f =>
      obtain ⟨β, op, k, hi, rfl⟩ := Pool.step_run hs
      rw [Pool.resume_shared] at hsame hdevice'
      have hframe := frame_after op f c.shared
      by_cases hf : ∃ e, f = .refused e
      · obtain ⟨e, rfl⟩ := hf
        exact hsame rfl
      have hafter : commandServer.after f op c.shared = (c.shared.serve op).2 := by
        cases f with
        | served => rfl
        | refused e => exact absurd ⟨e, rfl⟩ hf
        | unanswered e => rfl
      rw [hafter] at hdevice'
      cases op with
      | markOffline deviceId =>
          have := hc.past i (by rw [hi]; exact .inl trivial)
          omega
      | noteOffline deviceId lastSeenAt =>
          rw [Fleet.serve, Fleet.find?_updateDevice, hdevice, Option.map_some,
            Option.some.injEq] at hdevice'
          split at hdevice'
          · rename_i hid
            have honline' : Online c.shared deviceId := ⟨id, device, hdevice, hid, honline⟩
            exact absurd honline'
              ((hg fun e he ↦ hf ⟨e, he⟩).1 deviceId (by rw [hi]; rfl) hopen)
          · rw [← hdevice', honline]
            decide
      | markOnline deviceId sighting =>
          rw [Fleet.serve, Fleet.find?_updateDevice, hdevice, Option.map_some,
            Option.some.injEq] at hdevice'
          split at hdevice'
          · rw [← hdevice', Sighting.apply]
            simp
          · rw [← hdevice', honline]
            decide
      | _ => exact hsame (hframe.devices fun h ↦ h)

end Run

end Grace

open Grace in
/-- Within the grace window no step takes a device from online to offline, as long as no offline
message of a device that is online is stored then, and the window does not open under a pass of
the reaper. -/
theorem grace_window_kept {ι : Type} [DecidableEq ι] (call : ι → WorkerCall) (s : Fleet)
    {c d : WorkerPool ι} {l : Event ι Err WorkerEvent}
    (hc : Reach workerStep Suppresses ⟨s, fun i ↦ (call i).prog⟩ c) (hg : Suppresses c l)
    (hs : workerStep c l = some d) (hopen : c.shared.clock < c.shared.graceUntil) :
    ∀ id device device', c.shared.devices.find? id = some device → device.status = .online →
      d.shared.devices.find? id = some device' → device'.status ≠ .offline := by
  have hinv : Suppressed c := by
    refine hc.invariant ?_ fun _ _ _ h hg hstep ↦ h.step hg hstep
    exact ⟨fun i ↦ (prog_checksGrace (call i)).1, fun i ↦ (prog_checksGrace (call i)).2.2 _,
      fun i h ↦ absurd h (prog_checksGrace (call i)).2.1⟩
  intro id device device' hdevice honline hdevice'
  exact hinv.online hg hs hopen hdevice honline hdevice'

/-! ## A pass and a Last-Will within the window -/

/-- A team with one device, which is connected. -/
def oneSession : Fleet where
  clock := 0
  devices := ⟨[("row", { userId := "user", teamId := "team", deviceId := "dev", name := "host"
                         status := .online, currentSessionId := some "session" })],
    List.nodup_singleton _⟩
  deviceGroups := ∅
  batches := ∅
  commands := ∅
  outputs := ∅
  auditLogs := []
  limiter := fun _ _ ↦ []
  graceUntil := 0
  connected := true

/-- A pass of the reaper within the window. -/
def reapInGrace : WorkerPool Unit :=
  ⟨{ oneSession with graceUntil := 120000 }, fun _ ↦ WorkerCall.reap.prog⟩

/-- It finds that the window is open, and marks nobody. -/
theorem grace_window_kept_reap : ∃ c d : WorkerPool Unit,
    workerStep c (.run () .served) = some d ∧ c.shared.clock < c.shared.graceUntil ∧
    ∀ id device device', c.shared.devices.find? id = some device → device.status = .online →
      d.shared.devices.find? id = some device' → device'.status ≠ .offline := by
  let c := (workerStep reapInGrace (.run () .served)).get rfl
  have hc : Reach workerStep Grace.Suppresses reapInGrace c :=
    Reach.start.next (.run () .served) (fun _ ↦ ⟨fun _ h ↦ h.elim, fun _ h ↦ h.elim⟩)
      (Option.some_get rfl).symm
  have hg : Grace.Suppresses c (.run () .served) :=
    fun _ ↦ ⟨fun _ h ↦ h.elim, fun _ h ↦ h.elim⟩
  refine ⟨c, (workerStep c (.run () .served)).get rfl, (Option.some_get rfl).symm, by decide, ?_⟩
  exact grace_window_kept (fun _ ↦ .reap) { oneSession with graceUntil := 120000 } hc hg
    (Option.some_get rfl).symm (by decide)

/-- The broker reports that it has restarted, and publishes the Last-Will of a connection. -/
def restartCall : Fin 2 → WorkerCall
  | 0 => .message "push" (.uptime (some 5))
  | 1 => .message "push" (.status "dev" (some
      { state := .offline, deviceId := "dev", sessionId := some "session" }))

/-- The device is marked offline within the window. -/
theorem grace_window_broken : ∃ c d : WorkerPool (Fin 2),
    Reach workerStep (fun _ _ ↦ True) ⟨oneSession, fun i ↦ (restartCall i).prog⟩ c ∧
    workerStep c (.run 1 .served) = some d ∧ c.shared.clock < c.shared.graceUntil ∧
    (c.shared.devices.find? "row").map (·.status) = some .online ∧
    (d.shared.devices.find? "row").map (·.status) = some .offline := by
  obtain ⟨c, hc, hopen, honline, hnext⟩ : ∃ c : WorkerPool (Fin 2),
      Reach workerStep (fun _ _ ↦ True) ⟨oneSession, fun i ↦ (restartCall i).prog⟩ c ∧
      c.shared.clock < c.shared.graceUntil ∧
      (c.shared.devices.find? "row").map (·.status) = some .online ∧
      (workerStep c (.run 1 .served)).any fun d ↦
        decide ((d.shared.devices.find? "row").map (·.status) = some .offline) :=
    Reach.exists_of_exec [.run 0 .served, .run 0 .served, .run 1 .served, .run 1 .served]
      (by decide)
  obtain ⟨d, hd, hoffline⟩ := (Option.any_eq_true _ _).mp hnext
  exact ⟨c, d, hc, hd, hopen, honline, of_decide_eq_true hoffline⟩

end Zenstier
