import Zenstier.Alerts.Service
import Zenstier.Concurrent.Journal

/-!
# Overlapping evaluations

The worker starts an evaluation every half minute and does not wait for the one before, which
may still be delivering webhooks.  An evaluation takes its readings, reads the state row of a
rule for a device, decides, and writes the row; nothing keeps another one from deciding on the
same row in between, or on an older reading afterwards.

Of each evaluation is noted which readings it takes, which rows it reads, and when it calls
`onFire`.  As long as nobody fires between what an evaluation has seen and what it writes, a
rule is FIRING from the time it has fired until a reading that is no breach has been taken.
-/

namespace Zenstier

open Store Concurrent Prog

/-- What is noted of an evaluation. -/
inductive PassNote
  /-- A reading of a rule for a device is taken. -/
  | taken (key : String × String) (breached : Bool)
  /-- A state row is read. -/
  | looked (key : String × String) (row : Option AlertRuleState)
  /-- `onFire` is called. -/
  | fired (key : String × String)
deriving DecidableEq

/-- Takes note of the readings, of the rows that are read, and of the calls of `onFire`: it is
called when the write of a FIRING row has been answered. -/
def watchPass (f : Fate Err) (β : Type) : AlertOp β → AlertStore → List PassNote
  | .findDevices ruleId rule, s => match f with
      | .served => ((s.deviceRows rule.teamId).map rule.read).map fun reading ↦
          .taken (ruleId, reading.deviceId) reading.breached
      | .refused _ | .unanswered _ => []
  | .findState key, s => match f with
      | .served => [.looked key (s.states.find? key)]
      | .refused _ | .unanswered _ => []
  | .upsertState key create _, _ => match f with
      | .served => if create.state = .firing then [.fired key] else []
      | .refused _ | .unanswered _ => []
  | _, _ => []

/-- While evaluations run, anything may change but the states of the rules. -/
def elsewhere (changed s : AlertStore) : AlertStore := { changed with states := s.states }

section Runs

variable {ι : Type} [DecidableEq ι]

/-- Evaluations at the same time. -/
abbrev PassPool (ι : Type) := Pool ι AlertOp Err Nat AlertStore

/-- What has been noted of the evaluations. -/
abbrev PassLog (ι : Type) := List (ι × PassNote)

def firedNote (key : String × String) (e : ι × PassNote) : Bool := e.2 = .fired key

/-- A reading that is no breach, taken by anyone. -/
def calmNote (key : String × String) (e : ι × PassNote) : Bool := e.2 = .taken key false

/-- A row read by one of the evaluations. -/
def lookedNote (i : ι) (key : String × String) : ι × PassNote → Bool
  | (j, .looked key' _) => j = i ∧ key' = key
  | _ => false

/-- A write does not come too late: nobody has fired since the evaluation has read the row, if
it found a breach, or since it has taken the reading, if it found none. -/
def UpToDate (i : ι) (log : PassLog ι) : ∀ β : Type, AlertOp β → Prop
  | _, .upsertState key _ _ => happenedSince (firedNote key) (lookedNote i key) log = false
  | _, .updateState key _ =>
      happenedSince (firedNote key) (fun e ↦ e = (i, .taken key false)) log = false
  | _, _ => True

instance (i : ι) (log : PassLog ι) (β : Type) (op : AlertOp β) :
    Decidable (UpToDate i log β op) := by
  cases op <;> unfold UpToDate <;> infer_instance

/-- Every write that takes effect is up to date. -/
abbrev AllUpToDate : Recorded (PassPool ι) (ι × PassNote) → Event ι Err AlertStore → Prop :=
  Overseen fun i r ↦ UpToDate i r.log

/-- Between two calls of `onFire` a reading that is no breach has been taken. -/
def OncePerEpisode (key : String × String) (log : PassLog ι) : Prop :=
  ∀ before i between j after,
    log = before ++ (i, .fired key) :: between ++ (j, .fired key) :: after →
      ∃ k, (k, .taken key false) ∈ between

/-! ## What an evaluation decides -/

/-- What is written after a row has been read: it fires only if it was not FIRING, and otherwise
keeps the state that was read. -/
def Decides (found : Option AlertRuleState) (create : AlertRuleState)
    (update : AlertRuleState → AlertRuleState) : Prop :=
  (create.state = .firing → found.map (·.state) ≠ some .firing) ∧
    ∀ row, (update row).state =
      if create.state = .firing then .firing else (found.map (·.state)).getD .ok

/-- The row that a breach is written to has just been read. -/
def LooksFirst (n : List PassNote) : ∀ β : Type, AlertOp β → Prop
  | _, .upsertState key create update =>
      ∃ found, n.getLast? = some (.looked key found) ∧ Decides found create update
  | _, _ => True

theorem evaluateReading_looksFirst (ruleId : String) (rule : AlertRule) (now : Int)
    (reading : Reading) (n : List PassNote) :
    Heeds alertServer watchPass LooksFirst (evaluateReading ruleId rule now reading) n := by
  unfold evaluateReading
  refine .await trivial fun s found hfound ↦ ?_
  obtain rfl := Except.ok.inj hfound
  split
  · refine .await ⟨s.states.find? (ruleId, reading.deviceId), by simp [watchPass], ?_⟩
      fun _ _ _ ↦ ?_
    · cases hfire : rule.shouldFire (s.states.find? (ruleId, reading.deviceId)) now with
      | true =>
          refine ⟨fun _ ↦ ?_, fun row ↦ by simp⟩
          rw [AlertRule.shouldFire, decide_eq_true_eq] at hfire
          exact hfire.2
      | false => exact ⟨fun h ↦ by simp at h, fun row ↦ by simp⟩
    · split
      · refine .of_only (Only.bind (Only.bind ?_ fun _ ↦ ?_) fun _ ↦ trivial)
        · exact (only_perform _).mpr fun _ ↦ trivial
        · exact (only_perform _).mpr fun _ ↦ trivial
      · trivial
  · split
    · trivial
    · refine .await trivial fun _ _ _ ↦ ?_
      split
      · exact .of_only (Only.bind ((only_perform _).mpr fun _ ↦ trivial) fun _ ↦ trivial)
      · trivial

/-- Every breach is written to a row that has just been read. -/
theorem evaluateAlerts_looksFirst (now : Int) (n : List PassNote) :
    Heeds alertServer watchPass LooksFirst (evaluateAlerts now) n := by
  unfold evaluateAlerts
  refine .await trivial fun s rules _ ↦ ?_
  refine .foldlM (fun ⟨ruleId, rule⟩ _ fired n ↦ ?_) 0
  refine .await trivial fun s devices _ ↦ ?_
  refine .foldlM (fun reading _ fired n ↦ ?_) fired
  exact (evaluateReading_looksFirst ruleId rule now reading n).bind fun _ _ ↦ trivial

/-! ## The invariant -/

/-- Since the last reading that was no breach, the rule has fired for the device. -/
def Outstanding (key : String × String) (log : PassLog ι) : Prop :=
  happenedSince (firedNote key) (calmNote key) log = true

/-- Whoever looks after the rule has fired sees that it is FIRING, and nobody fires again. -/
def Heard (key : String × String) (before : PassLog ι) : ι × PassNote → Prop
  | (_, .looked key' found) => key' = key → Outstanding key before →
      found.map (·.state) = some .firing
  | (_, .fired key') => key' = key → ¬ Outstanding key before
  | (_, .taken _ _) => True

/-- A rule that has fired is FIRING, and everybody has heard of it. -/
structure StaysFiring (key : String × String) (r : Recorded (PassPool ι) (ι × PassNote)) :
    Prop where
  row : Outstanding key r.log → (r.state.shared.states.find? key).map (·.state) = some .firing
  heard : AtEach (Heard key) r.log

section Step

variable {key : String × String} {r r' : Recorded (PassPool ι) (ι × PassNote)}

omit [DecidableEq ι] in
/-- A request that notes no firing and leaves the row as it is. -/
theorem StaysFiring.quiet (h : StaysFiring key r) {new : PassLog ι}
    (hlog : r'.log = r.log ++ new)
    (hfired : ∀ e ∈ new, firedNote key e = false)
    (hheard : AtEach (fun before ↦ Heard key (r.log ++ before)) new)
    (hrow : Outstanding key r.log →
      (r'.state.shared.states.find? key).map (·.state) = some .firing) :
    StaysFiring key r' where
  row houtstanding := hrow (happenedSince_append hfired (hlog ▸ houtstanding))
  heard := hlog ▸ atEach_append.mpr ⟨h.heard, hheard⟩

/-- What a late look would have seen. -/
theorem StaysFiring.found (h : StaysFiring key r) {i : ι} {found : Option AlertRuleState}
    (hlast : (notesOf i r.log).getLast? = some (.looked key found))
    (hupToDate : happenedSince (firedNote key) (lookedNote i key) r.log = false)
    (houtstanding : Outstanding key r.log) : found.map (·.state) = some .firing := by
  obtain ⟨before, after, hlog, hothers⟩ := exists_of_getLast?_notesOf hlast
  have hquiet : ∀ e ∈ after, firedNote key e = false := by
    intro e he
    by_contra hfired
    rw [Bool.not_eq_false] at hfired
    have hsince : happenedSince (firedNote key) (lookedNote i key)
        (before ++ [(i, .looked key found)] ++ after) = true := by
      refine happenedSince_of_mem he hfired fun y hy ↦ ?_
      obtain ⟨j, y⟩ := y
      have hj : j ≠ i := hothers _ hy
      cases y <;> simp [lookedNote, hj]
    rw [List.append_assoc, List.singleton_append, ← hlog] at hsince
    exact absurd (hupToDate.symm.trans hsince) (by simp)
  have hunfired : ∀ e ∈ (i, .looked key found) :: after, firedNote key e = false := by
    intro e he
    rcases List.mem_cons.mp he with rfl | he
    · simp [firedNote]
    · exact hquiet e he
  refine h.heard before (i, .looked key found) after hlog rfl ?_
  exact happenedSince_append hunfired (hlog ▸ houtstanding)

omit [DecidableEq ι] in
/-- A request that leaves the rows alone, and of which at most readings are noted. -/
theorem StaysFiring.read (h : StaysFiring key r) {i : ι} {f : Fate Err} {β : Type} {op : AlertOp β}
    (hserve : (r.state.shared.serve op).2.states = r.state.shared.states)
    (hstate : r'.state.shared = alertServer.after f op r.state.shared)
    (hlog : r'.log = r.log ++ (watchPass f β op r.state.shared).map (i, ·))
    (hnotes : ∀ e ∈ watchPass f β op r.state.shared, ∃ key' breached, e = .taken key' breached) :
    StaysFiring key r' := by
  have hsame : r'.state.shared.states = r.state.shared.states := by
    rw [hstate]
    exact Server.after_of (fun t : AlertStore ↦ t.states = r.state.shared.states) rfl hserve f
  have hnew : ∀ e ∈ (watchPass f β op r.state.shared).map (i, ·),
      ∃ key' breached, e = (i, .taken key' breached) := by
    rintro _ hmem
    obtain ⟨note, hnote, rfl⟩ := List.mem_map.mp hmem
    obtain ⟨key', breached, rfl⟩ := hnotes note hnote
    exact ⟨key', breached, rfl⟩
  refine h.quiet hlog (fun e he ↦ ?_) (.of_forall fun e he before ↦ ?_) (hsame ▸ h.row)
  · obtain ⟨key', breached, rfl⟩ := hnew e he
    simp [firedNote]
  · obtain ⟨key', breached, rfl⟩ := hnew e he
    trivial

omit [DecidableEq ι] in
/-- A row is read. -/
theorem StaysFiring.look (h : StaysFiring key r) {i : ι} {f : Fate Err} {key' : String × String}
    (hstate : r'.state.shared = alertServer.after f (.findState key') r.state.shared)
    (hlog : r'.log = r.log ++ (watchPass f _ (.findState key') r.state.shared).map (i, ·)) :
    StaysFiring key r' := by
  cases f with
  | refused e => exact h.read rfl hstate hlog fun e he ↦ nomatch he
  | unanswered e => exact h.read rfl hstate hlog fun e he ↦ nomatch he
  | served =>
      refine h.quiet hlog (by simp [watchPass, firedNote]) ?_ fun houtstanding ↦ ?_
      · refine atEach_singleton.mpr ?_
        rintro rfl houtstanding
        exact h.row (by simpa using houtstanding)
      · rw [hstate]
        exact h.row houtstanding

/-- The end of a breach is written. -/
theorem StaysFiring.update (h : StaysFiring key r) {i : ι} {f : Fate Err} {key' : String × String}
    {update : AlertRuleState → AlertRuleState}
    (hupToDate : (∀ e, f ≠ .refused e) → UpToDate i r.log _ (.updateState key' update))
    (hstate : r'.state.shared = alertServer.after f (.updateState key' update) r.state.shared)
    (hlog : r'.log = r.log ++
      (watchPass f _ (.updateState key' update) r.state.shared).map (i, ·)) :
    StaysFiring key r' := by
  refine h.quiet hlog (by simp [watchPass]) (.of_forall (by simp [watchPass])) fun houtstanding ↦ ?_
  by_cases hrefused : ∃ e, f = .refused e
  · obtain ⟨e, rfl⟩ := hrefused
    rw [hstate]
    exact h.row houtstanding
  have heffect : ∀ e, f ≠ .refused e := fun e he ↦ hrefused ⟨e, he⟩
  by_cases hkey : key = key'
  · subst hkey
    -- nobody has fired since the reading, which was no breach
    have hcalm : happenedSince (firedNote key) (fun e ↦ e = (i, .taken key false)) r.log = true :=
      happenedSince_mono (fun e he ↦ by simp_all [calmNote]) houtstanding
    exact absurd (hupToDate heffect) (by simp [UpToDate, hcalm])
  · have hrow : r'.state.shared.states.find? key = r.state.shared.states.find? key := by
      rw [hstate, Server.after_of_ne_refused heffect]
      simp only [alertServer, AlertStore.serve]
      split
      · rfl
      · rw [Table.find?_update, if_neg hkey]
    rw [hrow]
    exact h.row houtstanding

/-- A breach is written. -/
theorem StaysFiring.upsert (h : StaysFiring key r) {i : ι} {f : Fate Err} {key' : String × String}
    {create : AlertRuleState} {update : AlertRuleState → AlertRuleState}
    (hlooks : LooksFirst (notesOf i r.log) _ (.upsertState key' create update))
    (hupToDate : (∀ e, f ≠ .refused e) → UpToDate i r.log _ (.upsertState key' create update))
    (hstate : r'.state.shared =
      alertServer.after f (.upsertState key' create update) r.state.shared)
    (hlog : r'.log = r.log ++
      (watchPass f _ (.upsertState key' create update) r.state.shared).map (i, ·)) :
    StaysFiring key r' := by
  obtain ⟨found, hlast, hfires, hkeeps⟩ := hlooks
  by_cases hrefused : ∃ e, f = .refused e
  · obtain ⟨e, rfl⟩ := hrefused
    exact h.quiet hlog (by simp [watchPass]) (.of_forall (by simp [watchPass])) (hstate ▸ h.row)
  have heffect : ∀ e, f ≠ .refused e := fun e he ↦ hrefused ⟨e, he⟩
  have hrow : r'.state.shared.states.find? key' =
      some (((r.state.shared.states.find? key').map update).getD create) := by
    rw [hstate, Server.after_of_ne_refused heffect]
    exact (Table.find?_put ..).trans (if_pos rfl)
  have hother : key ≠ key' →
      r'.state.shared.states.find? key = r.state.shared.states.find? key := by
    intro hkey
    rw [hstate, Server.after_of_ne_refused heffect]
    exact (Table.find?_put ..).trans (if_neg hkey)
  have hfound : key = key' → Outstanding key r.log → found.map (·.state) = some .firing := by
    rintro rfl houtstanding
    exact h.found hlast (hupToDate heffect) houtstanding
  by_cases hcalled : f = .served ∧ create.state = .firing
  · obtain ⟨rfl, hfiring⟩ := hcalled
    have hnotes : watchPass .served _ (.upsertState key' create update) r.state.shared =
        [.fired key'] := if_pos hfiring
    rw [hnotes, List.map_singleton] at hlog
    constructor
    · intro houtstanding
      by_cases hkey : key = key'
      · rw [hkey, hrow]
        cases r.state.shared.states.find? key' with
        | none => exact congrArg some hfiring
        | some row => exact congrArg some ((hkeeps row).trans (if_pos hfiring))
      · rw [hother hkey]
        refine h.row (happenedSince_append ?_ (hlog ▸ houtstanding))
        simpa [firedNote] using Ne.symm hkey
    · rw [hlog]
      refine atEach_append.mpr ⟨h.heard, atEach_singleton.mpr ?_⟩
      intro hkey houtstanding
      exact hfires hfiring (hfound hkey.symm (by simpa using houtstanding))
  · have hnotes : watchPass f _ (.upsertState key' create update) r.state.shared = [] := by
      cases f with
      | refused e => rfl
      | unanswered e => rfl
      | served => exact if_neg fun hfiring ↦ hcalled ⟨rfl, hfiring⟩
    rw [hnotes, List.map_nil] at hlog
    refine h.quiet hlog (by simp) (.of_forall (by simp)) fun houtstanding ↦ ?_
    by_cases hkey : key = key'
    · have hstays := hfound hkey houtstanding
      have hcreate : create.state ≠ .firing := fun hfiring ↦ hfires hfiring hstays
      obtain ⟨row, hfind, -⟩ := Option.map_eq_some_iff.mp (h.row houtstanding)
      rw [hkey, hrow, ← hkey, hfind]
      exact congrArg some ((hkeeps row).trans (by rw [if_neg hcreate, hstays]; rfl))
    · rw [hother hkey]
      exact h.row houtstanding

end Step

/-- Every step keeps a rule that has fired FIRING. -/
theorem StaysFiring.step {key : String × String} {r r' : Recorded (PassPool ι) (ι × PassNote)}
    {l : Event ι Err AlertStore} (h : StaysFiring key r)
    (hlooks : ∀ i, Heeds alertServer watchPass LooksFirst (r.state.thread i) (notesOf i r.log))
    (hguard : AllUpToDate r l)
    (hs : Recorded.step (Pool.step alertServer elsewhere) (Pool.attend watchPass) r l = some r') :
    StaysFiring key r' := by
  cases l with
  | env x =>
      obtain ⟨hstate, hlog⟩ := Pool.attended_env hs
      have hlog' : r'.log = r.log ++ [] := hlog.trans (List.append_nil _).symm
      refine h.quiet hlog' (by simp) (.of_forall (by simp)) fun houtstanding ↦ ?_
      rw [hstate]
      exact h.row houtstanding
  | run i f =>
      obtain ⟨β, op, k, hi, hstate, hlog⟩ := Pool.attended_run hs
      have hop := hlooks i
      rw [hi] at hop
      have hshared := congrArg Pool.shared hstate
      rw [Pool.resume_shared] at hshared
      rw [AllUpToDate, Overseen, hi] at hguard
      cases op with
      | upsertState key' create update => exact h.upsert hop.1 hguard hshared hlog
      | findRules | createAuditLog | notify =>
          exact h.read (by rfl) hshared hlog (by simp [watchPass])
      | findState key' => exact h.look hshared hlog
      | findDevices ruleId rule =>
          refine h.read (by rfl) hshared hlog fun e he ↦ ?_
          cases f with
          | refused e => cases he
          | unanswered e => cases he
          | served =>
              obtain ⟨reading, -, rfl⟩ := List.mem_map.mp he
              exact ⟨_, _, rfl⟩
      | updateState key' update => exact h.update hguard hshared hlog

end Runs

/-- In every interleaving of evaluations whose writes are up to date, a rule fires at most once
for a device between two readings that are no breach. -/
theorem alerts_oncePerEpisode {ι : Type} [DecidableEq ι] (now : ι → Int) (s : AlertStore)
    {r : Recorded (PassPool ι) (ι × PassNote)}
    (h : Reach (Recorded.step (Pool.step alertServer elsewhere) (Pool.attend watchPass)) AllUpToDate
      ⟨⟨s, fun i ↦ evaluateAlerts (now i)⟩, []⟩ r) (key : String × String) :
    OncePerEpisode key r.log := by
  have hlooks : ∀ {r}, Reach (Recorded.step (Pool.step alertServer elsewhere)
        (Pool.attend watchPass)) AllUpToDate ⟨⟨s, fun i ↦ evaluateAlerts (now i)⟩, []⟩ r →
      ∀ i, Heeds alertServer watchPass LooksFirst (r.state.thread i) (notesOf i r.log) :=
    fun h ↦ Heeds.reach (fun i ↦ evaluateAlerts_looksFirst (now i) []) h
  have hfiring : StaysFiring key r := by
    induction h with
    | start =>
        refine ⟨fun houtstanding ↦ ?_, .of_forall fun _ hmem ↦ absurd hmem List.not_mem_nil⟩
        cases houtstanding
    | next l h hg hs ih => exact ih.step (hlooks h) hg hs
  intro before i between j after hlog
  by_contra hnone
  refine hfiring.heard (before ++ (i, .fired key) :: between) (j, .fired key) after hlog rfl ?_
  refine happenedSince_of_mem (x := (i, .fired key)) List.mem_cons_self (by simp [firedNote]) ?_
  intro e he
  rcases List.mem_cons.mp he with rfl | he
  · simp [calmNote]
  · obtain ⟨k, note⟩ := e
    rw [calmNote, decide_eq_false_iff_not]
    rintro rfl
    exact hnone ⟨k, he⟩

/-- A device that has been busy for five minutes. -/
def busyDevice : AlertStore where
  clock := 300000
  devices := ⟨[("d", exampleDevice)], List.nodup_singleton "d"⟩
  metrics := [{ deviceId := "d", cpuPercent := 95, recordedAt := 0 }]
  rules := ⟨[("r", exampleRule)], List.nodup_singleton "r"⟩
  states := ⟨[(("r", "d"), { since := some 0 })], List.nodup_singleton ("r", "d")⟩
  auditLogs := []

/-- Two evaluations of it. -/
def twoPasses : Recorded (PassPool Bool) (Bool × PassNote) :=
  ⟨⟨busyDevice, fun _ ↦ evaluateAlerts 300000⟩, []⟩

/-- Both have read the row before either writes it, and both call `onFire`. -/
theorem alerts_twiceInEpisode :
    ¬ ∀ (s : AlertStore) (now : Bool → Int) (r : Recorded (PassPool Bool) (Bool × PassNote)),
      Reach (Recorded.step (Pool.step alertServer elsewhere) (Pool.attend watchPass))
        (fun _ _ ↦ True) ⟨⟨s, fun i ↦ evaluateAlerts (now i)⟩, []⟩ r →
      ∀ key, OncePerEpisode key r.log := by
  obtain ⟨r, hr, hlog⟩ : ∃ r, Reach (Recorded.step (Pool.step alertServer elsewhere)
        (Pool.attend watchPass)) (fun _ _ ↦ True) twoPasses r ∧
      r.log = [(false, .taken ("r", "d") true), (true, .taken ("r", "d") true),
        (false, .looked ("r", "d") (some { since := some 0 })),
        (true, .looked ("r", "d") (some { since := some 0 })),
        (false, .fired ("r", "d")), (true, .fired ("r", "d"))] :=
    Reach.exists_of_exec [.run false .served, .run true .served, .run false .served,
      .run true .served, .run false .served, .run true .served, .run false .served,
      .run true .served] (by decide +kernel)
  intro h
  have honce := h busyDevice (fun _ ↦ 300000) r hr ("r", "d")
  rw [hlog] at honce
  obtain ⟨k, hk⟩ := honce [_, _, _, _] false [] true [] rfl
  cases hk

/-- One after the other, the second finds that the rule is FIRING. -/
theorem alerts_oncePerEpisode_inTurn :
    ∃ r : Recorded (PassPool Bool) (Bool × PassNote),
      (r.log.countP fun e ↦ e.2 = .fired ("r", "d")) = 1 ∧
        (r.log.countP fun e ↦ e.2 = .taken ("r", "d") true) = 2 ∧
        OncePerEpisode ("r", "d") r.log := by
  obtain ⟨r, hr, hlog⟩ : ∃ r, Reach (Recorded.step (Pool.step alertServer elsewhere)
        (Pool.attend watchPass)) AllUpToDate twoPasses r ∧
      (r.log.countP fun e ↦ e.2 = .fired ("r", "d")) = 1 ∧
        (r.log.countP fun e ↦ e.2 = .taken ("r", "d") true) = 2 :=
    Reach.exists_of_exec [.run false .served, .run false .served, .run false .served,
      .run false .served, .run false .served, .run false .served, .run true .served,
      .run true .served, .run true .served, .run true .served] (by decide +kernel)
  exact ⟨r, hlog.1, hlog.2, alerts_oncePerEpisode (fun _ ↦ 300000) busyDevice hr ("r", "d")⟩

end Zenstier
