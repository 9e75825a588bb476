import Zenstier.Commands.Dispatch

/-!
# Every execution has a row

A per-device publish goes to a device whose row was inserted before.  A broadcast goes to
whoever is subscribed to the group's topic, and each agent derives the id of its row from
the batch id.  The rows of a broadcast come from the database: devices that are offline
there, or rate limited, or not in the group any more, get none, and nothing keeps their
agents from executing the command.
-/

namespace Zenstier

open Store Concurrent

/-! ## The id an agent uses -/

section CommandID

variable {sha1 : List UInt8 → List UInt8} {batchId userId : String}
  {input : DispatchCommandInput} {issuedAt : Int}

/-- An agent that receives a message of a batch runs it under the id that the backend
derived for it. -/
theorem commandID_of_receives {finalTargets : List Target} {topic : Topic}
    {payload : CommandPayload} {a : Agent} (hbatch : batchId ≠ "")
    (hmsg : MessageOf sha1 batchId userId input issuedAt finalTargets topic payload)
    (ha : a.Receives topic) :
    a.commandID sha1 payload = commandIdFor sha1 batchId a.deviceId := by
  unfold MessageOf at hmsg
  cases hg : broadcastGroup input with
  | some groupId =>
      rw [hg] at hmsg
      obtain ⟨rfl, rfl⟩ := hmsg
      simp only [Agent.commandID, broadcastPayload, ne_eq, hbatch, not_false_eq_true, if_true]
      exact deriveCommandID_eq ..
  | none =>
      rw [hg] at hmsg
      obtain ⟨t, -, rfl, rfl⟩ := hmsg
      have hid : a.deviceId = t.deviceId := ha
      simp only [Agent.commandID, devicePayload, broadcastPayload, ← hid]
      split
      · exact deriveCommandID_eq ..
      · rfl

end CommandID

/-! ## Skipped devices -/

section Skipped

variable {s : Fleet} {userId teamId : String} {input : DispatchCommandInput}

/-- In a list without repetitions nobody is both allowed and limited. -/
theorem allowed_not_limited {deviceIds : List String} {results : List Int}
    (hnd : deviceIds.Nodup) {d : String} {wait : Int}
    (hallowed : d ∈ (rateLimitResult deviceIds results).allowed) :
    (d, wait) ∉ (rateLimitResult deviceIds results).limited := by
  intro hlimited
  simp only [rateLimitResult, List.mem_filter, List.mem_map, Prod.exists, Prod.mk.injEq,
    decide_eq_true_eq] at hlimited
  obtain ⟨⟨_, i, hi, rfl, rfl⟩, hpos⟩ := hlimited
  unfold rateLimitResult at hallowed
  dsimp only at hallowed
  split at hallowed
  · exact absurd hallowed List.not_mem_nil
  simp only [List.mem_filter, List.mem_map, Prod.exists, Prod.mk.injEq, decide_eq_true_eq,
    exists_and_right, exists_eq_right] at hallowed
  obtain ⟨w, ⟨_, j, hj, rfl, rfl⟩, hle⟩ := hallowed
  obtain ⟨hi, hid⟩ := List.mem_zipIdx' hi
  obtain ⟨hj, hjd⟩ := List.mem_zipIdx' hj
  obtain rfl : i = j := (hnd.getElem_inj_iff).mp (hid.symm.trans hjd)
  exact hle hpos

theorem onlineIds_nodup (hunique : s.devices.UniqueOn (·.deviceId)) :
    (s.onlineIds teamId input).Nodup := by
  have hsub : (s.onlineIds teamId input).Sublist
      ((s.findTargets teamId (targetFilter input)).map (·.deviceId)) :=
    List.Sublist.map _ List.filter_sublist
  refine List.Nodup.sublist hsub ?_
  rw [Fleet.findTargets, List.map_map]
  exact hunique.nodup_findMany _

/-- A device that a row is inserted for is not skipped. -/
theorem eligible_not_skipped (hunique : s.devices.UniqueOn (·.deviceId)) {id : String}
    {d : Device} (hd : s.devices.find? id = some d) (hel : s.Eligible userId teamId input d)
    {skipped : Skipped} (hsk : skipped ∈ s.skippedTargets userId teamId input) :
    skipped.deviceId ≠ d.deviceId := by
  intro heq
  rcases List.mem_append.mp hsk with hoff | hlim
  · simp only [skippedOffline, List.mem_map, List.mem_filter, decide_eq_true_eq] at hoff
    obtain ⟨t, ⟨ht, hst⟩, rfl⟩ := hoff
    obtain ⟨d', hd', -, -, hid, hst'⟩ := Fleet.mem_findTargets.mp ht
    obtain rfl : t.id = id := hunique hd' hd (hid.symm.trans heq)
    obtain rfl : d' = d := Option.some.inj (hd'.symm.trans hd)
    exact hst (hst'.trans hel.online)
  · simp only [skippedLimited, List.mem_map] at hlim
    obtain ⟨l, hl, rfl⟩ := hlim
    obtain ⟨d', wait⟩ := l
    obtain rfl : d' = d.deviceId := heq
    exact allowed_not_limited (onlineIds_nodup hunique) hel.allowed hl

end Skipped

/-! ## Audit completeness -/

/-- The agent runs the command under the id of a row of the batch, inserted for its device
before the publish, and its device was not skipped. -/
structure Accounted (s s' : Fleet) (sha1 : List UInt8 → List UInt8)
    (batchId userId teamId : String) (input : DispatchCommandInput) (payload : CommandPayload)
    (a : Agent) : Prop where
  row : ∃ c, s'.commands.find? (a.commandID sha1 payload) = some c ∧
    c.batchId = some batchId ∧ s'.publicId c.deviceId = some a.deviceId
  notSkipped : ∀ skipped ∈ s.skippedTargets userId teamId input, skipped.deviceId ≠ a.deviceId

section Audited

variable {sha1 : List UInt8 → List UInt8} {batchId userId teamId : String}
  {input : DispatchCommandInput} {s s' : Fleet}

/-- The rows of the batch are those inserted for the eligible devices. -/
theorem mem_commandRows {id : String} {c : Command} :
    (id, c) ∈ commandRows sha1 batchId userId teamId input (s.finalTargets userId teamId input) →
      c.batchId = some batchId ∧ ∃ d, s.devices.find? c.deviceId = some d ∧
        s.Eligible userId teamId input d := by
  intro h
  simp only [commandRows, List.mem_map, Prod.mk.injEq] at h
  obtain ⟨t, ht, rfl, rfl⟩ := h
  obtain ⟨d, hd, -, hel⟩ := Fleet.eligible_of_mem ht
  exact ⟨rfl, d, hd, hel⟩

/-- Once the batch is in, an eligible device has its row. -/
theorem accounted_of_eligible (hunique : s.devices.UniqueOn (·.deviceId))
    (hins : s.insertSelected sha1 batchId userId teamId input = .ok s') {id : String}
    {d : Device} (hd : s.devices.find? id = some d) (hel : s.Eligible userId teamId input d)
    {payload : CommandPayload} {a : Agent} (ha : d.deviceId = a.deviceId)
    (hid : a.commandID sha1 payload = commandIdFor sha1 batchId a.deviceId) :
    Accounted s s' sha1 batchId userId teamId input payload a := by
  obtain ⟨-, -, hcommands, -, hdevices⟩ := Fleet.insertBatch_ok hins
  constructor
  · rw [hid, ← ha]
    have hrow : (commandIdFor sha1 batchId d.deviceId,
        commandRow sha1 batchId userId teamId input ⟨id, d.deviceId, d.status⟩) ∈
          commandRows sha1 batchId userId teamId input (s.finalTargets userId teamId input) :=
      List.mem_map.mpr ⟨_, hel.mem hd, rfl⟩
    refine ⟨_, (hcommands _ _).mpr (.inr (Fleet.mem_created.mpr ⟨_, hrow, rfl⟩)), rfl, ?_⟩
    simp [Fleet.publicId, hdevices, commandRow, hd]
  · intro skipped hsk
    exact ha ▸ eligible_not_skipped hunique hd hel hsk

/-- An agent that is accounted for belongs to an eligible device. -/
theorem eligible_of_accounted (hbatches : s.BatchesExist)
    (hins : s.insertSelected sha1 batchId userId teamId input = .ok s')
    {payload : CommandPayload} {a : Agent}
    (h : Accounted s s' sha1 batchId userId teamId input payload a) :
    ∃ id d, s.devices.find? id = some d ∧ d.deviceId = a.deviceId ∧
      s.Eligible userId teamId input d := by
  obtain ⟨hfresh, -, hcommands, -, hdevices⟩ := Fleet.insertBatch_ok hins
  obtain ⟨c, hc, hbatch, hpublic⟩ := h.row
  rcases (hcommands _ _).mp hc with hold | hnew
  · have := hbatches hold hbatch
    simp [hfresh] at this
  · obtain ⟨row, hmem, rfl⟩ := Fleet.mem_created.mp hnew
    obtain ⟨-, d, hd, hel⟩ := mem_commandRows hmem
    refine ⟨_, d, hd, ?_, hel⟩
    simpa [Fleet.publicId, hdevices, hd] using hpublic

end Audited

/-- Every agent that a dispatch reaches is accounted for, if and only if every agent that is
subscribed to the group of a broadcast belongs to an eligible device. -/
theorem dispatchCommand_audited (sha1 : List UInt8 → List UInt8)
    (batchId userId teamId : String) (input : DispatchCommandInput) (s : Fleet)
    (agents : List Agent) (hbatch : batchId ≠ "") (hunique : s.devices.UniqueOn (·.deviceId))
    (hbatches : s.BatchesExist) :
    (∀ topic payload s', Issues commandServer anyFate (.publishCommand topic payload) s'
        (dispatchCommand sha1 batchId userId teamId input) s →
      ∀ a ∈ agents, a.Receives topic →
        Accounted s s' sha1 batchId userId teamId input payload a) ↔
      ∀ groupId, s.BroadcastsTo sha1 batchId userId teamId input groupId →
        ∀ a ∈ agents, groupId ∈ a.groups → ∃ id d, s.devices.find? id = some d ∧
          d.deviceId = a.deviceId ∧ s.Eligible userId teamId input d := by
  constructor
  · rintro h groupId ⟨hgroup, heligible, s', hins⟩ a ha hsub
    have hne := Fleet.finalTargets_ne_nil.mpr heligible
    exact eligible_of_accounted hbatches hins
      (h _ _ s' (dispatchCommand_broadcasts hgroup hne hins) a ha hsub)
  · intro h topic payload s' hissues a ha hrec
    obtain ⟨hne, hins, issuedAt, hmsg⟩ := dispatchCommand_publishes hissues
    have hid := commandID_of_receives hbatch hmsg hrec
    unfold MessageOf at hmsg
    cases hgroup : broadcastGroup input with
    | some groupId =>
        rw [hgroup] at hmsg
        obtain ⟨rfl, -⟩ := hmsg
        obtain ⟨id, d, hd, hda, hel⟩ :=
          h groupId ⟨hgroup, Fleet.finalTargets_ne_nil.mp hne, s', hins⟩ a ha hrec
        exact accounted_of_eligible hunique hins hd hel hda hid
    | none =>
        rw [hgroup] at hmsg
        obtain ⟨t, ht, rfl, -⟩ := hmsg
        obtain ⟨d, hd, htd, hel⟩ := Fleet.eligible_of_mem ht
        exact accounted_of_eligible hunique hins hd hel (htd.symm.trans hrec.symm) hid

/-! ## A subscriber without a row -/

/-- A group of two devices, one of which the database believes offline. -/
def halfOnline : Fleet where
  clock := 0
  devices := ⟨[("first", { userId := "user", teamId := "team", deviceId := "dev-first"
                           name := "first", status := .online, groupId := some "group" }),
      ("second", { userId := "user", teamId := "team", deviceId := "dev-second"
                   name := "second", status := .offline, groupId := some "group" })],
    by simp⟩
  deviceGroups := ⟨[("group", { userId := "user", teamId := "team", name := "all" })],
    List.nodup_singleton _⟩
  batches := ∅
  commands := ∅
  outputs := ∅
  auditLogs := []
  limiter := fun _ _ ↦ []
  graceUntil := 0
  connected := true

/-- A broadcast to the group. -/
def groupBroadcast : DispatchCommandInput where
  command := "reboot"
  groupId := some "group"
  useBroadcastTopic := true

/-- The agents of both devices, subscribed to the group. -/
def subscribers : List Agent := [⟨"dev-first", ["group"]⟩, ⟨"dev-second", ["group"]⟩]

theorem halfOnline_unique : halfOnline.devices.UniqueOn (·.deviceId) :=
  Table.UniqueOn.of_nodup (by decide)

theorem halfOnline_batchesExist : halfOnline.BatchesExist := fun _ _ _ h ↦ (nomatch h)

/-- If only the first agent is subscribed, a broadcast to the group is accounted for. -/
theorem dispatchCommand_audited_online :
    halfOnline.finalTargets "user" "team" groupBroadcast ≠ [] ∧
    ∀ topic payload s', Issues commandServer anyFate (.publishCommand topic payload) s'
        (dispatchCommand List.reverse "batch" "user" "team" groupBroadcast) halfOnline →
      ∀ a ∈ subscribers.take 1, a.Receives topic →
        Accounted halfOnline s' List.reverse "batch" "user" "team" groupBroadcast payload a := by
  refine ⟨by decide, ?_⟩
  refine (dispatchCommand_audited List.reverse "batch" "user" "team" groupBroadcast halfOnline
    (subscribers.take 1) (by decide) halfOnline_unique halfOnline_batchesExist).mpr ?_
  intro groupId _ a ha _
  obtain rfl : a = ⟨"dev-first", ["group"]⟩ := by simpa [subscribers] using ha
  exact ⟨"first", _, rfl, rfl, rfl, rfl, rfl, by decide⟩

/-- The schema accepts the input, and the broadcast reaches the agent of the second device,
which has no row. -/
theorem dispatchCommand_unaudited : groupBroadcast.Accepted ∧
    ¬ ∀ topic payload s', Issues commandServer anyFate (.publishCommand topic payload) s'
        (dispatchCommand List.reverse "batch" "user" "team" groupBroadcast) halfOnline →
      ∀ a ∈ subscribers, a.Receives topic →
        Accounted halfOnline s' List.reverse "batch" "user" "team" groupBroadcast payload a := by
  refine ⟨by decide, fun h ↦ ?_⟩
  have hne : halfOnline.finalTargets "user" "team" groupBroadcast ≠ [] := by decide
  have hskip : (⟨"dev-second", "offline"⟩ : Skipped) ∈
      halfOnline.skippedTargets "user" "team" groupBroadcast := by decide
  exact (h _ _ _ (dispatchCommand_broadcasts rfl hne rfl) ⟨"dev-second", ["group"]⟩ (by decide)
    (by decide)).notSkipped _ hskip rfl

end Zenstier
