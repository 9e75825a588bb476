import Zenstier.Ai.Context
import Zenstier.Store.Owner

/-!
# Whose data the context is made of

The devices of the roster and of the snapshot are looked for by their team, and so are the commands
of the history.  What is said of them comes from other tables: the group of a device, its samples,
the device of a command.  As long as no foreign key leads to another team, all of it is a function
of the rows of the team.
-/

namespace Zenstier

open Store Store.Table

/-- The rows of one team, and the samples of its devices. -/
def ContextStore.ofTeam (db : ContextStore) (teamId : String) : ContextStore where
  groups := db.groups.rowsOf DeviceGroup.teamId teamId
  devices := db.devices.rowsOf Device.teamId teamId
  metrics := db.metrics.filter fun m ↦ (db.devices.find? m.deviceId).any (·.teamId = teamId)
  commands := db.commands.rowsOf Command.teamId teamId

/-- No foreign key crosses teams. -/
structure ContextStore.Separate (db : ContextStore) : Prop where
  devices : Refers Device.teamId DeviceGroup.teamId (fun _ d ↦ d.groupId) db.devices db.groups
  commands : Refers Command.teamId Device.teamId (fun _ c ↦ some c.deviceId) db.commands db.devices

namespace ContextStore

variable {L : Locale} {db : ContextStore} {teamId : String} {ids : List String}

theorem devices_ofTeam : ((db.ofTeam teamId).devices.findMany fun _ ↦ deviceInScope teamId ids) =
    db.devices.findMany fun _ ↦ deviceInScope teamId ids :=
  findMany_rowsOf fun _ _ h ↦ (of_decide_eq_true h).1

theorem team_of_mem {e : String × Device}
    (h : e ∈ db.devices.findMany fun _ ↦ deviceInScope teamId ids) :
    db.devices.find? e.1 = some e.2 ∧ e.2.teamId = teamId := by
  obtain ⟨hfind, hscope⟩ := Table.mem_findMany.mp h
  exact ⟨hfind, (of_decide_eq_true hscope).1⟩

/-! ## The roster -/

theorem rosterDevices_ofTeam : (db.ofTeam teamId).rosterDevices L teamId ids =
    db.rosterDevices L teamId ids := by
  rw [rosterDevices, rosterDevices, devices_ofTeam]

theorem rosterLine_ofTeam (h : db.Separate) {id : String} {d : Device}
    (hd : db.devices.find? id = some d) (hteam : d.teamId = teamId) :
    (db.ofTeam teamId).rosterLine d = db.rosterLine d := by
  have hgroup :
      d.groupId.bind (db.ofTeam teamId).groups.find? = d.groupId.bind db.groups.find? := by
    cases hgid : d.groupId with
    | none => rfl
    | some gid => exact h.devices.find?_rowsOf hd hteam hgid
  rw [rosterLine, rosterLine, hgroup]

theorem buildDeviceRoster_ofTeam (h : db.Separate) :
    (db.ofTeam teamId).buildDeviceRoster L teamId ids = db.buildDeviceRoster L teamId ids := by
  have hlines : (db.rosterDevices L teamId ids).map (fun d ↦ (db.ofTeam teamId).rosterLine d.2) =
      (db.rosterDevices L teamId ids).map fun d ↦ db.rosterLine d.2 := by
    refine List.map_congr_left fun e he ↦ ?_
    obtain ⟨hfind, hteam⟩ := team_of_mem (List.mem_mergeSort.mp (List.mem_of_mem_take he))
    exact rosterLine_ofTeam h hfind hteam
  simp only [buildDeviceRoster, rosterDevices_ofTeam, hlines]

/-! ## The snapshot -/

theorem latest_ofTeam {id : String} {d : Device} (hd : db.devices.find? id = some d)
    (hteam : d.teamId = teamId) : (db.ofTeam teamId).latest id = db.latest id := by
  rw [latest, latest, ofTeam, List.filter_filter]
  congr 1
  refine List.filter_congr fun m _ ↦ ?_
  by_cases hm : m.deviceId = id
  · simp [hm, hd, hteam]
  · simp [hm]

theorem buildMetricsSnapshot_ofTeam :
    (db.ofTeam teamId).buildMetricsSnapshot L teamId ids =
      db.buildMetricsSnapshot L teamId ids := by
  have hlines {devices : List (String × Device)} (h : ∀ e ∈ devices,
      db.devices.find? e.1 = some e.2 ∧ e.2.teamId = teamId) :
      devices.map ((db.ofTeam teamId).metricsLine L) = devices.map (db.metricsLine L) := by
    refine List.map_congr_left fun e he ↦ ?_
    obtain ⟨hfind, hteam⟩ := h e he
    rw [metricsLine, metricsLine, latest_ofTeam hfind hteam]
  simp only [buildMetricsSnapshot, devices_ofTeam]
  rw [hlines fun e he ↦ team_of_mem (List.mem_mergeSort.mp (List.mem_of_mem_take he))]

/-! ## The history -/

theorem device_ofTeam (h : db.Separate) {id : String} {c : Command}
    (hc : db.commands.find? id = some c) (hteam : c.teamId = teamId) :
    (db.ofTeam teamId).devices.find? c.deviceId = db.devices.find? c.deviceId :=
  h.commands.find?_rowsOf hc hteam rfl

theorem commands_ofTeam (h : db.Separate) :
    ((db.ofTeam teamId).commands.findMany fun _ ↦ (db.ofTeam teamId).commandInScope teamId ids) =
      db.commands.findMany fun _ ↦ db.commandInScope teamId ids := by
  have hscope : ((db.ofTeam teamId).commands.findMany fun _ ↦
      (db.ofTeam teamId).commandInScope teamId ids) =
      (db.ofTeam teamId).commands.findMany fun _ ↦ db.commandInScope teamId ids := by
    refine List.filter_congr fun e he ↦ ?_
    obtain ⟨hmem, hteam⟩ := List.mem_filter.mp he
    have hdevice := device_ofTeam h (find?_eq_some.mpr hmem) (by simpa using hteam)
    simp only [commandInScope, hdevice]
  rw [hscope]
  exact findMany_rowsOf fun _ _ hc ↦ (of_decide_eq_true hc).1

theorem historyBlock_ofTeam (h : db.Separate) {id : String} {c : Command}
    (hc : db.commands.find? id = some c) (hteam : c.teamId = teamId) :
    (db.ofTeam teamId).historyBlock c = db.historyBlock c := by
  have hname : (db.ofTeam teamId).deviceName c = db.deviceName c := by
    rw [deviceName, deviceName, device_ofTeam h hc hteam]
  rw [historyBlock, historyBlock, historyHeader, historyHeader, hname]

theorem buildHistoryContext_ofTeam (h : db.Separate) (limit : Nat) :
    (db.ofTeam teamId).buildHistoryContext teamId ids limit =
      db.buildHistoryContext teamId ids limit := by
  have hblocks : ((db.historyCommands teamId ids limit).reverse.map
      fun c ↦ (db.ofTeam teamId).historyBlock c.2) =
      (db.historyCommands teamId ids limit).reverse.map fun c ↦ db.historyBlock c.2 := by
    refine List.map_congr_left fun e he ↦ ?_
    have hmem := List.mem_mergeSort.mp (List.mem_of_mem_take (List.mem_reverse.mp he))
    obtain ⟨hfind, hscope⟩ := Table.mem_findMany.mp hmem
    exact historyBlock_ofTeam h hfind (of_decide_eq_true hscope).1
  have hcommands : (db.ofTeam teamId).historyCommands teamId ids limit =
      db.historyCommands teamId ids limit := by
    rw [historyCommands, historyCommands, commands_ofTeam h]
  simp only [buildHistoryContext, hcommands, hblocks]

end ContextStore

end Zenstier
