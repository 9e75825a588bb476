import Zenstier.Commands.Dispatch

/-!
# Dispatching within a team

`dispatchCommand` resolves its targets within the caller's team, and a per-device publish
goes to one of them.  The broadcast topic is built from the group id of the input, which
no query compares with the team: with explicit device ids it is not even used to resolve
the targets.
-/

namespace Zenstier

open Store Concurrent

/-- The topic is that of a device or of a group of the team. -/
def Topic.InTeam (s : Fleet) (teamId : String) (topic : Topic) : Prop :=
  (∃ id d, s.devices.find? id = some d ∧ d.teamId = teamId ∧
    topic.path = (Topic.command d.deviceId).path) ∨
  ∃ groupId g, s.deviceGroups.find? groupId = some g ∧ g.teamId = teamId ∧
    topic.path = (Topic.broadcastCommand groupId).path

/-- A broadcast topic is in the team if the group is, or if the id of a device of the team
imitates the topic. -/
theorem Topic.broadcast_inTeam {s : Fleet} {teamId groupId : String} :
    (Topic.broadcastCommand groupId).InTeam s teamId ↔
      (∃ g, s.deviceGroups.find? groupId = some g ∧ g.teamId = teamId) ∨
      ∃ id d, s.devices.find? id = some d ∧ d.teamId = teamId ∧
        d.deviceId = "broadcast/" ++ groupId := by
  constructor
  · rintro (⟨id, d, hd, hteam, hpath⟩ | ⟨g', g, hg, hteam, hpath⟩)
    · exact .inr ⟨id, d, hd, hteam, Topic.command_path_eq_broadcast.mp hpath.symm⟩
    · exact .inl ⟨g, Topic.broadcast_path_inj hpath ▸ hg, hteam⟩
  · rintro (⟨g, hg, hteam⟩ | ⟨id, d, hd, hteam, hid⟩)
    · exact .inr ⟨groupId, g, hg, hteam, rfl⟩
    · exact .inl ⟨id, d, hd, hteam, (Topic.command_path_eq_broadcast.mpr hid).symm⟩

/-- Every topic that a dispatch publishes to is in the caller's team, if and only if the
group of a broadcast is. -/
theorem dispatchCommand_in_team (sha1 : List UInt8 → List UInt8)
    (batchId userId teamId : String) (input : DispatchCommandInput) (s : Fleet) :
    (∀ topic payload s', Issues commandServer anyFate (.publishCommand topic payload) s'
        (dispatchCommand sha1 batchId userId teamId input) s → topic.InTeam s teamId) ↔
      ∀ groupId, s.BroadcastsTo sha1 batchId userId teamId input groupId →
        (∃ g, s.deviceGroups.find? groupId = some g ∧ g.teamId = teamId) ∨
        ∃ id d, s.devices.find? id = some d ∧ d.teamId = teamId ∧
          d.deviceId = "broadcast/" ++ groupId := by
  constructor
  · rintro h groupId ⟨hgroup, heligible, s', hs'⟩
    have hne := Fleet.finalTargets_ne_nil.mpr heligible
    exact Topic.broadcast_inTeam.mp (h _ _ s' (dispatchCommand_broadcasts hgroup hne hs'))
  · intro h topic payload s' hissues
    obtain ⟨hne, hins, issuedAt, hmsg⟩ := dispatchCommand_publishes hissues
    unfold MessageOf at hmsg
    cases hgroup : broadcastGroup input with
    | some groupId =>
        rw [hgroup] at hmsg
        obtain ⟨rfl, -⟩ := hmsg
        exact Topic.broadcast_inTeam.mpr
          (h groupId ⟨hgroup, Fleet.finalTargets_ne_nil.mp hne, s', hins⟩)
    | none =>
        rw [hgroup] at hmsg
        obtain ⟨t, ht, rfl, -⟩ := hmsg
        obtain ⟨d, hd, hid, hel⟩ := Fleet.eligible_of_mem ht
        exact .inl ⟨t.id, d, hd, hel.team, by rw [hid]⟩

/-! ## A broadcast into another team -/

/-- Two teams, each with a device; the other team's device is in a group. -/
def twoTeams : Fleet where
  clock := 0
  devices := ⟨[("own", { userId := "user", teamId := "team", deviceId := "dev-own", name := "own"
                         status := .online }),
      ("other", { userId := "stranger", teamId := "other-team", deviceId := "dev-other"
                  name := "other", status := .online, groupId := some "other-group" })],
    by simp⟩
  deviceGroups := ⟨[("other-group", { userId := "stranger", teamId := "other-team"
                                      name := "all" })], List.nodup_singleton _⟩
  batches := ∅
  commands := ∅
  outputs := ∅
  auditLogs := []
  limiter := fun _ _ ↦ []
  graceUntil := 0
  connected := true

/-- An input that names the caller's own device and the group of another team. -/
def foreignBroadcast : DispatchCommandInput where
  command := "reboot"
  deviceIds := ["dev-own"]
  groupId := some "other-group"
  useBroadcastTopic := true

/-- The schema accepts the input, and the dispatch publishes to the group of the other
team. -/
theorem dispatchCommand_leaves_team : foreignBroadcast.Accepted ∧
    ¬ ∀ topic payload s', Issues commandServer anyFate (.publishCommand topic payload) s'
      (dispatchCommand List.reverse "batch" "user" "team" foreignBroadcast) twoTeams →
        topic.InTeam twoTeams "team" := by
  refine ⟨by decide, fun h ↦ ?_⟩
  have hne : twoTeams.finalTargets "user" "team" foreignBroadcast ≠ [] := by decide
  have hids : ∀ e ∈ twoTeams.devices.entries, e.2.deviceId ≠ "broadcast/" ++ "other-group" := by
    decide
  rcases Topic.broadcast_inTeam.mp (h _ _ _ (dispatchCommand_broadcasts rfl hne rfl)) with
    ⟨g, hg, hteam⟩ | ⟨_, d, hd, -, hid⟩
  · cases hg
    exact absurd hteam (by decide)
  · exact hids _ (Table.find?_eq_some.mp hd) hid

end Zenstier
