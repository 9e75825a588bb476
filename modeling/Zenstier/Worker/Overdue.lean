import Zenstier.Commands.Terminal
import Mathlib.Data.List.Perm.Basic

/-!
# Commands that never end

The reaper is there to end a command whose agent does not report back.  Its query asks for
commands that have been marked dispatched, at most 200 of them and in no order, and only then
compares their deadlines with the clock.  A command whose dispatch failed on the way is not
marked, and a command that is overdue may be crowded out by others that are not.
-/

namespace Zenstier

open Store Concurrent Prog

/-! ## Deadlines -/

/-- When the agent should have reported back. -/
def Command.deadline (c : Command) : Int := c.dispatchedAt.getD c.createdAt + c.timeoutMs + 30000

/-- The command has not ended although its deadline has passed. -/
def Command.Stuck (now : Int) (c : Command) : Prop := ¬ IsTerminal c.status ∧ c.deadline ≤ now

/-- The reaper looks at the command. -/
def Command.Awaited (c : Command) : Prop :=
  (c.status = .dispatched ∨ c.status = .running) ∧ c.dispatchedAt.isSome

instance (c : Command) : Decidable c.Awaited := by unfold Command.Awaited; infer_instance

instance (now : Int) (c : Command) : Decidable (c.Stuck now) := by
  unfold Command.Stuck; infer_instance

/-- The commands the reaper may look at, in the order in which the database finds them. -/
def Fleet.awaited (s : Fleet) : List (String × Command) :=
  s.commands.findMany fun _ c ↦ decide c.Awaited

/-- What the query of the reaper returns. -/
def Fleet.overdue (s : Fleet) : List OverdueCommand :=
  (s.awaited.take 200).map fun e ↦
    ⟨e.1, e.2.timeoutMs, e.2.dispatchedAt, (s.publicId e.2.deviceId).getD ""⟩

theorem Fleet.serve_findOverdue (s : Fleet) : s.serve (.findOverdue 200) = (.ok s.overdue, s) := by
  rfl

/-! ## A pass of the reaper -/

section Pass

variable {s : Fleet}

/-- What has become of the commands of `s` when the commands `rest` are still to be looked
at. -/
structure Expiring (s : Fleet) (overdue rest : List OverdueCommand) (t : Fleet) : Prop where
  clock : t.clock = s.clock
  exist : ∀ o ∈ rest, (t.commands.find? o.id).isSome
  rows : ∀ id c, t.commands.find? id = some c → c.status = .timeout ∨ s.commands.find? id = some c
  expired : ∀ o ∈ overdue, o ∈ rest ∨ s.clock < o.dispatchedAt.getD s.clock + o.timeoutMs + 30000 ∨
    ∀ c, t.commands.find? o.id = some c → c.status = .timeout
  kept : ∀ id, (∀ o ∈ overdue, o.id ≠ id) → t.commands.find? id = s.commands.find? id

/-- One turn of the loop. -/
theorem wp_expireOverdue {overdue rest : List OverdueCommand} {o : OverdueCommand} {t : Fleet}
    (ho : o ∈ overdue) (h : Expiring s overdue (o :: rest) t) :
    wp commandServer noFailure (fun _ _ _ ↦ True)
      (fun r t ↦ r = .ok () ∧ Expiring s overdue rest t) (expireOverdue s.clock o) t := by
  have hexist : ∀ o' ∈ rest, (t.commands.find? o'.id).isSome := fun o' ho' ↦
    h.exist o' (List.mem_cons_of_mem _ ho')
  dsimp only [expireOverdue]
  split
  · rename_i hdue
    refine ⟨rfl, h.clock, hexist, h.rows, fun o' ho' ↦ ?_, h.kept⟩
    rcases h.expired o' ho' with hrest | hdone
    · rcases List.mem_cons.mp hrest with rfl | hrest
      · exact .inr (.inl hdue)
      · exact .inl hrest
    · exact .inr hdone
  · refine wp_await_served trivial rfl ?_
    have hsome : ¬ (t.commands.find? o.id).isNone := by
      rw [Option.isNone_iff_eq_none, ← ne_eq, Option.ne_none_iff_isSome]
      exact h.exist o List.mem_cons_self
    have hserve : ∀ finishedAt error, commandServer.serve (.expire o.id finishedAt error) t =
        (.ok (), { t with commands := t.commands.update o.id ({ · with
          status := .timeout, finishedAt := some finishedAt, error := some error }) }) := by
      intro finishedAt error
      rw [commandServer_serve, Fleet.serve, Fleet.updateCommand, if_neg hsome, Fleet.commit_ok]
    refine wp_await_served trivial (hserve _ _) ⟨trivial, ?_⟩
    rintro f rfl
    refine ⟨rfl, h.clock, fun o' ho' ↦ ?_, fun id c hc ↦ ?_, fun o' ho' ↦ ?_, fun id hid ↦ ?_⟩
    · simp only [Server.after_served, commandServer_serve, Fleet.serve, Table.find?_update]
      split
      · rw [Option.isSome_map]
        exact hexist o' ho'
      · exact hexist o' ho'
    · simp only [Server.after_served, commandServer_serve, Fleet.serve] at hc
      rcases Table.find?_update_eq_some hc with ⟨c', -, -, rfl⟩ | ⟨-, hc⟩
      · exact .inl rfl
      · exact h.rows id c hc
    · simp only [Server.after_served, commandServer_serve, Fleet.serve, Table.find?_update]
      by_cases hid : o'.id = o.id
      · refine .inr (.inr fun c hc ↦ ?_)
        rw [if_pos hid] at hc
        obtain ⟨c', -, rfl⟩ := Option.map_eq_some_iff.mp hc
        rfl
      · rw [if_neg hid]
        rcases h.expired o' ho' with hrest | hdone
        · rcases List.mem_cons.mp hrest with rfl | hrest
          · exact absurd rfl hid
          · exact .inl hrest
        · exact .inr hdone
    · simp only [Server.after_served, commandServer_serve, Fleet.serve, Table.find?_update]
      rw [if_neg fun heq ↦ hid o ho heq.symm]
      exact h.kept id hid

/-- What a pass of the reaper leaves. -/
structure Reaped (s t : Fleet) : Prop where
  /-- A command is as before, unless it has been expired. -/
  rows : ∀ id c, t.commands.find? id = some c → c.status = .timeout ∨ s.commands.find? id = some c
  /-- Whatever the query returns is expired if its deadline has passed. -/
  expired : ∀ id c, (id, c) ∈ s.awaited.take 200 → c.deadline ≤ s.clock →
    ∀ c', t.commands.find? id = some c' → c'.status = .timeout
  /-- Whatever it does not return is left alone. -/
  kept : ∀ id, id ∉ (s.awaited.take 200).map (·.1) → t.commands.find? id = s.commands.find? id

/-- The second half of a pass. -/
theorem wp_reapOverdue {t : Fleet} (hclock : t.clock = s.clock)
    (hcommands : t.commands = s.commands) :
    wp commandServer noFailure (fun _ _ _ ↦ True) (fun r t ↦ r = .ok () ∧ Reaped s t)
      reapOverdue t := by
  have hawaited : t.awaited = s.awaited := by rw [Fleet.awaited, hcommands, ← Fleet.awaited]
  refine wp_await_served trivial t.serve_findOverdue ?_
  refine wp_await_served trivial rfl ?_
  have hstart : Expiring t t.overdue t.overdue t := by
    refine ⟨rfl, fun o ho ↦ ?_, fun id c hc ↦ .inr hc, fun o ho ↦ .inl ho, fun _ _ ↦ rfl⟩
    obtain ⟨⟨id, c⟩, he, rfl⟩ := List.mem_map.mp ho
    rw [(Table.mem_findMany.mp (List.mem_of_mem_take he)).1]
    rfl
  refine wp_forM (I := fun rest t' ↦ (∀ o ∈ rest, o ∈ t.overdue) ∧
    Expiring t t.overdue rest t') t.overdue ?_ ?_ ⟨fun _ ho ↦ ho, hstart⟩
  · rintro o rest t' ⟨hmem, h⟩
    refine wp_mono (wp_expireOverdue (hmem o List.mem_cons_self) h) ?_
    rintro r t'' ⟨rfl, h⟩
    exact ⟨fun o' ho' ↦ hmem o' (List.mem_cons_of_mem _ ho'), h⟩
  · rintro t' ⟨-, h⟩
    refine ⟨rfl, fun id c hc ↦ ?_, fun id c hmem hdue c' hc' ↦ ?_, fun id hid ↦ ?_⟩
    · exact hcommands ▸ h.rows id c hc
    · have hawait : c.Awaited := by
        have := (Table.mem_findMany.mp (List.mem_of_mem_take hmem)).2
        exact of_decide_eq_true this
      obtain ⟨dispatchedAt, hat⟩ := Option.isSome_iff_exists.mp hawait.2
      rw [Command.deadline, hat, Option.getD_some] at hdue
      rcases h.expired ⟨id, c.timeoutMs, c.dispatchedAt, (t.publicId c.deviceId).getD ""⟩
        (List.mem_map.mpr ⟨(id, c), hawaited ▸ hmem, rfl⟩) with hrest | hlate | hdone
      · cases hrest
      · simp only [hat, Option.getD_some] at hlate
        omega
      · exact hdone c' hc'
    · rw [h.kept id, hcommands]
      rintro o ho rfl
      obtain ⟨e, he, rfl⟩ := List.mem_map.mp ho
      exact hid (List.mem_map_of_mem (hawaited ▸ he))

/-- The first half. -/
theorem wp_reapStale {s : Fleet} : wp commandServer noFailure (fun _ _ _ ↦ True)
    (fun r t ↦ r = .ok () ∧ t.clock = s.clock ∧ t.commands = s.commands) reapStale s := by
  refine wp_await_served trivial rfl ?_
  refine wp_await_served trivial rfl ?_
  refine wp_forM (I := fun rest t ↦ (∀ deviceId ∈ rest, ∃ id d, t.devices.find? id = some d ∧
    d.deviceId = deviceId) ∧ t.clock = s.clock ∧ t.commands = s.commands) _ ?_ ?_ ?_
  · rintro deviceId rest t ⟨hexist, hclock, hcommands⟩
    obtain ⟨id, d, hd, hid⟩ := hexist deviceId List.mem_cons_self
    have hsome : ¬ (t.devices.findFirst fun _ d ↦ d.deviceId = deviceId).isNone := by
      intro hnone
      have := Table.findFirst_eq_none (Option.isNone_iff_eq_none.mp hnone) hd
      exact of_decide_eq_false this hid
    refine wp_await_served trivial (by
      rw [commandServer_serve, Fleet.serve, Fleet.markOffline, if_neg hsome, Fleet.commit_ok]) ?_
    refine ⟨trivial, ?_⟩
    rintro f rfl
    refine ⟨fun deviceId' hmem ↦ ?_, hclock, hcommands⟩
    obtain ⟨id', d', hd', hid'⟩ := hexist deviceId' (List.mem_cons_of_mem _ hmem)
    have hfind := Table.find?_updateMany t.devices (fun _ d ↦ decide (d.deviceId = deviceId))
      ({ · with status := .offline }) id'
    rw [hd', Option.map_some] at hfind
    refine ⟨id', _, hfind, ?_⟩
    split
    · exact hid'
    · exact hid'
  · exact fun t h ↦ ⟨rfl, h.2⟩
  · refine ⟨fun deviceId hmem ↦ ?_, rfl, rfl⟩
    obtain ⟨⟨id, d⟩, he, rfl⟩ := List.mem_map.mp hmem
    exact ⟨id, d, (Table.mem_findMany.mp he).1, rfl⟩

/-- A pass that is not held back runs to its end. -/
theorem wp_reap (hgrace : s.graceUntil ≤ s.clock) (hconnected : s.connected = true) :
    wp commandServer noFailure (fun _ _ _ ↦ True) (fun r t ↦ r = .ok () ∧ Reaped s t) reap s := by
  refine wp_await_served trivial rfl ?_
  refine wp_await_served trivial rfl ?_
  rw [if_neg (by omega)]
  refine wp_await_served trivial rfl ?_
  rw [hconnected, if_neg (by decide)]
  refine (wp_bind _ _ _).mpr (wp_mono wp_reapStale ?_)
  rintro r t ⟨rfl, hclock, hcommands⟩
  exact wp_reapOverdue hclock hcommands

/-- The state that a pass of the reaper leaves. -/
def Fleet.reaped (s : Fleet) : Fleet := (run commandServer [] reap s).2

theorem Fleet.reaped_of_run (hgrace : s.graceUntil ≤ s.clock) (hconnected : s.connected = true) :
    (run commandServer [] reap s).1 = .ok () ∧ Reaped s s.reaped :=
  (Eval.of_run_served reap s).of_wp (wp_reap hgrace hconnected)

/-- Every command whose deadline has passed has ended. -/
def Fleet.NoneStuck (now : Int) (s : Fleet) : Prop :=
  ∀ id c, s.commands.find? id = some c → ¬ c.Stuck now

/-- The same commands, in another order. -/
def Fleet.Rearranged (s s' : Fleet) : Prop :=
  ∃ commands : Table String Command, commands.entries.Perm s.commands.entries ∧
    s' = { s with commands }

theorem Fleet.Rearranged.find? {s' : Fleet} (h : s.Rearranged s') {id : String} {c : Command} :
    s'.commands.find? id = some c ↔ s.commands.find? id = some c := by
  obtain ⟨commands, hperm, rfl⟩ := h
  rw [Table.find?_eq_some, Table.find?_eq_some]
  exact hperm.mem_iff

theorem Fleet.Rearranged.awaited {s' : Fleet} (h : s.Rearranged s') :
    s'.awaited.Perm s.awaited := by
  obtain ⟨commands, hperm, rfl⟩ := h
  exact hperm.filter _

theorem Fleet.mem_awaited {id : String} {c : Command} :
    (id, c) ∈ s.awaited ↔ s.commands.find? id = some c ∧ c.Awaited := by
  rw [Fleet.awaited, Table.mem_findMany, decide_eq_true_iff]

/-- A command may be found last. -/
theorem Fleet.exists_rearranged {id : String} {c : Command}
    (h : s.commands.find? id = some c) : ∃ s', s.Rearranged s' ∧
      ∃ before, s'.commands.entries = before ++ [(id, c)] := by
  have hmem := Table.find?_eq_some.mp h
  have hperm : (s.commands.entries.erase (id, c) ++ [(id, c)]).Perm s.commands.entries :=
    (List.perm_append_singleton ..).trans (List.perm_cons_erase hmem).symm
  have hnodup := (hperm.map Prod.fst).nodup_iff.mpr s.commands.nodupKeys
  exact ⟨_, ⟨⟨_, hnodup⟩, hperm, rfl⟩, _, rfl⟩

/-- A command that is found last is not among the first 200 of more. -/
theorem Fleet.not_mem_take_awaited {id : String} {c : Command} {before : List (String × Command)}
    (h : s.commands.entries = before ++ [(id, c)]) (hlength : 200 < s.awaited.length) :
    id ∉ (s.awaited.take 200).map (·.1) := by
  have hnodup := s.commands.nodupKeys
  rw [h, List.map_append, List.nodup_append] at hnodup
  have hfresh : id ∉ before.map (·.1) := fun hid ↦
    hnodup.2.2 id hid id (List.mem_singleton.mpr rfl) rfl
  have hawaited : s.awaited = before.filter (fun e ↦ decide e.2.Awaited) ++
      [(id, c)].filter fun e ↦ decide e.2.Awaited := by
    rw [← List.filter_append, ← h]
    rfl
  have hle : ([(id, c)].filter fun e : String × Command ↦ decide e.2.Awaited).length ≤ 1 :=
    List.length_filter_le _ _
  have hmore : 200 ≤ (before.filter fun e ↦ decide e.2.Awaited).length := by
    rw [hawaited, List.length_append] at hlength
    omega
  rw [hawaited, List.take_append_of_le_length hmore]
  intro hid
  obtain ⟨e, he, rfl⟩ := List.mem_map.mp hid
  exact hfresh (List.mem_map_of_mem (List.mem_filter.mp (List.mem_of_mem_take he)).1)

/-- A pass of the reaper leaves no command stuck, in whatever order the database has them, if
and only if every command that is overdue has been marked dispatched, and either the query
returns all that it looks for or no command is overdue. -/
theorem reap_leaves_none_stuck (s : Fleet) (hgrace : s.graceUntil ≤ s.clock)
    (hconnected : s.connected = true) :
    (∀ s', s.Rearranged s' → s'.reaped.NoneStuck s.clock) ↔
      (∀ id c, s.commands.find? id = some c → c.Stuck s.clock → c.Awaited) ∧
      (s.awaited.length ≤ 200 ∨ s.NoneStuck s.clock) := by
  have hpass : ∀ s', s.Rearranged s' → Reaped s' s'.reaped ∧ s'.clock = s.clock := by
    rintro s' ⟨commands, -, rfl⟩
    exact ⟨(Fleet.reaped_of_run (s := { s with commands }) hgrace hconnected).2, rfl⟩
  constructor
  · intro h
    have hawaited : ∀ id c, s.commands.find? id = some c → c.Stuck s.clock → c.Awaited := by
      intro id c hc hstuck
      by_contra hnot
      have hself : s.Rearranged s := ⟨s.commands, .refl _, rfl⟩
      refine h s hself id c ?_ hstuck
      rw [(hpass s hself).1.kept id, hc]
      intro hmem
      obtain ⟨e, he, rfl⟩ := List.mem_map.mp hmem
      obtain ⟨he, hawait⟩ := Fleet.mem_awaited.mp (List.mem_of_mem_take he)
      rw [hc] at he
      cases he
      exact hnot hawait
    refine ⟨hawaited, ?_⟩
    by_contra hboth
    push Not at hboth
    obtain ⟨hlength, hstuck⟩ := hboth
    unfold Fleet.NoneStuck at hstuck
    push Not at hstuck
    obtain ⟨id, c, hc, hstuck⟩ := hstuck
    obtain ⟨s', hs', before, hbefore⟩ := Fleet.exists_rearranged hc
    refine h s' hs' id c ?_ hstuck
    rw [(hpass s' hs').1.kept id, hs'.find?, hc]
    exact Fleet.not_mem_take_awaited hbefore (hs'.awaited.length_eq ▸ hlength)
  · rintro ⟨hawaited, hroom⟩ s' hs' id c hc hstuck
    obtain ⟨hreaped, hclock⟩ := hpass s' hs'
    have hopen : c.status ≠ .timeout := fun h ↦ hstuck.1 (by rw [h]; decide)
    have hc' := hs'.find?.mp ((hreaped.rows id c hc).resolve_left hopen)
    have hlength : s'.awaited.length ≤ 200 := by
      rw [hs'.awaited.length_eq]
      exact hroom.resolve_right fun h ↦ h id c hc' hstuck
    refine hopen (hreaped.expired id c ?_ (hclock ▸ hstuck.2) c hc)
    rw [List.take_of_length_le hlength]
    exact Fleet.mem_awaited.mpr ⟨hs'.find?.mpr hc', hawaited id c hc' hstuck⟩

end Pass

/-! ## A command in time, and one that was never marked -/

/-- A command that was dispatched at the beginning, and has not been heard of for a while. -/
def unanswered : Fleet :=
  { oneDevice with
    clock := 100000
    commands := ⟨[("cmd",
      { userId := "user", teamId := "team", deviceId := "row", batchId := none
        correlationId := "cmd", command := "uptime", status := .dispatched
        dispatchedAt := some 0 })], List.nodup_singleton _⟩ }

/-- It does not survive a pass of the reaper. -/
theorem reap_leaves_none_stuck_unanswered :
    (∃ c, unanswered.commands.find? "cmd" = some c ∧ c.Stuck 100000) ∧
    ∀ s', unanswered.Rearranged s' → s'.reaped.NoneStuck 100000 := by
  refine ⟨⟨_, rfl, by decide⟩, ?_⟩
  refine (reap_leaves_none_stuck unanswered (by decide) rfl).mpr ⟨?_, .inl (by decide)⟩
  intro id c hc _
  cases List.mem_singleton.mp (Table.find?_eq_some.mp hc)
  decide

/-- A dispatch. -/
def failingDispatch : Fin 1 → CommandCall
  | 0 => .dispatch "batch" "user" "team" { command := "uptime", deviceIds := ["dev"] }

/-- The publish of a dispatch fails, so that its command is never marked as dispatched, and the
reaper does not see it. -/
theorem reap_leaves_stuck : ∃ c : Pool (Fin 1) CommandOp Err Unit Fleet,
    Reach (Pool.step commandServer FleetEvent.apply) (fun _ _ ↦ True)
      ⟨oneDevice, fun i ↦ (failingDispatch i).prog List.reverse⟩ c ∧
    c.shared.graceUntil ≤ c.shared.clock ∧ c.shared.connected = true ∧
    ¬ c.shared.reaped.NoneStuck c.shared.clock := by
  obtain ⟨c, hc, hgrace, hconnected, hstuck⟩ : ∃ c : Pool (Fin 1) CommandOp Err Unit Fleet,
      Reach (Pool.step commandServer FleetEvent.apply) (fun _ _ ↦ True)
        ⟨oneDevice, fun i ↦ (failingDispatch i).prog List.reverse⟩ c ∧
      c.shared.graceUntil ≤ c.shared.clock ∧ c.shared.connected = true ∧
      (c.shared.reaped.commands.find? exampleCommand).any fun row ↦
        decide (row.Stuck c.shared.clock) :=
    Reach.exists_of_exec (List.replicate 4 (.run 0 .served) ++
      [.run 0 (.refused (.error "publish timed out")), .env (.tick 100000)]) (by decide)
  refine ⟨c, hc, hgrace, hconnected, fun h ↦ ?_⟩
  obtain ⟨row, hrow, hstuck⟩ := (Option.any_eq_true _ _).mp hstuck
  exact h exampleCommand row hrow (of_decide_eq_true hstuck)

end Zenstier
