import Zenstier.Concurrent.Fates
import Zenstier.Groups.Service

/-!
# The names of device groups

The console finds a group by its name, so no two groups of a team should have the same.
`createGroup` looks for a group of the team with the name; `renameGroup` does not.  The
constraint of the database is on the user who has made the group, and knows nothing of teams: two
members may have a group of the same name each, and a user who is in two teams may not.
-/

namespace Zenstier

open Store Concurrent

namespace GroupStore

variable (s : GroupStore) (teamId : String)

/-- No two groups of the team have the same name. -/
def DistinctNames : Prop :=
  ∀ ⦃k k' g g'⦄, s.deviceGroups.find? k = some g → s.deviceGroups.find? k' = some g' →
    g.teamId = teamId → g'.teamId = teamId → g.name = g'.name → k = k'

/-- No group of the team but this one has the name. -/
def FreeFor (id name : String) : Prop :=
  ∀ ⦃k g⦄, s.deviceGroups.find? k = some g → g.teamId = teamId → g.name = name → k = id

variable {s teamId} {t : GroupStore}

theorem DistinctNames.congr (h : s.DistinctNames teamId) (ht : t.deviceGroups = s.deviceGroups) :
    t.DistinctNames teamId := by
  unfold DistinctNames
  rw [ht]
  exact h

theorem nameTaken_iff {id userId name : String} :
    s.nameTaken id userId name = true ↔
      ∃ k g, s.deviceGroups.find? k = some g ∧ k ≠ id ∧ g.userId = userId ∧ g.name = name := by
  rw [nameTaken, Option.isSome_iff_exists]
  constructor
  · rintro ⟨⟨k, g⟩, hg⟩
    obtain ⟨hfind, hp⟩ := Table.findFirst_eq_some hg
    exact ⟨k, g, hfind, of_decide_eq_true hp⟩
  · rintro ⟨k, g, hfind, hp⟩
    by_contra hnone
    rw [← Option.isSome_iff_exists, Option.not_isSome_iff_eq_none] at hnone
    have := Table.findFirst_eq_none hnone hfind
    simp_all

/-- A group with a name that no group of the team has. -/
theorem DistinctNames.insert {id : String} {row : DeviceGroup}
    {deviceGroups : Table String DeviceGroup} (h : s.DistinctNames teamId)
    (hinsert : s.deviceGroups.insert id row = some deviceGroups)
    (hfree : row.teamId = teamId → s.FreeFor teamId id row.name) :
    { s with deviceGroups }.DistinctNames teamId := by
  have hnone := (Table.insert_eq_some hinsert).1
  intro k k' g g' hk hk' hg hg' hname
  dsimp only at hk hk'
  rw [Table.find?_insert hinsert] at hk hk'
  split at hk <;> split at hk'
  · rename_i hid hid'
    rw [hid, hid']
  · rename_i hid hid'
    cases hk
    exact absurd (hfree hg hk' hg' hname.symm) hid'
  · rename_i hid hid'
    cases hk'
    exact absurd (hfree hg' hk hg hname) hid
  · exact h hk hk' hg hg' hname

theorem DistinctNames.create {id : String} {row : DeviceGroup} (h : s.DistinctNames teamId)
    (hfree : row.teamId = teamId → s.FreeFor teamId id row.name) :
    (s.serve (.createGroup id row)).2.DistinctNames teamId := by
  rw [serve]
  cases hcreate : s.createGroup id row with
  | error e => exact h
  | ok t =>
      unfold createGroup at hcreate
      split at hcreate
      · cases hcreate
      split at hcreate
      · cases hcreate
      · rename_i hinsert
        cases hcreate
        exact h.insert hinsert hfree

theorem DistinctNames.delete (h : s.DistinctNames teamId) (id : String) :
    (s.serve (.deleteGroup id)).2.DistinctNames teamId := by
  rw [serve, deleteGroup]
  split
  · exact h
  intro k k' g g' hk hk'
  simp only [commit_ok, Table.find?_delete] at hk hk'
  split at hk <;> [cases hk; skip]
  split at hk' <;> [cases hk'; skip]
  exact h hk hk'

/-- An update of the name does no harm, just if the constraint refuses it or the name is free. -/
theorem distinctNames_update (h : s.DistinctNames teamId) {id name : String} {row : DeviceGroup}
    (hrow : s.deviceGroups.find? id = some row) (hteam : row.teamId = teamId) :
    (s.serve (.updateGroup id name)).2.DistinctNames teamId ↔
      s.nameTaken id row.userId name = true ∨ s.FreeFor teamId id name := by
  rw [serve, updateGroup, hrow]
  dsimp only
  split
  · rename_i htaken
    exact iff_of_true h (.inl htaken)
  rename_i htaken
  have hfind : ∀ k, (s.deviceGroups.update id ({ · with name })).find? k =
      if k = id then some { row with name } else s.deviceGroups.find? k := by
    intro k
    rw [Table.find?_update]
    split
    · rename_i hk
      rw [hk, hrow]
      rfl
    · rfl
  simp only [htaken, Bool.false_eq_true, false_or, commit_ok]
  constructor
  · intro hdistinct k g hk hg hname
    by_contra hne
    refine hne (@hdistinct k id g { row with name } ?_ ?_ hg hteam hname)
    · rw [hfind, if_neg hne, hk]
    · rw [hfind, if_pos rfl]
  · intro hfree k k' g g' hk hk' hg hg' hname
    dsimp only at hk hk'
    rw [hfind] at hk hk'
    split at hk <;> split at hk'
    · rename_i hid hid'
      rw [hid, hid']
    · rename_i hid hid'
      cases hk
      exact absurd (hfree hk' hg' hname.symm) hid'
    · rename_i hid hid'
      cases hk'
      exact absurd (hfree hk hg hname) hid
    · exact h hk hk' hg hg' hname

/-- An update of a group of another team. -/
theorem DistinctNames.rename_elsewhere (h : s.DistinctNames teamId) {id name : String}
    {row : DeviceGroup} (hrow : s.deviceGroups.find? id = some row) (hteam : row.teamId ≠ teamId) :
    (s.serve (.updateGroup id name)).2.DistinctNames teamId := by
  rw [serve, updateGroup, hrow]
  dsimp only
  split
  · exact h
  have hfind : ∀ {k g}, (s.deviceGroups.update id ({ · with name })).find? k = some g →
      g.teamId = teamId → s.deviceGroups.find? k = some g := by
    intro k g hk hg
    rcases Table.find?_update_eq_some hk with ⟨g', rfl, hg', rfl⟩ | ⟨-, hk⟩
    · obtain rfl := Option.some.inj (hrow.symm.trans hg')
      exact absurd hg hteam
    · exact hk
  intro k k' g g' hk hk' hg hg' hname
  exact h (hfind hk hg) (hfind hk' hg') hg hg' hname

/-- A request that neither creates nor renames a group. -/
def Nameless : ∀ β : Type, GroupOp β → Prop
  | _, .createGroup .. | _, .updateGroup .. => False
  | _, _ => True

theorem DistinctNames.after (h : s.DistinctNames teamId) {β : Type} {op : GroupOp β}
    (hop : Nameless β op) (f : Fate Err) : (groupServer.after f op s).DistinctNames teamId := by
  refine Server.after_of (fun t : GroupStore ↦ t.DistinctNames teamId) h ?_ f
  cases op with
  | createGroup => exact hop.elim
  | updateGroup => exact hop.elim
  | deleteGroup id => exact h.delete id
  | updateDevice id groupId =>
      rw [groupServer_serve, serve, updateDevice]
      split
      · exact h
      split
      · exact h
      · exact h.congr rfl
  | _ => exact h.congr rfl

end GroupStore

/-! ## Calls -/

/-- A call, with the ids that the database makes up. -/
inductive GroupCall
  | create (id actorId teamId name : String)
  | rename (actorId teamId groupId name : String)
  | delete (notifyId : String → String) (actorId teamId groupId : String)

namespace GroupCall

open GroupStore

-- No call depends on what is left of a name.
seal trim

def prog : GroupCall → GroupM Unit
  | .create id actorId teamId name => createGroup id actorId teamId name
  | .rename actorId teamId groupId name => renameGroup actorId teamId groupId name
  | .delete notifyId actorId teamId groupId => deleteGroup notifyId actorId teamId groupId

/-- When the update of `renameGroup` takes effect on a group of the team, the name is free, or the
constraint refuses it. -/
def Heedful (teamId : String) (call : GroupCall) : Admits GroupOp Err GroupStore :=
  fun _ op f s ↦ match call, op with
  | .rename .., .updateGroup id name => (∀ e, f ≠ .refused e) →
      ∀ row, s.deviceGroups.find? id = some row → row.teamId = teamId →
        s.nameTaken id row.userId name = true ∨ s.FreeFor teamId id name
  | _, _ => True

/-- What others do in between: everything but the groups may change. -/
def otherwise (t s : GroupStore) : GroupStore := { t with deviceGroups := s.deviceGroups }

/-! ### What a call keeps -/

/-- The weakest precondition over the stores; the requests themselves are not restricted. -/
abbrev wps {α : Type} (adm : Admits GroupOp Err GroupStore) (Q : Except Err α → GroupStore → Prop) :
    GroupM α → GroupStore → Prop :=
  wp groupServer adm (fun _ _ _ ↦ True) Q

variable {teamId : String} {s : GroupStore} {adm : Admits GroupOp Err GroupStore}

theorem wps_nameless {α : Type} {p : GroupM α} (hp : Prog.Only Nameless p)
    (h : s.DistinctNames teamId) : wps adm (fun _ t ↦ t.DistinctNames teamId) p s :=
  wp_of_only (fun _ _ _ f hop hs _ ↦ hs.after hop f) (fun _ _ _ _ _ ↦ trivial) hp h

theorem nameless_sendControl (command : GroupControl) (tolerate : List String) :
    Prog.Only Nameless (sendControl command tolerate) :=
  .await trivial fun _ ↦ (Prog.only_ofExcept _).mpr trivial

theorem nameless_provisionGroup (groupId : String) : Prog.Only Nameless (provisionGroup groupId) :=
  (nameless_sendControl _ _).bind fun _ ↦ nameless_sendControl _ _

theorem nameless_logged {p : GroupM Unit} (hp : Prog.Only Nameless p) :
    Prog.Only Nameless (logged p) :=
  hp.tryCatch fun _ ↦ (Prog.only_pure _).mpr trivial

theorem nameless_notify (id deviceId : String) (groups : List String) :
    Prog.Only Nameless (notifyGroupsChanged id deviceId groups) :=
  .await trivial fun _ ↦ .await trivial fun _ ↦ (Prog.only_perform _).mpr trivial

theorem nameless_delete (notifyId : String → String) (actorId teamId groupId : String) :
    Prog.Only Nameless (deleteGroup notifyId actorId teamId groupId) := by
  refine .await trivial fun found ↦ ?_
  cases found with
  | none => trivial
  | some found =>
      exact (Prog.Only.forM _ fun d _ ↦ nameless_logged (nameless_sendControl _ _)).bind fun _ ↦
        (nameless_sendControl _ _).bind fun _ ↦ (nameless_sendControl _ _).bind fun _ ↦
        .await trivial fun _ ↦
        (Prog.Only.forM _ fun d _ ↦ nameless_logged (nameless_notify _ _ _)).bind fun _ ↦
        (Prog.only_perform _).mpr trivial

/-- What `createGroup` does once it has created the row. -/
theorem nameless_provision (id actorId teamId : String) :
    Prog.Only Nameless ((provisionGroup id).tryCatch (fun err ↦ do
        .perform (.deleteGroup id)
        throw (.group ("Could not provision the group on the broker: " ++ err.toString))) >>=
      fun _ ↦ .perform (.createAuditLog (groupAudit actorId teamId id .deviceGroupCreated))) := by
  refine Prog.Only.bind (Prog.Only.tryCatch (nameless_provisionGroup id) fun err ↦ ?_) fun _ ↦
    (Prog.only_perform _).mpr trivial
  exact .await trivial fun _ ↦ (Prog.only_throw _).mpr trivial

theorem wps_create (id actorId callTeam name : String) (h : s.DistinctNames teamId) :
    wps adm (fun _ t ↦ t.DistinctNames teamId) (createGroup id actorId callTeam name) s := by
  unfold createGroup
  dsimp only
  split
  · exact h
  refine wp_await_read trivial rfl ?_ fun _ ↦ h
  split
  · exact h
  rename_i hnone
  have hfree : callTeam = teamId → s.FreeFor teamId id (trim name) := by
    rintro rfl k g hk hg hname
    have := Table.findFirst_eq_none hnone hk
    simp_all
  have hcreated : (s.serve (.createGroup id ⟨actorId, callTeam, trim name⟩)).2.DistinctNames
      teamId := h.create hfree
  refine wp_await trivial (fun _ ↦ ?_) (fun _ _ ↦ h) fun _ _ ↦ hcreated
  refine (wp_bind _ _ _).mpr ((wp_ofExcept _ _).mpr ?_)
  cases (groupServer.serve (.createGroup id ⟨actorId, callTeam, trim name⟩) s).1 with
  | error e => exact hcreated
  | ok _ => exact wps_nameless (nameless_provision id actorId callTeam) hcreated

theorem wps_rename (actorId callTeam groupId name : String) (h : s.DistinctNames teamId) :
    wps (Heedful teamId (.rename actorId callTeam groupId name)) (fun _ t ↦ t.DistinctNames teamId)
      (renameGroup actorId callTeam groupId name) s := by
  unfold renameGroup
  dsimp only
  split
  · exact h
  refine wp_await_read trivial rfl ?_ fun _ ↦ h
  split
  · exact h
  have haudit : ∀ {t : GroupStore}, t.DistinctNames teamId →
      wps (Heedful teamId (.rename actorId callTeam groupId name))
        (fun _ t ↦ t.DistinctNames teamId)
        (.perform (.createAuditLog (groupAudit actorId callTeam groupId .deviceGroupUpdated))) t :=
    wps_nameless ((Prog.only_perform _).mpr trivial)
  -- the update keeps the names apart, if it takes effect at all
  have hupdate : ∀ f, (∀ e, f ≠ .refused e) →
      Heedful teamId (.rename actorId callTeam groupId name) _
        (.updateGroup groupId (trim name)) f s →
      (s.serve (.updateGroup groupId (trim name))).2.DistinctNames teamId := by
    intro f hf hheed
    cases hrow : s.deviceGroups.find? groupId with
    | none =>
        rw [serve, updateGroup, hrow]
        exact h
    | some row =>
        by_cases hteam : row.teamId = teamId
        · exact (distinctNames_update h hrow hteam).mpr (hheed hf row hrow hteam)
        · exact h.rename_elsewhere hrow hteam
  refine wp_await trivial (fun hserved ↦ ?_) (fun _ _ ↦ h) fun e hlost ↦ ?_
  · have hupdated := hupdate .served (fun e he ↦ by cases he) hserved
    refine (wp_bind _ _ _).mpr ((wp_ofExcept _ _).mpr ?_)
    cases (groupServer.serve (.updateGroup groupId (trim name)) s).1 with
    | error e => exact hupdated
    | ok _ => exact haudit hupdated
  · exact hupdate (.unanswered e) (fun e he ↦ by cases he) hlost

/-- Between calls that heed the names of the team its groups have different names. -/
theorem distinctNames_serial {s₀ t : GroupStore} (h₀ : s₀.DistinctNames teamId)
    (h : Serial groupServer prog (Heedful teamId) otherwise s₀ t) : t.DistinctNames teamId := by
  refine h.invariant (P := fun _ _ _ ↦ True) (I := fun t ↦ t.DistinctNames teamId) h₀
    (fun call s hs ↦ ?_) fun t s hs ↦ hs.congr rfl
  cases call with
  | create id actorId callTeam name => exact wps_create id actorId callTeam name hs
  | rename actorId callTeam groupId name => exact wps_rename actorId callTeam groupId name hs
  | delete notifyId actorId callTeam groupId =>
      exact wps_nameless (nameless_delete notifyId actorId callTeam groupId) hs

end GroupCall

/-! ## The constraint -/

open GroupStore GroupCall

/-- Only the database reports that its constraint is violated. -/
def genuine : Admits GroupOp Err GroupStore :=
  fun _ _ f _ ↦ f ≠ .refused .uniqueViolation ∧ f ≠ .unanswered .uniqueViolation

section Constraint

seal trim

variable {s : GroupStore} {id actorId teamId name : String}

/-- Requests that neither create nor rename a group do not violate it. -/
theorem reply_ne_uniqueViolation {β : Type} {op : GroupOp β} (hop : Nameless β op) {f : Fate Err}
    (hf : genuine β op f s) : groupServer.reply f op s ≠ .error .uniqueViolation := by
  cases f with
  | refused e =>
      intro h
      cases h
      exact hf.1 rfl
  | unanswered e =>
      intro h
      cases h
      exact hf.2 rfl
  | served =>
      rw [Server.reply_served, groupServer_serve]
      cases op with
      | createGroup => exact hop.elim
      | updateGroup => exact hop.elim
      | deleteGroup id =>
          rw [serve, GroupStore.deleteGroup]
          split
          · exact fun h ↦ absurd (Except.error.inj h) (by decide)
          · intro h
            cases h
      | updateDevice id groupId =>
          rw [serve, updateDevice]
          split
          · exact fun h ↦ absurd (Except.error.inj h) (by decide)
          split
          · exact fun h ↦ absurd (Except.error.inj h) (by decide)
          · intro h
            cases h
      | _ =>
          intro h
          cases h

/-- What `createGroup` does once it has created the row. -/
theorem wps_provision (t : GroupStore) :
    wps genuine (fun r _ ↦ r ≠ .error .uniqueViolation) ((provisionGroup id).tryCatch (fun err ↦ do
        .perform (.deleteGroup id)
        throw (.group ("Could not provision the group on the broker: " ++ err.toString))) >>=
      fun _ ↦ .perform (.createAuditLog (groupAudit actorId teamId id .deviceGroupCreated))) t := by
  have hperform : ∀ {op : GroupOp Unit} (t : GroupStore), Nameless Unit op →
      wps genuine (fun r _ ↦ r ≠ .error .uniqueViolation) (.perform op) t := by
    intro op t hop
    exact (wp_perform _ _).mpr ⟨trivial, fun f hf ↦ reply_ne_uniqueViolation hop hf⟩
  have hany : wps genuine (fun _ _ ↦ True) (provisionGroup id) t :=
    wp_of_only (K := fun _ _ ↦ True) (I := fun _ ↦ True) (fun _ _ _ _ _ _ _ ↦ trivial)
      (fun _ _ _ _ _ ↦ trivial) (.of_forall (fun _ _ ↦ trivial) _) trivial
  refine (wp_bind _ _ _).mpr ((wp_tryCatch _ _ _).mpr (wp_mono hany fun r t' _ ↦ ?_))
  cases r with
  | ok _ => exact hperform t' trivial
  | error err =>
      refine (wp_bind _ _ _).mpr (wp_mono (hperform t' trivial) fun r t'' hr ↦ ?_)
      cases r with
      | ok _ =>
          intro h
          cases h
      | error e => exact hr

/-- The insertion of a row with an id that is new. -/
theorem serve_createGroup (hid : s.deviceGroups.find? id = none) (row : DeviceGroup) :
    (s.serve (.createGroup id row)).1 =
      if s.nameTaken id row.userId row.name then .error .uniqueViolation else .ok () := by
  rw [serve, GroupStore.createGroup]
  split
  · rfl
  split
  · rename_i hnone
    have := Table.isSome_of_insert_eq_none hnone
    rw [hid] at this
    cases this
  · rfl

/-- With a name that the team does not use, `createGroup` fails on the constraint just if the user
has a group with the name elsewhere. -/
theorem createGroup_violates (hid : s.deviceGroups.find? id = none)
    (hfree : s.FreeFor teamId id (trim name)) :
    (∃ t, Eval groupServer genuine (createGroup id actorId teamId name) s
      (.error .uniqueViolation) t) ↔
    trim name ≠ "" ∧ ∃ k g, s.deviceGroups.find? k = some g ∧ g.userId = actorId ∧
      g.name = trim name := by
  have htaken : s.nameTaken id actorId (trim name) = true ↔ ∃ k g,
      s.deviceGroups.find? k = some g ∧ g.userId = actorId ∧ g.name = trim name := by
    rw [nameTaken_iff]
    refine exists₂_congr fun k g ↦ and_congr_right fun hk ↦ and_iff_right ?_
    rintro rfl
    rw [hid] at hk
    cases hk
  have hclash : s.serve (.findGroupByName teamId (trim name)) = (.ok none, s) := by
    have hnone : (s.deviceGroups.findFirst fun _ g ↦ g.teamId = teamId ∧ g.name = trim name) =
        none := by
      rw [Option.eq_none_iff_forall_ne_some]
      rintro ⟨k, g⟩ hg
      obtain ⟨hk, hp⟩ := Table.findFirst_eq_some hg
      obtain ⟨hteam, hname⟩ := of_decide_eq_true hp
      rw [hfree hk hteam hname, hid] at hk
      cases hk
    rw [serve, hnone]
  rw [← htaken]
  constructor
  · rintro ⟨t, heval⟩
    by_contra hnot
    refine absurd rfl (heval.of_wp (P := fun _ _ _ ↦ True)
      (Q := fun r _ ↦ r ≠ .error .uniqueViolation) ?_)
    unfold createGroup
    dsimp only
    split
    · intro h
      cases h
    rename_i hname
    refine wp_await trivial (fun _ ↦ ?_) (fun e he h ↦ ?_) fun e he h ↦ ?_
    · rw [groupServer_serve, hclash]
      refine wp_await trivial (fun _ ↦ ?_) (fun e he h ↦ ?_) fun e he h ↦ ?_
      · rw [groupServer_serve, serve_createGroup hid, if_neg fun h ↦ hnot ⟨hname, h⟩]
        exact wps_provision _
      · cases h
        exact he.1 rfl
      · cases h
        exact he.2 rfl
    · cases h
      exact he.1 rfl
    · cases h
      exact he.2 rfl
  · rintro ⟨hname, h⟩
    have hrun : runBy groupServer (fun _ _ ↦ .served) (createGroup id actorId teamId name) s =
        (.error .uniqueViolation, s) := by
      unfold createGroup
      rw [if_neg hname, runBy_served (fun _ _ ↦ .served) _ rfl hclash]
      refine runBy_rejected (fun _ _ ↦ .served) _ rfl ?_
      rw [groupServer_serve, serve, GroupStore.createGroup, if_pos h]
      rfl
    have heval : Eval groupServer (given fun _ _ ↦ .served) (createGroup id actorId teamId name)
        s _ _ := Eval.runBy (createGroup id actorId teamId name) s
    rw [hrun] at heval
    refine ⟨s, heval.mono ?_⟩
    rintro β op f s rfl
    constructor
    · intro h
      cases h
    · intro h
      cases h

end Constraint

/-! ## Two teams -/

instance (s : GroupStore) (teamId id name : String) : Decidable (s.FreeFor teamId id name) :=
  decidable_of_iff (∀ e ∈ s.deviceGroups.entries, e.2.teamId = teamId → e.2.name = name → e.1 = id)
    ⟨fun h _ _ hk ↦ h _ (Table.find?_eq_some.mp hk),
      fun h _ he ↦ h (Table.find?_eq_some.mpr he)⟩

/-- The groups of a team have different names in every state that calls reach whose renamings
take a name that is free, or that the constraint refuses; and there a name that the team does not
use is refused just if the user has it elsewhere. -/
theorem groupNames_distinct {teamId : String} {s₀ s : GroupStore} (h₀ : s₀.DistinctNames teamId)
    (h : Serial groupServer GroupCall.prog (Heedful teamId) otherwise s₀ s) :
    s.DistinctNames teamId ∧
    ∀ id actorId name, s.deviceGroups.find? id = none → s.FreeFor teamId id (trim name) →
      ((∃ t, Eval groupServer genuine (createGroup id actorId teamId name) s
        (.error .uniqueViolation) t) ↔
      trim name ≠ "" ∧ ∃ k g, s.deviceGroups.find? k = some g ∧ g.userId = actorId ∧
        g.name = trim name) :=
  ⟨distinctNames_serial h₀ h, fun _ _ _ hid hfree ↦ createGroup_violates hid hfree⟩

/-- Stores without groups. -/
def groupless : GroupStore where
  clock := 0
  deviceGroups := ∅
  devices := ∅
  schedules := ∅
  auditLogs := []
  broker := { roles := [DEVICE_ROLE], groups := [], clients := ∅ }

/-- The state after calls none of whose requests fails. -/
def GroupStore.calls (s : GroupStore) (calls : List GroupCall) : GroupStore :=
  calls.foldl (fun s call ↦ (Concurrent.run groupServer [] call.prog s).2) s

theorem serial_calls (calls : List GroupCall) (s₀ : GroupStore) :
    Serial groupServer GroupCall.prog (fun _ ↦ noFailure) otherwise s₀ (s₀.calls calls) := by
  induction calls using List.reverseRec with
  | nil => exact .start
  | append_singleton calls call ih =>
      rw [GroupStore.calls, List.foldl_append]
      exact ih.call call (Eval.of_run_served call.prog _)

theorem groupless_distinctNames (teamId : String) : groupless.DistinctNames teamId := by
  intro k k' g g' hk
  cases hk

/-- A member renames a group to the name of another member's. -/
def renamedCalls : List GroupCall :=
  [.create "g1" "user1" "team" "web", .create "g2" "user2" "team" "db",
    .rename "user2" "team" "g2" "web"]

/-- Two groups of one team get the same name; and a name that a team does not use is refused. -/
theorem groupNames_collide :
    (¬ ∀ s, Serial groupServer GroupCall.prog (fun _ ↦ noFailure) otherwise groupless s →
      s.DistinctNames "team") ∧
    ¬ ∀ s, Serial groupServer GroupCall.prog (fun _ ↦ noFailure) otherwise groupless s →
      ∀ id actorId teamId name, s.deviceGroups.find? id = none → s.FreeFor teamId id (trim name) →
        ∀ t, ¬ Eval groupServer genuine (createGroup id actorId teamId name) s
          (.error .uniqueViolation) t := by
  constructor
  · intro hall
    have hdistinct := hall _ (serial_calls renamedCalls groupless)
    have h : "g1" = "g2" := @hdistinct "g1" "g2" ⟨"user1", "team", "web"⟩ ⟨"user2", "team", "web"⟩
      (by decide +kernel) (by decide +kernel) rfl rfl rfl
    exact absurd h (by decide)
  · intro hall
    let s := groupless.calls [.create "g1" "user" "team" "web"]
    have hid : s.deviceGroups.find? "g2" = none := by decide +kernel
    have hfree : s.FreeFor "other" "g2" (trim "web") := by decide +kernel
    obtain ⟨t, ht⟩ : ∃ t, Eval groupServer genuine (createGroup "g2" "user" "other" "web") s
        (.error .uniqueViolation) t :=
      (createGroup_violates hid hfree).mpr ⟨by decide +kernel, "g1", ⟨"user", "team", "web"⟩,
        by decide +kernel, rfl, by decide +kernel⟩
    exact hall _ (serial_calls _ groupless) "g2" "user" "other" "web" (by decide +kernel)
      (by decide +kernel) t ht

/-- A member renames a group to a name that is free. -/
theorem groupNames_distinct_renamed :
    let s := groupless.calls [.create "g1" "user1" "team" "web", .create "g2" "user2" "team" "db"]
    let t := s.calls [.rename "user2" "team" "g2" "data"]
    t.deviceGroups.entries.length = 2 ∧ t.DistinctNames "team" := by
  intro s t
  have hcreates : Serial groupServer GroupCall.prog (Heedful "team") otherwise groupless s := by
    have hcall : ∀ (s₀ : GroupStore) id actorId name,
        Eval groupServer (Heedful "team" (.create id actorId "team" name))
          (GroupCall.prog (.create id actorId "team" name)) s₀
          (Concurrent.run groupServer [] (GroupCall.prog (.create id actorId "team" name)) s₀).1
          (Concurrent.run groupServer [] (GroupCall.prog (.create id actorId "team" name)) s₀).2 :=
      fun s₀ id actorId name ↦ .of_run fun _ _ _ _ _ ↦ trivial
    exact (Serial.start.call _ (hcall _ "g1" "user1" "web")).call _ (hcall _ "g2" "user2" "db")
  have hrename : Along groupServer
      (fun β op s ↦ Heedful "team" (.rename "user2" "team" "g2" "data") β op .served s)
      (GroupCall.prog (.rename "user2" "team" "g2" "data")) s := by
    refine ⟨trivial, ⟨?_, trivial, trivial⟩⟩
    intro _ row _ _
    exact .inr (by decide +kernel)
  have hserial : Serial groupServer GroupCall.prog (Heedful "team") otherwise groupless t :=
    hcreates.call (.rename "user2" "team" "g2" "data") (Eval.of_along (fun _ _ _ h ↦ h) hrename)
  exact ⟨by decide +kernel, (groupNames_distinct (groupless_distinctNames "team") hserial).1⟩

end Zenstier
