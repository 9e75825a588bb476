import Zenstier.Concurrent.Fates
import Zenstier.Groups.Service

/-!
# What a failed move leaves

`setDeviceGroup` takes a device out of its old group at the broker, puts it into the new one,
and then updates its row.  Nothing is undone when a later step fails, so a call that stops in
between leaves the device with broadcasts that its row knows nothing of, or without those that
its row promises.  Between the broker and the row there are two values that should be one, and
each step moves one of them.
-/

namespace Zenstier

open Store Concurrent

/-- What becomes of the requests of a move. -/
structure MoveFates where
  findDevice : Fate Err := .served
  findGroup : Fate Err := .served
  leave : Fate Err := .served
  join : Fate Err := .served
  update : Fate Err := .served
  notify : Fate Err := .served
  audit : Fate Err := .served
deriving DecidableEq, Repr

/-- Reading the clock does not fail. -/
def MoveFates.fate (f : MoveFates) : ∀ β : Type, GroupOp β → Fate Err
  | _, .findDevice .. => f.findDevice
  | _, .findGroup .. => f.findGroup
  | _, .dynsecSend [.removeGroupClient ..] => f.leave
  | _, .dynsecSend [.addGroupClient ..] => f.join
  | _, .updateDevice .. => f.update
  | _, .publishCommand .. => f.notify
  | _, .createAuditLog .. => f.audit
  | _, _ => .served

namespace GroupStore

/-- The constraints of the tables.  No id is empty. -/
structure Constrained (s : GroupStore) : Prop where
  deviceId : s.devices.UniqueOn (·.deviceId)
  group : ∀ id device g, s.devices.find? id = some device → device.groupId = some g →
    (s.deviceGroups.find? g).isSome
  nonempty : s.deviceGroups.find? "" = none

/-- Every device is in the group that its row names, and in no other. -/
def Agrees (s : GroupStore) : Prop :=
  ∀ id device, s.devices.find? id = some device →
    ∀ g, s.broker.Member device.deviceId g ↔ device.groupId = some g

/-- The broker has been told to take an account out of a group. -/
def left (s : GroupStore) (u g : String) : GroupStore :=
  { s with broker := (s.broker.control (.removeGroupClient (broadcastGroupName g) u)).2 }

/-- The broker has been told to put an account into a group. -/
def joined (s : GroupStore) (u g : String) : GroupStore :=
  { s with broker := (s.broker.control (.addGroupClient (broadcastGroupName g) u)).2 }

end GroupStore

/-! ## When a move is made or not made -/

section Conditions

variable (f : MoveFates) (s : GroupStore) (teamId : String) (groupId : Option String)
  (device : Device)

/-- The call fails before it has asked the broker for anything. -/
def MoveFates.Declined : Prop :=
  f.findDevice ≠ .served ∨
    ∃ g ∈ truthy groupId, f.findGroup ≠ .served ∨ s.findGroup g teamId = none

/-- The first request to the broker is not carried out; where there is none the database does
not accept the group. -/
def MoveFates.Stopped : Prop :=
  match device.groupId with
  | some _ => ∃ e, f.leave = .refused e
  | none => groupId = some "" ∨ ∃ g ∈ groupId,
      (∃ e, f.join = .refused e) ∨ ¬ s.broker.CanJoin device.deviceId g

/-- The broker answers, and the row is updated. -/
def MoveFates.Carried : Prop :=
  groupId ≠ some "" ∧ (device.groupId ≠ none → f.leave = .served) ∧
    (∀ g ∈ groupId, s.broker.CanJoin device.deviceId g ∧ f.join = .served) ∧
    ∀ e, f.update ≠ .refused e

/-- The device is in that group already, the move is not begun, or it is completed. -/
def MoveFates.Settles : Prop :=
  device.groupId = groupId ∨ f.Declined s teamId groupId ∨ f.Stopped s groupId device ∨
    f.Carried s groupId device

end Conditions

/-! ## Between two groups -/

/-- In `t` the broker has the device in the group `m` and its row says `v`; nothing else has
changed. -/
structure Between (s t : GroupStore) (id : String) (device : Device) (m v : Option String) :
    Prop where
  member : ∀ u g, t.broker.Member u g ↔
    if u = device.deviceId then m = some g else s.broker.Member u g
  canJoin : ∀ u g, t.broker.CanJoin u g ↔ s.broker.CanJoin u g
  row : ∀ k, t.devices.find? k =
    if k = id then some { device with groupId := v } else s.devices.find? k
  groups : t.deviceGroups = s.deviceGroups

section Between

variable {s t : GroupStore} {id : String} {device : Device} {m v : Option String}

theorem Between.refl (hs : s.Agrees) (hdevice : s.devices.find? id = some device) :
    Between s s id device device.groupId device.groupId where
  member u g := by
    split
    · rename_i hu
      rw [hu]
      exact hs id device hdevice g
    · rfl
  canJoin u g := Iff.rfl
  row k := by
    split
    · rename_i hk
      rw [hk, hdevice]
    · rfl
  groups := rfl

/-- The stores agree again once the two values are one. -/
theorem Between.agrees_iff (hs : s.Constrained) (hagrees : s.Agrees)
    (hdevice : s.devices.find? id = some device) (h : Between s t id device m v) :
    t.Agrees ↔ m = v := by
  constructor
  · intro ht
    ext g
    have hrow := ht id { device with groupId := v } (by rw [h.row, if_pos rfl]) g
    rw [h.member, if_pos rfl] at hrow
    exact hrow
  · rintro rfl k row hk g
    rw [h.row] at hk
    split at hk
    · obtain rfl := Option.some.inj hk
      rw [h.member, if_pos rfl]
    · rename_i hne
      rw [h.member, if_neg]
      · exact hagrees k row hk g
      · intro heq
        exact hne (hs.deviceId hk hdevice heq)

theorem Between.leave {old : String} (h : Between s t id device (some old) v) :
    Between s (t.left device.deviceId old) id device none v where
  member u g := by
    rw [GroupStore.left, Broker.member_removeGroupClient, h.member]
    split
    · rename_i hu
      rw [hu]
      simp [eq_comm]
    · rename_i hu
      simp [hu]
  canJoin u g := Broker.canJoin_removeGroupClient.trans (h.canJoin u g)
  row := h.row
  groups := h.groups

theorem Between.join {g : String} (h : Between s t id device none v)
    (hjoin : s.broker.CanJoin device.deviceId g) :
    Between s (t.joined device.deviceId g) id device (some g) v where
  member u g' := by
    rw [GroupStore.joined, Broker.member_addGroupClient, h.member]
    split
    · rename_i hu
      rw [hu, h.canJoin]
      simp [hjoin, eq_comm]
    · rename_i hu
      simp [hu]
  canJoin u g' := Broker.canJoin_addGroupClient.trans (h.canJoin u g')
  row := h.row
  groups := h.groups

/-- A device that cannot join a group stays where it is. -/
theorem Between.stay {g : String} (h : Between s t id device m v)
    (hjoin : ¬ s.broker.CanJoin device.deviceId g) :
    Between s (t.joined device.deviceId g) id device m v where
  member u g' := by
    rw [GroupStore.joined, Broker.member_addGroupClient, h.member, h.canJoin]
    simp [hjoin]
  canJoin u g' := Broker.canJoin_addGroupClient.trans (h.canJoin u g')
  row := h.row
  groups := h.groups

theorem Between.update {groupId : Option String} (h : Between s t id device m v) :
    Between s { t with devices := t.devices.update id ({ · with groupId }) } id device m
      groupId where
  member := h.member
  canJoin := h.canJoin
  row k := by
    rw [Table.find?_update, h.row]
    split
    · rfl
    · rfl
  groups := h.groups

/-- What happens to other tables does not matter. -/
theorem Between.congr {t' : GroupStore} (h : Between s t id device m v)
    (hbroker : t'.broker = t.broker) (hdevices : t'.devices = t.devices)
    (hgroups : t'.deviceGroups = t.deviceGroups) : Between s t' id device m v where
  member := by
    rw [hbroker]
    exact h.member
  canJoin := by
    rw [hbroker]
    exact h.canJoin
  row := by
    rw [hdevices]
    exact h.row
  groups := hgroups.trans h.groups

end Between

/-! ## The run of a move -/

section Run

variable {s t : GroupStore} {id : String} {device : Device} {m v : Option String} {f : MoveFates}
  {notifyId actorId teamId : String} {groupId : Option String}

/-- Requests that change neither a group nor a device. -/
def TellsOnly : ∀ β : Type, GroupOp β → Prop
  | _, .now | _, .publishCommand .. | _, .createAuditLog .. => True
  | _, _ => False

/-- Telling the agent and the audit log. -/
theorem runBy_tells {p : GroupM Unit} (hp : Prog.Only TellsOnly p)
    (h : Between s t id device m v) :
    Between s (runBy groupServer f.fate p t).2 id device m v := by
  refine (Eval.runBy p t).of_wp (P := fun _ _ _ ↦ True)
    (Q := fun _ t ↦ Between s t id device m v) ?_
  refine wp_of_only (K := TellsOnly) (fun β op t g hop ht _ ↦ ?_) (fun _ _ _ _ _ ↦ trivial) hp h
  refine Server.after_of (fun t ↦ Between s t id device m v) ht ?_ g
  cases op with
  | now => exact ht
  | publishCommand => exact ht
  | createAuditLog row => exact ht.congr rfl rfl rfl
  | _ => exact hop.elim

theorem tells_notify (id : String) (groups : List String) (row : AuditLog) :
    Prog.Only TellsOnly (logged (notifyGroupsChanged notifyId id groups) >>= fun _ ↦
      .perform (.createAuditLog row)) := by
  have hnotify : Prog.Only TellsOnly (notifyGroupsChanged notifyId id groups) :=
    .await trivial fun _ ↦ .await trivial fun _ ↦ (Prog.only_perform _).mpr trivial
  have hlogged : Prog.Only TellsOnly (logged (notifyGroupsChanged notifyId id groups)) :=
    hnotify.tryCatch fun _ ↦ (Prog.only_pure _).mpr trivial
  exact hlogged.bind fun _ ↦ (Prog.only_perform _).mpr trivial

/-- The row takes on the new group. -/
theorem runBy_recordMove (h : Between s t id device m v) (hupdate : ∀ e, f.update ≠ .refused e)
    (hgroup : ∀ g ∈ groupId, (s.deviceGroups.find? g).isSome) :
    Between s (runBy groupServer f.fate (recordMove notifyId actorId teamId id device groupId) t).2
      id device m groupId := by
  have hserve : t.serve (.updateDevice id groupId) =
      (.ok (), { t with devices := t.devices.update id ({ · with groupId }) }) := by
    rw [GroupStore.serve, GroupStore.updateDevice, if_neg, if_neg, GroupStore.commit_ok]
    · rw [h.groups, Option.any_eq_true]
      rintro ⟨g, hg, hnone⟩
      have hsome := hgroup g hg
      simp_all
    · simp [h.row]
  unfold recordMove
  cases hf : f.update with
  | refused e => exact absurd hf (hupdate e)
  | unanswered e =>
      rw [runBy_unanswered f.fate (.updateDevice id groupId) hf, groupServer_serve, hserve]
      exact h.update
  | served =>
      rw [runBy_served f.fate (.updateDevice id groupId) hf hserve]
      exact runBy_tells (tells_notify _ _ _) h.update

/-- The row stays as it is. -/
theorem runBy_recordMove_failed (h : Between s t id device m v)
    (hfail : (∃ e, f.update = .refused e) ∨ ∃ g ∈ groupId, s.deviceGroups.find? g = none) :
    Between s (runBy groupServer f.fate (recordMove notifyId actorId teamId id device groupId) t).2
      id device m v := by
  unfold recordMove
  rcases hfail with ⟨e, hf⟩ | ⟨g, hg, hnone⟩
  · rw [runBy_refused f.fate (.updateDevice id groupId) hf]
    exact h
  have hserve : t.serve (.updateDevice id groupId) = (.error .foreignKeyViolation, t) := by
    rw [GroupStore.serve, GroupStore.updateDevice, if_neg, if_pos, GroupStore.commit_error]
    · rw [h.groups, Option.any_eq_true]
      exact ⟨g, hg, by rw [hnone]; rfl⟩
    · simp [h.row]
  cases hf : f.update with
  | refused e =>
      rw [runBy_refused f.fate (.updateDevice id groupId) hf]
      exact h
  | unanswered e =>
      rw [runBy_unanswered f.fate (.updateDevice id groupId) hf, groupServer_serve, hserve]
      exact h
  | served =>
      rw [runBy_rejected f.fate (.updateDevice id groupId) hf hserve]
      exact h

/-- A request to take a device out of a group. -/
theorem runBy_removeFromBrokerGroup {k : Unit → GroupM Unit} (u g : String) (t : GroupStore) :
    runBy groupServer f.fate (removeFromBrokerGroup u g >>= k) t =
      match f.leave with
      | .served => runBy groupServer f.fate (k ()) (t.left u g)
      | .refused e => (.error e, t)
      | .unanswered e => (.error e, t.left u g) := by
  rw [removeFromBrokerGroup, sendControl, Prog.bind_assoc]
  let op : GroupOp _ := .dynsecSend [.removeGroupClient (broadcastGroupName g) u]
  cases hf : f.leave with
  | refused e => exact runBy_refused f.fate op hf
  | unanswered e => exact runBy_unanswered f.fate op hf
  | served =>
      refine (runBy_served f.fate op hf rfl).trans ?_
      rw [Broker.controlAll_singleton, Broker.removeGroupClient_ok]
      rfl

/-- A request to put a device into a group. -/
theorem runBy_addToBrokerGroup {k : Unit → GroupM Unit} (u g : String) (t : GroupStore) :
    runBy groupServer f.fate (addToBrokerGroup u g >>= k) t =
      match f.join with
      | .served => runBy groupServer f.fate (.ofExcept (assertDynsecOk
          [(t.broker.control (.addGroupClient (broadcastGroupName g) u)).1] ["already"]) >>= k)
          (t.joined u g)
      | .refused e => (.error e, t)
      | .unanswered e => (.error e, t.joined u g) := by
  rw [addToBrokerGroup, sendControl, Prog.bind_assoc]
  let op : GroupOp _ := .dynsecSend [.addGroupClient (broadcastGroupName g) u]
  cases hf : f.join with
  | refused e => exact runBy_refused f.fate op hf
  | unanswered e => exact runBy_unanswered f.fate op hf
  | served => exact runBy_served f.fate op hf rfl

/-- A device that is moved to where it is. -/
theorem runBy_same (hs : s.Constrained) (hdevice : s.devices.find? id = some device)
    (h : Between s s id device device.groupId device.groupId) (hsame : device.groupId = groupId) :
    Between s (runBy groupServer f.fate (leaveOldGroup device groupId >>= fun _ ↦
        joinNewGroup device groupId >>= fun _ ↦
          recordMove notifyId actorId teamId id device groupId) s).2 id device groupId groupId := by
  have hleave : leaveOldGroup device groupId = .pure () := by
    unfold leaveOldGroup
    split
    · exact if_neg (not_not_intro hsame)
    · rfl
  have hjoin : joinNewGroup device groupId = .pure () := by
    unfold joinNewGroup
    split
    · exact if_neg (not_not_intro hsame)
    · rfl
  rw [hsame] at h
  rw [hleave, hjoin, Prog.pure_bind, Prog.pure_bind]
  by_cases hupdate : ∀ e, f.update ≠ .refused e
  · exact runBy_recordMove h hupdate fun g hg ↦ hs.group id device g hdevice (hsame.trans hg)
  · obtain ⟨e, he⟩ := not_forall.mp hupdate
    exact runBy_recordMove_failed h (.inl ⟨e, not_not.mp he⟩)

/-- A group of the team is one that a device can be in. -/
theorem GroupStore.isSome_of_findGroup {g : String} (h : (s.findGroup g teamId).isSome) :
    (s.deviceGroups.find? g).isSome := by
  obtain ⟨row, hrow⟩ := Option.isSome_iff_exists.mp h
  exact Option.isSome_of_mem (Option.filter_eq_some_iff.mp hrow).1

theorem joinNewGroup_none (hgroup : truthy groupId = none) :
    joinNewGroup device groupId = .pure () := by
  rw [joinNewGroup, hgroup]
  rfl

variable (notifyId actorId teamId)

/-- Joining the new group and recording it, for a device that is in no group at the broker. -/
theorem runBy_join {g : String} (h : Between s t id device none v) (hg : truthy groupId = some g)
    (hmoves : device.groupId ≠ groupId) (hv : v ≠ some g)
    (hfound : (s.deviceGroups.find? g).isSome) :
    ∃ m' v', Between s (runBy groupServer f.fate (joinNewGroup device groupId >>= fun _ ↦
        recordMove notifyId actorId teamId id device groupId) t).2 id device m' v' ∧
      (m' = v' ↔
        v = none ∧ ((∃ e, f.join = .refused e) ∨ ¬ s.broker.CanJoin device.deviceId g) ∨
        s.broker.CanJoin device.deviceId g ∧ f.join = .served ∧ ∀ e, f.update ≠ .refused e) := by
  obtain rfl := truthy_eq_some hg
  rw [joinNewGroup, hg]
  dsimp only
  rw [if_pos hmoves, runBy_addToBrokerGroup]
  by_cases hjoin : s.broker.CanJoin device.deviceId g
  · cases hf : f.join with
    | refused e =>
        refine ⟨none, v, h, ?_⟩
        simp [eq_comm]
    | unanswered e =>
        refine ⟨some g, v, h.join hjoin, ?_⟩
        simp [hjoin, hv.symm]
    | served =>
        dsimp only
        rw [Broker.addGroupClient_ok.mpr ((h.canJoin _ _).mpr hjoin), Prog.ofExcept_ok,
          Prog.pure_bind]
        by_cases hupdate : ∀ e, f.update ≠ .refused e
        · refine ⟨some g, some g, runBy_recordMove (h.join hjoin) hupdate ?_, ?_⟩
          · rintro _ ⟨⟩
            exact hfound
          · simp [hjoin, hupdate]
        · obtain ⟨e, he⟩ := not_forall.mp hupdate
          refine ⟨some g, v, runBy_recordMove_failed (h.join hjoin) (.inl ⟨e, not_not.mp he⟩), ?_⟩
          simp [hjoin, hv.symm, hupdate]
  · have hstay : ∃ r, runBy groupServer f.fate (.ofExcept (assertDynsecOk
        [(t.broker.control (.addGroupClient (broadcastGroupName g) device.deviceId)).1]
          ["already"]) >>= fun _ ↦ recordMove notifyId actorId teamId id device (some g))
        (t.joined device.deviceId g) = (r, t.joined device.deviceId g) := by
      cases hok : assertDynsecOk [(t.broker.control
          (.addGroupClient (broadcastGroupName g) device.deviceId)).1] ["already"] with
      | ok u => exact absurd ((h.canJoin _ _).mp (Broker.addGroupClient_ok.mp hok)) hjoin
      | error e => exact ⟨_, rfl⟩
    refine ⟨none, v, ?_, ?_⟩
    · cases hf : f.join with
      | refused e => exact h
      | unanswered e => exact h.stay hjoin
      | served =>
          obtain ⟨r, hr⟩ := hstay
          dsimp only
          rw [hr]
          exact h.stay hjoin
    · simp [hjoin, eq_comm]

/-- A move to no group at all, or to one that the database does not know. -/
theorem runBy_recordNone (hs : s.Constrained) (h : Between s t id device none v)
    (hmoves : v ≠ groupId) (hgroup : truthy groupId = none) :
    ∃ v', Between s (runBy groupServer f.fate
        (recordMove notifyId actorId teamId id device groupId) t).2 id device none v' ∧
      (none = v' ↔ v = none ∨ groupId = none ∧ ∀ e, f.update ≠ .refused e) := by
  rcases truthy_eq_none.mp hgroup with rfl | rfl
  · by_cases hupdate : ∀ e, f.update ≠ .refused e
    · refine ⟨none, runBy_recordMove h hupdate ?_, by simp [hupdate]⟩
      rintro _ ⟨⟩
    · obtain ⟨e, he⟩ := not_forall.mp hupdate
      refine ⟨v, runBy_recordMove_failed h (.inl ⟨e, not_not.mp he⟩), ?_⟩
      simp [hmoves, hmoves.symm, hupdate]
  · refine ⟨v, runBy_recordMove_failed h (.inr ⟨"", rfl, hs.nonempty⟩), ?_⟩
    simp [eq_comm]

/-- The part of the call that begins with the broker. -/
theorem runBy_move (hs : s.Constrained) (hagrees : s.Agrees)
    (hdevice : s.devices.find? id = some device)
    (htarget : ∀ g ∈ truthy groupId, (s.findGroup g teamId).isSome) :
    (runBy groupServer f.fate (leaveOldGroup device groupId >>= fun _ ↦
        joinNewGroup device groupId >>= fun _ ↦
          recordMove notifyId actorId teamId id device groupId) s).2.Agrees ↔
      device.groupId = groupId ∨ f.Stopped s groupId device ∨ f.Carried s groupId device := by
  have hstart := Between.refl hagrees hdevice
  by_cases hsame : device.groupId = groupId
  · rw [(runBy_same hs hdevice hstart hsame).agrees_iff hs hagrees hdevice]
    simp [hsame]
  cases hcur : device.groupId with
  | none =>
      have hleave : leaveOldGroup device groupId = .pure () := by
        rw [leaveOldGroup, hcur]
        rfl
      rw [hleave, Prog.pure_bind]
      rw [hcur] at hstart hsame
      cases hg : truthy groupId with
      | none =>
          rw [joinNewGroup_none hg, Prog.pure_bind]
          obtain ⟨v, hbetween, hv⟩ := runBy_recordNone (f := f) notifyId actorId teamId hs hstart
            hsame hg
          rw [hbetween.agrees_iff hs hagrees hdevice, hv]
          have hempty : groupId = some "" := by
            rcases truthy_eq_none.mp hg with rfl | rfl
            · exact absurd rfl hsame
            · rfl
          simp [MoveFates.Stopped, hcur, hempty]
      | some g =>
          have hfound := GroupStore.isSome_of_findGroup (htarget g hg)
          obtain ⟨m, v, hbetween, hv⟩ := runBy_join (f := f) notifyId actorId teamId hstart hg
            (hcur ▸ hsame) (by simp) hfound
          rw [hbetween.agrees_iff hs hagrees hdevice, hv]
          have hne : g ≠ "" := fun heq ↦ by simp [heq, hs.nonempty] at hfound
          obtain rfl := truthy_eq_some hg
          simp [MoveFates.Stopped, MoveFates.Carried, hcur, hne, and_assoc]
  | some old =>
      have hne : old ≠ "" := by
        intro heq
        have hgroup := hs.group id device old hdevice hcur
        simp [heq, hs.nonempty] at hgroup
      rw [leaveOldGroup, hcur, truthy_of_ne hne]
      dsimp only
      rw [hcur] at hstart hsame
      rw [if_pos hsame, runBy_removeFromBrokerGroup]
      cases hleave : f.leave with
      | refused e =>
          refine iff_of_true hagrees (.inr (.inl ?_))
          simp [MoveFates.Stopped, hcur, hleave]
      | unanswered e =>
          dsimp only
          rw [hstart.leave.agrees_iff hs hagrees hdevice]
          simp [MoveFates.Stopped, MoveFates.Carried, hcur, hleave, hsame]
      | served =>
          dsimp only
          cases hg : truthy groupId with
          | none =>
              rw [joinNewGroup_none hg, Prog.pure_bind]
              obtain ⟨v, hbetween, hv⟩ := runBy_recordNone (f := f) notifyId actorId teamId hs
                hstart.leave hsame hg
              rw [hbetween.agrees_iff hs hagrees hdevice, hv]
              rcases truthy_eq_none.mp hg with rfl | rfl
              · simp [MoveFates.Stopped, MoveFates.Carried, hcur, hleave]
              · simp [MoveFates.Stopped, MoveFates.Carried, hcur, hleave, hne]
          | some g =>
              have hfound := GroupStore.isSome_of_findGroup (htarget g hg)
              have hnonempty : g ≠ "" := fun heq ↦ by simp [heq, hs.nonempty] at hfound
              obtain rfl := truthy_eq_some hg
              obtain ⟨m, v, hbetween, hv⟩ := runBy_join (f := f) notifyId actorId teamId
                hstart.leave hg (hcur ▸ hsame) hsame hfound
              rw [hbetween.agrees_iff hs hagrees hdevice, hv]
              have hmoves : old ≠ g := fun heq ↦ hsame (congrArg some heq)
              simp [MoveFates.Stopped, MoveFates.Carried, hcur, hleave, hnonempty, hmoves,
                and_assoc]

end Run

/-- What there is to be said of a call when its device has been looked for. -/
def MoveFates.SettlesCall (f : MoveFates) (s : GroupStore) (teamId deviceId : String)
    (groupId : Option String) : Prop :=
  ∀ found ∈ s.devices.findFirst (fun _ d ↦ d.deviceId = deviceId ∧ d.teamId = teamId),
    f.Settles s teamId groupId found.2

/-- The broker and the rows agree after a call, exactly if the call was not begun or was carried
out. -/
theorem setDeviceGroup_agrees (notifyId actorId teamId deviceId : String)
    (groupId : Option String) (s : GroupStore) (f : MoveFates) (hs : s.Constrained)
    (hagrees : s.Agrees) :
    (∀ r t, Eval groupServer (given f.fate)
        (setDeviceGroup notifyId actorId teamId deviceId groupId) s r t → t.Agrees) ↔
      f.SettlesCall s teamId deviceId groupId := by
  refine forall_eval_iff.trans ?_
  unfold setDeviceGroup
  by_cases hfind : f.findDevice = .served
  · rw [runBy_served f.fate (.findDevice deviceId teamId) hfind rfl, MoveFates.SettlesCall]
    cases hfound : s.devices.findFirst
        (fun _ d ↦ d.deviceId = deviceId ∧ d.teamId = teamId) with
    | none => exact iff_of_true hagrees fun _ hnone ↦ by cases hnone
    | some found =>
        obtain ⟨id, device⟩ := found
        have hdevice := (Table.findFirst_eq_some hfound).1
        have hmove := @runBy_move s id device f notifyId actorId teamId groupId hs hagrees hdevice
        simp only [Option.mem_some_iff, forall_eq', MoveFates.Settles, MoveFates.Declined, hfind,
          ne_eq, not_true_eq_false, false_or]
        rw [checkTarget]
        cases hg : truthy groupId with
        | none =>
            rw [Prog.pure_def, Prog.pure_bind, hmove (by simp [hg])]
            simp
        | some g =>
            by_cases hgroup : f.findGroup = .served
            · rw [Prog.bind_assoc, runBy_served f.fate (.findGroup g teamId) hgroup rfl]
              cases hrow : s.findGroup g teamId with
              | none => exact iff_of_true hagrees (by simp [hrow])
              | some row =>
                  rw [Prog.pure_def, Prog.pure_bind, hmove (by simp [hg, hrow])]
                  simp [hgroup, hrow]
            · obtain ⟨e, he⟩ := runBy_read (S := groupServer) (s := s) f.fate
                (.findGroup g teamId) rfl hgroup
              rw [Prog.bind_assoc, he]
              exact iff_of_true hagrees (by simp [hgroup])
  · obtain ⟨e, he⟩ := runBy_read (S := groupServer) (s := s) f.fate
      (.findDevice deviceId teamId) rfl hfind
    rw [he]
    exact iff_of_true hagrees fun _ _ ↦ .inr (.inl (.inl hfind))

/-! ## An example device -/

/-- A device of the team in the group "old". -/
def exampleMember : Device where
  userId := "user"
  teamId := "team"
  deviceId := "dev-1"
  name := "Device"
  groupId := some "old"

/-- A team with two groups and the device. -/
def exampleGroups : GroupStore where
  clock := 0
  deviceGroups := ⟨[("old", ⟨"user", "team", "Old"⟩), ("new", ⟨"user", "team", "New"⟩)], by simp⟩
  devices := ⟨[("device", exampleMember)], List.nodup_singleton _⟩
  schedules := ∅
  auditLogs := []
  broker :=
    { roles := [DEVICE_ROLE, broadcastRoleName "old", broadcastRoleName "new"]
      groups := [broadcastGroupName "old", broadcastGroupName "new"]
      clients := ⟨[("dev-1", deviceAccount "dev-1" "pw" ["old"])], List.nodup_singleton _⟩ }

theorem exampleGroups_devices {id : String} {device : Device}
    (h : exampleGroups.devices.find? id = some device) : device = exampleMember :=
  (Prod.mk.inj (List.mem_singleton.mp (Table.find?_eq_some.mp h))).2

theorem exampleGroups_constrained : exampleGroups.Constrained where
  deviceId := .of_nodup (List.nodup_singleton _)
  group id device g hdevice hgroup := by
    rw [exampleGroups_devices hdevice] at hgroup
    obtain rfl := Option.some.inj hgroup
    decide
  nonempty := by decide

theorem exampleGroups_agrees : exampleGroups.Agrees := by
  intro id device hdevice g
  rw [exampleGroups_devices hdevice]
  constructor
  · rintro ⟨-, a, ha, hg⟩
    obtain rfl := Option.some.inj ha
    rw [AccessControl.broadcastGroupName_inj (List.mem_singleton.mp hg)]
    rfl
  · intro hg
    obtain rfl := Option.some.inj hg
    decide

/-- Without an answer to the second control command the device is in no group at the broker, and
its row still names the old one. -/
theorem setDeviceGroup_disagrees :
    ¬ ∀ (notifyId actorId teamId deviceId : String) (groupId : Option String) (s : GroupStore)
        (f : MoveFates), s.Constrained → s.Agrees →
      ∀ r t, Eval groupServer (given f.fate)
        (setDeviceGroup notifyId actorId teamId deviceId groupId) s r t → t.Agrees := by
  intro hall
  have h := forall_eval_iff.mp (hall "message" "user" "team" "dev-1" (some "new") exampleGroups
    { join := .refused (.error "dynsec request timed out") } exampleGroups_constrained
    exampleGroups_agrees)
  exact absurd ((h "device" exampleMember (by decide) "old").mpr rfl) (by decide)

/-- A move of the example device in which nothing fails. -/
theorem setDeviceGroup_agrees_moved :
    exampleGroups.Constrained ∧ exampleGroups.Agrees ∧
    ∀ r t, Eval groupServer (given ({} : MoveFates).fate)
      (setDeviceGroup "message" "user" "team" "dev-1" (some "new")) exampleGroups r t →
        t.Agrees := by
  refine ⟨exampleGroups_constrained, exampleGroups_agrees, ?_⟩
  refine (setDeviceGroup_agrees "message" "user" "team" "dev-1" (some "new") exampleGroups {}
    exampleGroups_constrained exampleGroups_agrees).mpr ?_
  intro found hfound
  obtain rfl : ("device", exampleMember) = found := Option.some.inj hfound
  refine .inr (.inr (.inr ⟨by decide, fun _ ↦ rfl, ?_, fun _ h ↦ by cases h⟩))
  intro g hg
  obtain rfl := Option.some.inj hg
  exact ⟨by decide, rfl⟩

end Zenstier
