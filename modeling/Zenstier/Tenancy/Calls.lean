import Zenstier.Tenancy.Requests

/-!
# Calls for a team

Every function that is called for a team makes requests only that are fit for the team, whatever
ids it has been given: what it writes it has looked up for the team before.  So a call leaves the
rows of all other teams alone, and no foreign key crosses teams afterwards.
-/

namespace Zenstier

open Store Concurrent Prog Stage

-- No call depends on what is left of a name.
seal trim

variable {t : String} {w : Stage t}

/-! ## Roles, members and invites -/

section Teams

variable {actorId : String} {actorRank : Int} {memberId roleId : String}

/-- The last request of most functions. -/
theorem teamAudit_fits {row : AuditLog} (hrow : row.teamId = some t) :
    Onward TeamTells TeamFits w (.perform (.createAuditLog row) : TeamM Unit) :=
  onward_perform hrow

theorem createRole_fits (id : String) (input : RoleInput) :
    Onward TeamTells TeamFits w (createRole id actorId t input) := by
  unfold createRole
  refine Onward.bind (onward_ofExcept _) fun w₁ _ permissions ↦ ?_
  dsimp only
  split
  · trivial
  refine Onward.await trivial fun w₂ _ found _ ↦ ?_
  cases found with
  | some role => trivial
  | none => exact Onward.await rfl fun _ _ _ _ ↦ teamAudit_fits rfl

theorem updateRole_fits (input : RoleData) :
    Onward TeamTells TeamFits w (updateRole actorId actorRank t roleId input) := by
  unfold updateRole
  refine Onward.await trivial fun w₁ _ found hfound ↦ ?_
  cases found with
  | none => trivial
  | some role =>
      have hrole : w₁.OwnsRole roleId := hfound rfl
      dsimp only
      split
      · trivial
      refine Onward.bind (onward_ofExcept _) fun w₂ hle permissions ↦ ?_
      refine Onward.await (hrole.later hle.roles) fun _ _ _ _ ↦ ?_
      exact teamAudit_fits rfl

theorem deleteRole_fits :
    Onward TeamTells TeamFits w (deleteRole actorId actorRank t roleId) := by
  unfold deleteRole
  refine Onward.await trivial fun w₁ _ found hfound ↦ ?_
  cases found with
  | none => trivial
  | some found =>
      have hrole : w₁.OwnsRole roleId := hfound rfl
      dsimp only
      split
      · trivial
      split
      · trivial
      split
      · trivial
      exact Onward.await hrole fun _ _ _ _ ↦ teamAudit_fits rfl

theorem ensureNotLastOwner_fits (roleName : String) :
    Onward TeamTells TeamFits w (ensureNotLastOwner t roleName) := by
  unfold ensureNotLastOwner
  split
  · trivial
  refine Onward.await trivial fun w₁ _ owners _ ↦ ?_
  split <;> trivial

theorem changeMemberRole_fits :
    Onward TeamTells TeamFits w (changeMemberRole actorId actorRank t memberId roleId) := by
  unfold changeMemberRole
  refine Onward.await trivial fun w₁ _ found hfound ↦ ?_
  cases found with
  | none => trivial
  | some found =>
      have hmember : w₁.OwnsMember memberId := (hfound rfl).1
      refine Onward.await trivial fun w₂ hle role hrole ↦ ?_
      cases role with
      | none => trivial
      | some role =>
          have hrole : w₂.OwnsRole roleId := hrole rfl
          dsimp only
          split
          · trivial
          refine Onward.bind (ensureNotLastOwner_fits _) fun w₃ hle' _ ↦ ?_
          refine Onward.await ?_ fun _ _ _ _ ↦ teamAudit_fits rfl
          exact ⟨hmember.later (le_trans hle hle').members, hrole.later hle'.roles⟩

theorem removeMember_fits :
    Onward TeamTells TeamFits w (removeMember actorId actorRank t memberId) := by
  unfold removeMember
  refine Onward.await trivial fun w₁ _ found hfound ↦ ?_
  cases found with
  | none => trivial
  | some found =>
      obtain ⟨hmember, hid⟩ := hfound rfl
      dsimp only
      split
      · trivial
      unfold dropMember
      rw [hid]
      refine Onward.bind (ensureNotLastOwner_fits _) fun w₂ hle _ ↦ ?_
      refine Onward.await (hmember.later hle.members) fun w₃ _ _ _ ↦ ?_
      exact Onward.await trivial fun _ _ _ _ ↦ teamAudit_fits rfl

theorem ensureNotMember_fits (email : String) :
    Onward TeamTells TeamFits w (ensureNotMember t email) := by
  unfold ensureNotMember
  refine Onward.await trivial fun w₁ _ user _ ↦ ?_
  cases user with
  | none => trivial
  | some user =>
      refine Onward.await trivial fun w₂ _ found _ ↦ ?_
      cases found <;> trivial

theorem inviteMember_fits (dig : Digests) (draws : InviteDraws) (email : String) :
    Onward TeamTells TeamFits w (inviteMember dig draws actorId actorRank t email roleId) := by
  unfold inviteMember
  refine Onward.await trivial fun w₁ _ found hfound ↦ ?_
  cases found with
  | none => trivial
  | some role =>
      have hrole : w₁.OwnsRole roleId := hfound rfl
      dsimp only
      split
      · trivial
      refine Onward.bind (ensureNotMember_fits _) fun w₂ hle _ ↦ ?_
      refine Onward.await trivial fun w₃ hle' now _ ↦ ?_
      refine Onward.await ⟨rfl, hrole.later (le_trans hle hle').roles⟩ fun w₄ _ inviteId _ ↦ ?_
      exact Onward.bind (teamAudit_fits rfl) fun _ _ _ ↦ trivial

theorem revokeInvite_fits (inviteId : String) :
    Onward TeamTells TeamFits w (revokeInvite actorId t inviteId) := by
  unfold revokeInvite
  refine Onward.await trivial fun w₁ _ found hfound ↦ ?_
  cases found with
  | none => trivial
  | some inv =>
      have hinv : w₁.OwnsInvite inviteId := hfound rfl
      refine Onward.await trivial fun w₂ hle now _ ↦ ?_
      exact Onward.await (hinv.later hle.invites) fun _ _ _ _ ↦ teamAudit_fits rfl

end Teams

/-! ## Groups -/

section Groups

variable {actorId groupId : String}

theorem groupAudit_fits {row : AuditLog} (hrow : row.teamId = some t) :
    Onward GroupTells GroupFits w (.perform (.createAuditLog row) : GroupM Unit) :=
  onward_perform hrow

/-- Nothing is asked of the database. -/
theorem sendControl_fits (command : GroupControl) (tolerate : List String) :
    Onward GroupTells GroupFits w (sendControl command tolerate) :=
  Onward.await trivial fun _ _ _ _ ↦ onward_ofExcept _

theorem provisionGroup_fits : Onward GroupTells GroupFits w (provisionGroup groupId) :=
  Onward.bind (sendControl_fits _ _) fun _ _ _ ↦ sendControl_fits _ _

theorem logged_fits {p : GroupM Unit} (h : Onward GroupTells GroupFits w p) :
    Onward GroupTells GroupFits w (logged p) :=
  h.tryCatch fun _ _ _ ↦ trivial

theorem notifyGroupsChanged_fits (id deviceId : String) (groups : List String) :
    Onward GroupTells GroupFits w (notifyGroupsChanged id deviceId groups) :=
  Onward.await trivial fun _ _ _ _ ↦ Onward.await trivial fun _ _ _ _ ↦ onward_perform trivial

/-- The group that could not be provisioned is the one that has been created. -/
theorem createGroup_fits (id name : String) :
    Onward GroupTells GroupFits w (createGroup id actorId t name) := by
  unfold createGroup
  dsimp only
  split
  · trivial
  refine Onward.await trivial fun w₁ _ found _ ↦ ?_
  cases found with
  | some g => trivial
  | none =>
      refine Onward.await rfl fun w₂ _ _ hcreated ↦ ?_
      have hgroup : w₂.OwnsGroup id := hcreated rfl
      refine Onward.bind ?_ fun _ _ _ ↦ groupAudit_fits rfl
      refine provisionGroup_fits.tryCatch fun w₃ hle err ↦ ?_
      exact Onward.await (hgroup.later hle.deviceGroups) fun _ _ _ _ ↦ trivial

theorem renameGroup_fits (name : String) :
    Onward GroupTells GroupFits w (renameGroup actorId t groupId name) := by
  unfold renameGroup
  dsimp only
  split
  · trivial
  refine Onward.await trivial fun w₁ _ found hfound ↦ ?_
  cases found with
  | none => trivial
  | some g => exact Onward.await (hfound rfl) fun _ _ _ _ ↦ groupAudit_fits rfl

theorem deleteGroup_fits (notifyId : String → String) :
    Onward GroupTells GroupFits w (deleteGroup notifyId actorId t groupId) := by
  unfold deleteGroup
  refine Onward.await trivial fun w₁ _ found hfound ↦ ?_
  cases found with
  | none => trivial
  | some found =>
      have hgroup : w₁.OwnsGroup groupId := hfound rfl
      refine Onward.bind (Onward.forM _ fun _ _ d _ ↦ logged_fits (sendControl_fits _ _))
        fun w₂ hle _ ↦ ?_
      refine Onward.bind (sendControl_fits _ _) fun w₃ hle' _ ↦ ?_
      refine Onward.bind (sendControl_fits _ _) fun w₄ hle'' _ ↦ ?_
      have hlater : w₁ ≤ w₄ := le_trans hle (le_trans hle' hle'')
      refine Onward.await (hgroup.later hlater.deviceGroups) fun w₅ _ _ _ ↦ ?_
      refine Onward.bind ?_ fun _ _ _ ↦ groupAudit_fits rfl
      exact Onward.forM _ fun _ _ d _ ↦ logged_fits (notifyGroupsChanged_fits _ _ _)

/-- A device is moved to a group of the team, or to none: no group has the empty id. -/
theorem checkTarget_fits {target : Option String} (hempty : w.OwnsGroup "") {p : GroupM Unit}
    (h : ∀ w', w ≤ w' → (∀ g ∈ target, w'.OwnsGroup g) → Onward GroupTells GroupFits w' p) :
    Onward GroupTells GroupFits w (checkTarget t target >>= fun _ ↦ p) := by
  unfold checkTarget
  cases htarget : truthy target with
  | none =>
      refine h w le_rfl fun g hg ↦ ?_
      rcases truthy_eq_none.mp htarget with hnone | hblank
      · rw [hnone] at hg
        cases hg
      · rw [hblank] at hg
        cases hg
        exact hempty
  | some g =>
      dsimp only
      rw [bind_assoc]
      refine Onward.await trivial fun w₁ hle found hfound ↦ ?_
      cases found with
      | none => trivial
      | some group =>
          refine h w₁ hle fun g' hg' ↦ ?_
          rw [truthy_eq_some htarget] at hg'
          cases hg'
          exact hfound rfl

theorem leaveOldGroup_fits (device : Device) (target : Option String) :
    Onward GroupTells GroupFits w (leaveOldGroup device target) := by
  unfold leaveOldGroup
  split
  · split
    · exact sendControl_fits _ _
    · trivial
  · trivial

theorem joinNewGroup_fits (device : Device) (target : Option String) :
    Onward GroupTells GroupFits w (joinNewGroup device target) := by
  unfold joinNewGroup
  split
  · split
    · exact sendControl_fits _ _
    · trivial
  · trivial

theorem setDeviceGroup_fits (hempty : w.OwnsGroup "") (notifyId deviceId : String)
    (target : Option String) :
    Onward GroupTells GroupFits w (setDeviceGroup notifyId actorId t deviceId target) := by
  unfold setDeviceGroup
  refine Onward.await trivial fun w₁ hle found hfound ↦ ?_
  cases found with
  | none => trivial
  | some found =>
      obtain ⟨id, device⟩ := found
      have hdevice : w₁.OwnsDevice id := hfound rfl
      refine checkTarget_fits (hempty.later hle.deviceGroups) fun w₂ hle₂ htarget ↦ ?_
      refine Onward.bind (leaveOldGroup_fits _ _) fun w₃ hle₃ _ ↦ ?_
      refine Onward.bind (joinNewGroup_fits _ _) fun w₄ hle₄ _ ↦ ?_
      have hlater : w₂ ≤ w₄ := le_trans hle₃ hle₄
      refine Onward.await ⟨hdevice.later (le_trans hle₂ hlater).devices, fun g hg ↦ ?_⟩
        fun w₅ _ _ _ ↦ ?_
      · exact (htarget g hg).later hlater.deviceGroups
      · refine Onward.bind (logged_fits (notifyGroupsChanged_fits _ _ _)) fun _ _ _ ↦ ?_
        exact groupAudit_fits rfl

end Groups

/-! ## Schedules -/

section Schedules

variable {parse : CronParser} {userId scheduleId : String}

theorem scheduleAudit_fits {row : AuditLog} (hrow : row.teamId = some t) :
    Onward ScheduleTells ScheduleFits w (.perform (.createAuditLog row) : ScheduleM Unit) :=
  onward_perform hrow

/-- A schedule is for a group of the team, or for none. -/
theorem validateTargets_fits {input : ScheduleInput} (hempty : w.OwnsGroup "") {p : ScheduleM Unit}
    (h : ∀ w', w ≤ w' → (∀ g ∈ input.groupId, w'.OwnsGroup g) →
      Onward ScheduleTells ScheduleFits w' p) :
    Onward ScheduleTells ScheduleFits w (validateTargets t input >>= fun _ ↦ p) := by
  unfold validateTargets
  cases htarget : truthy input.groupId with
  | none =>
      have hgroup : ∀ g ∈ input.groupId, w.OwnsGroup g := by
        intro g hg
        rcases truthy_eq_none.mp htarget with hnone | hblank
        · rw [hnone] at hg
          cases hg
        · rw [hblank] at hg
          cases hg
          exact hempty
      dsimp only
      split
      · trivial
      rw [bind_assoc]
      refine Onward.await trivial fun w₁ hle owned _ ↦ ?_
      split
      · trivial
      · exact h w₁ hle fun g hg ↦ (hgroup g hg).later hle.deviceGroups
  | some g =>
      dsimp only
      rw [bind_assoc]
      refine Onward.await trivial fun w₁ hle found hfound ↦ ?_
      cases found with
      | none => trivial
      | some group =>
          refine h w₁ hle fun g' hg' ↦ ?_
          rw [truthy_eq_some htarget] at hg'
          cases hg'
          exact hfound rfl

theorem createSchedule_fits (hempty : w.OwnsGroup "") (input : ScheduleInput) :
    Onward ScheduleTells ScheduleFits w (createSchedule parse scheduleId userId t input) := by
  unfold createSchedule
  split
  · trivial
  split
  · trivial
  refine Onward.await trivial fun w₁ hle₁ now _ ↦ ?_
  refine Onward.bind (onward_ofExcept _) fun w₂ hle₂ next ↦ ?_
  have hempty' : w₂.OwnsGroup "" := hempty.later (le_trans hle₁ hle₂).deviceGroups
  refine validateTargets_fits hempty' fun w₃ _ hgroup ↦ ?_
  exact Onward.await ⟨rfl, hgroup⟩ fun _ _ _ _ ↦ scheduleAudit_fits rfl

theorem statusNextRun_fits (cron : String) (status : ScheduleStatus) :
    Onward (ScheduleTells (t := t)) ScheduleFits w (statusNextRun parse cron status) := by
  cases status with
  | active =>
      refine Onward.await trivial fun w₁ _ now _ ↦ ?_
      exact Onward.bind (onward_ofExcept _) fun _ _ _ ↦ trivial
  | paused => trivial

theorem setScheduleStatus_fits (status : ScheduleStatus) :
    Onward ScheduleTells ScheduleFits w (setScheduleStatus parse userId t scheduleId status) := by
  unfold setScheduleStatus
  refine Onward.await trivial fun w₁ _ found hfound ↦ ?_
  cases found with
  | none => trivial
  | some schedule =>
      have hschedule : w₁.OwnsSchedule scheduleId := hfound rfl
      refine Onward.bind (statusNextRun_fits _ _) fun w₂ hle next ↦ ?_
      exact Onward.await (hschedule.later hle.schedules) fun _ _ _ _ ↦ scheduleAudit_fits rfl

theorem deleteSchedule_fits :
    Onward Tells Fits w (Database.deleteSchedule userId t scheduleId) := by
  unfold Database.deleteSchedule
  refine Onward.await trivial fun w₁ _ found hfound ↦ ?_
  cases found with
  | none => trivial
  | some schedule =>
      have hschedule : w₁.OwnsSchedule scheduleId := hfound rfl
      exact Onward.await hschedule fun _ _ _ _ ↦ onward_perform rfl

end Schedules

/-! ## Rules -/

section Rules

variable {userId ruleId : String}

theorem ruleAudit_fits {row : AuditLog} (hrow : row.teamId = some t) :
    Onward RuleTells RuleFits w (.perform (.createAuditLog row) : RuleM Unit) :=
  onward_perform hrow

theorem checkWebhook_fits (webhookUrl : Option String) :
    Onward (RuleTells (t := t)) RuleFits w (checkWebhook webhookUrl) := by
  unfold checkWebhook
  split
  · trivial
  refine Onward.bind ((onward_perform trivial).tryCatch fun _ _ _ ↦ trivial) fun _ _ blocked ↦ ?_
  cases blocked <;> trivial

theorem createRule_fits (id : String) (input : RuleInput) :
    Onward RuleTells RuleFits w (createRule id userId t input) := by
  unfold createRule
  split
  · trivial
  split
  · trivial
  refine Onward.bind (checkWebhook_fits _) fun w₁ _ _ ↦ ?_
  exact Onward.await rfl fun _ _ _ _ ↦ ruleAudit_fits rfl

theorem clearStates_fits {enabled : Bool} (h : w.OwnsRule ruleId) :
    Onward RuleTells RuleFits w (clearStates ruleId enabled) := by
  unfold clearStates
  split
  · trivial
  · exact onward_perform h

theorem setRuleEnabled_fits (enabled : Bool) :
    Onward RuleTells RuleFits w (setRuleEnabled userId t ruleId enabled) := by
  unfold setRuleEnabled
  refine Onward.await trivial fun w₁ _ found hfound ↦ ?_
  cases found with
  | none => trivial
  | some rule =>
      have hrule : w₁.OwnsRule ruleId := hfound rfl
      refine Onward.await hrule fun w₂ hle _ _ ↦ ?_
      refine Onward.bind (clearStates_fits (hrule.later hle.rules)) fun _ _ _ ↦ ?_
      exact ruleAudit_fits rfl

theorem deleteRule_fits : Onward RuleTells RuleFits w (deleteRule userId t ruleId) := by
  unfold deleteRule
  refine Onward.await trivial fun w₁ _ found hfound ↦ ?_
  cases found with
  | none => trivial
  | some rule => exact Onward.await (hfound rfl) fun _ _ _ _ ↦ ruleAudit_fits rfl

end Rules

/-! ## Tokens -/

section Tokens

variable {userId tokenId : String}

theorem deleteBrokerClient_fits (username : String) :
    Onward (TokenTells (t := t)) TokenFits w (deleteBrokerClient username) :=
  Onward.await trivial fun _ _ _ _ ↦ onward_ofExcept _

theorem evictRetainedStatus_fits (device : Option Device) :
    Onward (TokenTells (t := t)) TokenFits w (evictRetainedStatus device) := by
  cases device with
  | none => trivial
  | some device => exact Onward.bind (onward_perform trivial).attempt fun _ _ _ ↦ trivial

theorem takePendingSecret_fits (tokenId : String) :
    Onward (TokenTells (t := t)) TokenFits w (takePendingSecret tokenId) := by
  unfold takePendingSecret
  refine Onward.await trivial fun w₁ _ value _ ↦ ?_
  split
  · exact Onward.await trivial fun _ _ _ _ ↦ trivial
  · trivial

theorem revokeToken_fits : Onward TokenTells TokenFits w (revokeToken userId t tokenId) := by
  unfold revokeToken
  refine Onward.await trivial fun w₁ _ found hfound ↦ ?_
  cases found with
  | none => trivial
  | some found =>
      obtain ⟨htoken, hdevice⟩ := hfound rfl
      refine Onward.bind (deleteBrokerClient_fits _) fun w₂ hle₂ _ ↦ ?_
      refine Onward.await trivial fun w₃ hle₃ revokedAt _ ↦ ?_
      have hlater : w₁ ≤ w₃ := le_trans hle₂ hle₃
      refine Onward.await ⟨htoken.later hlater.tokens, fun d hd ↦ ?_, rfl⟩ fun w₄ _ _ _ ↦ ?_
      · exact (hdevice d hd).later hlater.devices
      · refine Onward.bind (evictRetainedStatus_fits _) fun w₅ _ _ ↦ ?_
        refine Onward.bind ?_ fun _ _ _ ↦ trivial
        exact takePendingSecret_fits _

end Tokens

/-! ## Calls -/

section Lift

variable {α : Type}

theorem team_fits {p : TeamM α} (h : Onward TeamTells TeamFits w p) :
    Onward Tells Fits w (p.lift fun _ ↦ DatabaseOp.team) :=
  Onward.lift (fun _ _ _ hop ↦ by exact hop) (fun _ _ _ _ hr ↦ by exact hr) h

theorem group_fits {p : GroupM α} (h : Onward GroupTells GroupFits w p) :
    Onward Tells Fits w (p.lift fun _ ↦ DatabaseOp.group) :=
  Onward.lift (fun _ _ _ hop ↦ by exact hop) (fun _ _ _ _ hr ↦ by exact hr) h

theorem schedule_fits {p : ScheduleM α} (h : Onward ScheduleTells ScheduleFits w p) :
    Onward Tells Fits w (p.lift fun _ ↦ DatabaseOp.schedule) :=
  Onward.lift (fun _ _ _ hop ↦ by exact hop) (fun _ _ _ _ hr ↦ by exact hr) h

theorem rule_fits {p : RuleM α} (h : Onward RuleTells RuleFits w p) :
    Onward Tells Fits w (p.lift fun _ ↦ DatabaseOp.rule) :=
  Onward.lift (fun _ _ _ hop ↦ by exact hop) (fun _ _ _ _ hr ↦ by exact hr) h

theorem token_fits {p : TokenM α} (h : Onward TokenTells TokenFits w p) :
    Onward Tells Fits w (p.lift fun _ ↦ DatabaseOp.token) :=
  Onward.lift (fun _ _ _ hop ↦ by exact hop) (fun _ _ _ _ hr ↦ by exact hr) h

end Lift

theorem TenantCall.fits (parse : CronParser) (dig : Digests) (hempty : w.OwnsGroup "")
    (call : TenantCall) : Onward Tells Fits w (call.prog parse dig t) := by
  unfold TenantCall.prog
  cases call with
  | createRole id actorId input => exact team_fits (createRole_fits id input)
  | updateRole actorId actorRank roleId input => exact team_fits (updateRole_fits input)
  | deleteRole actorId actorRank roleId => exact team_fits deleteRole_fits
  | changeMemberRole actorId actorRank memberId roleId => exact team_fits changeMemberRole_fits
  | removeMember actorId actorRank memberId => exact team_fits removeMember_fits
  | inviteMember draws actorId actorRank email roleId =>
      refine team_fits (Onward.bind ?_ fun _ _ _ ↦ ?_)
      · exact inviteMember_fits dig draws email
      · trivial
  | revokeInvite actorId inviteId => exact team_fits (revokeInvite_fits inviteId)
  | createGroup id actorId name => exact group_fits (createGroup_fits id name)
  | renameGroup actorId groupId name => exact group_fits (renameGroup_fits name)
  | deleteGroup notifyId actorId groupId => exact group_fits (deleteGroup_fits notifyId)
  | setDeviceGroup notifyId actorId deviceId groupId =>
      exact group_fits (setDeviceGroup_fits hempty notifyId deviceId groupId)
  | createSchedule id userId input => exact schedule_fits (createSchedule_fits hempty input)
  | setScheduleStatus userId scheduleId status =>
      exact schedule_fits (setScheduleStatus_fits status)
  | deleteSchedule userId scheduleId => exact deleteSchedule_fits
  | createRule id userId input => exact rule_fits (createRule_fits id input)
  | setRuleEnabled userId ruleId enabled => exact rule_fits (setRuleEnabled_fits enabled)
  | deleteRule userId ruleId => exact rule_fits deleteRule_fits
  | revokeToken userId tokenId => exact token_fits revokeToken_fits

/-- Whatever is called for a team, with whatever ids, and however it ends: no row of another team is
created, modified or deleted, and no foreign key crosses teams afterwards. -/
theorem tenant_frame (parse : CronParser) (dig : Digests) (t : String) (call : TenantCall)
    {s s' : Database} {r : Except Err Unit} (hsep : s.Separate)
    -- The ids of groups are made up by the database, and never empty.
    (hempty : s.deviceGroups.find? "" = none)
    (h : Eval databaseServer anyFate (call.prog parse dig t) s r s') :
    s.Frame t s' ∧ s'.Separate := by
  let w₀ : Stage t := ⟨s, hsep⟩
  have hnone : w₀.OwnsGroup "" := by
    intro g hg
    rw [show w₀.db.deviceGroups.find? "" = none from hempty] at hg
    cases hg
  have hwp := wp_onward (S := databaseServer) (I := fun (w : Stage t) s' ↦ w₀ ≤ w ∧ s' = w.db)
    (fun w β op s₁ f hop hs₁ ↦ by
      obtain ⟨hle, rfl⟩ := hs₁
      obtain ⟨w', hle', htells, hafter⟩ := Stage.step hop f
      exact ⟨w', hle', htells, le_trans hle hle', hafter⟩)
    (TenantCall.fits parse dig hnone call) ⟨le_rfl, rfl⟩
  obtain ⟨w, hle, rfl⟩ := h.of_wp hwp
  exact ⟨hle, w.separate⟩

/-- Two teams, and a group with a device of the first. -/
def redAndBlue : Database where
  clock := 0
  users := ∅
  teams := ⟨[("red", ⟨"Red", false⟩), ("blue", ⟨"Blue", false⟩)], by simp⟩
  roles := ∅
  members := ∅
  invites := ∅
  deviceGroups := ⟨[("lab", ⟨"user", "red", "Lab"⟩)], List.nodup_singleton _⟩
  devices := ⟨[
    ("one", { userId := "user", teamId := "red", deviceId := "dev-1", name := "One"
              groupId := some "lab" }),
    ("two", { userId := "user", teamId := "blue", deviceId := "dev-2", name := "Two" })], by simp⟩
  schedules := ∅
  rules := ∅
  states := ∅
  tokens := ∅
  auditLogs := []
  redis := ∅
  broker := { roles := [], groups := [], clients := ∅ }
  blocked _ := none

theorem redAndBlue_separate : redAndBlue.Separate where
  devices k d hd g hg := by
    have hmem := Table.find?_eq_some.mp hd
    rcases List.mem_cons.mp hmem with heq | hmem
    · cases heq
      cases hg
      exact ⟨⟨"user", "red", "Lab"⟩, rfl, rfl⟩
    · rcases List.mem_singleton.mp hmem with heq
      cases heq
      cases hg
  schedules k r hr := by cases hr
  members k m hm := by cases hm
  invites k i hi := by cases hi
  tokens k token htoken := by cases htoken
  states key state hstate := by cases hstate

/-- The group is deleted, and its device left without one. -/
theorem tenant_frame_two_teams :
    let call : TenantCall := .deleteGroup id "user" "lab"
    let s := (Concurrent.run databaseServer []
      (call.prog (fun _ now ↦ .ok now) plainDigests "red") redAndBlue).2
    s.deviceGroups.find? "lab" = none ∧ redAndBlue.Frame "red" s ∧ s.Separate := by
  intro call s
  have hrun : Eval databaseServer anyFate (call.prog (fun _ now ↦ .ok now) plainDigests "red")
      redAndBlue _ s := .of_run fun _ _ _ _ _ ↦ trivial
  exact ⟨by decide +kernel, tenant_frame _ _ "red" call redAndBlue_separate rfl hrun⟩

end Zenstier
