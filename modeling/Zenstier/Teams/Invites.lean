import Zenstier.Concurrent.Journal
import Zenstier.Teams.Service

/-!
# Accepting, revoking and re-issuing an invite

`acceptInvite` looks an invite up by the hash of its token, checks what it has found, and
commits a transaction that checks nothing.  A revocation or a second invitation that comes in
between is overwritten.  What the transaction does is right exactly as long as the row is still
the one that has been looked up.
-/

namespace Zenstier

open Store Concurrent Prog

/-- One of the calls that read and write invites. -/
inductive InviteCall
  | accept (memberId userId token : String)
  | revoke (actorId teamId inviteId : String)
  | invite (draws : InviteDraws) (actorId : String) (actorRank : Int)
      (teamId email roleId : String)

def InviteCall.prog (dig : Digests) : InviteCall → TeamM Unit
  | .accept memberId userId token => acceptInvite dig memberId userId token
  | .revoke actorId teamId inviteId => revokeInvite actorId teamId inviteId
  | .invite draws actorId actorRank teamId email roleId =>
      inviteMember dig draws actorId actorRank teamId email roleId >>= fun _ ↦ return ()

/-- A membership that was made or changed by a transaction, with what the tables held when the
transaction took effect. -/
structure Granted where
  roleId : String
  clock : Int
  invite : Option TeamInvite
deriving DecidableEq, Repr

/-- What is noted of a call. -/
inductive InviteNote
  | looked (inviteId : String) (invite : TeamInvite)
  | joined (g : Granted)
deriving DecidableEq, Repr

/-- The transaction gives the user a role that they did not have. -/
def TeamStore.grants (s : TeamStore) (userId teamId roleId : String) : Bool :=
  ((s.members.findFirst fun _ m ↦ m.teamId = teamId ∧ m.userId = userId).map (·.2.roleId)) ≠
    some roleId

/-- Takes note of the invites that are looked up, and of the memberships that they give. -/
def watchInvites (f : Fate Err) (β : Type) : TeamOp β → TeamStore → List InviteNote
  | .findInviteByHash tokenHash, s => match f with
      | .served => ((s.invites.findFirst fun _ inv ↦ inv.tokenHash = tokenHash).map
          fun e ↦ InviteNote.looked e.1 e.2).toList
      | .refused _ | .unanswered _ => []
  | .acceptInvite inviteId memberId userId teamId roleId acceptedAt audit, s => match f with
      | .served | .unanswered _ =>
          if (s.acceptInvite inviteId memberId userId teamId roleId acceptedAt audit).isOk ∧
              s.grants userId teamId roleId then
            [.joined ⟨roleId, s.clock, s.invites.find? inviteId⟩]
          else []
      | .refused _ => []
  | _, _ => []

/-- The transaction finds the invite as the call has looked it up, and not expired since. -/
def Unchanged (n : List InviteNote) (β : Type) : TeamOp β → TeamStore → Prop
  | .acceptInvite inviteId .., s => (s.invites.find? inviteId).any fun inv ↦
      .looked inviteId inv ∈ n ∧ ¬ inv.expiresAt < s.clock
  | _, _ => True

instance (n : List InviteNote) (β : Type) (op : TeamOp β) (s : TeamStore) :
    Decidable (Unchanged n β op s) :=
  match op with
  | .acceptInvite .. => inferInstanceAs (Decidable (Option.any _ _ = true))
  | .now | .findUser _ | .findUserByEmail _ | .findMembership .. | .findOldestMembership _
  | .findMember .. | .findRole .. | .findRoleByName .. | .findRoleWithCount .. | .countOwners _
  | .findInvite .. | .findInviteByHash _ | .createTeam .. | .setActiveTeam .. | .createRole ..
  | .updateRole .. | .deleteRole _ | .updateMember .. | .deleteMember _ | .detachUser ..
  | .upsertInvite .. | .revokeInvite .. | .createAuditLog _ => isTrue trivial

/-- The token is the current one of the invite, which can still be accepted and names the
role. -/
def Granted.Honours (dig : Digests) (token : String) (g : Granted) : Prop :=
  ∃ inv ∈ g.invite, inv.tokenHash = dig.sha256 token ∧ inv.revokedAt = none ∧
    inv.acceptedAt = none ∧ ¬ inv.expiresAt < g.clock ∧ g.roleId = inv.roleId

instance (dig : Digests) (token : String) (g : Granted) : Decidable (g.Honours dig token) :=
  inferInstanceAs (Decidable (∃ inv ∈ g.invite, _))

/-- A membership that is given honours the invite of the token. -/
def InviteNote.Honest (dig : Digests) (token : String) : InviteNote → Prop
  | .looked _ _ => True
  | .joined g => g.Honours dig token

instance (dig : Digests) (token : String) (note : InviteNote) :
    Decidable (note.Honest dig token) := by
  unfold InviteNote.Honest
  split <;> infer_instance

/-- Accepting an invite honours it. -/
def InviteCall.Honest (dig : Digests) : InviteCall → List InviteNote → Prop
  | .accept _ _ token, n => ∀ note ∈ n, note.Honest dig token
  | _, _ => True

instance (dig : Digests) (call : InviteCall) (n : List InviteNote) :
    Decidable (call.Honest dig n) := by
  unfold InviteCall.Honest
  split <;> infer_instance

section Races

variable {ι : Type} [DecidableEq ι] {dig : Digests}

/-- Calls that read and write invites, at the same time. -/
def invitePool (dig : Digests) (calls : ι → InviteCall) (s : TeamStore) :
    Pool ι TeamOp Err Unit TeamStore :=
  ⟨s, fun i ↦ (calls i).prog dig⟩

/-- The transaction gives what the invite says that has been looked up. -/
theorem tracks_transaction {token inviteId memberId userId : String} {inv : TeamInvite}
    {acceptedAt : Int} {audit : AuditLog} (hhash : inv.tokenHash = dig.sha256 token)
    (hrevoked : inv.revokedAt = none) (haccepted : inv.acceptedAt = none) :
    Tracks teamServer watchInvites Unchanged (fun n ↦ ∀ note ∈ n, note.Honest dig token)
      (.perform (.acceptInvite inviteId memberId userId inv.teamId inv.roleId acceptedAt audit) :
        TeamM Unit) [.looked inviteId inv] := by
  have hlooked : ∀ note ∈ [InviteNote.looked inviteId inv], note.Honest dig token :=
    List.forall_mem_singleton.mpr trivial
  have hnote : ∀ s f, ((∀ e, f ≠ .refused e) → Unchanged [.looked inviteId inv] Unit
      (.acceptInvite inviteId memberId userId inv.teamId inv.roleId acceptedAt audit) s) →
      ∀ note ∈ [InviteNote.looked inviteId inv] ++ watchInvites f Unit
        (.acceptInvite inviteId memberId userId inv.teamId inv.roleId acceptedAt audit) s,
        note.Honest dig token := by
    intro s f hguard
    refine List.forall_mem_append.mpr ⟨hlooked, fun note hmem ↦ ?_⟩
    have heffect : ∀ e, f ≠ .refused e := by
      rintro e rfl
      exact List.not_mem_nil hmem
    obtain ⟨inv', hinv', hsame⟩ := (Option.any_eq_true _ _).mp (hguard heffect)
    obtain ⟨hread, hfresh⟩ := decide_eq_true_eq.mp hsame
    -- the call has looked only once
    obtain rfl : inv' = inv := by simpa using hread
    have hjoined : note = .joined ⟨inv'.roleId, s.clock, s.invites.find? inviteId⟩ := by
      cases f with
      | refused e => exact absurd rfl (heffect e)
      | served | unanswered =>
          dsimp only [watchInvites] at hmem
          split at hmem
          · exact List.mem_singleton.mp hmem
          · cases hmem
    rw [hjoined]
    exact ⟨inv', hinv', hhash, hrevoked, haccepted, hfresh, rfl⟩
  refine ⟨hlooked, fun s f hguard ↦ ?_⟩
  cases hr : teamServer.reply f
      (.acceptInvite inviteId memberId userId inv.teamId inv.roleId acceptedAt audit) s with
  | ok b => exact hnote s f hguard
  | error e => exact hnote s f hguard

theorem acceptInvite_honest (memberId userId token : String) :
    Tracks teamServer watchInvites Unchanged (fun n ↦ ∀ note ∈ n, note.Honest dig token)
      (acceptInvite dig memberId userId token) [] := by
  have hnil : ∀ note ∈ ([] : List InviteNote), note.Honest dig token :=
    fun note hnote ↦ absurd hnote List.not_mem_nil
  have hlooked : ∀ e : Option (String × TeamInvite),
      ∀ note ∈ [] ++ (e.map fun e ↦ InviteNote.looked e.1 e.2).toList, note.Honest dig token := by
    intro e
    cases e with
    | none => exact hnil
    | some e => exact List.forall_mem_singleton.mpr trivial
  refine .await hnil (fun s f _ ↦ ?_) fun s found _ hfound ↦ ?_
  · cases f with
    | served => exact hlooked _
    | refused | unanswered => exact hnil
  · obtain rfl := Except.ok.inj hfound
    dsimp only [watchInvites]
    cases he : s.invites.findFirst fun _ inv ↦ inv.tokenHash = dig.sha256 token with
    | none => exact hnil
    | some e =>
        have hnow := hlooked (some e)
        obtain ⟨inviteId, inv⟩ := e
        have hhash := decide_eq_true_eq.mp (Table.findFirst_eq_some he).2
        refine .skip (fun _ _ ↦ rfl) hnow fun now ↦ ?_
        cases hrefused : inviteRefusal now inv with
        | some message => exact hnow
        | none =>
            have hopen : inv.revokedAt = none ∧ inv.acceptedAt = none := by
              unfold inviteRefusal at hrefused
              split at hrefused
              · cases hrefused
              · split at hrefused
                · cases hrefused
                · simp_all
            refine .skip (fun _ _ ↦ rfl) hnow fun user ↦ ?_
            cases user with
            | none => exact hnow
            | some user =>
                dsimp only
                split
                · exact hnow
                · exact .skip (fun _ _ ↦ rfl) hnow fun acceptedAt ↦
                    tracks_transaction hhash hopen.1 hopen.2

/-- Whatever else revokes, issues and accepts invites: a membership that is given by an invite
which is still as it was looked up is the one that the current invite names, for its current
token, and the invite is neither revoked nor accepted nor expired. -/
theorem invites_honoured (calls : ι → InviteCall) (s₀ : TeamStore)
    {r : Recorded (Pool ι TeamOp Err Unit TeamStore) (ι × InviteNote)}
    (h : Reach (Recorded.step (Pool.step teamServer TeamStore.tick) (Pool.attend watchInvites))
      (Guarded fun _ ↦ Unchanged) ⟨invitePool dig calls s₀, []⟩ r) (i : ι) :
    (calls i).Honest dig (notesOf i r.log) := by
  refine Tracks.reach (Q := fun i ↦ (calls i).Honest dig) (fun i ↦ ?_) h i
  show Tracks _ _ _ _ ((calls i).prog dig) []
  cases hcall : calls i with
  | accept memberId userId token => exact acceptInvite_honest memberId userId token
  | revoke | invite => exact .of_forall (fun _ ↦ trivial) _

end Races

/-! ## An invite that is taken back -/

/-- A team with an Admin, which has invited another account as a Viewer. -/
def invitingTeam : TeamStore where
  clock := 0
  users := ⟨[("a", { email := "a@x" }), ("b", { email := "b@x" })], by decide⟩
  teams := ⟨[("t", { name := "t" })], by decide⟩
  roles := ⟨[("admin", { teamId := "t", name := "Admin", permissions := [], rank := 80 }),
    ("viewer", { teamId := "t", name := "Viewer", permissions := [], rank := 10 })], by decide⟩
  members := ⟨[("ma", { teamId := "t", userId := "a", roleId := "admin" })], by decide⟩
  invites := ⟨[("i", { teamId := "t", email := "b@x", roleId := "viewer", tokenHash := "tok"
                       invitedById := "a", expiresAt := 1000 })], by decide⟩
  auditLogs := []

/-- The account accepts the invite, and the Admin revokes it. -/
def revokingCalls (i : Bool) : InviteCall :=
  if i then .revoke "a" "t" "i" else .accept "mb" "b" "tok"

/-- The invite is revoked after it has been checked, and makes a member all the same. -/
theorem invites_honoured_not_always :
    ¬ ∀ r, Reach (Recorded.step (Pool.step teamServer TeamStore.tick)
        (Pool.attend watchInvites)) (fun _ _ ↦ True)
        ⟨invitePool ⟨id, id⟩ revokingCalls invitingTeam, []⟩ r →
      ∀ i, (revokingCalls i).Honest ⟨id, id⟩ (notesOf i r.log) := by
  obtain ⟨r, hr, hnot⟩ : ∃ r, Reach (Recorded.step (Pool.step teamServer TeamStore.tick)
        (Pool.attend watchInvites)) (fun _ _ ↦ True)
        ⟨invitePool ⟨id, id⟩ revokingCalls invitingTeam, []⟩ r ∧
      ¬ (revokingCalls false).Honest ⟨id, id⟩ (notesOf false r.log) :=
    Reach.exists_of_exec [.run false .served, .run false .served, .run false .served,
      .run true .served, .run true .served, .run true .served, .run false .served,
      .run false .served] (by decide +kernel)
  exact fun h ↦ hnot (h r hr false)

/-- It is revoked too late: the account is a member, as the invite says. -/
theorem invites_honoured_in_time :
    ∃ r : Recorded (Pool Bool TeamOp Err Unit TeamStore) (Bool × InviteNote),
      (r.state.shared.findMembership "b" "t").map (·.member.roleId) = some "viewer" ∧
      (r.state.shared.invites.find? "i").any (·.revokedAt.isSome) ∧
      ∀ i, (revokingCalls i).Honest ⟨id, id⟩ (notesOf i r.log) := by
  obtain ⟨r, hr, hmember⟩ : ∃ r, Reach (Recorded.step (Pool.step teamServer TeamStore.tick)
        (Pool.attend watchInvites)) (Guarded fun _ ↦ Unchanged)
        ⟨invitePool ⟨id, id⟩ revokingCalls invitingTeam, []⟩ r ∧
      (r.state.shared.findMembership "b" "t").map (·.member.roleId) = some "viewer" ∧
      (r.state.shared.invites.find? "i").any (·.revokedAt.isSome) :=
    Reach.exists_of_exec [.run false .served, .run false .served, .run false .served,
      .run true .served, .run false .served, .env 1000, .run false .served, .run true .served,
      .run true .served] (by decide +kernel)
  exact ⟨r, hmember.1, hmember.2, invites_honoured revokingCalls invitingTeam hr⟩

end Zenstier
