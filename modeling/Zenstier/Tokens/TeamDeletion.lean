import Zenstier.Tokens.Atomicity

/-!
# Deleting a team when the broker fails

`deleteTeam` deletes the broker accounts of the team's tokens one after the other and gives
up at the first that it cannot delete, with the message that nothing was deleted.  The
accounts that came before it are gone by then.

What it promises in the other case holds whatever fails: the rows of a team are removed
only when no account of its tokens is left.
-/

namespace Zenstier

open Store Concurrent

/-- What becomes of the messages to the broker: the deletion of an account, by its name, and
the eviction of a retained status, by its topic. -/
structure DeletionFates where
  deletion : String → Fate Err
  eviction : String → Fate Err

/-- The database does not fail. -/
def DeletionFates.fate (f : DeletionFates) : ∀ β : Type, TokenOp β → Fate Err
  | _, .dynsecSend [.deleteClient username] => f.deletion username
  | _, .clearRetainedStatus topic => f.eviction topic
  | _, _ => .served

/-- What `deleteTeam` throws when it cannot delete the account of a token. -/
def couldNotRevoke (token : AuthToken) (err : Err) : Err :=
  .team ("Could not revoke credentials for " ++ token.mqttUsername ++ ": " ++
    err.toString ++ ". Nothing was deleted.")

/-- The tokens of a team, with their ids. -/
def Backend.tokensOf (s : Backend) (teamId : String) : List (String × AuthToken) :=
  s.tokens.findMany fun _ t ↦ t.teamId = teamId

/-- A team is deleted as a whole: when a credential could not be revoked everything is as it
was, and no credential is left when the rows are removed. -/
structure DeletesAllOrNothing (f : DeletionFates) (s : Backend) (teamId : String) : Prop where
  nothing : ∀ e t, Eval tokenServer (given f.fate) (deleteTeam teamId) s (.error e) t →
    (∃ token ∈ s.tokensOf teamId, ∃ cause, e = couldNotRevoke token.2 cause) → t = s
  all : ∀ t, Issues tokenServer (given f.fate) (.deleteTeam teamId) t (deleteTeam teamId) s →
    ∀ token ∈ s.tokensOf teamId, ¬ t.broker.Has token.2.mqttUsername

/-- The first deletion that fails comes before any that takes effect, and takes none itself. -/
def DeletionFates.Traceless (f : DeletionFates) (b : Broker) (tokens : List (String × AuthToken)) :
    Prop :=
  ∀ before token after, tokens = before ++ token :: after →
    (∀ done ∈ before, f.deletion done.2.mqttUsername = .served) →
    f.deletion token.2.mqttUsername ≠ .served →
    (∀ done ∈ before, ¬ b.Has done.2.mqttUsername) ∧
      ((∃ e, f.deletion token.2.mqttUsername = .refused e) ∨ ¬ b.Has token.2.mqttUsername)

/-! ## Deleting accounts -/

namespace Backend

variable {s : Backend} {u v : String} {tokens : List (String × AuthToken)}

/-- The stores without a broker account. -/
def without (s : Backend) (username : String) : Backend :=
  { s with broker := (s.broker.apply (.deleteClient username)).2 }

/-- The stores without the broker accounts of some tokens. -/
def withoutAll (s : Backend) (tokens : List (String × AuthToken)) : Backend :=
  tokens.foldl (fun s token ↦ s.without token.2.mqttUsername) s

theorem has_without (h : (s.without u).broker.Has v) : s.broker.Has v ∧ v ≠ u :=
  Broker.has_deleteClient h

theorem without_of_not_has (h : ¬ s.broker.Has u) : s.without u = s := by
  simp only [without, Broker.apply, Broker.modify_of_not_has h]

theorem has_withoutAll (h : (s.withoutAll tokens).broker.Has v) :
    s.broker.Has v ∧ ∀ token ∈ tokens, v ≠ token.2.mqttUsername := by
  induction tokens generalizing s with
  | nil => exact ⟨h, fun _ hmem ↦ absurd hmem List.not_mem_nil⟩
  | cons token tokens ih =>
      obtain ⟨hhas, hrest⟩ := ih h
      obtain ⟨hs, hne⟩ := has_without hhas
      exact ⟨hs, List.forall_mem_cons.mpr ⟨hne, hrest⟩⟩

theorem teams_withoutAll : (s.withoutAll tokens).teams = s.teams := by
  induction tokens generalizing s with
  | nil => rfl
  | cons token tokens ih => exact ih

/-- Deleting accounts leaves no trace exactly if there are none. -/
theorem withoutAll_eq_self :
    s.withoutAll tokens = s ↔ ∀ token ∈ tokens, ¬ s.broker.Has token.2.mqttUsername := by
  constructor
  · intro h token hmem hhas
    rw [← h] at hhas
    exact (has_withoutAll hhas).2 token hmem rfl
  · intro h
    induction tokens with
    | nil => rfl
    | cons token tokens ih =>
        obtain ⟨hhead, htail⟩ := List.forall_mem_cons.mp h
        rw [withoutAll, List.foldl_cons, without_of_not_has hhead]
        exact ih htail

end Backend

/-! ## The loop -/

section Run

variable {f : DeletionFates} {s : Backend}

theorem assertDynsecOk_deleteClient (b : Broker) (u : String) :
    assertDynsecOk (b.send [.deleteClient u]).1 ["not found"] = .ok () := by
  rw [Broker.send_singleton]
  by_cases h : b.Has u
  · simp only [Broker.apply, Broker.modify_of_has h, assertDynsecOk_done]
  · simp only [Broker.apply, Broker.modify_of_not_has h, assertDynsecOk_tolerated]

theorem runBy_revokeOrAbort (token : AuthToken) :
    runBy tokenServer f.fate (revokeOrAbort token) s = match f.deletion token.mqttUsername with
      | .served => (.ok (), s.without token.mqttUsername)
      | .refused e => (.error (couldNotRevoke token e), s)
      | .unanswered e => (.error (couldNotRevoke token e), s.without token.mqttUsername) := by
  rw [revokeOrAbort, Prog.tryCatch_def, runBy_tryCatch, deleteBrokerClient, runBy_await]
  have hfate : f.fate _ (.dynsecSend [.deleteClient token.mqttUsername]) =
    f.deletion token.mqttUsername := rfl
  rw [hfate]
  cases f.deletion token.mqttUsername with
  | served =>
      rw [Server.reply_served, tokenServer_serve, Backend.serve, Prog.ofExcept_ok, Prog.pure_bind,
        runBy_ofExcept, assertDynsecOk_deleteClient]
      rfl
  | refused e => rfl
  | unanswered e => rfl

theorem runBy_revokeAll_cons (token : String × AuthToken) (tokens : List (String × AuthToken)) :
    runBy tokenServer f.fate ((token :: tokens).forM fun token ↦ revokeOrAbort token.2) s =
      match f.deletion token.2.mqttUsername with
      | .served => runBy tokenServer f.fate (tokens.forM fun token ↦ revokeOrAbort token.2)
          (s.without token.2.mqttUsername)
      | .refused e => (.error (couldNotRevoke token.2 e), s)
      | .unanswered e => (.error (couldNotRevoke token.2 e), s.without token.2.mqttUsername) := by
  refine (runBy_bind _ _ _).trans ?_
  rw [runBy_revokeOrAbort]
  cases f.deletion token.2.mqttUsername <;> rfl

/-- Either all accounts are deleted, or the loop ends at the first deletion that fails. -/
theorem runBy_revokeAll (tokens : List (String × AuthToken)) :
    (∀ token ∈ tokens, f.deletion token.2.mqttUsername = .served) ∧
        runBy tokenServer f.fate (tokens.forM fun token ↦ revokeOrAbort token.2) s =
          (.ok ⟨⟩, s.withoutAll tokens) ∨
      ∃ before token after, tokens = before ++ token :: after ∧
        (∀ done ∈ before, f.deletion done.2.mqttUsername = .served) ∧
        ((∃ e, f.deletion token.2.mqttUsername = .refused e ∧
            runBy tokenServer f.fate (tokens.forM fun token ↦ revokeOrAbort token.2) s =
              (.error (couldNotRevoke token.2 e), s.withoutAll before)) ∨
          ∃ e, f.deletion token.2.mqttUsername = .unanswered e ∧
            runBy tokenServer f.fate (tokens.forM fun token ↦ revokeOrAbort token.2) s =
              (.error (couldNotRevoke token.2 e), s.withoutAll (before ++ [token]))) := by
  induction tokens generalizing s with
  | nil => exact .inl ⟨fun _ hmem ↦ absurd hmem List.not_mem_nil, rfl⟩
  | cons token tokens ih =>
      have hstep := runBy_revokeAll_cons (f := f) (s := s) token tokens
      cases hfate : f.deletion token.2.mqttUsername with
      | refused e =>
          rw [hfate] at hstep
          exact .inr ⟨[], token, tokens, rfl, by simp, .inl ⟨e, hfate, hstep⟩⟩
      | unanswered e =>
          rw [hfate] at hstep
          exact .inr ⟨[], token, tokens, rfl, by simp, .inr ⟨e, hfate, hstep⟩⟩
      | served =>
          rw [hfate] at hstep
          dsimp only at hstep
          rcases ih (s := s.without token.2.mqttUsername) with ⟨hall, hrun⟩ |
            ⟨before, failed, after, rfl, hbefore, hfailed⟩
          · exact .inl ⟨List.forall_mem_cons.mpr ⟨hfate, hall⟩, hstep.trans hrun⟩
          · refine .inr ⟨token :: before, failed, after, rfl,
              List.forall_mem_cons.mpr ⟨hfate, hbefore⟩, ?_⟩
            rcases hfailed with ⟨e, he, hrun⟩ | ⟨e, he, hrun⟩
            · exact .inl ⟨e, he, hstep.trans hrun⟩
            · exact .inr ⟨e, he, hstep.trans hrun⟩

/-- An eviction that fails is only logged. -/
theorem runBy_evictAll (devices : List (String × Device)) :
    runBy tokenServer f.fate (devices.forM fun device ↦ evictRetainedStatus (some device.2)) s =
      (.ok ⟨⟩, s) := by
  induction devices with
  | nil => rfl
  | cons device devices ih =>
      have hone : runBy tokenServer f.fate (evictRetainedStatus (some device.2)) s =
          (.ok (), s) := by
        rw [evictRetainedStatus, runBy_bind, runBy_attempt, runBy_perform]
        have hafter : tokenServer.after (f.fate _ (.clearRetainedStatus
            (statusTopic device.2.deviceId))) (.clearRetainedStatus
            (statusTopic device.2.deviceId)) s = s := by
          rcases Server.after_cases tokenServer _ s _ with h | h <;> exact h
        rw [hafter]
        rfl
      refine (runBy_bind _ _ _).trans ?_
      rw [hone]
      exact ih

end Run

/-! ## The whole deletion -/

section Deletion

variable {f : DeletionFates} {s : Backend} {teamId : String}

/-- A request other than the removal of the rows. -/
def NotDeleteTeam : ∀ β : Type, TokenOp β → Prop
  | _, .deleteTeam _ => False
  | _, _ => True

/-- The rows are removed only when no account of the tokens is left. -/
theorem deleteTeam_all {t : Backend}
    (h : Issues tokenServer (given f.fate) (.deleteTeam teamId) t (deleteTeam teamId) s) :
    ∀ token ∈ s.tokensOf teamId, ¬ t.broker.Has token.2.mqttUsername := by
  let P : ∀ β : Type, TokenOp β → Backend → Prop := fun _ op t ↦
    NotDeleteTeam _ op ∨ ∀ token ∈ s.tokensOf teamId, ¬ t.broker.Has token.2.mqttUsername
  suffices hwp : wp tokenServer (given f.fate) P (fun _ _ ↦ True) (deleteTeam teamId) s from
    (h.of_wp hwp).resolve_left fun hnot ↦ hnot
  rw [deleteTeam]
  refine wp_await (.inl trivial) (fun _ ↦ ?_) (fun _ _ ↦ trivial) fun _ _ ↦ trivial
  rw [tokenServer_serve, Backend.serve, Prog.ofExcept_ok, Prog.pure_bind]
  cases s.teams.find? teamId with
  | none => trivial
  | some team =>
      dsimp only [Option.map_some]
      split
      · trivial
      have hrevoke : Prog.Only (fun β op ↦ ∀ s, P β op s)
          ((s.tokensOf teamId).forM fun token ↦ revokeOrAbort token.2) := by
        refine .forM _ fun token _ ↦ .tryCatch (.bind ?_ fun _ ↦ ?_) fun _ ↦ trivial
        · exact (Prog.only_perform _).mpr fun _ ↦ .inl trivial
        · exact (Prog.only_ofExcept _).mpr trivial
      refine (wp_bind _ _ _).mpr (wp_of_runBy hrevoke ?_)
      rcases runBy_revokeAll (f := f) (s := s) (s.tokensOf teamId) with ⟨-, hrun⟩ |
        ⟨_, _, _, _, _, ⟨e, _, hrun⟩ | ⟨e, _, hrun⟩⟩
      · rw [hrun]
        have hevict : Prog.Only (fun β op ↦ ∀ s, P β op s) ((s.devices.findMany fun _ d ↦
            d.teamId = teamId).forM fun device ↦ evictRetainedStatus (some device.2)) :=
          .forM _ fun device _ ↦ evictRetainedStatus_only (fun _ _ ↦ .inl trivial) _
        refine (wp_bind _ _ _).mpr (wp_of_runBy hevict ?_)
        rw [runBy_evictAll]
        refine wp_await (.inl trivial) (fun _ ↦ ?_) (fun _ _ ↦ trivial) fun _ _ ↦ trivial
        refine (wp_perform _ _).mpr ⟨.inr fun token hmem hhas ↦ ?_, fun _ _ ↦ trivial⟩
        exact (Backend.has_withoutAll hhas).2 token hmem rfl
      · rw [hrun]
        trivial
      · rw [hrun]
        trivial

/-- With the accounts gone, nothing that can fail is left. -/
theorem runBy_removeRows {team : Team} (hteam : s.teams.find? teamId = some team)
    (devices : List (String × Device)) :
    (runBy tokenServer f.fate (do
        devices.forM fun device ↦ evictRetainedStatus (some device.2)
        .perform (.detachUsers teamId)
        .perform (.deleteTeam teamId)) s).1 = .ok () := by
  rw [runBy_bind, runBy_evictAll]
  dsimp only
  rw [runBy_await]
  show (runBy tokenServer f.fate (.perform (.deleteTeam teamId))
    { s with users := _ }).1 = .ok ()
  rw [runBy_perform]
  simp [DeletionFates.fate, Backend.serve, Backend.deleteTeam, hteam]

/-- Without the team, or for a personal team, nothing is done. -/
theorem deleteTeam_unchanged (h : ∀ team ∈ s.teams.find? teamId, team.isPersonal = true)
    (e : Err) (t : Backend)
    (heval : Eval tokenServer (given f.fate) (deleteTeam teamId) s (.error e) t) : t = s := by
  have hrun := heval.eq_runBy
  rw [deleteTeam, runBy_await] at hrun
  cases hteam : s.teams.find? teamId with
  | none =>
      simp [DeletionFates.fate, Backend.serve, hteam, runBy] at hrun
      exact hrun.2.symm
  | some team =>
      simp [DeletionFates.fate, Backend.serve, hteam, h team hteam, runBy] at hrun
      exact hrun.2.symm

/-- The first of a list that fails is one element. -/
theorem first_unique {α : Type} {P : α → Prop} {l₁ l₂ r₁ r₂ : List α} {a b : α}
    (h : l₁ ++ a :: r₁ = l₂ ++ b :: r₂) (h₁ : ∀ x ∈ l₁, P x) (ha : ¬ P a) (h₂ : ∀ x ∈ l₂, P x)
    (hb : ¬ P b) : l₁ = l₂ ∧ a = b := by
  induction l₁ generalizing l₂ with
  | nil =>
      cases l₂ with
      | nil => exact ⟨rfl, (List.cons.inj h).1⟩
      | cons c l₂ => exact absurd ((List.cons.inj h).1 ▸ h₂ c List.mem_cons_self) ha
  | cons c l₁ ih =>
      cases l₂ with
      | nil => exact absurd ((List.cons.inj h).1 ▸ h₁ c List.mem_cons_self) hb
      | cons d l₂ =>
          obtain ⟨rfl, htail⟩ := List.cons.inj h
          obtain ⟨rfl, hab⟩ := ih htail (List.forall_mem_cons.mp h₁).2
            (List.forall_mem_cons.mp h₂).2
          exact ⟨rfl, hab⟩

/-- Only the first deletion that fails matters. -/
theorem DeletionFates.traceless_iff {b : Broker} {tokens before after : List (String × AuthToken)}
    {token : String × AuthToken} (htokens : tokens = before ++ token :: after)
    (hbefore : ∀ done ∈ before, f.deletion done.2.mqttUsername = .served)
    (hfails : f.deletion token.2.mqttUsername ≠ .served) :
    f.Traceless b tokens ↔ (∀ done ∈ before, ¬ b.Has done.2.mqttUsername) ∧
      ((∃ e, f.deletion token.2.mqttUsername = .refused e) ∨ ¬ b.Has token.2.mqttUsername) := by
  constructor
  · intro h
    exact h before token after htokens hbefore hfails
  · intro h before' token' after' htokens' hbefore' hfails'
    obtain ⟨rfl, rfl⟩ := first_unique (htokens.symm.trans htokens') hbefore hfails hbefore' hfails'
    exact h

/-- Everything is as it was, whenever a credential could not be revoked. -/
theorem deleteTeam_nothing {team : Team} (hteam : s.teams.find? teamId = some team)
    (hpersonal : team.isPersonal = false) :
    (∀ e t, Eval tokenServer (given f.fate) (deleteTeam teamId) s (.error e) t →
        (∃ token ∈ s.tokensOf teamId, ∃ cause, e = couldNotRevoke token.2 cause) → t = s) ↔
      f.Traceless s.broker (s.tokensOf teamId) := by
  have hrun : runBy tokenServer f.fate (deleteTeam teamId) s =
      runBy tokenServer f.fate (((s.tokensOf teamId).forM fun token ↦ revokeOrAbort token.2) >>=
        fun _ ↦ do
          (s.devices.findMany fun _ d ↦ d.teamId = teamId).forM fun device ↦
            evictRetainedStatus (some device.2)
          .perform (.detachUsers teamId)
          .perform (.deleteTeam teamId)) s := by
    rw [deleteTeam, runBy_await]
    simp [DeletionFates.fate, Backend.serve, hteam, hpersonal, Backend.tokensOf]
  rw [forall_throws_iff, hrun, runBy_bind]
  rcases runBy_revokeAll (f := f) (s := s) (s.tokensOf teamId) with ⟨hall, hloop⟩ |
    ⟨before, token, after, htokens, hbefore, ⟨e, hfails, hloop⟩ | ⟨e, hfails, hloop⟩⟩
  · rw [hloop]
    dsimp only
    rw [runBy_removeRows (s := s.withoutAll (s.tokensOf teamId))
      ((congrArg (·.find? teamId) Backend.teams_withoutAll).trans hteam)]
    refine iff_of_true (fun e he ↦ ?_) fun before token after htokens _ hfails ↦ ?_
    · cases he
    · exact absurd (hall token (htokens ▸ List.mem_append_right _ List.mem_cons_self)) hfails
  · have hmem : token ∈ s.tokensOf teamId := htokens ▸ by simp
    rw [hloop, f.traceless_iff htokens hbefore (by simp [hfails]), ← Backend.withoutAll_eq_self]
    constructor
    · intro h
      exact ⟨h _ rfl ⟨token, hmem, e, rfl⟩, .inl ⟨e, hfails⟩⟩
    · intro h _ _ _
      exact h.1
  · have hmem : token ∈ s.tokensOf teamId := htokens ▸ by simp
    have hall : (∀ done ∈ before ++ [token], ¬ s.broker.Has done.2.mqttUsername) ↔
        (∀ done ∈ before, ¬ s.broker.Has done.2.mqttUsername) ∧
          ¬ s.broker.Has token.2.mqttUsername := by
      rw [List.forall_mem_append, List.forall_mem_singleton]
    rw [hloop, f.traceless_iff htokens hbefore (by simp [hfails])]
    simp only [hfails, reduceCtorEq, exists_false, false_or]
    rw [← hall, ← Backend.withoutAll_eq_self]
    constructor
    · intro h
      exact h _ rfl ⟨token, hmem, e, rfl⟩
    · intro h _ _ _
      exact h

end Deletion

/-- A team is deleted as a whole exactly if no account is gone when the first deletion fails.
A personal team is not deleted at all. -/
theorem deleteTeam_allOrNothing (f : DeletionFates) (s : Backend) (teamId : String) :
    DeletesAllOrNothing f s teamId ↔ ∀ team ∈ s.teams.find? teamId, team.isPersonal = false →
      f.Traceless s.broker (s.tokensOf teamId) := by
  constructor
  · intro h team hteam hpersonal
    exact (deleteTeam_nothing hteam hpersonal).mp h.nothing
  · intro h
    refine ⟨?_, fun t ht ↦ deleteTeam_all ht⟩
    cases hteam : s.teams.find? teamId with
    | none => exact fun e t ht _ ↦ deleteTeam_unchanged (by simp [hteam]) e t ht
    | some team =>
        cases hpersonal : team.isPersonal with
        | true =>
            exact fun e t ht _ ↦ deleteTeam_unchanged (by simp [hteam, hpersonal]) e t ht
        | false => exact (deleteTeam_nothing hteam hpersonal).mpr (h team hteam hpersonal)

/-! ## A team with two devices -/

/-- A second device of the example team. -/
def secondDraws : EnrollmentDraws where
  deviceBytes := [11, 12, 13]
  tokenBytes := [14, 15, 16]
  passwordBytes := [17, 18, 19]
  deviceRowId := "device2"
  tokenRowId := "token2"

/-- The deployment once both tokens are issued. -/
def twoTokens : Backend :=
  (Concurrent.run tokenServer []
    (createEnrollmentToken plainDigests secondDraws "user" "team" "host2" none none)
    issuedBackend).2

/-- The broker does not answer when it is asked for the account of the first device. -/
def unansweredFates : DeletionFates where
  deletion username := if username = "dev-aqid" then .refused (.error "timeout") else .served
  eviction _ := .served

/-- The account of the second device is gone, although nothing was deleted. -/
theorem deleteTeam_not_allOrNothing :
    ¬ ∀ (f : DeletionFates) (s : Backend) (teamId : String), DeletesAllOrNothing f s teamId := by
  intro h
  have hsame := forall_throws_iff.mp (h unansweredFates twoTokens "team").nothing
    (couldNotRevoke exampleToken (.error "timeout")) (by decide)
    ⟨("token", exampleToken), by decide, _, rfl⟩
  have hgone : ¬ (runBy tokenServer unansweredFates.fate (deleteTeam "team")
    twoTokens).2.broker.Has "dev-cwwn" := by decide
  rw [hsame] at hgone
  exact hgone (by decide)

end Zenstier
