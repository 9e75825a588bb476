import Zenstier.Ai.Scope
import Zenstier.Api.Metering
import Zenstier.Teams.Refinement

/-!
# What a consultation is made of

A request to the provider of the assistant comes last in a call.  By then the call has found a
membership of its user, with a role that may use the assistant; it has looked up which of the
devices it was sent are the team's, written the audit entry, and read the context.  Other calls and
other changes may come in between, and anything may fail; what the provider is sent is still made
of the conversation and of rows of that team only.
-/

namespace Zenstier.Api

open Store Store.Table Concurrent Prog

inductive ChatNote
  /-- A membership is looked for in these tables. -/
  | team (tables : TeamStore)
  /-- Devices, samples or commands are read. -/
  | read (db : ContextStore)
  | consulted (row : Consultation)

def watchTeam : Fate Err → ∀ β : Type, TeamOp β → TeamStore → List ChatNote
  | .served, _, .findMembership _ _, s | .served, _, .findOldestMembership _, s => [.team s]
  | _, _, _, _ => []

/-- What is noted of a request. -/
def watchChat : Fate Err → ∀ β : Type, SiteOp β → Site → List ChatNote
  | f, β, .team op, s => watchTeam f β op s.team
  | .served, _, .chat (.createConsultation row), _ => [.consulted row]
  | .served, _, .chat (.fetch _), _ => []
  | .served, _, .chat _, s => [.read s.context]
  | _, _, _, _ => []

/-- A call that has come as far as the provider. -/
structure Inquiry where
  ctx : TeamContext
  selected : List String
  turns : List ChatTurn
  /-- The tables when the selection is looked up, and when each part of the context is read. -/
  selection : ContextStore
  roster : ContextStore
  metrics : ContextStore
  recent : ContextStore

namespace Inquiry

variable (q : Inquiry)

def deviceIds : List String := findOwned q.selection q.ctx.teamId q.selected

def row (cfg : Settings) : Consultation where
  userId := q.ctx.user.id
  teamId := q.ctx.teamId
  model := cfg.aiModel
  prompt := ((q.turns.getLast?.map fun m ↦ utf16 m.content).getD []).take 500
  devices := q.deviceIds

/-- What has been noted of it since it was let pass. -/
def notes (cfg : Settings) : List ChatNote :=
  [.read q.selection, .consulted (q.row cfg), .read q.roster, .read q.metrics, .read q.recent]

def messages (L : Locale) : List ChatMessage :=
  chatMessages (q.roster.buildDeviceRoster L q.ctx.teamId q.deviceIds)
    (q.metrics.buildMetricsSnapshot L q.ctx.teamId q.deviceIds)
    (q.recent.buildHistoryContext q.ctx.teamId q.deviceIds 5)
    (q.turns.map fun m ↦ ⟨m.role, utf16 m.content⟩)

/-- The same call where there are no other teams. -/
def alone : Inquiry :=
  { q with
    selection := q.selection.ofTeam q.ctx.teamId
    roster := q.roster.ofTeam q.ctx.teamId
    metrics := q.metrics.ofTeam q.ctx.teamId
    recent := q.recent.ofTeam q.ctx.teamId }

theorem deviceIds_alone : q.alone.deviceIds = q.deviceIds := by
  refine congrArg (List.map _) (findMany_rowsOf fun _ d hd ↦ ?_)
  exact (of_decide_eq_true hd).1

theorem messages_alone (L : Locale) (hroster : q.roster.Separate) (hrecent : q.recent.Separate) :
    q.alone.messages L = q.messages L := by
  rw [messages, deviceIds_alone]
  dsimp only [alone]
  rw [ContextStore.buildDeviceRoster_ofTeam hroster, ContextStore.buildMetricsSnapshot_ofTeam,
    ContextStore.buildHistoryContext_ofTeam hrecent, messages]

end Inquiry

/-- The context is that of a membership that the user has had. -/
def Enlisted (user : SessionUser) (ctx : TeamContext) (notes : List ChatNote) : Prop :=
  ctx.user = user ∧ ∃ tables found, .team tables ∈ notes ∧ tables.Reads found ∧
    found.member.userId = user.id ∧ ctx.teamId = found.member.teamId ∧
    ctx.permissions = found.role.permissions

/-- The call may ask the provider, has been audited, and sends the messages. -/
structure Inquiry.Accounts (q : Inquiry) (L : Locale) (cfg : Settings) (request : ChatRequest)
    (notes : List ChatNote) (messages : List ChatMessage) : Prop where
  session : request.user = some q.ctx.user
  body : request.body.bind bodySchema = some (q.selected, q.turns)
  permitted : "ai:use" ∈ q.ctx.permissions
  noted : ∃ earlier, notes = earlier ++ q.notes cfg ∧ Enlisted q.ctx.user q.ctx earlier
  sent : messages = q.messages L

/-- A request to the provider is one that a call of the assistant accounts for. -/
def AccountedFor (L : Locale) (cfg : Settings) (c : RouteCall) (notes : List ChatNote) :
    ∀ β : Type, SiteOp β → Prop
  | _, .chat (.fetch messages) =>
      ∃ request q, c = .chat request ∧ Inquiry.Accounts q L cfg request notes messages
  | _, _ => True

/-! ## The membership -/

section Calls

variable {cr : Crypto} {L : Locale} {dig : Digests} {cfg : Settings} {request : ChatRequest}
  {user : SessionUser} {ctx : TeamContext} {notes : List ChatNote}

/-- The teams of the site. -/
def teamPart (cr : Crypto) (L : Locale) : teamServer.Part (siteServer cr L) where
  get := Site.team
  put s team := { s with team }
  request _ op := .team op
  get_put _ _ := rfl
  put_put _ _ _ := rfl
  put_get _ := rfl
  serve_request _ _ _ := rfl

/-- The membership has been found in tables that were noted. -/
def Found (userId : String) (found : Membership) (notes : List ChatNote) : Prop :=
  ∃ tables, .team tables ∈ notes ∧ tables.Reads found ∧ found.member.userId = userId

theorem resolveMembership_concludes (ids : TeamIds) (user : SessionUser) :
    Concludes teamServer watchTeam (fun _ _ _ _ ↦ True)
      (fun res n ↦ ∀ found, res = some found → Found user.id found n)
      (resolveMembership ids user) notes := by
  have hnone {n : List ChatNote} : ∀ found, none = some found → Found user.id found n :=
    fun _ h ↦ by cases h
  unfold resolveMembership
  refine .await hnone (fun _ _ _ ↦ hnone) fun _ found _ _ ↦ ?_
  refine .await hnone (fun _ _ _ ↦ hnone) fun s membership _ hserve ↦ ?_
  rcases membership with _ | membership
  · refine .await hnone (fun _ _ _ ↦ hnone) fun s membership _ hserve ↦ ?_
    rcases membership with _ | membership
    · refine .bind (.of_forall (Q := fun _ _ ↦ True) (fun _ _ ↦ trivial) _) (fun _ _ ↦ hnone)
        fun _ _ _ ↦ ?_
      refine .await hnone (fun _ _ _ ↦ hnone) fun s membership _ hserve ↦ ?_
      rcases membership with _ | membership
      · exact hnone
      · rintro found ⟨⟩
        obtain ⟨hreads, huser, -⟩ := TeamStore.reads_of_findMembership (Except.ok.inj hserve)
        exact ⟨s, by simp [watchTeam], hreads, huser⟩
    · rintro found ⟨⟩
      obtain ⟨hreads, huser⟩ := TeamStore.reads_of_findOldestMembership (Except.ok.inj hserve)
      exact ⟨s, by simp [watchTeam], hreads, huser⟩
  · rintro found ⟨⟩
    obtain ⟨hreads, huser, -⟩ := TeamStore.reads_of_findMembership (Except.ok.inj hserve)
    exact ⟨s, by simp [watchTeam], hreads, huser⟩

theorem getTeamContext_concludes (ids : TeamIds) (user : SessionUser) :
    Concludes (siteServer cr L) watchChat (fun _ _ _ _ ↦ True)
      (fun res n ↦ ∀ outcome, res = some outcome → ∀ ctx, outcome = .ok ctx → Enlisted user ctx n)
      (Prog.attempt (onTeam (getTeamContext ids user))) notes := by
  refine .attempt ?_ ?_
  · refine Concludes.lift (teamPart cr L) (fun _ _ _ _ ↦ rfl) (fun _ _ _ _ _ ↦ trivial)
      (?_ : Concludes teamServer watchTeam (fun _ _ _ _ ↦ True) _ _ _)
    refine .bind (resolveMembership_concludes ids user) (fun _ _ _ h ↦ by cases h) ?_
    rintro found m hfound _ ⟨⟩ ctx ⟨⟩
    obtain ⟨tables, hmem, hreads, huser⟩ := hfound found rfl
    exact ⟨rfl, tables, found, hmem, hreads, huser, rfl, rfl⟩
  · rintro e m - _ ⟨⟩ ctx ⟨⟩

/-! ## The call -/

theorem consult_heeds (hsession : request.user = some ctx.user) {selected : List String}
    {turns : List ChatTurn} (hbody : request.body.bind bodySchema = some (selected, turns))
    (hpermitted : "ai:use" ∈ ctx.permissions) (hctx : Enlisted ctx.user ctx notes) :
    Heeds (siteServer cr L) watchChat (AccountedFor L cfg (.chat request))
      (consult cfg ctx selected turns) notes := by
  unfold consult
  refine .await trivial fun s owned howned ↦ .await trivial fun _ _ _ ↦ ?_
  refine .bind (.attempted ?_) fun _ _ ↦ trivial
  unfold streamChat
  split
  · trivial
  refine .await trivial fun s₁ roster hroster ↦ .await trivial fun s₂ metrics hmetrics ↦
    .await trivial fun s₃ recent hrecent ↦ .attempt ?_ fun _ _ ↦ ?_
  · cases howned
    cases hroster
    cases hmetrics
    cases hrecent
    refine ⟨request, ⟨ctx, selected, turns, s.context, s₁.context, s₂.context, s₃.context⟩, rfl,
      hsession, hbody, hpermitted, ⟨notes, ?_, hctx⟩, rfl⟩
    simp [watchChat, Inquiry.notes, Inquiry.row, Inquiry.deviceIds]
  · split <;> trivial

theorem onTeam_accounted {α : Type} (p : TeamM α) (c : RouteCall) :
    Only (fun β op ↦ ∀ n, AccountedFor L cfg c n β op) (onTeam p) :=
  Only.lift (fun _ _ _ _ ↦ trivial)
    (Only.of_forall (fun _ _ ↦ trivial : ∀ β (_ : TeamOp β), True) p)

theorem chatPost_heeds : Heeds (siteServer cr L) watchChat (AccountedFor L cfg (.chat request))
    (chatPost cfg request) [] := by
  unfold chatPost
  cases huser : request.user with
  | none => trivial
  | some user =>
      refine .concluded (.of_only (onTeam_accounted _ _).attempt)
        (R := fun res n ↦ ∀ ctx, res = .ok ctx → Enlisted user ctx n) ?_ fun res n hres ↦ ?_
      · exact getTeamContext_concludes request.ids user
      · cases res with
        | error e => trivial
        | ok ctx =>
            have hctx := hres ctx rfl
            obtain rfl := hctx.1
            dsimp only
            split
            · trivial
            rename_i hpermitted
            split
            · trivial
            rename_i selected turns hbody
            rw [charge_bind]
            refine ⟨trivial, fun s f ↦ ?_⟩
            have hquiet : watchChat f _ (.limiter (.charge (aiKey ctx.user.id)
                cfg.aiRateLimitPerHour AI_WINDOW_MS)) s = [] := by
              cases f <;> rfl
            rw [hquiet, List.append_nil]
            dsimp only
            split
            · trivial
            · exact consult_heeds huser hbody (not_not.mp hpermitted) hctx

/-- An enrollment never asks the provider. -/
theorem enrollPost_accounted (request : EnrollRequest) (c : RouteCall) :
    Only (fun β op ↦ ∀ n, AccountedFor L cfg c n β op) (enrollPost dig cfg request) := by
  refine Only.bind (Only.lift (fun _ _ _ _ ↦ trivial)
    (Only.of_forall (fun _ _ ↦ trivial : ∀ β (_ : AuthOp β), True) _)) fun wait ↦ ?_
  split
  · trivial
  split
  · trivial
  split
  · trivial
  refine Only.tryCatch (Only.bind (Only.lift (fun _ _ _ _ ↦ trivial)
    (Only.of_forall (fun _ _ ↦ trivial : ∀ β (_ : TokenOp β), True) _)) fun _ ↦ ?_) fun e ↦ ?_
  · trivial
  · cases e <;> trivial

theorem prog_heeds (c : RouteCall) :
    Heeds (siteServer cr L) watchChat (AccountedFor L cfg c) (c.prog dig cfg) [] := by
  cases c with
  | enroll request => exact .of_only (enrollPost_accounted request _)
  | chat request => exact chatPost_heeds

end Calls

/-! ## Runs -/

section Runs

variable {ι η : Type} {cr : Crypto} {L : Locale}

/-- No foreign key crosses teams, nor has one whenever the tables were read. -/
def AllSeparate (r : Recorded (SitePool ι) (ι × ChatNote)) : Prop :=
  r.state.shared.context.Separate ∧ ∀ i db, (i, .read db) ∈ r.log → db.Separate

theorem serve_context {β : Type} (op : SiteOp β) (s : Site) :
    (s.serve cr L op).2.context = s.context := by
  cases op with
  | team | limiter | token => rfl
  | chat op => cases op <;> rfl

theorem context_of_read {f : Fate Err} {β : Type} {op : SiteOp β} {s : Site} {db : ContextStore}
    (h : .read db ∈ watchChat f β op s) : db = s.context := by
  cases op with
  | team op => cases f <;> cases op <;> simp [watchChat, watchTeam] at h
  | limiter op => cases f <;> simp [watchChat] at h
  | token op => cases f <;> simp [watchChat] at h
  | chat op => cases f <;> cases op <;> simp [watchChat] at h <;> exact h

theorem AllSeparate.step [DecidableEq ι] {env : η → Site → Site}
    (henv : ∀ x s, s.context.Separate → (env x s).context.Separate)
    {r r' : Recorded (SitePool ι) (ι × ChatNote)} {l : Event ι Err η} (h : AllSeparate r)
    (hstep : Recorded.step (Pool.step (siteServer cr L) env) (Pool.attend watchChat) r l =
      some r') : AllSeparate r' := by
  cases l with
  | env x =>
      obtain ⟨hstate, hlog⟩ := Pool.attended_env hstep
      rw [AllSeparate, hstate, hlog]
      exact ⟨henv x _ h.1, h.2⟩
  | run i f =>
      obtain ⟨β, op, k, -, hstate, hlog⟩ := Pool.attended_run hstep
      constructor
      · rw [hstate, Pool.resume_shared]
        exact Server.after_of (fun t : Site ↦ t.context.Separate) h.1
          (by rw [siteServer, serve_context]; exact h.1) f
      · intro j db hmem
        rw [hlog, List.mem_append] at hmem
        rcases hmem with hmem | hmem
        · exact h.2 j db hmem
        · obtain ⟨note, hnote, heq⟩ := List.mem_map.mp hmem
          obtain ⟨rfl, rfl⟩ := Prod.mk.inj heq
          rw [context_of_read hnote]
          exact h.1

/-- However requests interleave and whatever fails, as long as no other change makes a foreign key
cross teams: what the provider is sent is accounted for by the call that sends it, and is what the
call would have sent if there were no other teams. -/
theorem provider_sees_team [DecidableEq ι] (cr : Crypto) (L : Locale) (dig : Digests)
    (cfg : Settings) (calls : ι → RouteCall) {s : Site} {env : η → Site → Site}
    (hsep : s.context.Separate)
    (henv : ∀ x s, s.context.Separate → (env x s).context.Separate)
    {guard : Recorded (SitePool ι) (ι × ChatNote) → Event ι Err η → Prop}
    {r : Recorded (SitePool ι) (ι × ChatNote)}
    (h : Reach (Recorded.step (Pool.step (siteServer cr L) env) (Pool.attend watchChat)) guard
      ⟨⟨s, fun i ↦ (calls i).prog dig cfg⟩, []⟩ r)
    {i : ι} {messages : List ChatMessage} {k : Except Err Completion → SiteM Response}
    (hi : r.state.thread i = .call (.chat (.fetch messages)) k) :
    ∃ request q, calls i = .chat request ∧
      Inquiry.Accounts q L cfg request (notesOf i r.log) messages ∧
      messages = q.alone.messages L := by
  have hheeds := Heeds.reach (P := fun i ↦ AccountedFor L cfg (calls i))
    (fun j ↦ prog_heeds (calls j)) h i
  rw [hi] at hheeds
  obtain ⟨request, q, hcall, haccounts⟩ := hheeds.1
  have hall : AllSeparate r := h.invariant (I := AllSeparate)
    ⟨hsep, fun _ _ hmem ↦ absurd hmem List.not_mem_nil⟩ fun r l r' hr _ hstep ↦ hr.step henv hstep
  obtain ⟨earlier, hnotes, -⟩ := haccounts.noted
  have hread {db : ContextStore} (hdb : .read db ∈ q.notes cfg) : db.Separate := by
    refine hall.2 i db (mem_notesOf.mp ?_)
    rw [hnotes]
    exact List.mem_append_right _ hdb
  refine ⟨request, q, hcall, haccounts, ?_⟩
  rw [q.messages_alone L (hread (by simp [Inquiry.notes])) (hread (by simp [Inquiry.notes]))]
  exact haccounts.sent

end Runs

/-! ## An example -/

/-- The request is one to the provider. -/
def AsksProvider : ∀ β : Type, SiteOp β → Prop
  | _, .chat (.fetch _) => True
  | _, _ => False

instance (β : Type) (op : SiteOp β) : Decidable (AsksProvider β op) :=
  match op with
  | .chat op => match op with
    | .fetch _ => .isTrue trivial
    | .findOwned .. | .createConsultation _ | .buildDeviceRoster .. | .buildMetricsSnapshot ..
    | .buildHistoryContext .. => .isFalse id
  | .team _ | .limiter _ | .token _ => .isFalse id

/-- One user, who has no team yet, and a device of somebody else. -/
def chatSite : Site :=
  { exampleSite with
    team := { exampleSite.team with
      users := ⟨[("user", { email := "user@example.org" })], List.nodup_singleton _⟩ }
    context := { exampleSite.context with
      devices := ⟨[("id", { userId := "u", teamId := "t", deviceId := "dev-1", name := "web" })],
        List.nodup_singleton _⟩ } }

/-- Asks about the device of somebody else. -/
def exampleChat : ChatRequest where
  user := some { id := "user", email := "user@example.org" }
  ids := { teamId := "team", roleId := id, memberId := "member" }
  body := some { deviceIds := some ["dev-1"], messages := [⟨.user, "what is up?"⟩] }

theorem chatSite_separate : chatSite.context.Separate where
  devices id d hd gid hgid := by
    obtain ⟨-, rfl⟩ := Prod.mk.inj (List.mem_singleton.mp (find?_eq_some.mp hd))
    cases hgid
  commands id c hc := by cases hc

def exampleLocale : Locale := ⟨fun _ _ ↦ .eq, fun _ ↦ ""⟩

/-- The user gets a team, and then asks the provider. -/
theorem provider_sees_team_example : ∃ notes messages, ∃ q : Inquiry,
    q.Accounts exampleLocale exampleSettings exampleChat notes messages ∧
      messages = q.alone.messages exampleLocale := by
  have hexec : ((exec (Recorded.step (Pool.step (siteServer plainCrypto exampleLocale)
      fun x : Empty ↦ x.elim) (Pool.attend watchChat)) (fun _ _ ↦ True)
      ⟨⟨chatSite, fun _ : Unit ↦ (RouteCall.chat exampleChat).prog plainDigests exampleSettings⟩,
        []⟩
      (.replicate 13 (.run () .served))).any fun r ↦
        decide (AtRequest AsksProvider (r.state.thread ()))) = true := by
    decide
  obtain ⟨r, hr, hat⟩ := Reach.exists_of_exec _ hexec
  cases hthread : r.state.thread () with
  | pure a => exact absurd hat (by rw [hthread]; exact id)
  | throw e => exact absurd hat (by rw [hthread]; exact id)
  | call op k =>
      rw [hthread] at hat
      cases op with
      | team | limiter | token => exact hat.elim
      | chat op =>
          cases op with
          | fetch messages =>
              obtain ⟨request, q, hcall, haccounts, hmessages⟩ := provider_sees_team plainCrypto
                exampleLocale plainDigests exampleSettings (fun _ ↦ .chat exampleChat)
                chatSite_separate (fun x ↦ x.elim) hr hthread
              cases hcall
              exact ⟨_, messages, q, haccounts, hmessages⟩
          | findOwned | createConsultation | buildDeviceRoster | buildMetricsSnapshot
          | buildHistoryContext => exact hat.elim

end Zenstier.Api
