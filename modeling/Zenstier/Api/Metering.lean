import Zenstier.Api.Routes
import Zenstier.Concurrent.Journal
import Zenstier.RateLimit.Window

/-!
# What the limiter guards

A request to a route that is metered charges a counter, and if the charge passes it looks a token
up, or asks the provider, once.  So in any stretch of time this happens at most as often as charges
may pass in it, however the requests interleave and whatever fails: a charge that fails counts
against the caller, not for it.

In the millisecond in which a window ends nobody is refused.
-/

namespace Zenstier.Api

open Store Concurrent Prog

/-! ## Gates -/

/-- The counter that a request charges. -/
structure Gate where
  key : String
  limit : Nat
  windowMs : Int
deriving DecidableEq, Repr

def enrollGate (request : EnrollRequest) : Gate :=
  ⟨enrollKey (clientIp request.forwarded request.realIp), ENROLL_LIMIT, ENROLL_WINDOW_MS⟩

def chatGate (cfg : Settings) (user : SessionUser) : Gate :=
  ⟨aiKey user.id, cfg.aiRateLimitPerHour, AI_WINDOW_MS⟩

/-- The gate of a request; without a session there is none. -/
def RouteCall.gate (cfg : Settings) : RouteCall → Option Gate
  | .enroll request => some (enrollGate request)
  | .chat request => request.user.map (chatGate cfg)

inductive MeterNote
  /-- The limiter has let a charge pass. -/
  | passed (key : String)
  /-- A token is looked up, or the provider is asked. -/
  | spent
deriving DecidableEq, Repr

/-- What is noted of a request. -/
def watchMeter : Fate Err → ∀ β : Type, SiteOp β → Site → List MeterNote
  | .served, _, .limiter (.charge key limit windowMs), s =>
      if s.limiter.Passes key limit windowMs then [.passed key] else []
  | .served, _, .token (.findTokenByHash _), _ | .served, _, .chat (.fetch _), _ => [.spent]
  | .unanswered _, _, .token (.findTokenByHash _), _ => [.spent]
  | .unanswered _, _, .chat (.fetch _), _ => [.spent]
  | _, _, _, _ => []

/-- The calls behind a gate have not spent more often than they have been let pass. -/
def Paid (key : String) (notes : List MeterNote) : Prop :=
  notes.countP (· = .spent) ≤ notes.countP (· = .passed key)

/-! ## What a request does -/

/-- The request is not noted. -/
def Unmetered : ∀ β : Type, SiteOp β → Prop
  | _, .limiter (.charge ..) | _, .token (.findTokenByHash _) | _, .chat (.fetch _) => False
  | _, _ => True

/-- A charge, and what follows on the time to wait. -/
theorem charge_bind {α : Type} (key : String) (limit : Nat) (windowMs : Int) (f : Int → SiteM α) :
    onLimiter (consumeRateLimit key limit windowMs) >>= f =
      .call (.limiter (.charge key limit windowMs)) fun r ↦ f (r.toOption.getD windowMs) := by
  rw [consumeRateLimit_eq]
  rfl

/-- At most one request of the program is metered. -/
def Once {α : Type} : SiteM α → Prop
  | .pure _ | .throw _ => True
  | .call (β := β) op k => (Unmetered β op ∧ ∀ r, Once (k r)) ∨ ∀ r, Only Unmetered (k r)

section Once

variable {α β : Type} {p : SiteM α}

theorem Once.of_only (h : Only Unmetered p) : Once p := by
  cases p with
  | pure a => trivial
  | throw e => trivial
  | call op k => exact .inr (only_call op k |>.mp h).2

/-- Before what is metered. -/
theorem Once.bind {f : α → SiteM β} (hp : Only Unmetered p) (hf : ∀ a, Once (f a)) :
    Once (p >>= f) := by
  induction p with
  | pure a => exact hf a
  | throw e => trivial
  | call op k ih =>
      rw [only_call] at hp
      exact .inl ⟨hp.1, fun r ↦ ih r (hp.2 r)⟩

/-- After it. -/
theorem Once.andThen {f : α → SiteM β} (hp : Once p) (hf : ∀ a, Only Unmetered (f a)) :
    Once (p >>= f) := by
  induction p with
  | pure a => exact .of_only (hf a)
  | throw e => trivial
  | call op k ih =>
      rcases hp with ⟨hop, hk⟩ | hk
      · exact .inl ⟨hop, fun r ↦ ih r (hk r)⟩
      · exact .inr fun r ↦ (hk r).bind hf

theorem Once.attempt (hp : Once p) : Once p.attempt := by
  induction p with
  | pure a => trivial
  | throw e => trivial
  | call op k ih =>
      rcases hp with ⟨hop, hk⟩ | hk
      · exact .inl ⟨hop, fun r ↦ ih r (hk r)⟩
      · exact .inr fun r ↦ (hk r).attempt

theorem Once.tryCatch {h : Err → SiteM α} (hp : Once p) (hh : ∀ e, Only Unmetered (h e)) :
    Once (p.tryCatch h) := by
  induction p with
  | pure a => trivial
  | throw e => exact .of_only (hh e)
  | call op k ih =>
      rcases hp with ⟨hop, hk⟩ | hk
      · exact .inl ⟨hop, fun r ↦ ih r (hk r)⟩
      · exact .inr fun r ↦ (hk r).tryCatch hh

end Once

section Notes

variable {cr : Crypto} {L : Locale} {key : String} {notes : List MeterNote}
  {guard : List MeterNote → ∀ β : Type, SiteOp β → Site → Prop}

theorem Paid.append (h : Paid key notes) {new : List MeterNote}
    (hnew : new.countP (· = .spent) = 0) : Paid key (notes ++ new) := by
  rw [Paid, List.countP_append, List.countP_append, hnew]
  exact Nat.le_trans h (Nat.le_add_right _ _)

end Notes

/-! ## The calls -/

section Calls

variable {cr : Crypto} {L : Locale} {dig : Digests} {cfg : Settings}
  {guard : List MeterNote → ∀ β : Type, SiteOp β → Site → Prop}

/-- The context is that of the user whose session it is. -/
theorem getTeamContext_user (ids : TeamIds) (user : SessionUser) :
    Meets (fun _ _ _ ↦ True) (fun _ _ ↦ True) (fun ctx ↦ ctx.user = user)
      (getTeamContext ids user) := by
  refine Meets.bind (Q := fun _ ↦ True) ?_ fun membership _ ↦ rfl
  exact Meets.of_only (Only.of_forall (fun _ _ ↦ trivial) _)

/-- The counter of the gate is charged as the gate says, and never cleared. -/
def Charges (g : Gate) : ∀ β : Type, SiteOp β → Prop
  | _, .limiter (.charge key limit windowMs) =>
      key = g.key → limit = g.limit ∧ windowMs = g.windowMs
  | _, .limiter (.deleteCounter key) => key ≠ g.key
  | _, _ => True

theorem enrollKey_ne_aiKey (ip userId : String) : enrollKey ip ≠ aiKey userId := by
  intro h
  have hlist := congrArg String.toList h
  simp [enrollKey, aiKey, String.toList_append] at hlist

/-- The key determines the gate. -/
theorem gate_of_key {c c' : RouteCall} {g g' : Gate} (h : c.gate cfg = some g)
    (h' : c'.gate cfg = some g') (hkey : g.key = g'.key) : g = g' := by
  have hcases : ∀ {c : RouteCall} {g : Gate}, c.gate cfg = some g →
      (∃ ip, g = ⟨enrollKey ip, ENROLL_LIMIT, ENROLL_WINDOW_MS⟩) ∨
        ∃ userId, g = ⟨aiKey userId, cfg.aiRateLimitPerHour, AI_WINDOW_MS⟩ := by
    intro c g h
    cases c with
    | enroll request => exact .inl ⟨_, (Option.some.inj h).symm⟩
    | chat request =>
        obtain ⟨user, -, rfl⟩ := Option.map_eq_some_iff.mp h
        exact .inr ⟨user.id, rfl⟩
  rcases hcases h with ⟨ip, rfl⟩ | ⟨u, rfl⟩ <;> rcases hcases h' with ⟨ip', rfl⟩ | ⟨u', rfl⟩
  · exact congrArg (Gate.mk · _ _) hkey
  · exact absurd hkey (enrollKey_ne_aiKey _ _)
  · exact absurd hkey.symm (enrollKey_ne_aiKey _ _)
  · exact congrArg (Gate.mk · _ _) hkey

theorem charge_charges {g : Gate} {c : RouteCall} (hg : c.gate cfg = some g) (own : Gate)
    (c' : RouteCall) (hown : c'.gate cfg = some own) {α : Type} {f : Int → SiteM α}
    (hf : ∀ w, Only (Charges g) (f w)) :
    Only (Charges g) (onLimiter (consumeRateLimit own.key own.limit own.windowMs) >>= f) := by
  rw [charge_bind]
  refine (only_call _ _).mpr ⟨fun hkey ↦ ?_, fun r ↦ hf _⟩
  obtain rfl := gate_of_key hown hg hkey
  exact ⟨rfl, rfl⟩

theorem onTokens_charges {g : Gate} {α : Type} (p : TokenM α) : Only (Charges g) (onTokens p) :=
  Only.lift (fun _ _ _ ↦ trivial) (Only.of_forall (fun _ _ ↦ trivial : ∀ β (_ : TokenOp β), True) p)

theorem onTeam_charges {g : Gate} {α : Type} (p : TeamM α) : Only (Charges g) (onTeam p) :=
  Only.lift (fun _ _ _ ↦ trivial) (Only.of_forall (fun _ _ ↦ trivial : ∀ β (_ : TeamOp β), True) p)

theorem consult_charges {g : Gate} (ctx : TeamContext) (deviceIds : List String)
    (messages : List ChatTurn) : Only (Charges g) (consult cfg ctx deviceIds messages) := by
  unfold consult
  refine Only.await trivial fun owned ↦ Only.await trivial fun _ ↦ Only.bind (Only.attempt ?_)
    fun _ ↦ trivial
  unfold streamChat
  split
  · trivial
  refine Only.await trivial fun roster ↦ Only.await trivial fun metrics ↦
    Only.await trivial fun recent ↦
    Only.bind ((only_perform _).mpr trivial).attempt fun outcome ↦ ?_
  split <;> trivial

theorem prog_charges {g : Gate} {c₀ : RouteCall} (hg : c₀.gate cfg = some g) (c : RouteCall) :
    Only (Charges g) (c.prog dig cfg) := by
  cases c with
  | enroll request =>
      refine charge_charges hg (enrollGate request) (.enroll request) rfl fun w ↦ ?_
      split
      · trivial
      split
      · trivial
      split
      · trivial
      refine ((onTokens_charges _).bind fun _ ↦ ?_).tryCatch fun e ↦ ?_
      · trivial
      · cases e <;> trivial
  | chat request =>
      show Only _ (chatPost cfg request)
      unfold chatPost
      cases huser : request.user with
      | none => trivial
      | some user =>
          refine (onTeam_charges _).attempt.bind fun r ↦ ?_
          cases r with
          | error e => trivial
          | ok ctx =>
              dsimp only
              split
              · trivial
              split
              · trivial
              refine charge_charges hg (chatGate cfg ctx.user)
                (.chat { request with user := some ctx.user }) rfl fun w ↦ ?_
              split
              · trivial
              · exact consult_charges _ _ _

end Calls

/-! ## Runs -/

/-- The request charges a counter under the key. -/
def ChargesKey (key : String) : ∀ β : Type, SiteOp β → Prop
  | _, .limiter (.charge key' _ _) => key' = key
  | _, _ => False

instance (key : String) (β : Type) (op : SiteOp β) : Decidable (ChargesKey key β op) :=
  match β, op with
  | _, .limiter (.charge key' _ _) => inferInstanceAs (Decidable (key' = key))
  | _, .limiter (.findUser _) | _, .limiter (.findUserByEmail _) | _, .limiter (.verifyPassword _ _)
  | _, .limiter (.verifyCode _ _) | _, .limiter (.compare _ _) | _, .limiter (.hash _ _)
  | _, .limiter (.setSecret _ _) | _, .limiter (.enable _ _) | _, .limiter (.disable _)
  | _, .limiter (.setBackupCodes _ _) | _, .limiter (.createAuditLog _)
  | _, .limiter (.getCounter _) | _, .limiter (.deleteCounter _) | _, .team _ | _, .token _
  | _, .chat _ => .isFalse id

abbrev SitePool (ι : Type) := Pool ι SiteOp Err Response Site

section Runs

variable {ι η : Type} {g : Gate}

/-- No charge under the key is made in the millisecond in which its counter expires.  What else
happens, whatever it is, leaves that counter alone, and does not turn back the clock. -/
def Timely (key : String) (env : η → Site → Site) (r : Recorded (SitePool ι) (ι × MeterNote)) :
    Event ι Err η → Prop
  | .run i _ => AtRequest (ChargesKey key) (r.state.thread i) →
      ¬ r.state.shared.limiter.Expiring key
  | .env x =>
      (env x r.state.shared).limiter.counters.find? key =
          r.state.shared.limiter.counters.find? key ∧
        r.state.shared.limiter.clock ≤ (env x r.state.shared).limiter.clock

/-- A request that does not charge the counter of the gate leaves it alone. -/
theorem serve_counter (cr : Crypto) (L : Locale) {β : Type} {op : SiteOp β} (hop : Charges g β op)
    (hkey : ¬ ChargesKey g.key β op) (s : Site) :
    (s.serve cr L op).2.limiter.counters.find? g.key = s.limiter.counters.find? g.key ∧
      (s.serve cr L op).2.limiter.clock = s.limiter.clock := by
  cases op with
  | team op => exact ⟨rfl, rfl⟩
  | token op => exact ⟨rfl, rfl⟩
  | chat op => cases op <;> exact ⟨rfl, rfl⟩
  | limiter op =>
      cases op with
      | charge key limit windowMs =>
          exact ⟨by simpa [Site.serve, AuthStore.serve] using fun h ↦ absurd h.symm hkey, rfl⟩
      | deleteCounter key =>
          exact ⟨by simpa [Site.serve, AuthStore.serve] using fun h ↦ absurd h.symm hop, rfl⟩
      | setSecret | enable | disable | setBackupCodes =>
          simp only [Site.serve, AuthStore.serve, AuthStore.updateUser]
          split <;> exact ⟨rfl, rfl⟩
      | findUser | findUserByEmail | verifyPassword | verifyCode | compare | hash | createAuditLog
      | getCounter => exact ⟨rfl, rfl⟩

/-- The books of a gate, from the time `t₀` on. -/
structure Booked (g : Gate) (t₀ : Int) (held : Nat) (r : Recorded (SitePool ι) (ι × MeterNote)) :
    Prop where
  charges : ∀ i, Only (Charges g) (r.state.thread i)
  metered : AuthStore.Metered g.key g.limit g.windowMs t₀ held
    (r.log.countP fun e ↦ e.2 = .passed g.key) r.state.shared.limiter

theorem countP_passed {β : Type} {op : SiteOp β} (hkey : ¬ ChargesKey g.key β op) (f : Fate Err)
    (s : Site) : (watchMeter f β op s).countP (· = .passed g.key) = 0 := by
  rw [List.countP_eq_zero]
  intro note hnote
  unfold watchMeter at hnote
  split at hnote
  · split at hnote
    · rw [List.mem_singleton.mp hnote, decide_eq_true_eq, MeterNote.passed.injEq]
      exact hkey
    · cases hnote
  · simp [List.mem_singleton.mp hnote]
  · simp [List.mem_singleton.mp hnote]
  · simp [List.mem_singleton.mp hnote]
  · simp [List.mem_singleton.mp hnote]
  · cases hnote

theorem countP_passed_charge (key : String) (limit : Nat) (windowMs : Int) (f : Fate Err)
    (s : Site) :
    (watchMeter f _ (.limiter (.charge key limit windowMs)) s).countP (· = .passed key) ≤
      if s.limiter.Passes key limit windowMs then 1 else 0 := by
  cases f with
  | served =>
      show (if s.limiter.Passes key limit windowMs then [MeterNote.passed key] else []).countP _ ≤ _
      split <;> simp
  | refused e => exact Nat.zero_le _
  | unanswered e => exact Nat.zero_le _

theorem Booked.step [DecidableEq ι] {cr : Crypto} {L : Locale} {env : η → Site → Site} {t₀ : Int}
    {held : Nat} (hw : 0 < g.windowMs) {r r' : Recorded (SitePool ι) (ι × MeterNote)}
    {l : Event ι Err η} (h : Booked g t₀ held r) (hguard : Timely g.key env r l)
    (hstep : Recorded.step (Pool.step (siteServer cr L) env) (Pool.attend watchMeter) r l =
      some r') : Booked g t₀ held r' := by
  cases l with
  | env x =>
      obtain ⟨hstate, hlog⟩ := Pool.attended_env hstep
      rw [Timely] at hguard
      refine ⟨fun i ↦ ?_, ?_⟩
      · rw [hstate]
        exact h.charges i
      · rw [hstate, hlog]
        exact h.metered.later hguard.1 hguard.2
  | run i f =>
      obtain ⟨β, op, k, hi, hstate, hlog⟩ := Pool.attended_run hstep
      have hthread := h.charges i
      rw [hi, only_call] at hthread
      refine ⟨fun j ↦ ?_, ?_⟩
      · rw [hstate]
        exact Pool.forall_resume h.charges i f op k (hthread.2 _) j
      rw [Timely, hi] at hguard
      have hcount : r'.log.countP (fun e ↦ decide (e.2 = .passed g.key)) =
          r.log.countP (fun e ↦ decide (e.2 = .passed g.key)) +
            (watchMeter f β op r.state.shared).countP (· = .passed g.key) := by
        rw [hlog, List.countP_append, List.countP_map]
        rfl
      rw [hcount, hstate, Pool.resume_shared]
      have hserved : AuthStore.Metered g.key g.limit g.windowMs t₀ held
          (r.log.countP (fun e ↦ decide (e.2 = .passed g.key)) +
            (watchMeter f β op r.state.shared).countP (· = .passed g.key))
          (r.state.shared.serve cr L op).2.limiter := by
        by_cases hkey : ChargesKey g.key β op
        · cases op with
          | team | token | chat => exact hkey.elim
          | limiter op =>
              cases op with
              | charge key limit windowMs =>
                  obtain rfl : key = g.key := hkey
                  obtain ⟨rfl, rfl⟩ := hthread.1 rfl
                  have hle := countP_passed_charge g.key g.limit g.windowMs f r.state.shared
                  have hcharged : AuthStore.Metered g.key g.limit g.windowMs t₀ held _
                      (r.state.shared.limiter.serve cr (.charge g.key g.limit g.windowMs)).2 :=
                    h.metered.charge (hguard rfl) hw
                  exact hcharged.fewer (Nat.add_le_add_left hle _)
              | _ => exact hkey.elim
        · obtain ⟨hcounter, hclock⟩ := serve_counter cr L hthread.1 hkey r.state.shared
          rw [countP_passed hkey]
          exact h.metered.later hcounter (Int.le_of_eq hclock.symm)
      cases f with
      | served => exact hserved
      | unanswered e => exact hserved
      | refused e =>
          have hnone : (watchMeter (.refused e) β op r.state.shared) = [] := by
            cases op with
            | limiter op => cases op <;> rfl
            | team | token | chat => rfl
          rw [hnone]
          exact h.metered

/-- No time passes, and nothing fails. -/
def Prompt (_ : SitePool ι) : Event ι Err Empty → Prop
  | .run _ f => f = .served

instance (c : SitePool ι) (l : Event ι Err Empty) : Decidable (Prompt c l) :=
  match l with
  | .run _ _ => inferInstanceAs (Decidable (_ = _))
  | .env x => x.elim

/-- The counter under the key lets every charge pass. -/
def Open (key : String) : ∀ β : Type, SiteOp β → Except Err β → Prop
  | _, .limiter (.charge key' _ _), r => key' = key → ∃ w, r = .ok w ∧ w ≤ 0
  | _, _, _ => True

/-- The request has not been refused for its rate. -/
def Admitted : Response → Prop
  | .rateLimited _ => False
  | _ => True

theorem charge_admitted (gate : Gate) {f : Int → SiteM Response}
    (hpass : ∀ w, w ≤ 0 → Meets (Open gate.key) (fun _ _ ↦ True) Admitted (f w)) :
    Meets (Open gate.key) (fun _ _ ↦ True) Admitted
      (onLimiter (consumeRateLimit gate.key gate.limit gate.windowMs) >>= f) := by
  rw [charge_bind]
  refine ⟨trivial, fun r hr ↦ ?_⟩
  obtain ⟨w, rfl, hw⟩ := hr rfl
  exact hpass w hw

theorem prog_admitted (dig : Digests) {cfg : Settings} {c : RouteCall} (hg : c.gate cfg = some g) :
    Meets (Open g.key) (fun _ _ ↦ True) Admitted (c.prog dig cfg) := by
  have hany {α : Type} (p : SiteM α) : Meets (Open g.key) (fun _ _ ↦ True) (fun _ ↦ True) p :=
    Meets.of_only (Only.of_forall (fun _ _ ↦ trivial) p)
  cases c with
  | enroll request =>
      obtain rfl := Option.some.inj hg
      refine charge_admitted (enrollGate request) fun w hw ↦ ?_
      rw [if_neg (Int.not_lt.mpr hw)]
      split
      · trivial
      split
      · trivial
      refine ((hany _).bind fun _ _ ↦ ?_).tryCatch fun e ↦ ?_
      · trivial
      · cases e <;> trivial
  | chat request =>
      obtain ⟨user, huser, rfl⟩ := Option.map_eq_some_iff.mp hg
      show Meets _ _ _ (chatPost cfg request)
      unfold chatPost
      rw [huser]
      have hcontext : Meets (Open (chatGate cfg user).key) (fun _ _ ↦ True)
          (fun r ↦ ∀ ctx, r = .ok ctx → ctx.user = user)
          (Prog.attempt (onTeam (getTeamContext request.ids user))) :=
        ((getTeamContext_user request.ids user).lift (fun _ _ _ ↦ trivial)
          fun _ _ _ _ ↦ trivial).attempt
      refine hcontext.bind fun r hr ↦ ?_
      cases r with
      | error e => trivial
      | ok ctx =>
          dsimp only
          split
          · trivial
          split
          · trivial
          obtain rfl := hr ctx rfl
          refine charge_admitted (chatGate cfg ctx.user) fun w hw ↦ ?_
          rw [if_neg (Int.not_lt.mpr hw)]
          exact Meets.bind (hany _) fun owned _ ↦ Meets.bind (hany _) fun _ _ ↦
            Meets.bind (hany _) fun _ _ ↦ trivial

theorem expiring_serve {cr : Crypto} {L : Locale} {s : Site} {β : Type} {op : SiteOp β}
    (hop : Charges g β op) (h : s.limiter.Expiring g.key) :
    (s.serve cr L op).2.limiter.Expiring g.key := by
  by_cases hkey : ChargesKey g.key β op
  · cases op with
    | team | token | chat => exact hkey.elim
    | limiter op =>
        cases op with
        | charge key limit windowMs =>
            obtain rfl : key = g.key := hkey
            exact AuthStore.expiring_charge h
        | _ => exact hkey.elim
  · obtain ⟨hcounter, hclock⟩ := serve_counter cr L hop hkey s
    rw [AuthStore.Expiring, hcounter, hclock]
    exact h

/-- In the millisecond in which a window ends, however many requests come in and however they
interleave, none of those behind the gate is refused for its rate. -/
theorem nobody_refused [DecidableEq ι] (cr : Crypto) (L : Locale) (dig : Digests) (cfg : Settings)
    (calls : ι → RouteCall) {s : Site} {i : ι} (hg : (calls i).gate cfg = some g)
    (hexpiring : s.limiter.Expiring g.key) {c : SitePool ι}
    (h : Reach (Pool.step (siteServer cr L) fun x : Empty ↦ x.elim) Prompt
      ⟨s, fun i ↦ (calls i).prog dig cfg⟩ c) :
    ¬ Returned (¬ Admitted ·) (c.thread i) := by
  have hinv : (c.shared.limiter.Expiring g.key ∧ ∀ j, Only (Charges g) (c.thread j)) ∧
      Meets (Open g.key) (fun _ _ ↦ True) Admitted (c.thread i) := by
    refine h.invariant (I := fun c ↦ (c.shared.limiter.Expiring g.key ∧
      ∀ j, Only (Charges g) (c.thread j)) ∧ Meets _ (fun _ _ ↦ True) Admitted (c.thread i))
      ⟨⟨hexpiring, fun j ↦ prog_charges hg (calls j)⟩, prog_admitted dig hg⟩ ?_
    rintro c l d ⟨⟨hc, hcharges⟩, hmeets⟩ hguard hstep
    cases l with
    | env x => exact x.elim
    | run j f =>
        obtain rfl := hguard
        obtain ⟨β, op, k, hj, rfl⟩ := Pool.step_run hstep
        have hthread := hcharges j
        rw [hj, only_call] at hthread
        refine ⟨⟨expiring_serve hthread.1 hc, fun j' ↦ ?_⟩, ?_⟩
        · exact Pool.forall_resume hcharges j .served op k (hthread.2 _) j'
        · by_cases hji : i = j
          · subst hji
            rw [Pool.resume_thread_self]
            rw [hj] at hmeets
            refine hmeets.2 _ ?_
            cases op with
            | team | token | chat => trivial
            | limiter op =>
                cases op with
                | charge key limit windowMs =>
                    rintro rfl
                    exact ⟨_, rfl, AuthStore.passes_of_expiring hc⟩
                | _ => trivial
          · rw [Pool.resume_thread_of_ne _ hji]
            exact hmeets
  have hmeets := hinv.2
  cases hi : c.thread i with
  | pure response =>
      rw [hi] at hmeets
      exact fun hrefused ↦ hrefused hmeets
  | throw e => exact id
  | call op k => exact id

instance (key : String) (r : Recorded (SitePool ι) (ι × MeterNote)) (l : Event ι Err Empty) :
    Decidable (Timely key (fun x : Empty ↦ x.elim) r l) :=
  match l with
  | .run i _ => inferInstanceAs (Decidable (AtRequest (ChargesKey key) (r.state.thread i) →
      ¬ r.state.shared.limiter.Expiring key))
  | .env x => x.elim

end Runs

/-! ## An example deployment -/

def exampleSettings : Settings where
  agentMqttHost := "localhost"
  agentMqttPort := 8883
  caPem := none
  aiConfigured := true
  aiModel := "deepseek-chat"
  aiRateLimitPerHour := 60
  parse _ := none

/-- The example token is issued; nobody has been counted. -/
def exampleSite : Site where
  team := ⟨0, ∅, ∅, ∅, ∅, ∅, []⟩
  limiter := ⟨0, ∅, ∅, []⟩
  tokens := issuedBackend
  context := ⟨∅, ∅, [], ∅⟩
  consultations := []
  provider _ := .aborted

/-- Redeems the example token. -/
def exampleEnroll : EnrollRequest where
  forwarded := none
  realIp := some "192.0.2.7"
  authorization := some ("Bearer " ++ TOKEN_PREFIX ++ b64url exampleDraws.tokenBytes)
  body := some {}

/-- More requests than the limit allows have come from the address, ten minutes ago. -/
def expiringSite : Site :=
  { exampleSite with
    limiter := { exampleSite.limiter with
      counters := ⟨[((enrollGate exampleEnroll).key, ⟨25, some 0⟩)], List.nodup_singleton _⟩ } }

/-- Two more requests come, and both are answered. -/
theorem nobody_refused_example : ∃ c : SitePool Bool,
    (∀ b, Returned (fun _ ↦ True) (c.thread b)) ∧ ¬ Returned (¬ Admitted ·) (c.thread true) := by
  have hexec : ((exec (Pool.step (siteServer plainCrypto ⟨fun _ _ ↦ .eq, fun _ ↦ ""⟩)
      fun x : Empty ↦ x.elim) Prompt
      ⟨expiringSite,
        fun _ : Bool ↦ (RouteCall.enroll exampleEnroll).prog plainDigests exampleSettings⟩
      (.replicate 9 (.run false .served) ++ .replicate 2 (.run true .served))).any fun c ↦
        decide (∀ b, Returned (fun _ ↦ True) (c.thread b))) = true := by
    decide
  obtain ⟨c, hc, hreturned⟩ := Reach.exists_of_exec _ hexec
  exact ⟨c, hreturned, nobody_refused _ _ _ _ (fun _ ↦ .enroll exampleEnroll) rfl (by decide) hc⟩

end Zenstier.Api
