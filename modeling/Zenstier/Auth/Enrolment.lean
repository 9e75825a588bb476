import Zenstier.Auth.Service
import Zenstier.Concurrent.Journal

/-!
# Enrolment

`beginTotpSetup` stores a new secret as long as the second factor is off, and
`confirmTotpSetup` switches it on once a code for the stored secret is accepted.  Both look at
the account first and write later.  The secret may be replaced while the recovery codes are
hashed, and a slow start may replace the secret of a factor that is on by now.  As long as each
write finds what the call has read, the secret of a factor that is on is a confirmed one.
-/

namespace Zenstier

open Concurrent Prog

/-- The secret that is stored for a user. -/
def AuthStore.totpSecret (s : AuthStore) (userId : String) : Option String :=
  (s.users.find? userId).bind (·.totpSecret)

/-- A call for a user, with what it draws at random. -/
inductive SetupCall
  | begin (renderQr : String → Except Err String) (bytes : List UInt8) (email : String)
  | confirm (draws : Fin 10 → RecoveryDraw) (code : String)
  | disable (code : String)

/-- The call, whatever it returns. -/
def SetupCall.program (userId : String) : SetupCall → AuthM Unit
  | .begin renderQr bytes email => do
      let _ ← beginTotpSetup renderQr bytes userId email
      return ()
  | .confirm draws code => do
      let _ ← confirmTotpSetup draws userId code
      return ()
  | .disable code => disableTotp userId code

/-- What is noted of a call. -/
inductive SetupNote
  | read (totpSecret : Option String)
  /-- A code for the secret has been accepted. -/
  | accepted (secret : String)
  | enabled
deriving DecidableEq, Repr

/-- Takes note of the secret that a call reads, of a code that it accepts, and of enabling. -/
def watchSetup (cr : Crypto) (userId : String) (f : Fate Err) (β : Type) :
    AuthOp β → AuthStore → List SetupNote
  | .findUser _, s => if f = .served then [.read (s.totpSecret userId)] else []
  | .verifyCode secret submitted, s =>
      if f = .served ∧ (Totp.verifyCode cr.hmac secret submitted s.clock).toOption = some true then
        [.accepted secret] else []
  | .enable _ _, _ => match f with
      | .served | .unanswered _ => [.enabled]
      | .refused _ => []
  | _, _ => []

/-- Enabling finds the secret that the call has read; and a secret that is stored while the
factor is on is the one that is there. -/
def SecretKept (userId : String) (n : List SetupNote) : ∀ β : Type, AuthOp β → AuthStore → Prop
  | _, .enable _ _, s => .read (s.totpSecret userId) ∈ n
  | _, .setSecret _ secret, s => (s.users.find? userId).all fun user ↦
      user.totpEnabled → user.totpSecret = some secret
  | _, _, _ => True

instance (userId : String) (n : List SetupNote) (β : Type) (op : AuthOp β) (s : AuthStore) :
    Decidable (SecretKept userId n β op s) := by
  cases op <;> unfold SecretKept <;> infer_instance

section Runs

variable {ι : Type} [DecidableEq ι]

/-- Calls at the same time, all for the same user. -/
abbrev SetupPool (ι : Type) := Pool ι AuthOp Err Unit AuthStore

/-- The call that has enabled the factor last. -/
def enabledBy (log : List (ι × SetupNote)) : Option ι :=
  ((log.filter (·.2 = .enabled)).getLast?).map Prod.fst

/-- If the factor is on, a code for the secret has been accepted by the call that has enabled it;
or nobody has, and it has been on with this secret from the start. -/
def Confirmed (userId : String) (s₀ : AuthStore)
    (r : Recorded (SetupPool ι) (ι × SetupNote)) : Prop :=
  ∀ user, r.state.shared.users.find? userId = some user → user.totpEnabled →
    (∃ i secret, enabledBy r.log = some i ∧ (i, .accepted secret) ∈ r.log ∧
      user.totpSecret = some secret) ∨
    enabledBy r.log = none ∧ ∃ user₀, s₀.users.find? userId = some user₀ ∧ user₀.totpEnabled ∧
      user.totpSecret = user₀.totpSecret

end Runs

/-! ## Requests -/

/-- The requests of the calls for a user; those that enable are made by some of the calls. -/
def AuthOp.Setup (userId : String) (enabling : Prop) : ∀ β : Type, AuthOp β → Prop
  | _, .findUser _ | _, .verifyCode _ _ | _, .compare _ _ | _, .hash _ _
  | _, .createAuditLog _ => True
  | _, .setSecret id _ | _, .disable id | _, .setBackupCodes id _ => id = userId
  | _, .enable id _ => enabling ∧ id = userId
  | _, _ => False

section Calls

variable {cr : Crypto} {userId : String} {enabling : Prop}

theorem AuthOp.Setup.mono {enabling' : Prop} (h : enabling → enabling') (β : Type)
    (op : AuthOp β) (hop : AuthOp.Setup userId enabling β op) :
    AuthOp.Setup userId enabling' β op := by
  cases op with
  | enable => exact ⟨h hop.1, hop.2⟩
  | _ => exact hop

theorem beginTotpSetup_setup (renderQr : String → Except Err String) (bytes : List UInt8)
    (email : String) :
    Only (AuthOp.Setup userId enabling) (beginTotpSetup renderQr bytes userId email) := by
  refine .await trivial fun found ↦ ?_
  cases found with
  | none => trivial
  | some user =>
      dsimp only
      split
      · trivial
      · refine .await rfl fun _ ↦ ?_
        exact Only.bind ((only_ofExcept _).mpr trivial) fun _ ↦ trivial

theorem confirmTotpSetup_setup (draws : Fin 10 → RecoveryDraw) (code : String) :
    Only (AuthOp.Setup userId True) (confirmTotpSetup draws userId code) := by
  refine .await trivial fun found ↦ ?_
  cases found with
  | none => trivial
  | some user =>
      dsimp only
      split
      · trivial
      · split
        · trivial
        · refine .await trivial fun b ↦ ?_
          cases b with
          | false => trivial
          | true =>
              refine Only.bind (.awaitAll ?_) fun hashed ↦ ?_
              · intro p hp
                obtain ⟨d, -, rfl⟩ := List.mem_map.mp hp
                exact (only_perform _).mpr trivial
              · exact .await ⟨trivial, rfl⟩ fun _ ↦ .await trivial fun _ ↦ trivial

theorem disableTotp_setup (code : String) :
    Only (AuthOp.Setup userId enabling) (disableTotp userId code) := by
  refine .await trivial fun found ↦ ?_
  cases found with
  | none => trivial
  | some user =>
      dsimp only
      cases user.factor with
      | none => trivial
      | some secret =>
          refine Only.bind (verifySecondFactor_only trivial (fun _ _ ↦ trivial)
            (fun _ _ ↦ trivial) (fun _ ↦ rfl) (fun _ ↦ trivial) code) fun b ↦ ?_
          cases b with
          | false => trivial
          | true => exact .await rfl fun _ ↦ (only_perform _).mpr trivial

theorem SetupCall.setup (call : SetupCall) :
    Only (AuthOp.Setup userId True) (call.program userId) := by
  cases call with
  | begin renderQr bytes email => exact (beginTotpSetup_setup _ _ _).bind fun _ ↦ trivial
  | confirm draws code => exact (confirmTotpSetup_setup _ _).bind fun _ ↦ trivial
  | disable code => exact disableTotp_setup code

/-! ## What a call notes -/

/-- A call that has enabled the factor has accepted a code for the secret it has read. -/
def Enables (n : List SetupNote) : Prop :=
  .enabled ∈ n → ∃ secret, .accepted secret ∈ n ∧ ∀ found, .read found ∈ n → found = some secret

/-- The notes of a call that enables nothing. -/
theorem Enables.of_only {p : AuthM Unit} (hp : Only (AuthOp.Setup userId False) p) :
    Tracks (authServer cr) (watchSetup cr userId) (SecretKept userId) Enables p [] := by
  refine Tracks.mono (Q := fun n ↦ .enabled ∉ n) (fun n hn h ↦ absurd h hn)
    (.of_only hp (fun β op f s n hop hn ↦ ?_) List.not_mem_nil)
  rw [List.mem_append, not_or]
  refine ⟨hn, ?_⟩
  cases op with
  | findUser => rw [watchSetup]; split <;> simp
  | verifyCode => rw [watchSetup]; split <;> simp
  | enable => exact hop.1.elim
  | _ => exact List.not_mem_nil

theorem confirmTotpSetup_enables (draws : Fin 10 → RecoveryDraw) (code : String) :
    Tracks (authServer cr) (watchSetup cr userId) (SecretKept userId) Enables
      (SetupCall.program userId (.confirm draws code)) [] := by
  rw [SetupCall.program, confirmTotpSetup, Prog.bind_assoc]
  refine .await (by simp [Enables]) (fun s f _ ↦ ?_) fun s found _ hfound ↦ ?_
  · rw [watchSetup]
    split <;> simp [Enables]
  · obtain rfl : s.users.find? userId = found := Except.ok.inj hfound
    rw [watchSetup, if_pos rfl, List.nil_append]
    cases hu : s.users.find? userId with
    | none => simp [Tracks, Enables]
    | some user =>
        have hread : s.totpSecret userId = user.totpSecret := by
          rw [AuthStore.totpSecret, hu]
          rfl
        rw [hread]
        dsimp only
        split
        · simp [Tracks, Enables]
        · split
          · simp [Tracks, Enables]
          · rename_i secret hsecret
            rw [truthy_eq_some hsecret, Prog.bind_assoc]
            have hnote : ∀ s f, Enables ([.read (some secret)] ++
                watchSetup cr userId f Bool (.verifyCode secret code) s) := by
              intro s f
              rw [watchSetup]
              split <;> simp [Enables]
            refine .await (by simp [Enables]) (fun s f _ ↦ hnote s f) fun s b _ hb ↦ ?_
            rw [authServer_serve, AuthStore.serve_verifyCode] at hb
            dsimp only at hb
            cases b with
            | false => exact hnote s .served
            | true =>
                have haccepted : watchSetup cr userId .served Bool (.verifyCode secret code) s =
                    [.accepted secret] := by
                  simp [watchSetup, hb, Except.toOption]
                rw [haccepted, if_pos rfl, Prog.bind_assoc]
                refine .quiet (.awaitAll fun p hp ↦ ?_) (by simp [Enables]) fun hashed ↦ ?_
                · obtain ⟨d, -, rfl⟩ := List.mem_map.mp hp
                  exact (only_perform _).mpr fun f s ↦ rfl
                · rw [Prog.bind_assoc]
                  refine .await (by simp [Enables]) (fun s f _ ↦ ?_) fun s _ _ _ ↦ ?_
                  · cases f <;> simp [watchSetup, Enables]
                  · rw [Prog.bind_assoc]
                    refine .skip (fun f s ↦ rfl) ?_ fun _ ↦ ?_
                    · simp [watchSetup, Enables]
                    · simp [watchSetup, Tracks, Enables]

theorem SetupCall.enables (call : SetupCall) :
    Tracks (authServer cr) (watchSetup cr userId) (SecretKept userId) Enables
      (call.program userId) [] := by
  cases call with
  | begin renderQr bytes email =>
      exact Enables.of_only ((beginTotpSetup_setup _ _ _).bind fun _ ↦ trivial)
  | confirm draws code => exact confirmTotpSetup_enables draws code
  | disable code => exact Enables.of_only (disableTotp_setup code)

end Calls

/-! ## The account -/

section Runs

variable {ι : Type} [DecidableEq ι] {cr : Crypto} {userId : String} {n : List SetupNote}

/-- A request after which the factor is on enables it for the secret that the call has read, or it
was on before with the same secret. -/
theorem AuthOp.Setup.after {β : Type} {op : AuthOp β}
    (hop : AuthOp.Setup userId True β op) {f : Fate Err} {s : AuthStore} {user : UserAccount}
    (hguard : (∀ e, f ≠ .refused e) → SecretKept userId n β op s)
    (huser : ((authServer cr).after f op s).users.find? userId = some user)
    (hon : user.totpEnabled) :
    (watchSetup cr userId f β op s = [.enabled] ∧ .read user.totpSecret ∈ n) ∨
      .enabled ∉ watchSetup cr userId f β op s ∧ ∃ user₀, s.users.find? userId = some user₀ ∧
        user₀.totpEnabled ∧ user.totpSecret = user₀.totpSecret := by
  by_cases hf : ∀ e, f ≠ .refused e
  · have hafter : (authServer cr).after f op s = (s.serve cr op).2 := by
      cases f with
      | refused e => exact absurd rfl (hf e)
      | served => rfl
      | unanswered e => rfl
    rw [hafter] at huser
    have hop_guard := hguard hf
    cases op with
    | findUser | verifyCode =>
        refine .inr ⟨?_, user, huser, hon, rfl⟩
        rw [watchSetup]
        split <;> simp
    | compare | hash | createAuditLog =>
        exact .inr ⟨List.not_mem_nil, user, huser, hon, rfl⟩
    | setSecret id secret =>
        obtain rfl : id = userId := hop
        rw [AuthStore.serve, AuthStore.find?_updateUser] at huser
        obtain ⟨user₀, huser₀, rfl⟩ := Option.map_eq_some_iff.mp huser
        rw [SecretKept, huser₀] at hop_guard
        have hon₀ : user₀.totpEnabled = true := hon
        have hsecret : user₀.totpSecret = some secret := by
          simpa [hon₀] using hop_guard
        exact .inr ⟨List.not_mem_nil, user₀, huser₀, hon, hsecret.symm⟩
    | disable id =>
        obtain rfl : id = userId := hop
        rw [AuthStore.serve, AuthStore.find?_updateUser] at huser
        obtain ⟨user₀, huser₀, rfl⟩ := Option.map_eq_some_iff.mp huser
        cases hon
    | setBackupCodes id codes =>
        obtain rfl : id = userId := hop
        rw [AuthStore.serve, AuthStore.find?_updateUser] at huser
        obtain ⟨user₀, huser₀, rfl⟩ := Option.map_eq_some_iff.mp huser
        exact .inr ⟨List.not_mem_nil, user₀, huser₀, hon, rfl⟩
    | enable id codes =>
        obtain rfl : id = userId := hop.2
        rw [AuthStore.serve, AuthStore.find?_updateUser] at huser
        obtain ⟨user₀, huser₀, rfl⟩ := Option.map_eq_some_iff.mp huser
        rw [SecretKept, AuthStore.totpSecret, huser₀, Option.bind_some] at hop_guard
        refine .inl ⟨?_, hop_guard⟩
        cases f with
        | refused e => exact absurd rfl (hf e)
        | served => rfl
        | unanswered e => rfl
    | findUserByEmail | verifyPassword | getCounter | charge | deleteCounter => exact hop.elim
  · obtain ⟨e, rfl⟩ : ∃ e, f = .refused e := by simpa using hf
    refine .inr ⟨?_, user, huser, hon, rfl⟩
    cases op <;> simp [watchSetup]

omit [DecidableEq ι] in
theorem enabledBy_append {log : List (ι × SetupNote)} {notes : List (ι × SetupNote)}
    (h : ∀ e ∈ notes, e.2 ≠ .enabled) : enabledBy (log ++ notes) = enabledBy log := by
  have hnone : notes.filter (·.2 = .enabled) = [] := by
    rw [List.filter_eq_nil_iff]
    intro e he
    simpa using h e he
  rw [enabledBy, List.filter_append, hnone, List.append_nil, enabledBy]

omit [DecidableEq ι] in
theorem enabledBy_enabled (log : List (ι × SetupNote)) (i : ι) :
    enabledBy (log ++ [(i, .enabled)]) = some i := by
  simp [enabledBy, List.filter_append]

/-- If each write finds what the call has read, the secret of a factor that is on is the one for
which a code has been accepted. -/
theorem secret_confirmed {calls : ι → SetupCall} {s₀ : AuthStore}
    {r : Recorded (SetupPool ι) (ι × SetupNote)}
    (h : Reach (Recorded.step (Pool.step (authServer cr) AuthStore.tick)
        (Pool.attend (watchSetup cr userId))) (Guarded fun _ ↦ SecretKept userId)
      ⟨⟨s₀, fun i ↦ (calls i).program userId⟩, []⟩ r) : Confirmed userId s₀ r := by
  have hcalls : ∀ {r}, Reach (Recorded.step (Pool.step (authServer cr) AuthStore.tick)
        (Pool.attend (watchSetup cr userId))) (Guarded fun _ ↦ SecretKept userId)
        ⟨⟨s₀, fun i ↦ (calls i).program userId⟩, []⟩ r →
      ∀ i, Enables (notesOf i r.log) ∧
        Only (AuthOp.Setup userId True) (r.state.thread i) := by
    intro r hr i
    refine ⟨Tracks.reach (fun i ↦ (calls i).enables) hr i, ?_⟩
    refine Pool.notes_invariant (Φ := fun _ p _ ↦ Only (AuthOp.Setup userId True) p) ?_ ?_ hr i
    · exact fun i ↦ (calls i).setup
    · exact fun i β op k n s f hcall _ ↦ ((only_call op k).mp hcall).2 _
  induction h with
  | start => exact fun user huser hon ↦ .inr ⟨rfl, user, huser, hon, rfl⟩
  | @next r r' l hr hg hs ih =>
      obtain ⟨hstep, hlog⟩ := Recorded.step_eq_some hs
      intro user huser hon
      cases l with
      | env ms =>
          rw [Pool.attend, List.append_nil] at hlog
          rw [Pool.step_env hstep] at huser
          rw [hlog]
          exact ih user huser hon
      | run i f =>
          obtain ⟨β, op, k, hi, hstate⟩ := Pool.step_run hstep
          have hop : AuthOp.Setup userId True β op := by
            have := (hcalls hr i).2
            rw [hi] at this
            exact ((only_call op k).mp this).1
          simp only [Pool.attend, hi] at hlog
          simp only [Guarded, hi, atRequest_call] at hg
          rw [hstate, Pool.resume_shared] at huser
          rcases hop.after hg huser hon with ⟨hnote, hread⟩ | ⟨hquiet, user₀, huser₀, hon₀, hsame⟩
          · rw [hnote, List.map_singleton] at hlog
            have henabled : .enabled ∈ notesOf i r'.log := mem_notesOf.mpr (by simp [hlog])
            have hkept : .read user.totpSecret ∈ notesOf i r'.log := by
              rw [mem_notesOf, hlog]
              exact List.mem_append_left _ (mem_notesOf.mp hread)
            obtain ⟨secret, haccepted, hsecret⟩ := (hcalls (hr.next _ (by
              simpa only [Guarded, hi, atRequest_call] using hg) hs) i).1 henabled
            refine .inl ⟨i, secret, ?_, mem_notesOf.mp haccepted, hsecret _ hkept⟩
            rw [hlog, enabledBy_enabled]
          · have hby : enabledBy r'.log = enabledBy r.log := by
              rw [hlog]
              refine enabledBy_append fun e he heq ↦ ?_
              obtain ⟨x, hx, rfl⟩ := List.mem_map.mp he
              exact hquiet (heq ▸ hx)
            rw [hby, hsame]
            refine (ih user₀ huser₀ hon₀).imp_left ?_
            rintro ⟨j, secret, hj, haccepted, hsecret⟩
            exact ⟨j, secret, hj, hlog ▸ List.mem_append_left _ haccepted, hsecret⟩

end Runs

/-- An account with a pending secret. -/
def pendingAccount : AuthStore where
  clock := 60000
  users := ⟨[("u", { email := "u@x", totpSecret := some "A" })], by decide⟩
  counters := ∅
  auditLogs := []

/-- A call that confirms the pending secret, and one that starts again. -/
def setupCalls (i : Fin 2) : SetupCall :=
  if i.val = 0 then .confirm (fun _ ↦ ⟨List.replicate 5 0, ""⟩) "000000"
  else .begin (fun _ ↦ .ok "<svg/>") (List.replicate 20 0) "u@x"

/-- The secret is replaced while the recovery codes are hashed. -/
theorem secret_unconfirmed :
    ¬ ∀ r, Reach (Recorded.step (Pool.step (authServer plainCrypto) AuthStore.tick)
        (Pool.attend (watchSetup plainCrypto "u"))) (fun _ _ ↦ True)
        ⟨⟨pendingAccount, fun i ↦ (setupCalls i).program "u"⟩, []⟩ r →
      Confirmed "u" pendingAccount r := by
  obtain ⟨r, hr, hlog, huser⟩ : ∃ r, Reach (Recorded.step
        (Pool.step (authServer plainCrypto) AuthStore.tick)
        (Pool.attend (watchSetup plainCrypto "u"))) (fun _ _ ↦ True)
        ⟨⟨pendingAccount, fun i ↦ (setupCalls i).program "u"⟩, []⟩ r ∧
      r.log = [(0, .read (some "A")), (0, .accepted "A"), (1, .read (some "A")), (0, .enabled)] ∧
      (r.state.shared.users.find? "u").any fun user ↦
        user.totpEnabled ∧ user.totpSecret ≠ some "A" :=
    Reach.exists_of_exec (List.replicate 12 (.run 0 .served) ++
      List.replicate 2 (.run 1 .served) ++ [.run 0 .served]) (by decide +kernel)
  intro h
  obtain ⟨user, hfind, huser⟩ := (Option.any_eq_true _ _).mp huser
  rw [decide_eq_true_eq] at huser
  rcases h r hr user hfind huser.1 with ⟨i, secret, -, haccepted, hsecret⟩ | ⟨hby, -⟩
  · obtain ⟨-, rfl⟩ : i = 0 ∧ secret = "A" := by simpa [hlog] using haccepted
    exact huser.2 hsecret
  · rw [hlog] at hby
    exact absurd hby (by decide)

/-- A call that is not disturbed enables the secret it has accepted a code for. -/
theorem secret_confirmed_alone :
    ∃ r : Recorded (SetupPool (Fin 2)) (Fin 2 × SetupNote),
      (r.state.shared.users.find? "u").any (·.totpEnabled) ∧
        Confirmed "u" pendingAccount r := by
  obtain ⟨r, hr, hon⟩ : ∃ r, Reach (Recorded.step
        (Pool.step (authServer plainCrypto) AuthStore.tick)
        (Pool.attend (watchSetup plainCrypto "u"))) (Guarded fun _ ↦ SecretKept "u")
        ⟨⟨pendingAccount, fun i ↦ (setupCalls i).program "u"⟩, []⟩ r ∧
      (r.state.shared.users.find? "u").any (·.totpEnabled) :=
    Reach.exists_of_exec (List.replicate 14 (.run 0 .served)) (by decide +kernel)
  exact ⟨r, hon, secret_confirmed hr⟩

end Zenstier
