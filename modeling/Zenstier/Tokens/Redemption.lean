import Zenstier.Tokens.Service
import Zenstier.Concurrent.Pool

/-!
# Redeeming one token several times at once

`takePendingSecret` reads the pending MQTT password with one Redis command and deletes it
with the next.  Two calls that present the same token and both read before either
deletes get the same password, and nothing later in `consumeEnrollmentToken` stops the
second: the status is checked before the secret is taken and written without a condition.

Whoever has read the password *holds* it: its call can return without reading again.  As
long as no call reads between another's read and its deletion, there is at most one
holder, and the password is in Redis only while the holder is about to delete it.
-/

namespace Zenstier

open Store Concurrent Prog

namespace Redemption

/-- The request reads a pending password. -/
def Reads : ∀ β : Type, TokenOp β → Prop
  | _, .redisGet _ => True
  | _, _ => False

/-- The request deletes a pending password. -/
def Deletes : ∀ β : Type, TokenOp β → Prop
  | _, .redisDel _ => True
  | _, _ => False

instance {β : Type} (op : TokenOp β) : Decidable (Reads β op) := by
  cases op <;> first | exact .isTrue trivial | exact .isFalse id

instance {β : Type} (op : TokenOp β) : Decidable (Deletes β op) := by
  cases op <;> first | exact .isTrue trivial | exact .isFalse id

/-- The call can still return credentials without reading the pending password again. -/
def Holds (p : TokenM EnrollmentResult) : Prop := Ahead Reads (Returned fun _ ↦ True) p

@[simp] theorem holds_call {β : Type} (op : TokenOp β)
    (k : Except Err β → TokenM EnrollmentResult) :
    Holds (.call op k) ↔ ¬ Reads β op ∧ ∃ r, Holds (k r) := by
  simp [Holds, ahead_call]

@[simp] theorem not_holds_throw (e : Err) : ¬ Holds (.throw e) := id

/-! ## What a redemption does -/

/-- The token that the hash `h` is looked up under is the row `tid`. -/
def Finds (h tid : String) : ∀ β : Type, TokenOp β → Except Err β → Prop
  | _, .findTokenByHash h', .ok (some t) => h' = h → t.id = tid
  | _, _, _ => True

/-- The step discipline of a redemption whose secret is under `key`: a call holds the
secret only after reading it, and then deletes it before anything else. -/
def Disciplined (key : String) :
    ∀ β : Type, TokenOp β → (Except Err β → TokenM EnrollmentResult) → Prop
  | _, .redisGet k', k => k' = key ∧
      ∀ r, Holds (k r) → (∃ v, r = .ok (some v)) ∧ AtRequest Deletes (k r)
  | _, .redisDel k', k => k' = key ∧ ∀ e, ¬ Holds (k (.error e))
  | _, .now, _ | _, .findTokenByHash _, _ | _, .dynsecSend _, _
  | _, .markConsumed .., _ => True
  | _, _, _ => False

theorem disciplined_of_enrolls {key : String} (β : Type) (op : TokenOp β)
    (k : Except Err β → TokenM EnrollmentResult) (h : Enrolls β op) :
    Disciplined key β op k := by
  cases op <;> first | exact h.elim | trivial

/-- Every redemption keeps to the discipline. -/
theorem consume_disciplined (dig : Digests) (plaintextToken : String) (facts : HostFacts)
    (tid : String) :
    Always (Finds (dig.sha256 plaintextToken) tid) (Disciplined (pendingKey tid))
      (consumeEnrollmentToken dig plaintextToken facts) := by
  unfold consumeEnrollmentToken
  rw [perform_bind, always_call]
  refine ⟨trivial, ?_⟩
  rintro (e | _ | ⟨id, token, _ | ⟨d, device⟩⟩) hid
  · trivial
  · trivial
  · trivial
  obtain rfl : id = tid := hid rfl
  rw [ofExcept_ok, pure_bind]
  have hcheck : Only Enrolls (checkRedeemable token) := checkRedeemable_only trivial token
  refine Always.bind hcheck disciplined_of_enrolls fun _ ↦ ?_
  rw [takePendingSecret_bind, always_call]
  constructor
  · refine ⟨rfl, ?_⟩
    rintro (e | v) hv
    · exact absurd hv (not_holds_throw e)
    simp only [ofExcept_ok, pure_bind, enrollWith] at hv ⊢
    cases ht : truthy v with
    | none => simp [ht] at hv
    | some password =>
        obtain rfl := truthy_eq_some ht
        exact ⟨⟨_, rfl⟩, trivial⟩
  · rintro (e | v) -
    · trivial
    simp only [ofExcept_ok, pure_bind, enrollWith]
    cases ht : truthy v with
    | none => trivial
    | some password =>
        rw [Option.isSome_some, if_pos rfl, always_call]
        refine ⟨⟨rfl, fun e ↦ not_holds_throw e⟩, ?_⟩
        rintro (e | _) -
        · trivial
        · exact Always.of_only (enroll_only ..) disciplined_of_enrolls

/-! ## The invariant -/

/-- The pending password that a read under `key` returns. -/
def secret (s : Backend) (key : String) : Option String :=
  ((s.redis.find? key).filter fun e ↦ s.clock < e.expiresAt).map (·.value)

/-- The rows with the token hash `h` are the row `tid`. -/
def Identifies (s : Backend) (h tid : String) : Prop :=
  ∀ ⦃id tok⦄, s.tokens.find? id = some tok → tok.tokenHash = h → id = tid

/-- A unique column identifies the row of each of its values. -/
theorem exists_identifies {s : Backend} (hu : s.tokens.UniqueOn (·.tokenHash)) (h : String) :
    ∃ tid, Identifies s h tid := by
  by_cases hex : ∃ id tok, s.tokens.find? id = some tok ∧ tok.tokenHash = h
  · obtain ⟨tid, tok, ht, rfl⟩ := hex
    exact ⟨tid, fun id tok' ht' heq ↦ hu ht' ht heq⟩
  · exact ⟨"", fun id tok ht heq ↦ absurd ⟨id, tok, ht, heq⟩ hex⟩

variable {h tid key : String}

/-- A lookup by hash finds the row it identifies. -/
theorem serve_finds {s : Backend} (hs : Identifies s h tid) {β : Type} (op : TokenOp β) :
    Finds h tid β op (tokenServer.serve op s).1 := by
  cases op with
  | findTokenByHash h' =>
      simp only [tokenServer_serve, Backend.serve]
      cases hf : s.tokens.findFirst fun _ t ↦ t.tokenHash = h' with
      | none => trivial
      | some e =>
          obtain ⟨id, tok⟩ := e
          obtain ⟨htok, hh⟩ := Table.findFirst_eq_some hf
          rintro rfl
          exact hs htok (by simpa using hh)
  | _ => trivial

section Steps

variable {s : Backend} {β : Type} {op : TokenOp β} {k : Except Err β → TokenM EnrollmentResult}

/-- A step of a redemption leaves the rows' hashes alone. -/
theorem identifies_after (hop : Disciplined key β op k) (hs : Identifies s h tid)
    (f : Fate Err) : Identifies (tokenServer.after f op s) h tid := by
  refine Server.after_of (Identifies · h tid) hs ?_ f
  cases op with
  | now => exact hs
  | findTokenByHash => exact hs
  | dynsecSend => exact hs
  | redisGet => exact hs
  | redisDel => exact hs
  | markConsumed t d facts c l audit =>
      rcases s.commit_cases (s.markConsumed t d facts c l audit) with he | ⟨s', hok, he⟩
      · simpa only [tokenServer_serve, Backend.serve, he] using hs
      simp only [tokenServer_serve, Backend.serve, he]
      intro id tok htok hh
      rw [(Backend.markConsumed_eq_ok hok).1] at htok
      rcases Table.find?_update_eq_some htok with ⟨old, -, hold, rfl⟩ | ⟨-, htok⟩
      · exact hs hold hh
      · exact hs htok hh
  | _ => exact hop.elim

/-- A step of a redemption brings no pending password back. -/
theorem secret_after (hop : Disciplined key β op k) (hs : secret s tid = none) (f : Fate Err) :
    secret (tokenServer.after f op s) tid = none := by
  refine Server.after_of (secret · tid = none) hs ?_ f
  cases op with
  | now => exact hs
  | findTokenByHash => exact hs
  | dynsecSend => exact hs
  | redisGet => exact hs
  | redisDel key' =>
      simp only [tokenServer_serve, Backend.serve, secret, Table.find?_delete] at hs ⊢
      split
      · rfl
      · exact hs
  | markConsumed t d facts c l audit =>
      rcases s.commit_cases (s.markConsumed t d facts c l audit) with he | ⟨s', hok, he⟩
      · simpa only [tokenServer_serve, Backend.serve, he] using hs
      obtain ⟨-, -, hr, -, hc⟩ := Backend.markConsumed_eq_ok hok
      simpa only [tokenServer_serve, Backend.serve, he, secret, hr, hc] using hs
  | _ => exact hop.elim

/-- A deletion that takes effect leaves no pending password. -/
theorem secret_redisDel (s : Backend) (key : String) :
    secret (s.serve (.redisDel key)).2 key = none := by
  simp [Backend.serve, secret]

/-- Passing time brings no pending password back. -/
theorem secret_tick (hs : secret s key = none) (ms : Nat) : secret (tick ms s) key = none := by
  simp only [secret, Option.map_eq_none_iff, Option.filter_eq_none_iff] at hs ⊢
  intro e he
  have hexp : ¬ s.clock < e.expiresAt := by simpa using hs e he
  have hlater : ¬ (tick ms s).clock < e.expiresAt := by
    show ¬ s.clock + ms < e.expiresAt
    omega
  simpa using hlater

end Steps

section Run

variable {ι : Type} [DecidableEq ι]

/-- No call reads the pending password between another's read and its deletion. -/
def Undisturbed (c : Pool ι TokenOp Err EnrollmentResult Backend) : Event ι Err Nat → Prop
  | .run i _ => AtRequest Reads (c.thread i) → ∀ j, ¬ AtRequest Deletes (c.thread j)
  | .env _ => True

/-- There is at most one holder, and until it deletes the password, it is the one that
can. -/
structure Inv (h tid : String) (c : Pool ι TokenOp Err EnrollmentResult Backend) : Prop where
  identifies : Identifies c.shared h tid
  disciplined : ∀ i, Always (Finds h tid) (Disciplined (pendingKey tid)) (c.thread i)
  single : ∀ i j, Holds (c.thread i) → Holds (c.thread j) → i = j
  taken : ∀ i, Holds (c.thread i) →
    AtRequest Deletes (c.thread i) ∨ secret c.shared (pendingKey tid) = none

/-- A call that has not started holds nothing. -/
theorem not_holds_consume (dig : Digests) (plaintextToken : String) (facts : HostFacts) :
    ¬ Holds (consumeEnrollmentToken dig plaintextToken facts) := by
  unfold consumeEnrollmentToken
  rw [perform_bind, holds_call]
  rintro ⟨-, r, hr⟩
  rcases r with e | _ | ⟨id, token, _ | ⟨d, device⟩⟩
  · exact not_holds_throw _ hr
  · exact not_holds_throw _ hr
  · exact not_holds_throw _ hr
  · have hcheck : Only Enrolls (checkRedeemable token) := checkRedeemable_only trivial token
    refine not_ahead_bind hcheck (fun _ _ _ _ h ↦ h) (fun _ h ↦ h) (fun _ ↦ ?_) hr
    show ¬ Holds _
    rw [takePendingSecret_bind, holds_call]
    exact fun h ↦ h.1 trivial

variable {c d : Pool ι TokenOp Err EnrollmentResult Backend} {i : ι} {f : Fate Err}
  {β : Type} {op : TokenOp β} {k : Except Err β → TokenM EnrollmentResult}

omit [DecidableEq ι] in
/-- Whoever becomes a holder by a request either was one or is now the only one. -/
theorem Inv.holder_cases (hc : Inv h tid c) (hg : Undisturbed c (.run i f))
    (hi : c.thread i = .call op k) (hh : Holds (k (tokenServer.reply f op c.shared))) :
    Holds (c.thread i) ∨ ∀ j, ¬ Holds (c.thread j) := by
  by_cases hR : Reads β op
  · right
    intro j hj
    have hd := hc.disciplined i
    rw [hi, always_call] at hd
    cases op with
    | redisGet key' =>
        obtain ⟨rfl, hget⟩ := hd.1
        obtain ⟨⟨v, hv⟩, -⟩ := hget _ hh
        have hsome := (Server.served_of_reply_ok hv).2
        rcases hc.taken j hj with hdel | hnone
        · exact hg (by rw [hi]; trivial) j hdel
        · have : secret c.shared (pendingKey tid) = some v := by
            simpa [Backend.serve, secret] using hsome
          simp [hnone] at this
    | _ => exact hR
  · left
    rw [hi, holds_call]
    exact ⟨hR, _, hh⟩

omit [DecidableEq ι] in
/-- A holder is about to delete the password, unless it is gone. -/
theorem Inv.taken_run (hc : Inv h tid c) (hi : c.thread i = .call op k)
    (hh : Holds (k (tokenServer.reply f op c.shared))) :
    AtRequest Deletes (k (tokenServer.reply f op c.shared)) ∨
      secret (tokenServer.after f op c.shared) (pendingKey tid) = none := by
  have hd := hc.disciplined i
  rw [hi, always_call] at hd
  by_cases hR : Reads β op ∨ Deletes β op
  · cases op with
    | redisGet key' => exact .inl (hd.1.2 _ hh).2
    | redisDel key' =>
        obtain ⟨rfl, herr⟩ := hd.1
        cases hr : tokenServer.reply f (.redisDel (pendingKey tid)) c.shared with
        | error e => exact absurd (hr ▸ hh) (herr e)
        | ok u =>
            obtain ⟨rfl, -⟩ := Server.served_of_reply_ok hr
            exact .inr (secret_redisDel _ _)
    | _ => exact (hR.elim id id).elim
  · have hold : Holds (c.thread i) := by
      rw [hi, holds_call]
      exact ⟨fun h ↦ hR (.inl h), _, hh⟩
    rcases hc.taken i hold with hdel | hnone
    · rw [hi] at hdel
      exact absurd (.inr hdel) hR
    · exact .inr (secret_after hd.1 hnone f)

/-- One request of one call keeps the invariant. -/
theorem Inv.run (hc : Inv h tid c) (hg : Undisturbed c (.run i f))
    (hs : Pool.step tokenServer tick c (.run i f) = some d) : Inv h tid d := by
  obtain ⟨β, op, k, hi, rfl⟩ := Pool.step_run hs
  have hd := hc.disciplined i
  rw [hi, always_call] at hd
  have hne : ∀ j, j ≠ i → (c.resume tokenServer i f op k).thread j = c.thread j :=
    fun j hj ↦ Pool.resume_thread_of_ne c hj f op k
  refine ⟨identifies_after hd.1 hc.identifies f,
    Pool.forall_resume hc.disciplined i f op k (hd.2 _ ?_), ?_, ?_⟩
  · exact Pool.reply_contract (A := Finds h tid) (serve_finds hc.identifies)
      (fun op e ↦ by cases op <;> trivial) f op
  · intro j₁ j₂ h₁ h₂
    by_cases hj₁ : j₁ = i <;> by_cases hj₂ : j₂ = i
    · rw [hj₁, hj₂]
    · subst hj₁
      rw [Pool.resume_thread_self] at h₁
      rw [hne _ hj₂] at h₂
      rcases hc.holder_cases hg hi h₁ with hold | hnone
      · exact hc.single _ _ hold h₂
      · exact absurd h₂ (hnone _)
    · subst hj₂
      rw [Pool.resume_thread_self] at h₂
      rw [hne _ hj₁] at h₁
      rcases hc.holder_cases hg hi h₂ with hold | hnone
      · exact hc.single _ _ h₁ hold
      · exact absurd h₁ (hnone _)
    · rw [hne _ hj₁] at h₁
      rw [hne _ hj₂] at h₂
      exact hc.single _ _ h₁ h₂
  · intro j hj
    by_cases hji : j = i
    · subst hji
      rw [Pool.resume_thread_self] at hj ⊢
      exact hc.taken_run hi hj
    · rw [hne _ hji] at hj ⊢
      exact (hc.taken j hj).imp_right fun hnone ↦ secret_after hd.1 hnone f

/-- The invariant holds as long as the calls do not disturb each other. -/
theorem Inv.step (hc : Inv h tid c) {l : Event ι Err Nat} (hg : Undisturbed c l)
    (hs : Pool.step tokenServer tick c l = some d) : Inv h tid d := by
  cases l with
  | run i f => exact hc.run hg hs
  | env ms =>
      obtain rfl := Pool.step_env hs
      exact ⟨hc.identifies, hc.disciplined, hc.single,
        fun j hj ↦ (hc.taken j hj).imp_right fun hnone ↦ secret_tick hnone ms⟩

end Run

end Redemption

open Redemption in
/-- However many calls present one token, at most one returns, as long as none of them
reads the pending password between another's read and its deletion. -/
theorem consumeEnrollmentToken_single {ι : Type} [DecidableEq ι] (dig : Digests)
    (plaintextToken : String) (facts : ι → HostFacts) (s₀ : Backend)
    (hu : s₀.tokens.UniqueOn (·.tokenHash))
    {c : Pool ι TokenOp Err EnrollmentResult Backend}
    (hc : Reach (Pool.step tokenServer tick) Undisturbed
      ⟨s₀, fun i ↦ consumeEnrollmentToken dig plaintextToken (facts i)⟩ c)
    {i j : ι} {a b : EnrollmentResult} (hi : c.thread i = .pure a) (hj : c.thread j = .pure b) :
    i = j := by
  obtain ⟨tid, hid⟩ := exists_identifies hu (dig.sha256 plaintextToken)
  have hnot : ∀ i, ¬ Holds (consumeEnrollmentToken dig plaintextToken (facts i)) :=
    fun i ↦ not_holds_consume dig plaintextToken (facts i)
  have hinv : Inv (dig.sha256 plaintextToken) tid c := by
    refine hc.invariant ?_ fun s l t hs hg hst ↦ hs.step hg hst
    exact ⟨hid, fun i ↦ consume_disciplined dig plaintextToken (facts i) tid,
      fun i _ h _ ↦ absurd h (hnot i), fun i h ↦ absurd h (hnot i)⟩
  refine hinv.single i j ?_ ?_
  · rw [hi]; trivial
  · rw [hj]; trivial

instance (c : Pool Bool TokenOp Err EnrollmentResult Backend) (l : Event Bool Err Nat) :
    Decidable (Redemption.Undisturbed c l) :=
  match l with
  | .run i _ => inferInstanceAs (Decidable (AtRequest _ (c.thread i) → ∀ _ : Bool, _))
  | .env _ => .isTrue trivial

/-- One call after the other: the first returns the password, the second comes too late. -/
theorem consumeEnrollmentToken_single_sequential :
    ∃ c : Pool Bool TokenOp Err EnrollmentResult Backend,
      Reach (Pool.step tokenServer tick) Redemption.Undisturbed
        ⟨issuedBackend, fun _ ↦ redeemExample⟩ c ∧
      Returned (·.mqttPassword = "BwgJ") (c.thread false) ∧
      ¬ Returned (fun _ ↦ True) (c.thread true) := by
  have hrun : ∃ c : Pool Bool TokenOp Err EnrollmentResult Backend,
      Reach (Pool.step tokenServer tick) Redemption.Undisturbed
        ⟨issuedBackend, fun _ ↦ redeemExample⟩ c ∧
      Returned (·.mqttPassword = "BwgJ") (c.thread false) :=
    Reach.exists_of_exec (List.replicate 8 (.run false .served) ++ [.run true .served])
      (by decide)
  obtain ⟨c, hc, hfirst⟩ := hrun
  refine ⟨c, hc, hfirst, fun hsecond ↦ ?_⟩
  cases hf : c.thread false with
  | pure a => cases ht : c.thread true with
    | pure b =>
        have hu : issuedBackend.tokens.UniqueOn (·.tokenHash) := .of_nodup (by decide)
        have := consumeEnrollmentToken_single plainDigests _ _ issuedBackend hu hc hf ht
        contradiction
    | _ => simp [ht] at hsecond
  | _ => simp [hf] at hfirst

/-- Two calls that both read before either deletes both return the password. -/
theorem consumeEnrollmentToken_twice :
    issuedBackend.tokens.UniqueOn (·.tokenHash) ∧
    ∃ c : Pool Bool TokenOp Err EnrollmentResult Backend,
      Reach (Pool.step tokenServer tick) (fun _ _ ↦ True)
        ⟨issuedBackend, fun _ ↦ redeemExample⟩ c ∧
      ∀ i, Returned (·.mqttPassword = "BwgJ") (c.thread i) := by
  refine ⟨.of_nodup (by decide), Reach.exists_of_exec [
    -- both look the token up and find it fresh
    .run false .served, .run false .served, .run true .served, .run true .served,
    -- both read the password before either deletes it
    .run false .served, .run true .served, .run false .served, .run true .served,
    .run false .served, .run false .served, .run false .served, .run false .served,
    .run true .served, .run true .served, .run true .served, .run true .served] ?_⟩
  decide

end Zenstier
