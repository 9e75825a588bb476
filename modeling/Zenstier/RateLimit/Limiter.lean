import Mathlib.Algebra.Order.Floor.Ring
import Mathlib.Data.Rat.Floor
import Zenstier.Commands.Dispatch
import Zenstier.RateLimit.TokenBucket

/-!
# The command rate limiter

The script of `ratelimit.ts`, which `checkCommandRateLimit` has Redis evaluate: one bucket
for each device that a call targets and one for the user.  The buckets of devices are tried
first, then that of the user, once.  Tokens are exact rationals, times milliseconds.
-/

namespace Zenstier

/-- A bucket as Redis stores it. -/
structure RedisBucket where
  /-- The tokens, `t`. -/
  tokens : ℚ
  /-- The time of the last take, `s`. -/
  stamp : Int
  /-- Set by `PEXPIRE`. -/
  expireAt : Int
deriving DecidableEq

/-- The hashes of the limiter. -/
abbrev Redis := String → Option RedisBucket

/-- The hash under a key; one that has expired is not there. -/
def Redis.hash (r : Redis) (key : String) (now : Int) : Option RedisBucket :=
  (r key).filter fun h ↦ now ≤ h.expireAt

/-- `take` of the script. -/
def takeToken (now : Int) (key : String) (cap rate : ℚ) (r : Redis) : Int × Redis :=
  let h := r.hash key now
  let tokens := (h.map (·.tokens)).getD cap
  let stamp := (h.map (·.stamp)).getD now
  let tokens := min cap (tokens + (now - stamp : Int) / 1000 * rate)
  let ttl := ⌈cap / rate * 1000⌉
  if tokens < 1 then
    (⌈(1 - tokens) / rate * 1000⌉, Function.update r key (some ⟨tokens, now, now + ttl⟩))
  else (0, Function.update r key (some ⟨tokens - 1, now, now + ttl⟩))

/-- Takes a token for each of the keys. -/
def takeTokens (now : Int) (cap rate : ℚ) : List String → Redis → List Int × Redis
  | [], r => ([], r)
  | key :: keys, r =>
      let (wait, r) := takeToken now key cap rate r
      let (waits, r) := takeTokens now cap rate keys r
      (wait :: waits, r)

/-- `COMMAND_RATE_LIMIT_PER_MINUTE`. -/
structure CommandRateLimit where
  perMinute : Nat
  positive : 0 < perMinute

namespace CommandRateLimit

variable (limit : CommandRateLimit)

def userCap : ℚ := limit.perMinute

def userRate : ℚ := limit.perMinute / 60

def devCap : ℚ := max 2 ⌈(limit.perMinute / 3 : ℚ)⌉

def devRate : ℚ := max (2 / 10) (limit.perMinute / 60 / 3)

end CommandRateLimit

def userKey (userId : String) : String := "zenstier:rl:user:" ++ userId

def devKey (deviceId : String) : String := "zenstier:rl:dev:" ++ deviceId

/-- The answer of the script: the wait of each device, then that of the user. -/
def evalScript (limit : CommandRateLimit) (now : Int) (userId : String)
    (deviceIds : List String) (r : Redis) : List Int × Redis :=
  let (waits, r) := takeTokens now limit.devCap limit.devRate (deviceIds.map devKey) r
  let (wait, r) := takeToken now (userKey userId) limit.userCap limit.userRate r
  (waits ++ [wait], r)

/-- A call of `checkCommandRateLimit`. -/
structure LimiterCall where
  userId : String
  deviceIds : List String
  now : Int
deriving DecidableEq, Repr

/-- The devices that a call lets proceed, and what it leaves in Redis. -/
def LimiterCall.allowed (limit : CommandRateLimit) (c : LimiterCall) (r : Redis) :
    List String × Redis :=
  let (results, r) := evalScript limit c.now c.userId c.deviceIds r
  ((rateLimitResult c.deviceIds results).allowed, r)

theorem LimiterCall.allowed_eq (limit : CommandRateLimit) (c : LimiterCall) (r : Redis) :
    c.allowed limit r = ((rateLimitResult c.deviceIds
      ((takeTokens c.now limit.devCap limit.devRate (c.deviceIds.map devKey) r).1 ++
        [(takeToken c.now (userKey c.userId) limit.userCap limit.userRate
          (takeTokens c.now limit.devCap limit.devRate (c.deviceIds.map devKey) r).2).1])).allowed,
      (takeToken c.now (userKey c.userId) limit.userCap limit.userRate
        (takeTokens c.now limit.devCap limit.devRate (c.deviceIds.map devKey) r).2).2) := by
  rw [allowed, evalScript]

/-- The number of devices that a user is allowed from `a` to `e`. -/
def allowedWithin (limit : CommandRateLimit) (userId : String) (a e : Int) :
    List LimiterCall → Redis → Nat
  | [], _ => 0
  | c :: cs, r =>
      let (allowed, r) := c.allowed limit r
      (if c.userId = userId ∧ a ≤ c.now ∧ c.now ≤ e then allowed.length else 0) +
        allowedWithin limit userId a e cs r

theorem allowedWithin_cons (limit : CommandRateLimit) (userId : String) (a e : Int)
    (c : LimiterCall) (cs : List LimiterCall) (r : Redis) :
    allowedWithin limit userId a e (c :: cs) r =
      (if c.userId = userId ∧ a ≤ c.now ∧ c.now ≤ e then (c.allowed limit r).1.length else 0) +
        allowedWithin limit userId a e cs (c.allowed limit r).2 := by
  rw [allowedWithin]

/-! ## Keys -/

theorem userKey_inj {u u' : String} (h : userKey u = userKey u') : u = u' :=
  (String.append_right_inj _).mp h

theorem devKey_inj {d d' : String} (h : devKey d = devKey d') : d = d' :=
  (String.append_right_inj _).mp h

theorem userKey_ne_devKey (u d : String) : userKey u ≠ devKey d := by
  intro h
  have hlist : "zenstier:rl:user:".toList ++ u.toList = "zenstier:rl:dev:".toList ++ d.toList := by
    rw [← String.toList_append, ← String.toList_append]
    exact congrArg String.toList h
  have huser : "zenstier:rl:user:".toList = "zenstier:rl:".toList ++ 'u' :: "ser:".toList := by
    decide
  have hdev : "zenstier:rl:dev:".toList = "zenstier:rl:".toList ++ 'd' :: "ev:".toList := by
    decide
  rw [huser, hdev, List.append_assoc, List.append_assoc] at hlist
  exact absurd (List.cons.inj (List.append_cancel_left hlist)).1 (by decide)

theorem takeToken_other {now : Int} {key key' : String} {cap rate : ℚ} (r : Redis)
    (h : key' ≠ key) : (takeToken now key cap rate r).2 key' = r key' := by
  unfold takeToken
  dsimp only
  split <;> exact Function.update_of_ne h ..

theorem takeTokens_other {now : Int} {key' : String} {cap rate : ℚ} {keys : List String}
    (r : Redis) (h : key' ∉ keys) : (takeTokens now cap rate keys r).2 key' = r key' := by
  induction keys generalizing r with
  | nil => rfl
  | cons key keys ih =>
      rw [List.mem_cons, not_or] at h
      exact (ih _ h.2).trans (takeToken_other r h.1)

/-! ## The bucket of a user -/

open TokenBucket

/-- The bucket under a key, as the general theory has it. -/
def Redis.bucket (r : Redis) (key : String) (now : Int) : Option (Bucket ℚ) :=
  (r.hash key now).map fun h ↦ ⟨h.tokens, h.stamp⟩

theorem Redis.bucket_of_live {r : Redis} {key : String} {h : RedisBucket} {t : Int}
    (hr : r key = some h) (ht : t ≤ h.expireAt) :
    r.bucket key t = some ⟨h.tokens, h.stamp⟩ := by
  rw [Redis.bucket, Redis.hash, hr, Option.filter_some_pos (by simpa using ht), Option.map_some]

theorem Redis.bucket_congr {r r' : Redis} {key : String} (h : r' key = r key) (now : Int) :
    r'.bucket key now = r.bucket key now := by
  rw [Redis.bucket, Redis.hash, h, Redis.bucket, Redis.hash]

theorem Redis.bucket_of_expired {r : Redis} {key : String} {h : RedisBucket} {t : Int}
    (hr : r key = some h) (ht : h.expireAt < t) : r.bucket key t = none := by
  rw [Redis.bucket, Redis.hash, hr, Option.filter_some_neg (by simpa using ht), Option.map_none]

/-- What the script makes of a bucket. -/
theorem takeToken_eq (now : Int) (key : String) (cap rate : ℚ) (r : Redis) :
    takeToken now key cap rate r =
      if level cap (rate / 1000) (r.bucket key now) now < 1 then
        (⌈(1 - level cap (rate / 1000) (r.bucket key now) now) / rate * 1000⌉,
          Function.update r key (some ⟨level cap (rate / 1000) (r.bucket key now) now, now,
            now + ⌈cap / rate * 1000⌉⟩))
      else (0, Function.update r key (some ⟨level cap (rate / 1000) (r.bucket key now) now - 1, now,
        now + ⌈cap / rate * 1000⌉⟩)) := by
  have hlevel : min cap (((r.hash key now).map (·.tokens)).getD cap +
      (now - ((r.hash key now).map (·.stamp)).getD now : Int) / 1000 * rate) =
      level cap (rate / 1000) (r.bucket key now) now := by
    unfold Redis.bucket
    cases r.hash key now with
    | none => simp [level]
    | some h =>
        simp only [Option.map_some, Option.getD_some, level, Int.cast_sub]
        congr 2
        ring
  rw [takeToken, hlevel]

/-- One take of the script is a take from the bucket. -/
theorem takeToken_spec (now : Int) (key : String) (cap : ℚ) {rate : ℚ} (hrate : 0 < rate)
    (r : Redis) :
    (takeToken now key cap rate r).2 key = some
      ⟨(take cap (rate / 1000) (r.bucket key now) now).2.tokens, now,
        now + ⌈cap / rate * 1000⌉⟩ ∧
    ((take cap (rate / 1000) (r.bucket key now) (now : ℚ)).1 = false →
      0 < (takeToken now key cap rate r).1) ∧
    ((take cap (rate / 1000) (r.bucket key now) (now : ℚ)).1 = true →
      (takeToken now key cap rate r).1 = 0) := by
  rw [takeToken_eq, take]
  split
  · rename_i hone
    refine ⟨Function.update_self .., fun _ ↦ Int.ceil_pos.mpr ?_, fun h ↦ absurd h (by simp)⟩
    have : 0 < 1 - level cap (rate / 1000) (r.bucket key now) now := by linarith
    positivity
  · exact ⟨Function.update_self .., fun h ↦ absurd h (by simp), fun _ ↦ rfl⟩

/-- A take looks at its own bucket only. -/
theorem takeToken_congr {now : Int} {key : String} {cap rate : ℚ} {r r' : Redis}
    (h : r' key = r key) : ((takeToken now key cap rate r').1,
      (takeToken now key cap rate r').2 key) =
        ((takeToken now key cap rate r).1, (takeToken now key cap rate r).2 key) := by
  rw [takeToken_eq, takeToken_eq, Redis.bucket_congr h]
  split <;> simp only [Function.update_self]

/-- What a take leaves under its key, later. -/
theorem left_takeToken {now t : Int} {key : String} {cap rate : ℚ} (hrate : 0 < rate)
    (r r' : Redis) (h : r' key = (takeToken now key cap rate r).2 key) :
    Left cap (rate / 1000) (r.bucket key now) now t (r'.bucket key t) := by
  obtain ⟨hstored, -⟩ := takeToken_spec now key cap hrate r
  rw [hstored] at h
  rcases le_or_gt t (now + ⌈cap / rate * 1000⌉) with ht | ht
  · left
    rw [Redis.bucket_of_live h ht]
    exact congrArg some (congrArg (Bucket.mk _) (take_stamp _ _).symm)
  · right
    refine ⟨Redis.bucket_of_expired h ht, ?_⟩
    have hlater : cap / rate * 1000 < (t - now : ℚ) := by
      have hceil := Int.le_ceil (cap / rate * 1000)
      have hint : ((now + ⌈cap / rate * 1000⌉ : Int) : ℚ) < t := Int.cast_lt.mpr ht
      push_cast at hint
      linarith
    calc cap = cap / rate * 1000 * (rate / 1000) := by field_simp
      _ ≤ (t - now) * (rate / 1000) :=
          mul_le_mul_of_nonneg_right hlater.le (by positivity)

/-- A call lets through some of the devices it targets. -/
theorem length_allowed_le (deviceIds : List String) (results : List Int) :
    (rateLimitResult deviceIds results).allowed.length ≤ deviceIds.length := by
  unfold rateLimitResult
  dsimp only
  split
  · exact Nat.zero_le _
  · rw [List.length_map]
    exact (List.length_filter_le _ _).trans (by simp)

/-- A user who has to wait is let through with nothing. -/
theorem allowed_of_wait {deviceIds : List String} {waits : List Int} {wait : Int}
    (h : 0 < wait) : (rateLimitResult deviceIds (waits ++ [wait])).allowed = [] := by
  unfold rateLimitResult
  rw [List.getLast?_concat]
  exact if_pos h

/-- The takes for the devices leave the users alone. -/
theorem takeDevices_user (now : Int) (cap rate : ℚ) (deviceIds : List String) (r : Redis)
    (u : String) : (takeTokens now cap rate (deviceIds.map devKey) r).2 (userKey u) =
      r (userKey u) := by
  refine takeTokens_other r fun hmem ↦ ?_
  obtain ⟨d, -, hd⟩ := List.mem_map.mp hmem
  exact userKey_ne_devKey u d hd.symm

theorem CommandRateLimit.userRate_pos (limit : CommandRateLimit) : 0 < limit.userRate := by
  have := limit.positive
  unfold CommandRateLimit.userRate
  positivity

/-- What a call costs its user, and what it lets through. -/
theorem allowed_spec (limit : CommandRateLimit) (c : LimiterCall) (r : Redis) :
    ((c.allowed limit r).1.length : ℚ) ≤ c.deviceIds.length *
      spent (take limit.userCap (limit.userRate / 1000)
        (r.bucket (userKey c.userId) c.now) (c.now : ℚ)).1 ∧
    (c.allowed limit r).2 (userKey c.userId) =
      (takeToken c.now (userKey c.userId) limit.userCap limit.userRate r).2 (userKey c.userId) ∧
    ∀ u, u ≠ c.userId → (c.allowed limit r).2 (userKey u) = r (userKey u) := by
  have hsame := takeDevices_user c.now limit.devCap limit.devRate c.deviceIds r c.userId
  have hbucket := Redis.bucket_congr hsame c.now
  refine ⟨?_, congrArg Prod.snd (takeToken_congr hsame), fun u hu ↦ ?_⟩
  · have hwait := (takeToken_spec c.now (userKey c.userId) limit.userCap limit.userRate_pos
      (takeTokens c.now limit.devCap limit.devRate (c.deviceIds.map devKey) r).2).2.1
    rw [hbucket] at hwait
    unfold spent
    cases htaken : (take limit.userCap (limit.userRate / 1000)
        (r.bucket (userKey c.userId) c.now) (c.now : ℚ)).1 with
    | false =>
        have hnil : (c.allowed limit r).1 = [] := allowed_of_wait (hwait htaken)
        simp [hnil]
    | true =>
        rw [if_pos rfl, mul_one, Nat.cast_le]
        exact length_allowed_le _ _
  · have hne : userKey u ≠ userKey c.userId := fun h ↦ hu (userKey_inj h)
    exact (takeToken_other _ hne).trans (takeDevices_user ..)

/-! ## Credit at a bucket -/

/-- The tokens that can be had from a bucket from `t₀` on are bounded by a credit and the
refill. -/
def Redis.Credited (cap rate : ℚ) (key : String) (t₀ credit : ℚ) (r : Redis) : Prop :=
  ∀ t : Int, t₀ ≤ t → max (level cap (rate / 1000) (r.bucket key t) t) 0 ≤
    credit + (t - t₀) * (rate / 1000)

section Credit

variable {cap rate t₀ credit : ℚ} {key : String} {r r' : Redis}

/-- A full bucket is credit for any time. -/
theorem Redis.Credited.full (hcap : 0 ≤ cap) (hrate : 0 ≤ rate) (r : Redis) :
    r.Credited cap rate key t₀ cap := by
  intro t ht
  have hrefill : 0 ≤ (t - t₀ : ℚ) * (rate / 1000) := mul_nonneg (sub_nonneg.mpr ht) (by positivity)
  exact (max_le (level_le_cap ..) hcap).trans (by linarith)

theorem Redis.Credited.congr (h : r.Credited cap rate key t₀ credit) (hsame : r' key = r key) :
    r'.Credited cap rate key t₀ credit := by
  intro t ht
  rw [Redis.bucket_congr hsame]
  exact h t ht

/-- Nothing happens to a bucket that is not touched, except that time passes. -/
theorem Redis.Credited.untouched {now : ℚ} (h : r.Credited cap rate key t₀ credit)
    (hnow : t₀ ≤ now) (hsame : r' key = r key) :
    r'.Credited cap rate key now (credit + (now - t₀) * (rate / 1000)) := by
  intro t ht
  rw [Redis.bucket_congr hsame]
  calc max (level cap (rate / 1000) (r.bucket key t) t) 0
      ≤ credit + (t - t₀) * (rate / 1000) := h t (hnow.trans ht)
    _ = credit + (now - t₀) * (rate / 1000) + (t - now) * (rate / 1000) := by ring

/-- A take is paid for by the credit. -/
theorem Redis.Credited.take {now : Int} (h : r.Credited cap rate key t₀ credit) (hrate : 0 < rate)
    (ht₀ : t₀ ≤ now) (hr' : r' key = (takeToken now key cap rate r).2 key) :
    ∃ left, 0 ≤ left ∧ r'.Credited cap rate key now left ∧
      spent (TokenBucket.take cap (rate / 1000) (r.bucket key now) (now : ℚ)).1 + left ≤
        credit + (now - t₀) * (rate / 1000) := by
  have hrate' : 0 ≤ rate / 1000 := by positivity
  have hspend := fun (t : Int) (ht : now ≤ t) ↦
    spend_le hrate' (Int.cast_le.mpr ht : (now : ℚ) ≤ t) (left_takeToken hrate r r' hr' (t := t))
  have hbound := h now ht₀
  generalize (spent (TokenBucket.take cap (rate / 1000) (r.bucket key now) (now : ℚ)).1 : ℚ) = cost
    at hspend ⊢
  generalize max (level cap (rate / 1000) (r.bucket key now) (now : ℚ)) 0 = held at hspend hbound
  refine ⟨held - cost, ?_, fun t ht ↦ ?_, by linarith⟩
  · have hnow := hspend now le_rfl
    have hzero := le_max_right (level cap (rate / 1000) (r'.bucket key now) (now : ℚ)) 0
    rw [sub_self, zero_mul] at hnow
    linarith
  · have := hspend t (Int.cast_le.mp ht)
    linarith

end Credit

/-! ## The budget of a user -/

section Budget

variable {limit : CommandRateLimit} {userId : String} {n : Nat} {a e : Int}

/-- A user's calls, in units of which each lets through `n` devices. -/
def userMeter (limit : CommandRateLimit) (userId : String) (n : Nat) :
    Meter ℚ LimiterCall Redis where
  time c := c.now
  step c r := (c.allowed limit r).2
  cost c r := if c.userId = userId then (c.allowed limit r).1.length else 0
  Credited t credit r := ∃ units, credit = n * units ∧ 0 ≤ units ∧
    r.Credited limit.userCap limit.userRate (userKey userId) t units

theorem allowedWithin_eq_total (calls : List LimiterCall) (r : Redis) :
    (allowedWithin limit userId a e calls r : ℚ) =
      (userMeter limit userId n).total a e calls r := by
  induction calls generalizing r with
  | nil => rfl
  | cons c calls ih =>
      rw [allowedWithin_cons, Meter.total, Nat.cast_add, ih]
      congr 1
      simp only [userMeter, Int.cast_le]
      by_cases hu : c.userId = userId <;> by_cases hw : a ≤ c.now ∧ c.now ≤ e <;> simp [hu, hw]

/-- The user's own call costs what it lets through; that of another user costs nothing. -/
theorem userMeter_pays {c : LimiterCall} (hn : c.deviceIds.length ≤ n) :
    (userMeter limit userId n).Pays (n * (limit.userRate / 1000)) c := by
  rintro t _ r - ⟨units, rfl, hunits, hcredit⟩ ht
  have hrate := limit.userRate_pos
  by_cases hu : c.userId = userId
  · subst hu
    obtain ⟨hlength, hstored, -⟩ := allowed_spec limit c r
    obtain ⟨left, hleft, hcredited, hpaid⟩ := hcredit.take hrate ht hstored
    refine ⟨n * left, by positivity, ⟨left, rfl, hleft, hcredited⟩, ?_, ?_⟩
    · simp [userMeter]
    have hspent : 0 ≤ (spent (take limit.userCap (limit.userRate / 1000)
        (r.bucket (userKey c.userId) c.now) (c.now : ℚ)).1 : ℚ) := by
      unfold spent
      split <;> norm_num
    calc (userMeter limit c.userId n).cost c r + n * left
        ≤ n * spent (take limit.userCap (limit.userRate / 1000)
            (r.bucket (userKey c.userId) c.now) (c.now : ℚ)).1 + n * left := by
          have hdevices := mul_le_mul_of_nonneg_right (Nat.cast_le.mpr hn) hspent
          simp only [userMeter, if_true]
          linarith
      _ ≤ n * (units + (c.now - t) * (limit.userRate / 1000)) := by
          rw [← mul_add]
          exact mul_le_mul_of_nonneg_left hpaid (Nat.cast_nonneg n)
      _ = n * units + ((userMeter limit c.userId n).time c - t) *
            (n * (limit.userRate / 1000)) := by
          simp only [userMeter]
          ring
  · have hwait : 0 ≤ (c.now - t : ℚ) * (limit.userRate / 1000) :=
      mul_nonneg (sub_nonneg.mpr ht) (by positivity)
    have hsame := (allowed_spec limit c r).2.2 userId (Ne.symm hu)
    refine ⟨n * (units + (c.now - t) * (limit.userRate / 1000)), by positivity,
      ⟨_, rfl, by positivity, hcredit.untouched ht hsame⟩, ?_, ?_⟩
    · simp [userMeter, hu]
    · simp only [userMeter, hu, if_false, zero_add]
      rw [mul_add, add_le_add_iff_left]
      exact (mul_left_comm _ _ _).le

/-- In any window, a user whose calls target at most `n` devices each is allowed at most `n`
times what the bucket holds and what it gains. -/
theorem allowedWithin_le (limit : CommandRateLimit) (userId : String)
    {calls : List LimiterCall} (r : Redis)
    (hsorted : calls.Pairwise fun c c' ↦ c.now ≤ c'.now) (hae : a ≤ e)
    (hn : ∀ c ∈ calls, c.deviceIds.length ≤ n) :
    (allowedWithin limit userId a e calls r : ℚ) ≤
      n * (limit.userCap + limit.userRate * (e - a) / 1000) := by
  have hcap : 0 ≤ limit.userCap := Nat.cast_nonneg _
  have hrate := limit.userRate_pos.le
  rw [allowedWithin_eq_total (n := n)]
  calc (userMeter limit userId n).total a e calls r
      ≤ n * limit.userCap + (e - a) * (n * (limit.userRate / 1000)) :=
        Meter.total_le (A := userMeter limit userId n)
          (fun t r ↦ ⟨_, rfl, hcap, .full hcap hrate r⟩) (by positivity) (by positivity)
          (fun c hc ↦ userMeter_pays (hn c hc))
          (hsorted.imp fun h ↦ Int.cast_le.mpr h) (Int.cast_le.mpr hae) r
    _ = n * (limit.userCap + limit.userRate * (e - a) / 1000) := by ring

end Budget

/-! ## How many devices a call may target -/

/-- The budget of a user: whatever the calls, in order of time, no window lets more devices
through than the bucket holds and gains, as long as no call targets more than `n`. -/
def BudgetFor (limit : CommandRateLimit) (n : Nat) : Prop :=
  ∀ (r : Redis) (calls : List LimiterCall) (userId : String) (a e : Int),
    (calls.Pairwise fun c c' ↦ c.now ≤ c'.now) → a ≤ e →
    (∀ c ∈ calls, c.deviceIds.length ≤ n) →
    (allowedWithin limit userId a e calls r : ℚ) ≤
      limit.userCap + limit.userRate * (e - a) / 1000

section Fanout

variable (limit : CommandRateLimit)

/-- A device that nobody has sent a command to. -/
def freshDevice (i : Nat) : String := String.ofList (List.replicate i 'd')

theorem freshDevice_inj {i j : Nat} (h : freshDevice i = freshDevice j) : i = j := by
  have := congrArg (fun s ↦ s.toList.length) h
  simpa [freshDevice] using this

/-- `k` calls at one time, each to the next two devices from `i` on. -/
def pairCalls : Nat → Nat → List LimiterCall
  | _, 0 => []
  | i, k + 1 => ⟨"u", [freshDevice i, freshDevice (i + 1)], 0⟩ :: pairCalls (i + 2) k

theorem mem_pairCalls {i k : Nat} {c : LimiterCall} (h : c ∈ pairCalls i k) :
    c.now = 0 ∧ c.deviceIds.length = 2 := by
  induction k generalizing i with
  | zero => cases h
  | succ k ih =>
      rcases List.mem_cons.mp h with rfl | h
      · exact ⟨rfl, rfl⟩
      · exact ih h

/-- A bucket that is not stored has a token to give. -/
theorem takeToken_full (now : Int) {key : String} {cap : ℚ} (rate : ℚ) (hcap : 1 ≤ cap) {r : Redis}
    (hr : r key = none) : (takeToken now key cap rate r).1 = 0 := by
  have hhash : r.hash key now = none := by
    rw [Redis.hash, hr]
    rfl
  unfold takeToken
  rw [hhash]
  simp only [Option.map_none, Option.getD_none, sub_self, Int.cast_zero, zero_div, zero_mul,
    add_zero, min_self]
  rw [if_neg (not_lt.mpr hcap)]

theorem takeTokens_full (now : Int) {cap : ℚ} (rate : ℚ) (hcap : 1 ≤ cap) {keys : List String}
    (hnodup : keys.Nodup) {r : Redis} (hr : ∀ key ∈ keys, r key = none) :
    (takeTokens now cap rate keys r).1 = List.replicate keys.length 0 := by
  induction keys generalizing r with
  | nil => rfl
  | cons key keys ih =>
      obtain ⟨hkey, hnodup⟩ := List.nodup_cons.mp hnodup
      have hrest := ih hnodup (r := (takeToken now key cap rate r).2) fun key' hkey' ↦
        (takeToken_other r (ne_of_mem_of_not_mem hkey' hkey)).trans
          (hr key' (List.mem_cons_of_mem key hkey'))
      have hfirst := takeToken_full now rate hcap (hr key List.mem_cons_self)
      calc (takeTokens now cap rate (key :: keys) r).1
          = (takeToken now key cap rate r).1 ::
              (takeTokens now cap rate keys (takeToken now key cap rate r).2).1 := rfl
        _ = List.replicate (key :: keys).length 0 := by
            rw [hfirst, hrest, List.length_cons, List.replicate_succ]

/-- Nobody waits, everybody is let through. -/
theorem allowed_of_no_wait (deviceIds : List String) :
    (rateLimitResult deviceIds (List.replicate deviceIds.length 0 ++ [0])).allowed =
      deviceIds := by
  have hzero : ∀ i : Nat, (List.replicate deviceIds.length (0 : Int) ++ [0])[i]?.getD 0 = 0 := by
    intro i
    rw [← List.replicate_succ', List.getElem?_replicate]
    split <;> rfl
  unfold rateLimitResult
  simp [hzero, List.filter_map, Function.comp_def]

/-- A call by a user with a token left is let through for all of its devices, if nobody has
sent them a command; it costs one token. -/
theorem allowed_fresh {c : LimiterCall} {r : Redis} (hnodup : c.deviceIds.Nodup)
    (hfresh : ∀ d ∈ c.deviceIds, r (devKey d) = none)
    (hone : 1 ≤ level limit.userCap (limit.userRate / 1000)
      (r.bucket (userKey c.userId) c.now) (c.now : ℚ)) :
    (c.allowed limit r).1 = c.deviceIds ∧
    level limit.userCap (limit.userRate / 1000)
        ((c.allowed limit r).2.bucket (userKey c.userId) c.now) (c.now : ℚ) =
      level limit.userCap (limit.userRate / 1000)
        (r.bucket (userKey c.userId) c.now) (c.now : ℚ) - 1 ∧
    ∀ d, d ∉ c.deviceIds → (c.allowed limit r).2 (devKey d) = r (devKey d) := by
  have hbucket := Redis.bucket_congr
    (takeDevices_user c.now limit.devCap limit.devRate c.deviceIds r c.userId) c.now
  have hkeys : (c.deviceIds.map devKey).Nodup := hnodup.map fun _ _ ↦ devKey_inj
  have hwaits : (takeTokens c.now limit.devCap limit.devRate (c.deviceIds.map devKey) r).1 =
      List.replicate c.deviceIds.length 0 := by
    have hcap : 1 ≤ limit.devCap := le_max_of_le_left (by norm_num)
    have := takeTokens_full c.now limit.devRate hcap hkeys (r := r)
      (by simpa using hfresh)
    rwa [List.length_map] at this
  obtain ⟨-, -, hwait⟩ := takeToken_spec c.now (userKey c.userId) limit.userCap limit.userRate_pos
    (takeTokens c.now limit.devCap limit.devRate (c.deviceIds.map devKey) r).2
  rw [hbucket] at hwait
  refine ⟨?_, ?_, fun d hd ↦ ?_⟩
  · rw [LimiterCall.allowed_eq, hwaits, hwait (by rw [take_eq_true hone]), allowed_of_no_wait]
  · have hpos : ¬ limit.userCap ≤ ((c.now : ℚ) - c.now) * (limit.userRate / 1000) := by
      have := level_le_cap limit.userCap (limit.userRate / 1000)
        (r.bucket (userKey c.userId) c.now) (c.now : ℚ)
      rw [sub_self, zero_mul]
      linarith
    rcases left_takeToken limit.userRate_pos r (c.allowed limit r).2 (t := c.now)
      (allowed_spec limit c r).2.1 with hleft | ⟨-, hcap⟩
    · rw [hleft, level_take hone]
    · exact absurd hcap hpos
  · rw [LimiterCall.allowed_eq, takeToken_other _ (userKey_ne_devKey _ _).symm]
    refine takeTokens_other r fun hmem ↦ hd ?_
    obtain ⟨d', hd', heq⟩ := List.mem_map.mp hmem
    exact devKey_inj heq ▸ hd'

/-- As long as the user has a token for each of the calls, both devices of each call are let
through: the fan-out costs the user nothing. -/
theorem allowedWithin_pairCalls {i k : Nat} {r : Redis}
    (hfresh : ∀ j, i ≤ j → r (devKey (freshDevice j)) = none)
    (hheld : (k : ℚ) ≤ level limit.userCap (limit.userRate / 1000)
      (r.bucket (userKey "u") 0) ((0 : Int) : ℚ)) :
    allowedWithin limit "u" 0 0 (pairCalls i k) r = 2 * k := by
  induction k generalizing i r with
  | zero => rfl
  | succ k ih =>
      push_cast at hheld
      have hk : (0 : ℚ) ≤ k := Nat.cast_nonneg k
      have hne : ∀ j, i + 2 ≤ j → freshDevice j ∉ [freshDevice i, freshDevice (i + 1)] := by
        intro j hj hmem
        rw [List.mem_pair] at hmem
        rcases hmem with h | h
        · have := freshDevice_inj h
          omega
        · have := freshDevice_inj h
          omega
      obtain ⟨hallowed, hlevel, hkept⟩ := allowed_fresh limit
        (c := ⟨"u", [freshDevice i, freshDevice (i + 1)], 0⟩) (r := r)
        (List.nodup_cons.mpr ⟨fun h ↦ by
          have := freshDevice_inj (List.mem_singleton.mp h)
          omega, List.nodup_singleton _⟩)
        (fun d hd ↦ by
          rcases List.mem_pair.mp hd with rfl | rfl
          · exact hfresh i le_rfl
          · exact hfresh (i + 1) (by omega))
        (by push_cast; linarith)
      have hrest := ih (i := i + 2)
        (fun j hj ↦ (hkept _ (hne j hj)).trans (hfresh j (by omega)))
        (by rw [hlevel]; push_cast; linarith)
      rw [pairCalls, allowedWithin_cons, if_pos ⟨rfl, le_rfl, le_rfl⟩, hallowed, hrest]
      simp only [List.length_cons, List.length_nil]
      omega

end Fanout

/-- A user is held to the budget exactly if no call targets more than one device. -/
theorem budgetFor_iff (limit : CommandRateLimit) (n : Nat) : BudgetFor limit n ↔ n ≤ 1 := by
  constructor
  · intro h
    by_contra hn
    have hempty : Redis.bucket (fun _ ↦ none) (userKey "u") 0 = none := rfl
    have hcount := allowedWithin_pairCalls limit (i := 0) (k := limit.perMinute)
      (r := fun _ ↦ none) (fun _ _ ↦ rfl) (by rw [hempty]; exact le_rfl)
    have hsorted : (pairCalls 0 limit.perMinute).Pairwise fun c c' ↦ c.now ≤ c'.now :=
      (List.pairwise_of_forall fun _ _ ↦ trivial).imp_of_mem fun hc hc' _ ↦ by
        rw [(mem_pairCalls hc).1, (mem_pairCalls hc').1]
    have hbound := h (fun _ ↦ none) (pairCalls 0 limit.perMinute) "u" 0 0 hsorted le_rfl
      fun c hc ↦ (mem_pairCalls hc).2.le.trans (by omega)
    have hpos : (0 : ℚ) < limit.perMinute := Nat.cast_pos.mpr limit.positive
    rw [hcount, CommandRateLimit.userCap] at hbound
    push_cast at hbound
    rw [sub_self, mul_zero, zero_div] at hbound
    linarith
  · intro hn r calls userId a e hsorted hae hcalls
    have := allowedWithin_le limit userId r hsorted hae fun c hc ↦ (hcalls c hc).trans hn
    rwa [Nat.cast_one, one_mul] at this

/-- One call to 31 devices, none of which has been sent a command, passes the default budget of
30. -/
theorem user_budget_exceeded :
    ¬ ((allowedWithin ⟨30, by decide⟩ "u" 0 0 [⟨"u", (List.range 31).map freshDevice, 0⟩]
        (fun _ ↦ none) : ℚ) ≤
      CommandRateLimit.userCap ⟨30, by decide⟩ +
        CommandRateLimit.userRate ⟨30, by decide⟩ * (0 - 0) / 1000) := by
  decide +kernel

end Zenstier
