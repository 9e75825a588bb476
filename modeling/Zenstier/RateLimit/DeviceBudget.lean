import Zenstier.RateLimit.Limiter

/-!
# The rate limit of a device

Every user's calls draw on the same bucket of a device.  A call may name a device several
times, and takes a token each time; a refused take leaves the bucket as it is, so that the
wait it reports is the wait from the end of the call as well.

A bucket that Redis drops has had the time to fill up, which is why forgetting it does not
give anything away, and why a wait is never longer than the bucket is kept.
-/

namespace Zenstier

open TokenBucket

/-- What a call is answered, and what it leaves in Redis. -/
def LimiterCall.result (limit : CommandRateLimit) (c : LimiterCall) (r : Redis) :
    RateLimitResult × Redis :=
  let (results, r) := evalScript limit c.now c.userId c.deviceIds r
  (rateLimitResult c.deviceIds results, r)

/-- What a sequence of calls leaves in Redis. -/
def Redis.calls (limit : CommandRateLimit) (calls : List LimiterCall) (r : Redis) : Redis :=
  calls.foldl (fun r c ↦ (c.result limit r).2) r

/-- The number of calls from `a` to `e` that let a device proceed. -/
def callsAllowing (limit : CommandRateLimit) (deviceId : String) (a e : Int) :
    List LimiterCall → Redis → Nat
  | [], _ => 0
  | c :: cs, r =>
      let (result, r') := c.result limit r
      (if deviceId ∈ result.allowed ∧ a ≤ c.now ∧ c.now ≤ e then 1 else 0) +
        callsAllowing limit deviceId a e cs r'

section Waits

variable {now : Int} {cap rate : ℚ}

/-! ## One wait for each device -/

/-- The waits of the devices of a call, in order. -/
def LimiterCall.waits (limit : CommandRateLimit) (c : LimiterCall) (r : Redis) : List Int :=
  (takeTokens c.now limit.devCap limit.devRate (c.deviceIds.map devKey) r).1

/-- The wait of the user of a call. -/
def LimiterCall.userWait (limit : CommandRateLimit) (c : LimiterCall) (r : Redis) : Int :=
  (takeToken c.now (userKey c.userId) limit.userCap limit.userRate
    (takeTokens c.now limit.devCap limit.devRate (c.deviceIds.map devKey) r).2).1

theorem takeTokens_cons (key : String) (keys : List String) (r : Redis) :
    takeTokens now cap rate (key :: keys) r =
      ((takeToken now key cap rate r).1 ::
        (takeTokens now cap rate keys (takeToken now key cap rate r).2).1,
        (takeTokens now cap rate keys (takeToken now key cap rate r).2).2) := by
  rw [takeTokens]

theorem length_takeTokens (keys : List String) (r : Redis) :
    (takeTokens now cap rate keys r).1.length = keys.length := by
  induction keys generalizing r with
  | nil => rfl
  | cons key keys ih => rw [takeTokens_cons, List.length_cons, ih, List.length_cons]

/-- The answer of the script has one entry for each device before that of the user. -/
theorem waits_of_results {deviceIds : List String} {waits : List Int} (wait : Int)
    (h : waits.length = deviceIds.length) :
    deviceIds.zipIdx.map (fun (deviceId, i) ↦ (deviceId, (waits ++ [wait]).getD i 0)) =
      deviceIds.zip waits := by
  refine List.ext_getElem (by simp [h]) fun i hi hi' ↦ ?_
  have hlt : i < waits.length := by
    rw [List.length_zip] at hi'
    omega
  simp [List.getElem?_append_left hlt, hlt]

/-- How the answer of the script is read. -/
theorem rateLimitResult_zip {deviceIds : List String} {waits : List Int} (wait : Int)
    (h : waits.length = deviceIds.length) :
    rateLimitResult deviceIds (waits ++ [wait]) =
      { allowed := if 0 < wait then [] else
          ((deviceIds.zip waits).filter fun w ↦ ¬ 0 < w.2).map (·.1)
        limited := (deviceIds.zip waits).filter fun w ↦ 0 < w.2
        userRetryAfterMs := wait } := by
  rw [rateLimitResult, waits_of_results wait h, List.getLast?_concat]
  rfl

theorem LimiterCall.result_eq (limit : CommandRateLimit) (c : LimiterCall) (r : Redis) :
    (c.result limit r).1 =
      { allowed := if 0 < c.userWait limit r then [] else
          ((c.deviceIds.zip (c.waits limit r)).filter fun w ↦ ¬ 0 < w.2).map (·.1)
        limited := (c.deviceIds.zip (c.waits limit r)).filter fun w ↦ 0 < w.2
        userRetryAfterMs := c.userWait limit r } :=
  rateLimitResult_zip _ ((length_takeTokens _ _).trans (List.length_map _))

/-! ## A refusal -/

/-- A bucket right after a take that was told to wait. -/
def Redis.Refused (cap rate : ℚ) (key : String) (now w : Int) (r : Redis) : Prop :=
  ∃ tokens : ℚ, tokens < 1 ∧ tokens ≤ cap ∧ w = ⌈(1 - tokens) / rate * 1000⌉ ∧
    r key = some ⟨tokens, now, now + ⌈cap / rate * 1000⌉⟩

variable {key : String} {r r' : Redis} {w : Int}

theorem takeToken_refused (h : 0 < (takeToken now key cap rate r).1) :
    (takeToken now key cap rate r).2.Refused cap rate key now (takeToken now key cap rate r).1 := by
  rw [takeToken_eq] at h ⊢
  split at h
  · rw [if_pos ‹_›]
    exact ⟨_, ‹_›, level_le_cap .., rfl, Function.update_self ..⟩
  · exact absurd h (lt_irrefl 0)

/-- The stored bucket, as long as it is kept. -/
theorem Redis.Refused.level_eq {t : Int} {tokens : ℚ}
    (hr : r key = some ⟨tokens, now, now + ⌈cap / rate * 1000⌉⟩)
    (ht : t ≤ now + ⌈cap / rate * 1000⌉) : level cap (rate / 1000) (r.bucket key t) t =
      min cap (tokens + (t - now) * (rate / 1000)) := by
  rw [Redis.bucket_of_live hr ht]
  rfl

/-- Another take at the same time is refused as well, with the same wait. -/
theorem Redis.Refused.takeToken (h : r.Refused cap rate key now w) (hcap : 0 ≤ cap)
    (hrate : 0 < rate) (key' : String) :
    (takeToken now key' cap rate r).2.Refused cap rate key now w := by
  obtain ⟨tokens, hone, hle, hw, hr⟩ := h
  by_cases hkey : key = key'
  · subst hkey
    have hlive : now ≤ now + ⌈cap / rate * 1000⌉ := by
      have : 0 ≤ ⌈cap / rate * 1000⌉ := Int.ceil_nonneg (by positivity)
      omega
    have hlevel : level cap (rate / 1000) (r.bucket key now) now = tokens := by
      rw [Redis.Refused.level_eq hr hlive, sub_self, zero_mul, add_zero, min_eq_right hle]
    refine ⟨tokens, hone, hle, hw, ?_⟩
    rw [takeToken_eq, hlevel, if_pos hone]
    exact Function.update_self ..
  · exact ⟨tokens, hone, hle, hw, (takeToken_other r hkey).trans hr⟩

theorem Redis.Refused.takeTokens (h : r.Refused cap rate key now w) (hcap : 0 ≤ cap)
    (hrate : 0 < rate) (keys : List String) :
    (takeTokens now cap rate keys r).2.Refused cap rate key now w := by
  induction keys generalizing r with
  | nil => exact h
  | cons key' keys ih => exact ih (h.takeToken hcap hrate key')

/-- A wait among those of a call is what its bucket is left with. -/
theorem takeTokens_refused {keys : List String} (hcap : 0 ≤ cap) (hrate : 0 < rate) (hw : 0 < w)
    (h : (key, w) ∈ keys.zip (takeTokens now cap rate keys r).1) :
    (takeTokens now cap rate keys r).2.Refused cap rate key now w := by
  induction keys generalizing r with
  | nil => cases h
  | cons key' keys ih =>
      rw [takeTokens_cons, List.zip_cons_cons, List.mem_cons] at h
      rcases h with heq | hmem
      · obtain ⟨rfl, rfl⟩ := Prod.mk.inj heq
        exact (takeToken_refused hw).takeTokens hcap hrate keys
      · exact ih hmem

/-- Once the wait is over there is a token, whether Redis still has the bucket or not. -/
theorem Redis.Refused.passes {t : Int} (h : r.Refused cap rate key now w) (hcap : 1 ≤ cap)
    (hrate : 0 < rate) (ht : now + w ≤ t) (hsame : r' key = r key) :
    (Zenstier.takeToken t key cap rate r').1 = 0 := by
  obtain ⟨tokens, hone, hle, rfl, hr⟩ := h
  rw [takeToken_eq, Redis.bucket_congr hsame, if_neg (not_lt.mpr ?_)]
  rcases le_or_gt t (now + ⌈cap / rate * 1000⌉) with hlive | hexpired
  · rw [Redis.Refused.level_eq hr hlive]
    refine le_min hcap ?_
    have hceil : (1 - tokens) / rate * 1000 ≤ (t - now : ℚ) := by
      have hle := Int.le_ceil ((1 - tokens) / rate * 1000)
      have hint : ((now + ⌈(1 - tokens) / rate * 1000⌉ : Int) : ℚ) ≤ t := Int.cast_le.mpr ht
      push_cast at hint
      linarith
    have hgain : (1 - tokens) / rate * 1000 * (rate / 1000) ≤ (t - now) * (rate / 1000) :=
      mul_le_mul_of_nonneg_right hceil (by positivity)
    have hmissing : (1 - tokens) / rate * 1000 * (rate / 1000) = 1 - tokens := by field_simp
    linarith
  · rw [Redis.bucket_of_expired hr hexpired]
    exact hcap

/-! ## Who is let through -/

/-- The first take of a call for a bucket finds it as the call does. -/
theorem takeTokens_first {keys : List String} (hmem : key ∈ keys)
    (h : (takeToken now key cap rate r).1 = 0) :
    (key, 0) ∈ keys.zip (takeTokens now cap rate keys r).1 := by
  induction keys generalizing r with
  | nil => cases hmem
  | cons key' keys ih =>
      rw [takeTokens_cons, List.zip_cons_cons, List.mem_cons]
      by_cases hkey : key = key'
      · subst hkey
        exact .inl (by rw [h])
      · refine .inr (ih ((List.mem_cons.mp hmem).resolve_left hkey) ?_)
        exact (Prod.mk.inj (takeToken_congr (takeToken_other r hkey))).1.trans h

/-- What a call takes from a bucket is paid for by the credit; letting through costs a token. -/
theorem takeTokens_pays {t₀ credit : ℚ} (hrate : 0 < rate)
    (h : r.Credited cap rate key t₀ credit) (hcredit : 0 ≤ credit) (ht₀ : t₀ ≤ now)
    (keys : List String) :
    ∃ left, 0 ≤ left ∧ (takeTokens now cap rate keys r).2.Credited cap rate key now left ∧
      left ≤ credit + (now - t₀) * (rate / 1000) ∧
      ((∃ w, (key, w) ∈ keys.zip (takeTokens now cap rate keys r).1 ∧ ¬ 0 < w) →
        1 + left ≤ credit + (now - t₀) * (rate / 1000)) := by
  induction keys generalizing r t₀ credit with
  | nil =>
      have hrefill : 0 ≤ (now - t₀ : ℚ) * (rate / 1000) :=
        mul_nonneg (sub_nonneg.mpr ht₀) (by positivity)
      refine ⟨_, by linarith, h.untouched ht₀ rfl, le_rfl, ?_⟩
      rintro ⟨w, hw, -⟩
      cases hw
  | cons key' keys ih =>
      rw [takeTokens_cons, List.zip_cons_cons]
      by_cases hkey : key = key'
      · subst hkey
        obtain ⟨left, hleft, hcredited, hpaid⟩ := h.take hrate ht₀ rfl
        obtain ⟨left', hleft', hcredited', hle', hpaid'⟩ := ih hcredited hleft le_rfl
        rw [sub_self, zero_mul, add_zero] at hle' hpaid'
        have hspent : 0 ≤ (spent (take cap (rate / 1000) (r.bucket key now) (now : ℚ)).1 : ℚ) := by
          unfold spent
          split <;> norm_num
        refine ⟨left', hleft', hcredited', by linarith, ?_⟩
        rintro ⟨w, hw, hpos⟩
        rcases List.mem_cons.mp hw with heq | hw
        · obtain rfl := (Prod.mk.inj heq).2
          have htaken : (take cap (rate / 1000) (r.bucket key now) (now : ℚ)).1 = true := by
            by_contra hnot
            exact hpos ((takeToken_spec now key cap hrate r).2.1 (Bool.not_eq_true _ ▸ hnot))
          rw [htaken, spent, if_pos rfl] at hpaid
          linarith
        · have := hpaid' ⟨w, hw, hpos⟩
          linarith
      · obtain ⟨left, hleft, hcredited, hle, hpaid⟩ := ih
          (h.congr (takeToken_other r hkey))
          hcredit ht₀
        refine ⟨left, hleft, hcredited, hle, ?_⟩
        rintro ⟨w, hw, hpos⟩
        rcases List.mem_cons.mp hw with heq | hw
        · exact absurd (Prod.mk.inj heq).1 hkey
        · exact hpaid ⟨w, hw, hpos⟩

end Waits

/-! ## The budget of a device -/

section Budget

variable {limit : CommandRateLimit} {deviceId : String} {c : LimiterCall} {r : Redis}

theorem CommandRateLimit.devRate_pos (limit : CommandRateLimit) : 0 < limit.devRate :=
  lt_max_of_lt_left (by norm_num)

theorem CommandRateLimit.one_le_devCap (limit : CommandRateLimit) : 1 ≤ limit.devCap :=
  le_max_of_le_left (by norm_num)

/-- The take for the user leaves the devices alone. -/
theorem result_device (limit : CommandRateLimit) (c : LimiterCall) (r : Redis) (deviceId : String) :
    (c.result limit r).2 (devKey deviceId) =
      (takeTokens c.now limit.devCap limit.devRate (c.deviceIds.map devKey) r).2
        (devKey deviceId) :=
  takeToken_other _ (userKey_ne_devKey _ _).symm

theorem mem_zip_devKey {deviceIds : List String} {waits : List Int} {w : Int} :
    (devKey deviceId, w) ∈ (deviceIds.map devKey).zip waits ↔
      (deviceId, w) ∈ deviceIds.zip waits := by
  rw [List.zip_map_left, List.mem_map]
  constructor
  · rintro ⟨⟨d, w'⟩, hmem, heq⟩
    obtain ⟨hd, rfl⟩ := Prod.mk.inj heq
    exact devKey_inj hd ▸ hmem
  · intro h
    exact ⟨_, h, rfl⟩

theorem mem_allowed : deviceId ∈ (c.result limit r).1.allowed ↔
    ¬ 0 < c.userWait limit r ∧
      ∃ w, (deviceId, w) ∈ c.deviceIds.zip (c.waits limit r) ∧ ¬ 0 < w := by
  rw [LimiterCall.result_eq]
  split
  · exact iff_of_false List.not_mem_nil fun h ↦ h.1 ‹_›
  · simp [*]

theorem mem_limited {w : Int} : (deviceId, w) ∈ (c.result limit r).1.limited ↔
    (deviceId, w) ∈ c.deviceIds.zip (c.waits limit r) ∧ 0 < w := by
  rw [LimiterCall.result_eq, List.mem_filter, decide_eq_true_eq]

/-- The calls that let a device proceed. -/
def tokenMeter (limit : CommandRateLimit) (deviceId : String) : Meter ℚ LimiterCall Redis where
  time c := c.now
  step c r := (c.result limit r).2
  cost c r := if deviceId ∈ (c.result limit r).1.allowed then 1 else 0
  Credited t credit r := r.Credited limit.devCap limit.devRate (devKey deviceId) t credit

theorem callsAllowing_eq_total (a e : Int) (calls : List LimiterCall) (r : Redis) :
    (callsAllowing limit deviceId a e calls r : ℚ) =
      (tokenMeter limit deviceId).total a e calls r := by
  induction calls generalizing r with
  | nil => rfl
  | cons c calls ih =>
      rw [callsAllowing, Meter.total]
      dsimp only
      rw [Nat.cast_add, ih]
      congr 1
      simp only [tokenMeter, Int.cast_le]
      by_cases hd : deviceId ∈ (c.result limit r).1.allowed <;>
        by_cases hw : a ≤ c.now ∧ c.now ≤ e <;> simp [hd, hw]

theorem tokenMeter_pays (limit : CommandRateLimit) (deviceId : String) (c : LimiterCall) :
    (tokenMeter limit deviceId).Pays (limit.devRate / 1000) c := by
  intro t credit r hcredit h ht
  obtain ⟨left, hleft, hcredited, hle, hpaid⟩ :=
    takeTokens_pays limit.devRate_pos h hcredit ht (c.deviceIds.map devKey)
  refine ⟨left, hleft, hcredited.congr (result_device limit c r deviceId), ?_, ?_⟩
  · simp only [tokenMeter]
    split <;> norm_num
  simp only [tokenMeter]
  split
  · rename_i hallowed
    obtain ⟨-, w, hw, hpos⟩ := mem_allowed.mp hallowed
    exact hpaid ⟨w, mem_zip_devKey.mpr hw, hpos⟩
  · rw [zero_add]
    exact hle

/-- What a call leaves of a bucket that it does not take from. -/
theorem calls_device {calls : List LimiterCall} (h : ∀ c ∈ calls, deviceId ∉ c.deviceIds)
    (r : Redis) : r.calls limit calls (devKey deviceId) = r (devKey deviceId) := by
  induction calls generalizing r with
  | nil => rfl
  | cons c calls ih =>
      obtain ⟨hc, hcalls⟩ := List.forall_mem_cons.mp h
      have hkeys : devKey deviceId ∉ c.deviceIds.map devKey := by
        rw [List.mem_map]
        rintro ⟨d, hd, heq⟩
        exact hc (devKey_inj heq ▸ hd)
      exact (ih hcalls _).trans ((result_device ..).trans (takeTokens_other r hkeys))

/-- A device that was told to wait is let through after the wait. -/
theorem allowed_after_wait {w : Int} (hlimited : (deviceId, w) ∈ (c.result limit r).1.limited)
    {between : List LimiterCall} (hbetween : ∀ x ∈ between, deviceId ∉ x.deviceIds)
    {c' : LimiterCall} (hnow : c'.now = c.now + w) (hmem : deviceId ∈ c'.deviceIds)
    (huser : (c'.result limit (r.calls limit (c :: between))).1.userRetryAfterMs ≤ 0) :
    deviceId ∈ (c'.result limit (r.calls limit (c :: between))).1.allowed := by
  obtain ⟨hzip, hpos⟩ := mem_limited.mp hlimited
  have hcap := limit.one_le_devCap
  have hrefused := takeTokens_refused (by linarith) limit.devRate_pos hpos
    (mem_zip_devKey.mpr hzip)
  have hsame : r.calls limit (c :: between) (devKey deviceId) =
      (takeTokens c.now limit.devCap limit.devRate (c.deviceIds.map devKey) r).2
        (devKey deviceId) :=
    (calls_device hbetween _).trans (result_device limit c r deviceId)
  have hpasses := hrefused.passes hcap limit.devRate_pos hnow.ge hsame
  rw [LimiterCall.result_eq] at huser
  refine mem_allowed.mpr ⟨not_lt.mpr huser, 0, ?_, lt_irrefl 0⟩
  exact mem_zip_devKey.mp (takeTokens_first (List.mem_map_of_mem hmem) hpasses)

end Budget

/-- In any window of `T` milliseconds a device is let through no more often than its bucket
holds and gains; and after the wait that it was told it is let through, whoever asks, unless
that user has to wait. -/
theorem device_budget (limit : CommandRateLimit) (deviceId : String) (r : Redis)
    {calls : List LimiterCall} (hsorted : calls.Pairwise fun c c' ↦ c.now ≤ c'.now) :
    (∀ a T : Int, 0 ≤ T → (callsAllowing limit deviceId a (a + T) calls r : ℚ) ≤
      limit.devCap + limit.devRate * T / 1000) ∧
    ∀ before c after w, calls = before ++ c :: after →
      (deviceId, w) ∈ (c.result limit (r.calls limit before)).1.limited →
      ∀ (between : List LimiterCall) (c' : LimiterCall),
        (∀ x ∈ between, deviceId ∉ x.deviceIds) → c'.now = c.now + w →
        deviceId ∈ c'.deviceIds →
        (c'.result limit (r.calls limit (before ++ c :: between))).1.userRetryAfterMs ≤ 0 →
        deviceId ∈ (c'.result limit (r.calls limit (before ++ c :: between))).1.allowed := by
  constructor
  · intro a T hT
    have hcap : 0 ≤ limit.devCap := zero_le_one.trans limit.one_le_devCap
    have hrate := limit.devRate_pos.le
    rw [callsAllowing_eq_total]
    calc (tokenMeter limit deviceId).total a ((a + T : Int) : ℚ) calls r
        ≤ limit.devCap + (((a + T : Int) : ℚ) - a) * (limit.devRate / 1000) :=
          Meter.total_le (A := tokenMeter limit deviceId)
            (fun t r ↦ Redis.Credited.full hcap hrate r) hcap (by positivity)
            (fun c _ ↦ tokenMeter_pays limit deviceId c)
            (hsorted.imp fun h ↦ Int.cast_le.mpr h) (Int.cast_le.mpr (by omega)) r
      _ = limit.devCap + limit.devRate * T / 1000 := by
          push_cast
          ring
  · rintro before c after w rfl hlimited between c' hbetween hnow hmem huser
    have hsplit : r.calls limit (before ++ c :: between) =
        (r.calls limit before).calls limit (c :: between) := List.foldl_append ..
    rw [hsplit] at huser ⊢
    exact allowed_after_wait hlimited hbetween hnow hmem huser

/-- One call targets a device three times; it is told to wait, and does. -/
theorem device_budget_three :
    (callsAllowing ⟨6, by decide⟩ "d" 0 (0 + 1000) [⟨"u", ["d", "d", "d"], 0⟩] (fun _ ↦ none) : ℚ) ≤
        CommandRateLimit.devCap ⟨6, by decide⟩ + CommandRateLimit.devRate ⟨6, by decide⟩ *
          (1000 : Int) / 1000 ∧
      "d" ∈ (LimiterCall.result ⟨6, by decide⟩ ⟨"v", ["d"], 5000⟩
        (Redis.calls ⟨6, by decide⟩ [⟨"u", ["d", "d", "d"], 0⟩] fun _ ↦ none)).1.allowed := by
  have hsorted : [(⟨"u", ["d", "d", "d"], 0⟩ : LimiterCall)].Pairwise fun c c' ↦ c.now ≤ c'.now :=
    List.pairwise_singleton _ _
  obtain ⟨hbudget, hretry⟩ := device_budget ⟨6, by decide⟩ "d" (fun _ ↦ none) hsorted
  refine ⟨hbudget 0 1000 (by decide), ?_⟩
  exact hretry [] ⟨"u", ["d", "d", "d"], 0⟩ [] 5000 rfl (by decide +kernel) [] ⟨"v", ["d"], 5000⟩
    (fun _ h ↦ absurd h List.not_mem_nil) rfl (by decide) (by decide +kernel)

end Zenstier
