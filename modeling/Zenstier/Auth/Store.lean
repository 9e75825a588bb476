import Zenstier.Auth.Totp
import Zenstier.Concurrent.Logic
import Zenstier.Schema
import Zenstier.Store.Table

/-!
# Accounts and counters

What signing in reads and writes: the columns of `User` that hold the credentials, and the
counters of failures in Redis.  `AuthOp` lists the requests.  Comparing a hash takes its time
and yields to other calls, so it is a request too, and so is the check of a code, which reads
the clock.
-/

namespace Zenstier

open Store Concurrent

/-- A user's credentials. -/
structure UserAccount where
  email : String
  name : Option String := none
  passwordHash : Option String := none
  /-- Base32, set when the setup starts. -/
  totpSecret : Option String := none
  /-- Set when a code has been confirmed. -/
  totpEnabled : Bool := false
  /-- Hashes of the recovery codes that are left. -/
  totpBackupCodes : List String := []
deriving DecidableEq, Repr, Inhabited

/-- A counter of `WINDOW_SCRIPT`. -/
structure Counter where
  count : Nat
  expiresAt : Option Int
deriving DecidableEq, Repr, Inhabited

/-- What `bcryptjs` and `node:crypto` compute. -/
structure Crypto where
  /-- `bcrypt.compare(plain, hash)`. -/
  compare : String → String → Bool
  /-- `bcrypt.hash(plain, 10)`, of the salt it draws. -/
  hash : String → String → String
  /-- `createHmac("sha1", key).update(message).digest()`. -/
  hmac : List UInt8 → List UInt8 → List UInt8

/-- Hashes and codes that are what they stand for. -/
def plainCrypto : Crypto where
  compare plain hash := plain = hash
  hash plain _ := plain
  hmac _ _ := []

structure AuthStore where
  clock : Int
  users : Table String UserAccount
  counters : Table String Counter
  auditLogs : List AuditLog

inductive AuthOp : Type → Type
  | findUser (id : String) : AuthOp (Option UserAccount)
  | findUserByEmail (email : String) : AuthOp (Option (String × UserAccount))
  | verifyPassword (plain hash : String) : AuthOp Bool
  | verifyCode (secret submitted : String) : AuthOp Bool
  /-- Compares a recovery code. -/
  | compare (plain hash : String) : AuthOp Bool
  /-- Hashes a recovery code. -/
  | hash (plain salt : String) : AuthOp String
  | setSecret (id secret : String) : AuthOp Unit
  | enable (id : String) (totpBackupCodes : List String) : AuthOp Unit
  | disable (id : String) : AuthOp Unit
  | setBackupCodes (id : String) (totpBackupCodes : List String) : AuthOp Unit
  | createAuditLog (row : AuditLog) : AuthOp Unit
  | getCounter (key : String) : AuthOp (Option Nat)
  /-- The script that charges a counter, and returns the milliseconds to wait. -/
  | charge (key : String) (limit : Nat) (windowMs : Int) : AuthOp Int
  | deleteCounter (key : String) : AuthOp Unit

namespace AuthStore

variable (s : AuthStore)

/-- The counter under a key, if it has not expired. -/
def live (key : String) : Option Counter :=
  (s.counters.find? key).filter fun c ↦ c.expiresAt.all (s.clock ≤ ·)

/-- The failures that are counted under a key. -/
def counted (key : String) : Nat := ((s.live key).map (·.count)).getD 0

/-- `WINDOW_SCRIPT`: the milliseconds to wait, and the counter it leaves. -/
def windowScript (key : String) (limit : Nat) (windowMs : Int) : Int × Counter :=
  let counter := match s.live key with
    | some c => { c with count := c.count + 1 }
    | none => ⟨1, some (s.clock + windowMs)⟩
  (if counter.count > limit then (counter.expiresAt.map (· - s.clock)).getD windowMs else 0,
    counter)

def updateUser (id : String) (f : UserAccount → UserAccount) : Except Err Unit × AuthStore :=
  if (s.users.find? id).isNone then (.error .recordNotFound, s)
  else (.ok (), { s with users := s.users.update id f })

/-- Serves one request. -/
def serve (cr : Crypto) {β : Type} : AuthOp β → Except Err β × AuthStore
  | .findUser id => (.ok (s.users.find? id), s)
  | .findUserByEmail email => (.ok (s.users.findFirst fun _ u ↦ u.email = email), s)
  | .verifyPassword plain hash => (.ok (cr.compare plain hash), s)
  | .verifyCode secret submitted => (Totp.verifyCode cr.hmac secret submitted s.clock, s)
  | .compare plain hash => (.ok (cr.compare plain hash), s)
  | .hash plain salt => (.ok (cr.hash plain salt), s)
  | .setSecret id secret => s.updateUser id ({ · with totpSecret := some secret })
  | .enable id codes => s.updateUser id ({ · with totpEnabled := true, totpBackupCodes := codes })
  | .disable id =>
      s.updateUser id ({ · with totpEnabled := false, totpSecret := none, totpBackupCodes := [] })
  | .setBackupCodes id codes => s.updateUser id ({ · with totpBackupCodes := codes })
  | .createAuditLog row => (.ok (), { s with auditLogs := s.auditLogs ++ [row] })
  | .getCounter key => (.ok ((s.live key).map (·.count)), s)
  | .charge key limit windowMs =>
      let (wait, counter) := s.windowScript key limit windowMs
      (.ok wait, { s with counters := s.counters.put key counter })
  | .deleteCounter key => (.ok (), { s with counters := s.counters.delete key })

theorem serve_verifyCode (cr : Crypto) (secret submitted : String) :
    s.serve cr (.verifyCode secret submitted) =
      (Totp.verifyCode cr.hmac secret submitted s.clock, s) := rfl

/-- Time passes. -/
def tick (ms : Nat) (s : AuthStore) : AuthStore := { s with clock := s.clock + ms }

@[simp] theorem find?_updateUser (id : String) (f : UserAccount → UserAccount) :
    (s.updateUser id f).2.users.find? id = (s.users.find? id).map f := by
  unfold updateUser
  split
  · rename_i hnone
    rw [Option.isNone_iff_eq_none] at hnone
    rw [hnone, Option.map_none]
  · simp

/-! ## Counters -/

variable {s : AuthStore} {cr : Crypto} {key key' : String} {limit : Nat} {windowMs : Int}

theorem live_congr {t : AuthStore} (hcounters : t.counters.find? key = s.counters.find? key)
    (hclock : t.clock = s.clock) : t.live key = s.live key := by
  rw [live, live, hcounters, hclock]

theorem counted_congr {t : AuthStore} (hcounters : t.counters.find? key = s.counters.find? key)
    (hclock : t.clock = s.clock) : t.counted key = s.counted key := by
  rw [counted, counted, live_congr hcounters hclock]

/-- A charge is one more failure under its key, as long as the window is not in the past. -/
theorem counted_charge (hw : 0 ≤ windowMs) :
    (s.serve cr (.charge key limit windowMs)).2.counted key = s.counted key + 1 := by
  have hfind : (s.serve cr (.charge key limit windowMs)).2.counters.find? key =
      some (s.windowScript key limit windowMs).2 := by
    simp [serve]
  have hcounted : (s.windowScript key limit windowMs).2.expiresAt.all (s.clock ≤ ·) ∧
      (s.windowScript key limit windowMs).2.count = s.counted key + 1 := by
    unfold counted windowScript
    cases hlive : s.live key with
    | none =>
        refine ⟨?_, rfl⟩
        rw [Option.all_some, decide_eq_true_eq]
        omega
    | some c => exact ⟨(Option.filter_eq_some_iff.mp hlive).2, rfl⟩
  have hlive : (s.serve cr (.charge key limit windowMs)).2.live key =
      some (s.windowScript key limit windowMs).2 :=
    Option.filter_eq_some_iff.mpr ⟨hfind, hcounted.1⟩
  rw [counted, hlive]
  exact hcounted.2

theorem counted_charge_of_ne (h : key' ≠ key) :
    (s.serve cr (.charge key limit windowMs)).2.counted key' = s.counted key' :=
  counted_congr (by simp [serve, h]) rfl

theorem counted_deleteCounter :
    (s.serve cr (.deleteCounter key)).2.counted key = 0 := by
  simp [serve, counted, live]

theorem counted_deleteCounter_of_ne (h : key' ≠ key) :
    (s.serve cr (.deleteCounter key)).2.counted key' = s.counted key' :=
  counted_congr (by simp [serve, h]) rfl

/-- As time passes, no counter appears. -/
theorem live_tick (ms : Nat) (h : s.live key = none) : (s.tick ms).live key = none := by
  rw [live, Option.filter_eq_none_iff] at h ⊢
  intro c hc hlate
  refine h c hc ?_
  cases hexp : c.expiresAt with
  | none => rfl
  | some t =>
      rw [hexp, Option.all_some, decide_eq_true_eq] at hlate
      have hclock : (s.tick ms).clock = s.clock + ms := rfl
      rw [Option.all_some, decide_eq_true_eq]
      omega

/-- As time passes, failures are forgotten all at once. -/
theorem counted_tick (s : AuthStore) (key : String) (ms : Nat) :
    (s.tick ms).counted key = s.counted key ∨
      (s.live key).isSome ∧ (s.tick ms).live key = none := by
  unfold counted
  cases hlive : s.live key with
  | none =>
      left
      rw [live_tick ms hlive]
  | some c =>
      cases hlater : (s.tick ms).live key with
      | none => exact .inr ⟨rfl, rfl⟩
      | some c' =>
          left
          have h := (Option.filter_eq_some_iff.mp hlive).1
          have h' := (Option.filter_eq_some_iff.mp hlater).1
          obtain rfl := Option.some.inj (h.symm.trans h')
          rfl

end AuthStore

/-- The store as a server. -/
def authServer (cr : Crypto) : Server AuthOp Err AuthStore := ⟨fun op s ↦ s.serve cr op⟩

@[simp] theorem authServer_serve (cr : Crypto) {β : Type} (op : AuthOp β) (s : AuthStore) :
    (authServer cr).serve op s = s.serve cr op := rfl

end Zenstier
