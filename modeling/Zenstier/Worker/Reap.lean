import Zenstier.Commands.Dispatch

/-!
# The reaper

Backstop for presence and command lifetimes: `reap` marks devices offline that have not
been seen for a while, and fails commands whose agent never reported back.  It reads the
commands that may be overdue first and then updates them one by one.
-/

namespace Zenstier

open Concurrent

def STALE_AFTER_MS : Int := 180000

def markStale (deviceId : String) : CommandM Unit := do
  .perform (.markOffline deviceId)
  .perform (.emit (deviceChannel deviceId) (.deviceStatus deviceId .offline))

/-- Fails a command whose deadline has passed. -/
def expireOverdue (now : Int) (cmd : OverdueCommand) : CommandM Unit :=
  let deadline := cmd.dispatchedAt.getD now + cmd.timeoutMs + 30000
  if now < deadline then return
  else do
    let finishedAt ← .perform .now
    .perform (.expire cmd.id finishedAt "No response from agent before timeout")
    .perform (.emit (deviceChannel cmd.deviceId)
      (.commandResult cmd.id cmd.deviceId .timeout none "" "" false none
        (some "No response from agent before timeout")))

/-- Fails commands whose agent never reported back. -/
def reapOverdue : CommandM Unit := do
  let overdue ← .perform (.findOverdue 200)
  let now ← .perform .now
  overdue.forM (expireOverdue now)

def reapStale : CommandM Unit := do
  let now ← .perform .now
  let stale ← .perform (.findStale (now - STALE_AFTER_MS))
  stale.forM markStale

def reap : CommandM Unit := do
  let started ← .perform .now
  let graceUntil ← .perform .graceUntil
  if started < graceUntil then return
  else do
    let connected ← .perform .connected
    -- We are blind, not informed.
    if connected = false then return
    else do
      reapStale
      reapOverdue

/-- The pass itself, unless the worker is blind. -/
def reapConnected : CommandM Unit := do
  let connected ← .perform .connected
  if connected = false then return
  else do
    reapStale
    reapOverdue

/-- What `reap` does once it has asked for the grace window. -/
def reapAfter (started graceUntil : Int) : CommandM Unit :=
  if started < graceUntil then return else reapConnected

theorem reap_eq : reap = (do
    let started ← .perform .now
    let graceUntil ← .perform .graceUntil
    reapAfter started graceUntil) := rfl

/-- The requests of `reap` before it looks for overdue commands. -/
def ReapsStale : ∀ β : Type, CommandOp β → Prop
  | _, .now | _, .graceUntil | _, .connected | _, .findStale _ | _, .markOffline _
  | _, .emit .. => True
  | _, _ => False

theorem reapStale_requests {P : ∀ β : Type, CommandOp β → Prop} (hnow : P Int .now)
    (hfind : ∀ t, P (List String) (.findStale t))
    (hmark : ∀ deviceId, P Unit (.markOffline deviceId))
    (hemit : ∀ channel event, P Unit (.emit channel event)) : Prog.Only P reapStale := by
  refine Prog.Only.await hnow fun now ↦ ?_
  refine Prog.Only.await (hfind _) fun stale ↦ ?_
  refine Prog.Only.forM stale fun deviceId _ ↦ ?_
  exact Prog.Only.await (hmark deviceId) fun _ ↦ (Prog.only_perform _).mpr (hemit _ _)

theorem reapStale_only : Prog.Only ReapsStale reapStale :=
  reapStale_requests trivial (fun _ ↦ trivial) (fun _ ↦ trivial) fun _ _ ↦ trivial

/-- The requests of a pass once it looks for overdue commands. -/
theorem reapOverdue_requests {P : ∀ β : Type, CommandOp β → Prop} (hnow : P Int .now)
    (hfind : ∀ n, P (List OverdueCommand) (.findOverdue n))
    (hexpire : ∀ id t error, P Unit (.expire id t error))
    (hemit : ∀ channel event, P Unit (.emit channel event)) : Prog.Only P reapOverdue := by
  refine Prog.Only.await (hfind _) fun overdue ↦ Prog.Only.await hnow fun now ↦ ?_
  refine Prog.Only.forM overdue fun cmd _ ↦ ?_
  dsimp only [expireOverdue]
  split
  · trivial
  · refine Prog.Only.await hnow fun _ ↦ ?_
    exact Prog.Only.await (hexpire _ _ _) fun _ ↦ (Prog.only_perform _).mpr (hemit _ _)

/-- The requests of the loop over the commands `ids`. -/
def Expires (ids : List String) : ∀ β : Type, CommandOp β → Prop
  | _, .now | _, .emit .. => True
  | _, .expire id _ _ => id ∈ ids
  | _, _ => False

theorem expireAll_only (now : Int) (overdue : List OverdueCommand) :
    Prog.Only (Expires (overdue.map (·.id))) (overdue.forM (expireOverdue now)) := by
  refine Prog.Only.forM overdue fun cmd hcmd ↦ ?_
  dsimp only [expireOverdue]
  split
  · trivial
  · refine Prog.Only.await trivial fun _ ↦ ?_
    exact Prog.Only.await (List.mem_map_of_mem hcmd) fun _ ↦ (Prog.only_perform _).mpr trivial

end Zenstier
