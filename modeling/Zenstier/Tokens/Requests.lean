import Zenstier.Tokens.Service

/-!
# The requests that end a credential

A revocation and the deletion of a device or a team delete accounts, mark tokens REVOKED and delete
rows; they issue nothing.
-/

namespace Zenstier

open Concurrent

/-- The requests that end a credential. -/
def Retires : ∀ β : Type, TokenOp β → Prop
  | _, .dynsecSend [.deleteClient _] => True
  | _, .now | _, .findToken _ _ | _, .markRevoked .. | _, .clearRetainedStatus _ => True
  | _, .redisGet _ | _, .redisDel _ => True
  | _, .findDevice _ _ | _, .deleteDevice _ => True
  | _, .findTeam _ | _, .detachUsers _ | _, .deleteTeam _ => True
  | _, _ => False

theorem deleteBrokerClient_retires (username : String) :
    Prog.Only Retires (deleteBrokerClient username) :=
  Prog.Only.await trivial fun _ ↦ (Prog.only_ofExcept _).mpr trivial

theorem evictRetainedStatus_retires (device : Option Device) :
    Prog.Only Retires (evictRetainedStatus device) :=
  evictRetainedStatus_only (fun _ ↦ trivial) device

theorem revokeToken_retires (userId teamId tokenId : String) :
    Prog.Only Retires (revokeToken userId teamId tokenId) := by
  refine Prog.Only.await trivial fun found ↦ ?_
  cases found with
  | none => trivial
  | some found =>
      exact (deleteBrokerClient_retires _).bind fun _ ↦ Prog.Only.await trivial fun _ ↦
        Prog.Only.await trivial fun _ ↦ (evictRetainedStatus_retires _).bind fun _ ↦
        (takePendingSecret_only _ trivial trivial).bind fun _ ↦ trivial

theorem deleteDeviceAction_retires (userId teamId deviceId : String) :
    Prog.Only Retires (deleteDeviceAction userId teamId deviceId) := by
  refine Prog.Only.await trivial fun found ↦ ?_
  cases found with
  | none => trivial
  | some found =>
      refine (Prog.Only.forM _ fun token _ ↦ ?_).bind fun _ ↦ (Prog.only_perform _).mpr trivial
      exact (revokeToken_retires userId teamId token.1).attempt.bind fun _ ↦ trivial

theorem deleteTeam_retires (teamId : String) : Prog.Only Retires (Zenstier.deleteTeam teamId) := by
  refine Prog.Only.await trivial fun found ↦ ?_
  cases found with
  | none => trivial
  | some found =>
      dsimp only
      split
      · trivial
      refine (Prog.Only.forM _ fun token _ ↦ ?_).bind fun _ ↦
        (Prog.Only.forM _ fun device _ ↦ evictRetainedStatus_retires _).bind fun _ ↦
        Prog.Only.await trivial fun _ ↦ (Prog.only_perform _).mpr trivial
      exact (deleteBrokerClient_retires _).tryCatch fun _ ↦ trivial

end Zenstier
