import Zenstier.Groups.Store

/-!
# Device groups

The functions of `group.service.ts` that change a group or a membership, as programs over the
stores.  Ids that the database and `randomUUID` make up are arguments.
-/

namespace Zenstier

open Concurrent

/-- Programs of the group service. -/
abbrev GroupM := Prog GroupOp Err

/-! ## The broker side -/

/-- One control command, with the errors that do not count. -/
def sendControl (command : GroupControl) (tolerate : List String := []) : GroupM Unit := do
  let responses ← .perform (.dynsecSend [command])
  .ofExcept (assertDynsecOk responses tolerate)

/-- Gives the group a role of its own, for its broadcast topic only, and a broker group that
devices are added to. -/
def provisionGroup (groupId : String) : GroupM Unit := do
  sendControl (.createRole (broadcastRoleName groupId) (broadcastRole groupId))
  sendControl (.createGroup (broadcastGroupName groupId) [broadcastRoleName groupId])

def addToBrokerGroup (deviceId groupId : String) : GroupM Unit :=
  sendControl (.addGroupClient (broadcastGroupName groupId) deviceId) ["already"]

def removeFromBrokerGroup (deviceId groupId : String) : GroupM Unit :=
  sendControl (.removeGroupClient (broadcastGroupName groupId) deviceId)
    ["not found", "not in group"]

/-- Membership changes have to be pushed: the agent subscribes to the groups in its
configuration. -/
def notifyGroupsChanged (id deviceId : String) (groups : List String) : GroupM Unit := do
  let issuedAt ← .perform .now
  let now ← .perform .now
  .perform (.publishCommand (.command deviceId)
    { v := PROTOCOL_VERSION, id, type := "update_groups", issuedAt, expiresAt := now + 60000
      groups })

/-- A program whose failure is only logged. -/
def logged (p : GroupM Unit) : GroupM Unit := p.tryCatch fun _ ↦ return

/-! ## Groups -/

/-- The audit entry of a change to a group. -/
def groupAudit (actorId teamId groupId : String) (action : AuditAction) : AuditLog where
  userId := actorId
  teamId
  action
  targetType := "device_group"
  targetId := groupId

/-- `id` is the id of the new row. -/
def createGroup (id actorId teamId name : String) : GroupM Unit :=
  let trimmed := trim name
  if trimmed = "" then throw (.group "Group name is required")
  else do
    match ← .perform (.findGroupByName teamId trimmed) with
    | some _ => throw (.group ("A group named \"" ++ trimmed ++ "\" already exists"))
    | none =>
        .perform (.createGroup id { teamId, userId := actorId, name := trimmed })
        (provisionGroup id).tryCatch fun err ↦ do
          -- Do not leave a group the broker knows nothing about.
          .perform (.deleteGroup id)
          throw (.group ("Could not provision the group on the broker: " ++ err.toString))
        .perform (.createAuditLog (groupAudit actorId teamId id .deviceGroupCreated))

def renameGroup (actorId teamId groupId name : String) : GroupM Unit :=
  let trimmed := trim name
  if trimmed = "" then throw (.group "Group name is required")
  else do
    match ← .perform (.findGroup groupId teamId) with
    | none => throw (.group "Group not found")
    | some _ =>
        .perform (.updateGroup groupId trimmed)
        .perform (.createAuditLog (groupAudit actorId teamId groupId .deviceGroupUpdated))

/-- `notifyId` gives the ids of the messages to the devices. -/
def deleteGroup (notifyId : String → String) (actorId teamId groupId : String) : GroupM Unit := do
  match ← .perform (.findGroupWithDevices groupId teamId) with
  | none => throw (.group "Group not found")
  | some (_, devices) =>
      -- Detach devices first so they stop listening to the broadcast topic.
      devices.forM fun d ↦ logged (removeFromBrokerGroup d.2.deviceId groupId)
      sendControl (.deleteGroup (broadcastGroupName groupId)) ["not found"]
      sendControl (.deleteRole (broadcastRoleName groupId)) ["not found"]
      .perform (.deleteGroup groupId)
      -- Tell the agents their subscriptions changed.
      devices.forM fun d ↦ logged (notifyGroupsChanged (notifyId d.2.deviceId) d.2.deviceId [])
      .perform (.createAuditLog (groupAudit actorId teamId groupId .deviceGroupDeleted))

/-! ## Membership -/

/-- The group that a device is moved to, if it is moved to one, must be in the team. -/
def checkTarget (teamId : String) (groupId : Option String) : GroupM Unit :=
  match truthy groupId with
  | none => return
  | some g => do
      match ← .perform (.findGroup g teamId) with
      | none => throw (.group "Group not found")
      | some _ => return

/-- Takes a device out of its old group at the broker. -/
def leaveOldGroup (device : Device) (groupId : Option String) : GroupM Unit :=
  match truthy device.groupId with
  | some old =>
      if device.groupId ≠ groupId then removeFromBrokerGroup device.deviceId old else return
  | none => return

/-- Puts a device into its new group at the broker. -/
def joinNewGroup (device : Device) (groupId : Option String) : GroupM Unit :=
  match truthy groupId with
  | some g => if device.groupId ≠ groupId then addToBrokerGroup device.deviceId g else return
  | none => return

/-- Updates the row of a device that has been moved at the broker, and tells the agent. -/
def recordMove (notifyId actorId teamId id : String) (device : Device) (groupId : Option String) :
    GroupM Unit := do
  .perform (.updateDevice id groupId)
  -- An offline agent picks the change up at its next enrollment or reconnect.
  logged (notifyGroupsChanged notifyId device.deviceId (truthy groupId).toList)
  .perform (.createAuditLog
    { userId := actorId, teamId, action := .deviceGroupUpdated, targetType := "device"
      targetId := id })

/-- Moves a device into a group, or out of every group when `groupId` is null. -/
def setDeviceGroup (notifyId actorId teamId deviceId : String) (groupId : Option String) :
    GroupM Unit := do
  match ← .perform (.findDevice deviceId teamId) with
  | none => throw (.group "Device not found")
  | some (id, device) =>
      checkTarget teamId groupId
      leaveOldGroup device groupId
      joinNewGroup device groupId
      recordMove notifyId actorId teamId id device groupId

end Zenstier
