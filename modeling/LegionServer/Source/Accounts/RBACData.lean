import LegionServer.Library.Worklist
import Mathlib.Data.Finset.Sort

/-!
# Permissions of an account

`RBACData` (`RBAC.cpp:43-280`) for the permissions that `AccountMgr` has loaded. The statements that
the database executes are recorded.
-/
namespace LegionServer.Source.Accounts
open Library

inductive RBACCommandResult
  | ok | cantAddAlreadyAdded | cantRevokeNotInList | inGrantedList | inDeniedList
  | idDoesNotExists
  deriving DecidableEq, Repr

structure AccountMgr where
  /-- the permissions, and the linked ones of each -/
  permissions : Links Nat
  defaultPermissions : Nat → Finset Nat

inductive Statement
  | insertAccountPermission (permission : Nat) (granted : Bool) (realmId : Int)
  | deleteAccountPermission (permission : Nat) (realmId : Int)
  deriving DecidableEq, Repr

structure RBACData where
  secLevel : Nat := 255
  grantedPerms : Finset Nat := ∅
  deniedPerms : Finset Nat := ∅
  globalPerms : Finset Nat := ∅
  executed : List Statement := []

namespace RBACData

variable (mgr : AccountMgr) (d : RBACData)

/-- The permissions are taken from the smallest one on, and those that do not exist are dropped. -/
def expandPermissions (permissions : Finset Nat) : Finset Nat := mgr.permissions.closure permissions

def calculateNewPermissions : RBACData :=
  { d with
    globalPerms := expandPermissions mgr d.grantedPerms \ expandPermissions mgr d.deniedPerms }

def execute (statement : Statement) : RBACData :=
  { d with executed := d.executed ++ [statement] }

def savePermission (permission : Nat) (granted : Bool) (realmId : Int) : RBACData :=
  d.execute (.insertAccountPermission permission granted realmId)

def grantPermission (permissionId : Nat) (realmId : Int) : RBACCommandResult × RBACData :=
  if permissionId ∉ mgr.permissions.defined then (.idDoesNotExists, d)
  else if permissionId ∈ d.deniedPerms then (.inDeniedList, d)
  else if permissionId ∈ d.grantedPerms then (.cantAddAlreadyAdded, d)
  else
    let d := { d with grantedPerms := insert permissionId d.grantedPerms }
    -- Do not save to db when loading data from DB.
    if realmId ≠ 0 then
      (.ok, (d.savePermission permissionId true realmId).calculateNewPermissions mgr)
    else (.ok, d)

def denyPermission (permissionId : Nat) (realmId : Int) : RBACCommandResult × RBACData :=
  if permissionId ∉ mgr.permissions.defined then (.idDoesNotExists, d)
  else if permissionId ∈ d.grantedPerms then (.inGrantedList, d)
  else if permissionId ∈ d.deniedPerms then (.cantAddAlreadyAdded, d)
  else
    let d := { d with deniedPerms := insert permissionId d.deniedPerms }
    if realmId ≠ 0 then
      (.ok, (d.savePermission permissionId false realmId).calculateNewPermissions mgr)
    else (.ok, d)

def revokePermission (permissionId : Nat) (realmId : Int) : RBACCommandResult × RBACData :=
  if permissionId ∉ d.grantedPerms ∧ permissionId ∉ d.deniedPerms then (.cantRevokeNotInList, d)
  else
    let d := { d with
      grantedPerms := d.grantedPerms.erase permissionId
      deniedPerms := d.deniedPerms.erase permissionId }
    if realmId ≠ 0 then
      (.ok, (d.execute (.deleteAccountPermission permissionId realmId)).calculateNewPermissions mgr)
    else (.ok, d)

def loadRow (row : Nat × Bool) : RBACData :=
  if row.2 then (d.grantPermission mgr row.1 0).2 else (d.denyPermission mgr row.1 0).2

def loadFromDBCallback (rows : List (Nat × Bool)) : RBACData :=
  let d := rows.foldl (loadRow mgr) d
  let d := ((mgr.defaultPermissions d.secLevel).sort (· ≤ ·)).foldl
    (fun d permission => (d.grantPermission mgr permission 0).2) d
  d.calculateNewPermissions mgr

def clearData : RBACData := { d with grantedPerms := ∅, deniedPerms := ∅, globalPerms := ∅ }

end RBACData

inductive RBACStep
  | setSecLevel (id : Nat)
  | clearData
  | loadFromDBCallback (rows : List (Nat × Bool))
  | grantPermission (permissionId : Nat) (realmId : Int)
  | denyPermission (permissionId : Nat) (realmId : Int)
  | revokePermission (permissionId : Nat) (realmId : Int)
  deriving DecidableEq, Repr

def RBACStep.exec (mgr : AccountMgr) (d : RBACData) : RBACStep → RBACCommandResult × RBACData
  | setSecLevel id => (.ok, { d with secLevel := id })
  | clearData => (.ok, d.clearData)
  | loadFromDBCallback rows => (.ok, d.loadFromDBCallback mgr rows)
  | grantPermission permissionId realmId => d.grantPermission mgr permissionId realmId
  | denyPermission permissionId realmId => d.denyPermission mgr permissionId realmId
  | revokePermission permissionId realmId => d.revokePermission mgr permissionId realmId

def RBACData.run (mgr : AccountMgr) (d : RBACData) (steps : List RBACStep) : RBACData :=
  steps.foldl (fun d step => (step.exec mgr d).2) d

end LegionServer.Source.Accounts
