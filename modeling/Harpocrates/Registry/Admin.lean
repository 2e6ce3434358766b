import Harpocrates.Registry.CredentialRoots

namespace Harpocrates.Registry

open Framework

def SchemaVersion.V1 : Nat := 1
def SchemaVersion.V2 : Nat := 2

def init (env : Env) (admin : Address) : M Unit := do
  panicIf (← has .Admin) .AlreadyInitialized
  requireAuth env admin
  store .Admin admin
  store .SchemaVersion SchemaVersion.V2

/-- Move the storage to the current schema version. A registry without a version is stamped
as the first one before it is moved. Each call also indexes a batch of queued roots. -/
def upgradeStorage (env : Env) (admin : Address) : M Unit := do
  requireAdmin env admin
  requireNoCouncil env
  let hadVersion ← has .SchemaVersion
  let currentVersion := (← load .SchemaVersion).getD SchemaVersion.V1
  if !hadVersion then store .SchemaVersion SchemaVersion.V1 else pure ()
  let actualCurrent := if !hadVersion then SchemaVersion.V1 else currentVersion
  if actualCurrent < SchemaVersion.V2 then store .SchemaVersion SchemaVersion.V2 else pure ()
  backfillCredentialRootsStep

def proposeAdmin (env : Env) (admin pendingAdmin : Address) : M Unit := do
  requireAdmin env admin
  requireAdminRoleAvailable pendingAdmin
  store .PendingAdmin pendingAdmin

def cancelAdminTransfer (env : Env) (admin : Address) : M Unit := do
  requireAdmin env admin
  let _ ← expect (← load .PendingAdmin) .NoPendingAdmin
  remove .PendingAdmin

def acceptAdmin (env : Env) (pendingAdmin : Address) : M Unit := do
  let proposedAdmin ← expect (← load .PendingAdmin) .NoPendingAdmin
  requireAuth env pendingAdmin
  panicIf (proposedAdmin != pendingAdmin) .Unauthorized
  requireAdminRoleAvailable pendingAdmin
  let _ ← expect (← load .Admin) .NotInitialized
  store .Admin pendingAdmin
  remove .PendingAdmin

def setProofTtl (env : Env) (admin : Address) (ttlSecs : Nat) : M Unit := do
  requireAdmin env admin
  store .ProofTtl ttlSecs

def getScopeEpochRaw (s : Storage) (scope : Bytes32) : Nat := (s (.ScopeEpoch scope)).getD 0

def setScopeEpoch (env : Env) (admin : Address) (scope : Bytes32) (epoch : Nat) : M Unit := do
  requireAdmin env admin
  panicIf (epoch ≤ (← Tx.gets (getScopeEpochRaw · scope))) .StaleEpoch
  store (.ScopeEpoch scope) epoch

def setGuardian (env : Env) (admin guardian : Address) : M Unit := do
  requireAdmin env admin
  store .Guardian guardian

def clearGuardian (env : Env) (admin : Address) : M Unit := do
  requireAdmin env admin
  remove .Guardian

end Harpocrates.Registry
