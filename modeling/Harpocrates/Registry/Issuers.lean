import Harpocrates.Registry.Guards

namespace Harpocrates.Registry

open Framework Tx

def DEFAULT_ISSUER_ROTATION_GRACE_SECS : Nat := 90*24*60*60
def MAX_ISSUER_ROTATION_GRACE_SECS : Nat := 365*24*60*60

def addIssuer (env : Env) (admin issuer : Address) (metadataHash : Bytes32) : M Unit := do
  requireAdmin env admin
  requireIssuerRoleAvailable issuer
  panicIf ((← load .PendingAdmin) == some issuer) .RoleConflict
  store (.Issuer issuer) { metadataHash, active := true }
  remove (.IssuerRotation issuer)

def revokeIssuer (env : Env) (admin issuer : Address) : M Unit := do
  requireAdmin env admin
  requireNoCouncil env
  let record ← getIssuerRecord issuer
  store (.Issuer issuer) { record with active := false }
  remove (.IssuerRotation issuer)

def updateIssuerMetadata (env : Env) (admin issuer : Address) (metadataHash : Bytes32) :
    M Unit := do
  requireAdmin env admin
  let record ← getIssuerRecord issuer
  panicIf (!record.active) .UnknownIssuer
  store (.Issuer issuer) { record with metadataHash }

def rotateIssuer (env : Env) (admin previousIssuer replacementIssuer : Address)
    (graceSecs : Nat) : M Nat := do
  requireAdmin env admin
  panicIf (previousIssuer == replacementIssuer) .InvalidIssuerRotation
  let previous ← getIssuerRecord previousIssuer
  panicIf (!previous.active) .UnknownIssuer
  let replacement ← getIssuerRecord replacementIssuer
  panicIf (!replacement.active) .UnknownIssuer
  let resolvedGrace := if graceSecs = 0 then DEFAULT_ISSUER_ROTATION_GRACE_SECS else graceSecs
  panicIf (resolvedGrace > MAX_ISSUER_ROTATION_GRACE_SECS) .InvalidIssuerRotationGrace
  let rotatedAt := env.timestamp
  panicIf (rotatedAt+resolvedGrace > u64Max) .InvalidIssuerRotationGrace
  let graceExpiresAt := rotatedAt+resolvedGrace
  store (.Issuer previousIssuer) { previous with active := false }
  store (.IssuerRotation previousIssuer)
    { previousIssuer, replacementIssuer, rotatedAt, graceExpiresAt, graceSecs := resolvedGrace }
  pure graceExpiresAt

def finalizeIssuerRotation (env : Env) (issuer : Address) : M Unit := do
  let record ← expect (← load (.IssuerRotation issuer)) .IssuerRotationNotFound
  panicIf (env.timestamp < record.graceExpiresAt) .IssuerRotationGraceStillActive
  remove (.IssuerRotation issuer)

def isIssuerVerifiable (now : Nat) (s : Storage) (issuer : Address) : Bool :=
  match s (.Issuer issuer) with
  | none => false
  | some current =>
    if current.active then true
    else
      match s (.IssuerRotation issuer) with
      | some window => now < window.graceExpiresAt
      | none => false

def issuerQuotaBucket (env : Env) (windowSecs : Nat) : Nat :=
  if windowSecs = 0 then 0 else env.timestamp/windowSecs

/-- Count one registration against the quota of an issuer, if it has one. -/
def chargeIssuerQuota (env : Env) (subject : Address) : M Unit := do
  match ← load (.IssuerQuota subject) with
  | none => pure ()
  | some quota =>
    if quota.maxRegistrations = 0 ∨ quota.windowSecs = 0 then
      pure ()
    else do
      let bucket := issuerQuotaBucket env quota.windowSecs
      let stored ← load (.IssuerQuotaUsage subject)
      let count :=
        match stored with
        | some usage => if usage.bucket = bucket then usage.count else 0
        | none => 0
      panicIf (count ≥ quota.maxRegistrations) .IssuerQuotaExhausted
      let next ← add32 count 1
      store (.IssuerQuotaUsage subject) { bucket, count := next }

theorem revokeIssuer_writes (env : Env) (admin issuer : Address) :
    Writes (In [.Issuer,.IssuerRotation]) (revokeIssuer env admin issuer) := by
  unfold revokeIssuer
  repeat' first | with_reducible refine Writes.bind ?_ fun _ => ?_ | simp

theorem updateIssuerMetadata_writes (env : Env) (admin issuer : Address)
    (metadataHash : Bytes32) :
    Writes (In [.Issuer]) (updateIssuerMetadata env admin issuer metadataHash) := by
  unfold updateIssuerMetadata
  repeat' first | with_reducible refine Writes.bind ?_ fun _ => ?_ | simp

theorem rotateIssuer_writes (env : Env) (admin previousIssuer replacementIssuer : Address)
    (graceSecs : Nat) : Writes (In [.Issuer,.IssuerRotation])
      (rotateIssuer env admin previousIssuer replacementIssuer graceSecs) := by
  unfold rotateIssuer
  repeat' first | with_reducible refine Writes.bind ?_ fun _ => ?_ | simp

@[simp] theorem chargeIssuerQuota_writes (env : Env) (subject : Address) {fs : List Family}
    (h : Family.IssuerQuotaUsage∈fs) : Writes (In fs) (chargeIssuerQuota env subject) := by
  unfold chargeIssuerQuota
  refine Writes.bind (by simp) fun quota => ?_
  cases quota with
  | none => simp
  | some quota =>
    refine Writes.ite (by simp) ?_
    repeat' first | with_reducible refine Writes.bind ?_ fun _ => ?_ | simp [h]

end Harpocrates.Registry
