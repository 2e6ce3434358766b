import Harpocrates.Registry.Records

namespace Harpocrates.Registry

open Framework

def MAX_REVOKE_PROOFS_BATCH_SIZE : Nat := 20

inductive ProofVerificationStatus
  | Valid | Revoked | Expired | NotFound
  deriving DecidableEq

def getProofStatus (now : Nat) (s : Storage) (proofId : Bytes32) : ProofVerificationStatus :=
  match s (.Proof proofId) with
  | none => .NotFound
  | some r =>
    if r.status = STATUS_REVOKED then .Revoked
    else if r.status = STATUS_EXPIRED then .Expired
    else if r.expiresAt > 0 ∧ now > r.expiresAt then .Expired
    else .Valid

def getByVideo (s : Storage) (videoHash : Bytes32) : Option ProofRecord :=
  match s (.Video videoHash) with
  | some proofId => s (.Proof proofId)
  | none => none

def getProofHistoryCount (s : Storage) (proofId : Bytes32) : Nat :=
  (s (.ProofHistorySeq proofId)).getD 0

def getProofHistoryAt (s : Storage) (proofId : Bytes32) (seq : Nat) : Option ProofHistoryEntry :=
  if seq = 0 ∨ seq > getProofHistoryCount s proofId then none
  else s (.ProofHistoryEntry proofId seq)

def getMetadataEnvelope (s : Storage) (proofId : Bytes32) : Option MetadataEnvelope :=
  s (.MetadataEnvelope proofId)

def revokeProofInternal (env : Env) (admin : Address) (proofId : Bytes32) (reasonCode : Nat) :
    M Unit := do
  let record ← getProofRecord proofId
  store (.Proof proofId) { record with status := STATUS_REVOKED }
  recordProofHistory env proofId ProofLifecycleAction.Revoked.code (some admin) reasonCode

def revokeProof (env : Env) (admin : Address) (proofId : Bytes32) : M Unit := do
  requireAdmin env admin
  revokeProofInternal env admin proofId 1

def revokeProofs (env : Env) (admin : Address) (proofIds : List Bytes32) (reasonCode : Nat) :
    M Unit := do
  requireAdmin env admin
  panicIf (proofIds.length > MAX_REVOKE_PROOFS_BATCH_SIZE) .BatchTooLarge
  panicIf (reasonCode > 255) .InvalidReasonCode
  Tx.forEach proofIds fun proofId => revokeProofInternal env admin proofId reasonCode

def verifyProof (env : Env) (actor : Address) (proofId : Bytes32) (reasonCode : Nat) :
    M Unit := do
  requireAdmin env actor
  let _ ← getProofRecord proofId
  panicIf (reasonCode > 255) .InvalidReasonCode
  recordProofHistory env proofId ProofLifecycleAction.Verified.code (some actor) reasonCode

def expireProof (env : Env) (admin : Address) (proofId : Bytes32) (reasonCode : Nat) :
    M Unit := do
  requireAdmin env admin
  let record ← getProofRecord proofId
  panicIf (record.status == STATUS_REVOKED) .Unauthorized
  panicIf (record.status == STATUS_EXPIRED) .AlreadyExpired
  store (.Proof proofId) { record with status := STATUS_EXPIRED }
  recordProofHistory env proofId ProofLifecycleAction.Expired.code (some admin) reasonCode

def correctProof (env : Env) (admin : Address) (proofId newMetadataHash : Bytes32)
    (reasonCode : Nat) : M Unit := do
  requireAdmin env admin
  let record ← getProofRecord proofId
  panicIf (record.metadataHash == newMetadataHash) .NoCorrectionChange
  store (.Proof proofId) { record with metadataHash := newMetadataHash }
  match ← load (.MetadataEnvelope proofId) with
  | some envelope =>
    store (.MetadataEnvelope proofId)
      { envelope with metadataHash := newMetadataHash, boundAt := env.timestamp }
  | none => pure ()
  recordProofHistory env proofId ProofLifecycleAction.Corrected.code (some admin) reasonCode

def isProofActor (s : Storage) (actor : Address) (proof : ProofRecord) : Bool :=
  s .Admin == some actor || proof.source == some actor || proof.issuer == some actor

def requireMetadataEnvelopeActor (env : Env) (actor : Address) (proof : ProofRecord) :
    M Unit := do
  requireAuth env actor
  let _ ← expect (← load .Admin) .NotInitialized
  panicIf (!(← Tx.gets (isProofActor · actor proof))) .Unauthorized

def bindMetadataEnvelope (env : Env) (actor : Address) (proofId : Bytes32) (version : Nat)
    (metadataHash : Bytes32) : M MetadataEnvelope := do
  panicIf (!(← has (.Proof proofId))) .MetadataEnvelopeNotFound
  let proof ← getProofRecord proofId
  requireMetadataEnvelopeActor env actor proof
  panicIf (version < METADATA_ENVELOPE_V1 || version > METADATA_ENVELOPE_VERSION_MAX)
    .UnsupportedMetadataEnvelopeVersion
  panicIf (metadataHash == zero32) .InvalidMetadataEnvelope
  panicIf (metadataHash != proof.metadataHash) .MetadataEnvelopeHashMismatch
  let envelope := { proofId, version, metadataHash, boundAt := env.timestamp }
  match ← load (.MetadataEnvelope proofId) with
  | some prev => do
    panicIf (version < prev.version) .UnsupportedMetadataEnvelopeVersion
    if version = prev.version ∧ metadataHash = prev.metadataHash then
      pure prev
    else do
      panicIf (version == prev.version && metadataHash != prev.metadataHash)
        .MetadataEnvelopeHashMismatch
      store (.MetadataEnvelope proofId) envelope
      pure envelope
  | none => do
    store (.MetadataEnvelope proofId) envelope
    pure envelope

def lifecycleFootprint : List Family := [.Proof,.ProofHistorySeq,.ProofHistoryEntry]

theorem revokeProofInternal_writes (env : Env) (admin : Address) (proofId : Bytes32)
    (reasonCode : Nat) : Tx.Writes (In lifecycleFootprint)
      (revokeProofInternal env admin proofId reasonCode) := by
  unfold revokeProofInternal lifecycleFootprint
  repeat' first | with_reducible refine Tx.Writes.bind ?_ fun _ => ?_ | simp

end Harpocrates.Registry
