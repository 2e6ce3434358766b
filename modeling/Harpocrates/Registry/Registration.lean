import Harpocrates.Registry.Verifier
import Harpocrates.Registry.Admin
import Harpocrates.Registry.PublicInputs
import Harpocrates.Registry.Records

namespace Harpocrates.Registry

open Framework Tx

def MAX_AGGREGATION_SIZE : Nat := 8

def hasNullifier (s : Storage) (verifier : Address) (nullifier : Bytes32) : Bool :=
  (s (.VerifierNullifier verifier nullifier)).isSome || (s (.Nullifier nullifier)).isSome

theorem VerifierContext.hasNullifier_some (v : Address) (w : Nat × Nat) (s : Storage)
    (n : Bytes32) :
    VerifierContext.hasNullifier ⟨some v,w⟩ s n=Registry.hasNullifier s v n := rfl

def verifyDemoZkBoundary (proof : Bytes) (credentialRoot : Bytes32) : Bool :=
  !proof.isEmpty && credentialRoot.1.length == 32

/-- The record of a Tier 1 registration. -/
def silentWitnessRecord (env : Env) (videoHash metadataHash : Bytes32) (expiresAt : Nat)
    (nullifier : Bytes32) (batchSize : Nat) : ProofRecord :=
  { videoHash, metadataHash
    tier := TIER_SILENT_WITNESS
    status := STATUS_REGISTERED
    createdAt := env.timestamp
    expiresAt
    source := none
    issuer := none
    nullifier := some nullifier
    batchSize }

/-- How every path that registers a single Tier 1 proof ends: the nullifier is consumed and
the record is saved. -/
def saveWitness (env : Env) (verifier : Address)
    (nullifier videoHash metadataHash proofId : Bytes32) : M ProofRecord := do
  store (.VerifierNullifier verifier nullifier) true
  let expiresAt ← Tx.gets (computeExpiresAt env)
  saveRecord env proofId
    (silentWitnessRecord env videoHash metadataHash expiresAt nullifier 0) none

def registerAnonymous (env : Env)
    (videoHash metadataHash proofId nullifier credentialRoot : Bytes32) (proof : Bytes) :
    M ProofRecord := do
  requireDomainUnpaused env PAUSE_DOMAIN_TIER1_REGISTRATION
  requireUnique proofId videoHash
  let verifier ← getActiveVerifier
  panicIf (← Tx.gets (hasNullifier · verifier nullifier)) .DuplicateNullifier
  panicIf (!verifyDemoZkBoundary proof credentialRoot) .InvalidProof
  requireActiveCredentialRoot env credentialRoot
  saveWitness env verifier nullifier videoHash metadataHash proofId

/-- The 256-byte frame: the scoped circuit, with its epoch and version trailer. -/
def registerScopedWitness (env : Env) (ctx : VerifierContext)
    (videoHash metadataHash proofId : Bytes32) (publicInputs proof : Bytes) :
    M ProofRecord := do
  let parsed ← ofExcept (parseScopedSilentWitnessPublicInputs publicInputs)
  panicIf (parsed.videoHash != videoHash) .InvalidPublicInputs
  panicIf (parsed.domainTag != expectedDomainTag env.sha256) .DomainTagMismatch
  requireActiveCredentialRoot env parsed.credentialRoot
  panicIf (parsed.epoch != (← Tx.gets (getScopeEpochRaw · parsed.verifierScope))) .StaleEpoch
  let verifier ← expect ctx.verifier .VerifierNotSet
  panicIf (← Tx.gets (ctx.hasNullifier · parsed.nullifier)) .DuplicateNullifier
  ctx.requireVerifiedProof env CIRCUIT_VERSION_SILENT_WITNESS_V2 publicInputs proof
  saveWitness env verifier parsed.nullifier videoHash metadataHash proofId

/-- The 160-byte frame of the first circuit. -/
def registerLegacyWitness (env : Env) (ctx : VerifierContext)
    (videoHash metadataHash proofId : Bytes32) (publicInputs proof : Bytes) :
    M ProofRecord := do
  let parsed ← ofExcept (parseSilentWitnessPublicInputs publicInputs)
  panicIf (parsed.videoHash != videoHash) .InvalidPublicInputs
  panicIf (parsed.domainTag != expectedDomainTag env.sha256) .DomainTagMismatch
  requireActiveCredentialRoot env parsed.credentialRoot
  let verifier ← expect ctx.verifier .VerifierNotSet
  panicIf (← Tx.gets (ctx.hasNullifier · parsed.nullifier)) .DuplicateNullifier
  ctx.requireVerifiedProof env CIRCUIT_VERSION_SILENT_WITNESS_V1 publicInputs proof
  saveWitness env verifier parsed.nullifier videoHash metadataHash proofId

/-- The 128-byte frame of the browser circuit. It has no domain tag, and this branch does
not look whether the nullifier was consumed before. -/
def registerBrowserWitness (env : Env) (videoHash metadataHash proofId : Bytes32)
    (publicInputs proof : Bytes) : M ProofRecord := do
  let parsed ← ofExcept (parseBrowserSilentWitnessPublicInputs publicInputs)
  panicIf (parsed.videoHash != videoHash) .InvalidPublicInputs
  requireActiveCredentialRoot env parsed.credentialRoot
  let verifier ← getActiveVerifier
  requireVerifiedProof env verifier CIRCUIT_VERSION_SILENT_WITNESS_V1 publicInputs proof
  saveWitness env verifier parsed.nullifier videoHash metadataHash proofId

def registerAnonymousVerified (env : Env) (videoHash metadataHash proofId : Bytes32)
    (publicInputs proof : Bytes) : M ProofRecord := do
  let ctx ← VerifierContext.load
  requireDomainUnpaused env PAUSE_DOMAIN_TIER1_REGISTRATION
  requireUnique proofId videoHash
  if publicInputs.length = SILENT_WITNESS_V2_BARE_INPUT_LEN then
    panic .CircuitVersionMismatch
  else if publicInputs.length = SILENT_WITNESS_V2_ENVELOPED_INPUT_LEN then
    registerScopedWitness env ctx videoHash metadataHash proofId publicInputs proof
  else if publicInputs.length = SILENT_WITNESS_V1_INPUT_LEN then
    registerLegacyWitness env ctx videoHash metadataHash proofId publicInputs proof
  else if publicInputs.length = SILENT_WITNESS_BROWSER_V1_INPUT_LEN then
    registerBrowserWitness env videoHash metadataHash proofId publicInputs proof
  else
    panic .InvalidPublicInputs

/-- One element of a batch: its derived proof id, the video hash the caller gave for it and
the element parsed from the public inputs. -/
structure BatchItem where
  proofId : Bytes32
  videoHash : Bytes32
  element : AggregatedBatchElement

def batchItems (batchId : Bytes32) (parsed : AggregatedPublicInputs)
    (videoHashes : List Bytes32) : List BatchItem :=
  videoHashes.mapIdx fun i videoHash =>
    { proofId := deriveElementProofId batchId i, videoHash, element := parsed.elements i }

/-- The checks on one element. They read the storage as it was before the batch, so two
elements are never compared with each other. -/
def checkBatchItem (ctx : VerifierContext) (sharedRoot : Bytes32) (item : BatchItem) :
    M Unit := do
  panicIf (item.element.credentialRoot != sharedRoot) .BatchCredentialRootMismatch
  panicIf (item.element.videoHash != item.videoHash) .InvalidPublicInputs
  panicIf (← has (.Proof item.proofId)) .DuplicateProof
  panicIf (← has (.Video item.videoHash)) .DuplicateVideo
  panicIf (← Tx.gets (ctx.hasNullifier · item.element.nullifier)) .DuplicateNullifier

def batchRecord (env : Env) (metadataHash : Bytes32) (expiresAt batchSize : Nat)
    (item : BatchItem) : ProofRecord :=
  silentWitnessRecord env item.videoHash metadataHash expiresAt item.element.nullifier batchSize

def persistBatchItem (env : Env) (verifier : Address) (metadataHash : Bytes32)
    (expiresAt batchSize : Nat) (item : BatchItem) : M Unit := do
  store (.VerifierNullifier verifier item.element.nullifier) true
  let _ ← saveRecord env item.proofId (batchRecord env metadataHash expiresAt batchSize item) none

def registerBatchVerified (env : Env) (batchId metadataHash : Bytes32)
    (publicInputs proof : Bytes) (videoHashes : List Bytes32) : M (List ProofRecord) := do
  let ctx ← VerifierContext.load
  let batchSize := videoHashes.length
  panicIf (batchSize == 0 || batchSize > MAX_AGGREGATION_SIZE) .BatchSizeExceeded
  let parsed ← ofExcept (parseAggregatedPublicInputs publicInputs batchSize)
  panicIf (parsed.domainSeparator != AGGREGATION_DOMAIN_SEPARATOR) .InvalidPublicInputs
  let verifier ← expect ctx.verifier .VerifierNotSet
  ctx.requireVerifiedProof env CIRCUIT_VERSION_AGGREGATION publicInputs proof
  let sharedRoot := (parsed.elements 0).credentialRoot
  requireActiveCredentialRoot env sharedRoot
  let expiresAt ← Tx.gets (computeExpiresAt env)
  let items := batchItems batchId parsed videoHashes
  Tx.forEach items (checkBatchItem ctx sharedRoot)
  Tx.forEach items (persistBatchItem env verifier metadataHash expiresAt batchSize)
  pure (items.map (batchRecord env metadataHash expiresAt batchSize))

def witnessFootprint : List Family := .VerifierNullifier::recordFootprint

theorem saveWitness_writes (env : Env) (verifier : Address)
    (nullifier videoHash metadataHash proofId : Bytes32) : Writes (In witnessFootprint)
      (saveWitness env verifier nullifier videoHash metadataHash proofId) := by
  unfold saveWitness
  repeat' first
    | with_reducible refine Writes.bind ?_ fun _ => ?_
    | exact saveRecord_writes _ _ _ _ (by simp [witnessFootprint])
    | simp [witnessFootprint]

theorem checkBatchItem_writes (W : DataKey → Prop) (ctx : VerifierContext) (root : Bytes32)
    (item : BatchItem) : Writes W (checkBatchItem ctx root item) := by
  unfold checkBatchItem
  repeat' first | with_reducible refine Writes.bind ?_ fun _ => ?_ | simp

theorem persistBatchItem_writes (env : Env) (verifier : Address) (metadataHash : Bytes32)
    (expiresAt batchSize : Nat) (item : BatchItem) : Writes (In witnessFootprint)
      (persistBatchItem env verifier metadataHash expiresAt batchSize item) := by
  unfold persistBatchItem
  repeat' first
    | with_reducible refine Writes.bind ?_ fun _ => ?_
    | exact saveRecord_writes _ _ _ _ (by simp [witnessFootprint])
    | simp [witnessFootprint]

end Harpocrates.Registry
