import Harpocrates.Framework.Store
import Harpocrates.Framework.Bytes

namespace Harpocrates.Registry

open Framework

abbrev Bytes32 := BytesN 32

def zero32 : Bytes32 := BytesN.replicate 32 0

structure Address where
  id : Nat
  deriving DecidableEq

inductive RegistryError
  | AlreadyInitialized | NotInitialized | Unauthorized | DuplicateProof | DuplicateVideo
  | DuplicateNullifier | InvalidProof | UnknownIssuer | VerifierNotSet | InvalidPublicInputs
  | UnknownCredentialRoot | RevokedCredentialRoot | HistorySaturated | StaleEpoch
  | InvalidHistoryAction | InvalidReasonCode | AlreadyExpired | NoCorrectionChange
  | NoPendingAdmin | Paused | InvalidPauseDomain | InvalidPauseDuration
  | InvalidDelegationScope | InvalidDelegationDuration | DelegationNotFound
  | DelegationExpired | DelegationScopeExceeded | DelegationsSaturated | SelfDelegation
  | ProposalNotFound | ProposalNotReady | ProposalAlreadyExecuted | ProposalCancelled
  | InvalidProposalAction | InvalidProposalPayload | ProposalsSaturated
  | InvalidTimelockDelay | AlreadyCancelled | RotationNotScheduled | RotationNotReady
  | RotationWindowClosed | BatchTooLarge | DisputeNotFound | DomainTagMismatch
  | UnknownSchema | InactiveSchema | SchemaVersionMismatch | BatchSizeExceeded
  | BatchCredentialRootMismatch | BatchCountMismatch | InvalidLineage
  | ExpiredCredentialRoot | LineageCycle | LineageTooDeep | LineageFanOutExceeded
  | TooManyOpenDisputes | DisputeWindowExpired | DisputeAlreadyClosed
  | DisputeCyclicSupersession | UnauthorizedResponder | ReporterOnCooldown
  | InvalidDisputeTransition | InvalidTimestampClaim | TimestampClaimNotFound
  | TimestampClaimAlreadyAnchored | UnauthorizedTimestampActor | LineageEmptyParents
  | LineageParentUnavailable | DuplicateLineage | LineageChildrenLimitExceeded
  | LineageChildrenSaturated | LineageFanOutSaturated | LineageDepthMismatch
  | UnsupportedMetadataEnvelopeVersion
  | InvalidMetadataEnvelope | MetadataEnvelopeNotFound | MetadataEnvelopeHashMismatch
  | UnsupportedCircuitVersion | InvalidCircuitVersionRange | InvalidIssuerRotationGrace
  | InvalidIssuerRotation | IssuerRotationNotFound | IssuerRotationGraceStillActive
  | CircuitVersionMismatch | ReporterDisputesSaturated | InsufficientApprovals
  | RoleConflict | IssuerQuotaExhausted | InvalidInclusionProof
  deriving DecidableEq

/-- How a call can fail: with an error of the contract, or by a trap of the host (missing
authorisation, a stored value of another type, arithmetic overflow, unknown wasm). -/
inductive Failure
  | error (e : RegistryError)
  | trap
  deriving DecidableEq

def TIER_SILENT_WITNESS : Nat := 1
def TIER_CONSISTENT_SOURCE : Nat := 2
def TIER_PUBLIC_SEAL : Nat := 3

def STATUS_REGISTERED : Nat := 1
def STATUS_REVOKED : Nat := 2
def STATUS_EXPIRED : Nat := 3

structure ProofRecord where
  videoHash : Bytes32
  metadataHash : Bytes32
  tier : Nat
  status : Nat
  createdAt : Nat
  expiresAt : Nat
  source : Option Address
  issuer : Option Address
  nullifier : Option Bytes32
  batchSize : Nat
  deriving DecidableEq

structure ProofHistoryEntry where
  action : Nat
  timestamp : Nat
  actor : Option Address
  reasonCode : Nat
  deriving DecidableEq

structure MetadataEnvelope where
  proofId : Bytes32
  version : Nat
  metadataHash : Bytes32
  boundAt : Nat
  deriving DecidableEq

structure BatchRecord where
  root : Bytes32
  source : Address
  count : Nat
  metadataHash : Bytes32
  createdAt : Nat
  deriving DecidableEq

structure IssuerRecord where
  metadataHash : Bytes32
  active : Bool
  deriving DecidableEq

structure IssuerRotationRecord where
  previousIssuer : Address
  replacementIssuer : Address
  rotatedAt : Nat
  graceExpiresAt : Nat
  graceSecs : Nat
  deriving DecidableEq

structure IssuerQuotaRecord where
  maxRegistrations : Nat
  windowSecs : Nat
  deriving DecidableEq

structure IssuerQuotaUsage where
  bucket : Nat
  count : Nat
  deriving DecidableEq

structure CredentialRootRecordV1 where
  metadataHash : Bytes32
  active : Bool
  issuedAt : Nat
  deriving DecidableEq

structure CredentialRootRecord where
  metadataHash : Bytes32
  status : Nat
  issuedAt : Nat
  expiresAt : Nat
  deriving DecidableEq

structure PauseRecord where
  pausedBy : Address
  pausedAt : Nat
  expiresAt : Nat
  deriving DecidableEq

structure DelegationRecord where
  grantor : Address
  delegate : Address
  scope : UInt32
  grantedAt : Nat
  expiresAt : Nat
  deriving DecidableEq

structure VerifierState where
  activeVerifier : Option Address
  pendingVerifier : Option Address
  previousVerifier : Option Address
  activationLedger : Nat
  overlapWindow : Nat
  rollbackWindow : Nat
  rollbackWindowEnd : Nat
  deriving DecidableEq

structure VerifierCircuitVersions where
  minVersion : Nat
  maxVersion : Nat
  setBy : Address
  setAt : Nat
  deriving DecidableEq

structure TimelockProposal where
  action : Nat
  proposer : Address
  target : Address
  payload : Bytes32
  createdAt : Nat
  minExecutionAt : Nat
  executed : Bool
  cancelled : Bool
  deriving DecidableEq

structure AdminCouncil where
  members : List Address
  threshold : Nat
  createdAt : Nat
  effectiveAt : Nat
  deriving DecidableEq

structure CouncilProposal where
  id : Nat
  action : Nat
  proposer : Address
  target : Address
  payload : Bytes32
  createdAt : Nat
  expiresAt : Nat
  approvals : List Address
  executed : Bool
  cancelled : Bool
  deriving DecidableEq

structure RevocationRootEntry where
  root : Bytes32
  activationLedger : Nat
  deriving DecidableEq

structure SchemaRecord where
  schemaHash : Bytes32
  issuerNamespace : Bytes32
  version : Nat
  active : Bool
  attributeCount : Nat
  createdAt : Nat
  deriving DecidableEq

structure LineageRecord where
  parentProofIds : List Bytes32
  parentCommitments : List Bytes32
  manifestDigest : Bytes32
  actor : Address
  operationType : String
  outputDigest : Bytes32
  depth : Nat
  deriving DecidableEq

structure TimestampClaim where
  proofId : Bytes32
  attestationDigest : Bytes32
  claimedTime : Nat
  anchoredAt : Nat
  ledgerSequence : Nat
  sources : UInt32
  rfc3161Commitment : Bytes32
  actor : Address
  assurance : Nat
  deriving DecidableEq

inductive DisputeStatus
  | Open | Responded | Resolved | Dismissed | Superseded
  deriving DecidableEq

inductive DisputeReason
  | ContentError | MetadataError | TierMismatch | CredentialLapsed | PrivacyViolation | Other
  deriving DecidableEq

structure DisputeRecord where
  disputeId : Bytes32
  proofId : Bytes32
  reason : DisputeReason
  reporterHash : Bytes32
  commitmentHash : Bytes32
  reporter : Address
  status : DisputeStatus
  openedAt : Nat
  respondDeadline : Nat
  resolveDeadline : Nat
  responseCommitment : Option Bytes32
  resolvedAt : Nat
  supersededBy : Option Bytes32
  deriving DecidableEq

/-- Two kinds of value share the key constructor `Dispute`: dispute records, and the proof
ids of the supersession reverse index. -/
inductive DisputeValue
  | record (r : DisputeRecord)
  | proofId (p : Bytes32)
  deriving DecidableEq

/-- The storage keys of the contract, those it uses without declaring them included.
`ReporterCooldown` lives in temporary storage, every other key in persistent storage. -/
inductive DataKey
  | Admin
  | Proof (proofId : Bytes32)
  | Video (videoHash : Bytes32)
  | Nullifier (nullifier : Bytes32)
  | CredentialRoot (root : Bytes32)
  | CredentialRootV2 (root : Bytes32)
  | CredentialRootSeq
  | CredentialRootIndex (seq : Nat)
  | CredentialRootIndexed (root : Bytes32)
  | CredentialRootsBackfillQueue
  | CredentialRootsBackfillCursor
  | CredentialRootsBackfill
  | Issuer (issuer : Address)
  | IssuerRotation (issuer : Address)
  | IssuerQuota (issuer : Address)
  | IssuerQuotaUsage (issuer : Address)
  | Verifier
  | ProofTtl
  | Guardian
  | Pause (domain : UInt32)
  | PendingAdmin
  | RevocationRoot
  | RevocationRoots
  | RevocationRootGraceWindow
  | ProofHistorySeq (proofId : Bytes32)
  | ProofHistoryEntry (proofId : Bytes32) (seq : Nat)
  | Delegation (grantor delegate : Address)
  | DelegationCount (grantor : Address)
  | VerifierState
  | VerifierCircuitVersions
  | SchemaVersion
  | WasmHash
  | ScopeEpoch (scope : Bytes32)
  | ProposalSeq
  | Proposal (id : Nat)
  | TimelockMinDelay
  | AdminCouncil
  | CouncilProposalSeq
  | CouncilProposal (id : Nat)
  | Schema (schemaHash : Bytes32)
  | SourceBatch (root : Bytes32)
  | Lineage (outputDigest : Bytes32)
  | LineageChildCount (parent : Bytes32)
  | LineageChildSeq (parent : Bytes32)
  | LineageChild (parent : Bytes32) (seq : Nat)
  | TimestampClaim (proofId : Bytes32)
  | MetadataEnvelope (proofId : Bytes32)
  | Dispute (disputeId : Bytes32)
  | ProofOpenDisputeCount (proofId : Bytes32)
  | ReporterOpenDisputeCount (reporter : Address)
  | ReporterCooldown (reporterHash : Bytes32)
  | VerifierNullifier (verifier : Address) (nullifier : Bytes32)
  | ProofDisputeSeq (proofId : Bytes32)
  | ProofDispute (proofId : Bytes32) (seq : Nat)
  deriving DecidableEq

/-- The key constructors without their arguments: what a footprint speaks about. -/
inductive Family
  | Admin | Proof | Video | Nullifier | CredentialRoot | CredentialRootV2 | CredentialRootSeq
  | CredentialRootIndex | CredentialRootIndexed | CredentialRootsBackfillQueue
  | CredentialRootsBackfillCursor | CredentialRootsBackfill | Issuer | IssuerRotation
  | IssuerQuota | IssuerQuotaUsage | Verifier | ProofTtl | Guardian | Pause | PendingAdmin
  | RevocationRoot | RevocationRoots | RevocationRootGraceWindow | ProofHistorySeq
  | ProofHistoryEntry | Delegation | DelegationCount | VerifierState | VerifierCircuitVersions
  | SchemaVersion | WasmHash | ScopeEpoch | ProposalSeq | Proposal | TimelockMinDelay
  | AdminCouncil | CouncilProposalSeq | CouncilProposal | Schema | SourceBatch | Lineage
  | LineageChildCount | LineageChildSeq | LineageChild | TimestampClaim | MetadataEnvelope
  | Dispute | ProofOpenDisputeCount | ReporterOpenDisputeCount | ReporterCooldown
  | VerifierNullifier | ProofDisputeSeq | ProofDispute
  deriving DecidableEq

@[simp,reducible] def DataKey.family : DataKey → Family
  | .Admin => .Admin
  | .Proof _ => .Proof
  | .Video _ => .Video
  | .Nullifier _ => .Nullifier
  | .CredentialRoot _ => .CredentialRoot
  | .CredentialRootV2 _ => .CredentialRootV2
  | .CredentialRootSeq => .CredentialRootSeq
  | .CredentialRootIndex _ => .CredentialRootIndex
  | .CredentialRootIndexed _ => .CredentialRootIndexed
  | .CredentialRootsBackfillQueue => .CredentialRootsBackfillQueue
  | .CredentialRootsBackfillCursor => .CredentialRootsBackfillCursor
  | .CredentialRootsBackfill => .CredentialRootsBackfill
  | .Issuer _ => .Issuer
  | .IssuerRotation _ => .IssuerRotation
  | .IssuerQuota _ => .IssuerQuota
  | .IssuerQuotaUsage _ => .IssuerQuotaUsage
  | .Verifier => .Verifier
  | .ProofTtl => .ProofTtl
  | .Guardian => .Guardian
  | .Pause _ => .Pause
  | .PendingAdmin => .PendingAdmin
  | .RevocationRoot => .RevocationRoot
  | .RevocationRoots => .RevocationRoots
  | .RevocationRootGraceWindow => .RevocationRootGraceWindow
  | .ProofHistorySeq _ => .ProofHistorySeq
  | .ProofHistoryEntry _ _ => .ProofHistoryEntry
  | .Delegation _ _ => .Delegation
  | .DelegationCount _ => .DelegationCount
  | .VerifierState => .VerifierState
  | .VerifierCircuitVersions => .VerifierCircuitVersions
  | .SchemaVersion => .SchemaVersion
  | .WasmHash => .WasmHash
  | .ScopeEpoch _ => .ScopeEpoch
  | .ProposalSeq => .ProposalSeq
  | .Proposal _ => .Proposal
  | .TimelockMinDelay => .TimelockMinDelay
  | .AdminCouncil => .AdminCouncil
  | .CouncilProposalSeq => .CouncilProposalSeq
  | .CouncilProposal _ => .CouncilProposal
  | .Schema _ => .Schema
  | .SourceBatch _ => .SourceBatch
  | .Lineage _ => .Lineage
  | .LineageChildCount _ => .LineageChildCount
  | .LineageChildSeq _ => .LineageChildSeq
  | .LineageChild _ _ => .LineageChild
  | .TimestampClaim _ => .TimestampClaim
  | .MetadataEnvelope _ => .MetadataEnvelope
  | .Dispute _ => .Dispute
  | .ProofOpenDisputeCount _ => .ProofOpenDisputeCount
  | .ReporterOpenDisputeCount _ => .ReporterOpenDisputeCount
  | .ReporterCooldown _ => .ReporterCooldown
  | .VerifierNullifier _ _ => .VerifierNullifier
  | .ProofDisputeSeq _ => .ProofDisputeSeq
  | .ProofDispute _ _ => .ProofDispute

abbrev In (fs : List Family) (k : DataKey) : Prop := k.family ∈ fs

theorem notMem_of_elem {f : Family} {fs : List Family} (h : fs.elem f=false) : f∉fs := by
  intro hf
  rw [List.elem_eq_true_of_mem hf] at h
  cases h

/-- The type of the value stored under a key. -/
@[reducible] def DataKey.Val : DataKey → Type
  | .Admin | .Verifier | .Guardian | .PendingAdmin => Address
  | .Proof _ => ProofRecord
  | .Video _ | .CredentialRootIndex _ | .RevocationRoot | .WasmHash
  | .LineageChild _ _ | .ProofDispute _ _ => Bytes32
  | .Nullifier _ | .VerifierNullifier _ _ => Bool
  | .CredentialRoot _ => CredentialRootRecordV1
  | .CredentialRootV2 _ => CredentialRootRecord
  | .CredentialRootSeq | .CredentialRootIndexed _ | .CredentialRootsBackfillCursor
  | .ProofTtl | .RevocationRootGraceWindow | .ProofHistorySeq _ | .DelegationCount _
  | .SchemaVersion | .ScopeEpoch _ | .ProposalSeq | .TimelockMinDelay
  | .CouncilProposalSeq | .LineageChildCount _ | .LineageChildSeq _
  | .ProofOpenDisputeCount _ | .ReporterOpenDisputeCount _ | .ReporterCooldown _
  | .ProofDisputeSeq _ => Nat
  | .CredentialRootsBackfillQueue | .CredentialRootsBackfill => List Bytes32
  | .Issuer _ => IssuerRecord
  | .IssuerRotation _ => IssuerRotationRecord
  | .IssuerQuota _ => IssuerQuotaRecord
  | .IssuerQuotaUsage _ => Registry.IssuerQuotaUsage
  | .Pause _ => PauseRecord
  | .RevocationRoots => List RevocationRootEntry
  | .ProofHistoryEntry _ _ => Registry.ProofHistoryEntry
  | .Delegation _ _ => DelegationRecord
  | .VerifierState => Registry.VerifierState
  | .VerifierCircuitVersions => Registry.VerifierCircuitVersions
  | .Proposal _ => TimelockProposal
  | .AdminCouncil => Registry.AdminCouncil
  | .CouncilProposal _ => Registry.CouncilProposal
  | .Schema _ => SchemaRecord
  | .SourceBatch _ => BatchRecord
  | .Lineage _ => LineageRecord
  | .TimestampClaim _ => Registry.TimestampClaim
  | .MetadataEnvelope _ => Registry.MetadataEnvelope
  | .Dispute _ => DisputeValue

abbrev Storage := Store DataKey DataKey.Val

end Harpocrates.Registry
