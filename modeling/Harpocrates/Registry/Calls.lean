import Harpocrates.Registry.Council
import Harpocrates.Registry.Registration
import Harpocrates.Registry.Sources
import Harpocrates.Registry.Evidence
import Harpocrates.Registry.Revocation
import Harpocrates.Registry.Pause
import Harpocrates.Registry.Disputes

namespace Harpocrates.Registry

open Framework Tx

/-- A call of an entry point that can write, with its arguments. -/
inductive Call
  | init (admin : Address)
  | upgradeStorage (admin : Address)
  | proposeAdmin (admin pendingAdmin : Address)
  | cancelAdminTransfer (admin : Address)
  | acceptAdmin (pendingAdmin : Address)
  | setProofTtl (admin : Address) (ttlSecs : Nat)
  | setScopeEpoch (admin : Address) (scope : Bytes32) (epoch : Nat)
  | setGuardian (admin guardian : Address)
  | clearGuardian (admin : Address)
  | addIssuer (admin issuer : Address) (metadataHash : Bytes32)
  | revokeIssuer (admin issuer : Address)
  | updateIssuerMetadata (admin issuer : Address) (metadataHash : Bytes32)
  | rotateIssuer (admin previousIssuer replacementIssuer : Address) (graceSecs : Nat)
  | finalizeIssuerRotation (issuer : Address)
  | setVerifier (admin verifier : Address)
  | setVerifierCircuitVersions (admin : Address) (minVersion maxVersion : Nat)
  | scheduleVerifierRotation (admin verifier : Address)
      (activationLedger overlapWindow rollbackWindow : Nat)
  | activateVerifierRotation (admin : Address)
  | rollbackVerifierRotation (admin : Address)
  | addCredentialRoot (admin : Address) (root metadataHash : Bytes32)
  | revokeCredentialRoot (admin : Address) (root : Bytes32)
  | expireCredentialRoot (admin : Address) (root : Bytes32)
  | stageCredentialRootsForBackfill (admin : Address) (roots : List Bytes32)
  | proposeTimelockedAction (admin : Address) (action : Nat) (target : Address)
      (payload : Bytes32)
  | cancelTimelockedProposal (admin : Address) (id : Nat)
  | executeTimelockedProposal (caller : Address) (id : Nat)
  | emergencyExecuteTimelock (admin : Address) (id : Nat)
  | setTimelockMinDelaySecs (admin : Address) (delaySecs : Nat)
  | setAdminCouncil (admin : Address) (members : List Address) (threshold : Nat)
  | cancelPendingAdminCouncil (admin : Address)
  | proposeCouncilAction (proposer : Address) (action : Nat) (target : Address)
      (payload : Bytes32)
  | approveCouncilProposal (member : Address) (id : Nat)
  | executeCouncilProposal (caller : Address) (id : Nat)
  | cancelCouncilProposal (caller : Address) (id : Nat)
  | registerAnonymous (videoHash metadataHash proofId nullifier credentialRoot : Bytes32)
      (proof : Bytes)
  | registerAnonymousVerified (videoHash metadataHash proofId : Bytes32)
      (publicInputs proof : Bytes)
  | registerBatchVerified (batchId metadataHash : Bytes32) (publicInputs proof : Bytes)
      (videoHashes : List Bytes32)
  | registerSource (source : Address) (videoHash metadataHash proofId : Bytes32)
  | registerSourceBatchRoot (source : Address) (root : Bytes32) (count : Nat)
      (metadataHash : Bytes32)
  | registerSeal (issuer : Address) (videoHash metadataHash proofId : Bytes32)
  | grantDelegation (grantor delegate : Address) (scope : UInt32) (durationSecs : Nat)
  | revokeDelegation (revoker grantor delegate : Address)
  | registerSourceDelegated (delegate source : Address) (videoHash metadataHash proofId : Bytes32)
  | registerSealDelegated (delegate issuer : Address) (videoHash metadataHash proofId : Bytes32)
  | revokeProof (admin : Address) (proofId : Bytes32)
  | revokeProofs (admin : Address) (proofIds : List Bytes32) (reasonCode : Nat)
  | verifyProof (actor : Address) (proofId : Bytes32) (reasonCode : Nat)
  | expireProof (admin : Address) (proofId : Bytes32) (reasonCode : Nat)
  | correctProof (admin : Address) (proofId newMetadataHash : Bytes32) (reasonCode : Nat)
  | bindMetadataEnvelope (actor : Address) (proofId : Bytes32) (version : Nat)
      (metadataHash : Bytes32)
  | registerLineage (actor : Address) (parents : List Bytes32) (manifestDigest : Bytes32)
      (operationType : String) (outputDigest : Bytes32) (depth : Nat)
  | anchorTimestampClaim (actor : Address) (proofId attestationDigest : Bytes32)
      (claimedTime : Nat) (rfc3161Commitment : Bytes32)
  | setRevocationRoot (admin : Address) (root : Bytes32)
  | setRevocationRootGraceWindow (admin : Address) (graceLedgers : Nat)
  | checkNonRevocation (publicInputs proof : Bytes)
  | pause (caller : Address) (domain : UInt32) (durationSecs : Nat)
  | unpause (admin : Address) (domain : UInt32)
  | addSchema (admin : Address) (schemaHash issuerNamespace : Bytes32)
      (version attributeCount : Nat)
  | deprecateSchema (admin : Address) (schemaHash : Bytes32)
  | verifySelectiveDisclosure (publicInputs proof : Bytes)
  | openDispute (reporter : Address) (reporterHash disputeId proofId : Bytes32)
      (reason : DisputeReason) (commitmentHash : Bytes32)
  | respondDispute (responder : Address) (disputeId responseCommitment : Bytes32)
  | resolveDispute (admin : Address) (disputeId : Bytes32)
  | dismissDispute (admin : Address) (disputeId : Bytes32)
  | supersedeDispute (admin : Address) (disputeId supersedingProofId : Bytes32)

def discard {α : Type} (m : M α) : M Unit := do
  let _ ← m

@[simp] theorem discard_ok {α : Type} (m : M α) (s s' : Storage) (u : Unit) :
    discard m s=.ok (u,s') ↔ ∃ a, m s=.ok (a,s') := by
  simp [discard]

theorem discard_writes {α : Type} {W : DataKey → Prop} {m : M α} (h : Writes W m) :
    Writes W (discard m) :=
  Writes.bind h fun _ => by simp

theorem discard_ensures {α : Type} {P : Prop} {m : M α} (h : Ensures P m) :
    Ensures P (discard m) :=
  Ensures.bind_left h

def exec (env : Env) : Call → M Unit
  | .init admin => init env admin
  | .upgradeStorage admin => upgradeStorage env admin
  | .proposeAdmin admin pendingAdmin => proposeAdmin env admin pendingAdmin
  | .cancelAdminTransfer admin => cancelAdminTransfer env admin
  | .acceptAdmin pendingAdmin => acceptAdmin env pendingAdmin
  | .setProofTtl admin ttlSecs => setProofTtl env admin ttlSecs
  | .setScopeEpoch admin scope epoch => setScopeEpoch env admin scope epoch
  | .setGuardian admin guardian => setGuardian env admin guardian
  | .clearGuardian admin => clearGuardian env admin
  | .addIssuer admin issuer metadataHash => addIssuer env admin issuer metadataHash
  | .revokeIssuer admin issuer => revokeIssuer env admin issuer
  | .updateIssuerMetadata admin issuer metadataHash =>
    updateIssuerMetadata env admin issuer metadataHash
  | .rotateIssuer admin previousIssuer replacementIssuer graceSecs =>
    discard (rotateIssuer env admin previousIssuer replacementIssuer graceSecs)
  | .finalizeIssuerRotation issuer => finalizeIssuerRotation env issuer
  | .setVerifier admin verifier => setVerifier env admin verifier
  | .setVerifierCircuitVersions admin minVersion maxVersion =>
    setVerifierCircuitVersions env admin minVersion maxVersion
  | .scheduleVerifierRotation admin verifier activationLedger overlapWindow rollbackWindow =>
    scheduleVerifierRotation env admin verifier activationLedger overlapWindow rollbackWindow
  | .activateVerifierRotation admin => activateVerifierRotation env admin
  | .rollbackVerifierRotation admin => rollbackVerifierRotation env admin
  | .addCredentialRoot admin root metadataHash => addCredentialRoot env admin root metadataHash
  | .revokeCredentialRoot admin root => revokeCredentialRoot env admin root
  | .expireCredentialRoot admin root => expireCredentialRoot env admin root
  | .stageCredentialRootsForBackfill admin roots =>
    stageCredentialRootsForBackfill env admin roots
  | .proposeTimelockedAction admin action target payload =>
    discard (proposeTimelockedAction env admin action target payload)
  | .cancelTimelockedProposal admin id => cancelTimelockedProposal env admin id
  | .executeTimelockedProposal caller id => executeTimelockedProposal env caller id
  | .emergencyExecuteTimelock admin id => emergencyExecuteTimelock env admin id
  | .setTimelockMinDelaySecs admin delaySecs => setTimelockMinDelaySecs env admin delaySecs
  | .setAdminCouncil admin members threshold => setAdminCouncil env admin members threshold
  | .cancelPendingAdminCouncil admin => cancelPendingAdminCouncil env admin
  | .proposeCouncilAction proposer action target payload =>
    discard (proposeCouncilAction env proposer action target payload)
  | .approveCouncilProposal member id => discard (approveCouncilProposal env member id)
  | .executeCouncilProposal caller id => executeCouncilProposal env caller id
  | .cancelCouncilProposal caller id => cancelCouncilProposal env caller id
  | .registerAnonymous videoHash metadataHash proofId nullifier credentialRoot proof =>
    discard (registerAnonymous env videoHash metadataHash proofId nullifier credentialRoot proof)
  | .registerAnonymousVerified videoHash metadataHash proofId publicInputs proof =>
    discard (registerAnonymousVerified env videoHash metadataHash proofId publicInputs proof)
  | .registerBatchVerified batchId metadataHash publicInputs proof videoHashes =>
    discard (registerBatchVerified env batchId metadataHash publicInputs proof videoHashes)
  | .registerSource source videoHash metadataHash proofId =>
    discard (registerSource env source videoHash metadataHash proofId)
  | .registerSourceBatchRoot source root count metadataHash =>
    discard (registerSourceBatchRoot env source root count metadataHash)
  | .registerSeal issuer videoHash metadataHash proofId =>
    discard (registerSeal env issuer videoHash metadataHash proofId)
  | .grantDelegation grantor delegate scope durationSecs =>
    discard (grantDelegation env grantor delegate scope durationSecs)
  | .revokeDelegation revoker grantor delegate => revokeDelegation env revoker grantor delegate
  | .registerSourceDelegated delegate source videoHash metadataHash proofId =>
    discard (registerSourceDelegated env delegate source videoHash metadataHash proofId)
  | .registerSealDelegated delegate issuer videoHash metadataHash proofId =>
    discard (registerSealDelegated env delegate issuer videoHash metadataHash proofId)
  | .revokeProof admin proofId => revokeProof env admin proofId
  | .revokeProofs admin proofIds reasonCode => revokeProofs env admin proofIds reasonCode
  | .verifyProof actor proofId reasonCode => verifyProof env actor proofId reasonCode
  | .expireProof admin proofId reasonCode => expireProof env admin proofId reasonCode
  | .correctProof admin proofId newMetadataHash reasonCode =>
    correctProof env admin proofId newMetadataHash reasonCode
  | .bindMetadataEnvelope actor proofId version metadataHash =>
    discard (bindMetadataEnvelope env actor proofId version metadataHash)
  | .registerLineage actor parents manifestDigest operationType outputDigest depth =>
    discard (registerLineage env actor parents manifestDigest operationType outputDigest depth)
  | .anchorTimestampClaim actor proofId attestationDigest claimedTime rfc3161Commitment =>
    discard (anchorTimestampClaim env actor proofId attestationDigest claimedTime rfc3161Commitment)
  | .setRevocationRoot admin root => setRevocationRoot env admin root
  | .setRevocationRootGraceWindow admin graceLedgers =>
    setRevocationRootGraceWindow env admin graceLedgers
  | .checkNonRevocation publicInputs proof => checkNonRevocation env publicInputs proof
  | .pause caller domain durationSecs => discard (pause env caller domain durationSecs)
  | .unpause admin domain => unpause env admin domain
  | .addSchema admin schemaHash issuerNamespace version attributeCount =>
    addSchema env admin schemaHash issuerNamespace version attributeCount
  | .deprecateSchema admin schemaHash => deprecateSchema env admin schemaHash
  | .verifySelectiveDisclosure publicInputs proof =>
    verifySelectiveDisclosure env publicInputs proof
  | .openDispute reporter reporterHash disputeId proofId reason commitmentHash =>
    discard (openDispute env reporter reporterHash disputeId proofId reason commitmentHash)
  | .respondDispute responder disputeId responseCommitment =>
    discard (respondDispute env responder disputeId responseCommitment)
  | .resolveDispute admin disputeId => discard (resolveDispute env admin disputeId)
  | .dismissDispute admin disputeId => discard (dismissDispute env admin disputeId)
  | .supersedeDispute admin disputeId supersedingProofId =>
    discard (supersedeDispute env admin disputeId supersedingProofId)

/-- The address a call authenticates, if it authenticates any. -/
def Call.caller : Call → Option Address
  | .init admin => some admin
  | .upgradeStorage admin => some admin
  | .proposeAdmin admin _ => some admin
  | .cancelAdminTransfer admin => some admin
  | .acceptAdmin pendingAdmin => some pendingAdmin
  | .setProofTtl admin _ => some admin
  | .setScopeEpoch admin _ _ => some admin
  | .setGuardian admin _ => some admin
  | .clearGuardian admin => some admin
  | .addIssuer admin _ _ => some admin
  | .revokeIssuer admin _ => some admin
  | .updateIssuerMetadata admin _ _ => some admin
  | .rotateIssuer admin _ _ _ => some admin
  | .setVerifier admin _ => some admin
  | .setVerifierCircuitVersions admin _ _ => some admin
  | .scheduleVerifierRotation admin _ _ _ _ => some admin
  | .activateVerifierRotation admin => some admin
  | .rollbackVerifierRotation admin => some admin
  | .addCredentialRoot admin _ _ => some admin
  | .revokeCredentialRoot admin _ => some admin
  | .expireCredentialRoot admin _ => some admin
  | .stageCredentialRootsForBackfill admin _ => some admin
  | .proposeTimelockedAction admin _ _ _ => some admin
  | .cancelTimelockedProposal admin _ => some admin
  | .executeTimelockedProposal caller _ => some caller
  | .emergencyExecuteTimelock admin _ => some admin
  | .setTimelockMinDelaySecs admin _ => some admin
  | .setAdminCouncil admin _ _ => some admin
  | .cancelPendingAdminCouncil admin => some admin
  | .proposeCouncilAction proposer _ _ _ => some proposer
  | .approveCouncilProposal member _ => some member
  | .executeCouncilProposal caller _ => some caller
  | .cancelCouncilProposal caller _ => some caller
  | .registerSource source _ _ _ => some source
  | .registerSourceBatchRoot source _ _ _ => some source
  | .registerSeal issuer _ _ _ => some issuer
  | .grantDelegation grantor _ _ _ => some grantor
  | .revokeDelegation revoker _ _ => some revoker
  | .registerSourceDelegated delegate _ _ _ _ => some delegate
  | .registerSealDelegated delegate _ _ _ _ => some delegate
  | .revokeProof admin _ => some admin
  | .revokeProofs admin _ _ => some admin
  | .verifyProof actor _ _ => some actor
  | .expireProof admin _ _ => some admin
  | .correctProof admin _ _ _ => some admin
  | .bindMetadataEnvelope actor _ _ _ => some actor
  | .registerLineage actor _ _ _ _ _ => some actor
  | .anchorTimestampClaim actor _ _ _ _ => some actor
  | .setRevocationRoot admin _ => some admin
  | .setRevocationRootGraceWindow admin _ => some admin
  | .pause caller _ _ => some caller
  | .unpause admin _ => some admin
  | .addSchema admin _ _ _ _ => some admin
  | .deprecateSchema admin _ => some admin
  | .openDispute reporter _ _ _ _ _ => some reporter
  | .respondDispute responder _ _ => some responder
  | .resolveDispute admin _ => some admin
  | .dismissDispute admin _ => some admin
  | .supersedeDispute admin _ _ => some admin
  | _ => none

theorem requireAuth_ensures (env : Env) (a : Address) :
    Ensures (env.auth a=true) (requireAuth env a) := by
  intro s r h
  exact ((requireAuth_ok ..).1 h).1

theorem requireAdmin_ensures (env : Env) (a : Address) :
    Ensures (env.auth a=true) (requireAdmin env a) := by
  intro s r h
  exact ((requireAdmin_ok ..).1 h).2.1

theorem requirePauser_ensures (env : Env) (a : Address) :
    Ensures (env.auth a=true) (requirePauser env a) := by
  intro s r h
  exact ((requirePauser_ok ..).1 h).2.1

theorem requireMetadataEnvelopeActor_ensures (env : Env) (a : Address) (r : ProofRecord) :
    Ensures (env.auth a=true) (requireMetadataEnvelopeActor env a r) :=
  Ensures.bind_left (requireAuth_ensures env a)

theorem requireTimestampClaimActor_ensures (env : Env) (a : Address) (r : ProofRecord) :
    Ensures (env.auth a=true) (requireTimestampClaimActor env a r) :=
  Ensures.bind_left (requireAuth_ensures env a)

/-- No call goes through without the authorisation of the address it acts for. -/
theorem exec_authenticates (env : Env) {c : Call} {a : Address} (hc : c.caller=some a) :
    Ensures (env.auth a=true) (exec env c) := by
  cases c <;> cases hc <;>
    repeat' first
      | refine discard_ensures ?_
      | exact Ensures.bind_left (requireAdmin_ensures _ _)
      | exact Ensures.bind_left (requireAuth_ensures _ _)
      | exact Ensures.bind_left (requirePauser_ensures _ _)
      | exact Ensures.bind_left (requireMetadataEnvelopeActor_ensures _ _ _)
      | exact Ensures.bind_left (requireTimestampClaimActor_ensures _ _ _)
      | refine Ensures.bind_right fun _ => ?_

/-- The key families a call can write. -/
def Call.footprint : Call → List Family
  | .init _ => [.Admin,.SchemaVersion]
  | .upgradeStorage _ =>
    [.SchemaVersion,.CredentialRootIndex,.CredentialRootSeq,.CredentialRootIndexed,
      .CredentialRootsBackfillCursor]
  | .proposeAdmin _ _ => [.PendingAdmin]
  | .cancelAdminTransfer _ => [.PendingAdmin]
  | .acceptAdmin _ => [.Admin,.PendingAdmin]
  | .setProofTtl _ _ => [.ProofTtl]
  | .setScopeEpoch _ _ _ => [.ScopeEpoch]
  | .setGuardian _ _ => [.Guardian]
  | .clearGuardian _ => [.Guardian]
  | .addIssuer _ _ _ => [.Issuer,.IssuerRotation]
  | .revokeIssuer _ _ => [.Issuer,.IssuerRotation]
  | .updateIssuerMetadata _ _ _ => [.Issuer]
  | .rotateIssuer _ _ _ _ => [.Issuer,.IssuerRotation]
  | .finalizeIssuerRotation _ => [.IssuerRotation]
  | .setVerifier _ _ => [.Verifier,.VerifierState,.VerifierCircuitVersions]
  | .setVerifierCircuitVersions _ _ _ => [.VerifierCircuitVersions]
  | .scheduleVerifierRotation _ _ _ _ _ => [.VerifierState]
  | .activateVerifierRotation _ => [.Verifier,.VerifierState,.VerifierCircuitVersions]
  | .rollbackVerifierRotation _ => [.Verifier,.VerifierState,.VerifierCircuitVersions]
  | .addCredentialRoot _ _ _ =>
    [.CredentialRootV2,.CredentialRootIndex,.CredentialRootSeq,.CredentialRootIndexed]
  | .revokeCredentialRoot _ _ => [.CredentialRootV2]
  | .expireCredentialRoot _ _ => [.CredentialRootV2]
  | .stageCredentialRootsForBackfill _ _ => [.CredentialRootsBackfillQueue]
  | .proposeTimelockedAction _ _ _ _ => [.ProposalSeq,.Proposal]
  | .cancelTimelockedProposal _ _ => [.Proposal]
  | .executeTimelockedProposal _ _ => timelockFootprint
  | .emergencyExecuteTimelock _ _ => timelockFootprint
  | .setTimelockMinDelaySecs _ _ => [.TimelockMinDelay]
  | .setAdminCouncil _ _ _ => [.AdminCouncil]
  | .cancelPendingAdminCouncil _ => [.AdminCouncil]
  | .proposeCouncilAction _ _ _ _ => [.CouncilProposalSeq,.CouncilProposal]
  | .approveCouncilProposal _ _ => [.CouncilProposal]
  | .executeCouncilProposal _ _ => .CouncilProposal::councilActionFootprint
  | .cancelCouncilProposal _ _ => [.CouncilProposal]
  | .registerAnonymous _ _ _ _ _ _ => witnessFootprint
  | .registerAnonymousVerified _ _ _ _ _ => witnessFootprint
  | .registerBatchVerified _ _ _ _ _ => witnessFootprint
  | .registerSource _ _ _ _ => attributedFootprint
  | .registerSourceBatchRoot _ _ _ _ => [.SourceBatch]
  | .registerSeal _ _ _ _ => attributedFootprint
  | .grantDelegation _ _ _ _ => [.Delegation,.DelegationCount]
  | .revokeDelegation _ _ _ => [.Delegation,.DelegationCount]
  | .registerSourceDelegated _ _ _ _ _ => attributedFootprint
  | .registerSealDelegated _ _ _ _ _ => attributedFootprint
  | .revokeProof _ _ => lifecycleFootprint
  | .revokeProofs _ _ _ => lifecycleFootprint
  | .verifyProof _ _ _ => [.ProofHistorySeq,.ProofHistoryEntry]
  | .expireProof _ _ _ => lifecycleFootprint
  | .correctProof _ _ _ _ => .MetadataEnvelope::lifecycleFootprint
  | .bindMetadataEnvelope _ _ _ _ => [.MetadataEnvelope]
  | .registerLineage _ _ _ _ _ _ => lineageFootprint
  | .anchorTimestampClaim _ _ _ _ _ => [.TimestampClaim]
  | .setRevocationRoot _ _ => [.RevocationRoot,.RevocationRoots]
  | .setRevocationRootGraceWindow _ _ => [.RevocationRootGraceWindow]
  | .checkNonRevocation _ _ => [.VerifierNullifier]
  | .pause _ _ _ => [.Pause]
  | .unpause _ _ => [.Pause]
  | .addSchema _ _ _ _ _ => [.Schema]
  | .deprecateSchema _ _ => [.Schema]
  | .verifySelectiveDisclosure _ _ => [.VerifierNullifier]
  | .openDispute _ _ _ _ _ _ =>
    [.Dispute,.ProofOpenDisputeCount,.ReporterOpenDisputeCount,.ReporterCooldown,
      .ProofDispute,.ProofDisputeSeq]
  | .respondDispute _ _ _ => [.Dispute]
  | .resolveDispute _ _ => .Dispute::counterFootprint
  | .dismissDispute _ _ => .Dispute::counterFootprint
  | .supersedeDispute _ _ _ => .Dispute::counterFootprint

theorem exec_writes (env : Env) (c : Call) : Writes (In c.footprint) (exec env c) := by
  cases c with
  | revokeIssuer => exact revokeIssuer_writes _ _ _
  | updateIssuerMetadata => exact updateIssuerMetadata_writes _ _ _ _
  | rotateIssuer => exact discard_writes (rotateIssuer_writes _ _ _ _ _)
  | executeTimelockedProposal => exact executeTimelockedProposal_writes _ _ _
  | emergencyExecuteTimelock => exact emergencyExecuteTimelock_writes _ _ _
  | executeCouncilProposal => exact executeCouncilProposal_writes _ _ _
  | registerAnonymous | registerAnonymousVerified =>
    simp only [exec,registerAnonymous,registerAnonymousVerified,registerScopedWitness,
      registerLegacyWitness,registerBrowserWitness]
    repeat' first
      | with_reducible refine discard_writes ?_
      | with_reducible refine Writes.bind ?_ fun _ => ?_
      | with_reducible apply Writes.ite
      | exact saveWitness_writes _ _ _ _ _ _
      | simp
  | registerBatchVerified =>
    simp only [exec,registerBatchVerified]
    repeat' first
      | with_reducible refine discard_writes ?_
      | with_reducible refine Writes.bind ?_ fun _ => ?_
      | exact Writes.forEach _ fun _ _ => checkBatchItem_writes _ _ _ _
      | exact Writes.forEach _ fun _ _ => persistBatchItem_writes _ _ _ _ _ _
      | simp
  | registerSource | registerSeal | registerSourceDelegated | registerSealDelegated =>
    simp only [exec,registerSource,registerSeal,registerSourceDelegated,registerSealDelegated,
      Call.footprint]
    repeat' first
      | with_reducible refine discard_writes ?_
      | with_reducible refine Writes.bind ?_ fun _ => ?_
      | exact saveRecord_writes _ _ _ _ (by simp [attributedFootprint])
      | simp [attributedFootprint]
  | revokeProof | revokeProofs =>
    simp only [exec,revokeProof,revokeProofs]
    repeat' first
      | with_reducible refine Writes.bind ?_ fun _ => ?_
      | exact revokeProofInternal_writes _ _ _ _
      | exact Writes.forEach _ fun _ _ => revokeProofInternal_writes _ _ _ _
      | simp
  | correctProof | bindMetadataEnvelope | anchorTimestampClaim =>
    simp only [exec,correctProof,bindMetadataEnvelope,requireMetadataEnvelopeActor,
      anchorTimestampClaim,requireTimestampClaimActor,Call.footprint,lifecycleFootprint]
    repeat' first
      | with_reducible refine discard_writes ?_
      | with_reducible refine Writes.bind ?_ fun _ => ?_
      | split
      | simp
  | registerLineage =>
    simp only [exec,registerLineage,Call.footprint]
    repeat' first
      | with_reducible refine discard_writes ?_
      | exact validateLineage_writes _ _ _ _ (by decide)
      | exact Writes.forEach _ fun _ _ => appendLineageChild_writes _ _ (by decide)
      | with_reducible refine Writes.bind ?_ fun _ => ?_
      | simp [lineageFootprint]
  | pause | unpause =>
    simp only [exec,pause,unpause,Call.footprint]
    repeat' first
      | with_reducible refine discard_writes ?_
      | with_reducible refine Writes.bind ?_ fun _ => ?_
      | with_reducible apply Writes.ite
      | refine Writes.forEach _ fun _ _ => ?_
      | simp
  | resolveDispute | dismissDispute | supersedeDispute =>
    simp only [exec,resolveDispute,dismissDispute,supersedeDispute,recordSupersessionDirection,
      Call.footprint]
    repeat' first
      | with_reducible refine discard_writes ?_
      | exact closeDispute_writes _ _ _ _
      | exact checkSupersessionCycle_writes _ _ _ _
      | with_reducible refine Writes.bind ?_ fun _ => ?_
      | exact decrementOpenDisputeCount_writes _ (by simp)
      | exact decrementReporterOpenDisputeCount_writes _ (by simp)
      | simp
  -- the others do nothing but check, read and write
  | _ =>
    simp only [exec,init,upgradeStorage,proposeAdmin,cancelAdminTransfer,acceptAdmin,setProofTtl,
      setScopeEpoch,setGuardian,clearGuardian,addIssuer,finalizeIssuerRotation,setVerifier,
      setVerifierCircuitVersions,scheduleVerifierRotation,activateVerifierRotation,
      rollbackVerifierRotation,addCredentialRoot,revokeCredentialRoot,expireCredentialRoot,
      stageCredentialRootsForBackfill,proposeTimelockedAction,nextProposalId,
      cancelTimelockedProposal,setTimelockMinDelaySecs,setAdminCouncil,cancelPendingAdminCouncil,
      proposeCouncilAction,nextCouncilProposalId,approveCouncilProposal,cancelCouncilProposal,
      registerSourceBatchRoot,grantDelegation,revokeDelegation,verifyProof,expireProof,
      setRevocationRoot,setRevocationRootGraceWindow,checkNonRevocation,addSchema,deprecateSchema,
      getSchemaRecord,verifySelectiveDisclosure,openDispute,appendProofDispute,respondDispute]
    repeat' first
      | with_reducible refine Writes.bind ?_ fun _ => ?_
      | with_reducible apply Writes.ite
      | with_reducible refine discard_writes ?_
      | simp [Call.footprint,lifecycleFootprint]

theorem exec_footprint {env : Env} {c : Call} {s s' : Storage} {u : Unit}
    (h : exec env c s=.ok (u,s')) {k : DataKey} (hk : k.family∉c.footprint) :
    s' k=s k :=
  exec_writes env c s u s' h k hk

end Harpocrates.Registry
