import Harpocrates.Registry.Lifecycle

namespace Harpocrates.Registry

open Framework Tx

def MAX_LINEAGE_DEPTH : Nat := 4
def MAX_LINEAGE_FANOUT : Nat := 4
def MAX_LINEAGE_CHILDREN_PER_PARENT : Nat := 256

def lineageChildCount (s : Storage) (parent : Bytes32) : Nat :=
  (s (.LineageChildCount parent)).getD 0

/-- A parent must be a proof in good standing or a recorded derivative. -/
def checkLineageParent (env : Env) (outputDigest parent : Bytes32) : M Unit := do
  panicIf (parent == outputDigest) .LineageCycle
  if ← has (.Proof parent) then
    panicIf ((← Tx.gets (getProofStatus env.timestamp · parent)) != .Valid)
      .LineageParentUnavailable
  else
    panicIf (!(← has (.Lineage parent))) .InvalidLineage

/-- The depth of a derivative is one more than `maxParentDepth`, which the source never
raises above zero. -/
def validateLineage (env : Env) (parents : List Bytes32) (outputDigest : Bytes32)
    (claimedDepth : Nat) : M Nat := do
  panicIf parents.isEmpty .LineageEmptyParents
  panicIf (parents.length > MAX_LINEAGE_FANOUT) .LineageFanOutExceeded
  let maxParentDepth := 0
  Tx.forEach parents (checkLineageParent env outputDigest)
  let derivedDepth := satAdd32 maxParentDepth 1
  panicIf (derivedDepth > MAX_LINEAGE_DEPTH) .LineageTooDeep
  panicIf (claimedDepth != derivedDepth) .LineageDepthMismatch
  Tx.forEach parents fun parent => do
    panicIf ((← Tx.gets (lineageChildCount · parent)) ≥ MAX_LINEAGE_FANOUT)
      .LineageFanOutSaturated
  Tx.forEach parents fun parent => do
    let used ← Tx.gets (lineageChildCount · parent)
    store (.LineageChildCount parent) (used+1)
  pure derivedDepth

/-- The bytes of `harp_lin_pc`. -/
def LINEAGE_PREFIX : Bytes := [0x68,0x61,0x72,0x70,0x5f,0x6c,0x69,0x6e,0x5f,0x70,0x63]

def deriveLineageParentCommitment (sha256 : Bytes → Bytes32) (bindingA bindingB : Bytes32) :
    Bytes32 :=
  sha256 (LINEAGE_PREFIX++bindingA.1++bindingB.1)

/-- Depth-first search for `target` among the ancestors of a digest; the list holds the
digests visited so far. -/
def checkLineageCycleInternal (s : Storage) (target : Bytes32) :
    Nat → Bytes32 → List Bytes32 → Bool × List Bytes32
  | 0,_,visited => (false,visited)
  | fuel+1,proofId,visited =>
    if visited.contains proofId then (false,visited)
    else if proofId = target then (true,visited++[proofId])
    else
      match s (.Lineage proofId) with
      | none => (false,visited++[proofId])
      | some lineage =>
        lineage.parentProofIds.foldl (fun (found,seen) parent =>
          if found then (found,seen)
          else checkLineageCycleInternal s target fuel parent seen) (false,visited++[proofId])

def checkLineageCycle (s : Storage) (proofId target : Bytes32) : Bool :=
  (checkLineageCycleInternal s target MAX_LINEAGE_DEPTH proofId []).1

def collectLineageParentCommitments (sha256 : Bytes → Bytes32) (s : Storage)
    (outputDigest : Bytes32) : List Bytes32 → Except RegistryError (List Bytes32)
  | [] => .ok []
  | parent::parents =>
    match s (.Proof parent) with
    | some proof => do
      let rest ← collectLineageParentCommitments sha256 s outputDigest parents
      .ok (deriveLineageParentCommitment sha256 proof.videoHash proof.metadataHash::rest)
    | none =>
      match s (.Lineage parent) with
      | some lineage => do
        let rest ← collectLineageParentCommitments sha256 s outputDigest parents
        .ok (deriveLineageParentCommitment sha256 lineage.manifestDigest lineage.outputDigest::rest)
      | none =>
        if checkLineageCycle s parent outputDigest then .error .LineageCycle
        else collectLineageParentCommitments sha256 s outputDigest parents

def appendLineageChild (parent child : Bytes32) : M Unit := do
  let current := (← load (.LineageChildSeq parent)).getD 0
  panicIf (current ≥ MAX_LINEAGE_CHILDREN_PER_PARENT) .LineageChildrenSaturated
  store (.LineageChild parent (current+1)) child
  store (.LineageChildSeq parent) (current+1)

/-- The source leaves the depth of the record unbound; it is taken to be the one that
`validate_lineage` returns. -/
def registerLineage (env : Env) (actor : Address) (parents : List Bytes32)
    (manifestDigest : Bytes32) (operationType : String) (outputDigest : Bytes32) (depth : Nat) :
    M LineageRecord := do
  requireInitialized
  requireAuth env actor
  panicIf (← has (.Lineage outputDigest)) .DuplicateLineage
  let derivedDepth ← validateLineage env parents outputDigest depth
  let parentCommitments ← ofExcept
    (← Tx.gets (collectLineageParentCommitments env.sha256 · outputDigest parents))
  let record :=
    { parentProofIds := parents, parentCommitments, manifestDigest, actor, operationType
      outputDigest
      depth := derivedDepth }
  store (.Lineage outputDigest) record
  Tx.forEach parents (appendLineageChild · outputDigest)
  pure record

def TIMESTAMP_SOURCE_CLAIMED : UInt32 := 1
def TIMESTAMP_SOURCE_STELLAR : UInt32 := 2
def TIMESTAMP_SOURCE_RFC3161 : UInt32 := 4
def MAX_TIMESTAMP_FUTURE_DRIFT_SECS : Nat := 300
def TIMESTAMP_ASSURANCE_NONE : Nat := 0
def TIMESTAMP_ASSURANCE_CLAIMED : Nat := 1
def TIMESTAMP_ASSURANCE_INDEPENDENT : Nat := 3

def requireTimestampClaimActor (env : Env) (actor : Address) (proof : ProofRecord) :
    M Unit := do
  requireAuth env actor
  let _ ← expect (← load .Admin) .NotInitialized
  panicIf (!(← Tx.gets (isProofActor · actor proof))) .UnauthorizedTimestampActor

def computeTimestampAssurance (sources : UInt32) : Nat :=
  if sources &&& (TIMESTAMP_SOURCE_STELLAR ||| TIMESTAMP_SOURCE_RFC3161) ≠ 0 then
    TIMESTAMP_ASSURANCE_INDEPENDENT
  else if sources &&& TIMESTAMP_SOURCE_CLAIMED ≠ 0 then TIMESTAMP_ASSURANCE_CLAIMED
  else TIMESTAMP_ASSURANCE_NONE

def anchorTimestampClaim (env : Env) (actor : Address) (proofId attestationDigest : Bytes32)
    (claimedTime : Nat) (rfc3161Commitment : Bytes32) : M TimestampClaim := do
  panicIf (!(← has (.Proof proofId))) .TimestampClaimNotFound
  let proof ← getProofRecord proofId
  requireTimestampClaimActor env actor proof
  panicIf (attestationDigest == zero32) .InvalidTimestampClaim
  panicIf (claimedTime > 0 &&
    claimedTime > satAdd64 env.timestamp MAX_TIMESTAMP_FUTURE_DRIFT_SECS) .InvalidTimestampClaim
  let hasRfc3161 := rfc3161Commitment != zero32
  let sources := TIMESTAMP_SOURCE_STELLAR |||
    (if claimedTime > 0 then TIMESTAMP_SOURCE_CLAIMED else 0) |||
    (if hasRfc3161 then TIMESTAMP_SOURCE_RFC3161 else 0)
  let assurance := computeTimestampAssurance sources
  let claim :=
    { proofId, attestationDigest, claimedTime
      anchoredAt := env.timestamp
      ledgerSequence := env.sequence
      sources
      rfc3161Commitment := if hasRfc3161 then rfc3161Commitment else zero32
      actor, assurance }
  match ← load (.TimestampClaim proofId) with
  | some existing =>
    let addsRfc3161 := hasRfc3161 && existing.sources &&& TIMESTAMP_SOURCE_RFC3161 == 0
    panicIf (assurance < existing.assurance || (assurance == existing.assurance && !addsRfc3161))
      .TimestampClaimAlreadyAnchored
  | none => pure ()
  store (.TimestampClaim proofId) claim
  pure claim

def lineageFootprint : List Family := [.Lineage,.LineageChildCount,.LineageChildSeq,.LineageChild]

theorem checkLineageParent_writes (W : DataKey → Prop) (env : Env) (output parent : Bytes32) :
    Writes W (checkLineageParent env output parent) := by
  unfold checkLineageParent
  repeat' first
    | with_reducible refine Writes.bind ?_ fun _ => ?_
    | with_reducible apply Writes.ite
    | simp

theorem validateLineage_writes (env : Env) (parents : List Bytes32) (output : Bytes32)
    (depth : Nat) {fs : List Family} (hfs : [.LineageChildCount] ⊆ fs) :
    Writes (In fs) (validateLineage env parents output depth) := by
  unfold validateLineage
  repeat' first
    | with_reducible refine Writes.bind ?_ fun _ => ?_
    | exact Writes.forEach _ fun _ _ => checkLineageParent_writes _ _ _ _
    | refine Writes.forEach _ fun _ _ => ?_
    | simp_all

theorem appendLineageChild_writes (parent child : Bytes32) {fs : List Family}
    (hfs : [.LineageChildSeq,.LineageChild] ⊆ fs) :
    Writes (In fs) (appendLineageChild parent child) := by
  unfold appendLineageChild
  repeat' first | with_reducible refine Writes.bind ?_ fun _ => ?_ | simp_all

end Harpocrates.Registry
