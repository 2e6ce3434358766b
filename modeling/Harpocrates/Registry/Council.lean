import Harpocrates.Registry.Admin
import Harpocrates.Registry.Timelock

namespace Harpocrates.Registry

open Framework Tx

def MAX_SIGNERS : Nat := 16
def DEFAULT_APPROVAL_TTL_SECS : Nat := 86400

/-- The council in force: the stored record once its delay has passed. -/
def getAdminCouncil (now : Nat) (s : Storage) : Option AdminCouncil :=
  match s .AdminCouncil with
  | some record => if record.effectiveAt ≤ now then some record else none
  | none => none

def setAdminCouncil (env : Env) (admin : Address) (members : List Address) (threshold : Nat) :
    M Unit := do
  requireAdmin env admin
  requireNoCouncil env
  panicIf (threshold == 0 || threshold > members.length || members.length > MAX_SIGNERS)
    .InvalidProposalPayload
  panicIf (!decide members.Nodup) .Unauthorized
  let minDelay ← Tx.gets getTimelockMinDelay
  store .AdminCouncil
    { members, threshold
      createdAt := env.timestamp
      effectiveAt := satAdd64 env.timestamp minDelay }

def cancelPendingAdminCouncil (env : Env) (admin : Address) : M Unit := do
  requireAdmin env admin
  let record ← expect (← load .AdminCouncil) .AlreadyCancelled
  panicIf (env.timestamp ≥ record.effectiveAt) .AlreadyCancelled
  remove .AdminCouncil

def requireCouncil (env : Env) : M AdminCouncil := do
  expect (← Tx.gets (getAdminCouncil env.timestamp)) .Unauthorized

def nextCouncilProposalId : M Nat := do
  let next := satAdd32 ((← load .CouncilProposalSeq).getD 0) 1
  store .CouncilProposalSeq next
  pure next

def getCouncilProposalOrPanic (id : Nat) : M CouncilProposal := do
  expect (← load (.CouncilProposal id)) .ProposalNotFound

def proposeCouncilAction (env : Env) (proposer : Address) (action : Nat) (target : Address)
    (payload : Bytes32) : M Nat := do
  let council ← requireCouncil env
  requireAuth env proposer
  panicIf (!council.members.contains proposer) .Unauthorized
  panicIf (action == 0 || action > 7) .InvalidProposalAction
  let proposalId ← nextCouncilProposalId
  store (.CouncilProposal proposalId)
    { id := proposalId, action, proposer, target, payload
      createdAt := env.timestamp
      expiresAt := satAdd64 env.timestamp DEFAULT_APPROVAL_TTL_SECS
      approvals := []
      executed := false
      cancelled := false }
  pure proposalId

def approveCouncilProposal (env : Env) (member : Address) (id : Nat) : M Bool := do
  let council ← requireCouncil env
  requireAuth env member
  panicIf (!council.members.contains member) .Unauthorized
  let proposal ← getCouncilProposalOrPanic id
  panicIf proposal.executed .ProposalAlreadyExecuted
  panicIf proposal.cancelled .ProposalCancelled
  panicIf (env.timestamp > proposal.expiresAt) .AlreadyExpired
  panicIf (proposal.approvals.contains member) .Unauthorized
  let approvals := proposal.approvals++[member]
  store (.CouncilProposal id) { proposal with approvals }
  pure (approvals.length ≥ council.threshold)

def dispatchCouncilAction (env : Env) (proposal : CouncilProposal) : M Unit :=
  match proposal.action with
  | 1 => do
    store .Verifier proposal.target
    remove .VerifierState
    remove .VerifierCircuitVersions
  | 2 => do
    let record ← getIssuerRecord proposal.target
    store (.Issuer proposal.target) { record with active := false }
    remove (.IssuerRotation proposal.target)
  | 3 => do
    let hadVersion ← has .SchemaVersion
    let currentVersion := (← load .SchemaVersion).getD SchemaVersion.V1
    if !hadVersion then store .SchemaVersion SchemaVersion.V1 else pure ()
    let actualCurrent := if !hadVersion then SchemaVersion.V1 else currentVersion
    if actualCurrent < SchemaVersion.V2 then store .SchemaVersion SchemaVersion.V2 else pure ()
  | 4 => store .RevocationRoot proposal.payload
  | 5 => do
    let activeVerifier ← getActiveVerifier
    store .VerifierState
      { activeVerifier := some activeVerifier
        pendingVerifier := some proposal.target
        previousVerifier := some activeVerifier
        activationLedger := 0
        overlapWindow := 0
        rollbackWindow := 0
        rollbackWindowEnd := 0 }
  | 6 => do
    let state ← Tx.gets getVerifierRotationState
    let pendingVerifier ← expect state.pendingVerifier .RotationNotScheduled
    let _ ← expect state.activeVerifier .RotationNotScheduled
    store .VerifierState
      { state with
        activeVerifier := some pendingVerifier
        pendingVerifier := none
        rollbackWindowEnd := satAdd64 env.sequence state.rollbackWindow }
    store .Verifier pendingVerifier
    remove .VerifierCircuitVersions
  | 7 => do
    let state ← Tx.gets getVerifierRotationState
    let _ ← expect state.activeVerifier .RotationNotScheduled
    let previousVerifier ← expect state.previousVerifier .RotationNotScheduled
    store .Verifier previousVerifier
    remove .VerifierState
    remove .VerifierCircuitVersions
  | _ => panic .InvalidProposalAction

def executeCouncilProposal (env : Env) (caller : Address) (id : Nat) : M Unit := do
  let council ← requireCouncil env
  requireAuth env caller
  let proposal ← getCouncilProposalOrPanic id
  panicIf proposal.executed .ProposalAlreadyExecuted
  panicIf proposal.cancelled .ProposalCancelled
  panicIf (env.timestamp > proposal.expiresAt) .AlreadyExpired
  panicIf (proposal.approvals.length < council.threshold) .InsufficientApprovals
  store (.CouncilProposal id) { proposal with executed := true }
  dispatchCouncilAction env { proposal with executed := true }

def cancelCouncilProposal (env : Env) (caller : Address) (id : Nat) : M Unit := do
  let council ← requireCouncil env
  requireAuth env caller
  let proposal ← getCouncilProposalOrPanic id
  panicIf proposal.executed .ProposalAlreadyExecuted
  panicIf proposal.cancelled .AlreadyCancelled
  let isAdmin := (← load .Admin) == some caller
  let isProposer := proposal.proposer == caller
  let isMember := council.members.contains caller
  panicIf (!isAdmin && !isProposer && !isMember) .Unauthorized
  store (.CouncilProposal id) { proposal with cancelled := true }

@[simp] theorem requireCouncil_ok (env : Env) (s s' : Storage) (c : AdminCouncil) :
    requireCouncil env s=.ok (c,s') ↔ getAdminCouncil env.timestamp s=some c ∧ s=s' := by
  simp [requireCouncil]

@[simp] theorem requireCouncil_writes (W : DataKey → Prop) (env : Env) :
    Writes W (requireCouncil env) := by
  intro s p s' h
  simp_all

@[simp] theorem getCouncilProposalOrPanic_ok (id : Nat) (s s' : Storage)
    (p : CouncilProposal) :
    getCouncilProposalOrPanic id s=.ok (p,s') ↔ s (.CouncilProposal id)=some p ∧ s=s' := by
  simp [getCouncilProposalOrPanic]

@[simp] theorem getCouncilProposalOrPanic_writes (W : DataKey → Prop) (id : Nat) :
    Writes W (getCouncilProposalOrPanic id) := by
  intro s p s' h
  simp_all

def councilActionFootprint : List Family :=
  [.Verifier,.VerifierState,.VerifierCircuitVersions,.Issuer,.IssuerRotation,.SchemaVersion,
    .RevocationRoot]

theorem dispatchCouncilAction_writes (env : Env) (proposal : CouncilProposal) :
    Writes (In councilActionFootprint) (dispatchCouncilAction env proposal) := by
  unfold dispatchCouncilAction councilActionFootprint
  split <;>
    repeat' first | with_reducible refine Writes.bind ?_ fun _ => ?_ | apply Writes.ite | simp

theorem executeCouncilProposal_writes (env : Env) (caller : Address) (id : Nat) :
    Writes (In (.CouncilProposal::councilActionFootprint))
      (executeCouncilProposal env caller id) := by
  unfold executeCouncilProposal
  repeat' first
    | exact (dispatchCouncilAction_writes _ _).mono fun k h => List.mem_cons_of_mem _ h
    | with_reducible refine Writes.bind ?_ fun _ => ?_
    | simp

end Harpocrates.Registry
