import Harpocrates.Registry.CredentialRoots
import Harpocrates.Registry.Issuers
import Harpocrates.Registry.Verifier

namespace Harpocrates.Registry

open Framework Tx

def MAX_TIMELOCK_MIN_DELAY_SECS : Nat := 604800
def MAX_PENDING_TIMELOCK_PROPOSALS : Nat := 16

def ProposalAction.UpgradeWasm : Nat := 6

def getTimelockProposalOrPanic (id : Nat) : M TimelockProposal := do
  expect (← load (.Proposal id)) .ProposalNotFound

@[simp] theorem getTimelockProposalOrPanic_ok (id : Nat) (s s' : Storage)
    (p : TimelockProposal) :
    getTimelockProposalOrPanic id s=.ok (p,s') ↔ s (.Proposal id)=some p ∧ s=s' := by
  simp [getTimelockProposalOrPanic]

@[simp] theorem getTimelockProposalOrPanic_writes (W : DataKey → Prop) (id : Nat) :
    Writes W (getTimelockProposalOrPanic id) := by
  intro s p s' h
  simp_all

def nextProposalId : M Nat := do
  let next := satAdd32 ((← load .ProposalSeq).getD 0) 1
  store .ProposalSeq next
  pure next

def countPendingProposals (s : Storage) : Nat :=
  ((List.range' 1 ((s .ProposalSeq).getD 0)).filter fun pid =>
    match s (.Proposal pid) with
    | some proposal => !proposal.executed && !proposal.cancelled
    | none => false).length

def proposeTimelockedAction (env : Env) (admin : Address) (action : Nat) (target : Address)
    (payload : Bytes32) : M Nat := do
  requireAdmin env admin
  panicIf (action == 0 || action > 6 || action == 5) .InvalidProposalAction
  panicIf ((← Tx.gets countPendingProposals) ≥ MAX_PENDING_TIMELOCK_PROPOSALS)
    .ProposalsSaturated
  let minDelay ← Tx.gets getTimelockMinDelay
  let proposalId ← nextProposalId
  store (.Proposal proposalId)
    { action, proposer := admin, target, payload
      createdAt := env.timestamp
      minExecutionAt := satAdd64 env.timestamp minDelay
      executed := false
      cancelled := false }
  pure proposalId

def cancelTimelockedProposal (env : Env) (admin : Address) (id : Nat) : M Unit := do
  requireAdmin env admin
  let proposal ← getTimelockProposalOrPanic id
  panicIf proposal.executed .ProposalAlreadyExecuted
  panicIf proposal.cancelled .AlreadyCancelled
  store (.Proposal id) { proposal with cancelled := true }

/-- The effect of an executed proposal. Replacing the running wasm is the host's doing; the
contract records the new hash. -/
def dispatchTimelockedAction (env : Env) (proposal : TimelockProposal) : M Unit :=
  match proposal.action with
  | 1 => do
    store .Verifier proposal.target
    remove .VerifierState
  | 2 => do
    let record ← getIssuerRecord proposal.target
    store (.Issuer proposal.target) { record with active := false }
    remove (.IssuerRotation proposal.target)
  | 3 => store .ProofTtl (beNat (proposal.payload.1.take 8))
  | 4 => do
    let record ← getCredentialRootRecord proposal.payload
    store (.CredentialRootV2 proposal.payload) { record with status := STATUS_REVOKED }
  | 5 => do
    let record ← getCredentialRootRecord proposal.payload
    store (.CredentialRootV2 proposal.payload)
      { record with status := STATUS_EXPIRED, expiresAt := env.timestamp }
  | 6 => do
    Tx.failIf (!env.wasmInstalled proposal.payload) .trap
    store .WasmHash proposal.payload
  | _ => panic .InvalidProposalAction

def executeTimelockedProposal (env : Env) (caller : Address) (id : Nat) : M Unit := do
  let proposal ← getTimelockProposalOrPanic id
  panicIf proposal.executed .ProposalAlreadyExecuted
  panicIf proposal.cancelled .ProposalCancelled
  panicIf (env.timestamp < proposal.minExecutionAt) .ProposalNotReady
  panicIf ((← Tx.gets (isCouncilActive env.timestamp)) &&
    (proposal.action == 1 || proposal.action == 2)) .InsufficientApprovals
  store (.Proposal id) { proposal with executed := true }
  requireAuth env caller
  dispatchTimelockedAction env proposal

/-- Execution without the delay. Unlike `executeTimelockedProposal` it never asks whether
an admin council is active. -/
def emergencyExecuteTimelock (env : Env) (admin : Address) (id : Nat) : M Unit := do
  requireAdmin env admin
  let proposal ← getTimelockProposalOrPanic id
  panicIf proposal.executed .ProposalAlreadyExecuted
  panicIf proposal.cancelled .ProposalCancelled
  panicIf (proposal.action == ProposalAction.UpgradeWasm) .InvalidProposalAction
  store (.Proposal id) { proposal with executed := true }
  dispatchTimelockedAction env proposal

def setTimelockMinDelaySecs (env : Env) (admin : Address) (delaySecs : Nat) : M Unit := do
  requireAdmin env admin
  panicIf (delaySecs == 0 || delaySecs > MAX_TIMELOCK_MIN_DELAY_SECS) .InvalidTimelockDelay
  store .TimelockMinDelay delaySecs

def timelockFootprint : List Family :=
  [.Proposal,.Verifier,.VerifierState,.Issuer,.IssuerRotation,.ProofTtl,.CredentialRootV2,
    .WasmHash]

theorem dispatchTimelockedAction_writes (env : Env) (proposal : TimelockProposal) :
    Writes (In timelockFootprint) (dispatchTimelockedAction env proposal) := by
  unfold dispatchTimelockedAction timelockFootprint
  split <;>
    repeat' first | with_reducible refine Writes.bind ?_ fun _ => ?_ | simp

theorem executeTimelockedProposal_writes (env : Env) (caller : Address) (id : Nat) :
    Writes (In timelockFootprint) (executeTimelockedProposal env caller id) := by
  unfold executeTimelockedProposal
  repeat' first
    | exact dispatchTimelockedAction_writes _ _
    | with_reducible refine Writes.bind ?_ fun _ => ?_
    | simp [timelockFootprint]

theorem emergencyExecuteTimelock_writes (env : Env) (admin : Address) (id : Nat) :
    Writes (In timelockFootprint) (emergencyExecuteTimelock env admin id) := by
  unfold emergencyExecuteTimelock
  repeat' first
    | exact dispatchTimelockedAction_writes _ _
    | with_reducible refine Writes.bind ?_ fun _ => ?_
    | simp [timelockFootprint]

end Harpocrates.Registry
