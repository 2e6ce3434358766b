import Harpocrates.Framework.Locality
import Harpocrates.Registry.CouncilAuthority

namespace Harpocrates.Registry

open Framework Tx

/-- The actions with more than one way to carry them out. -/
inductive GovernanceAction
  | setVerifier (verifier : Address)
  | revokeIssuer (issuer : Address)
  | upgradeStorage

namespace GovernanceAction

/-- The keys an action is about. -/
def keys : GovernanceAction → List Family
  | setVerifier _ => [.Verifier,.VerifierState,.VerifierCircuitVersions]
  | revokeIssuer _ => [.Issuer,.IssuerRotation]
  | upgradeStorage =>
    [.SchemaVersion,.CredentialRootSeq,.CredentialRootIndex,.CredentialRootIndexed,
      .CredentialRootsBackfillQueue,.CredentialRootsBackfill,.CredentialRootsBackfillCursor]

/-- What every way of carrying an action out does. -/
def main : GovernanceAction → M Unit
  | setVerifier verifier => do
    store .Verifier verifier
    remove .VerifierState
  | revokeIssuer issuer => do
    let record ← getIssuerRecord issuer
    store (.Issuer issuer) { record with active := false }
    remove (.IssuerRotation issuer)
  | upgradeStorage => do
    let hadVersion ← has .SchemaVersion
    let currentVersion := (← load .SchemaVersion).getD SchemaVersion.V1
    if !hadVersion then store .SchemaVersion SchemaVersion.V1 else pure ()
    let actualCurrent := if !hadVersion then SchemaVersion.V1 else currentVersion
    if actualCurrent < SchemaVersion.V2 then store .SchemaVersion SchemaVersion.V2 else pure ()

/-- What only some of them do afterwards. -/
def followUp : GovernanceAction → M Unit
  | setVerifier _ => remove .VerifierCircuitVersions
  | revokeIssuer _ => pure ()
  | upgradeStorage => backfillCredentialRootsStep

def perform (a : GovernanceAction) (follows : Bool) : M Unit := do
  a.main
  if follows then a.followUp else pure ()

/-- There is nothing to do afterwards: no circuit version window is declared, or the queue of
roots is absent or read to its end. -/
def settled (s : Storage) : GovernanceAction → Bool
  | setVerifier _ => (s .VerifierCircuitVersions).isNone
  | revokeIssuer _ => true
  | upgradeStorage =>
    match backfillQueue s,s .CredentialRootsBackfillCursor with
    | none,_ => true
    | some queue,some cursor => queue.length ≤ cursor
    | some _,none => false

def targets (a : GovernanceAction) (target : Address) : Bool :=
  match a with
  | setVerifier verifier => verifier == target
  | revokeIssuer issuer => issuer == target
  | upgradeStorage => true

/-- The number of the action in a timelocked proposal. -/
def timelockAction : GovernanceAction → Option Nat
  | setVerifier _ => some 1
  | revokeIssuer _ => some 2
  | upgradeStorage => none

/-- The number of the action in a council proposal. -/
def councilAction : GovernanceAction → Nat
  | setVerifier _ => 1
  | revokeIssuer _ => 2
  | upgradeStorage => 3

end GovernanceAction

/-- The ways to carry an action out: the admin's own call, a timelocked proposal with or
without its delay, or a council proposal. -/
inductive Path
  | direct (admin : Address)
  | timelocked (caller : Address) (id : Nat)
  | emergency (admin : Address) (id : Nat)
  | council (caller : Address) (id : Nat)

namespace Path

def call (p : Path) (a : GovernanceAction) : Call :=
  match p with
  | direct admin =>
    match a with
    | .setVerifier verifier => .setVerifier admin verifier
    | .revokeIssuer issuer => .revokeIssuer admin issuer
    | .upgradeStorage => .upgradeStorage admin
  | timelocked caller id => .executeTimelockedProposal caller id
  | emergency admin id => .emergencyExecuteTimelock admin id
  | council caller id => .executeCouncilProposal caller id

/-- The proposal, where there is one, is for this action. -/
def carries (p : Path) (a : GovernanceAction) (s : Storage) : Bool :=
  match p with
  | direct _ => true
  | timelocked _ id | emergency _ id =>
    match s (.Proposal id) with
    | some proposal => a.timelockAction == some proposal.action && a.targets proposal.target
    | none => false
  | council _ id =>
    match s (.CouncilProposal id) with
    | some proposal => a.councilAction == proposal.action && a.targets proposal.target
    | none => false

/-- The checks that do not depend on the action are passed. -/
def authorised (p : Path) (env : Env) (s : Storage) : Bool :=
  match p with
  | direct admin =>
    s .Admin == some admin && env.auth admin && !isCouncilActive env.timestamp s
  | timelocked caller id =>
    match s (.Proposal id) with
    | some proposal =>
      !proposal.executed && !proposal.cancelled && proposal.minExecutionAt ≤ env.timestamp &&
        !isCouncilActive env.timestamp s && env.auth caller
    | none => false
  | emergency admin id =>
    match s (.Proposal id) with
    | some proposal =>
      s .Admin == some admin && env.auth admin && !proposal.executed && !proposal.cancelled
    | none => false
  | council caller id =>
    match getAdminCouncil env.timestamp s,s (.CouncilProposal id) with
    | some record,some proposal =>
      env.auth caller && !proposal.executed && !proposal.cancelled &&
        env.timestamp ≤ proposal.expiresAt && record.threshold ≤ proposal.approvals.length
    | _,_ => false

/-- The storage once the proposal is marked as executed. -/
def mark (p : Path) (s : Storage) : Storage :=
  match p with
  | direct _ => s
  | timelocked _ id | emergency _ id =>
    match s (.Proposal id) with
    | some proposal => Store.set s (.Proposal id) { proposal with executed := true }
    | none => s
  | council _ id =>
    match s (.CouncilProposal id) with
    | some proposal => Store.set s (.CouncilProposal id) { proposal with executed := true }
    | none => s

/-- A new verifier keeps the circuit version window of the old one when it is set by a
timelocked proposal, and a council that upgrades the storage indexes no queued roots. -/
def followsUp (p : Path) (a : GovernanceAction) : Bool :=
  match p,a with
  | timelocked _ _,.setVerifier _ => false
  | emergency _ _,.setVerifier _ => false
  | council _ _,.upgradeStorage => false
  | _,_ => true

end Path

theorem direct_call (env : Env) (admin : Address) (a : GovernanceAction) :
    exec env ((Path.direct admin).call a)=(do
      requireAdmin env admin
      requireNoCouncil env
      a.perform true) := by
  cases a with
  | setVerifier verifier => rfl
  | revokeIssuer issuer =>
    change revokeIssuer env admin issuer = _
    rw [show (GovernanceAction.revokeIssuer issuer).perform true =
      (GovernanceAction.revokeIssuer issuer).main from bind_pure_unit _]
    rfl
  | upgradeStorage =>
    change upgradeStorage env admin = _
    simp only [upgradeStorage,GovernanceAction.perform,GovernanceAction.main,bind_assoc]
    refine bind_congr fun _ => bind_congr fun _ => bind_congr fun hadVersion =>
      bind_congr fun version => ?_
    cases hadVersion with
    | false => rfl
    | true =>
      by_cases hv : version.getD SchemaVersion.V1<SchemaVersion.V2
      · simp only [Bool.not_true,Bool.false_eq_true,if_false,if_pos hv]
        rfl
      · simp only [Bool.not_true,Bool.false_eq_true,if_false,if_neg hv]
        rfl

variable {proposal : TimelockProposal} {a : GovernanceAction} {s : Storage}

variable {env : Env}

theorem dispatchTimelockedAction_perform (hn : a.timelockAction=some proposal.action)
    (ht : a.targets proposal.target=true) (caller : Address) (id : Nat) :
    dispatchTimelockedAction env proposal =
      a.perform ((Path.timelocked caller id).followsUp a) := by
  cases a with
  | setVerifier verifier =>
    obtain rfl : verifier=proposal.target := by simpa [GovernanceAction.targets] using ht
    simp only [dispatchTimelockedAction,← Option.some.inj hn]
    rfl
  | revokeIssuer issuer =>
    obtain rfl : issuer=proposal.target := by simpa [GovernanceAction.targets] using ht
    simp only [dispatchTimelockedAction,← Option.some.inj hn]
    exact (bind_pure_unit _).symm
  | upgradeStorage => cases hn

theorem dispatchCouncilAction_perform {proposal : CouncilProposal}
    (hn : a.councilAction=proposal.action) (ht : a.targets proposal.target=true)
    (caller : Address) (id : Nat) :
    dispatchCouncilAction env proposal=a.perform ((Path.council caller id).followsUp a) := by
  cases a with
  | setVerifier verifier =>
    obtain rfl : verifier=proposal.target := by simpa [GovernanceAction.targets] using ht
    simp only [dispatchCouncilAction,← hn]
    rfl
  | revokeIssuer issuer =>
    obtain rfl : issuer=proposal.target := by simpa [GovernanceAction.targets] using ht
    simp only [dispatchCouncilAction,← hn]
    exact (bind_pure_unit _).symm
  | upgradeStorage =>
    simp only [dispatchCouncilAction,← hn]
    exact (bind_pure_unit _).symm

theorem timelock_action_gated {n : Nat} (h : a.timelockAction=some n) :
    (n == 1 || n == 2)=true := by
  cases a with
  | setVerifier => rw [← Option.some.inj h]; rfl
  | revokeIssuer => rw [← Option.some.inj h]; rfl
  | upgradeStorage => cases h

theorem emergency_followsUp (admin : Address) (id : Nat) (a : GovernanceAction) :
    (Path.emergency admin id).followsUp a=(Path.timelocked admin id).followsUp a := by
  cases a <;> rfl

theorem exec_timelocked {caller : Address} {id : Nat} (hs : s (.Proposal id)=some proposal)
    (hn : a.timelockAction=some proposal.action) (ht : a.targets proposal.target=true)
    (hx : proposal.executed=false) (hcan : proposal.cancelled=false)
    (htime : proposal.minExecutionAt≤env.timestamp)
    (hact : isCouncilActive env.timestamp s=false) (hauth : env.auth caller=true) :
    executeTimelockedProposal env caller id s =
      a.perform ((Path.timelocked caller id).followsUp a)
        (Store.set s (.Proposal id) { proposal with executed := true }) := by
  rw [executeTimelockedProposal,bind_of_ok ((getTimelockProposalOrPanic_ok ..).2 ⟨hs,rfl⟩),
    failIf_bind hx,failIf_bind hcan,failIf_bind (by simpa using htime),
    bind_of_ok ((gets_ok ..).2 ⟨hact,rfl⟩),failIf_bind (Bool.false_and _),
    bind_of_ok ((set_ok _ _ _ _ ()).2 rfl),
    bind_of_ok ((requireAuth_ok _ _ _ _ ()).2 ⟨hauth,rfl⟩),
    dispatchTimelockedAction_perform hn ht caller id]

theorem exec_emergency {admin : Address} {id : Nat} (hs : s (.Proposal id)=some proposal)
    (hn : a.timelockAction=some proposal.action) (ht : a.targets proposal.target=true)
    (hadmin : s .Admin=some admin) (hauth : env.auth admin=true)
    (hx : proposal.executed=false) (hcan : proposal.cancelled=false) :
    emergencyExecuteTimelock env admin id s =
      a.perform ((Path.emergency admin id).followsUp a)
        (Store.set s (.Proposal id) { proposal with executed := true }) := by
  have hwasm : (proposal.action == ProposalAction.UpgradeWasm)=false := by
    cases a with
    | setVerifier => rw [← Option.some.inj hn]; rfl
    | revokeIssuer => rw [← Option.some.inj hn]; rfl
    | upgradeStorage => cases hn
  rw [emergencyExecuteTimelock,
    bind_of_ok ((requireAdmin_ok _ _ _ _ ()).2 ⟨hadmin,hauth,rfl⟩),
    bind_of_ok ((getTimelockProposalOrPanic_ok ..).2 ⟨hs,rfl⟩),failIf_bind hx,
    failIf_bind hcan,failIf_bind hwasm,bind_of_ok ((set_ok _ _ _ _ ()).2 rfl),
    dispatchTimelockedAction_perform hn ht admin id,emergency_followsUp]

theorem exec_council_path {caller : Address} {id : Nat} {proposal : CouncilProposal}
    {council : AdminCouncil} (hs : s (.CouncilProposal id)=some proposal)
    (hn : a.councilAction=proposal.action) (ht : a.targets proposal.target=true)
    (hc : getAdminCouncil env.timestamp s=some council) (hauth : env.auth caller=true)
    (hx : proposal.executed=false) (hcan : proposal.cancelled=false)
    (htime : env.timestamp≤proposal.expiresAt)
    (hthr : council.threshold≤proposal.approvals.length) :
    executeCouncilProposal env caller id s =
      a.perform ((Path.council caller id).followsUp a)
        (Store.set s (.CouncilProposal id) { proposal with executed := true }) := by
  rw [executeCouncilProposal,bind_of_ok ((requireCouncil_ok ..).2 ⟨hc,rfl⟩),
    bind_of_ok ((requireAuth_ok _ _ _ _ ()).2 ⟨hauth,rfl⟩),
    bind_of_ok ((getCouncilProposalOrPanic_ok ..).2 ⟨hs,rfl⟩),failIf_bind hx,
    failIf_bind hcan,failIf_bind (by simpa using htime),
    failIf_bind (by simpa using hthr),bind_of_ok ((set_ok _ _ _ _ ()).2 rfl)]
  exact congrFun (dispatchCouncilAction_perform hn ht caller id) _

/-- Once its checks are passed, a call amounts to its action. -/
theorem exec_path {p : Path} (hp : p.carries a s=true) (ha : p.authorised env s=true) :
    exec env (p.call a) s=a.perform (p.followsUp a) (p.mark s) := by
  cases p with
  | direct admin =>
    simp only [Path.authorised,Bool.and_eq_true,beq_iff_eq,Bool.not_eq_true'] at ha
    rw [direct_call,bind_of_ok ((requireAdmin_ok _ _ _ _ ()).2 ⟨ha.1.1,ha.1.2,rfl⟩),
      bind_of_ok ((requireNoCouncil_ok _ _ _ ()).2 ⟨ha.2,rfl⟩)]
    cases a <;> rfl
  | timelocked caller id =>
    cases hs : s (.Proposal id) with
    | none => simp [Path.carries,hs] at hp
    | some proposal =>
      simp only [Path.carries,hs,Bool.and_eq_true,beq_iff_eq] at hp
      simp only [Path.authorised,hs,Bool.and_eq_true,Bool.not_eq_true',decide_eq_true_eq] at ha
      obtain ⟨⟨⟨⟨hx,hcan⟩,htime⟩,hact⟩,hauth⟩ := ha
      simp only [Path.mark,hs]
      exact exec_timelocked hs hp.1 hp.2 hx hcan htime hact hauth
  | emergency admin id =>
    cases hs : s (.Proposal id) with
    | none => simp [Path.carries,hs] at hp
    | some proposal =>
      simp only [Path.carries,hs,Bool.and_eq_true,beq_iff_eq] at hp
      simp only [Path.authorised,hs,Bool.and_eq_true,beq_iff_eq,Bool.not_eq_true'] at ha
      obtain ⟨⟨⟨hadmin,hauth⟩,hx⟩,hcan⟩ := ha
      simp only [Path.mark,hs]
      exact exec_emergency hs hp.1 hp.2 hadmin hauth hx hcan
  | council caller id =>
    cases hs : s (.CouncilProposal id) with
    | none => simp [Path.carries,hs] at hp
    | some proposal =>
      cases hc : getAdminCouncil env.timestamp s with
      | none => simp [Path.authorised,hc] at ha
      | some record =>
        simp only [Path.carries,hs,Bool.and_eq_true,beq_iff_eq] at hp
        simp only [Path.authorised,hs,hc,Bool.and_eq_true,Bool.not_eq_true',
          decide_eq_true_eq] at ha
        obtain ⟨⟨⟨⟨hauth,hx⟩,hcan⟩,htime⟩,hthr⟩ := ha
        simp only [Path.mark,hs]
        exact exec_council_path hs hp.1 hp.2 hc hauth hx hcan htime hthr

theorem authorised_of_exec {p : Path} {s' : Storage} {u : Unit} (hp : p.carries a s=true)
    (h : exec env (p.call a) s=.ok (u,s')) : p.authorised env s=true := by
  cases p with
  | direct admin =>
    rw [direct_call] at h
    simp only [bind_ok,requireAdmin_ok,requireNoCouncil_ok] at h
    obtain ⟨_,_,⟨hadmin,hauth,rfl⟩,_,_,⟨hact,rfl⟩,-⟩ := h
    simp [Path.authorised,hadmin,hauth,hact]
  | timelocked caller id =>
    obtain ⟨proposal,hx⟩ := executeTimelockedProposal_ok h
    simp only [Path.carries,hx.stored,Bool.and_eq_true,beq_iff_eq] at hp
    have hact : isCouncilActive env.timestamp s=false := by
      refine Bool.eq_false_iff.2 fun hact => ?_
      exact Bool.eq_false_iff.1 (hx.council hact) (timelock_action_gated hp.1)
    simp [Path.authorised,hx.stored,hx.executed,hx.cancelled,hx.due,hact,hx.auth]
  | emergency admin id =>
    obtain ⟨proposal,hx⟩ := emergencyExecuteTimelock_ok h
    simp [Path.authorised,hx.stored,hx.inOffice,hx.auth,hx.executed,hx.cancelled]
  | council caller id =>
    obtain ⟨council,proposal,hx⟩ := executeCouncilProposal_ok h
    simp [Path.authorised,hx.stored,hx.inForce,hx.auth,hx.executed,hx.cancelled,hx.inTime,
      hx.approved]

end Harpocrates.Registry
