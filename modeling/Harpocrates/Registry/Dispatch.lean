import Harpocrates.Registry.Council

namespace Harpocrates.Registry

open Framework Tx

def deactivated (s : Storage) (issuer : Address) (r : IssuerRecord) : Storage :=
  Store.erase (Store.set s (.Issuer issuer) { r with active := false }) (.IssuerRotation issuer)

inductive TimelockEffect (env : Env) (p : TimelockProposal) (s : Storage) : Storage → Prop
  | setVerifier (action : p.action = 1) :
      TimelockEffect env p s (Store.erase (Store.set s .Verifier p.target) .VerifierState)
  | revokeIssuer (action : p.action = 2) (r : IssuerRecord)
      (record : s (.Issuer p.target) = some r) :
      TimelockEffect env p s (deactivated s p.target r)
  | setProofTtl (action : p.action = 3) :
      TimelockEffect env p s (Store.set s .ProofTtl (beNat (p.payload.1.take 8)))
  | revokeRoot (action : p.action = 4) (r : CredentialRootRecord)
      (record : getCredentialRootRecordOpt s p.payload = some r) :
      TimelockEffect env p s
        (Store.set s (.CredentialRootV2 p.payload) { r with status := STATUS_REVOKED })
  | expireRoot (action : p.action = 5) (r : CredentialRootRecord)
      (record : getCredentialRootRecordOpt s p.payload = some r) :
      TimelockEffect env p s (Store.set s (.CredentialRootV2 p.payload)
        { r with status := STATUS_EXPIRED, expiresAt := env.timestamp })
  | upgradeWasm (action : p.action = ProposalAction.UpgradeWasm)
      (installed : env.wasmInstalled p.payload = true) :
      TimelockEffect env p s (Store.set s .WasmHash p.payload)

variable {u : Unit} {s s' : Storage}

theorem dispatchTimelockedAction_ok {env : Env} {p : TimelockProposal}
    (h : dispatchTimelockedAction env p s=.ok (u,s')) : TimelockEffect env p s s' := by
  obtain ⟨m,hm⟩ : ∃ m, m=dispatchTimelockedAction env p := ⟨_,rfl⟩
  rw [← hm] at h
  unfold dispatchTimelockedAction at hm
  split at hm <;> subst hm
  · rename_i action
    simp only [bind_ok,set_ok,remove_ok] at h
    obtain ⟨_,_,rfl,rfl⟩ := h
    exact .setVerifier action
  · rename_i action
    simp only [bind_ok,getIssuerRecord_ok,set_ok,remove_ok] at h
    obtain ⟨r,_,⟨hr,rfl⟩,_,_,rfl,rfl⟩ := h
    exact .revokeIssuer action r hr
  · rename_i action
    obtain rfl := (set_ok ..).1 h
    exact .setProofTtl action
  · rename_i action
    simp only [bind_ok,getCredentialRootRecord_ok,set_ok] at h
    obtain ⟨r,_,⟨hr,rfl⟩,rfl⟩ := h
    exact .revokeRoot action r hr
  · rename_i action
    simp only [bind_ok,getCredentialRootRecord_ok,set_ok] at h
    obtain ⟨r,_,⟨hr,rfl⟩,rfl⟩ := h
    exact .expireRoot action r hr
  · rename_i action
    simp only [bind_ok,failIf_ok,set_ok] at h
    obtain ⟨_,_,⟨installed,rfl⟩,rfl⟩ := h
    exact .upgradeWasm action (by simpa using installed)
  · exact absurd h (by simp)

/-- The regular execution of a proposal: what was checked of it, and what it did. -/
structure TimelockExecution (env : Env) (caller : Address) (id : Nat) (s s' : Storage)
    (p : TimelockProposal) : Prop where
  stored : s (.Proposal id) = some p
  executed : p.executed = false
  cancelled : p.cancelled = false
  due : p.minExecutionAt ≤ env.timestamp
  council : isCouncilActive env.timestamp s = true → (p.action == 1 || p.action == 2) = false
  auth : env.auth caller = true
  effect : TimelockEffect env p (Store.set s (.Proposal id) { p with executed := true }) s'

theorem executeTimelockedProposal_ok {env : Env} {caller : Address} {id : Nat}
    (h : executeTimelockedProposal env caller id s=.ok (u,s')) :
    ∃ p, TimelockExecution env caller id s s' p := by
  simp only [executeTimelockedProposal,bind_ok,getTimelockProposalOrPanic_ok,failIf_ok,
    gets_ok,set_ok,requireAuth_ok] at h
  obtain ⟨p,_,⟨stored,rfl⟩,_,_,⟨executed,rfl⟩,_,_,⟨cancelled,rfl⟩,_,_,⟨due,rfl⟩,h⟩ := h
  obtain ⟨_,_,⟨rfl,rfl⟩,_,_,⟨council,rfl⟩,_,_,rfl,_,_,⟨auth,rfl⟩,h⟩ := h
  refine ⟨p,stored,executed,cancelled,Nat.le_of_not_lt (of_decide_eq_false due),?_,auth,
    dispatchTimelockedAction_ok h⟩
  intro active
  rwa [active,Bool.true_and] at council

/-- The execution of a proposal by the admin without its delay. -/
structure EmergencyExecution (env : Env) (admin : Address) (id : Nat) (s s' : Storage)
    (p : TimelockProposal) : Prop where
  auth : env.auth admin = true
  inOffice : s .Admin = some admin
  stored : s (.Proposal id) = some p
  executed : p.executed = false
  cancelled : p.cancelled = false
  noUpgrade : p.action ≠ ProposalAction.UpgradeWasm
  effect : TimelockEffect env p (Store.set s (.Proposal id) { p with executed := true }) s'

theorem emergencyExecuteTimelock_ok {env : Env} {admin : Address} {id : Nat}
    (h : emergencyExecuteTimelock env admin id s=.ok (u,s')) :
    ∃ p, EmergencyExecution env admin id s s' p := by
  simp only [emergencyExecuteTimelock,bind_ok,requireAdmin_ok,getTimelockProposalOrPanic_ok,
    failIf_ok,set_ok] at h
  obtain ⟨_,_,⟨inOffice,auth,rfl⟩,p,_,⟨stored,rfl⟩,_,_,⟨executed,rfl⟩,h⟩ := h
  obtain ⟨_,_,⟨cancelled,rfl⟩,_,_,⟨upgrade,rfl⟩,_,_,rfl,h⟩ := h
  exact ⟨p,auth,inOffice,stored,executed,cancelled,beq_eq_false_iff_ne.1 upgrade,
    dispatchTimelockedAction_ok h⟩

/-- The rotation state once the pending verifier is active. -/
def VerifierState.activated (st : VerifierState) (verifier : Address) (sequence : Nat) :
    VerifierState :=
  { st with
    activeVerifier := some verifier
    pendingVerifier := none
    rollbackWindowEnd := satAdd64 sequence st.rollbackWindow }

/-- The storage once the pending verifier is active. -/
def activatedStorage (s : Storage) (verifier : Address) (sequence : Nat) : Storage :=
  Store.erase (Store.set (Store.set s .VerifierState
    ((getVerifierRotationState s).activated verifier sequence)) .Verifier verifier)
    .VerifierCircuitVersions

def installedStorage (s : Storage) (verifier : Address) : Storage :=
  Store.erase (Store.erase (Store.set s .Verifier verifier) .VerifierState)
    .VerifierCircuitVersions

inductive CouncilEffect (env : Env) (p : CouncilProposal) (s : Storage) : Storage → Prop
  | setVerifier (action : p.action = 1) : CouncilEffect env p s (installedStorage s p.target)
  | revokeIssuer (action : p.action = 2) (r : IssuerRecord)
      (record : s (.Issuer p.target) = some r) :
      CouncilEffect env p s (deactivated s p.target r)
  | upgradeStorage (action : p.action = 3) (s' : Storage)
      (kept : ∀ k, k.family ≠ .SchemaVersion → s' k = s k) : CouncilEffect env p s s'
  | setRevocationRoot (action : p.action = 4) :
      CouncilEffect env p s (Store.set s .RevocationRoot p.payload)
  | scheduleRotation (action : p.action = 5) (active : Address)
      (verifier : s .Verifier = some active) :
      CouncilEffect env p s (Store.set s .VerifierState
        { activeVerifier := some active
          pendingVerifier := some p.target
          previousVerifier := some active
          activationLedger := 0
          overlapWindow := 0
          rollbackWindow := 0
          rollbackWindowEnd := 0 })
  | activateRotation (action : p.action = 6) (pending : Address)
      (state : (getVerifierRotationState s).pendingVerifier = some pending) :
      CouncilEffect env p s (activatedStorage s pending env.sequence)
  | rollbackRotation (action : p.action = 7) (previous : Address)
      (state : (getVerifierRotationState s).previousVerifier = some previous) :
      CouncilEffect env p s (installedStorage s previous)

theorem dispatchCouncilAction_ok {env : Env} {p : CouncilProposal}
    (h : dispatchCouncilAction env p s=.ok (u,s')) : CouncilEffect env p s s' := by
  by_cases upgrade : p.action=3
  · have writes : Writes (In [.SchemaVersion]) (dispatchCouncilAction env p) := by
      rw [dispatchCouncilAction,upgrade]
      repeat' first
        | with_reducible refine Writes.bind ?_ fun _ => ?_
        | apply Writes.ite
        | simp
    exact .upgradeStorage upgrade s' fun k hk => writes s u s' h k (by simpa using hk)
  · obtain ⟨m,hm⟩ : ∃ m, m=dispatchCouncilAction env p := ⟨_,rfl⟩
    rw [← hm] at h
    unfold dispatchCouncilAction at hm
    split at hm <;> subst hm
    · rename_i action
      simp only [bind_ok,set_ok,remove_ok] at h
      obtain ⟨_,_,rfl,_,_,rfl,rfl⟩ := h
      exact .setVerifier action
    · rename_i action
      simp only [bind_ok,getIssuerRecord_ok,set_ok,remove_ok] at h
      obtain ⟨r,_,⟨hr,rfl⟩,_,_,rfl,rfl⟩ := h
      exact .revokeIssuer action r hr
    · rename_i action
      exact absurd action upgrade
    · rename_i action
      obtain rfl := (set_ok ..).1 h
      exact .setRevocationRoot action
    · rename_i action
      simp only [bind_ok,getActiveVerifier_ok,set_ok] at h
      obtain ⟨active,_,⟨hactive,rfl⟩,rfl⟩ := h
      exact .scheduleRotation action active hactive
    · rename_i action
      simp only [bind_ok,gets_ok,unwrap_ok,set_ok,remove_ok] at h
      obtain ⟨_,_,⟨rfl,rfl⟩,pending,_,⟨hpending,rfl⟩,_,_,⟨-,rfl⟩,_,_,rfl,_,_,rfl,rfl⟩ := h
      exact .activateRotation action pending hpending
    · rename_i action
      simp only [bind_ok,gets_ok,unwrap_ok,set_ok,remove_ok] at h
      obtain ⟨_,_,⟨rfl,rfl⟩,_,_,⟨-,rfl⟩,previous,_,⟨hprevious,rfl⟩,_,_,rfl,_,_,rfl,rfl⟩ := h
      exact .rollbackRotation action previous hprevious
    · exact absurd h (by simp)

/-- The execution of a proposal by the council. -/
structure CouncilExecution (env : Env) (caller : Address) (id : Nat) (s s' : Storage)
    (council : AdminCouncil) (p : CouncilProposal) : Prop where
  inForce : getAdminCouncil env.timestamp s = some council
  auth : env.auth caller = true
  stored : s (.CouncilProposal id) = some p
  executed : p.executed = false
  cancelled : p.cancelled = false
  inTime : env.timestamp ≤ p.expiresAt
  approved : council.threshold ≤ p.approvals.length
  effect : CouncilEffect env p (Store.set s (.CouncilProposal id) { p with executed := true }) s'

theorem executeCouncilProposal_ok {env : Env} {caller : Address} {id : Nat}
    (h : executeCouncilProposal env caller id s=.ok (u,s')) :
    ∃ council p, CouncilExecution env caller id s s' council p := by
  simp only [executeCouncilProposal,bind_ok,requireCouncil_ok,requireAuth_ok,failIf_ok,
    getCouncilProposalOrPanic_ok,set_ok] at h
  obtain ⟨council,_,⟨inForce,rfl⟩,_,_,⟨auth,rfl⟩,p,_,⟨stored,rfl⟩,_,_,⟨executed,rfl⟩,h⟩ := h
  obtain ⟨_,_,⟨cancelled,rfl⟩,_,_,⟨inTime,rfl⟩,_,_,⟨approved,rfl⟩,_,_,rfl,h⟩ := h
  exact ⟨council,p,inForce,auth,stored,executed,cancelled,
    Nat.le_of_not_lt (of_decide_eq_false inTime),Nat.le_of_not_lt (of_decide_eq_false approved),
    dispatchCouncilAction_ok h⟩

end Harpocrates.Registry
