import Harpocrates.Registry.Issuers
import Harpocrates.Registry.Records

namespace Harpocrates.Registry

open Framework Tx Option

def MIN_SOURCE_BATCH_COUNT : Nat := 1
def MAX_SOURCE_BATCH_COUNT : Nat := 1048576

def DELEGATION_SCOPE_REGISTER_SOURCE : UInt32 := 1
def DELEGATION_SCOPE_REGISTER_SEAL : UInt32 := 2
def DELEGATION_SCOPE_ALL : UInt32 := 3
def MAX_DELEGATION_DURATION_SECS : Nat := 30*24*60*60
def MAX_DELEGATIONS_PER_GRANTOR : Nat := 32

/-- The record of a Tier 2 registration. -/
def sourceRecord (env : Env) (source : Address) (videoHash metadataHash : Bytes32)
    (expiresAt : Nat) : ProofRecord :=
  { videoHash, metadataHash
    tier := TIER_CONSISTENT_SOURCE
    status := STATUS_REGISTERED
    createdAt := env.timestamp
    expiresAt
    source := some source
    issuer := none
    nullifier := none
    batchSize := 0 }

/-- The record of a Tier 3 registration. -/
def sealRecord (env : Env) (issuer : Address) (videoHash metadataHash : Bytes32)
    (expiresAt : Nat) : ProofRecord :=
  { videoHash, metadataHash
    tier := TIER_PUBLIC_SEAL
    status := STATUS_REGISTERED
    createdAt := env.timestamp
    expiresAt
    source := none
    issuer := some issuer
    nullifier := none
    batchSize := 0 }

def registerSource (env : Env) (source : Address) (videoHash metadataHash proofId : Bytes32) :
    M ProofRecord := do
  requireInitialized
  requireDomainUnpaused env PAUSE_DOMAIN_TIER2_REGISTRATION
  requireAuth env source
  requireUnique proofId videoHash
  chargeIssuerQuota env source
  let expiresAt ← Tx.gets (computeExpiresAt env)
  saveRecord env proofId (sourceRecord env source videoHash metadataHash expiresAt) (some source)

def registerSourceBatchRoot (env : Env) (source : Address) (root : Bytes32) (count : Nat)
    (metadataHash : Bytes32) : M BatchRecord := do
  requireInitialized
  requireDomainUnpaused env PAUSE_DOMAIN_TIER2_REGISTRATION
  requireAuth env source
  panicIf (count < MIN_SOURCE_BATCH_COUNT || count > MAX_SOURCE_BATCH_COUNT) .BatchSizeExceeded
  panicIf (← has (.SourceBatch root)) .DuplicateProof
  let record := { root, source, count, metadataHash, createdAt := env.timestamp }
  store (.SourceBatch root) record
  pure record

def registerSeal (env : Env) (issuer : Address) (videoHash metadataHash proofId : Bytes32) :
    M ProofRecord := do
  requireDomainUnpaused env PAUSE_DOMAIN_TIER3_REGISTRATION
  requireAuth env issuer
  requireIssuerRoleAvailable issuer
  requireUnique proofId videoHash
  let issuerRecord ← getIssuerRecord issuer
  panicIf (!issuerRecord.active) .UnknownIssuer
  chargeIssuerQuota env issuer
  let expiresAt ← Tx.gets (computeExpiresAt env)
  saveRecord env proofId (sealRecord env issuer videoHash metadataHash expiresAt) (some issuer)

def validDelegationScope (scope : UInt32) : Bool :=
  scope != 0 && scope &&& ~~~DELEGATION_SCOPE_ALL == 0

def delegationCount (s : Storage) (grantor : Address) : Nat :=
  (s (.DelegationCount grantor)).getD 0

def grantDelegation (env : Env) (grantor delegate : Address) (scope : UInt32)
    (durationSecs : Nat) : M Nat := do
  requireInitialized
  requireAuth env grantor
  panicIf (grantor == delegate) .SelfDelegation
  panicIf (!validDelegationScope scope) .InvalidDelegationScope
  panicIf (durationSecs == 0 || durationSecs > MAX_DELEGATION_DURATION_SECS)
    .InvalidDelegationDuration
  if ← has (.Delegation grantor delegate) then
    pure ()
  else do
    let count ← Tx.gets (delegationCount · grantor)
    panicIf (count ≥ MAX_DELEGATIONS_PER_GRANTOR) .DelegationsSaturated
    store (.DelegationCount grantor) (count+1)
  let expiresAt := satAdd64 env.timestamp durationSecs
  store (.Delegation grantor delegate)
    { grantor, delegate, scope, grantedAt := env.timestamp, expiresAt }
  pure expiresAt

def revokeDelegation (env : Env) (revoker grantor delegate : Address) : M Unit := do
  requireInitialized
  requireAuth env revoker
  if revoker ≠ grantor then do
    let admin ← expect (← load .Admin) .NotInitialized
    panicIf (revoker != admin) .Unauthorized
  else pure ()
  if ← has (.Delegation grantor delegate) then do
    remove (.Delegation grantor delegate)
    let count ← Tx.gets (delegationCount · grantor)
    store (.DelegationCount grantor) (count-1)
  else pure ()

def requireDelegation (env : Env) (grantor delegate : Address) (scope : UInt32) :
    M DelegationRecord := do
  panicIf (!validDelegationScope scope) .InvalidDelegationScope
  let record ← expect (← load (.Delegation grantor delegate)) .DelegationNotFound
  panicIf (env.timestamp ≥ record.expiresAt) .DelegationExpired
  panicIf (record.scope &&& scope != scope) .DelegationScopeExceeded
  pure record

def boundedDelegatedExpiry (env : Env) (delegationExpiresAt : Nat) (s : Storage) : Nat :=
  let ttlExpiry := computeExpiresAt env s
  if ttlExpiry = 0 then delegationExpiresAt else min ttlExpiry delegationExpiresAt

def registerSourceDelegated (env : Env) (delegate source : Address)
    (videoHash metadataHash proofId : Bytes32) : M ProofRecord := do
  requireDomainUnpaused env PAUSE_DOMAIN_TIER2_REGISTRATION
  requireAuth env delegate
  let delegation ← requireDelegation env source delegate DELEGATION_SCOPE_REGISTER_SOURCE
  requireUnique proofId videoHash
  chargeIssuerQuota env source
  let expiresAt ← Tx.gets (boundedDelegatedExpiry env delegation.expiresAt)
  saveRecord env proofId (sourceRecord env source videoHash metadataHash expiresAt)
    (some delegate)

def registerSealDelegated (env : Env) (delegate issuer : Address)
    (videoHash metadataHash proofId : Bytes32) : M ProofRecord := do
  requireDomainUnpaused env PAUSE_DOMAIN_TIER3_REGISTRATION
  requireAuth env delegate
  let delegation ← requireDelegation env issuer delegate DELEGATION_SCOPE_REGISTER_SEAL
  requireUnique proofId videoHash
  let issuerRecord ← getIssuerRecord issuer
  panicIf (!issuerRecord.active) .UnknownIssuer
  chargeIssuerQuota env issuer
  let expiresAt ← Tx.gets (boundedDelegatedExpiry env delegation.expiresAt)
  saveRecord env proofId (sealRecord env issuer videoHash metadataHash expiresAt) (some delegate)

/-- How a Tier 2 or Tier 3 registration ends: proof and video are new, the quota of the
address the proof is attributed to is charged, and the record is saved. -/
def SavesNew (env : Env) (subject actor : Address) (p v : Bytes32)
    (record : Storage → ProofRecord) (s s' : Storage) : Prop :=
  s (.Proof p) = none ∧ s (.Video v) = none ∧ ∃ t r, chargeIssuerQuota env subject s = .ok ((),t) ∧
    saveRecord env p (record t) (some actor) t = .ok (r,s')

variable {a d : Address} {s s' : Storage} {m p v : Bytes32} {r : ProofRecord}

variable {env : Env}

/-- A grant takes a slot when the delegate has none yet, and overwrites the record otherwise. -/
theorem grantDelegation_ok {g : Address} {scope : UInt32} {duration x : Nat}
    (h : grantDelegation env g d scope duration s=.ok (x,s')) :
    duration≤MAX_DELEGATION_DURATION_SECS ∧
      ∃ t, ((s (.Delegation g d)).isSome=true ∧ t=s ∨
        s (.Delegation g d)=none ∧ delegationCount s g<MAX_DELEGATIONS_PER_GRANTOR ∧
          t=Store.set s (.DelegationCount g) (delegationCount s g+1)) ∧
      s'=Store.set t (.Delegation g d)
        ⟨g,d,scope,env.timestamp,satAdd64 env.timestamp duration⟩ := by
  simp only [grantDelegation,bind_ok,requireInitialized_ok,requireAuth_ok,failIf_ok,has_ok,
    Tx.ite_apply] at h
  obtain ⟨_,_,⟨-,rfl⟩,_,_,⟨-,rfl⟩,_,_,⟨-,rfl⟩,_,_,⟨-,rfl⟩,_,_,⟨hduration,rfl⟩,h⟩ := h
  have hmax : duration≤MAX_DELEGATION_DURATION_SECS := by
    simp only [Bool.or_eq_false_iff,decide_eq_false_iff_not,not_lt] at hduration
    exact hduration.2
  refine ⟨hmax,?_⟩
  obtain ⟨known,_,⟨hknown,rfl⟩,h⟩ := h
  split at h
  · rename_i hyes
    simp only [bind_ok,set_ok,pure_ok] at h
    obtain ⟨_,_,rfl,-,rfl⟩ := h
    exact ⟨s,.inl ⟨hknown.trans hyes,rfl⟩,rfl⟩
  · rename_i hno
    simp only [bind_ok,gets_ok,failIf_ok,set_ok,pure_ok] at h
    obtain ⟨_,_,⟨rfl,rfl⟩,_,_,⟨room,rfl⟩,_,_,rfl,_,_,rfl,-,rfl⟩ := h
    refine ⟨_,.inr ⟨?_,Nat.lt_of_not_ge (of_decide_eq_false room),rfl⟩,rfl⟩
    rw [← hknown,Bool.not_eq_true,isSome_eq_false_iff,isNone_iff_eq_none] at hno
    exact hno

/-- A revocation gives the slot back when there is something to revoke. -/
theorem revokeDelegation_ok {revoker g : Address} {u : Unit}
    (h : revokeDelegation env revoker g d s=.ok (u,s')) :
    (s (.Delegation g d)).isSome=true ∧ s'=Store.set (Store.erase s (.Delegation g d))
        (.DelegationCount g) (delegationCount s g-1) ∨
      s (.Delegation g d)=none ∧ s'=s := by
  -- the part after the check of the revoker, which both branches go on with
  have revoked : ∀ t, (do
      if ← has (.Delegation g d) then do
        remove (.Delegation g d)
        let count ← gets (delegationCount · g)
        store (.DelegationCount g) (count-1)
      else pure () : M Unit) t=.ok (u,s') →
      (t (.Delegation g d)).isSome=true ∧ s'=Store.set (Store.erase t (.Delegation g d))
        (.DelegationCount g) (delegationCount t g-1) ∨
      t (.Delegation g d)=none ∧ s'=t := by
    intro t h
    obtain ⟨known,_,hread,h⟩ := (bind_ok ..).1 h
    obtain ⟨hknown,rfl⟩ := (has_ok ..).1 hread
    rw [Tx.ite_apply] at h
    split at h
    · rename_i hyes
      simp only [bind_ok,remove_ok,gets_ok,set_ok] at h
      obtain ⟨_,_,rfl,_,_,⟨rfl,rfl⟩,rfl⟩ := h
      exact .inl ⟨hknown.trans hyes,by simp [delegationCount]⟩
    · rename_i hno
      rw [← hknown,Bool.not_eq_true,isSome_eq_false_iff,isNone_iff_eq_none] at hno
      exact .inr ⟨hno,((pure_ok ..).1 h).2.symm⟩
  obtain ⟨_,_,hinit,h⟩ := (bind_ok ..).1 h
  obtain ⟨-,rfl⟩ := (requireInitialized_ok ..).1 hinit
  obtain ⟨_,_,hauth,h⟩ := (bind_ok ..).1 h
  obtain ⟨-,rfl⟩ := (requireAuth_ok ..).1 hauth
  rw [Tx.ite_apply] at h
  split at h
  · simp only [bind_ok,get_ok,unwrap_ok,failIf_ok] at h
    obtain ⟨_,_,⟨rfl,rfl⟩,_,_,⟨-,rfl⟩,_,_,⟨-,rfl⟩,h⟩ := h
    exact revoked _ ((bind_ok ..).2 h)
  · exact revoked _ h

theorem requireDelegation_ok (env : Env) (grantor delegate : Address) (scope : UInt32)
    (s s' : Storage) (r : DelegationRecord) :
    requireDelegation env grantor delegate scope s=.ok (r,s') ↔
      validDelegationScope scope=true ∧ s (.Delegation grantor delegate)=some r ∧
        env.timestamp<r.expiresAt ∧ r.scope &&& scope=scope ∧ s=s' := by
  simp only [requireDelegation,bind_ok,get_ok,unwrap_ok,failIf_ok,pure_ok]
  constructor
  · intro hyp
    obtain ⟨_,_,⟨h1,rfl⟩,_,_,⟨rfl,rfl⟩,_,_,⟨h2,rfl⟩,_,_,⟨h3,rfl⟩,_,_,⟨h4,rfl⟩,rfl,rfl⟩ := hyp
    exact ⟨by simpa using h1,h2,by simpa using h3,by simpa using h4,rfl⟩
  · intro hyp
    obtain ⟨h1,h2,h3,h4,rfl⟩ := hyp
    exact ⟨(),s,⟨by simp [h1],rfl⟩,_,s,⟨rfl,rfl⟩,r,s,⟨h2,rfl⟩,(),s,⟨by simpa using h3,rfl⟩,(),s,
      ⟨by simpa using h4,rfl⟩,rfl,rfl⟩

theorem requireDelegation_unchanged {grantor delegate : Address} {scope : UInt32}
    {r : DelegationRecord} (h : requireDelegation env grantor delegate scope s=.ok (r,s')) :
    s=s' :=
  ((requireDelegation_ok ..).1 h).2.2.2.2

theorem hasActiveIssuer_of_record {r : IssuerRecord} (hr : s (.Issuer a)=some r)
    (ha : (!r.active)=false) : hasActiveIssuer s a=true := by
  simpa [hasActiveIssuer,hr] using ha

theorem registerSource_ok (h : registerSource env a v m p s=.ok (r,s')) : env.auth a=true ∧
      SavesNew env a a p v (fun t => sourceRecord env a v m (computeExpiresAt env t)) s s' := by
  simp only [registerSource,bind_ok,requireInitialized_ok,requireDomainUnpaused_ok,
    requireAuth_ok,requireUnique_ok,gets_ok] at h
  obtain ⟨_,_,⟨-,rfl⟩,_,_,⟨-,rfl⟩,_,_,⟨ha,rfl⟩,_,_,⟨hp,hv,rfl⟩,_,_,hq,_,_,⟨rfl,rfl⟩,h⟩ := h
  exact ⟨ha,hp,hv,_,_,hq,h⟩

theorem registerSeal_ok (h : registerSeal env a v m p s=.ok (r,s')) : env.auth a=true ∧
      s .Admin≠some a ∧ hasActiveIssuer s a=true ∧
      SavesNew env a a p v (fun t => sealRecord env a v m (computeExpiresAt env t)) s s' := by
  simp only [registerSeal,bind_ok,requireDomainUnpaused_ok,requireAuth_ok,
    requireIssuerRoleAvailable_ok,requireUnique_ok,getIssuerRecord_ok,failIf_ok,
    gets_ok] at h
  obtain ⟨_,_,⟨-,rfl⟩,_,_,⟨ha,rfl⟩,_,_,⟨rfl,admin,hadmin,hne⟩,_,_,⟨hp,hv,rfl⟩,h⟩ := h
  obtain ⟨_,_,⟨hi,rfl⟩,_,_,⟨hactive,rfl⟩,_,_,hq,_,_,⟨rfl,rfl⟩,h⟩ := h
  refine ⟨ha,?_,hasActiveIssuer_of_record hi hactive,hp,hv,_,_,hq,h⟩
  intro heq
  exact hne (Option.some.inj (heq.symm.trans hadmin))

theorem registerSourceDelegated_ok (h : registerSourceDelegated env d a v m p s=.ok (r,s')) :
    env.auth d=true ∧
      ∃ del, s (.Delegation a d)=some del ∧ env.timestamp<del.expiresAt ∧
        del.scope &&& DELEGATION_SCOPE_REGISTER_SOURCE=DELEGATION_SCOPE_REGISTER_SOURCE ∧
        SavesNew env a d p v
          (fun t => sourceRecord env a v m (boundedDelegatedExpiry env del.expiresAt t)) s s' := by
  simp only [registerSourceDelegated,bind_ok,requireDomainUnpaused_ok,requireAuth_ok,
    requireDelegation_ok,requireUnique_ok,gets_ok] at h
  obtain ⟨_,_,⟨-,rfl⟩,_,_,⟨ha,rfl⟩,del,_,⟨-,hdel,htime,hscope,rfl⟩,h⟩ := h
  obtain ⟨_,_,⟨hp,hv,rfl⟩,_,_,hq,_,_,⟨rfl,rfl⟩,h⟩ := h
  exact ⟨ha,del,hdel,htime,hscope,hp,hv,_,_,hq,h⟩

theorem registerSealDelegated_ok (h : registerSealDelegated env d a v m p s=.ok (r,s')) :
    env.auth d=true ∧
      ∃ del, s (.Delegation a d)=some del ∧ env.timestamp<del.expiresAt ∧
        del.scope &&& DELEGATION_SCOPE_REGISTER_SEAL=DELEGATION_SCOPE_REGISTER_SEAL ∧
        hasActiveIssuer s a=true ∧ SavesNew env a d p v
          (fun t => sealRecord env a v m (boundedDelegatedExpiry env del.expiresAt t)) s s' := by
  simp only [registerSealDelegated,bind_ok,requireDomainUnpaused_ok,requireAuth_ok,
    requireDelegation_ok,requireUnique_ok,getIssuerRecord_ok,failIf_ok,gets_ok] at h
  obtain ⟨_,_,⟨-,rfl⟩,_,_,⟨ha,rfl⟩,del,_,⟨-,hdel,htime,hscope,rfl⟩,h⟩ := h
  obtain ⟨_,_,⟨hp,hv,rfl⟩,_,_,⟨hi,rfl⟩,_,_,⟨hactive,rfl⟩,_,_,hq,_,_,⟨rfl,rfl⟩,h⟩ := h
  exact ⟨ha,del,hdel,htime,hscope,hasActiveIssuer_of_record hi hactive,hp,hv,_,_,hq,h⟩

@[simp] theorem requireDelegation_writes (W : DataKey → Prop) (env : Env)
    (grantor delegate : Address) (scope : UInt32) :
    Writes W (requireDelegation env grantor delegate scope) := by
  intro s r s' h
  simp [requireDelegation_unchanged h]

def attributedFootprint : List Family := .IssuerQuotaUsage::recordFootprint

end Harpocrates.Registry
