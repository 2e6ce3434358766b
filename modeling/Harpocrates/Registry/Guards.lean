import Harpocrates.Registry.Env

namespace Harpocrates.Registry

open Framework Tx

def requireInitialized : M Unit := do
  panicIf (!(← has .Admin)) .NotInitialized

def requireAdmin (env : Env) (candidate : Address) : M Unit := do
  let admin ← expect (← load .Admin) .NotInitialized
  requireAuth env candidate
  panicIf (admin != candidate) .Unauthorized

def requireIssuerRoleAvailable (issuer : Address) : M Unit := do
  let admin ← expect (← load .Admin) .NotInitialized
  panicIf (issuer == admin) .RoleConflict

def hasActiveIssuer (s : Storage) (a : Address) : Bool :=
  match s (.Issuer a) with
  | some r => r.active
  | none => false

def requireAdminRoleAvailable (candidate : Address) : M Unit := do
  requireIssuerRoleAvailable candidate
  panicIf (← Tx.gets (hasActiveIssuer · candidate)) .RoleConflict

def getIssuerRecord (issuer : Address) : M IssuerRecord := do
  expect (← load (.Issuer issuer)) .UnknownIssuer

def getProofRecord (proofId : Bytes32) : M ProofRecord := do
  expect (← load (.Proof proofId)) .DuplicateProof

def isCouncilActive (now : Nat) (s : Storage) : Bool :=
  match s .AdminCouncil with
  | some council => council.effectiveAt ≤ now
  | none => false

def requireNoCouncil (env : Env) : M Unit := do
  panicIf (← Tx.gets (isCouncilActive env.timestamp)) .InsufficientApprovals

def getTimelockMinDelay (s : Storage) : Nat := (s .TimelockMinDelay).getD 86400

def PAUSE_DOMAIN_TIER1_REGISTRATION : UInt32 := 1
def PAUSE_DOMAIN_TIER2_REGISTRATION : UInt32 := 2
def PAUSE_DOMAIN_TIER3_REGISTRATION : UInt32 := 4
def PAUSE_DOMAIN_ALL_REGISTRATION : UInt32 := 7

def PAUSE_DOMAIN_SINGLE_BITS : List UInt32 :=
  [PAUSE_DOMAIN_TIER1_REGISTRATION,PAUSE_DOMAIN_TIER2_REGISTRATION,
    PAUSE_DOMAIN_TIER3_REGISTRATION]

def domainIsPaused (s : Storage) (domainBit : UInt32) (now : Nat) : Bool :=
  match s (.Pause domainBit) with
  | some r => now < r.expiresAt
  | none => false

def requireDomainUnpaused (env : Env) (domainBit : UInt32) : M Unit := do
  panicIf (← Tx.gets (domainIsPaused · domainBit env.timestamp)) .Paused

@[simp] theorem requireInitialized_ok (s s' : Storage) (u : Unit) :
    requireInitialized s=.ok (u,s') ↔ (s .Admin).isSome=true ∧ s=s' := by
  simp [requireInitialized]

@[simp] theorem requireAdmin_ok (env : Env) (a : Address) (s s' : Storage) (u : Unit) :
    requireAdmin env a s=.ok (u,s') ↔ s .Admin=some a ∧ env.auth a=true ∧ s=s' := by
  simp only [requireAdmin,bind_ok,get_ok,unwrap_ok,requireAuth_ok,failIf_ok]
  constructor
  · intro hyp
    obtain ⟨o,t,⟨rfl,rfl⟩,admin,t,⟨h1,rfl⟩,u,t,⟨h2,rfl⟩,h3,rfl⟩ := hyp
    obtain rfl : admin=a := by simpa using h3
    exact ⟨h1,h2,rfl⟩
  · intro hyp
    obtain ⟨h1,h2,rfl⟩ := hyp
    exact ⟨_,s,⟨rfl,rfl⟩,a,s,⟨h1,rfl⟩,(),s,⟨h2,rfl⟩,by simp,rfl⟩

@[simp] theorem requireIssuerRoleAvailable_ok (a : Address) (s s' : Storage) (u : Unit) :
    requireIssuerRoleAvailable a s=.ok (u,s') ↔
      s=s' ∧ ∃ admin, s .Admin=some admin ∧ a≠admin := by
  simp only [requireIssuerRoleAvailable,bind_ok,get_ok,unwrap_ok,failIf_ok]
  constructor
  · intro hyp
    obtain ⟨o,t,⟨rfl,rfl⟩,admin,t,⟨h1,rfl⟩,h2,rfl⟩ := hyp
    exact ⟨rfl,admin,h1,by simpa using h2⟩
  · intro hyp
    obtain ⟨rfl,admin,h1,h2⟩ := hyp
    exact ⟨_,s,⟨rfl,rfl⟩,admin,s,⟨h1,rfl⟩,by simpa using h2,rfl⟩

@[simp] theorem requireAdminRoleAvailable_ok (a : Address) (s s' : Storage) (u : Unit) :
    requireAdminRoleAvailable a s=.ok (u,s') ↔
      s=s' ∧ (∃ admin, s .Admin=some admin ∧ a≠admin) ∧ hasActiveIssuer s a=false := by
  simp only [requireAdminRoleAvailable,bind_ok,requireIssuerRoleAvailable_ok,gets_ok,
    failIf_ok]
  constructor
  · intro hyp
    obtain ⟨_,t,⟨rfl,h⟩,b,t,⟨rfl,rfl⟩,h3,rfl⟩ := hyp
    exact ⟨rfl,h,h3⟩
  · intro hyp
    obtain ⟨rfl,h,h3⟩ := hyp
    exact ⟨(),s,⟨rfl,h⟩,_,s,⟨rfl,rfl⟩,h3,rfl⟩

@[simp] theorem getIssuerRecord_ok (a : Address) (s s' : Storage) (r : IssuerRecord) :
    getIssuerRecord a s=.ok (r,s') ↔ s (.Issuer a)=some r ∧ s=s' := by
  simp [getIssuerRecord]

@[simp] theorem getProofRecord_ok (p : Bytes32) (s s' : Storage) (r : ProofRecord) :
    getProofRecord p s=.ok (r,s') ↔ s (.Proof p)=some r ∧ s=s' := by
  simp [getProofRecord]

@[simp] theorem requireNoCouncil_ok (env : Env) (s s' : Storage) (u : Unit) :
    requireNoCouncil env s=.ok (u,s') ↔
      isCouncilActive env.timestamp s=false ∧ s=s' := by
  simp [requireNoCouncil]

@[simp] theorem requireDomainUnpaused_ok (env : Env) (b : UInt32) (s s' : Storage) (u : Unit) :
    requireDomainUnpaused env b s=.ok (u,s') ↔
      domainIsPaused s b env.timestamp=false ∧ s=s' := by
  simp [requireDomainUnpaused]

@[simp] theorem requireInitialized_writes (W : DataKey → Prop) :
    Writes W requireInitialized := by
  intro s u s' h
  simp_all

@[simp] theorem requireAdmin_writes (W : DataKey → Prop) (env : Env) (a : Address) :
    Writes W (requireAdmin env a) := by
  intro s u s' h
  simp_all

@[simp] theorem requireIssuerRoleAvailable_writes (W : DataKey → Prop) (a : Address) :
    Writes W (requireIssuerRoleAvailable a) := by
  intro s u s' h
  simp_all

@[simp] theorem requireAdminRoleAvailable_writes (W : DataKey → Prop) (a : Address) :
    Writes W (requireAdminRoleAvailable a) := by
  intro s u s' h
  simp_all

@[simp] theorem getIssuerRecord_writes (W : DataKey → Prop) (a : Address) :
    Writes W (getIssuerRecord a) := by
  intro s u s' h
  simp_all

@[simp] theorem getProofRecord_writes (W : DataKey → Prop) (p : Bytes32) :
    Writes W (getProofRecord p) := by
  intro s u s' h
  simp_all

@[simp] theorem requireNoCouncil_writes (W : DataKey → Prop) (env : Env) :
    Writes W (requireNoCouncil env) := by
  intro s u s' h
  simp_all

@[simp] theorem requireDomainUnpaused_writes (W : DataKey → Prop) (env : Env) (b : UInt32) :
    Writes W (requireDomainUnpaused env b) := by
  intro s u s' h
  simp_all

end Harpocrates.Registry
