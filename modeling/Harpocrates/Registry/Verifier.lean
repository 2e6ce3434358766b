import Harpocrates.Registry.Guards

namespace Harpocrates.Registry

open Framework Tx

def CIRCUIT_VERSION_SILENT_WITNESS_V1 : Nat := 1
def CIRCUIT_VERSION_SILENT_WITNESS_V2 : Nat := 2
def CIRCUIT_VERSION_REVOCATION_WITNESS : Nat := 1
def CIRCUIT_VERSION_AGGREGATION : Nat := 1
def CURRENT_SELECTIVE_DISCLOSURE_VERSION : Nat := 1
def CIRCUIT_VERSION_SELECTIVE_DISCLOSURE : Nat := CURRENT_SELECTIVE_DISCLOSURE_VERSION
def MIN_SUPPORTED_CIRCUIT_VERSION : Nat := 1
def MAX_SUPPORTED_CIRCUIT_VERSION : Nat := CIRCUIT_VERSION_SILENT_WITNESS_V2

def getActiveVerifier : M Address := do
  expect (← load .Verifier) .VerifierNotSet

@[simp] theorem getActiveVerifier_ok (s s' : Storage) (v : Address) :
    getActiveVerifier s=.ok (v,s') ↔ s .Verifier=some v ∧ s=s' := by
  simp [getActiveVerifier]

@[simp] theorem getActiveVerifier_writes (W : DataKey → Prop) : Writes W getActiveVerifier := by
  intro s v s' h
  simp_all

def getVerifierRotationState (s : Storage) : VerifierState :=
  (s .VerifierState).getD
    { activeVerifier := s .Verifier
      pendingVerifier := none
      previousVerifier := none
      activationLedger := 0
      overlapWindow := 0
      rollbackWindow := 0
      rollbackWindowEnd := 0 }

def setVerifier (env : Env) (admin verifier : Address) : M Unit := do
  requireAdmin env admin
  requireNoCouncil env
  store .Verifier verifier
  remove .VerifierState
  remove .VerifierCircuitVersions

def setVerifierCircuitVersions (env : Env) (admin : Address) (minVersion maxVersion : Nat) :
    M Unit := do
  requireAdmin env admin
  panicIf (minVersion > maxVersion || minVersion < MIN_SUPPORTED_CIRCUIT_VERSION ||
    maxVersion > MAX_SUPPORTED_CIRCUIT_VERSION) .InvalidCircuitVersionRange
  let _ ← getActiveVerifier
  store .VerifierCircuitVersions
    { minVersion, maxVersion, setBy := admin, setAt := env.timestamp }

def scheduleVerifierRotation (env : Env) (admin verifier : Address)
    (activationLedger overlapWindow rollbackWindow : Nat) : M Unit := do
  requireAdmin env admin
  requireNoCouncil env
  let activeVerifier ← getActiveVerifier
  store .VerifierState
    { activeVerifier := some activeVerifier
      pendingVerifier := some verifier
      previousVerifier := some activeVerifier
      activationLedger, overlapWindow, rollbackWindow
      rollbackWindowEnd := satAdd64 activationLedger rollbackWindow }

def activateVerifierRotation (env : Env) (admin : Address) : M Unit := do
  requireAdmin env admin
  requireNoCouncil env
  let state ← Tx.gets getVerifierRotationState
  let pendingVerifier ← expect state.pendingVerifier .RotationNotScheduled
  let _ ← expect state.activeVerifier .RotationNotScheduled
  panicIf (env.sequence < state.activationLedger) .RotationNotReady
  store .VerifierState
    { state with
      activeVerifier := some pendingVerifier
      pendingVerifier := none
      rollbackWindowEnd := satAdd64 env.sequence state.rollbackWindow }
  store .Verifier pendingVerifier
  remove .VerifierCircuitVersions

def rollbackVerifierRotation (env : Env) (admin : Address) : M Unit := do
  requireAdmin env admin
  requireNoCouncil env
  let state ← Tx.gets getVerifierRotationState
  let _ ← expect state.activeVerifier .RotationNotScheduled
  let previousVerifier ← expect state.previousVerifier .RotationNotScheduled
  panicIf (state.rollbackWindowEnd == 0 || env.sequence > state.rollbackWindowEnd)
    .RotationWindowClosed
  store .Verifier previousVerifier
  remove .VerifierState
  remove .VerifierCircuitVersions

/-- The window of circuit versions the active verifier declared; without a declaration,
all that the contract can frame. -/
def getVerifierCircuitVersionsRaw (s : Storage) : Nat × Nat :=
  match s .VerifierCircuitVersions with
  | some record => (record.minVersion,record.maxVersion)
  | none => (MIN_SUPPORTED_CIRCUIT_VERSION,MAX_SUPPORTED_CIRCUIT_VERSION)

def isSupportedCircuitVersion (s : Storage) (version : Nat) : Bool :=
  MIN_SUPPORTED_CIRCUIT_VERSION ≤ version && version ≤ MAX_SUPPORTED_CIRCUIT_VERSION &&
    (getVerifierCircuitVersionsRaw s).1 ≤ version &&
    version ≤ (getVerifierCircuitVersionsRaw s).2

/-- The call to the external verifier: the verdict of `verify_proof`, where a failed call
counts as a rejection. -/
def verifyExternalProof (env : Env) (verifier : Address) (publicInputs proof : Bytes) : Bool :=
  env.verifyProof verifier publicInputs proof

/-- The gate before the external verifier, used by the entry points that do not load a
`VerifierContext`. -/
def requireVerifiedProof (env : Env) (active : Address) (circuitVersion : Nat)
    (publicInputs proof : Bytes) : M Unit := do
  panicIf (!(← Tx.gets (isSupportedCircuitVersion · circuitVersion))) .UnsupportedCircuitVersion
  panicIf proof.isEmpty .InvalidProof
  panicIf (!verifyExternalProof env active publicInputs proof) .InvalidProof

structure VerifierContext where
  verifier : Option Address
  circuitVersions : Nat × Nat
  deriving DecidableEq

namespace VerifierContext

def load : M VerifierContext := Tx.gets fun s =>
  { verifier := s .Verifier, circuitVersions := getVerifierCircuitVersionsRaw s }

@[simp] theorem load_ok (s s' : Storage) (ctx : VerifierContext) :
    load s=.ok (ctx,s') ↔ ⟨s .Verifier,getVerifierCircuitVersionsRaw s⟩=ctx ∧ s=s' := by
  simp [load]

def requireVerifiedProof (env : Env) (ctx : VerifierContext) (circuitVersion : Nat)
    (publicInputs proof : Bytes) : M Unit := do
  panicIf (circuitVersion < MIN_SUPPORTED_CIRCUIT_VERSION ||
    circuitVersion > MAX_SUPPORTED_CIRCUIT_VERSION) .UnsupportedCircuitVersion
  panicIf (circuitVersion < ctx.circuitVersions.1 || circuitVersion > ctx.circuitVersions.2)
    .UnsupportedCircuitVersion
  panicIf proof.isEmpty .InvalidProof
  let verifier ← expect ctx.verifier .VerifierNotSet
  panicIf (!verifyExternalProof env verifier publicInputs proof) .InvalidProof

def hasNullifier (ctx : VerifierContext) (s : Storage) (nullifier : Bytes32) : Bool :=
  (match ctx.verifier with
    | some verifier => (s (.VerifierNullifier verifier nullifier)).isSome
    | none => false) || (s (.Nullifier nullifier)).isSome

@[simp] theorem load_writes (W : DataKey → Prop) : Writes W load := by
  simp [load]

end VerifierContext

theorem requireVerifiedProof_unchanged {env : Env} {active : Address} {version : Nat}
    {publicInputs proof : Bytes} {s s' : Storage} {u : Unit}
    (h : requireVerifiedProof env active version publicInputs proof s=.ok (u,s')) :
    s=s' := by
  simp only [requireVerifiedProof,bind_ok,gets_ok,failIf_ok] at h
  obtain ⟨_,_,⟨-,rfl⟩,_,_,⟨-,rfl⟩,_,_,⟨-,rfl⟩,-,rfl⟩ := h
  rfl

@[simp] theorem requireVerifiedProof_writes (W : DataKey → Prop) (env : Env) (active : Address)
    (version : Nat) (publicInputs proof : Bytes) :
    Writes W (requireVerifiedProof env active version publicInputs proof) := by
  intro s u s' h
  simp [requireVerifiedProof_unchanged h]

theorem VerifierContext.requireVerifiedProof_unchanged {env : Env} {ctx : VerifierContext}
    {version : Nat} {publicInputs proof : Bytes} {s s' : Storage} {u : Unit}
    (h : ctx.requireVerifiedProof env version publicInputs proof s=.ok (u,s')) :
    s=s' ∧ ctx.verifier.isSome=true := by
  simp only [requireVerifiedProof,bind_ok,unwrap_ok,failIf_ok] at h
  obtain ⟨_,_,⟨-,rfl⟩,_,_,⟨-,rfl⟩,_,_,⟨-,rfl⟩,_,_,⟨h,rfl⟩,-,rfl⟩ := h
  exact ⟨rfl,by simp [h]⟩

@[simp] theorem VerifierContext.requireVerifiedProof_writes (W : DataKey → Prop) (env : Env)
    (ctx : VerifierContext) (version : Nat) (publicInputs proof : Bytes) :
    Writes W (ctx.requireVerifiedProof env version publicInputs proof) := by
  intro s u s' h
  simp [(requireVerifiedProof_unchanged h).1]

end Harpocrates.Registry
