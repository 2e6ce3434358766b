import Harpocrates.Circuits.Common

namespace Harpocrates.Circuits.RedactedAncestry

open Framework.Fallible

section

variable {F : Type} [NatCast F] (pedersenHash : List F → F)

def OPERATION_REDACT : F := (0x726564616374 : Nat)
def MIN_ANCESTRY_DEPTH : F := (1 : Nat)
def MAX_ANCESTRY_DEPTH : F := (4 : Nat)
def CIRCUIT_VERSION : F := (1 : Nat)
def DOMAIN_PARENT_COMMIT : F := (0x0048505f5245444143545f504152454e545f5631 : Nat)
def DOMAIN_REDACT_PARAMS : F := (0x0048505f5245444143545f504152414d535f5631 : Nat)
def DOMAIN_DERIVATIVE : F := (0x0048505f5245444143545f44455249565f5631 : Nat)
def DOMAIN_ANCESTRY : F := (0x0048505f5245444143545f414e4345535452595f5631 : Nat)
def DOMAIN_NULLIFIER : F := (0x0048505f5245444143545f4e554c4c49464945525f5631 : Nat)

def deriveParentCommitment (parentHashHi parentHashLo parentBlinding : F) : F :=
  pedersenHash [DOMAIN_PARENT_COMMIT,parentHashHi,parentHashLo,parentBlinding]

def deriveParametersDigest (maskCommitment redactionSeed : F) : F :=
  pedersenHash [DOMAIN_REDACT_PARAMS,maskCommitment,redactionSeed]

def deriveDerivativeDigest (parentHashHi parentHashLo parametersDigest redactionSeed : F) : F :=
  pedersenHash [DOMAIN_DERIVATIVE,parentHashHi,parentHashLo,parametersDigest,redactionSeed]

def deriveAncestryRoot (parentCommitment derivativeDigest parametersDigest depth : F) : F :=
  pedersenHash [DOMAIN_ANCESTRY,parentCommitment,derivativeDigest,parametersDigest,
    OPERATION_REDACT,depth,CIRCUIT_VERSION]

def deriveNullifier (credentialSecret nullifierSecret ancestryRoot : F) : F :=
  pedersenHash [DOMAIN_NULLIFIER,credentialSecret,nullifierSecret,ancestryRoot]

end

structure Witness (F : Type) where
  parentHashHi : F
  parentHashLo : F
  parentBlinding : F
  maskCommitment : F
  redactionSeed : F
  credentialSecret : F
  nullifierSecret : F

@[ext] structure PublicInputs (F : Type) where
  parentCommitment : F
  derivativeDigest : F
  parametersDigest : F
  operationType : F
  ancestryRoot : F
  nullifier : F
  depth : F
  domainTag : F

section

variable {F : Type} [DecidableEq F] [NatCast F] (pedersenHash : List F → F)

def assertValidDepth (depth : F) : Except Failure Unit :=
  assertThat (depth = MIN_ANCESTRY_DEPTH ∨ depth = (2 : Nat) ∨ depth = (3 : Nat) ∨
    depth = MAX_ANCESTRY_DEPTH) .ancestryDepthOutOfRange

def main (w : Witness F) (inputs : PublicInputs F) : Except Failure Unit := do
  assertThat (inputs.operationType = OPERATION_REDACT) .operationMustBeRedact
  assertValidDepth inputs.depth
  assertThat (inputs.parentCommitment ≠ (0 : Nat)) .parentCommitmentMustBeNonZero
  assertThat (inputs.derivativeDigest ≠ (0 : Nat)) .derivativeDigestMustBeNonZero
  assertThat (inputs.parametersDigest ≠ (0 : Nat)) .parametersDigestMustBeNonZero
  assertThat (inputs.ancestryRoot ≠ (0 : Nat)) .ancestryRootMustBeNonZero
  assertThat (inputs.nullifier ≠ (0 : Nat)) .nullifierMustBeNonZero
  assertThat (w.credentialSecret ≠ (0 : Nat)) .credentialSecretMustBeNonZero
  assertThat (w.nullifierSecret ≠ (0 : Nat)) .nullifierSecretMustBeNonZero
  assertThat (w.parentBlinding ≠ (0 : Nat)) .parentBlindingMustBeNonZero
  assertThat (w.redactionSeed ≠ (0 : Nat)) .redactionSeedMustBeNonZero
  assertThat (inputs.parentCommitment ≠ inputs.derivativeDigest) .ancestryCycleDetected
  let derivedParent := deriveParentCommitment pedersenHash w.parentHashHi w.parentHashLo
    w.parentBlinding
  assertThat (derivedParent = inputs.parentCommitment) .parentCommitmentMismatch
  let derivedParams := deriveParametersDigest pedersenHash w.maskCommitment w.redactionSeed
  assertThat (derivedParams = inputs.parametersDigest) .parametersDigestMismatch
  let derivedDerivative := deriveDerivativeDigest pedersenHash w.parentHashHi w.parentHashLo
    derivedParams w.redactionSeed
  assertThat (derivedDerivative = inputs.derivativeDigest) .derivativeDigestMismatch
  let derivedRoot := deriveAncestryRoot pedersenHash derivedParent derivedDerivative derivedParams
    inputs.depth
  assertThat (derivedRoot = inputs.ancestryRoot) .ancestryRootMismatch
  let derivedNullifier := deriveNullifier pedersenHash w.credentialSecret w.nullifierSecret
    derivedRoot
  assertThat (derivedNullifier = inputs.nullifier) .nullifierMismatch
  assertThat (inputs.domainTag = expectedDomainTag pedersenHash) .domainTagMismatch

/-- What the circuit ties to each other: every input follows from the one it is hashed into. -/
structure Bound (w : Witness F) (inputs : PublicInputs F) : Prop where
  operation : inputs.operationType = OPERATION_REDACT
  depth : inputs.depth = MIN_ANCESTRY_DEPTH ∨ inputs.depth = (2 : Nat) ∨
    inputs.depth = (3 : Nat) ∨ inputs.depth = MAX_ANCESTRY_DEPTH
  parameters : inputs.parametersDigest =
    deriveParametersDigest pedersenHash w.maskCommitment w.redactionSeed
  derivative : inputs.derivativeDigest = deriveDerivativeDigest pedersenHash w.parentHashHi
    w.parentHashLo inputs.parametersDigest w.redactionSeed
  root : inputs.ancestryRoot = deriveAncestryRoot pedersenHash inputs.parentCommitment
    inputs.derivativeDigest inputs.parametersDigest inputs.depth
  nullifier : inputs.nullifier = deriveNullifier pedersenHash w.credentialSecret
    w.nullifierSecret inputs.ancestryRoot
  domain : inputs.domainTag = expectedDomainTag pedersenHash

variable {pedersenHash} {w w' : Witness F} {inputs inputs' : PublicInputs F}

theorem main_bound (h : main pedersenHash w inputs=.ok ()) : Bound pedersenHash w inputs := by
  simp only [main,unit_bind_ok,assertThat_ok,assertValidDepth] at h
  obtain ⟨hoperation,hdepth,-,-,-,-,-,-,-,-,-,-,hparent,hparams,hderivative,hroot,hnullifier,
    hdomain⟩ := h
  rw [hparams] at hderivative
  rw [hparent,hparams,hderivative] at hroot hnullifier
  rw [hroot] at hnullifier
  exact ⟨hoperation,hdepth,hparams.symm,hderivative.symm,hroot.symm,hnullifier.symm,hdomain⟩

/-- The nullifier stands for the whole statement, and the digest of the derivative for the parent
and the parameters of the redaction. -/
theorem statement_bound (hfree : Function.Injective pedersenHash)
    (h : main pedersenHash w inputs = .ok ()) (h' : main pedersenHash w' inputs' = .ok ()) :
    (inputs.nullifier = inputs'.nullifier → inputs = inputs') ∧
    (inputs.derivativeDigest = inputs'.derivativeDigest →
      w.parentHashHi = w'.parentHashHi ∧ w.parentHashLo = w'.parentHashLo ∧
      w.maskCommitment = w'.maskCommitment ∧ w.redactionSeed = w'.redactionSeed) := by
  have hb := main_bound h
  have hb' := main_bound h'
  constructor
  · intro hnullifier
    have hroot : inputs.ancestryRoot=inputs'.ancestryRoot := by
      have hhash := hb.nullifier.symm.trans (hnullifier.trans hb'.nullifier)
      have hpreimage := hfree hhash
      simp only [List.cons.injEq] at hpreimage
      exact hpreimage.2.2.2.1
    have hpreimage := hfree (hb.root.symm.trans (hroot.trans hb'.root))
    simp only [List.cons.injEq] at hpreimage
    obtain ⟨-,hparent,hderivative,hparams,-,hdepth,-⟩ := hpreimage
    have hoperation := hb.operation.trans hb'.operation.symm
    have hdomain := hb.domain.trans hb'.domain.symm
    exact PublicInputs.ext hparent hderivative hparams hoperation hroot hnullifier hdepth hdomain
  · intro hderivative
    have hpreimage := hfree (hb.derivative.symm.trans (hderivative.trans hb'.derivative))
    simp only [List.cons.injEq] at hpreimage
    obtain ⟨-,hhi,hlo,hparams,hseed,-⟩ := hpreimage
    have hmask := hfree (hb.parameters.symm.trans (hparams.trans hb'.parameters))
    simp only [List.cons.injEq] at hmask
    exact ⟨hhi,hlo,hmask.2.1,hseed⟩

end

def redaction : Witness Nat := ⟨11111,22222,33333,44444,55555,12345,67890⟩

def redacted : PublicInputs Nat :=
  let parent := deriveParentCommitment freeHash 11111 22222 33333
  let params := deriveParametersDigest freeHash 44444 55555
  let derivative := deriveDerivativeDigest freeHash 11111 22222 params 55555
  let root := deriveAncestryRoot freeHash parent derivative params 1
  ⟨parent,derivative,params,OPERATION_REDACT,root,deriveNullifier freeHash 12345 67890 root,1,
    expectedDomainTag freeHash⟩

theorem redacted_ok : main freeHash redaction redacted=.ok () := by
  have hne : ∀ l : List Nat, l≠[] → freeHash l≠0 := by
    intro l hl hzero
    exact hl (freeHash_injective hzero)
  simp only [main,unit_bind_ok,assertThat_ok,assertValidDepth]
  refine ⟨rfl,.inl rfl,hne _ (by simp),hne _ (by simp),hne _ (by simp),hne _ (by simp),
    hne _ (by simp),by decide,by decide,by decide,by decide,?_,rfl,rfl,rfl,rfl,rfl,rfl⟩
  intro hcycle
  have hlength := congrArg List.length (freeHash_injective hcycle)
  simp at hlength

theorem statement_bound_redacted :
    ∃ (w : Witness Nat) (inputs : PublicInputs Nat), main freeHash w inputs = .ok () ∧
      inputs = redacted ∧ w.parentHashHi = 11111 ∧ w.parentHashLo = 22222 ∧
      w.maskCommitment = 44444 ∧ w.redactionSeed = 55555 := by
  obtain ⟨hstatement,hopening⟩ := statement_bound freeHash_injective redacted_ok redacted_ok
  exact ⟨redaction,redacted,redacted_ok,hstatement rfl,hopening rfl⟩

end Harpocrates.Circuits.RedactedAncestry
