import Mathlib.Logic.Equiv.List
import Harpocrates.Framework.Fallible

namespace Harpocrates.Circuits

open Framework.Fallible

/-! What the circuits share. A circuit is a sequence of assertions about field elements; the hash
is a parameter. -/

/-- The messages of the assertions. -/
inductive Failure
  | malformed | unsupported | revoked | domainMismatch
  | depthUndersize | depthOversize | depthNonPowerOfTwo
  | batchCredentialRootMismatch | batchNullifierMismatch
  | operationMustBeRedact | ancestryDepthOutOfRange | ancestryCycleDetected
  | parentCommitmentMustBeNonZero | derivativeDigestMustBeNonZero
  | parametersDigestMustBeNonZero | ancestryRootMustBeNonZero | nullifierMustBeNonZero
  | credentialSecretMustBeNonZero | nullifierSecretMustBeNonZero
  | parentBlindingMustBeNonZero | redactionSeedMustBeNonZero
  | parentCommitmentMismatch | parametersDigestMismatch | derivativeDigestMismatch
  | ancestryRootMismatch | nullifierMismatch | domainTagMismatch
  | unsupportedPredicateType | circuitVersionMismatch | oversized
  | predicateCommitmentMismatch
  deriving DecidableEq

def assertThat (condition : Prop) [Decidable condition] (message : Failure) :
    Except Failure Unit :=
  if condition then .ok () else .error message

theorem assertThat_ok {condition : Prop} [Decidable condition] {message : Failure} :
    assertThat condition message=.ok () ↔ condition := by
  by_cases h : condition
  · simp [assertThat,h]
  · simp [assertThat,h]

theorem forM_assertThat {α : Type} {l : List α} {P : α → Prop} [DecidablePred P]
    {message : Failure} :
    (forM l fun a => assertThat (P a) message)=.ok () ↔ ∀ a∈l, P a := by
  simp only [forM_ok,assertThat_ok]

def freeHash : List Nat → Nat := Encodable.encode

theorem freeHash_injective : Function.Injective freeHash := Encodable.encode_injective

section

variable {F : Type} [NatCast F] (pedersenHash : List F → F)

def DIGEST_ALGORITHM_SHA256 : F := (0 : Nat)

def SCOPED_NULLIFIER_V1 : F :=
  (0x00484152504f4352415445535f53434f5045445f4e554c4c49464945525f5631 : Nat)

def DOMAIN_PROTOCOL_FIELD : F :=
  (0x261e9f6e39e3c1ae6aca9f29e84c10d59c82d5f4b40c21c1b7e3c01ad571c201 : Nat)

def DOMAIN_VERSION_FIELD : F :=
  (0x0c89eff4ec8e39a01e9f19547a0cc9dd7fd2a97d79ba4d94fd32e97a1f5ac623 : Nat)

def DOMAIN_NETWORK_FIELD : F :=
  (0x2a2c3f48ce2e3c2f1e6c89b18d64b5f5c1f88a59a0d9bc82cb61a1e8cb77a50f : Nat)

def expectedDomainTag : F :=
  pedersenHash [DOMAIN_PROTOCOL_FIELD,DOMAIN_VERSION_FIELD,DOMAIN_NETWORK_FIELD]

def computeScopedNullifier (cs ns vhi vlo scope ep : F) : F :=
  let scopeHash := pedersenHash [SCOPED_NULLIFIER_V1,scope,ep]
  let evidence := pedersenHash [DIGEST_ALGORITHM_SHA256,vhi,vlo,scopeHash]
  pedersenHash [cs,ns,evidence]

end

end Harpocrates.Circuits
