import Harpocrates.Registry.CredentialRoots
import Harpocrates.Registry.Verifier
import Harpocrates.Registry.PublicInputs

namespace Harpocrates.Registry

open Framework

def MAX_REVOCATION_ROOT_HISTORY : Nat := 4
def DEFAULT_REVOCATION_ROOT_GRACE_LEDGERS : Nat := 120
def MAX_REVOCATION_ROOT_GRACE_LEDGERS : Nat := 17280

def setRevocationRoot (env : Env) (admin : Address) (root : Bytes32) : M Unit := do
  requireAdmin env admin
  requireNoCouncil env
  let previous := (← load .RevocationRoots).getD []
  store .RevocationRoot root
  store .RevocationRoots (env.revocationHistory previous root env.sequence)

def setRevocationRootGraceWindow (env : Env) (admin : Address) (graceLedgers : Nat) :
    M Unit := do
  requireAdmin env admin
  panicIf (graceLedgers > MAX_REVOCATION_ROOT_GRACE_LEDGERS) .InvalidPublicInputs
  store .RevocationRootGraceWindow graceLedgers

/-- Whether an earlier root is still accepted: its first entry in the history decides, by
the ledgers since its activation and since the next root replaced it. -/
def rootWithinGrace (currentLedger graceLedgers : Nat) (root : Bytes32) :
    List RevocationRootEntry → Bool
  | [] => false
  | entry::rest =>
    if entry.root = root then
      let referenceLedger :=
        match rest with
        | next::_ => next.activationLedger
        | [] => entry.activationLedger
      graceLedgers > 0 && currentLedger-entry.activationLedger ≤ graceLedgers &&
        currentLedger-referenceLedger ≤ graceLedgers
    else rootWithinGrace currentLedger graceLedgers root rest

def acceptsRevocationRoot (env : Env) (s : Storage) (stored root : Bytes32) : Bool :=
  root == stored ||
    rootWithinGrace env.sequence
      ((s .RevocationRootGraceWindow).getD DEFAULT_REVOCATION_ROOT_GRACE_LEDGERS) root
      ((s .RevocationRoots).getD [])

/-- Verify a non-revocation proof and consume its nullifier. Whether the nullifier was
consumed before is not asked. -/
def checkNonRevocation (env : Env) (publicInputs proof : Bytes) : M Unit := do
  let parsed ← ofExcept (parseRevocationPublicInputs publicInputs)
  panicIf (parsed.domainSeparator != REVOCATION_DOMAIN_SEPARATOR) .InvalidPublicInputs
  let storedRoot ← expect (← load .RevocationRoot) .NotInitialized
  panicIf (!(← Tx.gets (acceptsRevocationRoot env · storedRoot parsed.revocationRoot)))
    .InvalidPublicInputs
  requireActiveCredentialRoot env parsed.credentialRoot
  let verifier ← getActiveVerifier
  requireVerifiedProof env verifier CIRCUIT_VERSION_REVOCATION_WITNESS publicInputs proof
  store (.VerifierNullifier verifier parsed.nullifier) true

def getSchemaRecord (schemaHash : Bytes32) : M SchemaRecord := do
  expect (← load (.Schema schemaHash)) .UnknownSchema

def addSchema (env : Env) (admin : Address) (schemaHash issuerNamespace : Bytes32)
    (version attributeCount : Nat) : M Unit := do
  requireAdmin env admin
  panicIf (← has (.Schema schemaHash)) .DuplicateProof
  panicIf (attributeCount == 0 || attributeCount > 16) .InvalidPublicInputs
  store (.Schema schemaHash)
    { schemaHash, issuerNamespace, version
      active := true
      attributeCount
      createdAt := env.timestamp }

def deprecateSchema (env : Env) (admin : Address) (schemaHash : Bytes32) : M Unit := do
  requireAdmin env admin
  let record ← getSchemaRecord schemaHash
  store (.Schema schemaHash) { record with active := false }

/-- Verify a selective disclosure and consume its nullifier, again without asking whether it
was consumed before. -/
def verifySelectiveDisclosure (env : Env) (publicInputs proof : Bytes) : M Unit := do
  let parsed ← ofExcept (parseSelectiveDisclosureInputs publicInputs)
  panicIf (parsed.circuitVersion != CURRENT_SELECTIVE_DISCLOSURE_VERSION) .SchemaVersionMismatch
  let schema ← getSchemaRecord parsed.schemaHash
  panicIf (!schema.active) .InactiveSchema
  panicIf (schema.version != parsed.schemaVersion) .SchemaVersionMismatch
  panicIf (schema.issuerNamespace != parsed.issuerNamespace) .InvalidPublicInputs
  requireActiveCredentialRoot env parsed.credentialRoot
  let verifier ← getActiveVerifier
  requireVerifiedProof env verifier CIRCUIT_VERSION_SELECTIVE_DISCLOSURE publicInputs proof
  store (.VerifierNullifier verifier parsed.nullifier) true

end Harpocrates.Registry
