import Harpocrates.Codec.Layout
import Harpocrates.Framework.ByteCompare

namespace Harpocrates.Codec.Contract

open Framework Registry List

def SILENT_WITNESS_PUBLIC_INPUTS_LEN : Nat := 160
def SILENT_WITNESS_V2_PUBLIC_INPUTS_LEN : Nat := 256
def REVOCATION_PUBLIC_INPUTS_LEN : Nat := 128

def BN254_SCALAR_FIELD_MODULUS_BE : Bytes32 :=
  ⟨[0x30,0x64,0x4e,0x72,0xe1,0x31,0xa0,0x29,0xb8,0x50,0x45,0xb6,0x81,0x81,0x58,0x5d,
    0x28,0x33,0xe8,0x48,0x79,0xb9,0x70,0x91,0x43,0xe1,0xf5,0x93,0xf0,0x00,0x00,0x01],rfl⟩

def isCanonicalField (element : Bytes32) : Bool :=
  lexLt element.1 BN254_SCALAR_FIELD_MODULUS_BE.1

def isZero (element : Bytes32) : Bool := orAll element.1 == 0

def hasHalfPadding (element : Bytes32) : Bool := orAll (element.1.take 16) == 0

def constantTimeEq (left right : Bytes) : Bool :=
  if left.length ≠ right.length then false else xorAll left right == 0

def checkProofBounds (proofLen : Nat) : Except RejectCode Unit :=
  if proofLen < MIN_PROOF_BYTES then .error .ProofUndersize
  else if proofLen > MAX_PROOF_BYTES then .error .ProofOversize
  else .ok ()

structure SilentWitnessFields where
  videoHash : Bytes32
  credentialRoot : Bytes32
  nullifier : Bytes32
  domainTag : Bytes32
  circuitVersion : Nat

structure ScopedSilentWitnessFields where
  videoHash : Bytes32
  credentialRoot : Bytes32
  nullifier : Bytes32
  verifierScope : Bytes32
  epoch : Bytes32
  domainTag : Bytes32
  circuitVersion : Nat

structure RevocationFields where
  revocationRoot : Bytes32
  nullifier : Bytes32
  domainSeparator : Bytes32
  credentialRoot : Bytes32

def joinHalves (high low : Bytes32) : Bytes32 :=
  ⟨high.1.drop 16++low.1.drop 16,by simp [high.2,low.2]⟩

def parseSilentWitness (frame : Bytes) (expectedDomain : Bytes32) :
    Except RejectCode SilentWitnessFields :=
  if frame.length ≠ SILENT_WITNESS_PUBLIC_INPUTS_LEN then .error .Length
  else
    let fields := fieldAt frame
    if !hasHalfPadding (fields 0) || !hasHalfPadding (fields 1) then .error .Padding
    else if ([0,1,2,3].map fields).any (!isCanonicalField ·) then .error .NonCanonicalField
    else if isZero (fields 2) || isZero (fields 3) || isZero (fields 4) then .error .ZeroField
    else if !constantTimeEq (fields 4).1 expectedDomain.1 then .error .DomainMismatch
    else
      .ok
        { videoHash := joinHalves (fields 0) (fields 1)
          credentialRoot := fields 2
          nullifier := fields 3
          domainTag := fields 4
          circuitVersion := 1 }

def parseSilentWitnessV2 (frame : Bytes) (expectedDomain : Bytes32) :
    Except RejectCode ScopedSilentWitnessFields :=
  if frame.length ≠ SILENT_WITNESS_V2_PUBLIC_INPUTS_LEN then .error .Length
  else
    let fields := fieldAt frame
    if !hasHalfPadding (fields 0) || !hasHalfPadding (fields 1) then .error .Padding
    else if circuitVersionOf (fields 7) ≠ EXPECTED_CIRCUIT_VERSION then .error .VersionMismatch
    else if ([0,1,2,3,4,5].map fields).any (!isCanonicalField ·) then .error .NonCanonicalField
    else if isZero (fields 2) || isZero (fields 3) || isZero (fields 6) then .error .ZeroField
    else if !constantTimeEq (fields 6).1 expectedDomain.1 then .error .DomainMismatch
    else
      .ok
        { videoHash := joinHalves (fields 0) (fields 1)
          credentialRoot := fields 2
          nullifier := fields 3
          verifierScope := fields 4
          epoch := fields 5
          domainTag := fields 6
          circuitVersion := EXPECTED_CIRCUIT_VERSION }

def parseRevocationWitness (frame : Bytes) (expectedDomain : Bytes32) :
    Except RejectCode RevocationFields :=
  if frame.length ≠ REVOCATION_PUBLIC_INPUTS_LEN then .error .Length
  else
    let fields := fieldAt frame
    if ([0,1,2,3].map fields).any (!isCanonicalField ·) then .error .NonCanonicalField
    else if isZero (fields 0) || isZero (fields 1) || isZero (fields 3) then .error .ZeroField
    else if !constantTimeEq (fields 2).1 expectedDomain.1 then .error .DomainMismatch
    else
      .ok
        { revocationRoot := fields 0
          nullifier := fields 1
          domainSeparator := fields 2
          credentialRoot := fields 3 }

def classify (schema : String) (publicInputs : Bytes) (proofLen : Nat) (expectedDomain : Bytes32) :
    Except RejectCode Unit :=
  if schema ≠ SCHEMA_SILENT_WITNESS ∧ schema ≠ SCHEMA_SILENT_WITNESS_V2 ∧
      schema ≠ SCHEMA_REVOCATION_WITNESS then .error .UnknownSchema
  else if schema = SCHEMA_SILENT_WITNESS then do
    let _ ← parseSilentWitness publicInputs expectedDomain
    checkProofBounds proofLen
  else if schema = SCHEMA_SILENT_WITNESS_V2 then do
    let _ ← parseSilentWitnessV2 publicInputs expectedDomain
    checkProofBounds proofLen
  else do
    let _ ← parseRevocationWitness publicInputs expectedDomain
    checkProofBounds proofLen

theorem modulus_eq : beNat BN254_SCALAR_FIELD_MODULUS_BE.1=BN254_SCALAR_FIELD_MODULUS := by
  decide +kernel

theorem isCanonicalField_eq (f : Bytes32) :
    isCanonicalField f=decide (beNat f.1<BN254_SCALAR_FIELD_MODULUS) := by
  have hlen : f.1.length=BN254_SCALAR_FIELD_MODULUS_BE.1.length := f.2
  rw [Bool.eq_iff_iff,isCanonicalField,lexLt_iff hlen,modulus_eq,decide_eq_true_iff]

theorem isZero_eq (f : Bytes32) : isZero f=decide (f=zero32) := by
  have hzero : beNat f.1=0 ↔ f=zero32 := by
    refine ⟨fun h => Subtype.ext (beNat_inj (f.2.trans zero32.2.symm) (h.trans ?_)),fun h => ?_⟩
    · decide +kernel
    · rw [h]
      decide +kernel
  rw [Bool.eq_iff_iff,isZero,beq_iff_eq,orAll_eq_zero,← beNat_eq_zero,hzero,decide_eq_true_iff]

theorem hasHalfPadding_eq (f : Bytes32) : hasHalfPadding f=decide (beNat f.1<2^128) := by
  have hhalf : beNat f.1<2^128 ↔ _ := beNat_lt_iff (m := 16) (n := 16) f.2
  rw [Bool.eq_iff_iff,hasHalfPadding,beq_iff_eq,orAll_eq_zero,← hhalf,decide_eq_true_iff]

theorem constantTimeEq_eq (f g : Bytes32) : constantTimeEq f.1 g.1=decide (f=g) := by
  have hlen : f.1.length=g.1.length := f.2.trans g.2.symm
  rw [Bool.eq_iff_iff,constantTimeEq,if_neg (not_not.2 hlen),beq_iff_eq,xorAll_eq_zero hlen,
    decide_eq_true_iff,Subtype.ext_iff]

theorem circuitVersionOf_eq (f : Bytes32) :
    circuitVersionOf f=EXPECTED_CIRCUIT_VERSION ↔ beNat f.1=EXPECTED_CIRCUIT_VERSION := by
  have hfits : beNat f.1<256^4 ↔ _ := beNat_lt_iff (m := 28) f.2
  by_cases hlow : beNat f.1<256^4
  · rw [circuitVersionOf,if_pos (hfits.1 hlow),← beNat_of_lt (m := 28) f.2 hlow]
  · rw [circuitVersionOf,if_neg fun h => hlow (hfits.2 h),EXPECTED_CIRCUIT_VERSION]
    omega

section

variable (frame : Bytes)

theorem padding_iff (i j : Nat) :
    (!hasHalfPadding (fieldAt frame i) || !hasHalfPadding (fieldAt frame j))=true ↔
      ¬ ∀ k∈[i,j], beNat (fieldAt frame k).1<2^128 := by
  rw [hasHalfPadding_eq,hasHalfPadding_eq,Bool.or_eq_true,Bool.not_eq_true',Bool.not_eq_true',
    decide_eq_false_iff_not,decide_eq_false_iff_not,← not_and_or]
  simp only [forall_mem_cons,not_mem_nil,false_imp_iff,implies_true,and_true]

theorem canonical_iff (is : List Nat) :
    (is.map (fieldAt frame)).any (!isCanonicalField ·)=true ↔
      ¬ ∀ i∈is, beNat (fieldAt frame i).1<BN254_SCALAR_FIELD_MODULUS := by
  simp [isCanonicalField_eq]

theorem zero_iff (i j k : Nat) :
    (isZero (fieldAt frame i) || isZero (fieldAt frame j) || isZero (fieldAt frame k))=true ↔
      ¬ ∀ m∈[i,j,k], fieldAt frame m≠zero32 := by
  rw [isZero_eq,isZero_eq,isZero_eq,Bool.or_eq_true,Bool.or_eq_true,decide_eq_true_iff,
    decide_eq_true_iff,decide_eq_true_iff]
  simp only [forall_mem_cons,not_mem_nil,false_imp_iff,implies_true,and_true,ne_eq,
    not_and_or,not_not,or_assoc]

theorem domain_iff (f g : Bytes32) : (!constantTimeEq f.1 g.1)=true ↔ f≠g := by
  rw [constantTimeEq_eq,Bool.not_eq_true',decide_eq_false_iff_not]

theorem version_iff (i : Nat) : circuitVersionOf (fieldAt frame i)≠EXPECTED_CIRCUIT_VERSION ↔
    ¬ ∀ k∈[i], beNat (fieldAt frame k).1=EXPECTED_CIRCUIT_VERSION := by
  rw [Ne,circuitVersionOf_eq,forall_mem_singleton]

end

def SilentWitnessFields.values (fields : SilentWitnessFields) : PublicInputs :=
  .silentWitness fields.videoHash.1 fields.credentialRoot.1 fields.nullifier.1 fields.domainTag.1

def ScopedSilentWitnessFields.values (fields : ScopedSilentWitnessFields) : PublicInputs :=
  .silentWitnessV2 fields.videoHash.1 fields.credentialRoot.1 fields.nullifier.1
    fields.verifierScope.1 fields.epoch.1 fields.domainTag.1 fields.circuitVersion

def RevocationFields.values (fields : RevocationFields) : PublicInputs :=
  .revocationWitness fields.revocationRoot.1 fields.nullifier.1 fields.domainSeparator.1
    fields.credentialRoot.1

theorem parseSilentWitness_eq (frame : Bytes) :
    (parseSilentWitness frame SILENT_WITNESS_DOMAIN_TAG_BE).map SilentWitnessFields.values =
      (Schema.silentWitness.layout.code frame).map fun _ => Schema.silentWitness.read frame := by
  rw [parseSilentWitness,Schema.layout,Layout.code]
  simp only [padding_iff,canonical_iff,zero_iff,domain_iff,Layout.ite_error_map]
  simp only [not_mem_nil,false_imp_iff,implies_true,not_true_eq_false,if_false]
  rfl

theorem parseSilentWitnessV2_eq (frame : Bytes) :
    (parseSilentWitnessV2 frame SILENT_WITNESS_DOMAIN_TAG_BE).map
        ScopedSilentWitnessFields.values =
      (Schema.silentWitnessV2.layout.code frame).map fun _ =>
        Schema.silentWitnessV2.read frame := by
  rw [parseSilentWitnessV2,Schema.layout,Layout.code]
  simp only [padding_iff,version_iff,canonical_iff,zero_iff,domain_iff,Layout.ite_error_map]
  rfl

theorem parseRevocationWitness_eq (frame : Bytes) :
    (parseRevocationWitness frame REVOCATION_DOMAIN_SEPARATOR).map RevocationFields.values =
      (Schema.revocationWitness.layout.code frame).map fun _ =>
        Schema.revocationWitness.read frame := by
  rw [parseRevocationWitness,Schema.layout,Layout.code]
  simp only [canonical_iff,zero_iff,domain_iff,Layout.ite_error_map]
  simp only [not_mem_nil,false_imp_iff,implies_true,not_true_eq_false,if_false]
  rfl

/-- The domain tag that callers of `classify` give for a schema. -/
def expectedDomain (schema : String) : Bytes32 :=
  if schema = SCHEMA_REVOCATION_WITNESS then REVOCATION_DOMAIN_SEPARATOR
  else SILENT_WITNESS_DOMAIN_TAG_BE

/-- The verdict of the contract: a code, or the values of the frame. -/
def verdict (schema : String) (publicInputs : Bytes) (proofLen : Nat) :
    Except RejectCode PublicInputs := do
  classify schema publicInputs proofLen (expectedDomain schema)
  if schema = SCHEMA_SILENT_WITNESS then
    (parseSilentWitness publicInputs (expectedDomain schema)).map SilentWitnessFields.values
  else if schema = SCHEMA_SILENT_WITNESS_V2 then
    (parseSilentWitnessV2 publicInputs (expectedDomain schema)).map
      ScopedSilentWitnessFields.values
  else (parseRevocationWitness publicInputs (expectedDomain schema)).map RevocationFields.values

/-- Parsing, checking the proof and parsing again gives the code or the values. -/
theorem parse_twice {α : Type} {parsed : Except RejectCode α} {values : α → PublicInputs}
    {code bounds : Except RejectCode Unit} {read : PublicInputs}
    (h : parsed.map values=code.map fun _ => read) :
    ((parsed >>= fun _ => bounds) >>= fun _ => parsed.map values) =
      code >>= fun _ => bounds >>= fun _ => pure read := by
  cases code with
  | error e =>
    cases parsed with
    | error e' =>
      cases h
      rfl
    | ok a => cases h
  | ok u =>
    cases parsed with
    | error e' => cases h
    | ok a =>
      rw [h]
      rfl

theorem verdict_eq (schema : String) (publicInputs : Bytes) (proofLen : Nat) :
    verdict schema publicInputs proofLen=Codec.verdict schema publicInputs proofLen := by
  by_cases h1 : schema=SCHEMA_SILENT_WITNESS
  · subst h1
    exact parse_twice (parseSilentWitness_eq publicInputs)
  · by_cases h2 : schema=SCHEMA_SILENT_WITNESS_V2
    · subst h2
      exact parse_twice (parseSilentWitnessV2_eq publicInputs)
    · by_cases h3 : schema=SCHEMA_REVOCATION_WITNESS
      · subst h3
        exact parse_twice (parseRevocationWitness_eq publicInputs)
      · simp only [verdict,classify,Codec.verdict,Schema.ofName,if_neg h1,if_neg h2,if_neg h3]
        rw [if_pos ⟨h1,h2,h3⟩]
        rfl

end Harpocrates.Codec.Contract
