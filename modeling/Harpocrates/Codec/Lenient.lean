import Harpocrates.Codec.Contract
import Harpocrates.Registry.FrameFields

namespace Harpocrates.Codec

open Framework Registry

/-! The codec as an entry point of the contract, next to the parsers that registration and
revocation use. -/

def SCHEMA_ID_SILENT_WITNESS : Nat := 1
def SCHEMA_ID_REVOCATION_WITNESS : Nat := 2
def SCHEMA_ID_SILENT_WITNESS_V2 : Nat := 3

def ACCEPTED_CODE : Nat := 0

def codeOf : Except RejectCode Unit → Nat
  | .ok _ => ACCEPTED_CODE
  | .error code => code.asCode

def classifyPublicInputs (schemaId : Nat) (publicInputs : Bytes) (proofLen : Nat) : Nat :=
  if schemaId ≠ SCHEMA_ID_SILENT_WITNESS ∧ schemaId ≠ SCHEMA_ID_SILENT_WITNESS_V2 ∧
      schemaId ≠ SCHEMA_ID_REVOCATION_WITNESS then RejectCode.UnknownSchema.asCode
  else
    let expectedLen :=
      if schemaId = SCHEMA_ID_SILENT_WITNESS then SILENT_WITNESS_V1_INPUT_LEN
      else if schemaId = SCHEMA_ID_SILENT_WITNESS_V2 then
        Contract.SILENT_WITNESS_V2_PUBLIC_INPUTS_LEN
      else REVOCATION_PUBLIC_INPUTS_LEN
    if publicInputs.length ≠ expectedLen then RejectCode.Length.asCode
    else
      let parsed : Except RejectCode Unit :=
        if schemaId = SCHEMA_ID_SILENT_WITNESS then
          (Contract.parseSilentWitness publicInputs SILENT_WITNESS_DOMAIN_TAG_BE).map fun _ => ()
        else if schemaId = SCHEMA_ID_SILENT_WITNESS_V2 then
          (Contract.parseSilentWitnessV2 publicInputs SILENT_WITNESS_DOMAIN_TAG_BE).map fun _ => ()
        else
          (Contract.parseRevocationWitness publicInputs REVOCATION_DOMAIN_SEPARATOR).map
            fun _ => ()
      codeOf (parsed >>= fun _ => Contract.checkProofBounds proofLen)

theorem RejectCode.asCode_ne (code : RejectCode) : code.asCode≠ACCEPTED_CODE := by
  cases code <;> decide

variable {publicInputs : Bytes} {proofLen : Nat}

theorem parsed_of_accepted {α : Type} (len : Nat) (parsed : Except RejectCode α)
    (h : (if publicInputs.length≠len then RejectCode.Length.asCode
      else codeOf (parsed.map (fun _ => ()) >>= fun _ => Contract.checkProofBounds proofLen)) =
        ACCEPTED_CODE) : ∃ fields, parsed=.ok fields := by
  by_cases hlen : publicInputs.length≠len
  · rw [if_pos hlen] at h
    exact absurd h (RejectCode.asCode_ne _)
  · rw [if_neg hlen] at h
    cases parsed with
    | ok fields => exact ⟨fields,rfl⟩
    | error code => exact absurd h code.asCode_ne

theorem joinHalves_eq (h : 64≤publicInputs.length) :
    Contract.joinHalves (fieldAt publicInputs 0) (fieldAt publicInputs 1) =
      videoHashAt publicInputs 0 := by
  have hfield : ∀ i, i*FIELD_LEN+32≤publicInputs.length →
      (fieldAt publicInputs i).1.drop 16=(BytesN.read 16 publicInputs (i*FIELD_LEN+16)).1 := by
    intro i hi
    have hval : (fieldAt publicInputs i).1=(publicInputs.drop (i*FIELD_LEN)).take 32 :=
      BytesN.read_val hi
    rw [hval,BytesN.read_val (by omega),List.drop_take,List.drop_drop]
  refine Subtype.ext ?_
  change (fieldAt publicInputs 0).1.drop 16++(fieldAt publicInputs 1).1.drop 16 = _
  rw [hfield 0 (by rw [FIELD_LEN]; omega),hfield 1 (by rw [FIELD_LEN]; omega)]
  rfl

theorem silentWitness_of_accepted
    (h : classifyPublicInputs SCHEMA_ID_SILENT_WITNESS publicInputs proofLen=ACCEPTED_CODE) :
    ∃ fields,
      Contract.parseSilentWitness publicInputs SILENT_WITNESS_DOMAIN_TAG_BE=.ok fields ∧
      parseSilentWitnessPublicInputs publicInputs=.ok
        { videoHash := fields.videoHash
          credentialRoot := fields.credentialRoot
          nullifier := fields.nullifier
          domainTag := fields.domainTag } := by
  obtain ⟨fields,hfields⟩ := parsed_of_accepted SILENT_WITNESS_V1_INPUT_LEN
    (Contract.parseSilentWitness publicInputs SILENT_WITNESS_DOMAIN_TAG_BE) h
  refine ⟨fields,hfields,?_⟩
  simp only [Contract.parseSilentWitness] at hfields
  split_ifs at hfields with hlen
  have hlen : publicInputs.length=SILENT_WITNESS_V1_INPUT_LEN := not_not.1 hlen
  cases hfields
  rw [parseSilentWitnessPublicInputs,if_neg (not_not.2 hlen)]
  dsimp only
  rw [joinHalves_eq (by rw [hlen]; decide)]
  rfl

theorem revocationWitness_of_accepted
    (h : classifyPublicInputs SCHEMA_ID_REVOCATION_WITNESS publicInputs proofLen =
      ACCEPTED_CODE) :
    ∃ fields,
      Contract.parseRevocationWitness publicInputs REVOCATION_DOMAIN_SEPARATOR=.ok fields ∧
      parseRevocationPublicInputs publicInputs=.ok
        { revocationRoot := fields.revocationRoot
          nullifier := fields.nullifier
          domainSeparator := fields.domainSeparator
          credentialRoot := fields.credentialRoot } := by
  obtain ⟨fields,hfields⟩ := parsed_of_accepted REVOCATION_PUBLIC_INPUTS_LEN
    (Contract.parseRevocationWitness publicInputs REVOCATION_DOMAIN_SEPARATOR) h
  refine ⟨fields,hfields,?_⟩
  simp only [Contract.parseRevocationWitness] at hfields
  split_ifs at hfields with hlen
  have hlen : publicInputs.length=REVOCATION_PUBLIC_INPUTS_LEN := not_not.1 hlen
  cases hfields
  rw [parseRevocationPublicInputs,if_neg (not_not.2 hlen)]
  rfl

theorem silentWitnessV2_of_accepted
    (h : classifyPublicInputs SCHEMA_ID_SILENT_WITNESS_V2 publicInputs proofLen =
      ACCEPTED_CODE) :
    ∃ fields,
      Contract.parseSilentWitnessV2 publicInputs SILENT_WITNESS_DOMAIN_TAG_BE=.ok fields ∧
      parseScopedSilentWitnessPublicInputs publicInputs=.ok
        { videoHash := fields.videoHash
          credentialRoot := fields.credentialRoot
          nullifier := fields.nullifier
          verifierScope := fields.verifierScope
          epoch := bytesToU64Be fields.epoch
          domainTag := fields.domainTag } := by
  obtain ⟨fields,hfields⟩ := parsed_of_accepted Contract.SILENT_WITNESS_V2_PUBLIC_INPUTS_LEN
    (Contract.parseSilentWitnessV2 publicInputs SILENT_WITNESS_DOMAIN_TAG_BE) h
  refine ⟨fields,hfields,?_⟩
  simp only [Contract.parseSilentWitnessV2] at hfields
  split_ifs at hfields with hlen _ hversion
  have hlen : publicInputs.length=SILENT_WITNESS_V2_ENVELOPED_INPUT_LEN := not_not.1 hlen
  have hversion : ¬ circuitVersionOf (field publicInputs CIRCUIT_VERSION_TRAILER_OFFSET) ≠
    EXPECTED_CIRCUIT_VERSION := hversion
  cases hfields
  rw [parseScopedSilentWitnessPublicInputs,if_neg (not_not.2 hlen),if_neg hversion]
  dsimp only
  rw [joinHalves_eq (by rw [hlen]; decide)]
  rfl

/-- What the codec accepts, the parsers of registration and revocation read with the same values,
except that they narrow the epoch to a `u64`. -/
theorem lenient_parsers_agree (publicInputs : Bytes) (proofLen : Nat) :
    (classifyPublicInputs SCHEMA_ID_SILENT_WITNESS publicInputs proofLen = ACCEPTED_CODE →
      ∃ strict lenient,
        Contract.parseSilentWitness publicInputs SILENT_WITNESS_DOMAIN_TAG_BE = .ok strict ∧
        parseSilentWitnessPublicInputs publicInputs = .ok lenient ∧
        lenient.videoHash = strict.videoHash ∧
        lenient.credentialRoot = strict.credentialRoot ∧
        lenient.nullifier = strict.nullifier ∧
        lenient.domainTag = strict.domainTag) ∧
    (classifyPublicInputs SCHEMA_ID_SILENT_WITNESS_V2 publicInputs proofLen = ACCEPTED_CODE →
      ∃ strict lenient,
        Contract.parseSilentWitnessV2 publicInputs SILENT_WITNESS_DOMAIN_TAG_BE = .ok strict ∧
        parseScopedSilentWitnessPublicInputs publicInputs = .ok lenient ∧
        lenient.videoHash = strict.videoHash ∧
        lenient.credentialRoot = strict.credentialRoot ∧
        lenient.nullifier = strict.nullifier ∧
        lenient.verifierScope = strict.verifierScope ∧
        lenient.epoch = min (beNat strict.epoch.1) (2^64-1) ∧
        lenient.domainTag = strict.domainTag) ∧
    (classifyPublicInputs SCHEMA_ID_REVOCATION_WITNESS publicInputs proofLen = ACCEPTED_CODE →
      ∃ strict lenient,
        Contract.parseRevocationWitness publicInputs REVOCATION_DOMAIN_SEPARATOR = .ok strict ∧
        parseRevocationPublicInputs publicInputs = .ok lenient ∧
        lenient.revocationRoot = strict.revocationRoot ∧
        lenient.nullifier = strict.nullifier ∧
        lenient.domainSeparator = strict.domainSeparator ∧
        lenient.credentialRoot = strict.credentialRoot) := by
  refine ⟨fun h => ?_,fun h => ?_,fun h => ?_⟩
  · obtain ⟨fields,hstrict,hlenient⟩ := silentWitness_of_accepted h
    exact ⟨fields,_,hstrict,hlenient,rfl,rfl,rfl,rfl⟩
  · obtain ⟨fields,hstrict,hlenient⟩ := silentWitnessV2_of_accepted h
    exact ⟨fields,_,hstrict,hlenient,rfl,rfl,rfl,rfl,bytesToU64Be_eq_min fields.epoch,rfl⟩
  · obtain ⟨fields,hstrict,hlenient⟩ := revocationWitness_of_accepted h
    exact ⟨fields,_,hstrict,hlenient,rfl,rfl,rfl,rfl⟩

theorem lenient_parsers_agree_third_epoch :
    classifyPublicInputs SCHEMA_ID_SILENT_WITNESS_V2 (scopedFrame (lowByte 3)) 64 =
      ACCEPTED_CODE ∧
    ∃ strict lenient,
      Contract.parseSilentWitnessV2 (scopedFrame (lowByte 3)) SILENT_WITNESS_DOMAIN_TAG_BE =
        .ok strict ∧
      parseScopedSilentWitnessPublicInputs (scopedFrame (lowByte 3)) = .ok lenient ∧
      lenient.epoch = min (beNat strict.epoch.1) (2^64-1) := by
  have h : classifyPublicInputs SCHEMA_ID_SILENT_WITNESS_V2 (scopedFrame (lowByte 3)) 64 =
      ACCEPTED_CODE := by decide +kernel
  obtain ⟨strict,lenient,hstrict,hlenient,-,-,-,-,hepoch,-⟩ :=
    (lenient_parsers_agree (scopedFrame (lowByte 3)) 64).2.1 h
  exact ⟨h,strict,lenient,hstrict,hlenient,hepoch⟩

/-- An epoch of the codec that is no `u64`. -/
theorem lenient_epoch_narrowed :
    classifyPublicInputs SCHEMA_ID_SILENT_WITNESS_V2 (scopedFrame (fill 1)) 64 =
      ACCEPTED_CODE ∧
    (Contract.parseSilentWitnessV2 (scopedFrame (fill 1)) SILENT_WITNESS_DOMAIN_TAG_BE).map
      (fun strict => strict.epoch) = .ok (fill 1) ∧
    (parseScopedSilentWitnessPublicInputs (scopedFrame (fill 1))).map
      (fun lenient => lenient.epoch) = .ok (2^64-1) ∧
    beNat (fill 1).1 ≠ 2^64-1 :=
  ⟨by decide +kernel,by decide +kernel,by decide +kernel,by decide +kernel⟩

end Harpocrates.Codec
