import Harpocrates.Codec.Layout
import Harpocrates.Framework.Hex

namespace Harpocrates.Codec.Text

open Framework Registry List

/-! The codec where the inputs arrive as text. Backend and browser make the same checks in the same
order, each with primitives of its own. -/

def MAX_HEX_CHARS : Nat := 2*(MAX_PROOF_BYTES+1024)

def SILENT_WITNESS_FIELD_COUNT : Nat := 5
def SILENT_WITNESS_V2_FIELD_COUNT : Nat := 8
def REVOCATION_FIELD_COUNT : Nat := 4

def SILENT_WITNESS_FIELDS : List String :=
  ["video_hash_hi","video_hash_lo","credential_root","nullifier","domain_tag"]

def SILENT_WITNESS_V2_FIELDS : List String :=
  ["video_hash_hi","video_hash_lo","credential_root","nullifier","verifier_scope","epoch",
    "domain_tag","circuit_version"]

def REVOCATION_FIELDS : List String :=
  ["revocation_root","nullifier","domain_separator","credential_root"]

structure SilentWitnessInputs where
  videoHash : Bytes
  credentialRoot : Bytes
  nullifier : Bytes
  domainTag : Bytes
  verifierScope : Option Bytes := none
  epoch : Option Bytes := none
  circuitVersion : Option Nat := none

structure RevocationWitnessInputs where
  revocationRoot : Bytes
  nullifier : Bytes
  domainSeparator : Bytes
  credentialRoot : Bytes

inductive ParsedInputs
  | silentWitness (inputs : SilentWitnessInputs)
  | revocationWitness (inputs : RevocationWitnessInputs)

def ParsedInputs.values : ParsedInputs → PublicInputs
  | .silentWitness inputs =>
    match inputs.verifierScope,inputs.epoch,inputs.circuitVersion with
    | some verifierScope,some epoch,some circuitVersion =>
      .silentWitnessV2 inputs.videoHash inputs.credentialRoot inputs.nullifier verifierScope epoch
        inputs.domainTag circuitVersion
    | _,_,_ =>
      .silentWitness inputs.videoHash inputs.credentialRoot inputs.nullifier inputs.domainTag
  | .revocationWitness inputs =>
    .revocationWitness inputs.revocationRoot inputs.nullifier inputs.domainSeparator
      inputs.credentialRoot

def checkProofBounds (proof : Bytes) : Except VerifierInputError Unit :=
  if proof.length < MIN_PROOF_BYTES then .error ⟨.ProofUndersize,"proof"⟩
  else if proof.length > MAX_PROOF_BYTES then .error ⟨.ProofOversize,"proof"⟩
  else .ok ()

def splitFields (publicInputs : Bytes) (count : Nat) : Except VerifierInputError (List Bytes) :=
  if publicInputs.length ≠ FIELD_LEN*count then .error ⟨.Length,"public_inputs"⟩
  else
    .ok ((List.range count).map fun index =>
      (publicInputs.drop (index*FIELD_LEN)).take FIELD_LEN)

/-- What a layer brings along: decoding of text, tests of bytes, and the domain tags, which may
have to be decoded first. -/
structure Layer where
  decodeHex : List Char → String → RejectCode → Except VerifierInputError Bytes
  isCanonicalField : Bytes → Bool
  constantTimeEquals : Bytes → Bytes → Bool
  versionOf : Bytes → Int
  domainTag : Except VerifierInputError Bytes
  domainSeparator : Except VerifierInputError Bytes

namespace Layer

variable (L : Layer)

def requireCanonical : List Bytes → List String → Except VerifierInputError Unit
  | element::fields,name::names =>
    if !L.isCanonicalField element then .error ⟨.NonCanonicalField,name⟩
    else requireCanonical fields names
  | _,_ => .ok ()

def requireNonZero (value : Bytes) (name : String) : Except VerifierInputError Unit :=
  if L.constantTimeEquals value zero32.1 then .error ⟨.ZeroField,name⟩ else .ok ()

def requireHalfPadding (value : Bytes) (name : String) : Except VerifierInputError Bytes :=
  if !L.constantTimeEquals (value.take 16) (zero32.1.take 16) then .error ⟨.Padding,name⟩
  else .ok (value.drop 16)

def requireVersion (value : Bytes) (name : String) : Except VerifierInputError Unit :=
  if L.versionOf value ≠ EXPECTED_CIRCUIT_VERSION then .error ⟨.VersionMismatch,name⟩ else .ok ()

def requireDomain (value expected : Bytes) (name : String) : Except VerifierInputError Unit :=
  if !L.constantTimeEquals value expected then .error ⟨.DomainMismatch,name⟩ else .ok ()

def parseSilentWitnessInputs (publicInputs : Bytes) :
    Except VerifierInputError SilentWitnessInputs := do
  let fields ← splitFields publicInputs SILENT_WITNESS_FIELD_COUNT
  let high ← L.requireHalfPadding (fields.getD 0 []) "video_hash_hi"
  let low ← L.requireHalfPadding (fields.getD 1 []) "video_hash_lo"
  L.requireCanonical (fields.take 4) (SILENT_WITNESS_FIELDS.take 4)
  L.requireNonZero (fields.getD 2 []) "credential_root"
  L.requireNonZero (fields.getD 3 []) "nullifier"
  L.requireNonZero (fields.getD 4 []) "domain_tag"
  let expectedDomain ← L.domainTag
  L.requireDomain (fields.getD 4 []) expectedDomain "domain_tag"
  pure
    { videoHash := high++low
      credentialRoot := fields.getD 2 []
      nullifier := fields.getD 3 []
      domainTag := fields.getD 4 [] }

def parseSilentWitnessV2Inputs (publicInputs : Bytes) :
    Except VerifierInputError SilentWitnessInputs := do
  let fields ← splitFields publicInputs SILENT_WITNESS_V2_FIELD_COUNT
  let high ← L.requireHalfPadding (fields.getD 0 []) "video_hash_hi"
  let low ← L.requireHalfPadding (fields.getD 1 []) "video_hash_lo"
  L.requireVersion (fields.getD 7 []) "circuit_version"
  L.requireCanonical (fields.take 6) (SILENT_WITNESS_V2_FIELDS.take 6)
  L.requireNonZero (fields.getD 2 []) "credential_root"
  L.requireNonZero (fields.getD 3 []) "nullifier"
  L.requireNonZero (fields.getD 6 []) "domain_tag"
  let expectedDomain ← L.domainTag
  L.requireDomain (fields.getD 6 []) expectedDomain "domain_tag"
  pure
    { videoHash := high++low
      credentialRoot := fields.getD 2 []
      nullifier := fields.getD 3 []
      domainTag := fields.getD 6 []
      verifierScope := some (fields.getD 4 [])
      epoch := some (fields.getD 5 [])
      circuitVersion := some EXPECTED_CIRCUIT_VERSION }

def parseRevocationWitnessInputs (publicInputs : Bytes) :
    Except VerifierInputError RevocationWitnessInputs := do
  let fields ← splitFields publicInputs REVOCATION_FIELD_COUNT
  L.requireCanonical fields REVOCATION_FIELDS
  L.requireNonZero (fields.getD 0 []) "revocation_root"
  L.requireNonZero (fields.getD 1 []) "nullifier"
  L.requireNonZero (fields.getD 3 []) "credential_root"
  let expectedDomain ← L.domainSeparator
  L.requireDomain (fields.getD 2 []) expectedDomain "domain_separator"
  pure
    { revocationRoot := fields.getD 0 []
      nullifier := fields.getD 1 []
      domainSeparator := fields.getD 2 []
      credentialRoot := fields.getD 3 [] }

def parsePublicInputs (schema : String) (publicInputs : Bytes) :
    Except VerifierInputError ParsedInputs :=
  if schema = SCHEMA_SILENT_WITNESS then
    (L.parseSilentWitnessInputs publicInputs).map .silentWitness
  else if schema = SCHEMA_SILENT_WITNESS_V2 then
    (L.parseSilentWitnessV2Inputs publicInputs).map .silentWitness
  else if schema = SCHEMA_REVOCATION_WITNESS then
    (L.parseRevocationWitnessInputs publicInputs).map .revocationWitness
  else .error ⟨.UnknownSchema,"schema"⟩

/-- The code of the first failure, or none if the material is accepted. -/
def classify (schema : String) (publicInputsHex proofHex : List Char) : Option RejectCode :=
  let outcome : Except VerifierInputError Unit := do
    let publicInputs ← L.decodeHex publicInputsHex "public_inputs" .Length
    let _ ← L.parsePublicInputs schema publicInputs
    let proof ← L.decodeHex proofHex "proof" .ProofOversize
    checkProofBounds proof
  match outcome with
  | .ok _ => none
  | .error error => some error.code

/-- The verdict of a layer: a code, or the values of the decoded frame. -/
def verdict (schema : String) (publicInputsHex proofHex : List Char) :
    Except RejectCode PublicInputs :=
  match L.classify schema publicInputsHex proofHex with
  | some code => .error code
  | none =>
    (do
      let publicInputs ← L.decodeHex publicInputsHex "public_inputs" .Length
      let inputs ← L.parsePublicInputs schema publicInputs
      pure inputs.values : Except VerifierInputError PublicInputs).mapError (·.code)

/-- The primitives of a layer are right: they decide what the layouts ask for, and decode what was
encoded unless it is too long. -/
structure Sound : Prop where
  decodeHex : ∀ b field code, L.decodeHex (hex b) field code =
    if 2*b.length > MAX_HEX_CHARS then .error ⟨code,field⟩ else .ok b
  isCanonicalField : ∀ f : Bytes32,
    L.isCanonicalField f.1 = decide (beNat f.1 < BN254_SCALAR_FIELD_MODULUS)
  constantTimeEquals : ∀ a b, L.constantTimeEquals a b = decide (a = b)
  versionOf : ∀ f : Bytes32, L.versionOf f.1 = EXPECTED_CIRCUIT_VERSION ↔
    beNat f.1 = EXPECTED_CIRCUIT_VERSION
  domainTag : L.domainTag = .ok SILENT_WITNESS_DOMAIN_TAG_BE.1
  domainSeparator : L.domainSeparator = .ok REVOCATION_DOMAIN_SEPARATOR.1

variable {L : Layer}

theorem splitFields_eq {frame : Bytes} {count : Nat} (h : frame.length=FIELD_LEN*count) :
    splitFields frame count=.ok ((List.range count).map fun i => (fieldAt frame i).1) := by
  rw [splitFields,if_neg (not_not.2 h)]
  refine congrArg Except.ok (map_congr_left fun i hi => ?_)
  have hroom : i*FIELD_LEN+FIELD_LEN≤frame.length := by
    rw [h,← Nat.succ_mul,Nat.mul_comm]
    exact Nat.mul_le_mul_left _ (mem_range.1 hi)
  exact (BytesN.read_val hroom).symm

theorem ok_bind {ε α β : Type} (a : α) (k : α → Except ε β) : (Except.ok a >>= k)=k a := rfl

theorem map_eq_bind {ε α β : Type} (g : α → β) (x : Except ε α) :
    x.map g=x >>= fun a => pure (g a) := by
  cases x with
  | ok a => rfl
  | error e => rfl

theorem map_map {ε α β γ : Type} (f : α → β) (g : β → γ) (x : Except ε α) :
    (x.map f).map g=x.map fun a => g (f a) := by
  cases x with
  | ok a => rfl
  | error e => rfl

section

variable (h : L.Sound) (f : Bytes32) (name : String)

include h

theorem requireHalfPadding_eq : L.requireHalfPadding f.1 name =
    require .Padding (fun f => decide (beNat f.1<2^128)) f name >>= fun _ =>
      pure (f.1.drop 16) := by
  have hpad : f.1.take 16=zero32.1.take 16 ↔ beNat f.1<2^128 := by
    have hhalf : beNat f.1<2^128 ↔ _ := beNat_lt_iff (m := 16) (n := 16) f.2
    have hlen : (f.1.take 16).length=16 := by simp [f.2]
    have hzero : zero32.1.take 16=List.replicate 16 0 := rfl
    rw [hhalf,hzero,eq_replicate_iff]
    simp [hlen]
  rw [requireHalfPadding,h.constantTimeEquals,require]
  by_cases hlow : beNat f.1<2^128
  · simp only [hpad,hlow,decide_true,Bool.not_true,Bool.false_eq_true,if_false,if_true]
    rfl
  · simp only [hpad,hlow,decide_false,Bool.not_false,Bool.false_eq_true,if_false,if_true]
    rfl

theorem requireVersion_eq : L.requireVersion f.1 name =
    require .VersionMismatch (fun f => decide (beNat f.1=EXPECTED_CIRCUIT_VERSION)) f name := by
  have hread := h.versionOf f
  rw [requireVersion,require]
  by_cases hversion : beNat f.1=EXPECTED_CIRCUIT_VERSION
  · simp [hversion,hread.2 hversion]
  · simp [hversion,mt hread.1 hversion]

theorem requireCanonical_cons (fields : List Bytes) (names : List String) :
    L.requireCanonical (f.1::fields) (name::names) =
      require .NonCanonicalField (fun f => decide (beNat f.1<BN254_SCALAR_FIELD_MODULUS)) f
        name >>= fun _ => L.requireCanonical fields names := by
  rw [requireCanonical,h.isCanonicalField,require]
  by_cases hlow : beNat f.1<BN254_SCALAR_FIELD_MODULUS
  · simp [hlow,ok_bind]
  · simp only [hlow,decide_false,Bool.not_false,Bool.false_eq_true,if_false,if_true]
    rfl

omit h in
theorem requireCanonical_nil (names : List String) : L.requireCanonical [] names=.ok () := rfl

theorem requireNonZero_eq : L.requireNonZero f.1 name =
    require .ZeroField (fun f => decide (f≠zero32)) f name := by
  rw [requireNonZero,h.constantTimeEquals,require]
  by_cases hzero : f=zero32
  · simp [hzero]
  · have hval : f.1≠zero32.1 := fun heq => hzero (Subtype.ext heq)
    simp [hzero,hval]

theorem requireDomain_eq (tag : Bytes32) : L.requireDomain f.1 tag.1 name =
    require .DomainMismatch (fun f => decide (f=tag)) f name := by
  rw [requireDomain,h.constantTimeEquals,require]
  by_cases hdomain : f=tag
  · simp [hdomain]
  · have hval : f.1≠tag.1 := fun heq => hdomain (Subtype.ext heq)
    simp [hdomain,hval]

end

section

variable (h : L.Sound) (frame : Bytes)

include h

theorem parseSilentWitnessInputs_eq : L.parseSilentWitnessInputs frame =
    (Schema.silentWitness.layout.check frame).map fun _ =>
      { videoHash := Schema.videoHash frame
        credentialRoot := (fieldAt frame 2).1
        nullifier := (fieldAt frame 3).1
        domainTag := (fieldAt frame 4).1 } := by
  by_cases hlen : frame.length=FIELD_LEN*SILENT_WITNESS_FIELD_COUNT
  · have hrange : List.range SILENT_WITNESS_FIELD_COUNT=[0,1,2,3,4] := rfl
    have hcheck : Schema.silentWitness.layout.check frame = _ := if_neg (not_not.2 hlen)
    rw [parseSilentWitnessInputs,splitFields_eq hlen,h.domainTag,hrange,hcheck]
    simp only [ok_bind,map_cons,map_nil,getD_cons_zero,getD_cons_succ,
      take_succ_cons,take_zero,SILENT_WITNESS_FIELDS,Schema.layout,
      Layout.requireAll,requireHalfPadding_eq h,requireCanonical_cons h,requireCanonical_nil,
      requireNonZero_eq h,requireDomain_eq h,map_eq_bind,bind_assoc,pure_bind]
    rfl
  · have hcheck : Schema.silentWitness.layout.check frame =
      .error ⟨.Length,"public_inputs"⟩ := if_pos hlen
    rw [parseSilentWitnessInputs,splitFields,if_pos hlen,hcheck]
    rfl

theorem parseSilentWitnessV2Inputs_eq : L.parseSilentWitnessV2Inputs frame =
    (Schema.silentWitnessV2.layout.check frame).map fun _ =>
      { videoHash := Schema.videoHash frame
        credentialRoot := (fieldAt frame 2).1
        nullifier := (fieldAt frame 3).1
        domainTag := (fieldAt frame 6).1
        verifierScope := some (fieldAt frame 4).1
        epoch := some (fieldAt frame 5).1
        circuitVersion := some EXPECTED_CIRCUIT_VERSION } := by
  by_cases hlen : frame.length=FIELD_LEN*SILENT_WITNESS_V2_FIELD_COUNT
  · have hrange : List.range SILENT_WITNESS_V2_FIELD_COUNT=[0,1,2,3,4,5,6,7] := rfl
    have hcheck : Schema.silentWitnessV2.layout.check frame = _ := if_neg (not_not.2 hlen)
    rw [parseSilentWitnessV2Inputs,splitFields_eq hlen,h.domainTag,hrange,hcheck]
    simp only [ok_bind,map_cons,map_nil,getD_cons_zero,getD_cons_succ,
      take_succ_cons,take_zero,SILENT_WITNESS_V2_FIELDS,Schema.layout,
      Layout.requireAll,requireHalfPadding_eq h,requireVersion_eq h,requireCanonical_cons h,
      requireCanonical_nil,requireNonZero_eq h,requireDomain_eq h,map_eq_bind,bind_assoc,
      pure_bind]
    rfl
  · have hcheck : Schema.silentWitnessV2.layout.check frame =
      .error ⟨.Length,"public_inputs"⟩ := if_pos hlen
    rw [parseSilentWitnessV2Inputs,splitFields,if_pos hlen,hcheck]
    rfl

theorem parseRevocationWitnessInputs_eq : L.parseRevocationWitnessInputs frame =
    (Schema.revocationWitness.layout.check frame).map fun _ =>
      { revocationRoot := (fieldAt frame 0).1
        nullifier := (fieldAt frame 1).1
        domainSeparator := (fieldAt frame 2).1
        credentialRoot := (fieldAt frame 3).1 } := by
  by_cases hlen : frame.length=FIELD_LEN*REVOCATION_FIELD_COUNT
  · have hrange : List.range REVOCATION_FIELD_COUNT=[0,1,2,3] := rfl
    have hcheck : Schema.revocationWitness.layout.check frame = _ := if_neg (not_not.2 hlen)
    rw [parseRevocationWitnessInputs,splitFields_eq hlen,h.domainSeparator,hrange,hcheck]
    simp only [ok_bind,map_cons,map_nil,getD_cons_zero,getD_cons_succ,
      REVOCATION_FIELDS,Schema.layout,Layout.requireAll,requireCanonical_cons h,
      requireCanonical_nil,requireNonZero_eq h,requireDomain_eq h,map_eq_bind,bind_assoc]
    rfl
  · have hcheck : Schema.revocationWitness.layout.check frame =
      .error ⟨.Length,"public_inputs"⟩ := if_pos hlen
    rw [parseRevocationWitnessInputs,splitFields,if_pos hlen,hcheck]
    rfl

theorem parsePublicInputs_eq (schema : String) :
    (L.parsePublicInputs schema frame).map ParsedInputs.values=parse schema frame := by
  rw [parsePublicInputs,parse,Schema.ofName]
  split_ifs with h1 h2 h3
  · rw [parseSilentWitnessInputs_eq h,map_map,map_map]
    rfl
  · rw [parseSilentWitnessV2Inputs_eq h,map_map,map_map]
    rfl
  · rw [parseRevocationWitnessInputs_eq h,map_map,map_map]
    rfl
  · rfl

omit h in
theorem proofBounds_eq (proof : Bytes) :
    ((if 2*proof.length > MAX_HEX_CHARS then .error ⟨.ProofOversize,"proof"⟩ else .ok proof) >>=
      checkProofBounds).mapError (·.code)=proofBounds proof.length := by
  have hchars : MAX_HEX_CHARS=133120 := rfl
  have hbytes : MAX_PROOF_BYTES=65536 := rfl
  by_cases hlong : 2*proof.length > MAX_HEX_CHARS
  · have hmax : proof.length > MAX_PROOF_BYTES := by
      rw [hchars] at hlong
      rw [hbytes]
      omega
    have hmin : ¬ proof.length<MIN_PROOF_BYTES := by
      rw [hbytes] at hmax
      rw [MIN_PROOF_BYTES]
      omega
    rw [if_pos hlong,proofBounds,if_neg hmin,if_pos hmax]
    rfl
  · rw [if_neg hlong,ok_bind,checkProofBounds,proofBounds]
    split_ifs <;> rfl

/-- A sound layer gives the verdict of the codec, unless the text is too long to be decoded. -/
theorem verdict_eq (schema : String) (proof : Bytes) :
    L.verdict schema (hex frame) (hex proof) =
      if 2*frame.length > MAX_HEX_CHARS then .error .Length
      else Codec.verdict schema frame proof.length := by
  have hparse := parsePublicInputs_eq h frame schema
  rw [verdict,classify,h.decodeHex,h.decodeHex,verdict_parse,← hparse,← proofBounds_eq]
  by_cases hlong : 2*frame.length > MAX_HEX_CHARS
  · rw [if_pos hlong,if_pos hlong]
    rfl
  · rw [if_neg hlong,if_neg hlong]
    simp only [ok_bind]
    cases L.parsePublicInputs schema frame with
    | error e => rfl
    | ok inputs =>
      simp only [ok_bind]
      generalize (_ >>= checkProofBounds : Except VerifierInputError Unit)=bounds
      cases bounds with
      | error e => rfl
      | ok u => rfl

end

end Layer

end Harpocrates.Codec.Text
