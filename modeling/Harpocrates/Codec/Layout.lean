import Harpocrates.Registry.PublicInputs

namespace Harpocrates.Codec

open Framework Registry List

inductive RejectCode
  | MalformedHex | Length | Padding | NonCanonicalField | ZeroField | DomainMismatch
  | ProofUndersize | ProofOversize | UnknownSchema | VersionMismatch
  deriving DecidableEq

def RejectCode.asCode : RejectCode → Nat
  | MalformedHex => 1
  | Length => 2
  | Padding => 3
  | NonCanonicalField => 4
  | ZeroField => 5
  | DomainMismatch => 6
  | ProofUndersize => 7
  | ProofOversize => 8
  | UnknownSchema => 9
  | VersionMismatch => 10

def FIELD_LEN : Nat := 32
def MIN_PROOF_BYTES : Nat := 64
def MAX_PROOF_BYTES : Nat := 65536

def BN254_SCALAR_FIELD_MODULUS : Nat :=
  21888242871839275222246405745257275088548364400416034343698204186575808495617

def SILENT_WITNESS_DOMAIN_TAG_BE : Bytes32 :=
  ⟨[0x4a,0xa0,0x38,0xf0,0xa2,0x7b,0x66,0x75,0xd7,0x12,0x2a,0xe2,0xd4,0xe1,0x97,0xc2,
    0x1e,0x83,0xfb,0xe3,0x01,0x43,0xa5,0xc8,0x3f,0xf3,0x5c,0x95,0x14,0xb9,0x2c,0x55],rfl⟩

def fieldAt (frame : Bytes) (index : Nat) : Bytes32 := field frame (index*FIELD_LEN)

/-- A rejection: the code and the name of the field. -/
structure VerifierInputError where
  code : RejectCode
  field : String
  deriving DecidableEq

def require (code : RejectCode) (ok : Bytes32 → Bool) (f : Bytes32) (name : String) :
    Except VerifierInputError Unit :=
  if ok f then .ok () else .error ⟨code,name⟩

/-- A frame format: the names of its fields, which of them are halves of a hash, which holds the
circuit version, which are scalars, which may not be zero, and which has to be the domain tag. -/
structure Layout where
  names : List String
  halves : List Nat
  version : List Nat
  scalars : List Nat
  identities : List Nat
  domain : Nat
  tag : Bytes32

namespace Layout

/-- One check of some fields, in order; the first one that fails is named. -/
def requireAll (l : Layout) (frame : Bytes) (code : RejectCode) (ok : Bytes32 → Bool) :
    List Nat → Except VerifierInputError Unit
  | [] => .ok ()
  | i::is => do
    require code ok (fieldAt frame i) (l.names.getD i "")
    l.requireAll frame code ok is

/-- The checks in the order that all implementations have agreed on. -/
def check (l : Layout) (frame : Bytes) : Except VerifierInputError Unit :=
  if frame.length ≠ FIELD_LEN*l.names.length then .error ⟨.Length,"public_inputs"⟩
  else do
    l.requireAll frame .Padding (fun f => decide (beNat f.1 < 2^128)) l.halves
    l.requireAll frame .VersionMismatch
      (fun f => decide (beNat f.1 = EXPECTED_CIRCUIT_VERSION)) l.version
    l.requireAll frame .NonCanonicalField
      (fun f => decide (beNat f.1 < BN254_SCALAR_FIELD_MODULUS)) l.scalars
    l.requireAll frame .ZeroField (fun f => decide (f ≠ zero32)) l.identities
    l.requireAll frame .DomainMismatch (fun f => decide (f = l.tag)) [l.domain]

/-- The frame has the length of the layout, and every field is as the layout has it. -/
structure Fits (l : Layout) (frame : Bytes) : Prop where
  length : frame.length = FIELD_LEN*l.names.length
  halves : ∀ i ∈ l.halves, beNat (fieldAt frame i).1 < 2^128
  version : ∀ i ∈ l.version, beNat (fieldAt frame i).1 = EXPECTED_CIRCUIT_VERSION
  scalars : ∀ i ∈ l.scalars, beNat (fieldAt frame i).1 < BN254_SCALAR_FIELD_MODULUS
  identities : ∀ i ∈ l.identities, fieldAt frame i ≠ zero32
  domain : fieldAt frame l.domain = l.tag

variable {l : Layout} {frame frame' : Bytes}

/-- The code of the first check that fails. -/
def code (l : Layout) (frame : Bytes) : Except RejectCode Unit :=
  if frame.length ≠ FIELD_LEN*l.names.length then .error .Length
  else if ¬ ∀ i ∈ l.halves, beNat (fieldAt frame i).1 < 2^128 then .error .Padding
  else if ¬ ∀ i ∈ l.version, beNat (fieldAt frame i).1 = EXPECTED_CIRCUIT_VERSION then
    .error .VersionMismatch
  else if ¬ ∀ i ∈ l.scalars, beNat (fieldAt frame i).1 < BN254_SCALAR_FIELD_MODULUS then
    .error .NonCanonicalField
  else if ¬ ∀ i ∈ l.identities, fieldAt frame i ≠ zero32 then .error .ZeroField
  else if fieldAt frame l.domain ≠ l.tag then .error .DomainMismatch
  else .ok ()

theorem mapError_bind {ε ε' α β : Type} (g : ε → ε') (x : Except ε α) (f : α → Except ε β) :
    (x >>= f).mapError g=x.mapError g >>= fun a => (f a).mapError g := by
  cases x with
  | ok a => rfl
  | error e => rfl

theorem requireAll_code {code : RejectCode} {ok : Bytes32 → Bool} {is : List Nat} :
    (l.requireAll frame code ok is).mapError (·.code) =
      if ¬ ∀ i∈is, ok (fieldAt frame i)=true then .error code else .ok () := by
  induction is with
  | nil => simp [requireAll,Except.mapError]
  | cons i is ih =>
    rw [requireAll,mapError_bind,ih,require]
    by_cases hi : ok (fieldAt frame i)=true
    · simp [hi,Except.mapError,bind,Except.bind]
    · simp [hi,Except.mapError,bind,Except.bind]

theorem ite_error_bind {ε α : Type} (c : Prop) [Decidable c] (e : ε) (x : Except ε α) :
    ((if c then .error e else .ok () : Except ε Unit) >>= fun _ => x) =
      if c then .error e else x := by
  split <;> rfl

theorem ite_error_map {ε α β : Type} (c : Prop) [Decidable c] (e : ε) (x : Except ε α)
    (f : α → β) : (if c then .error e else x).map f=if c then .error e else x.map f := by
  split <;> rfl

theorem check_code : (l.check frame).mapError (·.code)=l.code frame := by
  unfold check code
  by_cases hlen : frame.length≠FIELD_LEN*l.names.length
  · rw [if_pos hlen,if_pos hlen]
    rfl
  · rw [if_neg hlen,if_neg hlen]
    simp only [mapError_bind,requireAll_code,ite_error_bind,decide_eq_true_eq,mem_singleton,
      forall_eq]

theorem code_ok : l.code frame=.ok () ↔ l.Fits frame := by
  unfold code
  constructor
  · intro h
    split_ifs at h with hlength hhalves hversion hscalars hidentities hdomain
    exact ⟨not_not.1 hlength,hhalves,hversion,hscalars,hidentities,not_not.1 hdomain⟩
  · intro h
    rw [if_neg (not_not.2 h.length),if_neg (not_not.2 h.halves),if_neg (not_not.2 h.version),
      if_neg (not_not.2 h.scalars),if_neg (not_not.2 h.identities),if_neg (not_not.2 h.domain)]

/-- A frame that fits is known from the low halves of its halves and from the fields that are
neither a half nor the version. -/
theorem Fits.ext (h : l.Fits frame) (h' : l.Fits frame')
    (hhalves : ∀ i∈l.halves, (fieldAt frame i).1.drop 16=(fieldAt frame' i).1.drop 16)
    (hrest : ∀ i<l.names.length, i∉l.halves → i∉l.version →
      fieldAt frame i=fieldAt frame' i) : frame=frame' := by
  have hnumber : ∀ i, beNat (fieldAt frame i).1=beNat (fieldAt frame' i).1 →
      fieldAt frame i=fieldAt frame' i := fun i heq =>
    Subtype.ext (beNat_inj ((fieldAt frame i).2.trans (fieldAt frame' i).2.symm) heq)
  have hlow : ∀ f : Bytes32, beNat f.1<2^128 → beNat f.1=beNat (f.1.drop 16) := by
    intro f hf
    have hlt : beNat f.1<256^16 := hf
    exact beNat_of_lt (m := 16) f.2 hlt
  refine BytesN.eq_of_read (n := FIELD_LEN) (k := l.names.length) ?_ ?_ fun i hi => ?_
  · rw [h.length,Nat.mul_comm]
  · rw [h'.length,Nat.mul_comm]
  · change fieldAt frame i=fieldAt frame' i
    by_cases hhalf : i∈l.halves
    · refine hnumber i ?_
      rw [hlow _ (h.halves i hhalf),hlow _ (h'.halves i hhalf),hhalves i hhalf]
    · by_cases hversion : i∈l.version
      · exact hnumber i ((h.version i hversion).trans (h'.version i hversion).symm)
      · exact hrest i hi hhalf hversion

end Layout

def SCHEMA_SILENT_WITNESS : String := "silent_witness/v1"
def SCHEMA_SILENT_WITNESS_V2 : String := "silent_witness/v2"
def SCHEMA_REVOCATION_WITNESS : String := "revocation_witness/v1"

inductive Schema
  | silentWitness | silentWitnessV2 | revocationWitness
  deriving DecidableEq

/-- The values that a frame carries. -/
inductive PublicInputs
  | silentWitness (videoHash credentialRoot nullifier domainTag : Bytes)
  | silentWitnessV2 (videoHash credentialRoot nullifier verifierScope epoch domainTag : Bytes)
    (circuitVersion : Nat)
  | revocationWitness (revocationRoot nullifier domainSeparator credentialRoot : Bytes)
  deriving DecidableEq

namespace Schema

def ofName (schema : String) : Option Schema :=
  if schema = SCHEMA_SILENT_WITNESS then some .silentWitness
  else if schema = SCHEMA_SILENT_WITNESS_V2 then some .silentWitnessV2
  else if schema = SCHEMA_REVOCATION_WITNESS then some .revocationWitness
  else none

def layout : Schema → Layout
  | .silentWitness =>
    { names := ["video_hash_hi","video_hash_lo","credential_root","nullifier","domain_tag"]
      halves := [0,1]
      version := []
      scalars := [0,1,2,3]
      identities := [2,3,4]
      domain := 4
      tag := SILENT_WITNESS_DOMAIN_TAG_BE }
  | .silentWitnessV2 =>
    { names := ["video_hash_hi","video_hash_lo","credential_root","nullifier","verifier_scope",
        "epoch","domain_tag","circuit_version"]
      halves := [0,1]
      version := [7]
      scalars := [0,1,2,3,4,5]
      identities := [2,3,6]
      domain := 6
      tag := SILENT_WITNESS_DOMAIN_TAG_BE }
  | .revocationWitness =>
    { names := ["revocation_root","nullifier","domain_separator","credential_root"]
      halves := []
      version := []
      scalars := [0,1,2,3]
      identities := [0,1,3]
      domain := 2
      tag := REVOCATION_DOMAIN_SEPARATOR }

def videoHash (frame : Bytes) : Bytes := (fieldAt frame 0).1.drop 16++(fieldAt frame 1).1.drop 16

def read (frame : Bytes) : Schema → PublicInputs
  | .silentWitness => .silentWitness (videoHash frame) (fieldAt frame 2).1 (fieldAt frame 3).1
      (fieldAt frame 4).1
  | .silentWitnessV2 => .silentWitnessV2 (videoHash frame) (fieldAt frame 2).1
      (fieldAt frame 3).1 (fieldAt frame 4).1 (fieldAt frame 5).1 (fieldAt frame 6).1
      EXPECTED_CIRCUIT_VERSION
  | .revocationWitness => .revocationWitness (fieldAt frame 0).1 (fieldAt frame 1).1
      (fieldAt frame 2).1 (fieldAt frame 3).1

theorem videoHash_inj {frame frame' : Bytes} (h : videoHash frame=videoHash frame') :
    ∀ i∈[0,1], (fieldAt frame i).1.drop 16=(fieldAt frame' i).1.drop 16 := by
  have hlen : ((fieldAt frame 0).1.drop 16).length=((fieldAt frame' 0).1.drop 16).length := by
    rw [length_drop,length_drop,(fieldAt frame 0).2,(fieldAt frame' 0).2]
  simpa using append_inj h hlen

/-- Different frames that fit a schema carry different values. -/
theorem read_inj {s : Schema} {frame frame' : Bytes} (h : s.layout.Fits frame)
    (h' : s.layout.Fits frame') (heq : s.read frame=s.read frame') : frame=frame' := by
  cases s with
  | silentWitness =>
    obtain ⟨hvideo,hroot,hnull,htag⟩ := PublicInputs.silentWitness.inj heq
    refine h.ext h' (videoHash_inj hvideo) fun i hi hhalf _ => Subtype.ext ?_
    obtain rfl | rfl | rfl : i=2 ∨ i=3 ∨ i=4 := by
      simp only [layout,length_cons,length_nil,mem_cons,not_mem_nil,
        or_false] at hi hhalf
      omega
    · exact hroot
    · exact hnull
    · exact htag
  | silentWitnessV2 =>
    obtain ⟨hvideo,hroot,hnull,hscope,hepoch,htag,-⟩ := PublicInputs.silentWitnessV2.inj heq
    refine h.ext h' (videoHash_inj hvideo) fun i hi hhalf hversion => Subtype.ext ?_
    obtain rfl | rfl | rfl | rfl | rfl : i=2 ∨ i=3 ∨ i=4 ∨ i=5 ∨ i=6 := by
      simp only [layout,length_cons,length_nil,mem_cons,not_mem_nil,
        or_false] at hi hhalf hversion
      omega
    · exact hroot
    · exact hnull
    · exact hscope
    · exact hepoch
    · exact htag
  | revocationWitness =>
    obtain ⟨hroot,hnull,hdomain,hcredential⟩ := PublicInputs.revocationWitness.inj heq
    refine h.ext h' (by simp [layout]) fun i hi _ _ => Subtype.ext ?_
    obtain rfl | rfl | rfl | rfl : i=0 ∨ i=1 ∨ i=2 ∨ i=3 := by
      simp only [layout,length_cons,length_nil] at hi
      omega
    · exact hroot
    · exact hnull
    · exact hdomain
    · exact hcredential

end Schema

def proofBounds (proofLen : Nat) : Except RejectCode Unit :=
  if proofLen < MIN_PROOF_BYTES then .error .ProofUndersize
  else if proofLen > MAX_PROOF_BYTES then .error .ProofOversize
  else .ok ()

/-- The values of a frame, or why it is refused. -/
def parse (schema : String) (publicInputs : Bytes) : Except VerifierInputError PublicInputs :=
  match Schema.ofName schema with
  | none => .error ⟨.UnknownSchema,"schema"⟩
  | some s => (s.layout.check publicInputs).map fun _ => s.read publicInputs

/-- What the codec says about a schema, a frame and the length of a proof. -/
def verdict (schema : String) (publicInputs : Bytes) (proofLen : Nat) :
    Except RejectCode PublicInputs :=
  match Schema.ofName schema with
  | none => .error .UnknownSchema
  | some s => do
    s.layout.code publicInputs
    proofBounds proofLen
    pure (s.read publicInputs)

theorem verdict_parse (schema : String) (publicInputs : Bytes) (proofLen : Nat) :
    verdict schema publicInputs proofLen =
      (parse schema publicInputs).mapError (·.code) >>= fun values =>
        proofBounds proofLen >>= fun _ => pure values := by
  unfold verdict parse
  cases Schema.ofName schema with
  | none => rfl
  | some s =>
    simp only [← Layout.check_code]
    cases s.layout.check publicInputs with
    | ok u => rfl
    | error e => rfl

end Harpocrates.Codec
