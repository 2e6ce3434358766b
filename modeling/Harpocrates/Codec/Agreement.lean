import Harpocrates.Codec.Contract
import Harpocrates.Codec.Backend
import Harpocrates.Codec.Browser

namespace Harpocrates.Codec

open Framework Registry

inductive Implementation
  | contract | backend | browser
  deriving DecidableEq

namespace Implementation

/-- The verdict of an implementation. Backend and browser get the material as hex text. -/
def verdict (schema : String) (publicInputs proof : Bytes) :
    Implementation → Except RejectCode PublicInputs
  | contract => Contract.verdict schema publicInputs proof.length
  | backend => Backend.layer.verdict schema (hex publicInputs) (hex proof)
  | browser => Browser.layer.verdict schema (hex publicInputs) (hex proof)

def isCanonicalField (f : Bytes32) : Implementation → Bool
  | contract => Contract.isCanonicalField f
  | backend => Backend.isCanonicalField f.1
  | browser => Browser.isCanonicalField f.1

end Implementation

/-- What acceptance means: the frame fits the layout of its schema, the proof has a length within
the bounds, and the values are those in the frame. -/
structure Accepted (schema : String) (publicInputs proof : Bytes) (values : PublicInputs)
    (s : Schema) : Prop where
  schema : Schema.ofName schema = some s
  fits : s.layout.Fits publicInputs
  proof : MIN_PROOF_BYTES ≤ proof.length ∧ proof.length ≤ MAX_PROOF_BYTES
  values : values = s.read publicInputs

variable {schema : String} {publicInputs publicInputs' proof proof' : Bytes}
  {values : PublicInputs}

theorem proofBounds_ok {n : Nat} :
    proofBounds n=.ok () ↔ MIN_PROOF_BYTES≤n ∧ n≤MAX_PROOF_BYTES := by
  unfold proofBounds
  by_cases hmin : n<MIN_PROOF_BYTES
  · simp [hmin]
  · by_cases hmax : n > MAX_PROOF_BYTES
    · simp [hmin,hmax]
    · simp only [hmin,hmax,if_false,true_iff]
      exact ⟨Nat.le_of_not_lt hmin,Nat.le_of_not_lt hmax⟩

theorem verdict_ok : verdict schema publicInputs proof.length=.ok values ↔
    ∃ s, Accepted schema publicInputs proof values s := by
  unfold verdict
  constructor
  · intro h
    cases hs : Schema.ofName schema with
    | none => simp [hs] at h
    | some s =>
      simp only [hs] at h
      cases hcode : s.layout.code publicInputs with
      | error e => simp [hcode,bind,Except.bind] at h
      | ok u =>
        cases hbounds : proofBounds proof.length with
        | error e => simp [hcode,hbounds,bind,Except.bind] at h
        | ok v =>
          rw [hcode,hbounds] at h
          exact ⟨s,hs,Layout.code_ok.1 hcode,proofBounds_ok.1 hbounds,(Except.ok.inj h).symm⟩
  · intro ⟨s,h⟩
    rw [h.schema,h.values]
    dsimp only
    rw [Layout.code_ok.2 h.fits,proofBounds_ok.2 h.proof]
    rfl

theorem length_ne_of_long (s : Schema) (h : 2*publicInputs.length > Text.MAX_HEX_CHARS) :
    publicInputs.length≠FIELD_LEN*s.layout.names.length := by
  have hchars : Text.MAX_HEX_CHARS=133120 := rfl
  have hnames : s.layout.names.length≤8 := by cases s <;> decide
  rw [FIELD_LEN]
  omega

theorem verdict_of_long {s : Schema} {n : Nat} (hs : Schema.ofName schema=some s)
    (h : 2*publicInputs.length > Text.MAX_HEX_CHARS) :
    verdict schema publicInputs n=.error .Length := by
  rw [verdict,hs]
  dsimp only
  rw [Layout.code,if_pos (length_ne_of_long s h)]
  rfl

namespace Implementation

/-- All implementations give the verdict of the codec, but for the bound on text. -/
theorem verdict_eq (a : Implementation) : a.verdict schema publicInputs proof =
    if a≠contract ∧ 2*publicInputs.length > Text.MAX_HEX_CHARS then .error .Length
    else Codec.verdict schema publicInputs proof.length := by
  cases a with
  | contract =>
    rw [if_neg fun h => h.1 rfl]
    exact Contract.verdict_eq schema publicInputs proof.length
  | backend =>
    refine (Text.Layer.verdict_eq Backend.sound publicInputs schema proof).trans ?_
    simp
  | browser =>
    refine (Text.Layer.verdict_eq Browser.sound publicInputs schema proof).trans ?_
    simp

theorem verdict_ok (a : Implementation) : a.verdict schema publicInputs proof=.ok values ↔
    ∃ s, Accepted schema publicInputs proof values s := by
  rw [verdict_eq,← Codec.verdict_ok]
  by_cases hlong : a≠contract ∧ 2*publicInputs.length > Text.MAX_HEX_CHARS
  · rw [if_pos hlong]
    constructor
    · intro h
      cases h
    · intro h
      obtain ⟨s,h⟩ := Codec.verdict_ok.1 h
      exact absurd h.fits.length (length_ne_of_long s hlong.2)
  · rw [if_neg hlong]

theorem isCanonicalField_iff (a : Implementation) (f : Bytes32) :
    a.isCanonicalField f=true ↔ beNat f.1<BN254_SCALAR_FIELD_MODULUS := by
  cases a with
  | contract => exact (Bool.eq_iff_iff.1 (Contract.isCanonicalField_eq f)).trans decide_eq_true_iff
  | backend => exact (Bool.eq_iff_iff.1 (Backend.isCanonicalField_eq f)).trans decide_eq_true_iff
  | browser => exact (Bool.eq_iff_iff.1 (Browser.isCanonicalField_eq f)).trans decide_eq_true_iff

/-- Text that is too long is refused for its length, also under a name that is no schema. -/
theorem verdicts_eq_iff :
    (∀ a b : Implementation, a.verdict schema publicInputs proof =
      b.verdict schema publicInputs proof) ↔
    (Schema.ofName schema).isSome ∨ publicInputs.length≤MAX_PROOF_BYTES+1024 := by
  have hchars : 2*publicInputs.length > Text.MAX_HEX_CHARS ↔
      ¬ publicInputs.length≤MAX_PROOF_BYTES+1024 := by
    have hlimit : MAX_PROOF_BYTES+1024=66560 := rfl
    have hchars : Text.MAX_HEX_CHARS=133120 := rfl
    rw [hlimit,hchars]
    omega
  constructor
  · intro h
    by_cases hshort : publicInputs.length≤MAX_PROOF_BYTES+1024
    · exact .inr hshort
    · have hcontract := h contract backend
      rw [verdict_eq,verdict_eq,if_neg fun h => h.1 rfl,
        if_pos ⟨by decide,hchars.2 hshort⟩] at hcontract
      cases hs : Schema.ofName schema with
      | none => simp [Codec.verdict,hs] at hcontract
      | some s => exact .inl rfl
  · intro h a b
    have hcodec : ∀ a : Implementation,
        a.verdict schema publicInputs proof=Codec.verdict schema publicInputs proof.length := by
      intro a
      rw [verdict_eq]
      by_cases hlong : a≠contract ∧ 2*publicInputs.length > Text.MAX_HEX_CHARS
      · obtain ⟨s,hs⟩ := Option.isSome_iff_exists.1 (h.resolve_right (hchars.1 hlong.2))
        rw [if_pos hlong,Codec.verdict_of_long hs hlong.2]
      · rw [if_neg hlong]
    rw [hcodec a,hcodec b]

end Implementation

/-- The implementations agree on everything but over-long material under an unknown schema, they
accept what fits its layout and nothing else, and what they return determines the frame. -/
theorem verifier_codecs_agree (schema : String) (publicInputs proof : Bytes) :
    ((∀ a b : Implementation, a.verdict schema publicInputs proof =
        b.verdict schema publicInputs proof) ↔
      (Schema.ofName schema).isSome ∨ publicInputs.length ≤ MAX_PROOF_BYTES+1024) ∧
    Implementation.backend.verdict schema publicInputs proof =
      Implementation.browser.verdict schema publicInputs proof ∧
    (∀ (a : Implementation) (values : PublicInputs),
      a.verdict schema publicInputs proof = .ok values ↔
        ∃ s, Accepted schema publicInputs proof values s) ∧
    (∀ (a : Implementation) (f : Bytes32),
      a.isCanonicalField f = true ↔ beNat f.1 < BN254_SCALAR_FIELD_MODULUS) ∧
    ∀ (a b : Implementation) (publicInputs' proof' : Bytes) (values : PublicInputs),
      a.verdict schema publicInputs proof = .ok values →
      b.verdict schema publicInputs' proof' = .ok values → publicInputs = publicInputs' := by
  refine ⟨Implementation.verdicts_eq_iff,?_,fun a _ => a.verdict_ok,
    fun a => a.isCanonicalField_iff,?_⟩
  · rw [Implementation.verdict_eq,Implementation.verdict_eq]
    simp
  · intro a b publicInputs' proof' values h h'
    obtain ⟨s,h⟩ := a.verdict_ok.1 h
    obtain ⟨s',h'⟩ := b.verdict_ok.1 h'
    cases h.schema.symm.trans h'.schema
    exact Schema.read_inj h.fits h'.fits (h.values.symm.trans h'.values)

def smallFrame : Bytes :=
  [1,2,3,4].flatMap (fun x => List.replicate 31 0++[x])++SILENT_WITNESS_DOMAIN_TAG_BE.1

theorem verifier_codecs_agree_small :
    Implementation.backend.verdict SCHEMA_SILENT_WITNESS smallFrame (List.replicate 64 0) =
      Implementation.contract.verdict SCHEMA_SILENT_WITNESS smallFrame (List.replicate 64 0) ∧
    Implementation.browser.verdict SCHEMA_SILENT_WITNESS smallFrame (List.replicate 64 0) =
      Implementation.contract.verdict SCHEMA_SILENT_WITNESS smallFrame (List.replicate 64 0) ∧
    Implementation.contract.verdict SCHEMA_SILENT_WITNESS smallFrame (List.replicate 64 0) =
      .ok (Schema.silentWitness.read smallFrame) := by
  have hagree := (verifier_codecs_agree SCHEMA_SILENT_WITNESS smallFrame
    (List.replicate 64 0)).1.2 (.inl (by decide +kernel))
  exact ⟨hagree _ _,hagree _ _,by decide +kernel⟩

/-- Too many bytes under an unknown schema. -/
theorem unknown_schema_oversized :
    Implementation.contract.verdict "silent_witness/v3" (List.replicate 66561 0)
      (List.replicate 64 0) = .error .UnknownSchema ∧
    Implementation.backend.verdict "silent_witness/v3" (List.replicate 66561 0)
      (List.replicate 64 0) = .error .Length ∧
    Implementation.browser.verdict "silent_witness/v3" (List.replicate 66561 0)
      (List.replicate 64 0) = .error .Length := by
  have hlong : 2*(List.replicate 66561 (0 : UInt8)).length > Text.MAX_HEX_CHARS := by
    rw [List.length_replicate]
    decide
  have hname : Schema.ofName "silent_witness/v3" = none := by decide +kernel
  refine ⟨?_,?_,?_⟩
  · rw [Implementation.verdict_eq,if_neg fun h => h.1 rfl,verdict,hname]
  · rw [Implementation.verdict_eq,if_pos ⟨by decide,hlong⟩]
  · rw [Implementation.verdict_eq,if_pos ⟨by decide,hlong⟩]

end Harpocrates.Codec
