import Harpocrates.Codec.Text
import Harpocrates.Framework.Sha256

namespace Harpocrates.Codec.Backend

open Framework Registry Text

def HEX_DIGITS : List Char := "0123456789abcdefABCDEF".toList

def fromHex (digits : String) : Bytes := (unhex digits.toList).getD []

def REVOCATION_DOMAIN_SEPARATOR : Bytes :=
  List.replicate 7 0++"HARPOCRATES_REVOCATION_V1".toList.map fun c => UInt8.ofNat c.toNat

def DOMAIN_PROTOCOL_FIELD : Bytes :=
  fromHex "261e9f6e39e3c1ae6aca9f29e84c10d59c82d5f4b40c21c1b7e3c01ad571c201"

def DOMAIN_VERSION_FIELD : Bytes :=
  fromHex "0c89eff4ec8e39a01e9f19547a0cc9dd7fd2a97d79ba4d94fd32e97a1f5ac623"

def DOMAIN_NETWORK_FIELD : Bytes :=
  fromHex "2a2c3f48ce2e3c2f1e6c89b18d64b5f5c1f88a59a0d9bc82cb61a1e8cb77a50f"

def SILENT_WITNESS_DOMAIN_TAG : Bytes :=
  (Sha256.digest (DOMAIN_PROTOCOL_FIELD++DOMAIN_VERSION_FIELD++DOMAIN_NETWORK_FIELD)).1

def constantTimeEquals (left right : Bytes) : Bool := left == right

def decodeHex (value : List Char) (field : String) (oversizeCode : RejectCode) :
    Except VerifierInputError Bytes :=
  if value.length > MAX_HEX_CHARS then .error ⟨oversizeCode,field⟩
  else if value.length%2 ≠ 0 then .error ⟨.MalformedHex,field⟩
  else if value.any (!HEX_DIGITS.contains ·) then .error ⟨.MalformedHex,field⟩
  else
    match unhex value with
    | some bytes => .ok bytes
    | none => .error ⟨.MalformedHex,field⟩

def isCanonicalField (element : Bytes) : Bool :=
  element.length == FIELD_LEN && beNat element < BN254_SCALAR_FIELD_MODULUS

def versionOf (fieldValue : Bytes) : Nat :=
  if fieldValue.take 28 ≠ List.replicate 28 0 then 0xFFFFFFFF else beNat (fieldValue.drop 28)

def layer : Layer where
  decodeHex := decodeHex
  isCanonicalField := isCanonicalField
  constantTimeEquals := constantTimeEquals
  versionOf := fun fieldValue => versionOf fieldValue
  domainTag := .ok SILENT_WITNESS_DOMAIN_TAG
  domainSeparator := .ok REVOCATION_DOMAIN_SEPARATOR

def classify (schema : String) (publicInputsHex proofHex : List Char) : Option RejectCode :=
  layer.classify schema publicInputsHex proofHex

theorem decodeHex_hex (b : Bytes) (field : String) (code : RejectCode) :
    decodeHex (hex b) field code =
      if 2*b.length > MAX_HEX_CHARS then .error ⟨code,field⟩ else .ok b := by
  have heven : ¬ 2*b.length%2≠0 := by omega
  have hall : hexDigits.all (HEX_DIGITS.contains ·)=true := by decide +kernel
  have hdigits : ¬ (hex b).any (!HEX_DIGITS.contains ·)=true := by
    simpa using fun c hc => List.all_eq_true.1 hall c (mem_hexDigits b c hc)
  rw [decodeHex,length_hex,if_neg heven,if_neg hdigits,unhex_hex]

theorem isCanonicalField_eq (f : Bytes32) :
    isCanonicalField f.1=decide (beNat f.1<BN254_SCALAR_FIELD_MODULUS) := by
  have hlen : f.1.length=FIELD_LEN := f.2
  rw [isCanonicalField,hlen,beq_self_eq_true,Bool.true_and]

theorem versionOf_eq (f : Bytes32) :
    versionOf f.1=EXPECTED_CIRCUIT_VERSION ↔ beNat f.1=EXPECTED_CIRCUIT_VERSION := by
  have hfits : beNat f.1<256^4 ↔ _ := beNat_lt_iff (m := 28) f.2
  have hzeros : (f.1.take 28).all (· == 0)=true ↔ f.1.take 28=List.replicate 28 0 := by
    have hlen : (f.1.take 28).length=28 := by simp [f.2]
    rw [List.eq_replicate_iff]
    simp [hlen]
  by_cases hlow : beNat f.1<256^4
  · rw [versionOf,if_neg (not_not.2 (hzeros.1 (hfits.1 hlow))),
      ← beNat_of_lt (m := 28) f.2 hlow]
  · rw [versionOf,if_pos fun h => hlow (hfits.2 (hzeros.2 h)),EXPECTED_CIRCUIT_VERSION]
    omega

theorem domainTag_eq : SILENT_WITNESS_DOMAIN_TAG=SILENT_WITNESS_DOMAIN_TAG_BE.1 := by
  decide +kernel

theorem domainSeparator_eq :
    REVOCATION_DOMAIN_SEPARATOR=Registry.REVOCATION_DOMAIN_SEPARATOR.1 := by
  decide +kernel

theorem sound : layer.Sound where
  decodeHex := decodeHex_hex
  isCanonicalField := isCanonicalField_eq
  constantTimeEquals := fun _ _ => Bool.beq_eq_decide_eq _ _
  versionOf := fun f => Nat.cast_inj.trans (versionOf_eq f)
  domainTag := congrArg Except.ok domainTag_eq
  domainSeparator := congrArg Except.ok domainSeparator_eq

end Harpocrates.Codec.Backend
