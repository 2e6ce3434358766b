import Harpocrates.Codec.Text
import Harpocrates.Framework.ByteCompare

namespace Harpocrates.Codec.Browser

open Framework Registry Text List Nat

def REVOCATION_DOMAIN_SEPARATOR_HEX : List Char :=
  "00000000000000484152504f4352415445535f5245564f434154494f4e5f5631".toList

def SILENT_WITNESS_DOMAIN_TAG_HEX : List Char :=
  "4aa038f0a27b6675d7122ae2d4e197c21e83fbe30143a5c83ff35c9514b92c55".toList

def utf16Length (value : List Char) : Nat :=
  (value.map fun c => if c.toNat < 0x10000 then 1 else 2).sum

def matchesHexPattern (value : List Char) : Bool :=
  value.all fun c => ('0' ≤ c && c ≤ '9') || ('a' ≤ c && c ≤ 'f') || ('A' ≤ c && c ≤ 'F')

def decodeHex (value : List Char) (field : String) (oversizeCode : RejectCode) :
    Except VerifierInputError Bytes :=
  if utf16Length value > MAX_HEX_CHARS then .error ⟨oversizeCode,field⟩
  else if utf16Length value%2 ≠ 0 || !matchesHexPattern value then .error ⟨.MalformedHex,field⟩
  else
    .ok ((List.range (utf16Length value/2)).map fun index =>
      UInt8.ofNat (hexNumber ((value.drop (index*2)).take 2)))

def toBigInt (element : Bytes) : Nat := shiftIn element

def isCanonicalField (element : Bytes) : Bool :=
  element.length == FIELD_LEN && toBigInt element < BN254_SCALAR_FIELD_MODULUS

def constantTimeEquals (left right : Bytes) : Bool :=
  if left.length ≠ right.length then false else xorAll left right == 0

def int32 (b : UInt8) : BitVec 32 := BitVec.ofNat 32 b.toNat

def versionOf (field : Bytes) : Int :=
  if (field.take (FIELD_LEN-4)).any (· ≠ 0) then 0xffffffff
  else
    (int32 (field.getD (FIELD_LEN-4) 0) <<< 24 ||| int32 (field.getD (FIELD_LEN-3) 0) <<< 16 |||
      int32 (field.getD (FIELD_LEN-2) 0) <<< 8 ||| int32 (field.getD (FIELD_LEN-1) 0)).toInt

def layer : Layer where
  decodeHex := decodeHex
  isCanonicalField := isCanonicalField
  constantTimeEquals := constantTimeEquals
  versionOf := versionOf
  domainTag := decodeHex SILENT_WITNESS_DOMAIN_TAG_HEX "domain_tag" .ProofOversize
  domainSeparator := decodeHex REVOCATION_DOMAIN_SEPARATOR_HEX "domain_separator" .ProofOversize

def classify (schema : String) (publicInputsHex proofHex : List Char) : Option RejectCode :=
  layer.classify schema publicInputsHex proofHex

theorem utf16Length_hex (b : Bytes) : utf16Length (hex b)=2*b.length := by
  have hone : hexDigits.all (fun c => decide (c.toNat<0x10000))=true := by decide
  have hmap : (hex b).map (fun c => if c.toNat<0x10000 then 1 else 2) =
      (hex b).map fun _ => 1 := by
    refine map_congr_left fun c hc => if_pos ?_
    exact of_decide_eq_true (all_eq_true.1 hone c (mem_hexDigits b c hc))
  rw [utf16Length,hmap,map_const',sum_replicate,length_hex,smul_eq_mul,mul_one]

theorem decodeHex_hex (b : Bytes) (field : String) (code : RejectCode) :
    decodeHex (hex b) field code =
      if 2*b.length > MAX_HEX_CHARS then .error ⟨code,field⟩ else .ok b := by
  have hall : matchesHexPattern hexDigits=true := by decide
  have hpattern : matchesHexPattern (hex b)=true :=
    all_eq_true.2 fun c hc => all_eq_true.1 hall c (mem_hexDigits b c hc)
  have hhalf : 2*b.length/2=b.length := by omega
  rw [decodeHex,utf16Length_hex,hpattern,hhalf,hexPairs_hex]
  simp

theorem isCanonicalField_eq (f : Bytes32) :
    isCanonicalField f.1=decide (beNat f.1<BN254_SCALAR_FIELD_MODULUS) := by
  have hlen : f.1.length=FIELD_LEN := f.2
  rw [isCanonicalField,toBigInt,shiftIn_eq,hlen,beq_self_eq_true,Bool.true_and]

theorem constantTimeEquals_eq (a b : Bytes) : constantTimeEquals a b=decide (a=b) := by
  by_cases hlen : a.length=b.length
  · rw [Bool.eq_iff_iff,constantTimeEquals,if_neg (not_not.2 hlen),beq_iff_eq,
      xorAll_eq_zero hlen,decide_eq_true_iff]
  · have hne : a≠b := fun h => hlen (congrArg List.length h)
    rw [constantTimeEquals,if_pos hlen,decide_eq_false hne]

/-- Four bytes shifted into place make the number they denote. -/
theorem shifted_toNat (a b c d : UInt8) :
    (int32 a <<< 24 ||| int32 b <<< 16 ||| int32 c <<< 8 ||| int32 d).toNat =
      beNat [a,b,c,d] := by
  have ha := a.toNat_lt
  have hb := b.toNat_lt
  have hc := c.toNat_lt
  have hd := d.toNat_lt
  have hshift : ∀ (x : UInt8) (k : Nat), k≤24 → (int32 x <<< k).toNat=2^k*x.toNat := by
    intro x k hk
    have hx : x.toNat<2^8 := x.toNat_lt
    have hsmall : 2^k*x.toNat<2^32 := by
      calc 2^k*x.toNat<2^k*2^8 := Nat.mul_lt_mul_of_pos_left hx (Nat.two_pow_pos k)
        _ = 2^(k+8) := (Nat.pow_add 2 k 8).symm
        _ ≤ 2^32 := Nat.pow_le_pow_right (by omega) (by omega)
    have hcast : (int32 x).toNat=x.toNat :=
      Nat.mod_eq_of_lt (Nat.lt_trans hx (by norm_num))
    rw [BitVec.toNat_shiftLeft,hcast,Nat.shiftLeft_eq,Nat.mul_comm,Nat.mod_eq_of_lt hsmall]
  have hlast : (int32 d).toNat=d.toNat := Nat.mod_eq_of_lt (Nat.lt_trans hd (by norm_num))
  have hab : 2^24*a.toNat ||| 2^16*b.toNat=2^16*(2^8*a.toNat+b.toNat) := by
    rw [← Nat.two_pow_add_eq_or_of_lt (by omega)]
    omega
  have habc : 2^16*(2^8*a.toNat+b.toNat) ||| 2^8*c.toNat =
      2^8*(2^16*a.toNat+2^8*b.toNat+c.toNat) := by
    rw [← Nat.two_pow_add_eq_or_of_lt (by omega)]
    omega
  have habcd : 2^8*(2^16*a.toNat+2^8*b.toNat+c.toNat) ||| d.toNat =
      2^8*(2^16*a.toNat+2^8*b.toNat+c.toNat)+d.toNat := by
    rw [← Nat.two_pow_add_eq_or_of_lt (by omega)]
  rw [BitVec.toNat_or,BitVec.toNat_or,BitVec.toNat_or,hshift a 24 (by omega),
    hshift b 16 (by omega),hshift c 8 (by omega),hlast,hab,habc,habcd]
  simp only [beNat,List.foldl_cons,List.foldl_nil]
  omega

theorem versionOf_eq (f : Bytes32) :
    versionOf f.1=EXPECTED_CIRCUIT_VERSION ↔ beNat f.1=EXPECTED_CIRCUIT_VERSION := by
  have hlen := f.2
  have hfits : beNat f.1<256^4 ↔ _ := beNat_lt_iff (m := 28) f.2
  have hdirty : (f.1.take (FIELD_LEN-4)).any (· ≠ 0)=true ↔ ¬ beNat f.1<256^4 := by
    rw [hfits,FIELD_LEN]
    simp
  have hlast : f.1.drop 28=[f.1.getD (FIELD_LEN-4) 0,f.1.getD (FIELD_LEN-3) 0,
      f.1.getD (FIELD_LEN-2) 0,f.1.getD (FIELD_LEN-1) 0] := by
    refine ext_getElem (by simp [hlen]) fun i hi _ => ?_
    rw [length_drop,hlen] at hi
    interval_cases i <;> simp [FIELD_LEN,hlen]
  have hsigned : ∀ v : BitVec 32,
      v.toInt=EXPECTED_CIRCUIT_VERSION ↔ v.toNat=EXPECTED_CIRCUIT_VERSION := by
    intro v
    have hv := v.isLt
    rw [BitVec.toInt_eq_toNat_cond,EXPECTED_CIRCUIT_VERSION]
    split_ifs <;> omega
  by_cases hlow : beNat f.1<256^4
  · rw [versionOf,if_neg fun h => hdirty.1 h hlow,beNat_of_lt (m := 28) f.2 hlow,hlast,
      ← shifted_toNat]
    exact hsigned _
  · rw [versionOf,if_pos (hdirty.2 hlow),EXPECTED_CIRCUIT_VERSION]
    omega

theorem domainTag_eq : decodeHex SILENT_WITNESS_DOMAIN_TAG_HEX "domain_tag" .ProofOversize =
    .ok SILENT_WITNESS_DOMAIN_TAG_BE.1 := by
  have hhex : SILENT_WITNESS_DOMAIN_TAG_HEX=hex SILENT_WITNESS_DOMAIN_TAG_BE.1 := by
    decide +kernel
  rw [hhex,decodeHex_hex]
  exact if_neg (by decide)

theorem domainSeparator_eq :
    decodeHex REVOCATION_DOMAIN_SEPARATOR_HEX "domain_separator" .ProofOversize =
      .ok REVOCATION_DOMAIN_SEPARATOR.1 := by
  have hhex : REVOCATION_DOMAIN_SEPARATOR_HEX=hex REVOCATION_DOMAIN_SEPARATOR.1 := by
    decide +kernel
  rw [hhex,decodeHex_hex]
  exact if_neg (by decide)

theorem sound : layer.Sound where
  decodeHex := decodeHex_hex
  isCanonicalField := isCanonicalField_eq
  constantTimeEquals := constantTimeEquals_eq
  versionOf := versionOf_eq
  domainTag := domainTag_eq
  domainSeparator := domainSeparator_eq

end Harpocrates.Codec.Browser
