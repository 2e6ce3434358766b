import Harpocrates.Circuits.SelectiveDisclosure
import Harpocrates.Framework.JsonText
import Harpocrates.Framework.Numerals

namespace Harpocrates.Clients.DisclosureProver

open Framework Framework.Python Framework.Numerals Framework.JavaScript Framework.Fallible
open Codec (BN254_SCALAR_FIELD_MODULUS)
open Circuits
open Circuits.SelectiveDisclosure (Witness PublicInputs MAX_ATTRIBUTES MAX_PREDICATES
  MAX_SET_MEMBERS CURRENT_CIRCUIT_VERSION)

variable {inputs : PublicInputs Scalar}

/-- An element of the circuit's field, by its representative. -/
@[ext]
structure Scalar where
  val : Nat
  lt : val < BN254_SCALAR_FIELD_MODULUS
  deriving DecidableEq

theorem modulus_pos : 0<BN254_SCALAR_FIELD_MODULUS := by decide

instance : NatCast Scalar := ⟨fun n => ⟨n%BN254_SCALAR_FIELD_MODULUS,Nat.mod_lt n modulus_pos⟩⟩
instance : LE Scalar := ⟨fun a b => a.val ≤ b.val⟩
instance : DecidableLE Scalar := fun a b => Nat.decLe a.val b.val

/-- Both `new Fr` and the circuit's interface refuse what is not reduced. -/
def Scalar.of (i : Int) : Option Scalar :=
  if h : i.toNat < BN254_SCALAR_FIELD_MODULUS ∧ 0 ≤ i then some ⟨i.toNat,h.1⟩ else none

inductive PredicateType
  | Equality | SetMembership | Range
  deriving DecidableEq

structure Predicate where
  predicateType : PredicateType
  attrIndex : Nat
  publicValue : Option Text
  setValues : Option (List Text)
  setLen : Option Nat
  lowerBound : Option Text
  upperBound : Option Text

structure SelectiveDisclosureInput where
  schemaHash : Text
  issuerNamespace : Text
  schemaVersion : Nat
  credentialRoot : Text
  nullifier : Text
  videoHashHi : Text
  videoHashLo : Text
  verifierDigest : Text
  circuitVersion : Nat
  evidenceDigest : Text
  numAttributes : Nat
  attrValues : List Text
  attrBlindings : List Text
  numPredicates : Nat
  predicates : List Predicate

def zero : Text := "0".toList

def PredicateType.number : PredicateType → Nat
  | Equality => 0
  | SetMembership => 1
  | Range => 2

def padArray {α : Type} (arr : List α) (len : Nat) (fill : α) : List α :=
  arr++List.replicate (len-arr.length) fill

def padPredicates (predicates : List Predicate) : List Predicate :=
  padArray predicates MAX_PREDICATES
    ⟨.Equality,0,some zero,some (List.replicate MAX_SET_MEMBERS zero),some 0,some zero,some zero⟩

def toBigInt (value : Text) : Option Int :=
  bigInt (if value.take 2 = "0x".toList then value else '0' :: 'x' :: value)

section

variable (hash : List Scalar → Scalar)

/-- The hash comes back as hex text behind `0x`, which is read without loss. -/
def pedersenHash (inputs : List Int) : Option Nat :=
  (inputs.mapM Scalar.of).map fun elements => (hash elements).val

def commitmentStep (current : Nat) (p : Predicate) : Option Nat := do
  let publicValue ← bigInt (p.publicValue.getD zero)
  pedersenHash hash [current,p.predicateType.number,p.attrIndex,publicValue]

def commitmentChain (predicates : List Predicate) : Option Nat :=
  predicates.foldlM (commitmentStep hash) 0

def computePredicateCommitment (predicates : List Predicate) : Option Text :=
  (commitmentChain hash predicates).map (Nat.toDigits 10)

def computeNullifier (credentialRoot videoHashHi videoHashLo evidenceDigest : Text) :
    Option Text := do
  let result ← pedersenHash hash [← toBigInt credentialRoot,← toBigInt videoHashHi,
    ← toBigInt videoHashLo,← toBigInt evidenceDigest]
  return Nat.toDigits 10 result

end

/-- `toBigInt(value).toString(10)` -/
def decimalText (value : Text) : Option Text := (toBigInt value).map Json.decimal

structure PredicateTexts where
  predicateType : Text
  attrIndex : Text
  publicValue : Text
  setValues : List Text
  setLen : Text
  lowerBound : Text
  upperBound : Text

structure PrivateTexts where
  numAttributes : Text
  attrValues : List Text
  attrBlindings : List Text
  numPredicates : Text
  predicates : List PredicateTexts

def predicateTexts (p : Predicate) : Option PredicateTexts := do
  return {
    predicateType := Nat.toDigits 10 p.predicateType.number
    attrIndex := Nat.toDigits 10 p.attrIndex
    publicValue := ← decimalText (p.publicValue.getD zero)
    setValues := ← (padArray (p.setValues.getD []) MAX_SET_MEMBERS zero).mapM decimalText
    setLen := Nat.toDigits 10 (p.setLen.getD 0)
    lowerBound := ← decimalText (p.lowerBound.getD zero)
    upperBound := ← decimalText (p.upperBound.getD zero) }

def privateTexts (input : SelectiveDisclosureInput) : Option PrivateTexts := do
  return {
    numAttributes := Nat.toDigits 10 input.numAttributes
    attrValues := ← (padArray input.attrValues MAX_ATTRIBUTES zero).mapM decimalText
    attrBlindings := ← (padArray input.attrBlindings MAX_ATTRIBUTES zero).mapM decimalText
    numPredicates := Nat.toDigits 10 input.numPredicates
    predicates := ← (padPredicates input.predicates).mapM predicateTexts }

def publicTexts (hash : List Scalar → Scalar) (input : SelectiveDisclosureInput) :
    Option (PublicInputs Text) := do
  return {
    schemaHash := ← decimalText input.schemaHash
    issuerNamespace := ← decimalText input.issuerNamespace
    schemaVersion := Nat.toDigits 10 input.schemaVersion
    credentialRoot := ← decimalText input.credentialRoot
    nullifier := ← decimalText input.nullifier
    videoHashHi := ← decimalText input.videoHashHi
    videoHashLo := ← decimalText input.videoHashLo
    verifierDigest := ← decimalText input.verifierDigest
    circuitVersion := Nat.toDigits 10 input.circuitVersion
    evidenceDigest := ← decimalText input.evidenceDigest
    predicateCommitment :=
      ← (computePredicateCommitment hash input.predicates).bind decimalText }

def abiField (text : Text) : Option Scalar := (readDigits 10 text).bind fun n => Scalar.of n

def abiU32 (text : Text) : Option UInt32 :=
  (readDigits 10 text).bind fun n => if n < 2^32 then some (UInt32.ofNat n) else none

def toVector {α : Type} (n : Nat) (items : List α) : Option (Vector α n) :=
  if h : items.toArray.size = n then some ⟨items.toArray,h⟩ else none

def abiArray (n : Nat) (texts : List Text) : Option (Vector Scalar n) :=
  (texts.mapM abiField).bind (toVector n)

def abiPredicate (p : PredicateTexts) : Option (SelectiveDisclosure.Predicate Scalar) := do
  return {
    predicateType := ← abiField p.predicateType
    attrIndex := ← abiU32 p.attrIndex
    publicValue := ← abiField p.publicValue
    setValues := ← abiArray MAX_SET_MEMBERS p.setValues
    setLen := ← abiU32 p.setLen
    lowerBound := ← abiField p.lowerBound
    upperBound := ← abiField p.upperBound }

def abiPrivate (texts : PrivateTexts) : Option (Witness Scalar) := do
  return {
    numAttributes := ← abiU32 texts.numAttributes
    attrValues := ← abiArray MAX_ATTRIBUTES texts.attrValues
    attrBlindings := ← abiArray MAX_ATTRIBUTES texts.attrBlindings
    numPredicates := ← abiU32 texts.numPredicates
    predicates := ← (texts.predicates.mapM abiPredicate).bind (toVector MAX_PREDICATES) }

def abiPublic (texts : PublicInputs Text) : Option (PublicInputs Scalar) := do
  return {
    schemaHash := ← abiField texts.schemaHash
    issuerNamespace := ← abiField texts.issuerNamespace
    schemaVersion := ← abiField texts.schemaVersion
    credentialRoot := ← abiField texts.credentialRoot
    nullifier := ← abiField texts.nullifier
    videoHashHi := ← abiField texts.videoHashHi
    videoHashLo := ← abiField texts.videoHashLo
    verifierDigest := ← abiField texts.verifierDigest
    circuitVersion := ← abiField texts.circuitVersion
    evidenceDigest := ← abiField texts.evidenceDigest
    predicateCommitment := ← abiField texts.predicateCommitment }

def privateInputs (input : SelectiveDisclosureInput) : Option (Witness Scalar) :=
  (privateTexts input).bind abiPrivate

def publicInputs (hash : List Scalar → Scalar) (input : SelectiveDisclosureInput) :
    Option (PublicInputs Scalar) := (publicTexts hash input).bind abiPublic

def Satisfied (hash : List Scalar → Scalar) (input : SelectiveDisclosureInput) : Prop :=
  ∃ w inputs, privateInputs input = some w ∧ publicInputs hash input = some inputs ∧
    SelectiveDisclosure.main hash w inputs = .ok ()

open Option hiding or_assoc
open SelectiveDisclosure

variable {s : Scalar} {n : Nat} {q : SelectiveDisclosure.Predicate Scalar} {p : Predicate}

theorem of_eq_some {i : Int} : Scalar.of i=some s ↔ i=s.val := by
  unfold Scalar.of
  constructor
  · intro h
    split_ifs at h with hi
    cases h
    exact (Int.toNat_of_nonneg hi.2).symm
  · rintro rfl
    rw [dif_pos ⟨s.lt,Int.natCast_nonneg _⟩]
    rfl

theorem readDigits_toDigits (n : Nat) : readDigits 10 (Nat.toDigits 10 n)=some n := by
  obtain ⟨hdigits,hnumber⟩ := toDigits_spec (by decide : 1<10) (by decide) n
  rw [readDigits_eq hdigits Nat.toDigits_ne_nil,hnumber]

theorem abiField_toDigits (n : Nat) : abiField (Nat.toDigits 10 n)=Scalar.of n := by
  rw [abiField,readDigits_toDigits,bind_some]

theorem abiField_decimal (i : Int) : abiField (Json.decimal i)=Scalar.of i := by
  unfold Json.decimal
  split_ifs with hneg
  · have hsign : readDigits 10 ('-' :: Nat.toDigits 10 i.natAbs)=none := by
      refine if_neg fun hdigits => ?_
      exact absurd (hdigits.2 '-' List.mem_cons_self) (by decide)
    have hnone : Scalar.of i=none := dif_neg fun h => absurd h.2 (by omega)
    rw [abiField,hsign,hnone]
    rfl
  · rw [abiField_toDigits]
    congr 1
    omega

def hexField (value : Text) : Option Scalar := (toBigInt value).bind Scalar.of

theorem hexField_iff {value : Text} :
    hexField value=some s ↔ ∃ text, decimalText value=some text ∧ abiField text=some s := by
  unfold hexField decimalText
  cases toBigInt value with
  | none => simp
  | some i => simp [abiField_decimal]

def hexReading (n : Nat) : Nat := numeral 16 (Nat.toDigits 10 n)

theorem toBigInt_toDigits (n : Nat) : toBigInt (Nat.toDigits 10 n)=some (hexReading n : Int) := by
  obtain ⟨hdigits,-⟩ := toDigits_spec (by decide : 1<10) (by decide) n
  have hmark : (Nat.toDigits 10 n).take 2 ≠ "0x".toList := by
    intro hmark
    have htake : 'x'∈(Nat.toDigits 10 n).take 2 := by
      rw [hmark]
      decide
    exact absurd (hdigits 'x' (List.mem_of_mem_take htake)) (by decide)
  rw [toBigInt,if_neg hmark,bigInt_hex (fun c hc => (hdigits c hc).trans (by decide))
    Nat.toDigits_ne_nil,hexReading]

theorem hexReading_spec (n : Nat) : n≤hexReading n ∧ (hexReading n=n ↔ n<10) := by
  induction n using Nat.strongRecOn with
  | ind n ih =>
    by_cases hn : n<10
    · have hdigit : hexReading n=n := by
        rw [hexReading,Nat.toDigits_of_lt_base hn]
        simp [numeral,digitValue_digitChar n (by omega)]
      rw [hdigit]
      simp [hn]
    · have hstep : hexReading n=hexReading (n/10)*16+n%10 := by
        have hvalue := digitValue_digitChar (n%10) (by omega)
        rw [hexReading,Nat.toDigits_of_base_le (by decide) (by omega),numeral_concat,hvalue]
        rfl
      have htail := (ih (n/10) (by omega)).1
      omega

theorem hexField_toDigits : hexField (Nat.toDigits 10 n)=some s ↔ hexReading n=s.val := by
  rw [hexField,toBigInt_toDigits,bind_some,of_eq_some]
  omega

variable {hash : List Scalar → Scalar} {input : SelectiveDisclosureInput} {w : Witness Scalar}

theorem publicInputs_iff : publicInputs hash input=some inputs ↔
      hexField input.schemaHash=some inputs.schemaHash ∧
      hexField input.issuerNamespace=some inputs.issuerNamespace ∧
      input.schemaVersion=inputs.schemaVersion.val ∧
      hexField input.credentialRoot=some inputs.credentialRoot ∧
      hexField input.nullifier=some inputs.nullifier ∧
      hexField input.videoHashHi=some inputs.videoHashHi ∧
      hexField input.videoHashLo=some inputs.videoHashLo ∧
      hexField input.verifierDigest=some inputs.verifierDigest ∧
      input.circuitVersion=inputs.circuitVersion.val ∧
      hexField input.evidenceDigest=some inputs.evidenceDigest ∧
      ∃ c, commitmentChain hash input.predicates=some c ∧
        hexReading c=inputs.predicateCommitment.val := by
  have hnumber : ∀ (n : Nat) (s : Scalar), abiField (Nat.toDigits 10 n)=some s ↔ n=s.val := by
    intro n s
    rw [abiField_toDigits,of_eq_some]
    omega
  have hcommitment : ∀ s : Scalar, (∃ c, commitmentChain hash input.predicates=some c ∧
      hexReading c=s.val) ↔ ∃ text, (computePredicateCommitment hash input.predicates).bind
        decimalText=some text ∧ abiField text=some s := by
    intro s
    unfold computePredicateCommitment
    cases commitmentChain hash input.predicates with
    | none => simp
    | some c =>
      rw [map_some,bind_some,← hexField_iff,hexField_toDigits]
      simp
  rw [hcommitment]
  simp only [publicInputs,publicTexts,abiPublic,bind_eq_bind,pure_def,
    bind_eq_some_iff,some.injEq,hexField_iff,← hnumber]
  constructor
  · rintro ⟨_,⟨_,hschema,_,hissuer,_,hroot,_,hnullifier,_,hhi,_,hlo,_,hverifier,_,hevidence,_,
      hchain,rfl⟩,habi⟩
    obtain ⟨_,h1,_,h2,_,h3,_,h4,_,h5,_,h6,_,h7,_,h8,_,h9,_,h10,_,h11,rfl⟩ := habi
    exact ⟨⟨_,hschema,h1⟩,⟨_,hissuer,h2⟩,h3,⟨_,hroot,h4⟩,⟨_,hnullifier,h5⟩,⟨_,hhi,h6⟩,⟨_,hlo,h7⟩,
      ⟨_,hverifier,h8⟩,h9,⟨_,hevidence,h10⟩,⟨_,hchain,h11⟩⟩
  · rintro ⟨⟨_,hschema,h1⟩,⟨_,hissuer,h2⟩,h3,⟨_,hroot,h4⟩,⟨_,hnullifier,h5⟩,⟨_,hhi,h6⟩,⟨_,hlo,h7⟩,
      ⟨_,hverifier,h8⟩,h9,⟨_,hevidence,h10⟩,⟨_,hchain,h11⟩⟩
    exact ⟨_,⟨_,hschema,_,hissuer,_,hroot,_,hnullifier,_,hhi,_,hlo,_,hverifier,_,hevidence,_,hchain,
      rfl⟩,_,h1,_,h2,_,h3,_,h4,_,h5,_,h6,_,h7,_,h8,_,h9,_,h10,_,h11,rfl⟩

theorem mapM_eq_some {α β : Type} {f : α → Option β} {l : List α} {r : List β} :
    l.mapM f=some r ↔ List.Forall₂ (fun a b => f a=some b) l r := by
  induction l generalizing r with
  | nil => simp [eq_comm]
  | cons a l ih =>
    rw [List.mapM_cons,List.forall₂_cons_left_iff]
    simp only [bind_eq_bind,pure_def,bind_eq_some_iff,some.injEq,ih]
    constructor
    · rintro ⟨b,hb,rest,hrest,rfl⟩
      exact ⟨b,rest,hb,hrest,rfl⟩
    · rintro ⟨b,rest,hb,hrest,rfl⟩
      exact ⟨b,hb,rest,hrest,rfl⟩

theorem toVector_eq_some {α : Type} {items : List α} {v : Vector α n}
    (h : toVector n items=some v) : items=v.toList := by
  unfold toVector at h
  split_ifs at h with hsize
  cases h
  rfl

def Committed (p : Predicate) (q : SelectiveDisclosure.Predicate Scalar) : Prop :=
  q.predicateType.val = p.predicateType.number ∧ q.attrIndex.toNat = p.attrIndex ∧
    hexField (p.publicValue.getD zero) = some q.publicValue

theorem abiU32_toDigits {u : UInt32} (h : abiU32 (Nat.toDigits 10 n)=some u) : u.toNat=n := by
  rw [abiU32,readDigits_toDigits,bind_some] at h
  split_ifs at h with hsmall
  cases h
  exact UInt32.toNat_ofNat_of_lt' hsmall

theorem committed_of_texts {texts : PredicateTexts} (htexts : predicateTexts p=some texts)
    (h : abiPredicate texts=some q) : Committed p q := by
  simp only [predicateTexts,bind_eq_bind,pure_def,bind_eq_some_iff,
    some.injEq] at htexts
  obtain ⟨publicValue,hpublic,_,_,_,_,_,_,rfl⟩ := htexts
  simp only [abiPredicate,bind_eq_bind,pure_def,bind_eq_some_iff,
    some.injEq] at h
  obtain ⟨predicateType,htype,attrIndex,hindex,value,hvalue,_,_,_,_,_,_,_,_,rfl⟩ := h
  refine ⟨?_,abiU32_toDigits hindex,hexField_iff.2 ⟨publicValue,hpublic,hvalue⟩⟩
  rw [abiField_toDigits,of_eq_some] at htype
  exact (Int.ofNat_inj.1 htype).symm

theorem privateInputs_spec (h : privateInputs input=some w) :
    w.numAttributes.toNat=input.numAttributes ∧ w.numPredicates.toNat=input.numPredicates ∧
      List.Forall₂ Committed (padPredicates input.predicates) w.predicates.toList := by
  rw [privateInputs,bind_eq_some_iff] at h
  obtain ⟨texts,htexts,h⟩ := h
  simp only [privateTexts,bind_eq_bind,pure_def,bind_eq_some_iff,
    some.injEq] at htexts
  obtain ⟨_,_,_,_,predicates,hpredicates,rfl⟩ := htexts
  simp only [abiPrivate,bind_eq_bind,pure_def,bind_eq_some_iff,
    some.injEq] at h
  obtain ⟨numAttributes,hattributes,_,_,_,_,numPredicates,hcount,vector,⟨list,hlist,hvector⟩,
    rfl⟩ := h
  refine ⟨abiU32_toDigits hattributes,abiU32_toDigits hcount,?_⟩
  rw [← toVector_eq_some hvector]
  rw [mapM_eq_some] at hpredicates hlist
  clear hvector
  generalize padPredicates input.predicates=padded at hpredicates ⊢
  induction hpredicates generalizing list with
  | nil =>
    cases hlist
    exact .nil
  | cons htext _ ih =>
    obtain ⟨q,rest,hq,hrest,rfl⟩ := List.forall₂_cons_left_iff.1 hlist
    exact .cons (committed_of_texts htext hq) (ih rest hrest)

def Opens (hash : List Scalar → Scalar) (w : Witness Scalar) (root : Scalar) : Prop :=
  w.numAttributes.toNat ≤ MAX_ATTRIBUTES ∧
    ∃ a rest, w.attributes = a::rest ∧ SelectiveDisclosure.rootOf hash a rest = root

/-- The predicate is true of the attribute it names. -/
def Holds (w : Witness Scalar) (p : SelectiveDisclosure.Predicate Scalar) : Prop :=
  p.attrIndex.toNat < w.numAttributes.toNat ∧
  ∃ value, w.attrValues.toList[p.attrIndex.toNat]? = some value ∧
    (p.predicateType = SelectiveDisclosure.eqPredicateType → value = p.publicValue) ∧
    (p.predicateType = SelectiveDisclosure.setMembershipPredicateType →
      p.setLen.toNat ≤ MAX_SET_MEMBERS ∧ value ∈ p.setValues.toList.take p.setLen.toNat) ∧
    (p.predicateType = SelectiveDisclosure.rangePredicateType →
      p.lowerBound ≤ value ∧ value ≤ p.upperBound)

/-- The attributes open the credential root, the predicates in use hold, and the nullifier was
computed from the same values. -/
structure Honest (hash : List Scalar → Scalar) (input : SelectiveDisclosureInput)
    (w : Witness Scalar) : Prop where
  denoted : privateInputs input = some w
  opens : ∃ root, hexField input.credentialRoot = some root ∧ Opens hash w root
  holds : ∀ (i : Nat) (hi : i < MAX_PREDICATES), i < w.numPredicates.toNat →
    Holds w w.predicates[i]
  nullifier : computeNullifier hash input.credentialRoot input.videoHashHi input.videoHashLo
    input.evidenceDigest = some input.nullifier

/-- The commitment, printed in decimal and read as hex, is the one the circuit derives. -/
def CommitmentFits (hash : List Scalar → Scalar) (input : SelectiveDisclosureInput)
    (w : Witness Scalar) : Prop :=
  ∃ c, commitmentChain hash input.predicates = some c ∧ hexReading c =
    (SelectiveDisclosure.computePredicateCommitment hash w.predicates w.numPredicates).val

/-- What else it takes. -/
structure Presentable (hash : List Scalar → Scalar) (input : SelectiveDisclosureInput)
    (w : Witness Scalar) : Prop where
  version : input.circuitVersion = CURRENT_CIRCUIT_VERSION
  count : input.numPredicates ≤ MAX_PREDICATES
  schema : (hexField input.schemaHash).isSome
  issuer : (hexField input.issuerNamespace).isSome
  schemaVersion : input.schemaVersion < BN254_SCALAR_FIELD_MODULUS
  verifier : ∃ digest, hexField input.verifierDigest = some digest ∧ digest ≠ (0 : Nat)
  nullifier : ∃ n < 10, input.nullifier = Nat.toDigits 10 n
  commitment : CommitmentFits hash input w

def KnownKind (q : SelectiveDisclosure.Predicate Scalar) : Prop :=
  q.predicateType = eqPredicateType ∨ q.predicateType = setMembershipPredicateType ∨
    q.predicateType = rangePredicateType

theorem Committed.knownKind (h : Committed p q) : KnownKind q := by
  have hval : ∀ n : Nat, n<3 → q.predicateType.val=n → q.predicateType=(n : Scalar) := by
    intro n hn hq
    have hcast : (n : Scalar).val=n := Nat.mod_eq_of_lt (hn.trans (by decide))
    exact Scalar.ext (hq.trans hcast.symm)
  have hnumber := h.1
  cases htype : p.predicateType with
  | Equality =>
    rw [htype] at hnumber
    exact .inl (hval 0 (by decide) hnumber)
  | SetMembership =>
    rw [htype] at hnumber
    exact .inr (.inl (hval 1 (by decide) hnumber))
  | Range =>
    rw [htype] at hnumber
    exact .inr (.inr (hval 2 (by decide) hnumber))

theorem foldl_or {α : Type} (test : α → Bool) (l : List α) (found : Bool) :
    l.foldl (fun found a => found || test a) found=(found || l.any test) := by
  induction l generalizing found with
  | nil => simp
  | cons a l ih => rw [List.foldl_cons,ih,List.any_cons,Bool.or_assoc]

theorem attribute_of_holds {p : SelectiveDisclosure.Predicate Scalar} {value : Scalar}
    (hbounded : w.numAttributes.toNat≤MAX_ATTRIBUTES)
    (hindex : p.attrIndex.toNat<w.numAttributes.toNat)
    (hvalue : w.attrValues.toList[p.attrIndex.toNat]? = some value) :
    w.attrValues.get (safeAttrIndex p.attrIndex)=value := by
  have hsafe : p.attrIndex.toNat<MAX_ATTRIBUTES := hindex.trans_le hbounded
  obtain ⟨hlt,hget⟩ := List.getElem?_eq_some_iff.1 hvalue
  rw [safeAttrIndex,dif_pos hsafe,← hget]
  rfl

theorem verifyPredicate_holds {p : SelectiveDisclosure.Predicate Scalar}
    (hbounded : w.numAttributes.toNat≤MAX_ATTRIBUTES)
    (htype : KnownKind p) (h : Holds w p) :
    verifyPredicate p.predicateType
      (w.attrValues.get (safeAttrIndex p.attrIndex)) p.publicValue p.setValues
      p.setLen p.lowerBound p.upperBound true=.ok () := by
  obtain ⟨hindex,value,hvalue,heq,hset,hrange⟩ := h
  rw [attribute_of_holds hbounded hindex hvalue]
  simp only [verifyPredicate,unit_bind_ok,assertThat_ok,foldl_or]
  have hfound : p.predicateType=setMembershipPredicateType →
      p.setValues.toList.zipIdx.any
        (fun v => decide (v.1=value) && decide (v.2<p.setLen.toNat))=true := by
    intro hkind
    obtain ⟨i,hi,hget⟩ := List.mem_iff_getElem.1 (hset hkind).2
    rw [List.length_take] at hi
    rw [List.getElem_take] at hget
    refine List.any_eq_true.2 ⟨(value,i),?_,?_⟩
    · rw [List.mk_mem_zipIdx_iff_getElem?,List.getElem?_eq_some_iff]
      exact ⟨by omega,hget⟩
    · simp only [decide_true,Bool.true_and,decide_eq_true_eq]
      omega
  refine ⟨?_,?_,?_,?_,?_⟩
  · simpa [KnownKind,or_assoc] using htype
  · by_cases hkind : p.predicateType=eqPredicateType
    · simp [hkind,heq hkind]
    · simp [hkind]
  · by_cases hkind : p.predicateType=setMembershipPredicateType
    · simp [hkind,hfound hkind]
    · simp [hkind]
  · by_cases hkind : p.predicateType=rangePredicateType
    · simp [hkind,(hrange hkind).1]
    · simp [hkind]
  · by_cases hkind : p.predicateType=rangePredicateType
    · simp [hkind,(hrange hkind).2]
    · simp [hkind]

theorem kind_of_honest (h : Honest hash input w) :
    ∀ q∈w.predicates.toList, KnownKind q := by
  obtain ⟨-,-,hcommitted⟩ := privateInputs_spec h.denoted
  intro q hq
  obtain ⟨i,hi,rfl⟩ := List.mem_iff_getElem.1 hq
  have hi' : i<(padPredicates input.predicates).length := by
    rw [hcommitted.length_eq]
    exact hi
  exact (List.Forall₂.get hcommitted hi' hi).knownKind

theorem slot_of_honest (h : Honest hash input w) :
    ∀ p∈w.predicates.toList.zipIdx, p.1∈w.predicates.toList ∧
      (p.2<w.numPredicates.toNat → Holds w p.1) := by
  rintro ⟨q,i⟩ hp
  obtain ⟨hi,hget⟩ := List.getElem?_eq_some_iff.1 (List.mk_mem_zipIdx_iff_getElem?.1 hp)
  refine ⟨hget ▸ List.getElem_mem hi,fun hactive => ?_⟩
  have hsize : i<MAX_PREDICATES := by simpa using hi
  have hholds := h.holds i hsize hactive
  rw [← hget]
  exact hholds

/-- The index and the set of a predicate in use are within their bounds. -/
theorem bounds_of_holds {p : SelectiveDisclosure.Predicate Scalar} (h : Holds w p) :
    p.attrIndex.toNat<w.numAttributes.toNat ∧
      (p.predicateType=setMembershipPredicateType →
        0<p.setLen.toNat ∧ p.setLen.toNat≤MAX_SET_MEMBERS) := by
  obtain ⟨hindex,value,-,-,hset,-⟩ := h
  refine ⟨hindex,fun hkind => ?_⟩
  obtain ⟨hsmall,hmem⟩ := hset hkind
  refine ⟨?_,hsmall⟩
  by_contra hnone
  rw [show p.setLen.toNat=0 by omega,List.take_zero] at hmem
  cases hmem

/-- With an opening and with predicates that hold, the circuit is left with the version, the number
of predicates, the commitment, the nullifier and the verifier's digest. -/
theorem main_iff (h : Honest hash input w)
    (hroot : hexField input.credentialRoot=some inputs.credentialRoot) :
    main hash w inputs=.ok () ↔
      inputs.circuitVersion=(CURRENT_CIRCUIT_VERSION : Nat) ∧
      w.numPredicates.toNat≤MAX_PREDICATES ∧
      SelectiveDisclosure.computePredicateCommitment hash w.predicates w.numPredicates =
        inputs.predicateCommitment ∧
      hash [inputs.credentialRoot,inputs.videoHashHi,inputs.videoHashLo,inputs.evidenceDigest] =
        inputs.nullifier ∧
      inputs.verifierDigest≠(0 : Nat) := by
  obtain ⟨root,hroot',hbounded,a,rest,hattributes,hopening⟩ := h.opens
  cases hroot'.symm.trans hroot
  have hderived := (computeCredentialRoot_eq hash hattributes).trans hopening
  have hpositive : 0<w.numAttributes.toNat := by
    have hlen := length_attributes hbounded
    rw [hattributes,List.length_cons] at hlen
    omega
  have htype := kind_of_honest h
  have hslot := slot_of_honest h
  simp only [main,unit_bind_ok,assertThat_ok,forM_ok]
  constructor
  · rintro ⟨-,hversion,-,-,hcount,-,-,-,hcommitment,hnullifier,hverifier⟩
    exact ⟨hversion,hcount,hcommitment,hnullifier,hverifier⟩
  · rintro ⟨hversion,hcount,hcommitment,hnullifier,hverifier⟩
    refine ⟨?_,hversion,hpositive,hbounded,hcount,?_,hderived,?_,hcommitment,hnullifier,hverifier⟩
    · intro p hp
      have hkind : KnownKind p.1 := htype p.1 (hslot p hp).1
      simp only [assertValidPredicateType,assertThat_ok]
      rw [KnownKind] at hkind
      simp [or_assoc,hkind]
    · intro p hp
      by_cases hactive : p.2<w.numPredicates.toNat
      · obtain ⟨hindex,hset⟩ := bounds_of_holds ((hslot p hp).2 hactive)
        by_cases hkind : p.1.predicateType=setMembershipPredicateType
        · obtain ⟨hsome,hsmall⟩ := hset hkind
          simp only [decide_eq_true hactive,decide_eq_true hindex,decide_eq_true hkind,
            decide_eq_true hsome,decide_eq_true hsmall]
          decide
        · simp only [decide_eq_true hactive,decide_eq_true hindex,decide_eq_false hkind]
          simp
      · simp [hactive]
    · intro p hp
      by_cases hactive : p.2<w.numPredicates.toNat
      · rw [decide_eq_true hactive]
        exact verifyPredicate_holds hbounded (htype p.1 (hslot p hp).1) ((hslot p hp).2 hactive)
      · simp [verifyPredicate,unit_bind_ok,assertThat_ok,hactive]

theorem pedersenHash_eq_some {elements : List Scalar} {inputs : List Int}
    (h : inputs=elements.map fun s => (s.val : Int)) :
    pedersenHash hash inputs=some (hash elements).val := by
  have hmap : inputs.mapM Scalar.of=some elements := by
    rw [mapM_eq_some,h,List.forall₂_map_left_iff,List.forall₂_same]
    exact fun s _ => of_eq_some.2 rfl
  rw [pedersenHash,hmap,map_some]

theorem computeNullifier_inversion {root hi lo evidence text : Text}
    (h : computeNullifier hash root hi lo evidence=some text) :
    ∃ a b c d, hexField root=some a ∧ hexField hi=some b ∧ hexField lo=some c ∧
      hexField evidence=some d ∧ text=Nat.toDigits 10 (hash [a,b,c,d]).val := by
  simp only [computeNullifier,bind_eq_bind,pure_def,bind_eq_some_iff,
    some.injEq,pedersenHash,map_eq_some_iff] at h
  obtain ⟨i,hroot,j,hhi,k,hlo,l,hevidence,n,⟨elements,helements,rfl⟩,rfl⟩ := h
  rw [mapM_eq_some] at helements
  obtain ⟨a,r1,ha,h1,rfl⟩ := List.forall₂_cons_left_iff.1 helements
  obtain ⟨b,r2,hb,h2,rfl⟩ := List.forall₂_cons_left_iff.1 h1
  obtain ⟨c,r3,hc,h3,rfl⟩ := List.forall₂_cons_left_iff.1 h2
  obtain ⟨d,r4,hd,h4,rfl⟩ := List.forall₂_cons_left_iff.1 h3
  obtain rfl := List.forall₂_nil_left_iff.1 h4
  refine ⟨a,b,c,d,?_,?_,?_,?_,rfl⟩
  · rw [hexField,hroot,bind_some,ha]
  · rw [hexField,hhi,bind_some,hb]
  · rw [hexField,hlo,bind_some,hc]
  · rw [hexField,hevidence,bind_some,hd]

theorem version_val : ((CURRENT_CIRCUIT_VERSION : Nat) : Scalar).val=CURRENT_CIRCUIT_VERSION := by
  decide

theorem presentable_of_satisfied (h : Honest hash input w) (hs : Satisfied hash input) :
    Presentable hash input w := by
  obtain ⟨a,b,c,d,hroot,hhi,hlo,hevidence,hnullifier⟩ := computeNullifier_inversion h.nullifier
  obtain ⟨-,hnumber,-⟩ := privateInputs_spec h.denoted
  obtain ⟨w',inputs,hprivate,hpublic,hmain⟩ := hs
  cases h.denoted.symm.trans hprivate
  obtain ⟨hschema,hissuer,hschemaVersion,hroot',hnull,hhi',hlo',hverifier,hversion,hevidence',
    commitment,hchain,hreading⟩ := publicInputs_iff.1 hpublic
  obtain ⟨hcurrent,hcount,hcommitment,hderived,hdigest⟩ := (main_iff h hroot').1 hmain
  refine ⟨?_,hnumber ▸ hcount,?_,?_,?_,⟨_,hverifier,hdigest⟩,?_,⟨commitment,hchain,?_⟩⟩
  · rw [hversion,hcurrent,version_val]
  · rw [hschema]
    rfl
  · rw [hissuer]
    rfl
  · rw [hschemaVersion]
    exact inputs.schemaVersion.lt
  · cases hroot.symm.trans hroot'
    cases hhi.symm.trans hhi'
    cases hlo.symm.trans hlo'
    cases hevidence.symm.trans hevidence'
    rw [hnullifier,hexField_toDigits,← hderived] at hnull
    exact ⟨_,(hexReading_spec _).2.1 hnull,hnullifier⟩
  · rw [hreading,hcommitment]

theorem satisfied_of_presentable (h : Honest hash input w) (hp : Presentable hash input w) :
    Satisfied hash input := by
  obtain ⟨a,b,c,d,hroot,hhi,hlo,hevidence,hnullifier⟩ := computeNullifier_inversion h.nullifier
  obtain ⟨-,hnumber,-⟩ := privateInputs_spec h.denoted
  obtain ⟨schema,hschema⟩ := isSome_iff_exists.1 hp.schema
  obtain ⟨issuer,hissuer⟩ := isSome_iff_exists.1 hp.issuer
  obtain ⟨digest,hdigest,hnonzero⟩ := hp.verifier
  obtain ⟨n,hn,hdigits⟩ := hp.nullifier
  have hsmall : (hash [a,b,c,d]).val<10 := by
    have hvalue := (toDigits_spec (by decide : 1<10) (by decide) (hash [a,b,c,d]).val).2
    rw [← hnullifier,hdigits,(toDigits_spec (by decide) (by decide) n).2] at hvalue
    omega
  let inputs : PublicInputs Scalar := {
    schemaHash := schema
    issuerNamespace := issuer
    schemaVersion := ⟨input.schemaVersion,hp.schemaVersion⟩
    credentialRoot := a
    nullifier := hash [a,b,c,d]
    videoHashHi := b
    videoHashLo := c
    verifierDigest := digest
    circuitVersion := (CURRENT_CIRCUIT_VERSION : Nat)
    evidenceDigest := d
    predicateCommitment :=
      SelectiveDisclosure.computePredicateCommitment hash w.predicates w.numPredicates }
  have hpublic : publicInputs hash input=some inputs := by
    refine publicInputs_iff.2 ⟨hschema,hissuer,rfl,hroot,?_,hhi,hlo,hdigest,?_,hevidence,
      hp.commitment⟩
    · rw [hnullifier,hexField_toDigits]
      exact (hexReading_spec _).2.2 hsmall
    · exact hp.version.trans version_val.symm
  refine ⟨w,inputs,h.denoted,hpublic,(main_iff h hroot).2 ⟨rfl,?_,rfl,rfl,hnonzero⟩⟩
  exact hnumber ▸ hp.count

/-- The predicates are counted right, and each public value is the same number to `BigInt` as it
is as hex. -/
def ReadAlike (input : SelectiveDisclosureInput) : Prop :=
  input.numPredicates = input.predicates.length ∧
    ∀ p ∈ input.predicates, bigInt (p.publicValue.getD zero) = toBigInt (p.publicValue.getD zero)

theorem commitmentStep_eq (h : Committed p q)
    (halike : bigInt (p.publicValue.getD zero)=toBigInt (p.publicValue.getD zero))
    (current : Scalar) : commitmentStep hash current.val p =
      some (predicateLink hash current q).val := by
  obtain ⟨htype,hindex,hvalue⟩ := h
  obtain ⟨i,hi,hof⟩ := bind_eq_some_iff.1 hvalue
  have hcast : ((q.attrIndex.toNat : Nat) : Scalar).val=q.attrIndex.toNat :=
    Nat.mod_eq_of_lt (q.attrIndex.toNat_lt.trans (by decide))
  rw [commitmentStep,halike,hi,bind_eq_bind,bind_some]
  refine pedersenHash_eq_some ?_
  rw [of_eq_some.1 hof,← htype,← hindex]
  simp only [List.map_cons,List.map_nil,hcast]

theorem commitmentChain_eq {predicates : List Predicate}
    {committed : List (SelectiveDisclosure.Predicate Scalar)}
    (h : List.Forall₂ Committed predicates committed)
    (halike : ∀ p∈predicates,
      bigInt (p.publicValue.getD zero)=toBigInt (p.publicValue.getD zero)) (current : Scalar) :
    predicates.foldlM (commitmentStep hash) current.val =
      some (committed.foldl (predicateLink hash) current).val := by
  induction h generalizing current with
  | nil => rfl
  | cons hp _ ih =>
    obtain ⟨hfirst,hrest⟩ := List.forall_mem_cons.1 halike
    rw [List.foldlM_cons,commitmentStep_eq hp hfirst,bind_eq_bind,bind_some,ih hrest,
      List.foldl_cons]

theorem commitmentFits_iff (hprivate : privateInputs input=some w) (halike : ReadAlike input) :
    CommitmentFits hash input w ↔
      (SelectiveDisclosure.computePredicateCommitment hash w.predicates w.numPredicates).val <
        10 := by
  obtain ⟨-,hnumber,hcommitted⟩ := privateInputs_spec hprivate
  have hinuse : List.Forall₂ Committed input.predicates
      (w.predicates.toList.take w.numPredicates.toNat) := by
    have htake := List.forall₂_take w.numPredicates.toNat hcommitted
    rw [hnumber,halike.1,padPredicates,padArray,List.take_left] at htake
    rw [hnumber,halike.1]
    exact htake
  have hchain : commitmentChain hash input.predicates=some
      (SelectiveDisclosure.computePredicateCommitment hash w.predicates w.numPredicates).val := by
    rw [computePredicateCommitment_eq]
    exact commitmentChain_eq hinuse halike.2 ((0 : Nat) : Scalar)
  rw [CommitmentFits,hchain,← (hexReading_spec _).2]
  simp

def sumHash (bound : Nat) (elements : List Scalar) : Scalar :=
  (((elements.map Scalar.val).sum%bound : Nat) : Scalar)

/-- One attribute, and the predicate that it has the value it has. -/
def sampleInput : SelectiveDisclosureInput where
  schemaHash := "0x1234".toList
  issuerNamespace := "0x1111".toList
  schemaVersion := 1
  credentialRoot := "0x2".toList
  nullifier := "5".toList
  videoHashHi := "0x1".toList
  videoHashLo := "0x1".toList
  verifierDigest := "0x2a".toList
  circuitVersion := 1
  evidenceDigest := "0x1".toList
  numAttributes := 1
  attrValues := ["0x1".toList]
  attrBlindings := ["0x1".toList]
  numPredicates := 1
  predicates := [⟨.Equality,0,some "0x1".toList,none,none,none,none⟩]

def sampleWitness (value : Nat) : Witness Scalar where
  numAttributes := 1
  attrValues := #v[(value : Nat),(0 : Nat),(0 : Nat),(0 : Nat),(0 : Nat),(0 : Nat),(0 : Nat),
    (0 : Nat),(0 : Nat),(0 : Nat),(0 : Nat),(0 : Nat),(0 : Nat),(0 : Nat),(0 : Nat),(0 : Nat)]
  attrBlindings := #v[(1 : Nat),(0 : Nat),(0 : Nat),(0 : Nat),(0 : Nat),(0 : Nat),(0 : Nat),
    (0 : Nat),(0 : Nat),(0 : Nat),(0 : Nat),(0 : Nat),(0 : Nat),(0 : Nat),(0 : Nat),(0 : Nat)]
  numPredicates := 1
  predicates :=
    let filled := ⟨(0 : Nat),0,(0 : Nat),Vector.replicate _ (0 : Nat),0,(0 : Nat),(0 : Nat)⟩
    let first := ⟨(0 : Nat),0,(value : Nat),Vector.replicate _ (0 : Nat),0,(0 : Nat),(0 : Nat)⟩
    #v[first,filled,filled,filled,filled,filled,filled,filled]

theorem sampleWitness_honest {value : Nat}
    (hdenoted : privateInputs input=some (sampleWitness value))
    (hroot : hexField input.credentialRoot=some (hash [(value : Nat),(1 : Nat)]))
    (hnullifier : computeNullifier hash input.credentialRoot input.videoHashHi input.videoHashLo
      input.evidenceDigest=some input.nullifier) : Honest hash input (sampleWitness value) := by
  have hone : (sampleWitness value).numAttributes.toNat≤MAX_ATTRIBUTES :=
    show 1≤16 by decide
  refine ⟨hdenoted,⟨_,hroot,hone,((value : Nat),(1 : Nat)),[],rfl,rfl⟩,?_,hnullifier⟩
  intro i hi hactive
  obtain rfl : i=0 := Nat.lt_one_iff.1 hactive
  have hkind : (sampleWitness value).predicates[0].predicateType.val=0 := rfl
  refine ⟨show 0<1 by decide,(value : Nat),rfl,fun _ => rfl,fun hset => ?_,fun hrange => ?_⟩
  · exact absurd (hkind.symm.trans (congrArg Scalar.val hset)) (by decide)
  · exact absurd (hkind.symm.trans (congrArg Scalar.val hrange)) (by decide)

def longNullifier : SelectiveDisclosureInput :=
  { sampleInput with
    nullifier := "20".toList
    videoHashHi := "0x10".toList }

def bareValue : SelectiveDisclosureInput :=
  { sampleInput with
    credentialRoot := "0x9".toList
    nullifier := "2".toList
    attrValues := ["12".toList]
    predicates := [⟨.Equality,0,some "12".toList,none,none,none,none⟩] }

end Harpocrates.Clients.DisclosureProver
