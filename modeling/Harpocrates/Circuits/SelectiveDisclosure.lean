import Mathlib.Data.ZMod.Basic
import Harpocrates.Circuits.Common
import Harpocrates.Codec.Layout
import Harpocrates.Framework.HashChain

namespace Harpocrates.Circuits.SelectiveDisclosure

open Framework Framework.Fallible

def MAX_ATTRIBUTES : Nat := 16
def MAX_PREDICATES : Nat := 8
def MAX_SET_MEMBERS : Nat := 8
def CURRENT_CIRCUIT_VERSION : Nat := 1

structure Predicate (F : Type) where
  predicateType : F
  attrIndex : UInt32
  publicValue : F
  setValues : Vector F MAX_SET_MEMBERS
  setLen : UInt32
  lowerBound : F
  upperBound : F

structure PublicInputs (F : Type) where
  schemaHash : F
  issuerNamespace : F
  schemaVersion : F
  credentialRoot : F
  nullifier : F
  videoHashHi : F
  videoHashLo : F
  verifierDigest : F
  circuitVersion : F
  evidenceDigest : F
  predicateCommitment : F

structure Witness (F : Type) where
  numAttributes : UInt32
  attrValues : Vector F MAX_ATTRIBUTES
  attrBlindings : Vector F MAX_ATTRIBUTES
  numPredicates : UInt32
  predicates : Vector (Predicate F) MAX_PREDICATES

section

variable {F : Type} [DecidableEq F] [NatCast F] [LE F] [DecidableLE F] (pedersenHash : List F → F)

def eqPredicateType : F := (0 : Nat)
def setMembershipPredicateType : F := (1 : Nat)
def rangePredicateType : F := (2 : Nat)

def assertValidPredicateType (predicateType : F) (isActive : Bool) : Except Failure Unit :=
  let isEq := decide (predicateType = eqPredicateType)
  let isSet := decide (predicateType = setMembershipPredicateType)
  let isRange := decide (predicateType = rangePredicateType)
  assertThat (!isActive || (isEq || isSet || isRange)) .unsupportedPredicateType

def attrCommitment (value blinding : F) : F := pedersenHash [value,blinding]

def computeCredentialRoot (commitments : Vector F MAX_ATTRIBUTES) (numAttributes : UInt32) : F :=
  (commitments.toList.tail.zipIdx 1).foldl (fun current c =>
    if c.2 < numAttributes.toNat then pedersenHash [current,c.1] else current) commitments[0]

def verifyPredicate (predicateType attrValue publicValue : F) (setValues : Vector F MAX_SET_MEMBERS)
    (setLen : UInt32) (lowerBound upperBound : F) (isActive : Bool) : Except Failure Unit := do
  let isEq := decide (predicateType = eqPredicateType)
  let isSet := decide (predicateType = setMembershipPredicateType)
  let isRange := decide (predicateType = rangePredicateType)
  assertThat (!isActive || (isEq || isSet || isRange)) .unsupported
  assertThat (!(isActive && isEq) || decide (attrValue = publicValue)) .malformed
  let setFound := setValues.toList.zipIdx.foldl (fun found v =>
    found || (decide (v.1 = attrValue) && decide (v.2 < setLen.toNat))) false
  assertThat (!(isActive && isSet) || setFound) .malformed
  assertThat (!(isActive && isRange) || decide (lowerBound ≤ attrValue)) .malformed
  assertThat (!(isActive && isRange) || decide (attrValue ≤ upperBound)) .malformed

def computePredicateCommitment (predicates : Vector (Predicate F) MAX_PREDICATES)
    (numPredicates : UInt32) : F :=
  predicates.toList.zipIdx.foldl (fun current p =>
    if p.2 < numPredicates.toNat then
      pedersenHash [current,p.1.predicateType,(p.1.attrIndex.toNat : Nat),p.1.publicValue]
    else current) (0 : Nat)

def safeAttrIndex (attrIndex : UInt32) : Fin MAX_ATTRIBUTES :=
  if h : attrIndex.toNat < MAX_ATTRIBUTES then ⟨attrIndex.toNat,h⟩ else ⟨0,by decide⟩

def commitmentsOf (w : Witness F) : Vector F MAX_ATTRIBUTES :=
  Vector.ofFn fun i => attrCommitment pedersenHash w.attrValues[i] w.attrBlindings[i]

def main (w : Witness F) (inputs : PublicInputs F) : Except Failure Unit := do
  forM w.predicates.toList.zipIdx fun p =>
    assertValidPredicateType p.1.predicateType (decide (p.2 < w.numPredicates.toNat))
  assertThat (inputs.circuitVersion = (CURRENT_CIRCUIT_VERSION : Nat)) .circuitVersionMismatch
  assertThat (w.numAttributes.toNat > 0) .malformed
  assertThat (w.numAttributes.toNat ≤ MAX_ATTRIBUTES) .oversized
  assertThat (w.numPredicates.toNat ≤ MAX_PREDICATES) .oversized
  forM w.predicates.toList.zipIdx fun p => do
    let isActive := decide (p.2 < w.numPredicates.toNat)
    let validAttrIndex := decide (p.1.attrIndex.toNat < w.numAttributes.toNat)
    assertThat (!isActive || validAttrIndex) .malformed
    let isSet := decide (p.1.predicateType = setMembershipPredicateType)
    let checkSet := isActive && isSet
    assertThat (!checkSet || decide (p.1.setLen.toNat > 0)) .malformed
    assertThat (!checkSet || decide (p.1.setLen.toNat ≤ MAX_SET_MEMBERS)) .oversized
  let derivedRoot := computeCredentialRoot pedersenHash (commitmentsOf pedersenHash w)
    w.numAttributes
  assertThat (derivedRoot = inputs.credentialRoot) .malformed
  forM w.predicates.toList.zipIdx fun p =>
    verifyPredicate p.1.predicateType (w.attrValues.get (safeAttrIndex p.1.attrIndex))
      p.1.publicValue p.1.setValues p.1.setLen p.1.lowerBound p.1.upperBound
      (decide (p.2 < w.numPredicates.toNat))
  let derivedPredCommitment := computePredicateCommitment pedersenHash w.predicates
    w.numPredicates
  assertThat (derivedPredCommitment = inputs.predicateCommitment) .predicateCommitmentMismatch
  let derivedNullifier := pedersenHash
    [inputs.credentialRoot,inputs.videoHashHi,inputs.videoHashLo,inputs.evidenceDigest]
  assertThat (derivedNullifier = inputs.nullifier) .malformed
  -- the source also hashes the digest with the schema and the version, and drops the result
  assertThat (inputs.verifierDigest ≠ (0 : Nat)) .malformed

end

section

variable {F : Type} (pedersenHash : List F → F)

def predicateLink [NatCast F] (current : F) (p : Predicate F) : F :=
  pedersenHash [current,p.predicateType,(p.attrIndex.toNat : Nat),p.publicValue]

theorem computePredicateCommitment_eq [NatCast F] (predicates : Vector (Predicate F) MAX_PREDICATES)
    (numPredicates : UInt32) : computePredicateCommitment pedersenHash predicates numPredicates =
      (predicates.toList.take numPredicates.toNat).foldl (predicateLink pedersenHash) (0 : Nat) :=
  foldl_zipIdx_mask (predicateLink pedersenHash) numPredicates.toNat 0 _ _

def Witness.attributes (w : Witness F) : List (F × F) :=
  (w.attrValues.toList.zip w.attrBlindings.toList).take w.numAttributes.toNat

def attributeLink (current : F) (a : F × F) : F :=
  pedersenHash [current,attrCommitment pedersenHash a.1 a.2]

def rootOf (a : F × F) (rest : List (F × F)) : F :=
  rest.foldl (attributeLink pedersenHash) (attrCommitment pedersenHash a.1 a.2)

theorem commitmentsOf_toList (w : Witness F) : (commitmentsOf pedersenHash w).toList =
    (w.attrValues.toList.zip w.attrBlindings.toList).map
      fun a => attrCommitment pedersenHash a.1 a.2 := by
  refine List.ext_getElem (by simp) fun i hi hi' => ?_
  simp [commitmentsOf]

theorem computeCredentialRoot_eq {w : Witness F} {a : F × F} {rest : List (F × F)}
    (h : w.attributes=a::rest) :
    computeCredentialRoot pedersenHash (commitmentsOf pedersenHash w) w.numAttributes =
      rootOf pedersenHash a rest := by
  rw [Witness.attributes] at h
  cases hall : w.attrValues.toList.zip w.attrBlindings.toList with
  | nil => simp [hall] at h
  | cons b others =>
    obtain ⟨n,hn⟩ : ∃ n, w.numAttributes.toNat=n+1 := by
      cases hnum : w.numAttributes.toNat with
      | zero => simp [hnum] at h
      | succ n => exact ⟨n,rfl⟩
    rw [hall,hn,List.take_succ_cons] at h
    obtain ⟨rfl,rfl⟩ := List.cons.inj h
    have hlist := commitmentsOf_toList pedersenHash w
    rw [hall,List.map_cons] at hlist
    have hfirst : (commitmentsOf pedersenHash w)[0]=attrCommitment pedersenHash b.1 b.2 := by
      have hne : 0<(commitmentsOf pedersenHash w).toList.length := by simp [hlist]
      exact (Vector.getElem_toList hne).symm.trans (List.getElem_of_eq hlist hne)
    have hmask := foldl_zipIdx_mask (fun current c => pedersenHash [current,c])
      w.numAttributes.toNat 1 (attrCommitment pedersenHash b.1 b.2)
      (others.map fun a => attrCommitment pedersenHash a.1 a.2)
    rw [computeCredentialRoot,hlist,hfirst,List.tail_cons,hmask,hn,Nat.add_sub_cancel,
      ← List.map_take,List.foldl_map]
    rfl

/-- The two witnesses commit to the same attributes. -/
def SameOpening (w w' : Witness F) : Prop :=
  w.numAttributes = w'.numAttributes ∧
  ∀ (i : Nat) (hi : i < MAX_ATTRIBUTES), i < w.numAttributes.toNat →
    w.attrValues[i] = w'.attrValues[i] ∧ w.attrBlindings[i] = w'.attrBlindings[i]

variable {w w' : Witness F}

theorem length_attributes (hbounded : w.numAttributes.toNat≤MAX_ATTRIBUTES) :
    w.attributes.length=w.numAttributes.toNat := by
  simpa [Witness.attributes] using hbounded

theorem first_attribute {a : F × F} {rest : List (F × F)} (h : w.attributes=a::rest) :
    a=(w.attrValues[0],w.attrBlindings[0]) := by
  have hentry := List.getElem_of_eq h (by rw [h]; exact Nat.succ_pos _)
  simpa [Witness.attributes] using hentry.symm

theorem sameOpening_iff (hbounded : w.numAttributes.toNat≤MAX_ATTRIBUTES)
    (hbounded' : w'.numAttributes.toNat≤MAX_ATTRIBUTES) :
    SameOpening w w' ↔ w.attributes=w'.attributes := by
  constructor
  · intro h
    obtain ⟨hnum,hsame⟩ := h
    refine List.ext_getElem ?_ fun i hi hi' => ?_
    · rw [length_attributes hbounded,length_attributes hbounded',hnum]
    · rw [length_attributes hbounded] at hi
      have hpair := hsame i (hi.trans_le hbounded) hi
      simpa [Witness.attributes] using hpair
  · intro h
    have hlen := congrArg List.length h
    rw [length_attributes hbounded,length_attributes hbounded'] at hlen
    refine ⟨UInt32.toNat.inj hlen,fun i hi hactive => ?_⟩
    have hi' : i<w.attributes.length := by rwa [length_attributes hbounded]
    have hentry := List.getElem_of_eq h hi'
    simpa [Witness.attributes] using hentry

def PairsFree : Prop :=
  ∀ a b c d, pedersenHash [a,b] = pedersenHash [c,d] → a = c ∧ b = d

def HashedPair (x : F) : Prop := ∃ a b, x = pedersenHash [a,b]

variable {pedersenHash} {a b : F × F} {rest rest' : List (F × F)}

theorem attributeLink_inj (hfree : PairsFree pedersenHash) (s : F) (a : F × F) (s' : F)
    (b : F × F) (h : attributeLink pedersenHash s a=attributeLink pedersenHash s' b) :
    s=s' ∧ a=b := by
  obtain ⟨hs,hcommitment⟩ := hfree _ _ _ _ h
  obtain ⟨hvalue,hblinding⟩ := hfree _ _ _ _ hcommitment
  exact ⟨hs,Prod.ext hvalue hblinding⟩

theorem rootOf_hashedPair (a : F × F) (rest : List (F × F)) :
    HashedPair pedersenHash (rootOf pedersenHash a rest) := by
  cases rest using List.reverseRecOn with
  | nil => exact ⟨a.1,a.2,rfl⟩
  | append_singleton rest b =>
    rw [rootOf,List.foldl_concat]
    exact ⟨_,_,rfl⟩

theorem rootOf_inj (hfree : PairsFree pedersenHash) (hlen : rest.length=rest'.length)
    (h : rootOf pedersenHash a rest=rootOf pedersenHash b rest') : a=b ∧ rest=rest' := by
  obtain ⟨between,hrest,hstart⟩ := foldl_peel (attributeLink_inj hfree) hlen.le h
  have hnone : between=[] := by
    have hlength := congrArg List.length hrest
    rw [List.length_append,hlen] at hlength
    exact List.length_eq_zero_iff.1 (by omega)
  subst hnone
  obtain ⟨hvalue,hblinding⟩ := hfree _ _ _ _ hstart
  exact ⟨Prod.ext hvalue hblinding,hrest.symm⟩

/-- The first attribute of an opening that is not the longest is made of a root and a commitment
of the longer one. -/
theorem rootOf_longer (hfree : PairsFree pedersenHash) (hlen : rest.length<rest'.length)
    (h : rootOf pedersenHash a rest=rootOf pedersenHash b rest') :
    HashedPair pedersenHash a.1 ∧ HashedPair pedersenHash a.2 := by
  obtain ⟨between,hrest,hstart⟩ := foldl_peel (attributeLink_inj hfree) hlen.le h
  cases between using List.reverseRecOn with
  | nil =>
    rw [List.nil_append] at hrest
    rw [hrest] at hlen
    exact absurd hlen (lt_irrefl _)
  | append_singleton between c =>
    rw [List.foldl_concat] at hstart
    obtain ⟨hvalue,hblinding⟩ := hfree _ _ _ _ hstart
    refine ⟨?_,c.1,c.2,hblinding⟩
    rw [hvalue]
    exact rootOf_hashedPair b between

end

section

variable {F : Type} [NatCast F] (pedersenHash : List F → F)

/-- What the circuit establishes, as far as the openings and the equality predicates go. -/
structure Accepted (w : Witness F) (inputs : PublicInputs F) : Prop where
  version : inputs.circuitVersion = (CURRENT_CIRCUIT_VERSION : Nat)
  positive : 0 < w.numAttributes.toNat
  bounded : w.numAttributes.toNat ≤ MAX_ATTRIBUTES
  predicates : w.numPredicates.toNat ≤ MAX_PREDICATES
  root : computeCredentialRoot pedersenHash (commitmentsOf pedersenHash w) w.numAttributes =
    inputs.credentialRoot
  index : ∀ (i : Nat) (hi : i < MAX_PREDICATES), i < w.numPredicates.toNat →
    w.predicates[i].attrIndex.toNat < w.numAttributes.toNat
  equality : ∀ (i : Nat) (hi : i < MAX_PREDICATES), i < w.numPredicates.toNat →
    w.predicates[i].predicateType = eqPredicateType →
    w.attrValues.get (safeAttrIndex w.predicates[i].attrIndex) = w.predicates[i].publicValue
  commitment : computePredicateCommitment pedersenHash w.predicates w.numPredicates =
    inputs.predicateCommitment
  nullifier : pedersenHash [inputs.credentialRoot,inputs.videoHashHi,inputs.videoHashLo,
    inputs.evidenceDigest] = inputs.nullifier
  verifier : inputs.verifierDigest ≠ (0 : Nat)

variable {pedersenHash} {w w' : Witness F} {inputs inputs' : PublicInputs F}

theorem Accepted.opening (h : Accepted pedersenHash w inputs) : ∃ a rest,
    w.attributes=a::rest ∧ rootOf pedersenHash a rest=inputs.credentialRoot := by
  have hlen := length_attributes h.bounded
  cases hattributes : w.attributes with
  | nil =>
    rw [hattributes,List.length_nil] at hlen
    exact absurd h.positive (by omega)
  | cons a rest => exact ⟨a,rest,rfl,(computeCredentialRoot_eq _ hattributes).symm.trans h.root⟩

/-- Another opening: the attributes given, no predicates. -/
def Witness.reopened (w : Witness F) (attributes : List (F × F)) : Witness F where
  numAttributes := UInt32.ofNat attributes.length
  attrValues := Vector.ofFn fun i => (attributes.getD i ((0 : Nat),(0 : Nat))).1
  attrBlindings := Vector.ofFn fun i => (attributes.getD i ((0 : Nat),(0 : Nat))).2
  numPredicates := 0
  predicates := w.predicates

theorem numAttributes_reopened (w : Witness F) {attributes : List (F × F)}
    (hlen : attributes.length≤MAX_ATTRIBUTES) :
    (w.reopened attributes).numAttributes.toNat=attributes.length := by
  have hsmall : attributes.length<2^32 := hlen.trans_lt (by decide)
  exact UInt32.toNat_ofNat_of_lt' hsmall

theorem attributes_reopened (w : Witness F) {attributes : List (F × F)}
    (hlen : attributes.length≤MAX_ATTRIBUTES) :
    (w.reopened attributes).attributes=attributes := by
  have hnum := numAttributes_reopened w hlen
  refine List.ext_getElem ?_ fun i hi hi' => ?_
  · rw [length_attributes (hnum.trans_le hlen),hnum]
  · simp [Witness.attributes,Witness.reopened,hi']

theorem openings_agree (hfree : PairsFree pedersenHash) (h : Accepted pedersenHash w inputs)
    (h' : Accepted pedersenHash w' inputs') (hsame : inputs.credentialRoot=inputs'.credentialRoot)
    (hnum : w.numAttributes=w'.numAttributes) : SameOpening w w' := by
  obtain ⟨a,rest,hattributes,hroot⟩ := h.opening
  obtain ⟨b,rest',hattributes',hroot'⟩ := h'.opening
  have hlen := length_attributes h.bounded
  have hlen' := length_attributes h'.bounded
  rw [hattributes] at hlen
  rw [hattributes',← hnum,← hlen] at hlen'
  obtain ⟨rfl,rfl⟩ := rootOf_inj hfree (Nat.succ.inj hlen').symm
    (hroot.trans (hsame.trans hroot'.symm))
  rw [sameOpening_iff h.bounded h'.bounded,hattributes,hattributes']

theorem only_opening_of_single (hfree : PairsFree pedersenHash) (h : Accepted pedersenHash w inputs)
    (hone : w.numAttributes=1) (hplain : ¬ (HashedPair pedersenHash w.attrValues[0] ∧
      HashedPair pedersenHash w.attrBlindings[0]))
    (h' : Accepted pedersenHash w' inputs')
    (hsame : inputs.credentialRoot=inputs'.credentialRoot) : SameOpening w w' := by
  obtain ⟨a,rest,hattributes,hroot⟩ := h.opening
  obtain ⟨b,rest',hattributes',hroot'⟩ := h'.opening
  have hlen := length_attributes h.bounded
  have hlen' := length_attributes h'.bounded
  rw [hattributes,hone] at hlen
  rw [hattributes'] at hlen'
  have hnil : rest=[] := List.length_eq_zero_iff.1 (Nat.succ.inj hlen)
  subst hnil
  refine openings_agree hfree h h' hsame ?_
  rw [hone]
  refine UInt32.toNat.inj ?_
  rw [← hlen']
  by_contra hmore
  have hlonger : ([] : List (F × F)).length<rest'.length := by
    rw [List.length_cons] at hmore
    exact Nat.pos_of_ne_zero fun hzero => hmore (by rw [hzero]; rfl)
  have hhashed := rootOf_longer hfree hlonger (hroot.trans (hsame.trans hroot'.symm))
  rw [first_attribute hattributes] at hhashed
  exact hplain hhashed

def CollisionFree (hash : List F → F) : Prop :=
  ∀ l l' : List F, l.length = l'.length → hash l = hash l' → l = l'

def Predicate.committed (p : Predicate F) : F × UInt32 × F :=
  (p.predicateType,p.attrIndex,p.publicValue)

variable (F) in
def IndicesFit : Prop :=
  ∀ m n : UInt32, ((m.toNat : Nat) : F) = (n.toNat : Nat) → m = n

-- the field of the proof system is large enough
example : IndicesFit (ZMod Codec.BN254_SCALAR_FIELD_MODULUS) := by
  have hsmall : ∀ n : UInt32, n.toNat%Codec.BN254_SCALAR_FIELD_MODULUS = n.toNat := by
    intro n
    exact Nat.mod_eq_of_lt (n.toNat_lt.trans (by decide +kernel))
  intro m n h
  rw [ZMod.natCast_eq_natCast_iff',hsmall,hsmall] at h
  exact UInt32.toNat.inj h

theorem predicateLink_map (predicates : List (Predicate F)) (current : F) :
    predicates.foldl (predicateLink pedersenHash) current =
      (predicates.map Predicate.committed).foldl (fun current c =>
        pedersenHash [current,c.1,(c.2.1.toNat : Nat),c.2.2]) current := by
  rw [List.foldl_map]
  rfl

theorem committed_inj (hfree : CollisionFree pedersenHash)
    (hzero : ∀ l, pedersenHash l≠(0 : Nat)) (hfit : IndicesFit F)
    {predicates predicates' : List (Predicate F)}
    (h : predicates.foldl (predicateLink pedersenHash) (0 : Nat) =
      predicates'.foldl (predicateLink pedersenHash) (0 : Nat)) :
    predicates.map Predicate.committed=predicates'.map Predicate.committed := by
  rw [predicateLink_map,predicateLink_map] at h
  refine foldl_inj ?_ (fun _ _ => hzero _) h
  intro s c s' c' hlink
  have hpreimage := hfree _ _ (by rfl) hlink
  simp only [List.cons.injEq,and_true] at hpreimage
  obtain ⟨hs,htype,hindex,hvalue⟩ := hpreimage
  exact ⟨hs,Prod.ext htype (Prod.ext (hfit _ _ hindex) hvalue)⟩

theorem committed_agree (hfree : CollisionFree pedersenHash)
    (hzero : ∀ l, pedersenHash l≠(0 : Nat)) (hfit : IndicesFit F)
    (h : Accepted pedersenHash w inputs) (h' : Accepted pedersenHash w' inputs')
    (hsame : inputs.predicateCommitment=inputs'.predicateCommitment) :
    w.numPredicates=w'.numPredicates ∧
    ∀ (i : Nat) (hi : i<MAX_PREDICATES), i<w.numPredicates.toNat →
      w.predicates[i].committed=w'.predicates[i].committed := by
  have hchain := h.commitment.trans (hsame.trans h'.commitment.symm)
  rw [computePredicateCommitment_eq,computePredicateCommitment_eq] at hchain
  have hlist := committed_inj hfree hzero hfit hchain
  have hnum : w.numPredicates.toNat=w'.numPredicates.toNat := by
    have hlength := congrArg List.length hlist
    have hbound := h.predicates
    have hbound' := h'.predicates
    simpa [Nat.min_eq_left hbound,Nat.min_eq_left hbound'] using hlength
  refine ⟨UInt32.toNat.inj hnum,fun i hi hactive => ?_⟩
  have hentry := List.getElem_of_eq hlist (i := i) (by simpa using ⟨hactive,hi⟩)
  simpa using hentry

end

section

variable {F : Type} [DecidableEq F] [NatCast F] [LE F] [DecidableLE F] {pedersenHash : List F → F}
  {w w' : Witness F} {inputs inputs' : PublicInputs F}

theorem mem_zipIdx {α : Type} {n : Nat} {v : Vector α n} {i : Nat} (hi : i<n) :
    (v[i],i)∈v.toList.zipIdx := by
  rw [List.mk_mem_zipIdx_iff_getElem?]
  simp [hi]

theorem main_accepted (h : main pedersenHash w inputs=.ok ()) :
    Accepted pedersenHash w inputs := by
  simp only [main,unit_bind_ok,assertThat_ok,forM_ok] at h
  obtain ⟨-,hversion,hpositive,hbounded,hpredicates,hindices,hroot,hverified,hcommitment,
    hnullifier,hverifier⟩ := h
  refine ⟨hversion,hpositive,hbounded,hpredicates,hroot,?_,?_,hcommitment,hnullifier,hverifier⟩
  · intro i hi hactive
    have hindex := (hindices _ (mem_zipIdx hi)).1
    simpa [hactive] using hindex
  · intro i hi hactive heq
    have hpredicate := hverified _ (mem_zipIdx hi)
    simp only [verifyPredicate,unit_bind_ok,assertThat_ok] at hpredicate
    simpa [hactive,heq] using hpredicate.2.1

/-- Without predicates there is nothing to check about them. -/
theorem main_without_predicates (hnone : w.numPredicates=0)
    (hpositive : 0<w.numAttributes.toNat) (hbounded : w.numAttributes.toNat≤MAX_ATTRIBUTES)
    (hroot : computeCredentialRoot pedersenHash (commitmentsOf pedersenHash w) w.numAttributes =
      inputs.credentialRoot) (h' : Accepted pedersenHash w' inputs) :
    main pedersenHash w { inputs with predicateCommitment := (0 : Nat) }=.ok () := by
  have hcommitment : computePredicateCommitment pedersenHash w.predicates w.numPredicates =
      (0 : Nat) := by
    rw [computePredicateCommitment_eq,hnone]
    rfl
  simp only [main,unit_bind_ok,assertThat_ok,forM_ok]
  refine ⟨?_,h'.version,hpositive,hbounded,by simp [hnone],?_,hroot,?_,hcommitment,h'.nullifier,
    h'.verifier⟩
  · intro p _
    simp [assertValidPredicateType,assertThat_ok,hnone]
  · intro p _
    simp [hnone]
  · intro p _
    simp [verifyPredicate,unit_bind_ok,assertThat_ok,hnone]

theorem main_reopened (h : Accepted pedersenHash w inputs) {a : F × F} {rest : List (F × F)}
    (hlen : (a::rest).length≤MAX_ATTRIBUTES)
    (hroot : rootOf pedersenHash a rest=inputs.credentialRoot) :
    main pedersenHash (w.reopened (a::rest)) { inputs with predicateCommitment := (0 : Nat) } =
      .ok () := by
  have hnum := numAttributes_reopened w hlen
  refine main_without_predicates rfl ?_ (hnum.trans_le hlen) ?_ h
  · rw [hnum]
    exact Nat.succ_pos _
  · rw [computeCredentialRoot_eq _ (attributes_reopened w hlen),hroot]

/-- The attributes of an opening without alternative: there is one, and it is not made of two
hashes. -/
theorem single_of_only_opening (h : Accepted pedersenHash w inputs)
    (honly : ∀ w' inputs', main pedersenHash w' inputs'=.ok () →
      inputs.credentialRoot=inputs'.credentialRoot → SameOpening w w') :
    w.numAttributes=1 ∧ ¬ (HashedPair pedersenHash w.attrValues[0] ∧
      HashedPair pedersenHash w.attrBlindings[0]) := by
  obtain ⟨a,rest,hattributes,hroot⟩ := h.opening
  have hlen := length_attributes h.bounded
  rw [hattributes] at hlen
  have hcount : ∀ b rest', (b::rest').length≤MAX_ATTRIBUTES →
      rootOf pedersenHash b rest'=inputs.credentialRoot → rest'.length=rest.length := by
    intro b rest' hbound hroot'
    have hopening := honly _ _ (main_reopened h hbound hroot') rfl
    have hnum := congrArg UInt32.toNat hopening.1
    rw [numAttributes_reopened w hbound,← hlen] at hnum
    exact (Nat.succ.inj hnum).symm
  -- the first two attributes could be taken together
  have hsingle : rest=[] := by
    cases rest with
    | nil => rfl
    | cons b others =>
      have hshorter := hcount (attrCommitment pedersenHash a.1 a.2,
        attrCommitment pedersenHash b.1 b.2) others
        ((Nat.le_succ _).trans (hlen.trans_le h.bounded)) hroot
      exact absurd hshorter (by simp)
  subst hsingle
  refine ⟨UInt32.toNat.inj hlen.symm,fun hhashed => ?_⟩
  -- and a single one that is made of hashes could be taken apart
  obtain ⟨⟨c,d,hvalue⟩,⟨c',d',hblinding⟩⟩ := hhashed
  have hroot' : rootOf pedersenHash (c,d) [(c',d')]=inputs.credentialRoot := by
    rw [← hroot,first_attribute hattributes,hvalue,hblinding]
    rfl
  have hlonger := hcount (c,d) [(c',d')] (by simp [MAX_ATTRIBUTES]) hroot'
  exact absurd hlonger (by simp)

/-- Two openings of a credential root agree exactly when they have as many attributes. An opening
is the only one exactly when it has a single attribute, and this is not itself made of two
hashes. -/
theorem credential_root_opening (hfree : PairsFree pedersenHash)
    (h : main pedersenHash w inputs = .ok ()) :
    (∀ w' inputs', main pedersenHash w' inputs' = .ok () →
      inputs.credentialRoot = inputs'.credentialRoot →
      (SameOpening w w' ↔ w.numAttributes = w'.numAttributes)) ∧
    ((∀ w' inputs', main pedersenHash w' inputs' = .ok () →
      inputs.credentialRoot = inputs'.credentialRoot → SameOpening w w') ↔
      w.numAttributes = 1 ∧ ¬ (HashedPair pedersenHash w.attrValues[0] ∧
        HashedPair pedersenHash w.attrBlindings[0])) := by
  have hw := main_accepted h
  refine ⟨fun w' inputs' h' hsame => ?_,single_of_only_opening hw,fun hsingle w' inputs' h' => ?_⟩
  · exact ⟨fun hopening => hopening.1,openings_agree hfree hw (main_accepted h') hsame⟩
  · exact only_opening_of_single hfree hw hsingle.1 hsingle.2 (main_accepted h')

/-- The commitment identifies the predicates in use, up to what only sets and ranges need. An
equality predicate in use is about an attribute in an opening of the credential root. -/
theorem predicate_commitment_identifies (hfree : CollisionFree pedersenHash)
    (hzero : ∀ l, pedersenHash l ≠ (0 : Nat)) (hfit : IndicesFit F)
    (h : main pedersenHash w inputs = .ok ()) :
    (∀ w' inputs', main pedersenHash w' inputs' = .ok () →
      inputs.predicateCommitment = inputs'.predicateCommitment →
      w.numPredicates = w'.numPredicates ∧
      ∀ (i : Nat) (hi : i < MAX_PREDICATES), i < w.numPredicates.toNat →
        w.predicates[i].predicateType = w'.predicates[i].predicateType ∧
        w.predicates[i].attrIndex = w'.predicates[i].attrIndex ∧
        w.predicates[i].publicValue = w'.predicates[i].publicValue) ∧
    ∀ (i : Nat) (hi : i < MAX_PREDICATES), i < w.numPredicates.toNat →
      w.predicates[i].predicateType = eqPredicateType →
      computeCredentialRoot pedersenHash (commitmentsOf pedersenHash w) w.numAttributes =
        inputs.credentialRoot ∧
      w.predicates[i].attrIndex.toNat < w.numAttributes.toNat ∧
      ∃ hindex : w.predicates[i].attrIndex.toNat < MAX_ATTRIBUTES,
        w.attrValues[w.predicates[i].attrIndex.toNat] = w.predicates[i].publicValue := by
  have hw := main_accepted h
  constructor
  · intro w' inputs' h' hsame
    obtain ⟨hnum,hcommitted⟩ := committed_agree hfree hzero hfit hw (main_accepted h') hsame
    refine ⟨hnum,fun i hi hactive => ?_⟩
    have hparts := hcommitted i hi hactive
    simpa [Predicate.committed] using hparts
  · intro i hi hactive htype
    have hindex := hw.index i hi hactive
    have hsafe := hindex.trans_le hw.bounded
    have hvalue := hw.equality i hi hactive htype
    rw [safeAttrIndex,dif_pos hsafe] at hvalue
    exact ⟨hw.root,hindex,hsafe,hvalue⟩

end

/-- The public inputs for a witness. -/
def disclosed (hash : List Nat → Nat) (w : Witness Nat) : PublicInputs Nat :=
  let credentialRoot := computeCredentialRoot hash (commitmentsOf hash w) w.numAttributes
  { schemaHash := 0x1234567890abcdef1234567890abcdef1234567890abcdef1234567890abcdef
    issuerNamespace := 0x1111111111111111111111111111111111111111111111111111111111111111
    schemaVersion := 1
    credentialRoot := credentialRoot
    nullifier := hash [credentialRoot,1234,5678,9999]
    videoHashHi := 1234
    videoHashLo := 5678
    verifierDigest := 42
    circuitVersion := 1
    evidenceDigest := 9999
    predicateCommitment := computePredicateCommitment hash w.predicates w.numPredicates }

/-- A witness whose one predicate is that the first attribute has the value it has. -/
def attested (numAttributes : UInt32) (values blindings : Vector Nat MAX_ATTRIBUTES) :
    Witness Nat where
  numAttributes := numAttributes
  attrValues := values
  attrBlindings := blindings
  numPredicates := 1
  predicates := Vector.replicate _ ⟨0,0,values[0],Vector.replicate _ 0,0,0,0⟩

def issued : Witness Nat :=
  attested 2 #v[18,12345678,0,0,0,0,0,0,0,0,0,0,0,0,0,0]
    #v[111111,222222,0,0,0,0,0,0,0,0,0,0,0,0,0,0]

def merged : Witness Nat :=
  attested 1 #v[freeHash [18,111111],0,0,0,0,0,0,0,0,0,0,0,0,0,0,0]
    #v[freeHash [12345678,222222],0,0,0,0,0,0,0,0,0,0,0,0,0,0,0]

def lone : Witness Nat :=
  attested 1 #v[0,0,0,0,0,0,0,0,0,0,0,0,0,0,0,0] #v[111111,0,0,0,0,0,0,0,0,0,0,0,0,0,0,0]

theorem freeHash_pairsFree : PairsFree freeHash := by
  intro a b c d h
  simpa using freeHash_injective h

theorem credential_root_opening_lone :
    main freeHash lone (disclosed freeHash lone) = .ok () ∧
    ∀ w' inputs', main freeHash w' inputs' = .ok () →
      (disclosed freeHash lone).credentialRoot = inputs'.credentialRoot → SameOpening lone w' := by
  have h : main freeHash lone (disclosed freeHash lone)=.ok () := by decide +kernel
  refine ⟨h,(credential_root_opening freeHash_pairsFree h).2.2 ⟨rfl,fun hhashed => ?_⟩⟩
  obtain ⟨⟨a,b,hzero⟩,-⟩ := hhashed
  have hempty : freeHash [a,b]=freeHash [] := hzero.symm
  exact absurd (freeHash_injective hempty) (by simp)

/-- One root, opened with two attributes and with one, and a predicate about the first of each. -/
theorem root_opened_twice :
    main freeHash issued (disclosed freeHash issued) = .ok () ∧
    main freeHash merged (disclosed freeHash merged) = .ok () ∧
    (disclosed freeHash issued).credentialRoot = (disclosed freeHash merged).credentialRoot ∧
    issued.numAttributes ≠ merged.numAttributes ∧
    issued.attrValues[0] ≠ merged.attrValues[0] := by
  decide +kernel

def positiveHash (l : List Nat) : Nat := freeHash l+1

theorem positiveHash_collisionFree : CollisionFree positiveHash := by
  intro l l' _ h
  exact freeHash_injective (Nat.succ.inj h)

theorem predicate_commitment_identifies_issued :
    main positiveHash issued (disclosed positiveHash issued) = .ok () ∧
    issued.predicates[0].attrIndex.toNat < issued.numAttributes.toNat := by
  have h : main positiveHash issued (disclosed positiveHash issued)=.ok () := by decide +kernel
  obtain ⟨-,hequality⟩ := predicate_commitment_identifies positiveHash_collisionFree
    (fun l => Nat.succ_ne_zero _) (fun m n hmn => UInt32.toNat.inj hmn) h
  exact ⟨h,(hequality 0 (by decide) (by decide) rfl).2.1⟩

end Harpocrates.Circuits.SelectiveDisclosure
