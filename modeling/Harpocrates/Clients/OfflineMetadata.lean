import Harpocrates.Backend.Envelope

namespace Harpocrates.Clients.Offline

open Framework Framework.Json Framework.Fallible Backend.Envelope

/-- The numbers that JavaScript reads: an integer token is never taken for another small integer. -/
structure Doubles where
  Value : Type
  decEq : DecidableEq Value
  parse : List Char → Value
  ofInt : Int → Value
  parse_integer : ∀ token k n, readInteger token = some k → n.natAbs < 2^53 →
    (parse token = ofInt n ↔ k = n)

instance (doubles : Doubles) : DecidableEq doubles.Value := doubles.decEq

def ALLOWED_TIERS : List Str := [str "silent",str "source",str "seal"]

def is32ByteHex (value : Option Json) : Bool := (asString value).any isHex32

/-- A number that is 1 or 2. -/
def isVersion (doubles : Doubles) : Option Json → Bool
  | some (.number token) =>
    doubles.parse token = doubles.ofInt 1 || doubles.parse token = doubles.ofInt 2
  | _ => false

def videoHashAllowed (metadata : Metadata) : Bool :=
  (asString (metadata.lookup (str "videoHash"))).all fun s => s.isEmpty || isHex32 s

def validateMetadataStructure (doubles : Doubles) (isTzAwareIsoTimestamp : Option Json → Bool)
    (metadata : Metadata) : Bool :=
  if asString (metadata.lookup (str "protocol")) ≠ some (str "harpocrates") then false
  else if !isVersion doubles (metadata.lookup (str "version")) then false
  else if !(asString (metadata.lookup (str "tier"))).any ALLOWED_TIERS.contains then false
  else if !is32ByteHex (metadata.lookup (str "sourceHash")) then false
  else if !is32ByteHex (metadata.lookup (str "proofId")) then false
  else if !isTzAwareIsoTimestamp (metadata.lookup (str "timestamp")) then false
  else if !videoHashAllowed metadata then false
  else true

variable (doubles : Doubles) (lib : Libraries) (now : Int) (metadata : Metadata)

/-- The backend's check of a timestamp. -/
def timestampAccepted (value : Option Json) : Bool := (validateTimestamp lib now value).isOk

def BackendAccepts : Prop :=
  validateV1 lib now metadata = .ok () ∨ validateV2 lib now metadata = .ok metadata

/-- What both sides ask of the fields other than the version and the video hash. -/
structure SharedFields : Prop where
  protocol : asString (metadata.lookup (str "protocol")) = some (str "harpocrates")
  tier : (asString (metadata.lookup (str "tier"))).any ALLOWED_TIERS.contains
  sourceHash : is32ByteHex (metadata.lookup (str "sourceHash"))
  proofId : is32ByteHex (metadata.lookup (str "proofId"))
  timestamp : timestampAccepted lib now (metadata.lookup (str "timestamp"))

/-- No integer version above 2, none of 1 or 2 beside a video hash that is not a hash, and no 1 or 2
that is not written as an integer, unless it stands beside such a video hash. -/
structure Undisputed : Prop where
  integer : ∀ n, asInt (metadata.lookup (str "version")) = some n →
    n ≤ 2 ∧ (1 ≤ n → videoHashAllowed metadata)
  other : asInt (metadata.lookup (str "version")) = none →
    isVersion doubles (metadata.lookup (str "version")) → ¬ videoHashAllowed metadata

variable {doubles lib now metadata}

theorem validateMetadataStructure_iff :
    validateMetadataStructure doubles (timestampAccepted lib now) metadata ↔
      SharedFields lib now metadata ∧ isVersion doubles (metadata.lookup (str "version")) ∧
        videoHashAllowed metadata := by
  constructor
  · intro h
    unfold validateMetadataStructure at h
    split_ifs at h with hprotocol hversion htier hsource hproof htimestamp hvideo
    simp only [Bool.not_eq_true',Bool.not_eq_false] at *
    exact ⟨⟨not_not.1 hprotocol,htier,hsource,hproof,htimestamp⟩,hversion,hvideo⟩
  · rintro ⟨⟨hprotocol,htier,hsource,hproof,htimestamp⟩,hversion,hvideo⟩
    simp [validateMetadataStructure,hprotocol,hversion,htier,hsource,hproof,htimestamp,hvideo]

theorem checkTier_ok {tier : Option Json} :
    checkTier tier=.ok () ↔ (asString tier).any ALLOWED_TIERS.contains := by
  cases tier with
  | none => simp [checkTier,asString,require_ok]
  | some v => cases v <;> simp [checkTier,asString,ALLOWED_TIERS,require_ok,or_assoc]

variable {value : Option Json}

theorem timestampAccepted_iff :
    timestampAccepted lib now value ↔ validateTimestamp lib now value=.ok () := by
  unfold timestampAccepted
  cases validateTimestamp lib now value <;> simp [Except.isOk,Except.toBool]

theorem isSome_of_asString_any {p : Str → Bool} (h : (asString value).any p) : value.isSome := by
  cases value with
  | none => cases h
  | some v => rfl

theorem base_iff : validateBaseFields lib now metadata=.ok () ↔
    SharedFields lib now metadata ∧ (metadata.lookup (str "version")).isSome := by
  have hhex (field : String) : Backend.Envelope.checkHex32 metadata field=.ok () ↔
      is32ByteHex (metadata.lookup (str field)) := require_ok
  rw [validateBaseFields_iff,checkTier_ok,hhex,hhex,← timestampAccepted_iff]
  constructor
  · rintro ⟨hrequired,hprotocol,htier,hsource,hproof,htimestamp⟩
    exact ⟨⟨hprotocol,htier,hsource,hproof,htimestamp⟩,hrequired "version" (by decide)⟩
  · rintro ⟨h,hversion⟩
    refine ⟨?_,h.protocol,h.tier,h.sourceHash,h.proofId,h.timestamp⟩
    -- whatever passes its check is there
    have hprotocol : (metadata.lookup (str "protocol")).isSome :=
      isSome_of_asString_any (p := fun _ => true) (by rw [h.protocol]; rfl)
    have htimestamp : (metadata.lookup (str "timestamp")).isSome := by
      have hok := timestampAccepted_iff.1 h.timestamp
      cases hlookup : metadata.lookup (str "timestamp") with
      | none =>
        rw [hlookup] at hok
        cases hok
      | some v => rfl
    simp only [REQUIRED,List.forall_mem_cons,List.not_mem_nil,false_imp_iff,implies_true,and_true]
    exact ⟨isSome_of_asString_any h.proofId,hprotocol,isSome_of_asString_any h.sourceHash,
      isSome_of_asString_any h.tier,htimestamp,hversion⟩

theorem isSome_of_asInt {n : Int} (h : asInt value=some n) : value.isSome := by
  cases value with
  | none => cases h
  | some v => rfl

theorem upgraded_eq_self {n : Int} (h : asInt (metadata.lookup (str "version"))=some n) :
    upgraded metadata=metadata ↔ 2≤n := by
  constructor
  · intro hsame
    have hsome : (asInt (metadata.lookup (str "version"))).isSome := by
      rw [h]
      rfl
    obtain ⟨k,hk,hversion⟩ := asInt_upgraded hsome
    rw [hsame,h] at hversion
    cases hversion
    exact hk
  · intro hn
    rw [upgraded,h,if_neg]
    rw [Option.any_some,decide_eq_true_eq]
    omega

theorem backendAccepts_iff : BackendAccepts lib now metadata ↔
    SharedFields lib now metadata ∧
      ∃ n, asInt (metadata.lookup (str "version"))=some n ∧ 1≤n := by
  constructor
  · rintro (h1 | h2)
    · simp only [validateV1,unit_bind_ok,require_ok,decide_eq_true_eq] at h1
      exact ⟨(base_iff.1 h1.1).1,1,h1.2,le_refl _⟩
    · obtain ⟨hbase,hversion,hsame⟩ := validateV2_inversion h2
      obtain ⟨n,hn⟩ := Option.isSome_iff_exists.1 hversion
      have htwo := (upgraded_eq_self hn).1 hsame.symm
      exact ⟨(base_iff.1 hbase).1,n,hn,by omega⟩
  · rintro ⟨hshared,n,hn,hpos⟩
    have hbase := base_iff.2 ⟨hshared,isSome_of_asInt hn⟩
    by_cases hone : n=1
    · left
      simp only [validateV1,unit_bind_ok,require_ok,decide_eq_true_eq]
      exact ⟨hbase,by rw [hn,hone]⟩
    · right
      simp only [validateV2,unit_bind_ok,require_ok]
      refine ⟨hbase,by rw [hn]; rfl,?_⟩
      rw [(upgraded_eq_self hn).2 (by omega)]
      rfl

theorem isVersion_integer {n : Int} (h : asInt value=some n) :
    isVersion doubles value ↔ n=1 ∨ n=2 := by
  cases value with
  | none => cases h
  | some v =>
    cases v with
    | number token =>
      have hone := doubles.parse_integer token n 1 h (by decide)
      have htwo := doubles.parse_integer token n 2 h (by decide)
      simp only [isVersion,Bool.or_eq_true,decide_eq_true_eq,hone,htwo]
    | _ => cases h

/-- With one check of timestamps for both, the browser accepts what the backend accepts exactly
where nothing is disputed, or where some other field is wrong. -/
theorem offline_accepts_iff (doubles : Doubles) (lib : Libraries) (now : Int)
    (metadata : Metadata) :
    (validateMetadataStructure doubles (timestampAccepted lib now) metadata ↔
        BackendAccepts lib now metadata) ↔
      (SharedFields lib now metadata → Undisputed doubles metadata) := by
  rw [validateMetadataStructure_iff,backendAccepts_iff,and_congr_right_iff]
  refine forall_congr' fun _ => ?_
  cases hversion : asInt (metadata.lookup (str "version")) with
  | none =>
    constructor
    · intro h
      refine ⟨fun n hn => (nomatch hversion.symm.trans hn),fun _ hone hvideo => ?_⟩
      obtain ⟨n,hn,-⟩ := h.1 ⟨hone,hvideo⟩
      cases hn
    · intro h
      refine ⟨fun hboth => absurd hboth.2 (h.other hversion hboth.1),?_⟩
      rintro ⟨n,hn,-⟩
      cases hn
  | some n =>
    rw [isVersion_integer hversion]
    constructor
    · intro h
      refine ⟨fun k hk => ?_,fun hnone => (nomatch hversion.symm.trans hnone)⟩
      cases hversion.symm.trans hk
      by_cases hpos : 1≤n
      · obtain ⟨hsmall,hvideo⟩ := h.2 ⟨n,rfl,hpos⟩
        exact ⟨by omega,fun _ => hvideo⟩
      · exact ⟨by omega,fun hle => absurd hle hpos⟩
    · intro h
      obtain ⟨hle,hvideo⟩ := h.integer n hversion
      constructor
      · rintro ⟨hsmall,-⟩
        exact ⟨n,rfl,by omega⟩
      · rintro ⟨k,hk,hpos⟩
        cases hk
        exact ⟨by omega,hvideo hpos⟩

def integersOnly : Doubles where
  Value := Option Int
  decEq := inferInstance
  parse := readInteger
  ofInt := some
  parse_integer := fun _ _ _ h _ => by rw [h,Option.some.injEq]

/-- Metadata of version 3, and metadata whose video hash is no hash, are accepted by the backend as
they are and rejected in the browser. -/
theorem accepted_metadata_rejected :
    validateV2 storing 0 (sampleMetadata 3) = .ok (sampleMetadata 3) ∧
      validateMetadataStructure integersOnly (timestampAccepted storing 0) (sampleMetadata 3) =
        false ∧
      validateV2 storing 0 (sampleMetadata 2++[(str "videoHash",.string (str "none"))]) =
        .ok (sampleMetadata 2++[(str "videoHash",.string (str "none"))]) ∧
      validateMetadataStructure integersOnly (timestampAccepted storing 0)
        (sampleMetadata 2++[(str "videoHash",.string (str "none"))]) = false := by
  refine ⟨rfl,rfl,rfl,rfl⟩

end Harpocrates.Clients.Offline
