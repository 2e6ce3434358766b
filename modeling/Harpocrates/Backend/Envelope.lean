import Harpocrates.Framework.Fallible
import Harpocrates.Framework.JsonAscii
import Harpocrates.Framework.JsonKeys
import Harpocrates.Framework.Python
import Harpocrates.Framework.Sha256

namespace Harpocrates.Backend.Envelope

open Framework Framework.Json Framework.Fallible List Option Nat

def MAGIC_V1 : Bytes := "HRPSTG1".toList.map fun c => UInt8.ofNat c.toNat

def MAGIC_V2 : Bytes := "HRPSTG2".toList.map fun c => UInt8.ofNat c.toNat

def MAX_PAYLOAD_BYTES : Nat := 64*1024

def MAX_DECOMPRESSED_BYTES : Nat := MAX_PAYLOAD_BYTES

def canonicalJson (v : Json) : Bytes := Python.encode (render writeAscii (ordered v))

/-- What a decompressor object gives for a body and a bound on its output. -/
structure Inflated where
  output : Bytes
  unconsumedTail : Bytes
  eof : Bool
  unusedData : Bytes

abbrev Metadata := List (Str × Json)

def IsMetadata (prints : List Char → Prop) (metadata : Metadata) : Prop :=
  IsValue (.object metadata) ∧
    Everywhere (fun v => ∀ token, v = .number token → prints token) (.object metadata)

/-- The libraries that the envelope rests on. A date is read as its instant, in microseconds, if it
has a timezone. -/
structure Libraries where
  sha256 : Bytes → BytesN 32
  compress : Bytes → Bytes
  inflate : Bytes → Nat → Option Inflated
  prints : List Char → Prop
  loads : Bytes → Option Json
  fromisoformat : Str → Option (Option Int)
  inflate_compress : ∀ b limit, b.length < limit →
    inflate (compress b) limit = some ⟨b,[],true,[]⟩
  prints_decimal : ∀ n, prints (decimal n)
  loads_canonical : ∀ metadata, IsMetadata prints metadata →
    loads (canonicalJson (.object metadata)) = some (.object metadata)

def canonicalMetadataHash {δ : Type} (hexdigest : Bytes → δ) (metadata : Metadata) : δ :=
  hexdigest (canonicalJson (.object metadata))

inductive ErrorCode
  | METADATA_MISSING_FIELD | METADATA_INVALID_FIELD | METADATA_UNSUPPORTED_VERSION
  | METADATA_OVERSIZED
  deriving DecidableEq

inductive EnvelopeError
  | metadata (code : ErrorCode) (message : String) (field : Option String)
  | typeError
  deriving DecidableEq

def invalid (field message : String) : EnvelopeError :=
  .metadata .METADATA_INVALID_FIELD message (some field)

def asInt : Option Json → Option Int
  | some (.number token) => readInteger token
  | _ => none

def isSpacePoint : Point → Bool
  | .char c => Python.isSpace c
  | .surrogate _ => false

def strip (s : Str) : Str := (s.dropWhile isSpacePoint).rdropWhile isSpacePoint

/-- Every `Z` is replaced, not only one at the end. -/
def replaceZ (s : Str) : Str :=
  s.flatMap fun p => if p = .char 'Z' ∨ p = .char 'z' then str "+00:00" else [p]

variable (lib : Libraries) (now : Int)

def validateTimestamp (value : Option Json) : Except EnvelopeError Unit :=
  match (asString value).filter fun s => !(strip s).isEmpty with
  | none => .error (invalid "timestamp" "metadata timestamp must be a string")
  | some s =>
    match lib.fromisoformat (replaceZ (strip s)) with
    | none =>
      .error (invalid "timestamp" "metadata timestamp must be a timezone-aware ISO-8601 string")
    | some none => .error (invalid "timestamp" "metadata timestamp must be timezone-aware")
    | some (some instant) =>
      require (instant ≤ now+300*1000000)
        (invalid "timestamp" "metadata timestamp is unreasonably far in the future")

def REQUIRED : List String := ["proofId","protocol","sourceHash","tier","timestamp","version"]

def checkTier : Option Json → Except EnvelopeError Unit
  -- these cannot be looked up in a set
  | some (.array _) => .error .typeError
  | some (.object _) => .error .typeError
  | tier =>
    require ((asString tier).any fun s => s = str "silent" || s = str "source" || s = str "seal")
      (invalid "tier" "metadata tier is invalid")

def checkHex32 (metadata : Metadata) (field : String) : Except EnvelopeError Unit :=
  require ((asString (metadata.lookup (str field))).any isHex32)
    (invalid field ("metadata "++field++" must be a 32-byte hex string"))

def checkRequired (metadata : Metadata) : Except EnvelopeError Unit :=
  match REQUIRED.find? fun field => (metadata.lookup (str field)).isNone with
  | some field =>
    .error (.metadata .METADATA_MISSING_FIELD ("metadata missing required field: "++field)
      (some field))
  | none => .ok ()

def validateBaseFields (metadata : Metadata) : Except EnvelopeError Unit := do
  checkRequired metadata
  require (asString (metadata.lookup (str "protocol")) = some (str "harpocrates"))
    (invalid "protocol" "metadata protocol must be harpocrates")
  checkTier (metadata.lookup (str "tier"))
  checkHex32 metadata "sourceHash"
  checkHex32 metadata "proofId"
  validateTimestamp lib now (metadata.lookup (str "timestamp"))

def validateV1 (metadata : Metadata) : Except EnvelopeError Unit := do
  validateBaseFields lib now metadata
  require (asInt (metadata.lookup (str "version")) = some 1)
    (invalid "version" "metadata version must be 1")

/-- The metadata with its version raised to 2, where it was below. -/
def upgraded (metadata : Metadata) : Metadata :=
  if (asInt (metadata.lookup (str "version"))).any fun version => version < 2 then
    Dict.set metadata (str "version") (.number (decimal 2))
  else metadata

def validateV2 (metadata : Metadata) : Except EnvelopeError Metadata := do
  validateBaseFields lib now metadata
  require (asInt (metadata.lookup (str "version"))).isSome
    (invalid "version" "metadata version must be an integer")
  return upgraded metadata

def oversized : EnvelopeError :=
  .metadata .METADATA_OVERSIZED "metadata payload exceeds the 64 KiB steganography limit" none

/-- The magic of a version and the metadata as it is packed. -/
def prepare (metadata : Metadata) (version : Int) : Except EnvelopeError (Bytes × Metadata) :=
  if version = 1 then (validateV1 lib now metadata).map fun _ => (MAGIC_V1,metadata)
  else if version = 2 then (validateV2 lib now metadata).map fun m => (MAGIC_V2,m)
  else .error (.metadata .METADATA_UNSUPPORTED_VERSION
    ("unsupported metadata version "++toString version) none)

def layOut (magic body : Bytes) : Bytes :=
  magic++Sha256.beBytes 4 body.length++(lib.sha256 body).1++body

def packEnvelope (metadata : Metadata) (version : Int) : Except EnvelopeError Bytes := do
  let (magic,metadata) ← prepare lib now metadata version
  let canonical := canonicalJson (.object metadata)
  require (canonical.length ≤ MAX_DECOMPRESSED_BYTES) oversized
  let body := lib.compress canonical
  require (body.length ≤ MAX_PAYLOAD_BYTES) oversized
  return layOut lib magic body

def decompressMetadata (body : Bytes) : Option Bytes :=
  match lib.inflate body (MAX_DECOMPRESSED_BYTES+1) with
  | none => none
  | some inflated =>
    if MAX_DECOMPRESSED_BYTES < inflated.output.length then none
    else if !inflated.unconsumedTail.isEmpty then none
    else if !inflated.eof then none
    else if !inflated.unusedData.isEmpty then none
    else some inflated.output

def validateByMagic (magic : Bytes) (metadata : Metadata) : Except EnvelopeError Metadata :=
  if magic = MAGIC_V1 then (validateV1 lib now metadata).map fun _ => metadata
  else validateV2 lib now metadata

def sizeField (data : Bytes) : Nat := beNat ((data.drop 7).take 4)

def checksumField (data : Bytes) : Bytes := (data.drop 11).take 32

def bodyField (data : Bytes) : Bytes := (data.drop 43).take (sizeField data)

/-- What is found in a body whose checksum fits. -/
def readBody (magic body : Bytes) : Option Metadata :=
  match decompressMetadata lib body with
  | none => none
  | some inflated =>
    match lib.loads inflated with
    | some (.object value) => (validateByMagic lib now magic value).toOption
    | _ => none

def unpackEnvelope (data : Bytes) : Option Metadata :=
  if data.length < 7+4+32 then none
  else if data.take 7 ≠ MAGIC_V1 ∧ data.take 7 ≠ MAGIC_V2 then none
  else if MAX_PAYLOAD_BYTES < sizeField data then none
  else if data.length < 43+sizeField data then none
  else if (lib.sha256 (bodyField data)).1 ≠ checksumField data then none
  else readBody lib now (data.take 7) (bodyField data)

variable {lib now} {now' : Int} {metadata prepared : Metadata} {version : Int} {magic : Bytes}

/-- What is not too far in the future at one time is not later either. -/
theorem validateTimestamp_mono {value : Option Json} (hle : now≤now')
    (h : validateTimestamp lib now value=.ok ()) : validateTimestamp lib now' value=.ok () := by
  unfold validateTimestamp at h ⊢
  cases hs : (asString value).filter fun s => !(strip s).isEmpty with
  | none =>
    rw [hs] at h
    cases h
  | some s =>
    simp only [hs] at h ⊢
    cases hread : lib.fromisoformat (replaceZ (strip s)) with
    | none =>
      rw [hread] at h
      cases h
    | some date =>
      rw [hread] at h
      cases date with
      | none => cases h
      | some instant =>
        simp only [require_ok,decide_eq_true_eq] at h ⊢
        omega

theorem checkRequired_ok : checkRequired metadata=.ok () ↔
    ∀ field∈REQUIRED, (metadata.lookup (str field)).isSome := by
  unfold checkRequired
  cases hfind : REQUIRED.find? fun field => (metadata.lookup (str field)).isNone with
  | some field =>
    have hmem := mem_of_find?_eq_some hfind
    have hnone := List.find?_some hfind
    refine ⟨fun h => (nomatch h),fun h => ?_⟩
    have hsome := h field hmem
    rw [isNone_iff_eq_none.1 hnone] at hsome
    cases hsome
  | none =>
    refine ⟨fun _ field hmem => ?_,fun _ => rfl⟩
    have hnot := List.find?_eq_none.1 hfind field hmem
    rw [← not_isNone]
    simpa using hnot

theorem validateBaseFields_iff : validateBaseFields lib now metadata=.ok () ↔
    (∀ field∈REQUIRED, (metadata.lookup (str field)).isSome) ∧
      asString (metadata.lookup (str "protocol"))=some (str "harpocrates") ∧
      checkTier (metadata.lookup (str "tier"))=.ok () ∧
      checkHex32 metadata "sourceHash" = .ok () ∧ checkHex32 metadata "proofId" = .ok () ∧
      validateTimestamp lib now (metadata.lookup (str "timestamp"))=.ok () := by
  simp only [validateBaseFields,unit_bind_ok,checkRequired_ok,require_ok,
    decide_eq_true_eq]

theorem validateBaseFields_mono (hle : now≤now')
    (h : validateBaseFields lib now metadata=.ok ()) :
    validateBaseFields lib now' metadata=.ok () := by
  rw [validateBaseFields_iff] at h ⊢
  obtain ⟨hrequired,hprotocol,htier,hsource,hproof,htimestamp⟩ := h
  exact ⟨hrequired,hprotocol,htier,hsource,hproof,validateTimestamp_mono hle htimestamp⟩

/-- The base fields do not depend on the version, as long as there is one. -/
theorem validateBaseFields_set {v : Json} (h : validateBaseFields lib now metadata=.ok ()) :
    validateBaseFields lib now (Dict.set metadata (str "version") v)=.ok () := by
  rw [validateBaseFields_iff] at h ⊢
  obtain ⟨hrequired,hprotocol,htier,hsource,hproof,htimestamp⟩ := h
  have hother (field : String) (hne : str field≠str "version") :
      (Dict.set metadata (str "version") v).lookup (str field)=metadata.lookup (str field) := by
    rw [Dict.lookup_set,if_neg hne]
  refine ⟨fun field hmem => ?_,?_,?_,?_,?_,?_⟩
  · rw [Dict.lookup_set]
    split
    · rfl
    · exact hrequired field hmem
  · rw [hother _ (by decide)]
    exact hprotocol
  · rw [hother _ (by decide)]
    exact htier
  · unfold checkHex32 at hsource ⊢
    rw [hother _ (by decide)]
    exact hsource
  · unfold checkHex32 at hproof ⊢
    rw [hother _ (by decide)]
    exact hproof
  · rw [hother _ (by decide)]
    exact htimestamp

theorem asInt_upgraded (h : (asInt (metadata.lookup (str "version"))).isSome) :
    ∃ n, 2≤n ∧ asInt ((upgraded metadata).lookup (str "version"))=some n := by
  obtain ⟨n,hn⟩ := isSome_iff_exists.1 h
  unfold upgraded
  split_ifs with hlow
  · refine ⟨2,le_refl _,?_⟩
    rw [Dict.lookup_set,if_pos rfl]
    exact readInteger_decimal 2
  · refine ⟨n,?_,hn⟩
    rw [hn,any_some,decide_eq_true_eq] at hlow
    omega

theorem upgraded_upgraded (h : (asInt (metadata.lookup (str "version"))).isSome) :
    upgraded (upgraded metadata)=upgraded metadata := by
  obtain ⟨n,hn,hversion⟩ := asInt_upgraded h
  rw [upgraded.eq_1 (upgraded metadata),hversion,if_neg]
  rw [any_some,decide_eq_true_eq]
  omega

theorem validateV2_inversion (h : validateV2 lib now metadata=.ok prepared) :
    validateBaseFields lib now metadata=.ok () ∧
      (asInt (metadata.lookup (str "version"))).isSome ∧ prepared=upgraded metadata := by
  simp only [validateV2,unit_bind_ok,require_ok] at h
  exact ⟨h.1,h.2.1,(Except.ok.inj h.2.2).symm⟩

/-- What was validated and upgraded is accepted later, and not changed again. -/
theorem validateV2_again (hle : now≤now') (h : validateV2 lib now metadata=.ok prepared) :
    validateV2 lib now' prepared=.ok prepared := by
  obtain ⟨hbase,hversion,rfl⟩ := validateV2_inversion h
  have hbase' : validateBaseFields lib now' (upgraded metadata)=.ok () := by
    apply validateBaseFields_mono hle
    unfold upgraded
    split_ifs
    · exact validateBaseFields_set hbase
    · exact hbase
  have hsome : (asInt ((upgraded metadata).lookup (str "version"))).isSome := by
    obtain ⟨n,_,hn⟩ := asInt_upgraded hversion
    rw [hn]
    rfl
  simp only [validateV2,unit_bind_ok,require_ok]
  refine ⟨hbase',hsome,?_⟩
  rw [upgraded_upgraded hversion]
  rfl

theorem validateV1_mono (hle : now≤now') (h : validateV1 lib now metadata=.ok ()) :
    validateV1 lib now' metadata=.ok () := by
  simp only [validateV1,unit_bind_ok] at h ⊢
  exact ⟨validateBaseFields_mono hle h.1,h.2⟩

def packed (metadata : Metadata) (version : Int) : Metadata :=
  if version = 2 then upgraded metadata else metadata

theorem upgraded_isMetadata (hm : IsMetadata lib.prints metadata)
    (h : (asInt (metadata.lookup (str "version"))).isSome) :
    IsMetadata lib.prints (upgraded metadata) := by
  unfold upgraded
  split_ifs with hlow
  · have hkey : str "version" ∈ metadata.map (·.1) := by
      by_contra hnone
      rw [Dict.lookup_eq_none hnone] at h
      cases h
    have htwo : IsValue (.number (decimal 2)) := ⟨isToken_decimal 2,trivial⟩
    refine ⟨isValue_set hm.1 hkey htwo,fun token heq => (nomatch heq),
      everywhereEntries_iff.2 fun e he => ?_⟩
    rcases Dict.mem_set he with rfl | hmem
    · intro token heq
      cases heq
      exact lib.prints_decimal 2
    · exact everywhereEntries_iff.1 hm.2.2 e hmem
  · exact hm

/-- What is packed: metadata of the same kind, which is accepted again from then on. -/
theorem prepare_inversion (hm : IsMetadata lib.prints metadata)
    (h : prepare lib now metadata version=.ok (magic,prepared)) :
    prepared=packed metadata version ∧ IsMetadata lib.prints prepared ∧
      (magic=MAGIC_V1 ∨ magic=MAGIC_V2) ∧
      ∀ now', now≤now' → validateByMagic lib now' magic prepared=.ok prepared := by
  unfold prepare at h
  split_ifs at h with h1 h2
  · subst h1
    cases hv : validateV1 lib now metadata with
    | error e =>
      rw [hv] at h
      cases h
    | ok u =>
      rw [hv] at h
      cases h
      refine ⟨rfl,hm,.inl rfl,fun now' hle => ?_⟩
      rw [validateByMagic,if_pos rfl,validateV1_mono hle hv]
      rfl
  · subst h2
    cases hv : validateV2 lib now metadata with
    | error e =>
      rw [hv] at h
      cases h
    | ok m =>
      rw [hv] at h
      cases h
      obtain ⟨_,hversion,hupgraded⟩ := validateV2_inversion hv
      refine ⟨?_,?_,.inr rfl,fun now' hle => ?_⟩
      · rw [packed,if_pos rfl]
        exact hupgraded
      · rw [hupgraded]
        exact upgraded_isMetadata hm hversion
      · rw [validateByMagic,if_neg (by decide)]
        exact validateV2_again hle hv

variable {data : Bytes}

theorem packEnvelope_iff : packEnvelope lib now metadata version=.ok data ↔
    ∃ magic prepared, prepare lib now metadata version=.ok (magic,prepared) ∧
      (canonicalJson (.object prepared)).length≤MAX_DECOMPRESSED_BYTES ∧
      (lib.compress (canonicalJson (.object prepared))).length≤MAX_PAYLOAD_BYTES ∧
      data=layOut lib magic (lib.compress (canonicalJson (.object prepared))) := by
  rw [packEnvelope,bind_ok,Prod.exists]
  simp only [unit_bind_ok,require_ok,decide_eq_true_eq]
  refine exists_congr fun magic => exists_congr fun prepared => and_congr_right fun _ =>
    and_congr_right fun _ => and_congr_right fun _ => ?_
  exact ⟨fun h => (Except.ok.inj h).symm,fun h => congrArg Except.ok h.symm⟩

theorem packEnvelope_inversion (hm : IsMetadata lib.prints metadata)
    (h : packEnvelope lib now metadata version=.ok data) :
    ∃ magic, (magic=MAGIC_V1 ∨ magic=MAGIC_V2) ∧
      IsMetadata lib.prints (packed metadata version) ∧
      (canonicalJson (.object (packed metadata version))).length≤MAX_DECOMPRESSED_BYTES ∧
      (lib.compress (canonicalJson (.object (packed metadata version)))).length
        ≤ MAX_PAYLOAD_BYTES ∧
      data=layOut lib magic (lib.compress (canonicalJson (.object (packed metadata version)))) ∧
      ∀ now', now≤now' → validateByMagic lib now' magic (packed metadata version) =
        .ok (packed metadata version) := by
  obtain ⟨magic,prepared,hprepare,hcanonical,hbody,hdata⟩ := packEnvelope_iff.1 h
  obtain ⟨rfl,hm',hmagic,hagain⟩ := prepare_inversion hm hprepare
  exact ⟨magic,hmagic,hm',hcanonical,hbody,hdata,hagain⟩

theorem layOut_fields {body : Bytes} (t : Bytes) (hmagic : magic.length=7)
    (hsize : body.length<256^4) :
    (layOut lib magic body++t).take 7=magic ∧ sizeField (layOut lib magic body++t)=body.length ∧
      checksumField (layOut lib magic body++t)=(lib.sha256 body).1 ∧
      bodyField (layOut lib magic body++t)=body := by
  have hdata : layOut lib magic body++t =
      magic++(Sha256.beBytes 4 body.length++((lib.sha256 body).1++(body++t))) := by
    simp only [layOut,append_assoc]
  have hsum := (lib.sha256 body).2
  have hlen := Sha256.length_beBytes 4 body.length
  have hdrop7 : (layOut lib magic body++t).drop 7 =
      Sha256.beBytes 4 body.length++((lib.sha256 body).1++(body++t)) := by
    rw [hdata,drop_left' hmagic]
  have hdrop11 : (layOut lib magic body++t).drop 11=(lib.sha256 body).1++(body++t) := by
    rw [show 11=7+4 from rfl,← drop_drop,hdrop7,drop_left' hlen]
  have hdrop43 : (layOut lib magic body++t).drop 43=body++t := by
    rw [show 43=11+32 from rfl,← drop_drop,hdrop11,drop_left' hsum]
  have hfield : sizeField (layOut lib magic body++t)=body.length := by
    rw [sizeField,hdrop7,take_left' hlen,Sha256.beNat_beBytes hsize]
  refine ⟨?_,hfield,?_,?_⟩
  · rw [hdata,take_left' hmagic]
  · rw [checksumField,hdrop11,take_left' hsum]
  · rw [bodyField,hfield,hdrop43,take_left' rfl]

theorem length_magic (h : magic=MAGIC_V1 ∨ magic=MAGIC_V2) : magic.length=7 := by
  rcases h with rfl | rfl
  · rfl
  · rfl

theorem length_layOut {body : Bytes} (hmagic : magic.length=7) :
    (layOut lib magic body).length=43+body.length := by
  have hsum : (lib.sha256 body).1.length=32 := (lib.sha256 body).2
  simp only [layOut,length_append,Sha256.length_beBytes,hmagic,hsum]

theorem decompressMetadata_iff {body inflated : Bytes} :
    decompressMetadata lib body=some inflated ↔
      lib.inflate body (MAX_DECOMPRESSED_BYTES+1)=some ⟨inflated,[],true,[]⟩ ∧
        inflated.length≤MAX_DECOMPRESSED_BYTES := by
  unfold decompressMetadata
  cases lib.inflate body (MAX_DECOMPRESSED_BYTES+1) with
  | none => exact ⟨fun h => (nomatch h),fun h => (nomatch h.1)⟩
  | some result =>
    obtain ⟨output,tail,eof,unused⟩ := result
    constructor
    · intro h
      dsimp only at h
      split_ifs at h with hlong htail heof hunused
      cases h
      simp only [Bool.not_eq_true',Bool.not_eq_false,List.isEmpty_iff] at htail heof hunused
      rw [htail,heof,hunused]
      exact ⟨rfl,Nat.le_of_not_lt hlong⟩
    · rintro ⟨heq,hle⟩
      obtain ⟨rfl,rfl,rfl,rfl⟩ := Inflated.mk.inj (Option.some.inj heq)
      exact if_neg (Nat.not_lt.2 hle)

theorem readBody_iff {body : Bytes} {value : Metadata} :
    readBody lib now magic body=some value ↔
      ∃ inflated found, decompressMetadata lib body=some inflated ∧
        lib.loads inflated=some (.object found) ∧
        validateByMagic lib now magic found=.ok value := by
  unfold readBody
  constructor
  · intro h
    split at h
    · cases h
    rename_i inflated hinflated
    split at h
    · rename_i found hfound
      exact ⟨inflated,found,hinflated,hfound,toOption_eq_some.1 h⟩
    · cases h
  · rintro ⟨inflated,found,hinflated,hfound,hvalid⟩
    simp only [hinflated,hfound]
    exact toOption_eq_some.2 hvalid

/-- When an envelope is opened: the layout, the checksum, the bounded body and what is read in it
all fit. -/
theorem unpackEnvelope_iff {value : Metadata} :
    unpackEnvelope lib now data=some value ↔
      (data.take 7=MAGIC_V1 ∨ data.take 7=MAGIC_V2) ∧ sizeField data≤MAX_PAYLOAD_BYTES ∧
        43+sizeField data≤data.length ∧
        (lib.sha256 (bodyField data)).1=checksumField data ∧
        readBody lib now (data.take 7) (bodyField data)=some value := by
  rw [unpackEnvelope]
  split_ifs with hshort hmagic hsize hlong hsum
  · exact ⟨fun h => (nomatch h),fun h => absurd h.2.2.1 (by omega)⟩
  · exact ⟨fun h => (nomatch h),fun h => absurd h.1 (by simpa only [not_or] using hmagic)⟩
  · exact ⟨fun h => (nomatch h),fun h => absurd h.2.1 (Nat.not_le.2 hsize)⟩
  · exact ⟨fun h => (nomatch h),fun h => absurd h.2.2.1 (Nat.not_le.2 hlong)⟩
  · exact ⟨fun h => (nomatch h),fun h => absurd h.2.2.2.1 hsum⟩
  · have hfits : (data.take 7=MAGIC_V1 ∨ data.take 7=MAGIC_V2) ∧
        sizeField data≤MAX_PAYLOAD_BYTES ∧ 43+sizeField data≤data.length ∧
        (lib.sha256 (bodyField data)).1=checksumField data := by
      refine ⟨?_,Nat.le_of_not_lt hsize,Nat.le_of_not_lt hlong,not_not.1 hsum⟩
      by_contra hneither
      exact hmagic (not_or.1 hneither)
    exact ⟨fun h => ⟨hfits.1,hfits.2.1,hfits.2.2.1,hfits.2.2.2,h⟩,fun h => h.2.2.2.2⟩

theorem unpackEnvelope_packed (hle : now≤now') (hm : IsMetadata lib.prints metadata)
    (hpack : packEnvelope lib now metadata version=.ok data) (t : Bytes) :
    unpackEnvelope lib now' (data++t)=some (packed metadata version) := by
  obtain ⟨magic,hmagic,hm',hcanonical,hbody,rfl,hagain⟩ := packEnvelope_inversion hm hpack
  have hseven := length_magic hmagic
  have hfour : MAX_PAYLOAD_BYTES<256^4 := by decide
  obtain ⟨htake,hsize,hsum,hfield⟩ :=
    layOut_fields t hseven (lt_of_le_of_lt hbody hfour)
  rw [unpackEnvelope_iff,htake,hsize,hsum,hfield,readBody_iff]
  refine ⟨hmagic,hbody,?_,rfl,_,_,?_,lib.loads_canonical _ hm',hagain now' hle⟩
  · rw [length_append,length_layOut hseven]
    omega
  · rw [decompressMetadata_iff,lib.inflate_compress _ _ (lt_succ_of_le hcanonical)]
    exact ⟨rfl,hcanonical⟩

/-- What is packed comes back, whatever follows it, and only what fits its checksum and inflates
within the bound is ever taken for an envelope. -/
theorem envelope_round_trip (lib : Libraries) {δ : Type} (hexdigest : Bytes → δ) :
    (∀ (now now' : Int) (metadata : Metadata) (version : Int) (data t : Bytes), now ≤ now' →
      IsMetadata lib.prints metadata → packEnvelope lib now metadata version = .ok data →
      unpackEnvelope lib now' (data++t) = some (packed metadata version) ∧
        (unpackEnvelope lib now' (data++t)).map (canonicalMetadataHash hexdigest) =
          some (canonicalMetadataHash hexdigest (packed metadata version))) ∧
    ∀ (now : Int) (data : Bytes) (metadata : Metadata),
      unpackEnvelope lib now data = some metadata →
        43+sizeField data ≤ data.length ∧
          (lib.sha256 (bodyField data)).1 = checksumField data ∧
          ∃ inflated, lib.inflate (bodyField data) (MAX_DECOMPRESSED_BYTES+1) =
              some ⟨inflated,[],true,[]⟩ ∧ inflated.length ≤ MAX_DECOMPRESSED_BYTES := by
  refine ⟨fun now now' metadata version data t hle hm hpack => ?_,fun now data metadata h => ?_⟩
  · have hunpack := unpackEnvelope_packed hle hm hpack t
    rw [hunpack]
    exact ⟨rfl,rfl⟩
  · obtain ⟨_,_,hlen,hsum,hread⟩ := unpackEnvelope_iff.1 h
    obtain ⟨inflated,_,hinflated,_⟩ := readBody_iff.1 hread
    exact ⟨hlen,hsum,inflated,decompressMetadata_iff.1 hinflated⟩

theorem parse_canonicalJson {v : Json} (h : IsValue v) :
    parse ((canonicalJson v).map fun x => Char.ofNat x.toNat)=some v := by
  have hascii : ∀ c∈render writeAscii v, c.toNat<128 := fun c hc =>
    lt_succ_of_lt (of_decide_eq_true (all_eq_true.1 (render_ascii h.1) c hc))
  rw [canonicalJson,ordered_eq_self h.2,Python.map_encode_ascii hascii]
  exact parse_render readable_writeAscii h.1

theorem inflate_stored {b : Bytes} {limit : Nat} (h : b.length<limit) :
    some (Inflated.mk (b.take limit) (b.drop limit) (b.length<limit) []) =
      some ⟨b,[],true,[]⟩ := by
  rw [take_of_length_le (le_of_lt h),drop_eq_nil_of_le (le_of_lt h),
    decide_eq_true h]

/-- Libraries that store without compressing. -/
def storing : Libraries where
  sha256 := Sha256.digest
  compress b := b
  inflate b limit := some ⟨b.take limit,b.drop limit,b.length < limit,[]⟩
  prints _ := True
  loads b := parse (b.map fun x => Char.ofNat x.toNat)
  fromisoformat _ := some (some 0)
  inflate_compress _ _ h := inflate_stored h
  prints_decimal _ := trivial
  loads_canonical _ h := parse_canonicalJson h.1

def sampleHash : Json :=
  .string (str "00112233445566778899aabbccddeeff00112233445566778899aabbccddeeff")

def sampleMetadata (version : Int) : Metadata :=
  [(str "proofId",sampleHash),(str "protocol",.string (str "harpocrates")),
    (str "sourceHash",sampleHash),(str "tier",.string (str "silent")),
    (str "timestamp",.string (str "2026-01-01T00:00:00Z")),
    (str "version",.number (decimal version))]

theorem sampleMetadata_isMetadata (version : Int) :
    IsMetadata storing.prints (sampleMetadata version) := by
  have hversion : IsToken (decimal version) := isToken_decimal version
  have hjoined (field : String) : Joined (str field) := joined_str field
  refine ⟨⟨⟨?_,?_⟩,?_,?_⟩,?_,?_⟩
  · show (REQUIRED.map str).Nodup
    decide
  · exact ⟨hjoined _,hjoined _,hjoined _,hjoined _,hjoined _,hjoined _,hjoined _,hjoined _,
      hjoined _,hjoined _,hjoined _,hversion,trivial⟩
  · rw [← pairwise_map (f := fun e : Str × Json => e.1) (R := fun a b => codes a<codes b)]
    show (REQUIRED.map str).Pairwise fun a b => codes a<codes b
    decide
  · exact ⟨trivial,trivial,trivial,trivial,trivial,trivial,trivial⟩
  · exact fun _ _ => trivial
  · have hprints (v : Json) (token : List Char) (_ : v=.number token) : True := trivial
    exact ⟨hprints _,hprints _,hprints _,hprints _,hprints _,hprints _,trivial⟩

theorem length_sampleText : (canonicalJson (.object (sampleMetadata 2))).length=246 := by
  decide +kernel

/-- The version is raised, and trailing bytes do no harm. -/
theorem sample_unpacked : ∃ data, packEnvelope storing 0 (sampleMetadata 1) 2 = .ok data ∧
    unpackEnvelope storing 1 (data++[0,1,2]) = some (sampleMetadata 2) := by
  have hprepare : prepare storing 0 (sampleMetadata 1) 2=.ok (MAGIC_V2,sampleMetadata 2) := rfl
  have hlength : (canonicalJson (.object (sampleMetadata 2))).length≤64*1024 := by
    rw [length_sampleText]
    decide
  have hpack : packEnvelope storing 0 (sampleMetadata 1) 2 =
      .ok (layOut storing MAGIC_V2 (canonicalJson (.object (sampleMetadata 2)))) := by
    exact packEnvelope_iff.2 ⟨_,_,hprepare,hlength,hlength,rfl⟩
  refine ⟨_,hpack,?_⟩
  exact ((envelope_round_trip storing id).1 0 1 (sampleMetadata 1) 2 _ [0,1,2] (by decide)
    (sampleMetadata_isMetadata 1) hpack).1

end Harpocrates.Backend.Envelope
