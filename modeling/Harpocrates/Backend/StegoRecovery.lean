import Harpocrates.Backend.StegoBorder

namespace Harpocrates.Backend.Stego

open Framework Framework.Bits Framework.Json Framework.Fallible Envelope List Nat

/-- The frames one after the other, each with as many of the bits as its border takes. -/
def markFrames (width height : Nat) (bits : List Bool) : List Bool → List Bytes → List Bytes
  | _,[] => []
  | todo,frame::frames =>
    marked width height bits todo frame::
      markFrames width height bits (todo.drop (borderCapacity width height)) frames

section

variable {width height size : Nat} {frames : List Bytes} {bits : List Bool}

theorem length_markFrames (todo : List Bool) (frames : List Bytes) :
    (markFrames width height bits todo frames).length=frames.length := by
  induction frames generalizing todo with
  | nil => rfl
  | cons frame frames ih => exact congrArg Nat.succ (ih _)

theorem size_markFrames (todo : List Bool) (hsize : ∀ f∈frames, f.length=size) :
    ∀ f∈markFrames width height bits todo frames, f.length=size := by
  induction frames generalizing todo with
  | nil => exact hsize
  | cons frame frames ih =>
    obtain ⟨hframe,hframes⟩ := forall_mem_cons.1 hsize
    refine forall_mem_cons.2 ⟨?_,ih _ hframes⟩
    rw [length_marked]
    exact hframe

theorem embedFrames_eq {info : VideoInfo} (hsize : ∀ f∈frames, f.length=info.frameSize)
    (cursor : Nat) : embedFrames info bits cursor frames =
      .ok (markFrames info.width info.height bits (bits.drop cursor) frames) := by
  induction frames generalizing cursor with
  | nil => rfl
  | cons frame frames ih =>
    obtain ⟨hframe,hframes⟩ := forall_mem_cons.1 hsize
    set capacity := borderCapacity info.width info.height with hcapacity
    have hdrop : bits.drop (cursor+min capacity (bits.length-cursor)) =
        (bits.drop cursor).drop capacity := by
      rw [drop_drop]
      rcases le_total capacity (bits.length-cursor) with hle | hle
      · rw [min_eq_left hle]
      · rw [drop_eq_nil_of_le (by omega),drop_eq_nil_of_le (by omega)]
    rw [embedFrames,if_neg (not_not.2 hframe),embedBorderBits_eq]
    dsimp only
    rw [ih hframes,hdrop]
    rfl

theorem borderBits_markFrames (hlegible : Legible width height)
    (hsize : ∀ f∈frames, f.length=width*height*3) (todo : List Bool) :
    Agree ((markFrames width height bits todo frames).flatMap (borderBits width height)) todo := by
  induction frames generalizing todo with
  | nil => exact .inl nil_prefix
  | cons frame frames ih =>
    obtain ⟨hframe,hframes⟩ := forall_mem_cons.1 hsize
    rw [markFrames,flatMap_cons]
    refine (borderBits_marked hlegible hframe).append ?_
    rw [length_borderBits]
    exact ih hframes _

theorem length_flatMap_borderBits (frames : List Bytes) :
    (frames.flatMap (borderBits width height)).length =
      borderCapacity width height*frames.length := by
  induction frames with
  | nil => rfl
  | cons frame frames ih =>
    rw [flatMap_cons,length_append,ih,length_borderBits,length_cons,mul_succ,
      add_comm]

theorem lsbBits_markFrames_whole (hsize : ∀ f∈frames, f.length=size) (hsome : 0<frames.length)
    (hroom : bits.length ≤ size) (todo : List Bool) :
    bits <+: (markFrames width height bits todo frames).flatMap lsbBits := by
  cases frames with
  | nil => exact absurd hsome (lt_irrefl 0)
  | cons frame frames =>
    rw [markFrames,flatMap_cons]
    refine (lsbBits_marked.whole ?_).trans (prefix_append _ _)
    rw [length_lsbBits,length_marked,hsize frame mem_cons_self]
    exact hroom

theorem lsbBits_markFrames_part (hsize : ∀ f∈frames, f.length=size)
    (hroom : size≤bits.length) (todo : List Bool) :
    (markFrames width height bits todo frames).flatMap lsbBits =
      (List.replicate frames.length (bits.take size)).flatten := by
  induction frames generalizing todo with
  | nil => rfl
  | cons frame frames ih =>
    obtain ⟨hframe,hframes⟩ := forall_mem_cons.1 hsize
    have hlen : (lsbBits (marked width height bits todo frame)).length=size := by
      rw [length_lsbBits,length_marked,hframe]
    have hpart : lsbBits (marked width height bits todo frame) <+: bits :=
      lsbBits_marked.part (hlen.le.trans hroom)
    rw [markFrames,flatMap_cons,ih hframes,length_cons,replicate_succ,
      flatten_cons,prefix_iff_eq_take.1 hpart,hlen]

theorem reads_flatten (hsize : ∀ f∈frames, f.length=size) (hpos : 0<size) {fuel : Nat}
    (hfuel : frames.flatten.length≤fuel) : reads size fuel frames.flatten=frames := by
  induction frames generalizing fuel with
  | nil =>
    cases fuel with
    | zero => rfl
    | succ fuel =>
      rw [flatten_nil,reads,take_nil]
      rfl
  | cons frame frames ih =>
    obtain ⟨hframe,hframes⟩ := forall_mem_cons.1 hsize
    rw [flatten_cons,length_append,hframe] at hfuel
    cases fuel with
    | zero => omega
    | succ fuel =>
      have hsome : frame.isEmpty=false := by
        rw [isEmpty_eq_false_iff_exists_mem]
        exact exists_mem_of_length_pos (by omega)
      rw [flatten_cons,reads,take_left' hframe,drop_left' hframe,hsome,
        if_neg Bool.false_ne_true,ih hframes (by omega)]

theorem rawFrames_flatten (hsize : ∀ f∈frames, f.length=size) (hpos : 0<size) :
    rawFrames size frames.flatten=frames := reads_flatten hsize hpos (le_refl _)

end

variable {lib : Libraries} {now now' : Int} {info : VideoInfo} {metadata : Metadata}
  {payload : Bytes} {frames : List Bytes}

/-- The metadata is packed for the version it names, and so without change. -/
theorem packPayload_inversion (h : packPayload lib now metadata=.ok payload) :
    ∃ version, packEnvelope lib now metadata version=.ok payload ∧
      packed metadata version=metadata := by
  have hkept (version : Int) (hown : ∀ n, asInt (metadata.lookup (str "version"))=some n →
      n=version) : packed metadata version=metadata := by
    unfold packed upgraded
    split_ifs with htwo hlow
    · obtain ⟨n,hn,hlt⟩ := (Option.any_eq_true ..).1 hlow
      have hversion := hown n hn
      rw [decide_eq_true_eq] at hlt
      omega
    · rfl
    · rfl
  unfold packPayload at h
  cases hlookup : metadata.lookup (str "version") with
  | none =>
    rw [hlookup] at h hkept
    exact ⟨2,mapError_ok.1 h,hkept 2 fun n hn => (nomatch hn)⟩
  | some value =>
    rw [hlookup] at h hkept
    dsimp only at h
    cases hversion : asInt (some value) with
    | none =>
      rw [hversion] at h
      cases h
    | some version =>
      rw [hversion] at h hkept
      exact ⟨version,mapError_ok.1 h,hkept version fun n hn => (Option.some.inj hn).symm⟩

/-- What was packed is read as the metadata, and nothing shorter can be. -/
theorem packPayload_spec (hle : now≤now') (hm : IsMetadata lib.prints metadata)
    (h : packPayload lib now metadata=.ok payload) :
    unpackEnvelope lib now' payload=some metadata ∧ payload.length=43+sizeField payload := by
  obtain ⟨version,hpack,hkept⟩ := packPayload_inversion h
  have hunpack := unpackEnvelope_packed hle hm hpack []
  rw [append_nil,hkept] at hunpack
  refine ⟨hunpack,?_⟩
  obtain ⟨magic,hmagic,_,_,hbody,rfl,_⟩ := packEnvelope_inversion hm hpack
  have hseven := length_magic hmagic
  have hfour : MAX_PAYLOAD_BYTES<256^4 := by decide
  obtain ⟨_,hsize,_,_⟩ := @layOut_fields lib magic _ [] hseven (lt_of_le_of_lt hbody hfour)
  rw [append_nil] at hsize
  rw [hsize,length_layOut hseven]

theorem bitsToBytes_payload (payload : Bytes) : bitsToBytes (bytesToBits payload)=payload := by
  have hread := bitsToBytes_bytesToBits payload []
  rw [append_nil] at hread
  exact hread.trans (append_nil payload)

theorem unpackProgressive_whole {bits : List Bool}
    (hunpack : unpackEnvelope lib now payload=some metadata) (h : bytesToBits payload <+: bits) :
    unpackProgressive lib now bits=some metadata := by
  obtain ⟨rest,rfl⟩ := h
  refine unpackProgressive_readsAhead _ rest _ ?_
  rw [unpackProgressive_eq,bitsToBytes_payload,hunpack]

theorem unpackProgressive_part {bits : List Bool} (hlen : payload.length=43+sizeField payload)
    (h : bits <+: bytesToBits payload) (hlt : bits.length<(bytesToBits payload).length) :
    unpackProgressive lib now bits=none := by
  rw [length_bytesToBits] at hlt
  rw [unpackProgressive_eq,prefix_iff_eq_take.1 h,bitsToBytes_take,bitsToBytes_payload]
  cases hread : unpackEnvelope lib now (payload.take (bits.length/8)) with
  | none => rfl
  | some value =>
    have hfits := ((unpackEnvelope_opens _ _).1 hread).1.length
    rw [length_take] at hfits
    rw [sizeField_take payload (by omega)] at hfits
    omega

theorem extractFromLsb_eq (frames : List Bytes) :
    extractFromLsb lib now frames=unpackProgressive lib now (frames.flatMap lsbBits) :=
  progressive_eq unpackProgressive_readsAhead rfl _

/-- The border is read in all the frames, and then their lowest bits. -/
theorem extractFrames_eq {seen : List Bytes} (hsize : ∀ f∈frames, f.length=info.frameSize)
    (hseen : extractFromBorder lib now info seen=none) :
    extractFrames lib now info seen frames =
      (extractFromBorder lib now info (seen++frames)).or
        (unpackProgressive lib now ((seen++frames).flatMap lsbBits)) := by
  induction frames generalizing seen with
  | nil =>
    rw [append_nil,hseen]
    exact extractFromLsb_eq seen
  | cons frame frames ih =>
    obtain ⟨hframe,hframes⟩ := forall_mem_cons.1 hsize
    have hsplit : seen++frame::frames=seen++[frame]++frames := append_cons seen frame frames
    rw [extractFrames,if_neg (not_not.2 hframe),hsplit]
    cases hborder : extractFromBorder lib now info (seen++[frame]) with
    | none => exact ih hframes hborder
    | some value =>
      have hall : extractFromBorder lib now info (seen++[frame]++frames)=some value := by
        rw [extractFromBorder,flatMap_append]
        exact unpackProgressive_readsAhead _ _ _ hborder
      rw [hall]
      rfl

def shownBits (info : VideoInfo) (payload : Bytes) (frames : List Bytes) : List Bool :=
  (markFrames info.width info.height (bytesToBits payload) (bytesToBits payload) frames).flatMap
    (borderBits info.width info.height)

/-- The lowest bits of one frame hold the payload, or the part of it that they hold is still read
as the metadata when every frame repeats it. -/
def LowBitsSuffice (lib : Libraries) (now : Int) (info : VideoInfo) (metadata : Metadata)
    (payload : Bytes) (count : Nat) : Prop :=
  0 < count ∧ (bytesToBits payload).length ≤ info.frameSize ∨
    info.frameSize < (bytesToBits payload).length ∧
      unpackProgressive lib now
        (List.replicate count ((bytesToBits payload).take info.frameSize)).flatten = some metadata

theorem lsbBits_iff (hunpack : unpackEnvelope lib now payload=some metadata)
    (hsize : ∀ f∈frames, f.length=info.frameSize) :
    unpackProgressive lib now ((markFrames info.width info.height (bytesToBits payload)
        (bytesToBits payload) frames).flatMap lsbBits)=some metadata ↔
      LowBitsSuffice lib now info metadata payload frames.length := by
  unfold LowBitsSuffice
  rcases Nat.lt_or_ge info.frameSize (bytesToBits payload).length with hlt | hge
  · rw [lsbBits_markFrames_part hsize hlt.le]
    refine ⟨fun h => .inr ⟨hlt,h⟩,fun h => ?_⟩
    rcases h with ⟨_,hroom⟩ | ⟨_,h⟩
    · omega
    · exact h
  · rcases Nat.eq_zero_or_pos frames.length with hzero | hpos
    · obtain rfl := List.eq_nil_of_length_eq_zero hzero
      refine ⟨fun h => (nomatch h),fun h => ?_⟩
      rcases h with ⟨hpos,_⟩ | ⟨hlt,_⟩
      · exact absurd hpos (Nat.lt_irrefl 0)
      · omega
    · refine ⟨fun _ => .inl ⟨hpos,hge⟩,fun _ => unpackProgressive_whole hunpack ?_⟩
      exact lsbBits_markFrames_whole hsize hpos hge _

/-- The capacity check of the embedding. -/
def Fits (info : VideoInfo) (payload : Bytes) : Prop :=
  (bytesToBits payload).length ≤
      borderCapacity info.width info.height*countOr info.frameCount 1 ∨
    (bytesToBits payload).length ≤ info.width*info.height*3*countOr info.frameCount 1

theorem embedMetadata_eq (hpack : packPayload lib now metadata=.ok payload)
    (hfits : Fits info payload) {stream : Bytes} (hraw : rawFrames info.frameSize stream=frames)
    (hsize : ∀ f∈frames, f.length=info.frameSize) :
    embedMetadata lib now info metadata stream=.ok (markFrames info.width info.height
      (bytesToBits payload) (bytesToBits payload) frames).flatten := by
  rw [embedMetadata,bind_ok]
  refine ⟨payload,hpack,?_⟩
  dsimp only
  rw [if_neg,hraw,embedFrames_eq hsize]
  · rfl
  · unfold Fits at hfits
    omega

theorem take_countOr (h : info.frameCount=some frames.length) (default : Nat) :
    frames.take (countOr info.frameCount default)=frames := by
  refine take_of_length_le ?_
  rw [h]
  unfold countOr
  dsimp only
  split_ifs
  · omega
  · exact le_refl _

theorem frameSize_pos (hwidth : 8 ≤ info.width) (hheight : 8 ≤ info.height) :
    0 < info.frameSize := mul_pos (mul_pos (by omega) (by omega)) (by decide)

theorem extractMetadata_eq (hsize : ∀ f∈frames, f.length=info.frameSize)
    (hpos : 0 < info.frameSize) (hcount : info.frameCount=some frames.length) :
    extractMetadata lib now info frames.flatten =
      (unpackProgressive lib now (frames.flatMap (borderBits info.width info.height))).or
        (unpackProgressive lib now (frames.flatMap lsbBits)) := by
  rw [extractMetadata,rawFrames_flatten hsize hpos,take_countOr hcount,extractFrames_eq hsize rfl]
  rfl

section

variable (hunpack : unpackEnvelope lib now payload = some metadata)
  (hsize : ∀ f ∈ frames, f.length = info.frameSize)
  (hcount : info.frameCount = some frames.length)

include hunpack hsize hcount

theorem extractMetadata_iff_shown (hpos : 0 < info.frameSize) :
    extractMetadata lib now info (markFrames info.width info.height (bytesToBits payload)
        (bytesToBits payload) frames).flatten=some metadata ↔
      unpackProgressive lib now (shownBits info payload frames)=some metadata ∨
        unpackProgressive lib now (shownBits info payload frames)=none ∧
          LowBitsSuffice lib now info metadata payload frames.length := by
  rw [extractMetadata_eq (size_markFrames _ hsize) hpos (by rw [length_markFrames,hcount]),
    Option.or_eq_some_iff,lsbBits_iff hunpack hsize]
  rfl

/-- Frames that are wide and high enough show the bits they were given, as far as they go. -/
theorem extractMetadata_iff_fits (hwidth : 8 ≤ info.width) (hheight : 8 ≤ info.height)
    (hlen : payload.length=43+sizeField payload) :
    extractMetadata lib now info (markFrames info.width info.height (bytesToBits payload)
        (bytesToBits payload) frames).flatten=some metadata ↔
      (bytesToBits payload).length≤borderCapacity info.width info.height*frames.length ∨
        LowBitsSuffice lib now info metadata payload frames.length := by
  have hpos := frameSize_pos hwidth hheight
  have hagree : Agree (shownBits info payload frames) (bytesToBits payload) :=
    borderBits_markFrames (legible_of_wide hwidth hheight) hsize _
  have hshown : (shownBits info payload frames).length =
      borderCapacity info.width info.height*frames.length := by
    rw [shownBits,length_flatMap_borderBits,length_markFrames]
  rw [extractMetadata_iff_shown hunpack hsize hcount hpos,← hshown]
  rcases lt_or_ge (shownBits info payload frames).length (bytesToBits payload).length
    with hlt | hge
  · have hnone : unpackProgressive lib now (shownBits info payload frames)=none :=
      unpackProgressive_part hlen (hagree.part hlt.le) hlt
    rw [hnone]
    refine ⟨fun h => ?_,fun h => ?_⟩
    · rcases h with h | ⟨_,h⟩
      · cases h
      · exact .inr h
    · rcases h with h | h
      · omega
      · exact .inr ⟨rfl,h⟩
  · exact ⟨fun _ => .inl hge,fun _ => .inl (unpackProgressive_whole hunpack (hagree.whole hge))⟩

end

def black (info : VideoInfo) : Bytes := List.replicate info.frameSize 0

theorem length_black (info : VideoInfo) (count : Nat) :
    ∀ f∈List.replicate count (black info), f.length=info.frameSize := by
  intro f hf
  rw [eq_of_mem_replicate hf]
  exact length_replicate

def samplePayload : Bytes :=
  layOut storing MAGIC_V2 (canonicalJson (.object (sampleMetadata 2)))

theorem packPayload_sample : packPayload storing 0 (sampleMetadata 2)=.ok samplePayload := by
  have hprepare : prepare storing 0 (sampleMetadata 2) 2=.ok (MAGIC_V2,sampleMetadata 2) := rfl
  have hlength : (canonicalJson (.object (sampleMetadata 2))).length≤64*1024 := by
    rw [length_sampleText]
    decide
  have hpack : packEnvelope storing 0 (sampleMetadata 2) 2=.ok samplePayload :=
    packEnvelope_iff.2 ⟨_,_,hprepare,hlength,hlength,rfl⟩
  have hlookup : (sampleMetadata 2).lookup (str "version")=some (.number (decimal 2)) := rfl
  have hversion : asInt (some (.number (decimal 2)))=some 2 := readInteger_decimal 2
  simp only [packPayload,hlookup,hversion]
  exact mapError_ok.2 hpack

theorem length_samplePayload : (bytesToBits samplePayload).length=2312 := by
  rw [length_bytesToBits,samplePayload,length_layOut rfl,length_sampleText]

def oneFrame : VideoInfo where
  width := 32
  height := 32
  frameCount := some 1

def sevenFrames : VideoInfo where
  width := 8
  height := 14
  frameCount := some 7

theorem loads_none (body : Bytes) (limit : Nat) :
    storing.loads ((82::body).take limit)=none := by
  cases limit with
  | zero => rfl
  | succ limit => rfl

/-- The first 42 bytes of the sample over and over: the body begins within the second magic. -/
theorem repeated_sample_refused : unpackProgressive storing 0 (List.replicate 7
    ((bytesToBits samplePayload).take sevenFrames.frameSize)).flatten=none := by
  have hpart : (bytesToBits samplePayload).take sevenFrames.frameSize =
      bytesToBits (samplePayload.take 42) := bytesToBits_take samplePayload 42
  have hlen : (samplePayload.take 42).length=42 := by
    have hbits := length_samplePayload
    rw [length_bytesToBits] at hbits
    rw [length_take]
    omega
  obtain ⟨tail,htail⟩ : ∃ tail, samplePayload.take 42=72::82::tail := ⟨_,rfl⟩
  rw [hpart,replicate_succ,replicate_succ,flatten_cons,flatten_cons,
    unpackProgressive_eq,bitsToBytes_bytesToBits,bitsToBytes_bytesToBits]
  generalize bitsToBytes _ = more
  have hdrop : (samplePayload.take 42++(samplePayload.take 42++more)).drop 43 =
      82::(tail++more) := by
    rw [show 43=42+1 from rfl,← drop_drop,drop_left' hlen,htail]
    rfl
  cases hread : unpackEnvelope storing 0 (samplePayload.take 42++(samplePayload.take 42++more)) with
  | none => rfl
  | some value =>
    obtain ⟨_,_,_,_,hbody⟩ := unpackEnvelope_iff.1 hread
    obtain ⟨inflated,found,hinflated,hloads,_⟩ := readBody_iff.1 hbody
    obtain ⟨hinflate,_⟩ := decompressMetadata_iff.1 hinflated
    have hbytes := (Inflated.mk.inj (Option.some.inj hinflate)).1
    rw [← hbytes,bodyField,hdrop,take_take,loads_none] at hloads
    cases hloads

end Harpocrates.Backend.Stego
