import Harpocrates.Backend.Stego

namespace Harpocrates.Clients.StegoDecoder

open Framework Framework.Bits Framework.Json Framework.Fallible Backend Backend.Envelope
open List Option Nat
open Backend.Stego (Intact Opens unpackBits)

def MAGIC : Bytes := "HRPSTG1".toList.map fun c => UInt8.ofNat c.toNat
def BORDER_BLOCK : Int := 6
def BORDER_STRIDE : Int := 2

/-- An array is an object to `typeof`. -/
def readObject (lib : Libraries) (inflate : Bytes → Option Bytes) (body : Bytes) : Option Json :=
  match inflate body with
  | none => none
  | some decompressed =>
    match lib.loads decompressed with
    | some (.object entries) => some (.object entries)
    | some (.array items) => some (.array items)
    | _ => none

def unpackPayload (lib : Libraries) (inflate : Bytes → Option Bytes) (data : Bytes) :
    Option Json :=
  if data.length < MAGIC.length+4+32 then none
  else if data.take MAGIC.length ≠ MAGIC then none
  else if MAX_PAYLOAD_BYTES < sizeField data then none
  else if data.length < MAGIC.length+4+32+sizeField data then none
  else if checksumField data ≠ (lib.sha256 (bodyField data)).1 then none
  else readObject lib inflate (bodyField data)

def unpackProgressive (lib : Libraries) (inflate : Bytes → Option Bytes) (bits : List Bool) :
    Option Json := unpackBits (fun magic => magic = MAGIC) (unpackPayload lib inflate) bits

theorem upward_decreases {x stop : Int} (h : x<stop) :
    (stop-(x+BORDER_BLOCK)).toNat<(stop-x).toNat := by
  unfold BORDER_BLOCK
  omega

theorem downward_decreases {x stop : Int} (h : x ≥ stop) :
    (x-BORDER_BLOCK-stop+1).toNat<(x-stop+1).toNat := by
  unfold BORDER_BLOCK
  omega

def upward (x stop : Int) : List Int :=
  if x < stop then x::upward (x+BORDER_BLOCK) stop else []
termination_by (stop-x).toNat
decreasing_by exact upward_decreases ‹_›

def downward (x stop : Int) : List Int :=
  if x ≥ stop then x::downward (x-BORDER_BLOCK) stop else []
termination_by (x-stop+1).toNat
decreasing_by exact downward_decreases ‹_›

def getBorderPositions (width height : Nat) : List (Int × Int) :=
  (upward 0 width).map (fun x => (BORDER_STRIDE,x))++
  ((upward BORDER_BLOCK height).map (fun y => (y,width-BORDER_STRIDE-1))++
  ((downward (width-BORDER_BLOCK) 0).map (fun x => (height-BORDER_STRIDE-1,x))++
  (downward (height-BORDER_BLOCK) BORDER_BLOCK).map (fun y => (y,BORDER_STRIDE))))

theorem upward_eq (x stop : Int) : upward x stop=Ranges.range x stop Stego.BORDER_BLOCK := by
  induction x using upward.induct stop with
  | case1 x h ih =>
    have hrange := Ranges.range_up x stop (show 0<Stego.BORDER_BLOCK by decide)
    rw [if_pos h] at hrange
    rw [upward,if_pos h,ih,hrange]
    rfl
  | case2 x h => rw [upward,if_neg h,Ranges.range_up _ _ (by decide),if_neg h]

theorem downward_eq (x stop : Int) :
    downward x stop=Ranges.range x (stop-1) (-Stego.BORDER_BLOCK) := by
  induction x using downward.induct stop with
  | case1 x h ih =>
    have hrange := Ranges.range_down x (stop-1) (show 0<Stego.BORDER_BLOCK by decide)
    rw [if_pos (show stop-1<x by omega)] at hrange
    rw [downward,if_pos h,ih,hrange]
    rfl
  | case2 x h =>
    rw [downward,if_neg h,Ranges.range_down _ _ (by decide),if_neg (show ¬ stop-1<x by omega)]

theorem getBorderPositions_eq (width height : Nat) :
    getBorderPositions width height=Stego.borderPositions width height := by
  rw [getBorderPositions,upward_eq,upward_eq,downward_eq,downward_eq]
  rfl

variable {lib : Libraries} {now : Int} {inflate : Bytes → Option Bytes}

theorem unpackPayload_opens : Opens lib (fun magic => magic=MAGIC)
    (fun _ body => readObject lib inflate body) (unpackPayload lib inflate) := by
  intro data value
  have hseven : MAGIC.length=7 := rfl
  unfold unpackPayload
  rw [hseven]
  split_ifs with hshort hmagic hsize hlong hsum
  · refine ⟨fun h => (nomatch h),fun h => ?_⟩
    have hlen := h.1.length
    omega
  · exact ⟨fun h => (nomatch h),fun h => absurd (of_decide_eq_true h.1.magic) hmagic⟩
  · exact ⟨fun h => (nomatch h),fun h => absurd h.1.size (Nat.not_le.2 hsize)⟩
  · exact ⟨fun h => (nomatch h),fun h => absurd h.1.length (Nat.not_le.2 hlong)⟩
  · exact ⟨fun h => (nomatch h),fun h => absurd h.1.checksum.symm hsum⟩
  · have hintact : Intact lib (fun magic => magic=MAGIC) data :=
      ⟨decide_eq_true (not_not.1 hmagic),Nat.le_of_not_lt hsize,Nat.le_of_not_lt hlong,
        (not_not.1 hsum).symm⟩
    exact ⟨fun h => ⟨hintact,h⟩,fun h => h.2⟩

def SameInflate (lib : Libraries) (inflate : Bytes → Option Bytes) : Prop :=
  ∀ body, decompressMetadata lib body =
    (inflate body).filter fun inflated => inflated.length ≤ MAX_DECOMPRESSED_BYTES

def DecodersAgree (lib : Libraries) (now : Int) (inflate : Bytes → Option Bytes)
    (bits : List Bool) : Prop :=
  unpackProgressive lib inflate bits = (Stego.unpackProgressive lib now bits).map .object

def Holds (lib : Libraries) (magic body : Bytes) (bits : List Bool) : Prop :=
  Intact lib (fun found => found = magic) (bitsToBytes bits) ∧ bodyField (bitsToBytes bits) = body

theorem browser_iff {bits : List Bool} {value : Json} :
    unpackProgressive lib inflate bits=some value ↔
      ∃ body, Holds lib MAGIC_V1 body bits ∧ readObject lib inflate body=some value := by
  rw [unpackProgressive,unpackPayload_opens.bits,unpackPayload_opens]
  constructor
  · rintro ⟨hintact,hread⟩
    exact ⟨_,⟨hintact,rfl⟩,hread⟩
  · rintro ⟨body,⟨hintact,rfl⟩,hread⟩
    exact ⟨hintact,hread⟩

theorem backend_iff {bits : List Bool} {metadata : Metadata} :
    Stego.unpackProgressive lib now bits=some metadata ↔
      ∃ magic body, (magic=MAGIC_V1 ∨ magic=MAGIC_V2) ∧ Holds lib magic body bits ∧
        readBody lib now magic body=some metadata := by
  rw [Stego.unpackProgressive_eq,Stego.unpackEnvelope_opens]
  constructor
  · rintro ⟨⟨hmagic,hsize,hlen,hsum⟩,hread⟩
    exact ⟨_,_,by simpa using hmagic,⟨⟨by simp,hsize,hlen,hsum⟩,rfl⟩,hread⟩
  · rintro ⟨magic,body,hmagic,⟨⟨hfound,hsize,hlen,hsum⟩,rfl⟩,hread⟩
    obtain rfl := of_decide_eq_true hfound
    exact ⟨⟨by simpa using hmagic,hsize,hlen,hsum⟩,hread⟩

theorem readObject_iff {body : Bytes} {value : Json} :
    readObject lib inflate body=some value ↔
      ∃ inflated, inflate body=some inflated ∧ lib.loads inflated=some value ∧
        ((∃ entries, value=.object entries) ∨ ∃ items, value=.array items) := by
  unfold readObject
  constructor
  · intro h
    split at h
    · cases h
    rename_i inflated hinflated
    split at h
    · rename_i entries hloads
      cases h
      exact ⟨inflated,hinflated,hloads,.inl ⟨entries,rfl⟩⟩
    · rename_i items hloads
      cases h
      exact ⟨inflated,hinflated,hloads,.inr ⟨items,rfl⟩⟩
    · cases h
  · rintro ⟨inflated,hinflated,hloads,⟨entries,rfl⟩ | ⟨items,rfl⟩⟩
    · simp only [hinflated,hloads]
    · simp only [hinflated,hloads]

theorem decompress_iff (hsame : SameInflate lib inflate) {body inflated : Bytes} :
    decompressMetadata lib body=some inflated ↔
      inflate body=some inflated ∧ inflated.length≤MAX_DECOMPRESSED_BYTES := by
  rw [hsame,filter_eq_some_iff,decide_eq_true_iff]

/-- What the backend reads in the body of the first version. -/
theorem readBody_v1_iff (hsame : SameInflate lib inflate) {body : Bytes} {metadata : Metadata} :
    readBody lib now MAGIC_V1 body=some metadata ↔
      ∃ inflated, inflate body=some inflated ∧ inflated.length≤MAX_DECOMPRESSED_BYTES ∧
        lib.loads inflated=some (.object metadata) ∧ validateV1 lib now metadata=.ok () := by
  have hvalid : ∀ found, validateByMagic lib now MAGIC_V1 found=.ok metadata ↔
      validateV1 lib now found=.ok () ∧ found=metadata := by
    intro found
    rw [validateByMagic,if_pos rfl]
    cases validateV1 lib now found with
    | error e => simp [Except.map]
    | ok u => simp [Except.map]
  rw [readBody_iff]
  constructor
  · rintro ⟨inflated,found,hinflated,hloads,hfound⟩
    obtain ⟨hok,rfl⟩ := (hvalid found).1 hfound
    obtain ⟨hinflate,hbound⟩ := (decompress_iff hsame).1 hinflated
    exact ⟨inflated,hinflate,hbound,hloads,hok⟩
  · rintro ⟨inflated,hinflate,hbound,hloads,hok⟩
    exact ⟨inflated,metadata,(decompress_iff hsame).2 ⟨hinflate,hbound⟩,hloads,
      (hvalid metadata).2 ⟨hok,rfl⟩⟩

theorem Holds.unique {magic body magic' body' : Bytes} {bits : List Bool}
    (h : Holds lib magic body bits) (h' : Holds lib magic' body' bits) :
    magic=magic' ∧ body=body' :=
  ⟨(of_decide_eq_true h.1.magic).symm.trans (of_decide_eq_true h'.1.magic),h.2.symm.trans h'.2⟩

theorem holds_layOut (lib : Libraries) {magic body : Bytes} (hmagic : magic.length=7)
    (hsize : body.length≤MAX_PAYLOAD_BYTES) :
    Holds lib magic body (bytesToBits (layOut lib magic body)) := by
  have hfour : MAX_PAYLOAD_BYTES<256^4 := by decide
  have hfields : (layOut lib magic body++[]).take 7=magic ∧
      sizeField (layOut lib magic body++[])=body.length ∧
      checksumField (layOut lib magic body++[])=(lib.sha256 body).1 ∧
      bodyField (layOut lib magic body++[])=body :=
    layOut_fields [] hmagic (lt_of_le_of_lt hsize hfour)
  rw [append_nil] at hfields
  obtain ⟨htake,hfield,hsum,hbody⟩ := hfields
  have hbytes := bitsToBytes_bytesToBits (layOut lib magic body) []
  rw [append_nil] at hbytes
  rw [Holds,hbytes,show bitsToBytes []=[] from rfl,append_nil]
  refine ⟨⟨?_,?_,?_,?_⟩,hbody⟩
  · rw [htake]
    exact decide_eq_true rfl
  · rw [hfield]
    exact hsize
  · rw [hfield,length_layOut hmagic]
  · rw [hbody,hsum]

theorem storing_sameInflate : SameInflate storing some := by
  intro body
  refine Option.ext fun inflated => ?_
  rw [decompressMetadata_iff,filter_eq_some_iff,decide_eq_true_iff]
  constructor
  · rintro ⟨hinflate,hbound⟩
    obtain ⟨htake,hdrop,-,-⟩ := Inflated.mk.inj (Option.some.inj hinflate)
    have hwhole := take_append_drop (MAX_DECOMPRESSED_BYTES+1) body
    rw [htake,hdrop,append_nil] at hwhole
    exact ⟨congrArg some hwhole.symm,hbound⟩
  · rintro ⟨hinflate,hbound⟩
    cases hinflate
    exact ⟨inflate_stored (lt_succ_of_le hbound),hbound⟩

def storedBits (magic body : Bytes) : List Bool := bytesToBits (layOut storing magic body)

end Harpocrates.Clients.StegoDecoder
