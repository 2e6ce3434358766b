import Harpocrates.Backend.Envelope
import Harpocrates.Framework.Bits
import Harpocrates.Framework.Ranges

namespace Harpocrates.Backend.Stego

open Framework Framework.Bits Framework.Json Framework.Fallible Envelope List Nat

/-! Metadata in the frames of a video: as blocks along the border, and once more in the lowest
bits. -/

def BORDER_BLOCK : Int := 6
def BORDER_STRIDE : Int := 2

structure VideoInfo where
  width : Nat
  height : Nat
  frameCount : Option Nat

def VideoInfo.frameSize (info : VideoInfo) : Nat := info.width*info.height*3

/-- `count or default`: a count of zero is taken for a missing one. -/
def countOr (count : Option Nat) (default : Nat) : Nat :=
  match count with
  | none => default
  | some n => if n = 0 then default else n

def borderPositions (width height : Nat) : List (Int × Int) :=
  (Ranges.range 0 width BORDER_BLOCK).map (fun x => (BORDER_STRIDE,x))++
  ((Ranges.range BORDER_BLOCK height BORDER_BLOCK).map (fun y => (y,width-BORDER_STRIDE-1))++
  ((Ranges.range (width-BORDER_BLOCK) (-1) (-BORDER_BLOCK)).map
    (fun x => (height-BORDER_STRIDE-1,x))++
  (Ranges.range (height-BORDER_BLOCK) (BORDER_BLOCK-1) (-BORDER_BLOCK)).map
    (fun y => (y,BORDER_STRIDE))))

def borderCapacity (width height : Nat) : Nat := (borderPositions width height).length

/-- The rows from `top` to before `bottom`, in the columns from `left` to before `right`. -/
structure Block where
  top : Nat
  bottom : Nat
  left : Nat
  right : Nat

def Block.covers (block : Block) (y x : Nat) : Bool :=
  block.top ≤ y && y < block.bottom && (block.left ≤ x && x < block.right)

def blockAt (width height : Nat) (position : Int × Int) : Block where
  top := (max 0 (position.1-BORDER_STRIDE)).toNat
  bottom := (min (height : Int) (position.1+BORDER_STRIDE+1)).toNat
  left := (max 0 (position.2-BORDER_STRIDE)).toNat
  right := (min (width : Int) (position.2+BORDER_STRIDE+1)).toNat

def paint (width : Nat) (block : Block) (color : UInt8) (frame : Bytes) : Bytes :=
  frame.mapIdx fun i b => if block.covers (i/3/width) (i/3%width) then color else b

def borderColor (bit : Bool) : UInt8 := if bit then 238 else 17

def embedBorderBits (width height : Nat) (frame : Bytes) (bits : List Bool) (cursor : Nat) :
    Bytes × Nat :=
  (borderPositions width height).foldl (fun s position =>
    match bits[s.2]? with
    | some bit => (paint width (blockAt width height position) (borderColor bit) s.1,s.2+1)
    | none => s) (frame,cursor)

def embedLsbBits (frame : Bytes) (bits : List Bool) : Bytes :=
  frame.mapIdx fun i b =>
    match bits[i]? with
    | some bit => (b &&& 0xFE) ||| bit.toUInt8
    | none => b

/-- What the reads of `size` bytes give until one gives nothing. -/
def reads (size : Nat) : Nat → Bytes → List Bytes
  | 0,_ => []
  | fuel+1,stream =>
    if (stream.take size).isEmpty then [] else stream.take size::reads size fuel (stream.drop size)

def rawFrames (size : Nat) (stream : Bytes) : List Bytes := reads size stream.length stream

inductive EmbedError
  | envelope (e : EnvelopeError)
  | version
  | value (message : String)
  | runtime (message : String)

/-- A version that is no integer is refused on each of the paths it can take. -/
def packPayload (lib : Libraries) (now : Int) (metadata : Metadata) : Except EmbedError Bytes :=
  match metadata.lookup (str "version") with
  | none => (packEnvelope lib now metadata 2).mapError .envelope
  | some value =>
    match asInt (some value) with
    | some version => (packEnvelope lib now metadata version).mapError .envelope
    | none => .error .version

def embedFrames (info : VideoInfo) (bits : List Bool) :
    Nat → List Bytes → Except EmbedError (List Bytes)
  | _,[] => .ok []
  | cursor,raw::rest => do
    if raw.length ≠ info.frameSize then .error (.runtime "ffmpeg returned a partial frame")
    else
      let bordered := embedBorderBits info.width info.height raw bits cursor
      let frames ← embedFrames info bits bordered.2 rest
      return embedLsbBits bordered.1 bits::frames

def embedMetadata (lib : Libraries) (now : Int) (info : VideoInfo) (metadata : Metadata)
    (stream : Bytes) : Except EmbedError Bytes := do
  let payload ← packPayload lib now metadata
  let bits := bytesToBits payload
  let borderCap := borderCapacity info.width info.height*countOr info.frameCount 1
  let lsbCap := info.width*info.height*3*countOr info.frameCount 1
  if bits.length > borderCap ∧ bits.length > lsbCap then
    .error (.value
      "metadata payload is larger than the available video steganography capacity")
  else
    let frames ← embedFrames info bits 0 (rawFrames info.frameSize stream)
    return frames.flatten

def pixel (width : Nat) (frame : Bytes) (y x channel : Nat) : Nat :=
  (frame.getD ((y*width+x)*3+channel) 0).toNat

def Block.cells (block : Block) : Finset (Nat × Nat) :=
  Finset.Ico block.top block.bottom ×ˢ Finset.Ico block.left block.right

def blockTotal (width : Nat) (frame : Bytes) (block : Block) : Nat :=
  ∑ cell ∈ block.cells, (pixel width frame cell.1 cell.2 0+pixel width frame cell.1 cell.2 1+
    pixel width frame cell.1 cell.2 2)

def blockBit (width height : Nat) (frame : Bytes) (position : Int × Int) : Bool :=
  let block := blockAt width height position
  128 ≤ blockTotal width frame block/(3*block.cells.card)

def borderBits (width height : Nat) (frame : Bytes) : List Bool :=
  (borderPositions width height).map (blockBit width height frame)

def lsbBits (frame : Bytes) : List Bool := frame.map fun b => b &&& 1 == 1

/-- The header is read first, and the envelope once all of it is there. -/
def unpackBits {α : Type} (known : Bytes → Bool) (unpack : Bytes → Option α) (bits : List Bool) :
    Option α :=
  if bits.length < (7+4+32)*8 then none
  else
    let header := bitsToBytes (bits.take ((7+4+32)*8))
    if !known (header.take 7) then none
    else if MAX_PAYLOAD_BYTES < sizeField header then none
    else if bits.length < (7+4+32+sizeField header)*8 then none
    else unpack (bitsToBytes (bits.take ((7+4+32+sizeField header)*8)))

def unpackProgressive (lib : Libraries) (now : Int) (bits : List Bool) : Option Metadata :=
  unpackBits (fun magic => magic = MAGIC_V1 || magic = MAGIC_V2) (unpackEnvelope lib now) bits

def extractFromBorder (lib : Libraries) (now : Int) (info : VideoInfo) (frames : List Bytes) :
    Option Metadata :=
  unpackProgressive lib now (frames.flatMap (borderBits info.width info.height))

def extractFromLsb (lib : Libraries) (now : Int) (frames : List Bytes) : Option Metadata :=
  progressive (unpackProgressive lib now) [] (frames.map lsbBits)

/-- The frames that were kept, and those to be read. -/
def extractFrames (lib : Libraries) (now : Int) (info : VideoInfo) :
    List Bytes → List Bytes → Option Metadata
  | frames,[] => extractFromLsb lib now frames
  | frames,raw::rest =>
    if raw.length ≠ info.frameSize then extractFromLsb lib now frames
    else
      match extractFromBorder lib now info (frames++[raw]) with
      | some value => some value
      | none => extractFrames lib now info (frames++[raw]) rest

def extractMetadata (lib : Libraries) (now : Int) (info : VideoInfo) (stream : Bytes) :
    Option Metadata :=
  extractFrames lib now info [] ((rawFrames info.frameSize stream).take
    (countOr info.frameCount 240))

variable {k : Nat}

theorem sizeField_take (data : Bytes) (h : 11≤k) : sizeField (data.take k)=sizeField data := by
  rw [sizeField,sizeField,drop_take,take_take,min_eq_left (by omega)]

theorem checksumField_take (data : Bytes) (h : 43≤k) :
    checksumField (data.take k)=checksumField data := by
  rw [checksumField,checksumField,drop_take,take_take,min_eq_left (by omega)]

theorem bodyField_take {data : Bytes} (h : 43+sizeField data≤k) :
    bodyField (data.take k)=bodyField data := by
  rw [bodyField,bodyField,sizeField_take data (by omega),drop_take,take_take,
    min_eq_left (by omega)]

theorem magic_take (data : Bytes) (h : 7≤k) : (data.take k).take 7=data.take 7 := by
  rw [take_take,min_eq_left h]

/-- An envelope that is there in full, under one of the magics. -/
structure Intact (lib : Libraries) (known : Bytes → Bool) (data : Bytes) : Prop where
  magic : known (data.take 7)
  size : sizeField data ≤ MAX_PAYLOAD_BYTES
  length : 43+sizeField data ≤ data.length
  checksum : (lib.sha256 (bodyField data)).1 = checksumField data

variable {lib : Libraries} {now : Int} {known : Bytes → Bool}

theorem intact_take {data : Bytes} (h : 43+sizeField data≤k) :
    Intact lib known (data.take k) ↔ Intact lib known data := by
  have hsize := sizeField_take data (show 11≤k by omega)
  have hmagic := magic_take data (show 7≤k by omega)
  have hsum := checksumField_take data (show 43≤k by omega)
  have hbody := bodyField_take h
  have hlen : (data.take k).length=min k data.length := length_take
  constructor
  · intro hcut
    refine ⟨hmagic ▸ hcut.magic,hsize ▸ hcut.size,?_,?_⟩
    · have hfits := hcut.length
      omega
    · rw [← hbody,← hsum]
      exact hcut.checksum
  · intro hwhole
    refine ⟨hmagic.symm ▸ hwhole.magic,hsize.symm ▸ hwhole.size,?_,?_⟩
    · have hfits := hwhole.length
      omega
    · rw [hbody,hsum]
      exact hwhole.checksum

section

variable {α : Type} {read : Bytes → Bytes → Option α} {unpack : Bytes → Option α}

/-- Unpacking gives what is read in the body, given the magic, if the envelope is intact. -/
def Opens (lib : Libraries) (known : Bytes → Bool) (read : Bytes → Bytes → Option α)
    (unpack : Bytes → Option α) : Prop :=
  ∀ data value, unpack data = some value ↔
    Intact lib known data ∧ read (data.take 7) (bodyField data) = some value

theorem Opens.take (h : Opens lib known read unpack) {data : Bytes} {k : Nat}
    (hk : 43+sizeField data≤k) : unpack (data.take k)=unpack data := by
  refine Option.ext fun value => ?_
  rw [h,h,intact_take hk,magic_take data (by omega),bodyField_take hk]

theorem Opens.readsAhead (h : Opens lib known read unpack) : ReadsAhead unpack := by
  intro data more value hvalue
  have hlen := ((h _ _).1 hvalue).1.length
  have htake : (data++more).take data.length=data := take_left
  have hsize : sizeField (data++more)=sizeField data := by
    have hcut := sizeField_take (data++more) (show 11≤data.length by omega)
    rw [htake] at hcut
    exact hcut.symm
  have hwhole : unpack ((data++more).take data.length)=unpack (data++more) := h.take (by omega)
  rw [← hwhole,htake,hvalue]

theorem Opens.bits (h : Opens lib known read unpack) (bits : List Bool) :
    unpackBits known unpack bits=unpack (bitsToBytes bits) := by
  have hlen := length_bitsToBytes bits
  have hheader : bitsToBytes (bits.take ((7+4+32)*8))=(bitsToBytes bits).take 43 :=
    bitsToBytes_take bits _
  have htotal : ∀ n, bitsToBytes (bits.take ((7+4+32+n)*8))=(bitsToBytes bits).take (43+n) := by
    intro n
    rw [bitsToBytes_take,Nat.mul_div_cancel _ (by decide)]
  refine Option.ext fun value => ?_
  unfold unpackBits
  dsimp only
  rw [hheader,sizeField_take _ (by decide),magic_take _ (by decide),htotal]
  split_ifs with hshort hmagic hsize hlong
  · refine ⟨fun hnone => (nomatch hnone),fun hvalue => ?_⟩
    have hfits := ((h _ _).1 hvalue).1.length
    omega
  · refine ⟨fun hnone => (nomatch hnone),fun hvalue => ?_⟩
    have hknown := ((h _ _).1 hvalue).1.magic
    rw [hknown] at hmagic
    cases hmagic
  · refine ⟨fun hnone => (nomatch hnone),fun hvalue => ?_⟩
    have hfits := ((h _ _).1 hvalue).1.size
    omega
  · refine ⟨fun hnone => (nomatch hnone),fun hvalue => ?_⟩
    have hfits := ((h _ _).1 hvalue).1.length
    omega
  · rw [h.take (le_refl _)]

end

theorem unpackEnvelope_opens : Opens lib (fun magic => magic=MAGIC_V1 || magic=MAGIC_V2)
    (readBody lib now) (unpackEnvelope lib now) := by
  intro data value
  rw [unpackEnvelope_iff]
  constructor
  · rintro ⟨hmagic,hsize,hlen,hsum,hread⟩
    exact ⟨⟨by simpa using hmagic,hsize,hlen,hsum⟩,hread⟩
  · rintro ⟨⟨hmagic,hsize,hlen,hsum⟩,hread⟩
    exact ⟨by simpa using hmagic,hsize,hlen,hsum,hread⟩

theorem unpackProgressive_eq (bits : List Bool) :
    unpackProgressive lib now bits=unpackEnvelope lib now (bitsToBytes bits) :=
  unpackEnvelope_opens.bits bits

theorem unpackProgressive_readsAhead : ReadsAhead (unpackProgressive lib now) := by
  intro bits more value h
  obtain ⟨rest,hrest⟩ := bitsToBytes_append bits more
  rw [unpackProgressive_eq] at h ⊢
  rw [hrest]
  exact unpackEnvelope_opens.readsAhead _ _ _ h

end Harpocrates.Backend.Stego
