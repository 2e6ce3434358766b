import Harpocrates.Framework.Bytes

namespace Framework.Bits

def ofByte (b : UInt8) : List Bool :=
  [7,6,5,4,3,2,1,0].map fun shift => (b.toNat >>> shift) &&& 1 == 1

def bytesToBits (data : Bytes) : List Bool := data.flatMap ofByte

def toByte (bits : List Bool) : UInt8 :=
  UInt8.ofNat (bits.foldl (fun value bit => (value <<< 1) ||| bit.toNat) 0)

def bitsToBytes (bits : List Bool) : Bytes :=
  (List.range (bits.length/8)).map fun i => toByte ((bits.drop (8*i)).take 8)

theorem toByte_ofByte (b : UInt8) : toByte (ofByte b)=b := by
  have hall : ∀ n : Fin 256, toByte (ofByte (UInt8.ofNat n.val))=UInt8.ofNat n.val := by
    decide +kernel
  have hb := hall ⟨b.toNat,b.toNat_lt⟩
  rwa [UInt8.ofNat_toNat] at hb

theorem length_bytesToBits (data : Bytes) : (bytesToBits data).length=8*data.length := by
  induction data with
  | nil => rfl
  | cons b data ih =>
    show (ofByte b++bytesToBits data).length = _
    rw [List.length_append,ih,List.length_cons]
    show 8+8*data.length = _
    omega

theorem bytesToBits_take (data : Bytes) (k : Nat) :
    (bytesToBits data).take (8*k)=bytesToBits (data.take k) := by
  rcases Nat.le_total k data.length with hle | hle
  · have hsplit : bytesToBits data=bytesToBits (data.take k)++bytesToBits (data.drop k) := by
      rw [bytesToBits,bytesToBits,bytesToBits,← List.flatMap_append,List.take_append_drop]
    have hlen : (bytesToBits (data.take k)).length=8*k := by
      rw [length_bytesToBits,List.length_take,Nat.min_eq_left hle]
    rw [hsplit,List.take_left' hlen]
  · rw [List.take_of_length_le hle,List.take_of_length_le]
    rw [length_bytesToBits]
    omega

theorem length_bitsToBytes (bits : List Bool) : (bitsToBytes bits).length=bits.length/8 := by
  rw [bitsToBytes,List.length_map,List.length_range]

theorem bitsToBytes_append_byte {byte : List Bool} (rest : List Bool) (h : byte.length=8) :
    bitsToBytes (byte++rest)=toByte byte::bitsToBytes rest := by
  have hlen : (byte++rest).length/8=rest.length/8+1 := by
    rw [List.length_append,h]
    omega
  rw [bitsToBytes,hlen,List.range_succ_eq_map,List.map_cons,List.map_map]
  refine congrArg₂ List.cons ?_ (List.map_congr_left fun i _ => ?_)
  · rw [Nat.mul_zero,List.drop_zero,List.take_left' h]
  · have hdrop : (byte++rest).drop (8*(i+1))=rest.drop (8*i) := by
      rw [Nat.mul_add,Nat.mul_one,Nat.add_comm,← List.drop_drop,List.drop_left' h]
    rw [Function.comp_apply,hdrop]

theorem bitsToBytes_bytesToBits (data : Bytes) (rest : List Bool) :
    bitsToBytes (bytesToBits data++rest)=data++bitsToBytes rest := by
  induction data with
  | nil => rfl
  | cons b data ih =>
    have hcons : bytesToBits (b::data)++rest=ofByte b++(bytesToBits data++rest) :=
      List.append_assoc _ _ _
    rw [hcons,bitsToBytes_append_byte _ rfl,toByte_ofByte,ih]
    rfl

theorem bitsToBytes_take (bits : List Bool) (n : Nat) :
    bitsToBytes (bits.take n)=(bitsToBytes bits).take (n/8) := by
  refine List.ext_getElem ?_ fun i hi hi' => ?_
  · rw [List.length_take,length_bitsToBytes,length_bitsToBytes,List.length_take]
    omega
  · rw [length_bitsToBytes,List.length_take] at hi
    simp only [bitsToBytes,List.getElem_map,List.getElem_range,List.getElem_take,List.drop_take,
      List.take_take]
    congr 2
    omega

theorem bitsToBytes_append (bits rest : List Bool) :
    ∃ more, bitsToBytes (bits++rest)=bitsToBytes bits++more := by
  have htake := bitsToBytes_take (bits++rest) bits.length
  rw [List.take_left] at htake
  refine ⟨(bitsToBytes (bits++rest)).drop (bits.length/8),?_⟩
  rw [htake,List.take_append_drop]

end Framework.Bits

namespace Framework

open List Nat

section

variable {α β : Type} (read : List β → Option α)

/-- The parts are added one by one until something can be read. -/
def progressive : List β → List (List β) → Option α
  | _,[] => none
  | seen,part::parts =>
    match read (seen++part) with
    | some v => some v
    | none => progressive (seen++part) parts

def ReadsAhead : Prop := ∀ seen more v, read seen = some v → read (seen++more) = some v

variable {read}

theorem progressive_eq (h : ReadsAhead read) {seen : List β} (hseen : read seen=none)
    (parts : List (List β)) : progressive read seen parts=read (seen++parts.flatten) := by
  induction parts generalizing seen with
  | nil =>
    rw [flatten_nil,append_nil,hseen]
    rfl
  | cons part parts ih =>
    rw [progressive,flatten_cons,← append_assoc]
    cases hpart : read (seen++part) with
    | none => exact ih hpart
    | some v => exact (h _ _ v hpart).symm

def Agree (a b : List β) : Prop := a <+: b ∨ b <+: a

theorem agree_of_getElem {a b : List β}
    (h : ∀ (i : Nat) (ha : i<a.length) (hb : i<b.length), a[i]=b[i]) : Agree a b := by
  rcases le_total a.length b.length with hle | hle
  · exact .inl (prefix_iff_getElem.2 ⟨hle,fun i hi => h i hi (by omega)⟩)
  · exact .inr (prefix_iff_getElem.2 ⟨hle,fun i hi => (h i (by omega) hi).symm⟩)

theorem Agree.append {a more b : List β} (h : Agree a b) (hmore : Agree more (b.drop a.length)) :
    Agree (a++more) b := by
  rcases h with hshort | hlong
  · obtain ⟨rest,rfl⟩ := hshort
    rw [drop_left] at hmore
    exact hmore.imp (prefix_append_right_inj a).2 (prefix_append_right_inj a).2
  · exact .inr (hlong.trans (prefix_append a more))

theorem Agree.whole {a b : List β} (h : Agree a b) (hle : b.length≤a.length) : b <+: a := by
  refine h.elim (fun hshort => ?_) id
  rw [hshort.eq_of_length_le hle]

theorem Agree.part {a b : List β} (h : Agree a b) (hle : a.length≤b.length) : a <+: b := by
  refine h.elim id fun hlong => ?_
  rw [hlong.eq_of_length_le hle]

end

end Framework
