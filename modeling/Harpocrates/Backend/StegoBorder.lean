import Harpocrates.Backend.Stego

namespace Harpocrates.Backend.Stego

open Framework Framework.Bits Framework.Json Framework.Fallible Envelope List Nat

theorem mem_cells {block : Block} {cell : Nat × Nat} :
    cell∈block.cells ↔ block.covers cell.1 cell.2=true := by
  simp [Block.cells,Block.covers,and_assoc]

theorem card_cells (block : Block) :
    block.cells.card=(block.bottom-block.top)*(block.right-block.left) := by
  rw [Block.cells,Finset.card_product,card_Ico,card_Ico]

theorem length_paint (width : Nat) (block : Block) (color : UInt8) (frame : Bytes) :
    (paint width block color frame).length=frame.length := length_mapIdx

section

variable {width height y x channel : Nat} {frame : Bytes}

theorem pixel_eq (h : (y*width+x)*3+channel<frame.length) :
    pixel width frame y x channel=(frame.get ⟨(y*width+x)*3+channel,h⟩).toNat := by
  rw [pixel,getD_eq_getElem?_getD,List.getElem?_eq_getElem h,Option.getD_some]
  rfl

theorem place_eq (hx : x<width) (hchannel : channel<3) :
    ((y*width+x)*3+channel)/3/width=y ∧ ((y*width+x)*3+channel)/3%width=x := by
  have hpixel : ((y*width+x)*3+channel)/3=y*width+x := by omega
  have hwidth : 0<width := by omega
  rw [hpixel,mul_comm y,mul_add_div hwidth,div_eq_of_lt hx,mul_add_mod,
    mod_eq_of_lt hx]
  exact ⟨rfl,rfl⟩

theorem pixel_paint (block : Block) (color : UInt8) (hx : x<width) (hchannel : channel<3)
    (h : (y*width+x)*3+channel<frame.length) :
    pixel width (paint width block color frame) y x channel =
      if block.covers y x then color.toNat else pixel width frame y x channel := by
  have hlen : (y*width+x)*3+channel<(paint width block color frame).length := by
    rw [length_paint]
    exact h
  obtain ⟨hrow,hcolumn⟩ := place_eq (y := y) hx hchannel
  rw [pixel_eq hlen,pixel_eq h,get_eq_getElem,get_eq_getElem]
  simp only [paint,getElem_mapIdx,hrow,hcolumn]
  split_ifs
  · rfl
  · rfl

theorem lsb_spec (b : UInt8) (bit : Bool) :
    ((b &&& 0xFE) ||| bit.toUInt8).toNat/2=b.toNat/2 ∧
      (((b &&& 0xFE) ||| bit.toUInt8) &&& 1 == 1)=bit := by
  have hall : ∀ n : Fin 256, ∀ bit : Bool,
      ((UInt8.ofNat n.val &&& 0xFE) ||| bit.toUInt8).toNat/2=(UInt8.ofNat n.val).toNat/2 ∧
        (((UInt8.ofNat n.val &&& 0xFE) ||| bit.toUInt8) &&& 1 == 1)=bit := by
    decide +kernel
  have hb := hall ⟨b.toNat,b.toNat_lt⟩ bit
  simpa only [UInt8.ofNat_toNat] using hb

theorem length_embedLsbBits (frame : Bytes) (bits : List Bool) :
    (embedLsbBits frame bits).length=frame.length := length_mapIdx

theorem pixel_embedLsbBits (bits : List Bool) (h : (y*width+x)*3+channel<frame.length) :
    pixel width (embedLsbBits frame bits) y x channel/2=pixel width frame y x channel/2 := by
  have hlen : (y*width+x)*3+channel<(embedLsbBits frame bits).length := by
    rw [length_embedLsbBits]
    exact h
  rw [pixel_eq hlen,pixel_eq h,get_eq_getElem,get_eq_getElem]
  simp only [embedLsbBits,getElem_mapIdx]
  split
  · exact (lsb_spec _ _).1
  · rfl

theorem color_total (bit : Bool) {a b c : Nat} (ha : a/2=(borderColor bit).toNat/2)
    (hb : b/2=(borderColor bit).toNat/2) (hc : c/2=(borderColor bit).toNat/2) :
    if bit then 714≤a+b+c else a+b+c≤51 := by
  cases bit with
  | true =>
    have hcolor : (borderColor true).toNat=238 := rfl
    rw [hcolor] at ha hb hc
    rw [if_pos rfl]
    omega
  | false =>
    have hcolor : (borderColor false).toNat=17 := rfl
    rw [hcolor] at ha hb hc
    rw [if_neg Bool.false_ne_true]
    omega

/-- A block of which three fifths show the color of a bit is read as the bit. -/
theorem blockBit_of_core {position : Int × Int} {core : Block} {bit : Bool}
    (hsub : core.cells ⊆ (blockAt width height position).cells)
    (hshare : 3*(blockAt width height position).cells.card≤5*core.cells.card)
    (hsome : 0<(blockAt width height position).cells.card)
    (hcore : ∀ cell∈core.cells, ∀ channel<3,
      pixel width frame cell.1 cell.2 channel/2=(borderColor bit).toNat/2) :
    blockBit width height frame position=bit := by
  set cells := (blockAt width height position).cells with hcells
  let value := fun cell : Nat × Nat => pixel width frame cell.1 cell.2 0+
    pixel width frame cell.1 cell.2 1+pixel width frame cell.1 cell.2 2
  have htotal : blockTotal width frame (blockAt width height position) =
      ∑ cell∈cells \ core.cells, value cell+∑ cell∈core.cells, value cell :=
    (Finset.sum_sdiff hsub).symm
  have hcount : (cells \ core.cells).card+core.cells.card=cells.card :=
    Finset.card_sdiff_add_card_eq_card hsub
  have hbright : ∀ cell∈core.cells, if bit then 714≤value cell else value cell≤51 :=
    fun cell hcell => color_total bit (hcore cell hcell 0 (by decide))
      (hcore cell hcell 1 (by decide)) (hcore cell hcell 2 (by decide))
  have hread : blockBit width height frame position =
      decide (128≤blockTotal width frame (blockAt width height position)/(3*cells.card)) := rfl
  rw [hread,htotal]
  cases bit with
  | true =>
    have hlow : core.cells.card*714 ≤ ∑ cell∈core.cells, value cell := by
      refine Finset.card_nsmul_le_sum core.cells value 714 fun cell hcell => ?_
      exact hbright cell hcell
    rw [decide_eq_true_iff,le_div_iff_mul_le (by omega)]
    omega
  | false =>
    have hhigh : ∑ cell∈core.cells, value cell≤core.cells.card*51 := by
      refine Finset.sum_le_card_nsmul core.cells value 51 fun cell hcell => ?_
      exact hbright cell hcell
    have hrest : ∑ cell∈cells \ core.cells, value cell≤(cells \ core.cells).card*765 := by
      refine Finset.sum_le_card_nsmul (cells \ core.cells) value 765 fun cell _ => ?_
      have hbyte : ∀ channel, pixel width frame cell.1 cell.2 channel≤255 :=
        fun channel => le_of_lt_succ (UInt8.toNat_lt _)
      have h0 := hbyte 0
      have h1 := hbyte 1
      have h2 := hbyte 2
      show pixel width frame cell.1 cell.2 0+_+_≤765
      omega
    rw [decide_eq_false_iff_not,not_le,div_lt_iff_lt_mul (by omega)]
    omega

end

def painted (width height : Nat) (todo : List ((Int × Int) × Bool)) (frame : Bytes) : Bytes :=
  todo.foldl (fun frame p => paint width (blockAt width height p.1) (borderColor p.2) frame) frame

section

variable {width height y x channel : Nat} {frame : Bytes}

theorem length_painted (todo : List ((Int × Int) × Bool)) (frame : Bytes) :
    (painted width height todo frame).length=frame.length := by
  induction todo generalizing frame with
  | nil => rfl
  | cons p todo ih => exact (ih _).trans (length_paint _ _ _ _)

theorem pixel_painted_off {todo : List ((Int × Int) × Bool)} (hx : x<width)
    (hchannel : channel<3) (h : (y*width+x)*3+channel<frame.length)
    (hoff : ∀ p∈todo, (blockAt width height p.1).covers y x=false) :
    pixel width (painted width height todo frame) y x channel =
      pixel width frame y x channel := by
  induction todo generalizing frame with
  | nil => rfl
  | cons p todo ih =>
    obtain ⟨hp,htodo⟩ := forall_mem_cons.1 hoff
    have hstep := pixel_paint (blockAt width height p.1) (borderColor p.2) hx hchannel h
    rw [hp,if_neg Bool.false_ne_true] at hstep
    refine (ih ?_ htodo).trans hstep
    rw [length_paint]
    exact h

theorem pixel_painted (before after : List ((Int × Int) × Bool)) {p : (Int × Int) × Bool}
    (hx : x<width) (hchannel : channel<3) (h : (y*width+x)*3+channel<frame.length)
    (hon : (blockAt width height p.1).covers y x=true)
    (hoff : ∀ q∈after, (blockAt width height q.1).covers y x=false) :
    pixel width (painted width height (before++p::after) frame) y x channel =
      (borderColor p.2).toNat := by
  have hlen : (y*width+x)*3+channel<(painted width height before frame).length := by
    rw [length_painted]
    exact h
  have hstep := pixel_paint (blockAt width height p.1) (borderColor p.2) hx hchannel hlen
  rw [hon,if_pos rfl] at hstep
  have hsplit : painted width height (before++p::after) frame=painted width height after
      (paint width (blockAt width height p.1) (borderColor p.2)
        (painted width height before frame)) := by
    rw [painted,foldl_append]
    rfl
  rw [hsplit]
  refine (pixel_painted_off hx hchannel ?_ hoff).trans hstep
  rw [length_paint]
  exact hlen

theorem pixel_painted_at {todo : List ((Int × Int) × Bool)} (hx : x<width)
    (hchannel : channel<3) (h : (y*width+x)*3+channel<frame.length) {i : Nat}
    (hi : i<todo.length) (hon : (blockAt width height todo[i].1).covers y x=true)
    (hoff : ∀ (j : Nat) (hj : j<todo.length), i<j →
      (blockAt width height todo[j].1).covers y x=false) :
    pixel width (painted width height todo frame) y x channel =
      (borderColor todo[i].2).toNat := by
  -- the list is cut at this block: those before it are painted over
  have hcut : todo.take i++todo[i]::todo.drop (i+1)=todo := by
    rw [← drop_eq_getElem_cons hi,take_append_drop]
  have hshown := pixel_painted (todo.take i) (todo.drop (i+1)) hx hchannel h hon
  rw [hcut] at hshown
  refine hshown fun q hq => ?_
  obtain ⟨k,hk,rfl⟩ := getElem_of_mem hq
  rw [length_drop] at hk
  rw [getElem_drop]
  exact hoff (i+1+k) (by omega) (by omega)

theorem pixel_zip {positions : List (Int × Int)} {todo : List Bool} (hx : x<width)
    (hchannel : channel<3) (h : (y*width+x)*3+channel<frame.length) {i : Nat}
    (hi : i<positions.length) (htodo : i<todo.length)
    (hon : (blockAt width height positions[i]).covers y x=true)
    (hoff : ∀ (j : Nat) (hj : j<positions.length), i<j →
      (blockAt width height positions[j]).covers y x=false) :
    pixel width (painted width height (positions.zip todo) frame) y x channel =
      (borderColor todo[i]).toNat := by
  have hzip : i<(positions.zip todo).length := by
    rw [length_zip]
    omega
  have hpair : (positions.zip todo)[i]=(positions[i],todo[i]) := getElem_zip
  have hfirst : (blockAt width height (positions.zip todo)[i].1).covers y x=true := by
    rw [hpair]
    exact hon
  rw [pixel_painted_at hx hchannel h hzip hfirst fun j hj hij => ?_,hpair]
  rw [getElem_zip]
  rw [length_zip] at hj
  exact hoff j (by omega) hij

theorem embedBorderBits_eq (width height : Nat) (frame : Bytes) (bits : List Bool)
    (cursor : Nat) : embedBorderBits width height frame bits cursor =
      (painted width height ((borderPositions width height).zip (bits.drop cursor)) frame,
        cursor+min (borderCapacity width height) (bits.length-cursor)) := by
  unfold embedBorderBits borderCapacity
  generalize borderPositions width height=positions
  induction positions generalizing frame cursor with
  | nil => simp [painted]
  | cons p positions ih =>
    rw [foldl_cons]
    cases hbit : bits[cursor]? with
    | none =>
      have hend : bits.length≤cursor := List.getElem?_eq_none_iff.1 hbit
      have hdrop : bits.drop cursor=[] := drop_eq_nil_of_le hend
      dsimp only
      rw [ih,hdrop,zip_nil_right,zip_nil_right,length_cons]
      refine Prod.ext rfl ?_
      show cursor+_=cursor+_
      omega
    | some bit =>
      obtain ⟨hlt,hget⟩ := List.getElem?_eq_some_iff.1 hbit
      have hdrop : bits.drop cursor=bit::bits.drop (cursor+1) := by
        rw [← hget]
        exact drop_eq_getElem_cons hlt
      dsimp only
      rw [ih,hdrop,zip_cons_cons,length_cons]
      refine Prod.ext rfl ?_
      show cursor+1+_=cursor+_
      omega

end

/-- Every block keeps three fifths of itself to itself. -/
def Legible (width height : Nat) : Prop :=
  ∀ (i : Nat) (hi : i < (borderPositions width height).length), ∃ core : Block,
    core.cells ⊆ (blockAt width height (borderPositions width height)[i]).cells ∧
    3*(blockAt width height (borderPositions width height)[i]).cells.card ≤ 5*core.cells.card ∧
    0 < (blockAt width height (borderPositions width height)[i]).cells.card ∧
    ∀ (j : Nat) (hj : j < (borderPositions width height).length), i < j → ∀ cell ∈ core.cells,
      (blockAt width height (borderPositions width height)[j]).covers cell.1 cell.2 = false

/-- Each block keeps its outer rows or columns. -/
def markedPositions (width height : Nat) : List ((Int × Int) × Block) :=
  (Ranges.range 0 width BORDER_BLOCK).map (fun x =>
    ((BORDER_STRIDE,x),{ blockAt width height (BORDER_STRIDE,x) with bottom := 3 }))++
  ((Ranges.range BORDER_BLOCK height BORDER_BLOCK).map (fun y =>
    ((y,width-BORDER_STRIDE-1),
      { blockAt width height (y,width-BORDER_STRIDE-1) with left := width-3 }))++
  ((Ranges.range (width-BORDER_BLOCK) (-1) (-BORDER_BLOCK)).map (fun x =>
    ((height-BORDER_STRIDE-1,x),
      { blockAt width height (height-BORDER_STRIDE-1,x) with top := height-3 }))++
  (Ranges.range (height-BORDER_BLOCK) (BORDER_BLOCK-1) (-BORDER_BLOCK)).map (fun y =>
    ((y,BORDER_STRIDE),blockAt width height (y,BORDER_STRIDE)))))

theorem markedPositions_fst (width height : Nat) :
    (markedPositions width height).map (·.1)=borderPositions width height := by
  simp only [markedPositions,map_append,map_map]
  rfl

def Apart (a b : Block) : Prop :=
  a.bottom ≤ b.top ∨ b.bottom ≤ a.top ∨ a.right ≤ b.left ∨ b.right ≤ a.left

theorem markedPositions_apart {width height : Nat} (hwidth : 8≤width) (hheight : 8≤height) :
    (markedPositions width height).Pairwise
      fun a b => Apart a.2 (blockAt width height b.1) := by
  have hsix : (0 : Int)<BORDER_BLOCK := by decide
  obtain ⟨hptop,hbtop⟩ := Ranges.range_up_spec hsix 0 width
  obtain ⟨hpright,hbright⟩ := Ranges.range_up_spec hsix BORDER_BLOCK height
  obtain ⟨hpbottom,hbbottom⟩ := Ranges.range_down_spec hsix (width-BORDER_BLOCK) (-1)
  obtain ⟨hpleft,hbleft⟩ := Ranges.range_down_spec hsix (height-BORDER_BLOCK) (BORDER_BLOCK-1)
  simp only [markedPositions,pairwise_append,pairwise_map,forall_mem_append,
    forall_mem_map]
  simp only [Apart,blockAt,BORDER_BLOCK,BORDER_STRIDE] at *
  refine ⟨?_,⟨?_,⟨?_,?_,?_⟩,?_⟩,?_⟩
  -- along one side the blocks are six apart and five wide
  · refine hptop.imp fun h => ?_
    omega
  · refine hpright.imp fun h => ?_
    omega
  · refine hpbottom.imp fun h => ?_
    omega
  · refine hpleft.imp fun h => ?_
    omega
  -- the lowest rows, the last columns and the first rows are left alone by the sides that follow
  · intro x _ y hy
    have hyb := hbleft y hy
    omega
  · intro y _
    constructor
    · intro x hx
      have hxb := hbbottom x hx
      omega
    · intro z _
      omega
  · intro x _
    refine ⟨fun y hy => ?_,fun z _ => ?_,fun y hy => ?_⟩
    · have hyb := hbright y hy
      omega
    · omega
    · have hyb := hbleft y hy
      omega

theorem cells_subset {a b : Block} (htop : b.top≤a.top) (hbottom : a.bottom≤b.bottom)
    (hleft : b.left≤a.left) (hright : a.right≤b.right) : a.cells ⊆ b.cells :=
  Finset.product_subset_product (Finset.Ico_subset_Ico htop hbottom)
    (Finset.Ico_subset_Ico hleft hright)

/-- The core lies in its block and is three fifths of it at least. -/
structure IsCore (core block : Block) : Prop where
  inside : core.cells ⊆ block.cells
  share : 3*block.cells.card ≤ 5*core.cells.card
  some : 0 < block.cells.card

theorem isCore_of_rows {core block : Block} (hleft : core.left=block.left)
    (hright : core.right=block.right) (hsome : block.left<block.right)
    (htop : block.top≤core.top) (hbottom : core.bottom≤block.bottom)
    (hfive : block.bottom-block.top=5) (hthree : 3≤core.bottom-core.top) :
    IsCore core block := by
  refine ⟨cells_subset htop hbottom (by omega) (by omega),?_,?_⟩
  · rw [card_cells,card_cells,hfive,hleft,hright]
    have hmul := mul_le_mul_right (block.right-block.left) hthree
    omega
  · rw [card_cells,hfive]
    omega

theorem isCore_of_columns {core block : Block} (htop : core.top=block.top)
    (hbottom : core.bottom=block.bottom) (hsome : block.top<block.bottom)
    (hleft : block.left≤core.left) (hright : core.right≤block.right)
    (hfive : block.right-block.left=5) (hthree : 3≤core.right-core.left) :
    IsCore core block := by
  refine ⟨cells_subset (by omega) (by omega) hleft hright,?_,?_⟩
  · rw [card_cells,card_cells,hfive,htop,hbottom]
    have hmul := mul_le_mul_left (block.bottom-block.top) hthree
    omega
  · rw [card_cells,hfive]
    omega

theorem markedPositions_isCore {width height : Nat} (hwidth : 8≤width) (hheight : 8≤height) :
    ∀ m∈markedPositions width height, IsCore m.2 (blockAt width height m.1) := by
  have hsix : (0 : Int)<BORDER_BLOCK := by decide
  have hbtop := (Ranges.range_up_spec hsix 0 width).2
  have hbright := (Ranges.range_up_spec hsix BORDER_BLOCK height).2
  have hbbottom := (Ranges.range_down_spec hsix (width-BORDER_BLOCK) (-1)).2
  have hbleft := (Ranges.range_down_spec hsix (height-BORDER_BLOCK) (BORDER_BLOCK-1)).2
  simp only [markedPositions,forall_mem_append,forall_mem_map]
  simp only [BORDER_BLOCK,BORDER_STRIDE] at *
  refine ⟨fun x hx => ?_,fun y hy => ?_,fun x hx => ?_,fun y hy => ?_⟩
  · have hxb := hbtop x hx
    refine isCore_of_rows rfl rfl ?_ ?_ ?_ ?_ ?_
    all_goals
      simp only [blockAt,BORDER_STRIDE]
      omega
  · have hyb := hbright y hy
    refine isCore_of_columns rfl rfl ?_ ?_ ?_ ?_ ?_
    all_goals
      simp only [blockAt,BORDER_STRIDE]
      omega
  · have hxb := hbbottom x hx
    refine isCore_of_rows rfl rfl ?_ ?_ ?_ ?_ ?_
    all_goals
      simp only [blockAt,BORDER_STRIDE]
      omega
  · have hyb := hbleft y hy
    refine isCore_of_rows rfl rfl ?_ ?_ ?_ ?_ ?_
    all_goals
      simp only [blockAt,BORDER_STRIDE]
      omega

theorem not_covers_of_apart {a b : Block} (h : Apart a b) {cell : Nat × Nat}
    (hcell : cell∈a.cells) : b.covers cell.1 cell.2=false := by
  rw [mem_cells] at hcell
  simp only [Block.covers,Bool.and_eq_true,decide_eq_true_eq] at hcell
  rw [Bool.eq_false_iff]
  intro hb
  simp only [Block.covers,Bool.and_eq_true,decide_eq_true_eq] at hb
  unfold Apart at h
  omega

theorem legible_of_marks {width height : Nat} {marks : List ((Int × Int) × Block)}
    (hfst : marks.map (·.1)=borderPositions width height)
    (hcore : ∀ m∈marks, IsCore m.2 (blockAt width height m.1))
    (hapart : marks.Pairwise fun a b => Apart a.2 (blockAt width height b.1)) :
    Legible width height := by
  have hlength : marks.length=(borderPositions width height).length := by
    rw [← hfst,length_map]
  have hposition : ∀ (i : Nat) (hi : i < marks.length)
      (hi' : i<(borderPositions width height).length),
      (borderPositions width height)[i]=marks[i].1 := by
    intro i hi hi'
    simp only [← hfst,getElem_map]
  intro i hi
  have hi' : i < marks.length := by omega
  obtain ⟨hinside,hshare,hsome⟩ := hcore _ (getElem_mem hi')
  rw [hposition i hi' hi]
  refine ⟨_,hinside,hshare,hsome,fun j hj hij cell hcell => ?_⟩
  have hj' : j < marks.length := by omega
  rw [hposition j hj' hj]
  exact not_covers_of_apart (pairwise_iff_getElem.1 hapart i j hi' hj' hij) hcell

theorem legible_of_wide {width height : Nat} (hwidth : 8≤width) (hheight : 8≤height) :
    Legible width height :=
  legible_of_marks (markedPositions_fst width height) (markedPositions_isCore hwidth hheight)
    (markedPositions_apart hwidth hheight)

def marked (width height : Nat) (bits todo : List Bool) (frame : Bytes) : Bytes :=
  embedLsbBits (painted width height ((borderPositions width height).zip todo) frame) bits

section

variable {width height : Nat} {frame : Bytes} {bits todo : List Bool}

theorem length_marked : (marked width height bits todo frame).length=frame.length := by
  rw [marked,length_embedLsbBits,length_painted]

theorem cell_inside {position : Int × Int} {cell : Nat × Nat}
    (h : cell∈(blockAt width height position).cells) : cell.1<height ∧ cell.2<width := by
  rw [mem_cells] at h
  simp only [Block.covers,Bool.and_eq_true,decide_eq_true_eq] at h
  simp only [blockAt] at h
  omega

theorem place_inside {y x channel : Nat} (hy : y<height) (hx : x<width) (hchannel : channel<3)
    (hsize : frame.length=width*height*3) : (y*width+x)*3+channel<frame.length := by
  have hrow : (y+1)*width≤height*width := mul_le_mul_right width hy
  rw [succ_mul] at hrow
  rw [hsize,mul_comm width height]
  omega

theorem blockBit_marked (hlegible : Legible width height) (hsize : frame.length=width*height*3)
    {i : Nat} (hi : i<(borderPositions width height).length) (htodo : i<todo.length) :
    blockBit width height (marked width height bits todo frame)
      (borderPositions width height)[i]=todo[i] := by
  have hblocks := hlegible i hi
  generalize hposition : (borderPositions width height)[i]=position at hblocks ⊢
  obtain ⟨core,hinside,hshare,hsome,hlater⟩ := hblocks
  refine blockBit_of_core hinside hshare hsome fun cell hcell channel hchannel => ?_
  have hblock : cell∈(blockAt width height position).cells := hinside hcell
  obtain ⟨hy,hx⟩ := cell_inside hblock
  have hplace := place_inside hy hx hchannel hsize
  have hpainted : (cell.1*width+cell.2)*3+channel <
      (painted width height ((borderPositions width height).zip todo) frame).length := by
    rw [length_painted]
    exact hplace
  have hon : (blockAt width height (borderPositions width height)[i]).covers cell.1 cell.2 =
      true := by
    rw [hposition]
    exact mem_cells.1 hblock
  rw [marked,pixel_embedLsbBits bits hpainted]
  rw [pixel_zip hx hchannel hplace hi htodo hon fun j hj hij => hlater j hj hij cell hcell]

theorem length_borderBits :
    (borderBits width height frame).length=borderCapacity width height := by
  rw [borderBits,length_map,borderCapacity]

theorem borderBits_marked (hlegible : Legible width height)
    (hsize : frame.length=width*height*3) :
    Agree (borderBits width height (marked width height bits todo frame)) todo := by
  refine agree_of_getElem fun i hi htodo => ?_
  rw [length_borderBits,borderCapacity] at hi
  simp only [borderBits,getElem_map]
  exact blockBit_marked hlegible hsize hi htodo

theorem length_lsbBits (frame : Bytes) : (lsbBits frame).length=frame.length := length_map _

theorem lsbBits_marked : Agree (lsbBits (marked width height bits todo frame)) bits := by
  refine agree_of_getElem fun i hi hbits => ?_
  simp only [lsbBits,marked,embedLsbBits,getElem_map,getElem_mapIdx,
    List.getElem?_eq_getElem hbits]
  exact (lsb_spec _ _).2

end

end Harpocrates.Backend.Stego
