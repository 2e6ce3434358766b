import Harpocrates.Codec.Layout
import Harpocrates.Framework.Fallible
import Harpocrates.Framework.Numerals

namespace Harpocrates.Codec

open Framework Framework.Fallible Framework.Python Framework.Numerals List Option Nat

/-! The encoders of public inputs. The backend reads numbers with `int`, the browser with
`BigInt`. -/

def fieldName (fields : List String) (index : Nat) : String :=
  fields.getD index ("field_"++toString index)

/-- The values one after the other; the first that is refused ends it. -/
def encodeEach {α : Type} (encode : α → String → Except VerifierInputError Text) (values : List α)
    (fields : List String) : Except VerifierInputError Text := do
  let words ← values.zipIdx.mapM fun v => encode v.1 (fieldName fields v.2)
  return words.flatten

def fieldWord (element : Nat) : Text := (Nat.toDigits 16 element).leftpad (FIELD_LEN*2) '0'

namespace Backend

def parseFieldValue (value : Value) (field : String) : Except VerifierInputError Int :=
  match value with
  | .int i => .ok i
  | .str s =>
    if s.isEmpty then .error ⟨.MalformedHex,field⟩
    else
      match if (lower s).take 2 = "0x".toList then parseInt 16 s else parseInt 10 s with
      | some i => .ok i
      | none => .error ⟨.MalformedHex,field⟩
  -- a boolean is refused although it is an integer too
  | _ => .error ⟨.MalformedHex,field⟩

def encodeFieldToBytes32Hex (value : Value) (field : String) : Except VerifierInputError Text := do
  let element ← parseFieldValue value field
  if element < 0 ∨ element ≥ BN254_SCALAR_FIELD_MODULUS then .error ⟨.NonCanonicalField,field⟩
  else .ok (fieldWord element.toNat)

def encodePublicInputs (values : List Value) (fields : List String) :
    Except VerifierInputError Text := encodeEach encodeFieldToBytes32Hex values fields

end Backend

namespace Browser

/-- A number, or anything else by what its `toString` gives. -/
inductive NoirField
  | bigint (element : Int)
  | text (shown : Text)

def NoirField.element : NoirField → Option Int
  | bigint element => some element
  | text shown => JavaScript.bigInt shown

def encodeFieldToBytes32Hex (value : NoirField) (field : String) :
    Except VerifierInputError Text :=
  match value.element with
  | none => .error ⟨.MalformedHex,field⟩
  | some element =>
    if element < 0 ∨ element ≥ BN254_SCALAR_FIELD_MODULUS then .error ⟨.NonCanonicalField,field⟩
    else .ok (fieldWord element.toNat)

def encodePublicInputs (values : List NoirField) (fields : List String) :
    Except VerifierInputError Text := encodeEach encodeFieldToBytes32Hex values fields

end Browser

namespace FieldEncoders

def inField (element : Option Int) : Option Nat :=
  element.bind fun i =>
    if i < 0 ∨ i ≥ BN254_SCALAR_FIELD_MODULUS then none else some i.toNat

def intElement (value : Text) : Option Nat :=
  inField (if value.isEmpty then none
    else if (lower value).take 2 = "0x".toList then parseInt 16 value else parseInt 10 value)

def bigIntElement (value : Text) : Option Nat := inField (JavaScript.bigInt value)

theorem inField_natCast {e : Nat} (h : e<BN254_SCALAR_FIELD_MODULUS) :
    inField (some (e : Int))=some e := by
  have hrange : ¬ ((e : Int)<0 ∨ (e : Int) ≥ BN254_SCALAR_FIELD_MODULUS) := by omega
  rw [inField,bind_some,if_neg hrange,Int.toNat_natCast]

theorem backend_field_ok {value frame : Text} {field : String} :
    Backend.encodeFieldToBytes32Hex (.str value) field=.ok frame ↔
      ∃ e, intElement value=some e ∧ frame=fieldWord e := by
  unfold Backend.encodeFieldToBytes32Hex Backend.parseFieldValue intElement inField
  rw [bind_ok]
  dsimp only
  generalize (if (lower value).take 2 = "0x".toList then parseInt 16 value
    else parseInt 10 value)=reading
  split_ifs with hempty
  · simp
  cases reading with
  | none => simp
  | some i =>
    simp only [Except.ok.injEq,exists_eq_left',bind_some]
    split_ifs with hrange
    · simp
    · simp [eq_comm]

theorem browser_field_ok {value frame : Text} {field : String} :
    Browser.encodeFieldToBytes32Hex (.text value) field=.ok frame ↔
      ∃ e, bigIntElement value=some e ∧ frame=fieldWord e := by
  unfold Browser.encodeFieldToBytes32Hex Browser.NoirField.element bigIntElement inField
  dsimp only
  cases JavaScript.bigInt value with
  | none => simp
  | some i =>
    simp only [bind_some]
    split_ifs with hrange
    · simp
    · simp [eq_comm]

section

variable {α : Type} {encode : α → String → Except VerifierInputError Text} {wrap : Text → α}
  {read : Text → Option Nat} {values : List Text} {fields : List String}

/-- The words of a list, when each value on its own gives the word of the number read in it. -/
theorem words_ok (h : ∀ value field frame, encode (wrap value) field=.ok frame ↔
      ∃ e, read value=some e ∧ frame=fieldWord e) (start : Nat) (words : List Text) :
    ((values.map wrap).zipIdx start).mapM (fun v => encode v.1 (fieldName fields v.2)) =
      .ok words ↔
      ∃ elements : List Nat, values.map read=elements.map some ∧
        words=elements.map fieldWord := by
  induction values generalizing start words with
  | nil =>
    constructor
    · intro hwords
      exact ⟨[],rfl,(Except.ok.inj hwords).symm⟩
    · rintro ⟨elements,hread,rfl⟩
      rw [map_eq_nil_iff.1 hread.symm]
      rfl
  | cons value values ih =>
    rw [map_cons,zipIdx_cons,mapM_cons,bind_ok]
    constructor
    · rintro ⟨word,hword,htail⟩
      obtain ⟨tail,hmap,hpure⟩ := bind_ok.1 htail
      obtain ⟨e,he,rfl⟩ := (h _ _ _).1 hword
      obtain ⟨elements,hread,rfl⟩ := (ih _ _).1 hmap
      refine ⟨e::elements,?_,(Except.ok.inj hpure).symm⟩
      rw [map_cons,map_cons,he,hread]
    · rintro ⟨elements,hread,rfl⟩
      cases elements with
      | nil => cases hread
      | cons e elements =>
        obtain ⟨he,htail⟩ := List.cons.inj hread
        exact ⟨fieldWord e,(h _ _ _).2 ⟨e,he,rfl⟩,
          bind_ok.2 ⟨_,(ih _ _).2 ⟨elements,htail,rfl⟩,rfl⟩⟩

theorem encodeEach_ok (h : ∀ value field frame, encode (wrap value) field=.ok frame ↔
      ∃ e, read value=some e ∧ frame=fieldWord e) {frame : Text} :
    encodeEach encode (values.map wrap) fields=.ok frame ↔
      ∃ elements : List Nat, values.map read=elements.map some ∧
        frame=(elements.map fieldWord).flatten := by
  rw [encodeEach,bind_ok]
  constructor
  · rintro ⟨words,hwords,hpure⟩
    obtain ⟨elements,hread,rfl⟩ := (words_ok h 0 words).1 hwords
    exact ⟨elements,hread,(Except.ok.inj hpure).symm⟩
  · rintro ⟨elements,hread,rfl⟩
    exact ⟨_,(words_ok h 0 _).2 ⟨elements,hread,rfl⟩,rfl⟩

end

def frameWords (frame : Text) : Option (List Nat) :=
  (unhex frame).map fun b =>
    (List.range (b.length/FIELD_LEN)).map fun i => beNat (fieldAt b i).1

theorem unhex_fieldWord {e : Nat} (h : e<BN254_SCALAR_FIELD_MODULUS) :
    ∃ b, unhex (fieldWord e)=some b ∧ b.length=FIELD_LEN ∧ beNat b=e := by
  obtain ⟨hdigits,hnumber⟩ := toDigits_spec (by decide : 1<16) (by decide) e
  have hshort : (Nat.toDigits 16 e).length≤64 := by
    rw [length_toDigits_le_iff (by decide) (by decide)]
    exact h.trans (by decide)
  have hlen : (fieldWord e).length=2*FIELD_LEN := by
    rw [fieldWord,length_leftpad]
    exact max_eq_left hshort
  obtain ⟨b,hb,hblen,hnat⟩ :=
    unhex_digits (allDigits_leftpad (n := FIELD_LEN*2) (by decide) hdigits) hlen
  refine ⟨b,hb,hblen,?_⟩
  rw [hnat,numeral_leftpad,hnumber]

theorem frameWords_flatten {elements : List Nat}
    (h : ∀ e∈elements, e<BN254_SCALAR_FIELD_MODULUS) :
    frameWords (elements.map fieldWord).flatten=some elements := by
  have hbytes : ∃ b, unhex (elements.map fieldWord).flatten=some b ∧
      b.length=elements.length*FIELD_LEN ∧
      (List.range elements.length).map (fun i => beNat (fieldAt b i).1)=elements := by
    induction elements with
    | nil => exact ⟨[],rfl,rfl,rfl⟩
    | cons e elements ih =>
      obtain ⟨first,hfirst,hlen,hnat⟩ := unhex_fieldWord (h e List.mem_cons_self)
      obtain ⟨rest,hrest,hrestlen,hwords⟩ := ih fun d hd => h d (List.mem_cons_of_mem _ hd)
      refine ⟨first++rest,?_,?_,?_⟩
      · rw [List.map_cons,List.flatten_cons,unhex_append hfirst,hrest]
        rfl
      · rw [List.length_append,hlen,hrestlen,List.length_cons,Nat.succ_mul,Nat.add_comm]
      · have hzero : beNat (fieldAt (first++rest) 0).1=e := by
          have htake : (first++rest).take 32=first := List.take_left' hlen
          rw [fieldAt,Registry.field,Nat.zero_mul,BytesN.read_zero (by simp [hlen,FIELD_LEN]),
            htake,hnat]
        have hlater : ∀ i, fieldAt (first++rest) (i+1)=fieldAt rest i := by
          intro i
          have hdrop : (first++rest).drop FIELD_LEN=rest := List.drop_left' hlen
          rw [fieldAt,fieldAt,Registry.field,Registry.field]
          nth_rewrite 2 [← hdrop]
          rw [BytesN.read_drop,Nat.succ_mul,Nat.add_comm]
        rw [List.length_cons,List.range_succ_eq_map,List.map_cons,List.map_map,hzero]
        refine congrArg (e::·) (Eq.trans (List.map_congr_left fun i _ => ?_) hwords)
        rw [Function.comp_apply,hlater]
  obtain ⟨b,hb,hlen,hwords⟩ := hbytes
  have hcount : b.length/FIELD_LEN=elements.length := by
    rw [hlen]
    exact Nat.mul_div_cancel _ (by decide)
  rw [frameWords,hb,Option.map_some,hcount,hwords]

/-- The shortest decimal of the number, or its hex digits behind `0x`. -/
def Spells (value : Text) (element : Nat) : Prop :=
  value = Nat.toDigits 10 element ∨
  ∃ digits, digits ≠ [] ∧ AllDigits 16 digits ∧ value = '0' :: 'x' :: digits ∧
    numeral 16 digits = element

theorem lowerChar_digit {c : Char} (h : digitValue c<10) : lowerChar c=c := by
  have hval : c.val.toNat=c.toNat := rfl
  have hnarrow : c.toNat≤57 := by
    unfold digitValue at h
    simp only [Char.le_def,UInt32.le_iff_toNat_le,hval] at h
    split_ifs at h with hdec hlower hupper
    all_goals simp at *
    all_goals omega
  have hlow : c.toLower=c := by
    unfold Char.toLower
    refine dif_neg fun hupper => ?_
    simp only [ge_iff_le,UInt32.le_iff_toNat_le,hval] at hupper
    simp at hupper
    omega
  rw [lowerChar,if_neg (by omega),hlow]

theorem intElement_decimal {e : Nat} (h : e<BN254_SCALAR_FIELD_MODULUS) :
    intElement (Nat.toDigits 10 e)=some e := by
  obtain ⟨hdigits,-⟩ := toDigits_spec (by decide : 1<10) (by decide) e
  have hshort : (Nat.toDigits 10 e).length≤77 := by
    rw [length_toDigits_le_iff (by decide) (by decide)]
    exact h.trans (by decide)
  have hmark : (lower (Nat.toDigits 10 e)).take 2 ≠ "0x".toList := by
    intro hmark
    have htake : 'x'∈(lower (Nat.toDigits 10 e)).take 2 := by
      rw [hmark]
      decide
    obtain ⟨c,hc,hlower⟩ := mem_map.1 (mem_of_mem_take htake)
    have hdigit := hdigits c hc
    rw [← lowerChar_digit hdigit,hlower] at hdigit
    exact absurd hdigit (by decide)
  have hempty : (Nat.toDigits 10 e).isEmpty=false := by simp [toDigits_ne_nil]
  rw [intElement,hempty,if_neg Bool.false_ne_true,if_neg hmark,
    parseInt_toDigits (hshort.trans (by decide)),inField_natCast h]

theorem intElement_hex {digits : Text} (hdigits : AllDigits 16 digits) (hne : digits≠[])
    (h : numeral 16 digits<BN254_SCALAR_FIELD_MODULUS) :
    intElement ('0' :: 'x' :: digits)=some (numeral 16 digits) := by
  have hmark : (lower ('0' :: 'x' :: digits)).take 2 = "0x".toList := by
    rw [lower,map_cons,map_cons]
    rfl
  have hempty : ('0' :: 'x' :: digits).isEmpty=false := rfl
  rw [intElement,hempty,if_neg Bool.false_ne_true,if_pos hmark,parseInt_hex hdigits hne,
    inField_natCast h]

theorem elements_of_spells {value : Text} {e : Nat} (hvalue : Spells value e)
    (h : e<BN254_SCALAR_FIELD_MODULUS) :
    intElement value=some e ∧ bigIntElement value=some e := by
  rcases hvalue with rfl | ⟨digits,hne,hdigits,rfl,rfl⟩
  · obtain ⟨hdigits,hnumber⟩ := toDigits_spec (by decide : 1<10) (by decide) e
    refine ⟨intElement_decimal h,?_⟩
    rw [bigIntElement,JavaScript.bigInt_decimal hdigits toDigits_ne_nil,hnumber,
      inField_natCast h]
  · refine ⟨intElement_hex hdigits hne h,?_⟩
    rw [bigIntElement,JavaScript.bigInt_hex hdigits hne,inField_natCast h]

/-- Both encoders refuse the list or both give one frame, and a frame is only given for field
strings in canonical form, whose numbers it holds. -/
structure EncodersAgree (values : List Text) (fields : List String) : Prop where
  same : (Backend.encodePublicInputs (values.map .str) fields).toOption =
    (Browser.encodePublicInputs (values.map .text) fields).toOption
  canonical : ∀ frame, Backend.encodePublicInputs (values.map .str) fields = .ok frame ∨
    Browser.encodePublicInputs (values.map .text) fields = .ok frame →
    ∃ elements, List.Forall₂ Spells values elements ∧
      (∀ e ∈ elements, e < BN254_SCALAR_FIELD_MODULUS) ∧ frameWords frame = some elements

theorem refused_iff {α : Type} {encode : α → String → Except VerifierInputError Text}
    {wrap : Text → α} {read : Text → Option Nat}
    (h : ∀ value field frame, encode (wrap value) field=.ok frame ↔
      ∃ e, read value=some e ∧ frame=fieldWord e)
    {values : List Text} {fields : List String} :
    (encodeEach encode (values.map wrap) fields).toOption=none ↔
      ∃ v∈values, read v=none := by
  have hall : (∃ elements : List Nat, values.map read=elements.map some) ↔
      ∀ v∈values, read v≠none := by
    constructor
    · rintro ⟨elements,hread⟩ v hv hnone
      have hmem : none∈elements.map some := by
        rw [← hread,← hnone]
        exact mem_map_of_mem hv
      obtain ⟨e,-,he⟩ := mem_map.1 hmem
      cases he
    · intro hsome
      refine ⟨values.filterMap read,?_⟩
      induction values with
      | nil => rfl
      | cons v values ih =>
        obtain ⟨e,he⟩ := ne_none_iff_exists'.1 (hsome v mem_cons_self)
        rw [filterMap_cons_some he,map_cons,map_cons,he,
          ih fun u hu => hsome u (mem_cons_of_mem _ hu)]
  rw [eq_none_iff_forall_not_mem]
  constructor
  · intro hnone
    by_contra hread
    obtain ⟨elements,helements⟩ := hall.2 fun v hv hv' => hread ⟨v,hv,hv'⟩
    exact hnone _ (toOption_eq_some.2 ((encodeEach_ok h).2 ⟨elements,helements,rfl⟩))
  · rintro ⟨v,hv,hnone⟩ frame hframe
    obtain ⟨elements,helements,-⟩ := (encodeEach_ok h).1 (toOption_eq_some.1 hframe)
    exact hall.1 ⟨elements,helements⟩ v hv hnone

theorem backend_ok {values : List Text} {fields : List String} {frame : Text} :
    Backend.encodePublicInputs (values.map .str) fields=.ok frame ↔
      ∃ elements : List Nat, values.map intElement=elements.map some ∧
        frame=(elements.map fieldWord).flatten :=
  encodeEach_ok fun _ _ _ => backend_field_ok

theorem browser_ok {values : List Text} {fields : List String} {frame : Text} :
    Browser.encodePublicInputs (values.map .text) fields=.ok frame ↔
      ∃ elements : List Nat, values.map bigIntElement=elements.map some ∧
        frame=(elements.map fieldWord).flatten :=
  encodeEach_ok fun _ _ _ => browser_field_ok

theorem backend_refused (values : List Text) (fields : List String) :
    (Backend.encodePublicInputs (values.map .str) fields).toOption=none ↔
      ∃ v∈values, intElement v=none :=
  refused_iff fun _ _ _ => backend_field_ok

theorem browser_refused (values : List Text) (fields : List String) :
    (Browser.encodePublicInputs (values.map .text) fields).toOption=none ↔
      ∃ v∈values, bigIntElement v=none :=
  refused_iff fun _ _ _ => browser_field_ok

theorem spelled_iff {values : List Text} :
    (∃ elements, List.Forall₂ Spells values elements ∧
      ∀ e∈elements, e<BN254_SCALAR_FIELD_MODULUS) ↔
    ∀ v∈values, ∃ e<BN254_SCALAR_FIELD_MODULUS, Spells v e := by
  induction values with
  | nil => simp
  | cons v values ih =>
    rw [forall_mem_cons,← ih]
    constructor
    · rintro ⟨elements,hspells,hrange⟩
      obtain ⟨e,rest,he,hrest,rfl⟩ := List.forall₂_cons_left_iff.1 hspells
      obtain ⟨hlt,hranges⟩ := forall_mem_cons.1 hrange
      exact ⟨⟨e,hlt,he⟩,rest,hrest,hranges⟩
    · rintro ⟨⟨e,hlt,he⟩,rest,hrest,hranges⟩
      exact ⟨e::rest,.cons he hrest,forall_mem_cons.2 ⟨hlt,hranges⟩⟩

theorem map_eq_of_spells {values : List Text} {elements : List Nat}
    (h : List.Forall₂ Spells values elements)
    (hrange : ∀ e∈elements, e<BN254_SCALAR_FIELD_MODULUS) :
    values.map intElement=elements.map some ∧ values.map bigIntElement=elements.map some := by
  induction h with
  | nil => exact ⟨rfl,rfl⟩
  | @cons value e values elements hvalue _ ih =>
    obtain ⟨hint,hbig⟩ := elements_of_spells hvalue (hrange e mem_cons_self)
    obtain ⟨hints,hbigs⟩ := ih fun d hd => hrange d (mem_cons_of_mem _ hd)
    rw [map_cons,map_cons,map_cons,hint,hbig,hints,hbigs]
    exact ⟨rfl,rfl⟩

/-- The encoders agree exactly on the lists of field strings in canonical form, and on those in
which each of them meets a string that it refuses: one that is no number to it, or one outside the
field. -/
theorem field_encoders_agree_iff (values : List Text) (fields : List String) :
    EncodersAgree values fields ↔
      (∀ v ∈ values, ∃ e < BN254_SCALAR_FIELD_MODULUS, Spells v e) ∨
      ((∃ v ∈ values, intElement v = none) ∧ ∃ v ∈ values, bigIntElement v = none) := by
  rw [← spelled_iff,← backend_refused values fields,← browser_refused values fields]
  constructor
  · intro h
    cases hframe : (Backend.encodePublicInputs (values.map .str) fields).toOption with
    | none => exact .inr ⟨rfl,h.same.symm.trans hframe⟩
    | some frame =>
      obtain ⟨elements,hspells,hrange,-⟩ := h.canonical frame (.inl (toOption_eq_some.1 hframe))
      exact .inl ⟨elements,hspells,hrange⟩
  · rintro (⟨elements,hspells,hrange⟩ | ⟨hbackend,hbrowser⟩)
    · obtain ⟨hints,hbigs⟩ := map_eq_of_spells hspells hrange
      have hframe : Backend.encodePublicInputs (values.map .str) fields =
          .ok (elements.map fieldWord).flatten := backend_ok.2 ⟨elements,hints,rfl⟩
      have hframe' : Browser.encodePublicInputs (values.map .text) fields =
          .ok (elements.map fieldWord).flatten := browser_ok.2 ⟨elements,hbigs,rfl⟩
      refine ⟨?_,fun frame hok => ⟨elements,hspells,hrange,?_⟩⟩
      · rw [hframe,hframe']
      · have hword : frame=(elements.map fieldWord).flatten := by
          rw [hframe,hframe'] at hok
          rcases hok with hok | hok
          all_goals exact (Except.ok.inj hok).symm
        rw [hword]
        exact frameWords_flatten hrange
    · refine ⟨hbackend.trans hbrowser.symm,?_⟩
      rintro frame (hframe | hframe)
      · rw [toOption_eq_some.2 hframe] at hbackend
        cases hbackend
      · rw [toOption_eq_some.2 hframe] at hbrowser
        cases hbrowser

theorem noir_fields_agree : EncodersAgree ["42".toList,"0x2a".toList] [] := by
  refine (field_encoders_agree_iff _ _).2 (.inl ?_)
  intro v hv
  have h42 : 42<BN254_SCALAR_FIELD_MODULUS := by decide
  rcases mem_cons.1 hv with rfl | hv
  · exact ⟨42,h42,.inl (by decide)⟩
  · rw [mem_singleton.1 hv]
    exact ⟨42,h42,.inr ⟨"2a".toList,by decide,by decide,by decide,by decide⟩⟩

/-- An underscore that only `int` takes, an empty string that only `BigInt` takes, and a leading
zero that both take. -/
theorem spellings_disagree :
    (Backend.encodePublicInputs [.str "1_0".toList] [] = .ok (fieldWord 10) ∧
      Browser.encodePublicInputs [.text "1_0".toList] [] = .error ⟨.MalformedHex,"field_0"⟩ ∧
      ¬ EncodersAgree ["1_0".toList] []) ∧
    (Backend.encodePublicInputs [.str []] [] = .error ⟨.MalformedHex,"field_0"⟩ ∧
      Browser.encodePublicInputs [.text []] [] = .ok (fieldWord 0) ∧ ¬ EncodersAgree [[]] []) ∧
    (Backend.encodePublicInputs [.str "007".toList] [] = .ok (fieldWord 7) ∧
      Browser.encodePublicInputs [.text "007".toList] [] = .ok (fieldWord 7) ∧
      ¬ EncodersAgree ["007".toList] []) := by
  have hzeros : Backend.encodePublicInputs [.str "007".toList] []=.ok (fieldWord 7) := by
    decide +kernel
  refine ⟨⟨by decide +kernel,by decide +kernel,fun h => ?_⟩,
    ⟨by decide +kernel,by decide +kernel,fun h => ?_⟩,⟨hzeros,by decide +kernel,fun h => ?_⟩⟩
  · exact absurd h.same (by decide +kernel)
  · exact absurd h.same (by decide +kernel)
  · obtain ⟨elements,hspells,-,-⟩ := h.canonical _ (.inl hzeros)
    obtain ⟨e,-,hvalue,-,-⟩ := List.forall₂_cons_left_iff.1 hspells
    rcases hvalue with hdecimal | ⟨digits,-,-,hhex,-⟩
    · obtain ⟨-,hnumber⟩ := toDigits_spec (by decide : 1<10) (by decide) e
      rw [← hdecimal] at hnumber
      rw [← hnumber] at hdecimal
      exact absurd hdecimal (by decide)
    · exact absurd (List.cons.inj (List.cons.inj hhex).2).1 (by decide)

end FieldEncoders

end Harpocrates.Codec
