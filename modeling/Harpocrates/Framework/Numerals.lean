import Harpocrates.Framework.Hex
import Harpocrates.Framework.Python

namespace Framework.Numerals

open Python List Nat

/-! Numbers written with digits, and what Python's `int` and JavaScript's `BigInt` read in a
text. -/

def AllDigits (base : Nat) (digits : Text) : Prop := ∀ c ∈ digits, digitValue c < base

instance (base : Nat) (digits : Text) : Decidable (AllDigits base digits) :=
  List.decidableBAll _ digits

def numeral (base : Nat) (digits : Text) : Nat :=
  digits.foldl (fun n c => n*base+digitValue c) 0

theorem numeral_concat (base : Nat) (digits : Text) (c : Char) :
    numeral base (digits++[c])=numeral base digits*base+digitValue c := by
  rw [numeral,foldl_concat]
  rfl

theorem numeral_append (base : Nat) (a b : Text) :
    numeral base (a++b)=numeral base a*base^b.length+numeral base b := by
  induction b using List.reverseRecOn with
  | nil => simp [numeral]
  | append_singleton b c ih =>
    rw [← append_assoc,numeral_concat,ih,numeral_concat,length_append,
      length_singleton,pow_succ]
    ring

theorem numeral_cons (base : Nat) (c : Char) (digits : Text) :
    numeral base (c::digits)=digitValue c*base^digits.length+numeral base digits := by
  have happend := numeral_append base [c] digits
  have hone : numeral base [c]=digitValue c := by simp [numeral]
  rw [hone] at happend
  exact happend

theorem numeral_leftpad (base n : Nat) (digits : Text) :
    numeral base (digits.leftpad n '0')=numeral base digits := by
  have hzeros : ∀ k, numeral base (List.replicate k '0')=0 := by
    intro k
    induction k with
    | zero => rfl
    | succ k ih =>
      have hzero : digitValue '0' = 0 := by decide
      rw [replicate_succ',numeral_concat,ih,hzero]
      omega
  rw [List.leftpad,numeral_append,hzeros,zero_mul,zero_add]

theorem digitValue_digitChar : ∀ d<16, digitValue (Nat.digitChar d)=d := by decide

variable {base n : Nat} {digits : Text} {c : Char}

theorem allDigits_leftpad (hbase : 0<base) (h : AllDigits base digits) :
    AllDigits base (digits.leftpad n '0') := by
  intro c hc
  rcases mem_append.1 hc with hzero | hdigit
  · have hvalue : digitValue '0' = 0 := by decide
    rw [eq_of_mem_replicate hzero,hvalue]
    exact hbase
  · exact h c hdigit

theorem toDigits_spec (hlow : 1<base) (hhigh : base≤16) (n : Nat) :
    AllDigits base (Nat.toDigits base n) ∧ numeral base (Nat.toDigits base n)=n := by
  induction n using Nat.strongRecOn with
  | ind n ih =>
    have hvalue : ∀ d<base, digitValue (Nat.digitChar d)=d :=
      fun d hd => digitValue_digitChar d (by omega)
    by_cases hn : n<base
    · rw [toDigits_of_lt_base hn]
      constructor
      · intro c hc
        rw [mem_singleton.1 hc,hvalue n hn]
        exact hn
      · simp [numeral,hvalue n hn]
    · have hmod := mod_lt n (show 0<base by omega)
      have hless : n/base<n := div_lt_self (by omega) hlow
      obtain ⟨hdigits,hnumber⟩ := ih (n/base) hless
      rw [toDigits_of_base_le hlow (by omega)]
      constructor
      · intro c hc
        rcases mem_append.1 hc with hfirst | hlast
        · exact hdigits c hfirst
        · rw [mem_singleton.1 hlast,hvalue _ hmod]
          exact hmod
      · rw [numeral_concat,hnumber,hvalue _ hmod,mul_comm]
        exact div_add_mod n base

theorem hexValue_of_digit (h : digitValue c<16) : hexValue c=some (digitValue c) := by
  unfold digitValue at h ⊢
  unfold hexValue
  split_ifs at h ⊢ with hdec hlower hlower' hupper hupper'
  all_goals try rfl
  all_goals try omega
  all_goals
    simp only [not_and_or] at *
    simp only [Char.le_def,UInt32.le_iff_toNat_le,Char.toNat] at *
    simp at *
    omega

theorem unhex_digits (h : AllDigits 16 digits) (hlen : digits.length=2*n) :
    ∃ b, unhex digits=some b ∧ b.length=n ∧ beNat b=numeral 16 digits := by
  induction n generalizing digits with
  | zero =>
    rw [List.length_eq_zero_iff.1 hlen]
    exact ⟨[],rfl,rfl,rfl⟩
  | succ n ih =>
    obtain ⟨c,d,rest,rfl⟩ : ∃ c d rest, digits=c::d::rest := by
      match digits,hlen with
      | c::d::rest,_ => exact ⟨c,d,rest,rfl⟩
    rw [List.length_cons,List.length_cons] at hlen
    have hc : digitValue c<16 := h c (by simp)
    have hd : digitValue d<16 := h d (by simp)
    have hrest : AllDigits 16 rest := fun e he => h e (by simp [he])
    obtain ⟨b,hb,hblen,hnat⟩ := ih hrest (by omega)
    refine ⟨UInt8.ofNat (16*digitValue c+digitValue d)::b,?_,by simp [hblen],?_⟩
    · simp only [unhex,hexValue_of_digit hc,hexValue_of_digit hd,hb]
    · have hbyte : (UInt8.ofNat (16*digitValue c+digitValue d)).toNat =
          16*digitValue c+digitValue d := by
        rw [UInt8.toNat_ofNat']
        omega
      have hpow : 16^rest.length=256^b.length := by
        have hrestlen : rest.length=2*b.length := by omega
        rw [hrestlen,Nat.pow_mul]
      rw [beNat_cons,hbyte,hnat,numeral_cons,numeral_cons,List.length_cons,Nat.pow_succ,hpow]
      ring

theorem unhex_append {a c : Text} {b : Bytes} (h : unhex a=some b) :
    unhex (a++c)=(unhex c).map (b++·) := by
  induction a using unhex.induct generalizing b with
  | case1 =>
    obtain rfl : []=b := Option.some.inj h
    simp
  | case2 => simp [unhex] at h
  | case3 x y rest m n bytes hrest hy hx ih =>
    rw [unhex,hx,hy,hrest] at h
    obtain rfl : _ = b := Option.some.inj h
    rw [cons_append,cons_append,unhex,hx,hy,ih hrest]
    cases unhex c with
    | none => rfl
    | some d => rfl
  | case4 x y rest hnone ih =>
    rw [unhex] at h
    split at h
    · rename_i hx hy hrest
      exact (hnone _ _ _ hx hy hrest).elim
    · cases h

theorem ne_underscore (hbase : base≤36) (h : digitValue c<base) : c ≠ '_' := by
  rintro rfl
  have hvalue : digitValue '_' = 37 := by decide
  omega

theorem scanDigits_digits (hbase : base≤36) (h : AllDigits base digits) (gap : Bool)
    (number count : Nat) (hne : gap → digits≠[]) :
    scanDigits base gap number count digits =
      some (digits.foldl (fun n c => n*base+digitValue c) number,count+digits.length,[]) := by
  induction digits generalizing gap number count with
  | nil =>
    have hgap : gap=false := Bool.eq_false_iff.2 fun htrue => hne htrue rfl
    rw [hgap]
    rfl
  | cons c digits ih =>
    have hc : digitValue c<base := h c mem_cons_self
    have hrest : AllDigits base digits := fun d hd => h d (mem_cons_of_mem _ hd)
    rw [scanDigits,if_neg (ne_underscore hbase hc),if_pos hc,
      ih hrest false _ _ (fun hfalse => Bool.noConfusion hfalse),foldl_cons,length_cons]
    congr 3
    omega

theorem narrow_of_digit (hbase : base≤36) (h : digitValue c<base) :
    48≤c.toNat ∧ c.toNat≤122 := by
  unfold digitValue at h
  simp only [Char.le_def,UInt32.le_iff_toNat_le] at h
  have hval : c.val.toNat=c.toNat := rfl
  rw [hval] at h
  split_ifs at h with hdec hlower hupper
  all_goals simp at *
  all_goals omega

theorem map_plain_digits (hbase : base≤36) (h : AllDigits base digits) :
    digits.map plain=digits := by
  refine (map_congr_left fun c hc => ?_).trans (map_id digits)
  have hnarrow := narrow_of_digit hbase (h c hc)
  exact if_pos (show c.toNat<127 by omega)

theorem takeSign_digits (hbase : base≤36) (h : AllDigits base digits) :
    takeSign (digits.dropWhile isBlank)=(false,digits) := by
  cases digits with
  | nil => rfl
  | cons c digits =>
    have hnarrow := narrow_of_digit hbase (h c mem_cons_self)
    have hblank : isBlank c=false := by
      unfold isBlank
      simp
      omega
    rw [dropWhile_cons_of_neg (by simp [hblank])]
    unfold takeSign
    split
    · rename_i heq
      rw [(List.cons.inj heq).1] at hnarrow
      exact absurd hnarrow (by decide)
    · rename_i heq
      rw [(List.cons.inj heq).1] at hnarrow
      exact absurd hnarrow (by decide)
    · rfl

theorem parseInt_toDigits_eq : parseInt 10 (Nat.toDigits 10 n) =
    if MAX_STR_DIGITS<(Nat.toDigits 10 n).length then none else some (n : Int) := by
  obtain ⟨hdigits,hnumber⟩ := toDigits_spec (by decide : 1<10) (by decide) n
  have hscan := scanDigits_digits (by decide) hdigits true 0 0 fun _ => toDigits_ne_nil
  rw [← numeral,hnumber,zero_add] at hscan
  unfold parseInt
  rw [map_plain_digits (by decide) hdigits,takeSign_digits (by decide) hdigits]
  simp [hscan]

theorem parseInt_toDigits (h : (Nat.toDigits 10 n).length≤MAX_STR_DIGITS) :
    parseInt 10 (Nat.toDigits 10 n)=some (n : Int) := by
  rw [parseInt_toDigits_eq,if_neg (Nat.not_lt.2 h)]

theorem skipHexMark_digits (h : AllDigits 16 digits) :
    skipHexMark ('0' :: 'x' :: digits)=digits := by
  cases digits with
  | nil => rfl
  | cons c digits =>
    have hc : c ≠ '_' := ne_underscore (by decide) (h c mem_cons_self)
    unfold skipHexMark
    split
    all_goals simp_all

theorem parseInt_hex (h : AllDigits 16 digits) (hne : digits≠[]) :
    parseInt 16 ('0' :: 'x' :: digits)=some (numeral 16 digits : Int) := by
  have hscan := scanDigits_digits (by decide) h true 0 0 fun _ => hne
  have hplain : ('0' :: 'x' :: digits).map plain = '0' :: 'x' :: digits := by
    rw [map_cons,map_cons,map_plain_digits (by decide) h]
    rfl
  have hsign : takeSign (('0' :: 'x' :: digits).dropWhile isBlank) =
      (false,'0' :: 'x' :: digits) := rfl
  rw [← numeral] at hscan
  unfold parseInt
  rw [hplain,hsign]
  simp [skipHexMark_digits h,hscan]

end Framework.Numerals

namespace Framework.JavaScript

open Python Numerals

def spaces : List Nat :=
  [0x9,0xA,0xB,0xC,0xD,0x20,0xA0,0x1680,0x2000,0x2001,0x2002,0x2003,0x2004,0x2005,0x2006,0x2007,
    0x2008,0x2009,0x200A,0x2028,0x2029,0x202F,0x205F,0x3000,0xFEFF]

def isSpace (c : Char) : Bool := spaces.contains c.toNat

def trim (s : Text) : Text := (s.dropWhile isSpace).rdropWhile isSpace

def readDigits (base : Nat) (digits : Text) : Option Nat :=
  if digits ≠ [] ∧ AllDigits base digits then some (numeral base digits) else none

/-- `BigInt(s)`; none where it throws. Only a decimal number may have a sign. -/
def bigInt (s : Text) : Option Int :=
  match trim s with
  | [] => some 0
  | '0' :: 'b' :: digits => (readDigits 2 digits).map Int.ofNat
  | '0' :: 'B' :: digits => (readDigits 2 digits).map Int.ofNat
  | '0' :: 'o' :: digits => (readDigits 8 digits).map Int.ofNat
  | '0' :: 'O' :: digits => (readDigits 8 digits).map Int.ofNat
  | '0' :: 'x' :: digits => (readDigits 16 digits).map Int.ofNat
  | '0' :: 'X' :: digits => (readDigits 16 digits).map Int.ofNat
  | '+' :: digits => (readDigits 10 digits).map Int.ofNat
  | '-' :: digits => (readDigits 10 digits).map fun n => -n
  | digits => (readDigits 10 digits).map Int.ofNat

theorem isSpace_of_wide {c : Char} (h : 48≤c.toNat ∧ c.toNat≤122) : isSpace c=false := by
  unfold isSpace spaces
  simp
  omega

theorem trim_eq_self {s : Text} (h : ∀ c∈s, 48≤c.toNat ∧ c.toNat≤122) : trim s=s := by
  have hleft : s.dropWhile isSpace=s := by
    refine List.dropWhile_eq_self_iff.2 fun hl => ?_
    simp [isSpace_of_wide (h _ (List.getElem_mem hl))]
  rw [trim,hleft]
  refine List.rdropWhile_eq_self_iff.2 fun hne => ?_
  simp [isSpace_of_wide (h _ (List.getLast_mem hne))]

theorem readDigits_eq {base : Nat} {digits : Text} (h : AllDigits base digits)
    (hne : digits≠[]) : readDigits base digits=some (numeral base digits) := if_pos ⟨hne,h⟩

theorem bigInt_hex {digits : Text} (h : AllDigits 16 digits) (hne : digits≠[]) :
    bigInt ('0' :: 'x' :: digits)=some (numeral 16 digits : Int) := by
  have htrim : trim ('0' :: 'x' :: digits) = '0' :: 'x' :: digits := by
    refine trim_eq_self fun c hc => ?_
    rcases List.mem_cons.1 hc with rfl | hc
    · decide
    rcases List.mem_cons.1 hc with rfl | hc
    · decide
    exact narrow_of_digit (by decide) (h c hc)
  unfold bigInt
  rw [htrim]
  simp [readDigits_eq h hne]

theorem bigInt_decimal {digits : Text} (h : AllDigits 10 digits) (hne : digits≠[]) :
    bigInt digits=some (numeral 10 digits : Int) := by
  have htrim : trim digits=digits :=
    trim_eq_self fun c hc => narrow_of_digit (by decide) (h c hc)
  unfold bigInt
  rw [htrim]
  have hmark : ∀ c∈digits, c∉['b','B','o','O','x','X','+','-'] := by
    intro c hc hmem
    have hall : ['b','B','o','O','x','X','+','-'].all fun d => !digitValue d<10 := by decide
    have hlow := List.all_eq_true.1 hall c hmem
    rw [Bool.not_eq_true',decide_eq_false_iff_not] at hlow
    exact hlow (h c hc)
  split
  all_goals simp_all [readDigits_eq h hne]

end Framework.JavaScript
