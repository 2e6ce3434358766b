import Harpocrates.Framework.Bytes

namespace Framework.Base64

open List

/-- The characters of the 64 digits. -/
structure Alphabet where
  digit : Nat → Char
  value : Char → Option Nat
  value_digit : ∀ n < 64, value (digit n) = some n
  digit_ne_pad : ∀ n < 64, digit n ≠ '='

variable (alphabet : Alphabet)

def encode : Bytes → List Char
  | a::b::c::data =>
    alphabet.digit (a.toNat/4)::alphabet.digit (a.toNat%4*16+b.toNat/16)::
      alphabet.digit (b.toNat%16*4+c.toNat/64)::alphabet.digit (c.toNat%64)::encode data
  | [a,b] =>
    [alphabet.digit (a.toNat/4),alphabet.digit (a.toNat%4*16+b.toNat/16),
      alphabet.digit (b.toNat%16*4),'=']
  | [a] => [alphabet.digit (a.toNat/4),alphabet.digit (a.toNat%4*16),'=','=']
  | [] => []

/-- Where the reader stands in a group of four digits, the bits it has not written out yet, and the
padding it has seen in the group. -/
def decodeFrom : Nat → Nat → Nat → List Char → Option Bytes
  | position,_,_,[] => if position = 0 then some [] else none
  | position,left,pads,c::text =>
    if c = '=' then
      if 2 ≤ position ∧ 4 ≤ position+(pads+1) then some []
      else decodeFrom position left (pads+1) text
    else
      match alphabet.value c with
      | none => decodeFrom position left pads text
      | some v =>
        match position with
        | 0 => decodeFrom 1 v 0 text
        | 1 => (decodeFrom 2 (v%16) 0 text).map (UInt8.ofNat (left*4+v/16)::·)
        | 2 => (decodeFrom 3 (v%4) 0 text).map (UInt8.ofNat (left*16+v/4)::·)
        | _ => (decodeFrom 0 0 0 text).map (UInt8.ofNat (left*64+v)::·)

def decode (text : List Char) : Option Bytes := decodeFrom alphabet 0 0 0 text

variable {alphabet} {position left pads n : Nat} {text : List Char}

theorem decodeFrom_digit (hn : n<64) :
    decodeFrom alphabet position left pads (alphabet.digit n::text) =
      match position with
      | 0 => decodeFrom alphabet 1 n 0 text
      | 1 => (decodeFrom alphabet 2 (n%16) 0 text).map (UInt8.ofNat (left*4+n/16)::·)
      | 2 => (decodeFrom alphabet 3 (n%4) 0 text).map (UInt8.ofNat (left*16+n/4)::·)
      | _ => (decodeFrom alphabet 0 0 0 text).map (UInt8.ofNat (left*64+n)::·) := by
  rw [decodeFrom,if_neg (alphabet.digit_ne_pad n hn),alphabet.value_digit n hn]

theorem ofNat_eq {x : UInt8} (h : n=x.toNat) : UInt8.ofNat n=x := by
  rw [h,UInt8.ofNat_toNat]

theorem decode_encode (alphabet : Alphabet) (data : Bytes) :
    decode alphabet (encode alphabet data)=some data := by
  unfold decode
  induction data using encode.induct with
  | case1 a b c data ih =>
    have ha := a.toNat_lt
    have hb := b.toNat_lt
    have hc := c.toNat_lt
    simp (disch := omega) only [encode,decodeFrom_digit,ih,Option.map_some]
    rw [ofNat_eq (x := a) (by omega),ofNat_eq (x := b) (by omega),ofNat_eq (x := c) (by omega)]
  | case2 a b =>
    have ha := a.toNat_lt
    have hb := b.toNat_lt
    simp (disch := omega) only [encode,decodeFrom_digit]
    rw [ofNat_eq (x := a) (by omega),ofNat_eq (x := b) (by omega)]
    rfl
  | case3 a =>
    have ha := a.toNat_lt
    simp (disch := omega) only [encode,decodeFrom_digit]
    rw [ofNat_eq (x := a) (by omega)]
    rfl
  | case4 => rfl

theorem length_encode (data : Bytes) : 4 ∣ (encode alphabet data).length := by
  induction data using encode.induct with
  | case1 a b c data ih =>
    simp only [encode,length_cons]
    omega
  | case2 a b => simp [encode]
  | case3 a => simp [encode]
  | case4 => simp [encode]

theorem forall_mem_encode {p : Char → Prop} (hpad : p '=')
    (hdigit : ∀ n<64, p (alphabet.digit n)) (data : Bytes) :
    ∀ c∈encode alphabet data, p c := by
  induction data using encode.induct with
  | case1 a b c data ih =>
    have ha := a.toNat_lt
    have hb := b.toNat_lt
    have hc := c.toNat_lt
    simp only [encode,forall_mem_cons]
    exact ⟨hdigit _ (by omega),hdigit _ (by omega),hdigit _ (by omega),hdigit _ (by omega),ih⟩
  | case2 a b =>
    have ha := a.toNat_lt
    have hb := b.toNat_lt
    simp only [encode,forall_mem_cons]
    exact ⟨hdigit _ (by omega),hdigit _ (by omega),hdigit _ (by omega),hpad,by simp⟩
  | case3 a =>
    have ha := a.toNat_lt
    simp only [encode,forall_mem_cons]
    exact ⟨hdigit _ (by omega),hdigit _ (by omega),hpad,hpad,by simp⟩
  | case4 => simp [encode]

end Framework.Base64
