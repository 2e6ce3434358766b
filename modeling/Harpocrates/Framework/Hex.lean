import Harpocrates.Framework.Bytes

namespace Framework

open List

def hexDigits : List Char :=
  ['0','1','2','3','4','5','6','7','8','9','a','b','c','d','e','f']

def hexDigit (n : Nat) : Char := hexDigits.getD n '0'

def hex (b : Bytes) : List Char :=
  b.flatMap fun x => [hexDigit (x.toNat/16),hexDigit (x.toNat%16)]

/-- The value of a hex digit, in either case. -/
def hexValue (c : Char) : Option Nat :=
  if '0' ≤ c ∧ c ≤ '9' then some (c.toNat-48)
  else if 'a' ≤ c ∧ c ≤ 'f' then some (c.toNat-87)
  else if 'A' ≤ c ∧ c ≤ 'F' then some (c.toNat-55)
  else none

def unhex : List Char → Option Bytes
  | [] => some []
  | [_] => none
  | a::b::rest =>
    match hexValue a,hexValue b,unhex rest with
    | some x,some y,some bytes => some (UInt8.ofNat (16*x+y)::bytes)
    | _,_,_ => none

theorem hexValue_hexDigit : ∀ n<16, hexValue (hexDigit n)=some n := by decide

theorem hex_cons (x : UInt8) (b : Bytes) :
    hex (x::b)=hexDigit (x.toNat/16)::hexDigit (x.toNat%16)::hex b := rfl

theorem length_hex (b : Bytes) : (hex b).length=2*b.length := by
  induction b with
  | nil => rfl
  | cons x b ih =>
    rw [hex_cons,length_cons,length_cons,ih,length_cons]
    omega

theorem byte_digits (x : UInt8) : hexValue (hexDigit (x.toNat/16))=some (x.toNat/16) ∧
    hexValue (hexDigit (x.toNat%16))=some (x.toNat%16) ∧
    UInt8.ofNat (16*(x.toNat/16)+x.toNat%16)=x := by
  have hx : x.toNat<256 := x.toNat_lt
  refine ⟨hexValue_hexDigit _ (by omega),hexValue_hexDigit _ (by omega),?_⟩
  rw [Nat.div_add_mod,UInt8.ofNat_toNat]

theorem unhex_hex (b : Bytes) : unhex (hex b)=some b := by
  induction b with
  | nil => rfl
  | cons x b ih =>
    obtain ⟨hhigh,hlow,hbyte⟩ := byte_digits x
    simp only [hex_cons,unhex,hhigh,hlow,ih,hbyte]

theorem hexDigit_mem : ∀ n<16, hexDigit n∈hexDigits := by decide

theorem mem_hexDigits (b : Bytes) : ∀ c∈hex b, c∈hexDigits := by
  induction b with
  | nil => simp [hex]
  | cons x b ih =>
    have hx : x.toNat<256 := x.toNat_lt
    intro c hc
    rcases mem_cons.1 hc with rfl | hc
    · exact hexDigit_mem _ (by omega)
    · rcases mem_cons.1 hc with rfl | hc
      · exact hexDigit_mem _ (by omega)
      · exact ih c hc

def hexNumber (digits : List Char) : Nat :=
  digits.foldl (fun n c => 16*n+(hexValue c).getD 0) 0

theorem hexPairs_hex (b : Bytes) :
    (List.range b.length).map
      (fun i => UInt8.ofNat (hexNumber (((hex b).drop (i*2)).take 2)))=b := by
  induction b with
  | nil => rfl
  | cons x b ih =>
    obtain ⟨hhigh,hlow,hbyte⟩ := byte_digits x
    rw [length_cons,range_succ_eq_map,map_cons,map_map]
    refine congrArg₂ List.cons ?_ (Eq.trans (map_congr_left fun i _ => ?_) ih)
    · simp [hex_cons,hexNumber,hhigh,hlow,hbyte]
    · rw [Function.comp_apply,hex_cons,Nat.succ_mul]
      rfl

end Framework
