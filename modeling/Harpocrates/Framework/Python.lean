import Mathlib.Data.List.TakeDrop
import Mathlib.Data.List.DropRight

namespace Framework.Python

/-! Python's text functions and conversions, as far as a service meets them when it reads what a
client sent. Case is changed for the characters whose other case is ASCII; the rest are kept. -/

abbrev Text := List Char

/-- The zeros of the decimal digits outside ASCII; each is followed by its nine successors. -/
def decimalZeros : List Nat :=
  [0x660,0x6F0,0x7C0,0x966,0x9E6,0xA66,0xAE6,0xB66,0xBE6,0xC66,0xCE6,0xD66,0xDE6,0xE50,0xED0,
    0xF20,0x1040,0x1090,0x17E0,0x1810,0x1946,0x19D0,0x1A80,0x1A90,0x1B50,0x1BB0,0x1C40,0x1C50,
    0xA620,0xA8D0,0xA900,0xA9D0,0xA9F0,0xAA50,0xABF0,0xFF10,0x104A0,0x10D30,0x11066,0x110F0,
    0x11136,0x111D0,0x112F0,0x11450,0x114D0,0x11650,0x116C0,0x11730,0x118E0,0x11950,0x11C50,
    0x11D50,0x11DA0,0x11F50,0x16A60,0x16AC0,0x16B50,0x1D7CE,0x1D7D8,0x1D7E2,0x1D7EC,0x1D7F6,
    0x1E140,0x1E2F0,0x1E4D0,0x1E950,0x1FBF0]

def wideSpaces : List Nat :=
  [0x85,0xA0,0x1680,0x2000,0x2001,0x2002,0x2003,0x2004,0x2005,0x2006,0x2007,0x2008,0x2009,0x200A,
    0x2028,0x2029,0x202F,0x205F,0x3000]

def isSpace (c : Char) : Bool :=
  (9 ≤ c.toNat && c.toNat ≤ 13) || (28 ≤ c.toNat && c.toNat ≤ 32) || wideSpaces.contains c.toNat

def strip (s : Text) : Text := (s.dropWhile isSpace).rdropWhile isSpace

theorem strip_eq_self {s : Text} (h : ∀ c∈s, isSpace c=false) : strip s=s := by
  have hleft : s.dropWhile isSpace=s := by
    refine List.dropWhile_eq_self_iff.2 fun hl => ?_
    simp [h _ (List.getElem_mem hl)]
  rw [strip,hleft]
  refine List.rdropWhile_eq_self_iff.2 fun hne => ?_
  simp [h _ (List.getLast_mem hne)]

def lowerChar (c : Char) : Char := if c.toNat = 0x212A then 'k' else c.toLower

def lower (s : Text) : Text := s.map lowerChar

def upperChar (c : Char) : Text :=
  match c.toNat with
  | 0xDF => ['S','S']
  | 0x131 => ['I']
  | 0x17F => ['S']
  | 0xFB00 => ['F','F']
  | 0xFB01 => ['F','I']
  | 0xFB02 => ['F','L']
  | 0xFB03 => ['F','F','I']
  | 0xFB04 => ['F','F','L']
  | 0xFB05 => ['S','T']
  | 0xFB06 => ['S','T']
  | _ => [c.toUpper]

def upper (s : Text) : Text := s.flatMap upperChar

/-- The text after a leading `0x`, or all of it. -/
def dropHexMark (s : Text) : Text := if s.take 2 = "0x".toList then s.drop 2 else s

def encode (s : Text) : List UInt8 := s.flatMap String.utf8EncodeChar

theorem encode_append (s t : Text) : encode (s++t)=encode s++encode t := List.flatMap_append

theorem encode_injective : Function.Injective encode := by
  intro s t h
  have hbytes : (String.ofList s).toByteArray=(String.ofList t).toByteArray := by
    rw [String.toByteArray_ofList,String.toByteArray_ofList]
    exact congrArg List.toByteArray h
  exact String.ofList_inj.1 (String.toByteArray_inj.1 hbytes)

theorem encode_ascii {s : Text} (h : ∀ c∈s, c.toNat<128) :
    encode s=s.map fun c => UInt8.ofNat c.toNat := by
  induction s with
  | nil => rfl
  | cons c s ih =>
    have hc : c.toNat<128 := h c List.mem_cons_self
    have hchar : String.utf8EncodeChar c=[UInt8.ofNat c.toNat] :=
      if_pos (show c.toNat≤0x7f by omega)
    show String.utf8EncodeChar c++encode s = _
    rw [hchar,ih fun d hd => h d (List.mem_cons_of_mem _ hd)]
    rfl

theorem map_encode_ascii {s : Text} (h : ∀ c∈s, c.toNat<128) :
    (encode s).map (fun x => Char.ofNat x.toNat)=s := by
  rw [encode_ascii h,List.map_map]
  refine (List.map_congr_left fun c hc => ?_).trans (List.map_id s)
  have hbyte : (UInt8.ofNat c.toNat).toNat=c.toNat :=
    Nat.mod_eq_of_lt (Nat.lt_trans (h c hc) (by decide))
  show Char.ofNat (UInt8.ofNat c.toNat).toNat=c
  rw [hbyte,Char.ofNat_toNat]

/-- The bytes of a character outside ASCII are no ASCII bytes. -/
theorem utf8EncodeChar_wide {c : Char} (hc : 128≤c.toNat) {b : UInt8}
    (h : b∈String.utf8EncodeChar c) : 128≤b.toNat := by
  have hval : c.val.toNat=c.toNat := rfl
  have hbyte : ∀ n, 128≤n → n<256 → b=UInt8.ofNat n → 128≤b.toNat := by
    intro n hlow hhigh heq
    rw [heq,UInt8.toNat_ofNat']
    omega
  unfold String.utf8EncodeChar at h
  dsimp only at h
  rw [hval] at h
  split_ifs at h with h1 h2 h3
  · omega
  all_goals
    simp only [List.mem_cons,List.not_mem_nil,or_false] at h
  · rcases h with h | h
    all_goals exact hbyte _ (by omega) (by omega) h
  · rcases h with h | h | h
    all_goals exact hbyte _ (by omega) (by omega) h
  · rcases h with h | h | h | h
    all_goals exact hbyte _ (by omega) (by omega) h

theorem mem_of_mem_encode {s : Text} {c : Char} (hc : c.toNat<128)
    (h : UInt8.ofNat c.toNat∈encode s) : c∈s := by
  obtain ⟨d,hd,hmem⟩ := List.mem_flatMap.1 h
  have hlow : (UInt8.ofNat c.toNat).toNat=c.toNat := by
    rw [UInt8.toNat_ofNat']
    omega
  have hnarrow : d.toNat<128 := by
    by_contra hwide
    have hbyte := utf8EncodeChar_wide (Nat.le_of_not_lt hwide) hmem
    omega
  have hchar : encode [d]=[UInt8.ofNat d.toNat] := encode_ascii (by simpa using hnarrow)
  have heq : UInt8.ofNat c.toNat=UInt8.ofNat d.toNat := by
    rw [encode,List.flatMap_singleton] at hchar
    rw [hchar] at hmem
    exact List.mem_singleton.1 hmem
  have hnat := congrArg UInt8.toNat heq
  rw [UInt8.toNat_ofNat',UInt8.toNat_ofNat'] at hnat
  have hsame : c.toNat=d.toNat := by omega
  rw [Char.toNat_inj.1 hsame]
  exact hd

/-- What `int` reads in place of a character: digits of any script count as ASCII ones. -/
def plain (c : Char) : Char :=
  if c.toNat < 127 then c
  else if wideSpaces.contains c.toNat then ' '
  else
    match decimalZeros.find? fun start => start ≤ c.toNat && c.toNat < start+10 with
    | some start => Char.ofNat (48+(c.toNat-start))
    | none => '?'

def isBlank (c : Char) : Bool := c.toNat = 32 || (9 ≤ c.toNat && c.toNat ≤ 13)

def digitValue (c : Char) : Nat :=
  if '0' ≤ c ∧ c ≤ '9' then c.toNat-48
  else if 'a' ≤ c ∧ c ≤ 'z' then c.toNat-87
  else if 'A' ≤ c ∧ c ≤ 'Z' then c.toNat-55
  else 37

/-- Digits with single underscores between them: their number, how many they are, and what
follows. Where `gap` holds no underscore may come and a digit has to. -/
def scanDigits (base : Nat) : Bool → Nat → Nat → Text → Option (Nat × Nat × Text)
  | gap,number,count,[] => if gap then none else some (number,count,[])
  | gap,number,count,c::cs =>
    if c = '_' then if gap then none else scanDigits base true number count cs
    else if digitValue c < base then
      scanDigits base false (number*base+digitValue c) (count+1) cs
    else if gap then none
    else some (number,count,c::cs)

def takeSign : Text → Bool × Text
  | '+' :: cs => (false,cs)
  | '-' :: cs => (true,cs)
  | cs => (false,cs)

/-- `0x`, and one underscore after it. -/
def skipHexMark : Text → Text
  | '0' :: 'x' :: '_' :: cs => cs
  | '0' :: 'X' :: '_' :: cs => cs
  | '0' :: 'x' :: cs => cs
  | '0' :: 'X' :: cs => cs
  | cs => cs

/-- The digits `int` accepts in base ten. -/
def MAX_STR_DIGITS : Nat := 4300

/-- `int(s, base)` for base ten or sixteen; none where it raises ValueError. -/
def parseInt (base : Nat) (s : Text) : Option Int :=
  let (negative,body) := takeSign ((s.map plain).dropWhile isBlank)
  let body := if base = 16 then skipHexMark body else body
  match scanDigits base true 0 0 body with
  | none => none
  | some (number,count,rest) =>
    if !rest.all isBlank || (base = 10 && MAX_STR_DIGITS < count) then none
    else some (if negative then -number else number)

inductive ConversionError
  | type
  | value
  | overflow
  deriving DecidableEq

/-- A JSON value as Python holds it. `shown` is what `str` prints of it, `whole` the integer part of
a float. -/
inductive Value
  | none
  | bool (b : Bool)
  | int (i : Int)
  | float (shown : Text) (whole : Option Int)
  | str (s : Text)
  | list (shown : Text) (items : List Value)
  | dict (shown : Text) (entries : List (Text × Value))

namespace Value

def shown : Value → Text
  | none => "None".toList
  | bool b => if b then "True".toList else "False".toList
  | int i => (toString i).toList
  | float s _ => s
  | str s => s
  | list s _ => s
  | dict s _ => s

def truthy : Value → Bool
  | none => false
  | bool b => b
  | int i => i ≠ 0
  | float s _ => s ≠ "0.0".toList && s ≠ "-0.0".toList
  | str s => !s.isEmpty
  | list _ items => !items.isEmpty
  | dict _ entries => !entries.isEmpty

/-- `x or y` -/
def orElse (x y : Value) : Value := if x.truthy then x else y

def text? : Value → Option Text
  | str s => some s
  | _ => Option.none

def isNone : Value → Bool
  | none => true
  | _ => false

def get (key : Text) : Value → Value
  | dict _ entries => (entries.lookup key).getD none
  | _ => none

/-- `int(x)` -/
def toInt : Value → Except ConversionError Int
  | none => .error .type
  | bool b => .ok (if b then 1 else 0)
  | int i => .ok i
  | float _ (some i) => .ok i
  | float s Option.none => .error (if s = "nan".toList then .value else .overflow)
  | str s =>
    match parseInt 10 s with
    | some i => .ok i
    | Option.none => .error .value
  | list _ _ => .error .type
  | dict _ _ => .error .type

end Value

end Framework.Python
