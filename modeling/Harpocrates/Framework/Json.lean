import Mathlib.Data.List.Chain
import Harpocrates.Framework.Dict
import Harpocrates.Framework.Hex

namespace Framework.Json

/-! JSON values and the ways in which they are written. Numbers are kept as they are written. -/

/-- A code point of a string: a character, or half of a surrogate pair that stands alone. -/
inductive Point
  | char (c : Char)
  | surrogate (n : Fin 2048)
  deriving DecidableEq

abbrev Str := List Point

def str (s : String) : Str := s.toList.map .char

def Point.isHigh : Point → Bool
  | .surrogate n => n.val < 1024
  | .char _ => false

def Point.isLow : Point → Bool
  | .surrogate n => 1024 ≤ n.val
  | .char _ => false

def half (n : Nat) : Fin 2048 := Fin.ofNat 2048 n

def highHalf (c : Char) : Fin 2048 := half ((c.toNat-0x10000)/1024)

def lowHalf (c : Char) : Fin 2048 := half (1024+(c.toNat-0x10000)%1024)

def pair (high low : Fin 2048) : Char := Char.ofNat (0x10000+high.val*1024+(low.val-1024))

/-- Halves that stand next to each other are one character. -/
def join : Str → Str
  | .surrogate a::.surrogate b::s =>
    if a.val < 1024 ∧ 1024 ≤ b.val then .char (pair a b)::join s
    else .surrogate a::join (.surrogate b::s)
  | p::s => p::join s
  | [] => []

def Joined (s : Str) : Prop := s.IsChain fun a b => ¬ (a.isHigh ∧ b.isLow)

theorem joined_str (s : String) : Joined (str s) := by
  have hchars : ∀ cs : List Char, Joined (cs.map .char) := by
    intro cs
    induction cs with
    | nil => exact List.isChain_nil
    | cons c cs ih =>
      cases cs with
      | nil => exact List.isChain_singleton _
      | cons d cs => exact List.isChain_cons_cons.2 ⟨by simp [Point.isHigh],ih⟩
  exact hchars s.toList

abbrev JoinedStr := {s : Str // Joined s}

def JoinedStr.of (s : String) : JoinedStr := ⟨str s,joined_str s⟩

def Point.split : Point → Str
  | .char c =>
    if c.toNat < 0x10000 then [.char c]
    else [.surrogate (highHalf c),.surrogate (lowHalf c)]
  | p => [p]

def isHexPoint : Point → Bool
  | .char c => (hexValue c).isSome
  | .surrogate _ => false

def isHex32 (s : Str) : Bool := s.length = 64 && s.all isHexPoint

variable {c : Char} {s : Str}

theorem astral_range (h : ¬ c.toNat<0x10000) : 0x10000≤c.toNat ∧ c.toNat<0x110000 := by
  refine ⟨by omega,?_⟩
  rcases c.valid with hlow | hhigh
  · have : c.toNat<0xd800 := hlow
    omega
  · exact hhigh.2

theorem pair_halves (h : ¬ c.toNat<0x10000) :
    (highHalf c).val<1024 ∧ 1024≤(lowHalf c).val ∧ pair (highHalf c) (lowHalf c)=c := by
  obtain ⟨hlow,hhigh⟩ := astral_range h
  have hh : (highHalf c).val=(c.toNat-0x10000)/1024 := by
    show (c.toNat-0x10000)/1024%2048 = _
    omega
  have hl : (lowHalf c).val=1024+(c.toNat-0x10000)%1024 := by
    show (1024+(c.toNat-0x10000)%1024)%2048 = _
    omega
  refine ⟨by omega,by omega,?_⟩
  have hvalue : 0x10000+(highHalf c).val*1024+((lowHalf c).val-1024)=c.toNat := by omega
  rw [pair,hvalue,Char.ofNat_toNat]

theorem split_basic (h : c.toNat<0x10000) : Point.split (.char c)=[.char c] :=
  if_pos h

theorem split_astral (h : ¬ c.toNat<0x10000) :
    Point.split (.char c)=[.surrogate (highHalf c),.surrogate (lowHalf c)] := if_neg h

/-- Points read one by one where each of the string stands as it is or in its halves. -/
inductive Spelled : Str → Str → Prop
  | nil : Spelled [] []
  | whole {p : Point} {s t : Str} : Spelled s t → Spelled (p::s) (p::t)
  | split {p : Point} {s t : Str} : Spelled s t → Spelled (p::s) (p.split++t)

theorem join_char : join (.char c::s)=.char c::join s := by
  rw [join]
  intro a b s' h
  cases h

/-- A half is kept where what follows does not complete it. -/
theorem join_surrogate {n : Fin 2048}
    (h : ∀ p s', s=p::s' → ¬ (Point.isHigh (.surrogate n) ∧ p.isLow)) :
    join (.surrogate n::s)=.surrogate n::join s := by
  cases s with
  | nil => rfl
  | cons p s =>
    cases p with
    | char c =>
      rw [join]
      intro a b s' _ hs
      cases hs
    | surrogate m =>
      have hnot := h _ _ rfl
      rw [join,if_neg]
      simpa [Point.isHigh,Point.isLow] using hnot

/-- Where a spelling begins with a lower half, so does the string. -/
theorem Spelled.low {t t' : Str} {q : Point} (h : Spelled s t) (ht : t=q::t') (hq : q.isLow) :
    ∃ s', s=q::s' := by
  cases h with
  | nil => cases ht
  | whole h =>
    cases ht
    exact ⟨_,rfl⟩
  | @split p s t h =>
    cases p with
    | surrogate n =>
      cases ht
      exact ⟨_,rfl⟩
    | char c =>
      by_cases hc : c.toNat<0x10000
      · rw [split_basic hc] at ht
        cases ht
        cases hq
      · rw [split_astral hc] at ht
        cases ht
        have hhigh := (pair_halves hc).1
        simp only [Point.isLow,decide_eq_true_eq] at hq
        omega

theorem Spelled.join_eq {t : Str} (h : Spelled s t) (hs : Joined s) : join t=s := by
  induction h with
  | nil => rfl
  | @whole p s t h ih =>
    have htail := ih hs.tail
    cases p with
    | char c => rw [join_char,htail]
    | surrogate n =>
      rw [join_surrogate,htail]
      rintro q t' ht ⟨hhigh,hlow⟩
      obtain ⟨s',rfl⟩ := h.low ht hlow
      exact (List.isChain_cons_cons.1 hs).1 ⟨hhigh,hlow⟩
  | @split p s t h ih =>
    have htail := ih hs.tail
    cases p with
    | char c =>
      by_cases hc : c.toNat<0x10000
      · rw [split_basic hc]
        show join (.char c::t) = _
        rw [join_char,htail]
      · obtain ⟨hhigh,hlow,hpair⟩ := pair_halves hc
        rw [split_astral hc]
        show join (.surrogate _::.surrogate _::t) = _
        rw [join,if_pos ⟨hhigh,hlow⟩,hpair,htail]
    | surrogate n =>
      show join (.surrogate n::t) = _
      rw [join_surrogate,htail]
      rintro q t' ht ⟨hhigh,hlow⟩
      obtain ⟨s',rfl⟩ := h.low ht hlow
      exact (List.isChain_cons_cons.1 hs).1 ⟨hhigh,hlow⟩

/-- The letter after the backslash, for the characters that have one. -/
def shortEscape (c : Char) : Option Char :=
  if c = '"' then some '"'
  else if c = '\\' then some '\\'
  else if c.toNat = 8 then some 'b'
  else if c.toNat = 9 then some 't'
  else if c.toNat = 10 then some 'n'
  else if c.toNat = 12 then some 'f'
  else if c.toNat = 13 then some 'r'
  else none

def escapeUnit (n : Nat) : List Char :=
  ['\\','u',hexDigit (n/4096%16),hexDigit (n/256%16),hexDigit (n/16%16),hexDigit (n%16)]

def escapeSurrogate (n : Fin 2048) : List Char := escapeUnit (0xD800+n.val)

/-- A way of writing characters that have no short escape. -/
def writePoint (write : Char → List Char) : Point → List Char
  | .surrogate n => escapeSurrogate n
  | .char c =>
    match shortEscape c with
    | some e => ['\\',e]
    | none => write c

theorem writePoint_short {write : Char → List Char} {e : Char} (h : shortEscape c=some e) :
    writePoint write (.char c)=['\\',e] := by
  simp only [writePoint,h]

theorem writePoint_long {write : Char → List Char} (h : shortEscape c=none) :
    writePoint write (.char c)=write c := by
  simp only [writePoint,h]

def writeRaw (c : Char) : List Char := if c.toNat < 32 then escapeUnit c.toNat else [c]

/-- Everything is written in printable ASCII characters. -/
def writeAscii (c : Char) : List Char :=
  if 32 ≤ c.toNat ∧ c.toNat < 127 then [c]
  else if c.toNat < 0x10000 then escapeUnit c.toNat
  else escapeSurrogate (highHalf c)++escapeSurrogate (lowHalf c)

def writeString (write : Char → List Char) (s : Str) : List Char :=
  '"' :: s.flatMap (writePoint write)++['"']

end Framework.Json

namespace Framework

inductive Json
  | null
  | bool (b : Bool)
  | number (token : List Char)
  | string (s : Json.Str)
  | array (items : List Json)
  | object (entries : List (Json.Str × Json))

namespace Json

open List

/-- What holds of a value if it holds of its items and of the values of its entries holds of all
values. -/
theorem induct {motive : Json → Prop} (null : motive .null) (bool : ∀ b, motive (.bool b))
    (number : ∀ token, motive (.number token)) (string : ∀ s, motive (.string s))
    (array : ∀ items, (∀ v∈items, motive v) → motive (.array items))
    (object : ∀ entries, (∀ e∈entries, motive e.2) → motive (.object entries)) (v : Json) :
    motive v := by
  refine @Json.rec motive (fun items => ∀ v∈items, motive v)
    (fun entries => ∀ e∈entries, motive e.2) (fun e => motive e.2) null bool number string array
    object ?_ ?_ ?_ ?_ ?_ v
  · exact fun _ h => absurd h not_mem_nil
  · exact fun _ _ hv hitems => forall_mem_cons.2 ⟨hv,hitems⟩
  · exact fun _ h => absurd h not_mem_nil
  · exact fun _ _ he hentries => forall_mem_cons.2 ⟨he,hentries⟩
  · exact fun _ _ hv => hv

def asString : Option Json → Option Str
  | some (.string s) => some s
  | _ => none

variable (write : Char → List Char)

mutual

def render : Json → List Char
  | .null => "null".toList
  | .bool true => "true".toList
  | .bool false => "false".toList
  | .number token => token
  | .string s => writeString write s
  | .array [] => "[]".toList
  | .array (v::items) => '[' :: (render v++renderItems items)
  | .object [] => ['\x7b','\x7d']
  | .object ((k,v)::entries) =>
    '\x7b' :: (writeString write k ++ ':' :: (render v++renderEntries entries))

def renderItems : List Json → List Char
  | [] => [']']
  | v::items => ',' :: (render v++renderItems items)

def renderEntries : List (Str × Json) → List Char
  | [] => ['\x7d']
  | (k,v)::entries => ',' :: (writeString write k ++ ':' :: (render v++renderEntries entries))

end

mutual

/-- A property of a value and of all the values in it. -/
def Everywhere (p : Json → Prop) : Json → Prop
  | .array items => p (.array items) ∧ EverywhereItems p items
  | .object entries => p (.object entries) ∧ EverywhereEntries p entries
  | v => p v

def EverywhereItems (p : Json → Prop) : List Json → Prop
  | [] => True
  | v::items => Everywhere p v ∧ EverywhereItems p items

def EverywhereEntries (p : Json → Prop) : List (Str × Json) → Prop
  | [] => True
  | (_,v)::entries => Everywhere p v ∧ EverywhereEntries p entries

end

theorem everywhereItems_iff {p : Json → Prop} {items : List Json} :
    EverywhereItems p items ↔ ∀ v∈items, Everywhere p v := by
  induction items with
  | nil => simp [EverywhereItems]
  | cons v items ih => rw [EverywhereItems,ih,forall_mem_cons]

theorem everywhereEntries_iff {p : Json → Prop} {entries : List (Str × Json)} :
    EverywhereEntries p entries ↔ ∀ e∈entries, Everywhere p e.2 := by
  induction entries with
  | nil => simp [EverywhereEntries]
  | cons e entries ih => rw [EverywhereEntries,ih,forall_mem_cons]

end Json

end Framework
