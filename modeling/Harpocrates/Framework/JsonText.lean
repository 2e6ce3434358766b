import Mathlib.Tactic.IntervalCases
import Harpocrates.Framework.Json

namespace Framework.Json

open List Nat

/-! Reading JSON texts. What either way of writing writes is read back, so no two values are
written alike. -/

def isSpace (c : Char) : Bool := c = ' ' || c = '\t' || c = '\n' || c = '\r'

def skip (cs : List Char) : List Char := cs.dropWhile isSpace

def isNumberChar (c : Char) : Bool :=
  c.isDigit || c = '-' || c = '+' || c = '.' || c = 'e' || c = 'E'

def digitsThen (rest : List Char → Bool) (cs : List Char) : Bool :=
  !(cs.takeWhile Char.isDigit).isEmpty && rest (cs.dropWhile Char.isDigit)

def exponent : List Char → Bool
  | [] => true
  | e::cs =>
    (e = 'e' || e = 'E') &&
      digitsThen (·.isEmpty)
        (match cs with
        | '+' :: cs => cs
        | '-' :: cs => cs
        | cs => cs)

def fraction : List Char → Bool
  | '.' :: cs => digitsThen exponent cs
  | cs => exponent cs

def unsignedNumber : List Char → Bool
  | '0' :: cs => fraction cs
  | cs => digitsThen fraction cs

def isNumber : List Char → Bool
  | '-' :: cs => unsignedNumber cs
  | cs => unsignedNumber cs

def readNumber (cs : List Char) : Option (Json × List Char) :=
  let token := cs.takeWhile isNumberChar
  if isNumber token then some (.number token,cs.dropWhile isNumberChar) else none

def ofUnit (n : Nat) : Point :=
  if 0xD800 ≤ n ∧ n < 0xE000 then .surrogate (half (n-0xD800)) else .char (Char.ofNat n)

def hex4 (a b c d : Char) : Option Nat :=
  match hexValue a,hexValue b,hexValue c,hexValue d with
  | some a,some b,some c,some d => some (a*4096+b*256+c*16+d)
  | _,_,_,_ => none

def unescape (e : Char) : Option Char :=
  if e = '"' then some '"'
  else if e = '\\' then some '\\'
  else if e = '/' then some '/'
  else if e = 'b' then some (Char.ofNat 8)
  else if e = 't' then some (Char.ofNat 9)
  else if e = 'n' then some (Char.ofNat 10)
  else if e = 'f' then some (Char.ofNat 12)
  else if e = 'r' then some (Char.ofNat 13)
  else none

/-- The points up to the closing quote, halves apart, and what follows it. -/
def readPoints : List Char → Option (Str × List Char)
  | '"' :: cs => some ([],cs)
  | '\\' :: 'u' :: a::b::c::d::cs =>
    match hex4 a b c d with
    | some n => (readPoints cs).map fun r => (ofUnit n::r.1,r.2)
    | none => none
  | '\\' :: e::cs =>
    match unescape e with
    | some c => (readPoints cs).map fun r => (.char c::r.1,r.2)
    | none => none
  | c::cs =>
    if c.toNat < 32 ∨ c = '\\' then none
    else (readPoints cs).map fun r => (.char c::r.1,r.2)
  | [] => none

def readString (cs : List Char) : Option (Str × List Char) :=
  (readPoints cs).map fun r => (join r.1,r.2)

def ofEntries (entries : List (Str × Json)) : Json :=
  .object (entries.foldl (fun d e => Dict.set d e.1 e.2) [])

mutual

def readValue : Nat → List Char → Option (Json × List Char)
  | 0,_ => none
  | n+1,cs =>
    match skip cs with
    | 'n' :: 'u' :: 'l' :: 'l' :: cs => some (.null,cs)
    | 't' :: 'r' :: 'u' :: 'e' :: cs => some (.bool true,cs)
    | 'f' :: 'a' :: 'l' :: 's' :: 'e' :: cs => some (.bool false,cs)
    | '"' :: cs => (readString cs).map fun r => (.string r.1,r.2)
    | '[' :: cs =>
      match skip cs with
      | ']' :: cs => some (.array [],cs)
      | cs => (readItems n cs).map fun r => (.array r.1,r.2)
    | '\x7b' :: cs =>
      match skip cs with
      | '\x7d' :: cs => some (.object [],cs)
      | cs => (readEntries n cs).map fun r => (ofEntries r.1,r.2)
    | cs => readNumber cs

def readItems : Nat → List Char → Option (List Json × List Char)
  | 0,_ => none
  | n+1,cs =>
    match readValue n cs with
    | none => none
    | some (v,cs) =>
      match skip cs with
      | ',' :: cs => (readItems n cs).map fun r => (v::r.1,r.2)
      | ']' :: cs => some ([v],cs)
      | _ => none

def readEntries : Nat → List Char → Option (List (Str × Json) × List Char)
  | 0,_ => none
  | n+1,cs =>
    match skip cs with
    | '"' :: cs =>
      match readString cs with
      | none => none
      | some (k,cs) =>
        match skip cs with
        | ':' :: cs =>
          match readValue n cs with
          | none => none
          | some (v,cs) =>
            match skip cs with
            | ',' :: cs => (readEntries n cs).map fun r => ((k,v)::r.1,r.2)
            | '\x7d' :: cs => some ([(k,v)],cs)
            | _ => none
        | _ => none
    | _ => none

end

/-- Each level takes a character, so the length of the text is fuel enough. -/
def parse (cs : List Char) : Option Json :=
  match readValue (cs.length+1) cs with
  | some (v,rest) => if (skip rest).isEmpty then some v else none
  | none => none

def IsToken (token : List Char) : Prop := token.all isNumberChar ∧ isNumber token

variable {cs rest token : List Char} {n : Nat} {c e : Char} {v : Json}

theorem span_append {p : Char → Bool} (h : cs.all p)
    (hrest : ∀ c cs', rest=c::cs' → p c=false) :
    (cs++rest).takeWhile p=cs ∧ (cs++rest).dropWhile p=rest := by
  have hall : ∀ c∈cs, p c := all_eq_true.1 h
  rw [takeWhile_append_of_pos hall,dropWhile_append_of_pos hall]
  cases rest with
  | nil => simp
  | cons c cs' =>
    have hc := hrest c cs' rfl
    simp [hc]

def decimal (n : Int) : List Char :=
  if n < 0 then '-' :: Nat.toDigits 10 n.natAbs else Nat.toDigits 10 n.natAbs

def readInteger : List Char → Option Int
  | '-' :: cs => if cs.all Char.isDigit then some (-Nat.ofDigitChars 10 cs 0) else none
  | cs => if cs.all Char.isDigit then some (Nat.ofDigitChars 10 cs 0) else none

theorem all_isDigit_toDigits (n : Nat) : (Nat.toDigits 10 n).all Char.isDigit :=
  all_eq_true.2 fun _ hd => isDigit_of_mem_toDigits (by decide) (by decide) hd

theorem readInteger_decimal (n : Int) : readInteger (decimal n)=some n := by
  have hdigits := all_isDigit_toDigits n.natAbs
  unfold decimal
  split_ifs with hn
  · rw [readInteger,if_pos hdigits,ofDigitChars_toDigits (by decide) (by decide)]
    congr 1
    omega
  · unfold readInteger
    split
    · rename_i cs heq
      have hdash : Char.isDigit '-' := all_eq_true.1 hdigits _ (heq ▸ mem_cons_self)
      cases hdash
    · rw [if_pos hdigits,ofDigitChars_toDigits (by decide) (by decide)]
      congr 1
      omega

theorem toDigits_cons (h : 0<n) : ∃ c cs, Nat.toDigits 10 n=c::cs ∧ c ≠ '0' := by
  induction n using Nat.strongRecOn with
  | ind n ih =>
    by_cases hn : n<10
    · refine ⟨n.digitChar,[],toDigits_of_lt_base hn,?_⟩
      interval_cases n
      all_goals decide
    · obtain ⟨c,cs,hcs,hc⟩ := ih (n/10) (by omega) (by omega)
      have happend : Nat.toDigits 10 (n/10)++Nat.toDigits 10 (n%10) =
          Nat.toDigits 10 (10*(n/10)+n%10) :=
        toDigits_append_toDigits (by decide) (by omega) (by omega)
      rw [div_add_mod,hcs] at happend
      exact ⟨c,_,happend.symm,hc⟩

theorem unsignedNumber_toDigits (n : Nat) : unsignedNumber (Nat.toDigits 10 n) := by
  by_cases hn : n=0
  · subst hn
    decide
  obtain ⟨c,cs,hcs,hc⟩ := toDigits_cons (pos_of_ne_zero hn)
  have hdigits := all_isDigit_toDigits n
  obtain ⟨htake,hdrop⟩ : (Nat.toDigits 10 n++[]).takeWhile _ = _ ∧ _ = ([] : List Char) :=
    span_append hdigits (by simp)
  rw [append_nil] at htake hdrop
  have hthen : digitsThen fraction (Nat.toDigits 10 n) := by
    rw [digitsThen,htake,hdrop,hcs]
    rfl
  rw [hcs] at hthen ⊢
  unfold unsignedNumber
  split
  · rename_i heq
    exact absurd (List.cons.inj heq).1 hc
  · exact hthen

theorem isToken_decimal (n : Int) : IsToken (decimal n) := by
  have hall : (Nat.toDigits 10 n.natAbs).all isNumberChar := by
    rw [all_eq_true]
    intro c hc
    have hdigit := isDigit_of_mem_toDigits (by decide) (by decide) hc
    simp [isNumberChar,hdigit]
  have hnumber := unsignedNumber_toDigits n.natAbs
  unfold decimal
  split_ifs
  · refine ⟨?_,hnumber⟩
    rw [all_cons,hall]
    decide
  · refine ⟨hall,?_⟩
    unfold isNumber
    split
    · rename_i cs heq
      have hdigit := isDigit_of_mem_toDigits (by decide) (by decide)
        (heq ▸ mem_cons_self : '-' ∈ Nat.toDigits 10 n.natAbs)
      cases hdigit
    · exact hnumber

mutual

/-- Strings are joined, numbers are those of the grammar, no key comes twice. -/
def WellFormed : Json → Prop
  | .null => True
  | .bool _ => True
  | .number token => IsToken token
  | .string s => Joined s
  | .array items => WellFormedItems items
  | .object entries => (entries.map (·.1)).Nodup ∧ WellFormedEntries entries

def WellFormedItems : List Json → Prop
  | [] => True
  | v::items => WellFormed v ∧ WellFormedItems items

def WellFormedEntries : List (Str × Json) → Prop
  | [] => True
  | (k,v)::entries => Joined k ∧ WellFormed v ∧ WellFormedEntries entries

end

theorem wellFormedItems_iff {items : List Json} :
    WellFormedItems items ↔ ∀ v∈items, WellFormed v := by
  induction items with
  | nil => simp [WellFormedItems]
  | cons v items ih => rw [WellFormedItems,ih,forall_mem_cons]

variable {entries : List (Str × Json)}

theorem wellFormedEntries_iff : WellFormedEntries entries ↔
    ∀ e∈entries, Joined e.1 ∧ WellFormed e.2 := by
  induction entries with
  | nil => simp [WellFormedEntries]
  | cons e entries ih =>
    obtain ⟨k,v⟩ := e
    rw [WellFormedEntries,ih,forall_mem_cons,and_assoc]

/-- The reader takes what is written for a point as that point, or as its halves. -/
def Readable (write : Char → List Char) : Prop :=
  ∀ p rest, ∃ ps, (ps = [p] ∨ ps = p.split) ∧
    readPoints (writePoint write p++rest) =
      (readPoints rest).map fun r => (ps++r.1,r.2)

theorem hex4_escapeUnit (h : n<0x10000) :
    hex4 (hexDigit (n/4096%16)) (hexDigit (n/256%16)) (hexDigit (n/16%16)) (hexDigit (n%16)) =
      some n := by
  have hdigit (m : Nat) : hexValue (hexDigit (m%16))=some (m%16) :=
    hexValue_hexDigit _ (mod_lt _ (by decide))
  simp only [hex4,hdigit]
  congr 1
  omega

theorem readPoints_escapeUnit (h : n<0x10000) (rest : List Char) :
    readPoints (escapeUnit n++rest)=(readPoints rest).map fun r => (ofUnit n::r.1,r.2) := by
  show readPoints ('\\' :: 'u' :: _::_::_::_::rest) = _
  rw [readPoints,hex4_escapeUnit h]

theorem ofUnit_surrogate (n : Fin 2048) : ofUnit (0xD800+n.val)=.surrogate n := by
  have hn := n.isLt
  rw [ofUnit,if_pos (by omega),Nat.add_sub_cancel_left]
  congr 1
  exact Fin.ext (Nat.mod_eq_of_lt hn)

theorem ofUnit_char (h : c.toNat<0x10000) : ofUnit c.toNat=.char c := by
  have hvalid : ¬ (0xD800≤c.toNat ∧ c.toNat<0xE000) := by
    rcases c.valid with hlow | hhigh
    · have : c.toNat<0xd800 := hlow
      omega
    · have : 0xdfff<c.toNat := hhigh.1
      omega
  rw [ofUnit,if_neg hvalid,Char.ofNat_toNat]

theorem readPoints_surrogate (n : Fin 2048) (rest : List Char) :
    readPoints (escapeSurrogate n++rest) =
      (readPoints rest).map fun r => (.surrogate n::r.1,r.2) := by
  have hn := n.isLt
  rw [escapeSurrogate,readPoints_escapeUnit (by omega),ofUnit_surrogate]

def shortEscapes : List (Char × Char) :=
  [('"','"'),('\\','\\'),('\x08','b'),('\t','t'),('\n','n'),('\x0c','f'),('\r','r')]

theorem mem_shortEscapes (h : shortEscape c=some e) : (c,e)∈shortEscapes := by
  have hnat (n : Nat) (hc : c.toNat=n) : c=Char.ofNat n := by rw [← hc,Char.ofNat_toNat]
  unfold shortEscape at h
  split_ifs at h with h1 h2 h3 h4 h5 h6 h7
  · cases h
    subst h1
    decide
  · cases h
    subst h2
    decide
  · cases h
    obtain rfl := hnat _ h3
    decide
  · cases h
    obtain rfl := hnat _ h4
    decide
  · cases h
    obtain rfl := hnat _ h5
    decide
  · cases h
    obtain rfl := hnat _ h6
    decide
  · cases h
    obtain rfl := hnat _ h7
    decide

theorem unescape_shortEscape (h : shortEscape c=some e) : unescape e=some c ∧ e ≠ 'u' := by
  have hall : ∀ p∈shortEscapes, unescape p.2=some p.1 ∧ p.2 ≠ 'u' := by decide
  exact hall (c,e) (mem_shortEscapes h)

theorem readPoints_short (h : shortEscape c=some e) (rest : List Char) :
    readPoints ('\\' :: e::rest)=(readPoints rest).map fun r => (.char c::r.1,r.2) := by
  obtain ⟨hun,hu⟩ := unescape_shortEscape h
  rw [readPoints]
  · rw [hun]
  · intro a b c d cs he
    exact absurd he hu

/-- A character without a short escape that is no control character stands for itself. -/
theorem readPoints_plain (hshort : shortEscape c=none) (hc : 32≤c.toNat) (rest : List Char) :
    readPoints (c::rest)=(readPoints rest).map fun r => (.char c::r.1,r.2) := by
  have hquote : c ≠ '"' := by
    rintro rfl
    cases hshort
  have hslash : c ≠ '\\' := by
    rintro rfl
    cases hshort
  rw [readPoints.eq_def]
  split
  · rename_i heq
    exact absurd (List.cons.inj heq).1 hquote
  · rename_i heq
    exact absurd (List.cons.inj heq).1 hslash
  · rename_i heq
    exact absurd (List.cons.inj heq).1 hslash
  · rename_i heq
    cases heq
    rw [if_neg (by rintro (hlt | heq); exacts [by omega,hslash heq])]
  · rename_i heq
    cases heq

theorem readable_of_write {write : Char → List Char}
    (h : ∀ c, shortEscape c=none → ∀ rest, ∃ ps, (ps=[.char c] ∨ ps=Point.split (.char c)) ∧
      readPoints (write c++rest)=(readPoints rest).map fun r => (ps++r.1,r.2)) :
    Readable write := by
  intro p rest
  cases p with
  | surrogate n => exact ⟨[.surrogate n],.inl rfl,readPoints_surrogate n rest⟩
  | char c =>
    cases hshort : shortEscape c with
    | some e =>
      refine ⟨[.char c],.inl rfl,?_⟩
      rw [writePoint_short hshort]
      exact readPoints_short hshort rest
    | none =>
      rw [writePoint_long hshort]
      exact h c hshort rest

theorem readable_writeRaw : Readable writeRaw := by
  apply readable_of_write
  intro c hshort rest
  refine ⟨[.char c],.inl rfl,?_⟩
  unfold writeRaw
  split_ifs with hc
  · rw [readPoints_escapeUnit (by omega),ofUnit_char (by omega)]
    rfl
  · exact readPoints_plain hshort (by omega) rest

theorem readable_writeAscii : Readable writeAscii := by
  apply readable_of_write
  intro c hshort rest
  refine ⟨Point.split (.char c),.inr rfl,?_⟩
  unfold writeAscii
  split_ifs with hplain hbasic
  · rw [split_basic (by omega)]
    exact readPoints_plain hshort hplain.1 rest
  · rw [split_basic hbasic,readPoints_escapeUnit hbasic,ofUnit_char hbasic]
    rfl
  · rw [split_astral hbasic,append_assoc,readPoints_surrogate,readPoints_surrogate,
      Option.map_map]
    rfl

variable {write : Char → List Char}

theorem readPoints_flatMap (h : Readable write) (s : Str) (rest : List Char) :
    ∃ t, Spelled s t ∧
      readPoints (s.flatMap (writePoint write) ++ '"' :: rest)=some (t,rest) := by
  induction s with
  | nil => exact ⟨[],.nil,rfl⟩
  | cons p s ih =>
    obtain ⟨t,hspelled,hread⟩ := ih
    obtain ⟨ps,hps,hpoint⟩ := h p (s.flatMap (writePoint write) ++ '"' :: rest)
    refine ⟨ps++t,?_,?_⟩
    · rcases hps with rfl | rfl
      · exact hspelled.whole
      · exact hspelled.split
    · rw [flatMap_cons,append_assoc,hpoint,hread]
      rfl

theorem readString_write (h : Readable write) {s : Str} (hs : Joined s) (rest : List Char) :
    readString (s.flatMap (writePoint write) ++ '"' :: rest)=some (s,rest) := by
  obtain ⟨t,hspelled,hread⟩ := readPoints_flatMap h s rest
  rw [readString,hread,Option.map_some,hspelled.join_eq hs]

def Ends (rest : List Char) : Prop := ∀ c cs, rest = c::cs → isNumberChar c = false

theorem ends_nil : Ends [] := by
  intro c cs h
  cases h

theorem ends_cons (h : isNumberChar c=false) : Ends (c::cs) := by
  intro c' cs' heq
  rwa [← (List.cons.inj heq).1]

theorem ends_renderItems (items : List Json) (rest : List Char) :
    Ends (renderItems write items++rest) := by
  cases items with
  | nil => exact ends_cons (by decide)
  | cons v items => exact ends_cons (by decide)

theorem ends_renderEntries (entries : List (Str × Json)) (rest : List Char) :
    Ends (renderEntries write entries++rest) := by
  cases entries with
  | nil => exact ends_cons (by decide)
  | cons e entries => exact ends_cons (by decide)

theorem readNumber_token (h : IsToken token) (hrest : Ends rest) :
    readNumber (token++rest)=some (.number token,rest) := by
  obtain ⟨htake,hdrop⟩ := span_append h.1 hrest
  simp only [readNumber,htake,hdrop,h.2,if_true]

theorem token_cons (h : IsToken token) : ∃ c cs, token=c::cs ∧ isNumberChar c := by
  cases token with
  | nil =>
    have hempty : isNumber []=true := h.2
    cases hempty
  | cons c cs =>
    have hall := h.1
    rw [all_cons,Bool.and_eq_true] at hall
    exact ⟨c,cs,rfl,hall.1⟩

def Starts (cs : List Char) : Prop :=
  ∃ c cs', cs = c::cs' ∧ isSpace c = false ∧ c ≠ ']' ∧ c ≠ '\x7d'

theorem Starts.append (h : Starts cs) (rest : List Char) : Starts (cs++rest) := by
  obtain ⟨c,cs',rfl,hc⟩ := h
  exact ⟨c,cs'++rest,rfl,hc⟩

theorem Starts.skip_eq (h : Starts cs) : skip cs=cs := by
  obtain ⟨c,cs',rfl,hspace,_⟩ := h
  simp [skip,hspace]

theorem starts_cons {c : Char} {cs : List Char}
    (h : isSpace c=false ∧ c ≠ ']' ∧ c ≠ '\x7d') : Starts (c::cs) := ⟨c,cs,rfl,h⟩

theorem numberChar_starts {c : Char} (h : isNumberChar c) :
    isSpace c=false ∧ c ≠ ']' ∧ c ≠ '\x7d' := by
  refine ⟨?_,?_,?_⟩
  · rw [Bool.eq_false_iff]
    intro hspace
    simp only [isSpace,Bool.or_eq_true,decide_eq_true_eq] at hspace
    rcases hspace with ((rfl | rfl) | rfl) | rfl
    all_goals revert h; decide
  · rintro rfl
    revert h
    decide
  · rintro rfl
    revert h
    decide

theorem render_starts (h : WellFormed v) : Starts (render write v) := by
  cases v with
  | null => exact starts_cons (by decide)
  | bool b =>
    cases b with
    | true => exact starts_cons (by decide)
    | false => exact starts_cons (by decide)
  | number token =>
    obtain ⟨c,cs,rfl,hc⟩ := token_cons h
    exact starts_cons (numberChar_starts hc)
  | string s => exact starts_cons (by decide)
  | array items =>
    cases items with
    | nil => exact starts_cons (by decide)
    | cons v items => exact starts_cons (by decide)
  | object entries =>
    cases entries with
    | nil => exact starts_cons (by decide)
    | cons e entries => exact starts_cons (by decide)

theorem readValue_number (h : IsToken token) (hrest : Ends rest) :
    readValue (n+1) (token++rest)=some (.number token,rest) := by
  have hread := readNumber_token h hrest
  obtain ⟨c,cs,rfl,hc⟩ := token_cons h
  have hskip : skip (c::cs++rest)=c::(cs++rest) :=
    Starts.skip_eq (starts_cons (numberChar_starts hc))
  have hne (d : Char) (hd : isNumberChar d=false) : c≠d := by
    rintro rfl
    rw [hd] at hc
    cases hc
  rw [readValue,hskip]
  split
  · rename_i heq
    exact absurd (List.cons.inj heq).1 (hne 'n' (by decide))
  · rename_i heq
    exact absurd (List.cons.inj heq).1 (hne 't' (by decide))
  · rename_i heq
    exact absurd (List.cons.inj heq).1 (hne 'f' (by decide))
  · rename_i heq
    exact absurd (List.cons.inj heq).1 (hne '"' (by decide))
  · rename_i heq
    exact absurd (List.cons.inj heq).1 (hne '[' (by decide))
  · rename_i heq
    exact absurd (List.cons.inj heq).1 (hne '\x7b' (by decide))
  · exact hread

theorem readValue_array {n : Nat} {cs : List Char} (h : Starts cs) :
    readValue (n+1) ('[' :: cs)=(readItems n cs).map fun r => (.array r.1,r.2) := by
  have hskip := h.skip_eq
  obtain ⟨c,cs',rfl,_,hc,_⟩ := h
  have houter : skip ('[' :: c::cs') = '[' :: c::cs' := rfl
  rw [readValue,houter]
  simp only [hskip]
  split
  · rename_i heq
    exact absurd (List.cons.inj heq).1 hc
  · rfl

theorem readValue_object (h : Starts cs) :
    readValue (n+1) ('\x7b' :: cs)=(readEntries n cs).map fun r => (ofEntries r.1,r.2) := by
  have hskip := h.skip_eq
  obtain ⟨c,cs',rfl,_,_,hc⟩ := h
  have houter : skip ('\x7b' :: c::cs') = '\x7b' :: c::cs' := rfl
  rw [readValue,houter]
  simp only [hskip]
  split
  · rename_i heq
    exact absurd (List.cons.inj heq).1 hc
  · rfl

/-- Entries of different keys are all kept, in their order. -/
theorem ofEntries_eq (h : (entries.map (·.1)).Nodup) : ofEntries entries=.object entries := by
  have hfold : ∀ (es d : List (Str × Json)), ((d++es).map (·.1)).Nodup →
      es.foldl (fun d e => Dict.set d e.1 e.2) d=d++es := by
    intro es
    induction es with
    | nil => simp
    | cons e es ih =>
      intro d hnodup
      have hset : Dict.set d e.1 e.2=d++[e] := by
        apply Dict.set_fresh
        intro hmem
        rw [map_append,map_cons] at hnodup
        exact (nodup_append.1 hnodup).2.2 e.1 hmem e.1 mem_cons_self rfl
      rw [foldl_cons,hset,ih _ (by simpa using hnodup)]
      simp
  rw [ofEntries,hfold entries [] h]
  rfl

theorem writeString_append (s : Str) (rest : List Char) :
    writeString write s++rest = '"' :: (s.flatMap (writePoint write) ++ '"' :: rest) := by
  simp [writeString]

theorem length_renderItems_pos (items : List Json) : 0<(renderItems write items).length := by
  cases items with
  | nil => exact one_pos
  | cons v items => exact succ_pos _

theorem length_renderEntries_pos (entries : List (Str × Json)) :
    0<(renderEntries write entries).length := by
  cases entries with
  | nil => exact one_pos
  | cons e entries => exact succ_pos _

def ReadsBack (write : Char → List Char) (v : Json) : Prop :=
  ∀ n rest, (render write v).length < n → Ends rest →
    readValue n (render write v++rest) = some (v,rest)

theorem readItems_cons {v : Json} {items : List Json} {n : Nat} {rest : List Char}
    (hv : ReadsBack write v)
    (hn : (render write v).length+(renderItems write items).length<n+1) :
    readItems (n+1) (render write v++(renderItems write items++rest)) =
      match skip (renderItems write items++rest) with
      | ',' :: cs => (readItems n cs).map fun r => (v::r.1,r.2)
      | ']' :: cs => some ([v],cs)
      | _ => none := by
  have hpos : 0<(renderItems write items).length := length_renderItems_pos items
  rw [readItems,hv n _ (by omega) (ends_renderItems items rest)]

theorem readEntries_cons (hw : Readable write) {k : Str} (hk : Joined k) (hv : ReadsBack write v)
    (hn : (render write v).length+(renderEntries write entries).length<n+1) : readEntries (n+1)
        (writeString write k ++ ':' :: (render write v++(renderEntries write entries++rest))) =
      match skip (renderEntries write entries++rest) with
      | ',' :: cs => (readEntries n cs).map fun r => ((k,v)::r.1,r.2)
      | '\x7d' :: cs => some ([(k,v)],cs)
      | _ => none := by
  have hpos : 0<(renderEntries write entries).length := length_renderEntries_pos entries
  have hskip (c : Char) (cs : List Char) (hc : isSpace c=false) : skip (c::cs)=c::cs := by
    simp [skip,hc]
  rw [readEntries,writeString_append,hskip '"' _ (by decide)]
  simp only [readString_write hw hk,hskip ':' _ (by decide)]
  rw [hv n _ (by omega) (ends_renderEntries entries rest)]

mutual

theorem readValue_render (hw : Readable write) :
    ∀ v : Json, WellFormed v → ReadsBack write v
  | .null,_ => fun n rest hn _ => by
    cases n with
    | zero => cases hn
    | succ n => rfl
  | .bool b,_ => fun n rest hn _ => by
    cases n with
    | zero => cases hn
    | succ n => cases b <;> rfl
  | .number token,h => fun n rest hn hrest => by
    cases n with
    | zero => cases hn
    | succ n => exact readValue_number h hrest
  | .string s,h => fun n rest hn _ => by
    cases n with
    | zero => cases hn
    | succ n =>
      show readValue (n+1) (writeString write s++rest) = _
      rw [writeString_append]
      show (readString _).map _ = _
      rw [readString_write hw h]
      rfl
  | .array [],_ => fun n rest hn _ => by
    cases n with
    | zero => cases hn
    | succ n => rfl
  | .array (v::items),h => fun n rest hn _ => by
    cases n with
    | zero => cases hn
    | succ n =>
      have hlength : (render write (.array (v::items))).length =
          (render write v).length+(renderItems write items).length+1 := by
        show ('[' :: (render write v++renderItems write items)).length = _
        rw [length_cons,length_append]
      have hitems := readItems_render hw items v (readValue_render hw v h.1) h.2 n rest (by omega)
      show readValue (n+1) ('[' :: (render write v++renderItems write items++rest)) = _
      rw [append_assoc,readValue_array ((render_starts h.1).append _),hitems]
      rfl
  | .object [],_ => fun n rest hn _ => by
    cases n with
    | zero => cases hn
    | succ n => rfl
  | .object ((k,v)::entries),h => fun n rest hn _ => by
    cases n with
    | zero => cases hn
    | succ n =>
      obtain ⟨hnodup,hk,hv,hentries⟩ := h
      have hlength : (render write v).length+(renderEntries write entries).length <
          (render write (.object ((k,v)::entries))).length := by
        show _ < ('\x7b' :: (writeString write k ++
          ':' :: (render write v++renderEntries write entries))).length
        rw [length_cons,length_append,length_cons,length_append]
        omega
      have hread := readEntries_render hw entries k v hk (readValue_render hw v hv) hentries n rest
        (by omega)
      show readValue (n+1) ('\x7b' :: (writeString write k++
        ':' :: (render write v++renderEntries write entries)++rest)) = _
      have hassoc :
          writeString write k ++ ':' :: (render write v++renderEntries write entries)++rest =
          writeString write k ++ ':' :: (render write v++(renderEntries write entries++rest)) := by
        simp
      rw [hassoc,readValue_object,hread,Option.map_some,ofEntries_eq hnodup]
      rw [writeString_append]
      exact starts_cons (by decide)

theorem readItems_render (hw : Readable write) :
    ∀ (items : List Json) (v : Json), ReadsBack write v → WellFormedItems items →
      ∀ (n : Nat) (rest : List Char),
        (render write v).length+(renderItems write items).length<n →
          readItems n (render write v++(renderItems write items++rest))=some (v::items,rest)
  | [],v,hv,_ => fun n rest hn => by
    cases n with
    | zero => cases hn
    | succ n =>
      rw [readItems_cons hv hn]
      rfl
  | w::items,v,hv,h => fun n rest hn => by
    cases n with
    | zero => cases hn
    | succ n =>
      have hlength : (renderItems write (w::items)).length =
          (render write w).length+(renderItems write items).length+1 := by
        simp [renderItems]
      have hitems := readItems_render hw items w (readValue_render hw w h.1) h.2 n rest (by omega)
      rw [readItems_cons hv hn]
      show (readItems n (render write w++renderItems write items++rest)).map _ = _
      rw [append_assoc,hitems]
      rfl

theorem readEntries_render (hw : Readable write) :
    ∀ (entries : List (Str × Json)) (k : Str) (v : Json), Joined k → ReadsBack write v →
      WellFormedEntries entries → ∀ (n : Nat) (rest : List Char),
        (render write v).length+(renderEntries write entries).length<n →
          readEntries n
            (writeString write k ++ ':' :: (render write v++(renderEntries write entries++rest))) =
              some ((k,v)::entries,rest)
  | [],k,v,hk,hv,_ => fun n rest hn => by
    cases n with
    | zero => cases hn
    | succ n =>
      rw [readEntries_cons hw hk hv hn]
      rfl
  | (j,w)::entries,k,v,hk,hv,h => fun n rest hn => by
    cases n with
    | zero => cases hn
    | succ n =>
      obtain ⟨hj,hw',hentries⟩ := h
      have hlength : (render write w).length+(renderEntries write entries).length+1 <
          (renderEntries write ((j,w)::entries)).length := by
        simp [renderEntries,writeString]
        omega
      have hread := readEntries_render hw entries j w hj (readValue_render hw w hw') hentries n rest
        (by omega)
      rw [readEntries_cons hw hk hv hn]
      show (readEntries n (writeString write j++
        ':' :: (render write w++renderEntries write entries)++rest)).map _ = _
      have hassoc :
          writeString write j ++ ':' :: (render write w++renderEntries write entries)++rest =
          writeString write j ++ ':' :: (render write w++(renderEntries write entries++rest)) := by
        simp
      rw [hassoc,hread]
      rfl

end

theorem parse_render (hw : Readable write) (h : WellFormed v) :
    parse (render write v)=some v := by
  have hread := readValue_render hw v h ((render write v).length+1) [] (lt_succ_self _) ends_nil
  rw [append_nil] at hread
  rw [parse,hread]
  rfl

theorem render_inj {write' : Char → List Char} (hw : Readable write) (hw' : Readable write')
    {v' : Json} (h : WellFormed v) (h' : WellFormed v') (heq : render write v=render write' v') :
    v=v' := by
  have hparse := parse_render hw h
  rw [heq,parse_render hw' h'] at hparse
  exact (Option.some.inj hparse).symm

end Framework.Json
