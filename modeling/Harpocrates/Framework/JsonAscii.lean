import Harpocrates.Framework.JsonText

namespace Framework.Json

open List

def Point.plain : Point → Bool
  | .char c => c.toNat < 127
  | .surrogate _ => true

def isPlain (s : Str) : Bool := s.all Point.plain

def plainHere : Json → Bool
  | .string s => isPlain s
  | .object entries => entries.all fun e => isPlain e.1
  | _ => true

abbrev IsAscii (cs : List Char) : Prop := cs.all fun c => c.toNat < 127

theorem isAscii_append {cs ds : List Char} : IsAscii (cs++ds) ↔ IsAscii cs ∧ IsAscii ds := by
  rw [IsAscii,all_append,Bool.and_eq_true]

theorem isAscii_cons {c : Char} {cs : List Char} :
    IsAscii (c::cs) ↔ c.toNat<127 ∧ IsAscii cs := by
  rw [IsAscii,all_cons,Bool.and_eq_true,decide_eq_true_eq]

theorem hexDigit_ascii (n : Nat) : (hexDigit (n%16)).toNat<127 := by
  have hall : ∀ d<16, (hexDigit d).toNat<127 := by decide
  exact hall (n%16) (Nat.mod_lt n (by decide))

theorem escapeUnit_ascii (n : Nat) : IsAscii (escapeUnit n) := by
  simp only [escapeUnit,isAscii_cons]
  exact ⟨by decide,by decide,hexDigit_ascii _,hexDigit_ascii _,hexDigit_ascii _,hexDigit_ascii _,
    rfl⟩

theorem shortEscape_ascii {c e : Char} (h : shortEscape c=some e) :
    c.toNat<127 ∧ IsAscii ['\\',e] := by
  have hall : ∀ p∈shortEscapes, p.1.toNat<127 ∧ IsAscii ['\\',p.2] := by decide
  exact hall (c,e) (mem_shortEscapes h)

theorem writeAscii_ascii (c : Char) : IsAscii (writeAscii c) := by
  unfold writeAscii
  split_ifs with hprintable hbasic
  · exact isAscii_cons.2 ⟨hprintable.2,rfl⟩
  · exact escapeUnit_ascii _
  · exact isAscii_append.2 ⟨escapeUnit_ascii _,escapeUnit_ascii _⟩

theorem writePoint_ascii (p : Point) : IsAscii (writePoint writeAscii p) := by
  cases p with
  | surrogate n => exact escapeUnit_ascii _
  | char c =>
    cases hshort : shortEscape c with
    | some e =>
      rw [writePoint_short hshort]
      exact (shortEscape_ascii hshort).2
    | none =>
      rw [writePoint_long hshort]
      exact writeAscii_ascii c

/-- A point is written alike in both ways if it is plain, and with another character if not. -/
theorem writePoint_plain {p : Point} (h : p.plain) :
    writePoint writeRaw p=writePoint writeAscii p := by
  cases p with
  | surrogate n => rfl
  | char c =>
    have hc : c.toNat<127 := by simpa [Point.plain] using h
    have hwrite : writeRaw c=writeAscii c := by
      unfold writeRaw writeAscii
      by_cases hcontrol : c.toNat<32
      · rw [if_pos hcontrol,if_neg (by omega),if_pos (by omega)]
      · rw [if_neg hcontrol,if_pos ⟨by omega,hc⟩]
    simp only [writePoint,hwrite]

theorem plain_of_writePoint {p : Point} (h : IsAscii (writePoint writeRaw p)) : p.plain := by
  cases p with
  | surrogate n => rfl
  | char c =>
    by_contra hplain
    have hc : ¬ c.toNat<127 := by simpa [Point.plain] using hplain
    have hshort : shortEscape c=none := by
      cases hshort : shortEscape c with
      | none => rfl
      | some e => exact absurd (shortEscape_ascii hshort).1 hc
    have hwrite : writeRaw c=[c] := if_neg (by omega)
    rw [writePoint_long hshort,hwrite] at h
    exact hc (isAscii_cons.1 h).1

theorem isAscii_writeString {write : Char → List Char} {s : Str} :
    IsAscii (writeString write s) ↔ ∀ p∈s, IsAscii (writePoint write p) := by
  rw [writeString,cons_append,isAscii_cons,isAscii_append]
  have hpoints : IsAscii (s.flatMap (writePoint write)) ↔
      ∀ p∈s, IsAscii (writePoint write p) := by
    rw [IsAscii,all_flatMap,all_eq_true]
  rw [hpoints]
  exact ⟨fun h => h.2.1,fun h => ⟨by decide,h,by decide⟩⟩

theorem writeString_plain {s : Str} (h : isPlain s) :
    writeString writeRaw s=writeString writeAscii s := by
  have hpoints : s.flatMap (writePoint writeRaw)=s.flatMap (writePoint writeAscii) :=
    flatMap_congr fun p hp => writePoint_plain (all_eq_true.1 h p hp)
  rw [writeString,hpoints,writeString]

theorem plain_of_writeString {s : Str} (h : IsAscii (writeString writeRaw s)) : isPlain s :=
  all_eq_true.2 fun p hp => plain_of_writePoint (isAscii_writeString.1 h p hp)

theorem writeString_ascii (s : Str) : IsAscii (writeString writeAscii s) :=
  isAscii_writeString.2 fun p _ => writePoint_ascii p

theorem token_ascii {token : List Char} (h : IsToken token) : IsAscii token := by
  refine all_eq_true.2 fun c hc => ?_
  have hnumber := all_eq_true.1 h.1 c hc
  simp only [isNumberChar,Char.isDigit,Bool.or_eq_true,Bool.and_eq_true,decide_eq_true_eq]
    at hnumber ⊢
  rcases hnumber with ((((hdigit | rfl) | rfl) | rfl) | rfl) | rfl
  · have hle : c.toNat≤57 := hdigit.2
    omega
  all_goals decide

variable (write : Char → List Char)

/-- An array is written in ASCII characters if its items are. -/
theorem isAscii_array {items : List Json} : IsAscii (render write (.array items)) ↔
    ∀ v∈items, IsAscii (render write v) := by
  have hitems (items : List Json) : IsAscii (renderItems write items) ↔
      ∀ v∈items, IsAscii (render write v) := by
    induction items with
    | nil => exact ⟨fun _ _ hv => absurd hv not_mem_nil,fun _ => rfl⟩
    | cons v items ih =>
      rw [renderItems,isAscii_cons,isAscii_append,ih,forall_mem_cons]
      exact ⟨fun h => h.2,fun h => ⟨by decide,h⟩⟩
  cases items with
  | nil => exact ⟨fun _ _ hv => absurd hv not_mem_nil,fun _ => rfl⟩
  | cons v items =>
    rw [render,isAscii_cons,isAscii_append,hitems,forall_mem_cons]
    exact ⟨fun h => h.2,fun h => ⟨by decide,h⟩⟩

theorem isAscii_object {entries : List (Str × Json)} :
    IsAscii (render write (.object entries)) ↔
      ∀ e∈entries, IsAscii (writeString write e.1) ∧ IsAscii (render write e.2) := by
  have hentry (c : Char) (hc : c.toNat<127) (k : Str) (v : Json) (rest : List Char) :
      IsAscii (c::(writeString write k ++ ':' :: (render write v++rest))) ↔
        (IsAscii (writeString write k) ∧ IsAscii (render write v)) ∧ IsAscii rest := by
    rw [isAscii_cons,isAscii_append,isAscii_cons,isAscii_append]
    exact ⟨fun h => ⟨⟨h.2.1,h.2.2.2.1⟩,h.2.2.2.2⟩,fun h => ⟨hc,h.1.1,by decide,h.1.2,h.2⟩⟩
  have hentries (entries : List (Str × Json)) : IsAscii (renderEntries write entries) ↔
      ∀ e∈entries, IsAscii (writeString write e.1) ∧ IsAscii (render write e.2) := by
    induction entries with
    | nil => exact ⟨fun _ _ hv => absurd hv not_mem_nil,fun _ => rfl⟩
    | cons e entries ih => rw [renderEntries,hentry _ (by decide),ih,forall_mem_cons]
  cases entries with
  | nil => exact ⟨fun _ _ hv => absurd hv not_mem_nil,fun _ => rfl⟩
  | cons e entries => rw [render,hentry _ (by decide),hentries,forall_mem_cons]

theorem render_ascii {v : Json} (h : WellFormed v) : IsAscii (render writeAscii v) := by
  induction v using Json.induct with
  | null => decide
  | bool b =>
    cases b with
    | true => decide
    | false => decide
  | number token => exact token_ascii h
  | string s => exact writeString_ascii s
  | array items ih =>
    have hitems := wellFormedItems_iff.1 h
    exact (isAscii_array writeAscii).2 fun v hv => ih v hv (hitems v hv)
  | object entries ih =>
    have hentries := wellFormedEntries_iff.1 h.2
    exact (isAscii_object writeAscii).2 fun e he =>
      ⟨writeString_ascii e.1,ih e he (hentries e he).2⟩

mutual

theorem render_plain : ∀ v : Json, Everywhere (plainHere · = true) v →
    render writeRaw v=render writeAscii v
  | .null,_ => rfl
  | .bool true,_ => rfl
  | .bool false,_ => rfl
  | .number _,_ => rfl
  | .string _,h => writeString_plain h
  | .array [],_ => rfl
  | .array (v::items),h => by
    rw [render,render,render_plain v h.2.1,renderItems_plain items h.2.2]
  | .object [],_ => rfl
  | .object ((k,v)::entries),h => by
    have hkeys := all_eq_true.1 h.1
    rw [render,render,writeString_plain (hkeys _ mem_cons_self),render_plain v h.2.1,
      renderEntries_plain entries (fun e he => hkeys e (mem_cons_of_mem _ he)) h.2.2]

theorem renderItems_plain : ∀ items : List Json, EverywhereItems (plainHere · = true) items →
    renderItems writeRaw items=renderItems writeAscii items
  | [],_ => rfl
  | v::items,h => by
    rw [renderItems,renderItems,render_plain v h.1,renderItems_plain items h.2]

theorem renderEntries_plain : ∀ entries : List (Str × Json), (∀ e∈entries, isPlain e.1) →
    EverywhereEntries (plainHere · = true) entries →
    renderEntries writeRaw entries=renderEntries writeAscii entries
  | [],_,_ => rfl
  | (k,v)::entries,hkeys,h => by
    rw [renderEntries,renderEntries,writeString_plain (hkeys _ List.mem_cons_self),
      render_plain v h.1,
      renderEntries_plain entries (fun e he => hkeys e (List.mem_cons_of_mem _ he)) h.2]

end

/-- A value that is written in ASCII characters although nothing is escaped is plain. -/
theorem plain_of_render {v : Json} (h : IsAscii (render writeRaw v)) :
    Everywhere (plainHere · = true) v := by
  induction v using Json.induct with
  | null => rfl
  | bool b => rfl
  | number token => rfl
  | string s => exact plain_of_writeString h
  | array items ih =>
    have hitems := (isAscii_array writeRaw).1 h
    exact ⟨rfl,everywhereItems_iff.2 fun v hv => ih v hv (hitems v hv)⟩
  | object entries ih =>
    have hentries := (isAscii_object writeRaw).1 h
    refine ⟨all_eq_true.2 fun e he => plain_of_writeString (hentries e he).1,?_⟩
    exact everywhereEntries_iff.2 fun e he => ih e he (hentries e he).2

end Framework.Json
