import Mathlib.Data.List.Sort
import Mathlib.Data.List.Lex
import Harpocrates.Framework.JsonText

namespace Framework.Json

open List

/-! The keys of objects: their orders, and what is left of a value that is written with a list of
keys. -/

/-- The UTF-16 code units of a point. -/
def Point.units : Point → List Nat
  | .surrogate n => [0xD800+n.val]
  | .char c =>
    if c.toNat < 0x10000 then [c.toNat]
    else [0xD800+(highHalf c).val,0xD800+(lowHalf c).val]

def Point.code : Point → Nat
  | .surrogate n => 0xD800+n.val
  | .char c => c.toNat

def units (s : Str) : List Nat := s.flatMap Point.units

def codes (s : Str) : List Nat := s.map Point.code

def sortByUnits (keys : List Str) : List Str := keys.insertionSort fun a b => units a ≤ units b

mutual

/-- A value with the keys of all its objects in the order of their code points. -/
def ordered : Json → Json
  | .array items => .array (orderedItems items)
  | .object entries =>
    .object ((orderedEntries entries).insertionSort fun a b => codes a.1 ≤ codes b.1)
  | v => v

def orderedItems : List Json → List Json
  | [] => []
  | v::items => ordered v::orderedItems items

def orderedEntries : List (Str × Json) → List (Str × Json)
  | [] => []
  | (k,v)::entries => (k,ordered v)::orderedEntries entries

end

mutual

/-- Objects have no order; they are kept with their keys in the order of the code points. -/
def SortedKeys : Json → Prop
  | .array items => SortedItems items
  | .object entries =>
    (entries.Pairwise fun a b => codes a.1 < codes b.1) ∧ SortedEntries entries
  | _ => True

def SortedItems : List Json → Prop
  | [] => True
  | v::items => SortedKeys v ∧ SortedItems items

def SortedEntries : List (Str × Json) → Prop
  | [] => True
  | (_,v)::entries => SortedKeys v ∧ SortedEntries entries

end

theorem orderedItems_eq_map (items : List Json) : orderedItems items=items.map ordered := by
  induction items with
  | nil => rfl
  | cons v items ih => rw [orderedItems,ih,map_cons]

theorem orderedEntries_eq_map (entries : List (Str × Json)) :
    orderedEntries entries=entries.map fun e => (e.1,ordered e.2) := by
  induction entries with
  | nil => rfl
  | cons e entries ih => rw [orderedEntries,ih,map_cons]

theorem sortedItems_iff {items : List Json} :
    SortedItems items ↔ ∀ v∈items, SortedKeys v := by
  induction items with
  | nil => simp [SortedItems]
  | cons v items ih => rw [SortedItems,ih,forall_mem_cons]

theorem sortedEntries_iff {entries : List (Str × Json)} :
    SortedEntries entries ↔ ∀ e∈entries, SortedKeys e.2 := by
  induction entries with
  | nil => simp [SortedEntries]
  | cons e entries ih => rw [SortedEntries,ih,forall_mem_cons]

variable {v : Json}

theorem ordered_eq_self (h : SortedKeys v) : ordered v=v := by
  induction v using Json.induct with
  | null => rfl
  | bool b => rfl
  | number token => rfl
  | string s => rfl
  | array items ih =>
    have hitems := sortedItems_iff.1 h
    rw [ordered,orderedItems_eq_map,map_congr_left fun v hv => ih v hv (hitems v hv),
      map_id']
  | object entries ih =>
    have hvalues := sortedEntries_iff.1 h.2
    have hentries (e : Str × Json) (he : e∈entries) : (e.1,ordered e.2)=e := by
      rw [ih e he (hvalues e he)]
    rw [ordered,orderedEntries_eq_map,map_congr_left hentries,map_id']
    congr 1
    exact List.Pairwise.insertionSort_eq (h.1.imp fun hlt => le_of_lt hlt)

def IsValue (v : Json) : Prop := WellFormed v ∧ SortedKeys v

theorem isValue_set {entries : List (Str × Json)} {k : Str} (h : IsValue (.object entries))
    (hk : k∈entries.map (·.1)) (hv : IsValue v) : IsValue (.object (Dict.set entries k v)) := by
  obtain ⟨⟨hnodup,hformed⟩,horder,hsorted⟩ := h
  rw [wellFormedEntries_iff] at hformed
  rw [sortedEntries_iff] at hsorted
  have hkeys := Dict.keys_set (v := v) hk
  refine ⟨⟨?_,wellFormedEntries_iff.2 fun e he => ?_⟩,?_,sortedEntries_iff.2 fun e he => ?_⟩
  · rw [hkeys]
    exact hnodup
  · rcases Dict.mem_set he with rfl | hmem
    · obtain ⟨e,hmem,heq⟩ := mem_map.1 hk
      have hjoined := (hformed e hmem).1
      rw [heq] at hjoined
      exact ⟨hjoined,hv.1⟩
    · exact hformed e hmem
  · rw [← pairwise_map (f := fun e : Str × Json => e.1) (R := fun a b => codes a<codes b)]
      at horder ⊢
    rw [hkeys]
    exact horder
  · rcases Dict.mem_set he with rfl | hmem
    · exact hv.2
    · exact hsorted e hmem

/-- What an object gives for a key of its prototype. Of the names there only this one leads to
something that is written. -/
def inherited (k : Str) : Option Json :=
  if k = str "__proto__" then some (.object [(str "__proto__",.null)]) else none

def select (keys : List Str) (entries : List (Str × Json)) : List (Str × Json) :=
  keys.filterMap fun k => ((entries.lookup k).or (inherited k)).map fun v => (k,v)

variable (keys : List Str)

mutual

/-- What is left of a value where each of its objects is reduced to the listed keys. -/
def keep : Json → Json
  | .array items => .array (keepItems items)
  | .object entries => .object (select keys (keepEntries entries))
  | v => v

def keepItems : List Json → List Json
  | [] => []
  | v::items => keep v::keepItems items

def keepEntries : List (Str × Json) → List (Str × Json)
  | [] => []
  | (k,v)::entries => (k,keep v)::keepEntries entries

end

def stringifySorted (entries : List (Str × Json)) : List Char :=
  render writeRaw (keep (sortByUnits (entries.map (·.1))) (.object entries))

variable {keys} {entries : List (Str × Json)} {k : Str}

theorem keepItems_eq_map (items : List Json) : keepItems keys items=items.map (keep keys) := by
  induction items with
  | nil => rfl
  | cons v items ih => rw [keepItems,ih,map_cons]

theorem keepEntries_eq_map (entries : List (Str × Json)) :
    keepEntries keys entries=entries.map fun e => (e.1,keep keys e.2) := by
  induction entries with
  | nil => rfl
  | cons e entries ih => rw [keepEntries,ih,map_cons]

theorem lookup_keepEntries : (keepEntries keys entries).lookup k =
    (entries.lookup k).map (keep keys) := by
  induction entries with
  | nil => rfl
  | cons e entries ih =>
    obtain ⟨j,v⟩ := e
    rw [keepEntries,Dict.lookup_cons,Dict.lookup_cons,ih]
    split
    · rfl
    · rfl

theorem mem_keys_select {e : Str × Json} (h : e∈select keys entries) :
    e.1∈keys ∧ (entries.lookup e.1).or (inherited e.1)=some e.2 := by
  obtain ⟨k,hk,he⟩ := mem_filterMap.1 h
  obtain ⟨v,hv,rfl⟩ := Option.map_eq_some_iff.1 he
  exact ⟨hk,hv⟩

theorem keys_select_sublist : ((select keys entries).map (·.1)).Sublist keys := by
  unfold select
  induction keys with
  | nil => exact List.Sublist.slnil
  | cons k keys ih =>
    rw [filterMap_cons]
    cases (entries.lookup k).or (inherited k) with
    | none => exact ih.cons k
    | some v => exact ih.cons_cons k

theorem sortByUnits_pairwise (ks : List Str) :
    (sortByUnits ks).Pairwise fun a b => units a≤units b :=
  pairwise_insertionSort _ ks

theorem nodup_sortByUnits {ks : List Str} (h : ks.Nodup) : (sortByUnits ks).Nodup :=
  (perm_insertionSort _ ks).nodup_iff.2 h

theorem mem_sortByUnits {ks : List Str} : k∈sortByUnits ks ↔ k∈ks :=
  (perm_insertionSort _ ks).mem_iff

theorem wellFormed_inherited (h : inherited k=some v) : WellFormed v := by
  unfold inherited at h
  split at h
  · cases h
    exact ⟨by simp,joined_str _,trivial,trivial⟩
  · cases h

theorem wellFormed_select (hkeys : keys.Nodup) (hjoined : ∀ k∈keys, Joined k)
    (h : WellFormedEntries entries) : WellFormed (.object (select keys entries)) := by
  refine ⟨List.Nodup.sublist keys_select_sublist hkeys,wellFormedEntries_iff.2 fun e he => ?_⟩
  obtain ⟨hk,hv⟩ := mem_keys_select he
  refine ⟨hjoined e.1 hk,?_⟩
  rcases Option.or_eq_some_iff.1 hv with hown | ⟨_,hproto⟩
  · have hmem := Dict.mem_of_lookup hown
    exact (wellFormedEntries_iff.1 h _ hmem).2
  · exact wellFormed_inherited hproto

theorem wellFormed_keep (hkeys : keys.Nodup) (hjoined : ∀ k∈keys, Joined k) (h : WellFormed v) :
    WellFormed (keep keys v) := by
  induction v using Json.induct with
  | null => exact h
  | bool b => exact h
  | number token => exact h
  | string s => exact h
  | array items ih =>
    have hitems := wellFormedItems_iff.1 h
    rw [keep,WellFormed,wellFormedItems_iff,keepItems_eq_map,forall_mem_map]
    exact fun v hv => ih v hv (hitems v hv)
  | object entries ih =>
    have hentries := wellFormedEntries_iff.1 h.2
    apply wellFormed_select hkeys hjoined
    rw [wellFormedEntries_iff,keepEntries_eq_map,forall_mem_map]
    exact fun e he => ⟨(hentries e he).1,ih e he (hentries e he).2⟩

theorem wellFormed_stringified (h : WellFormed (.object entries)) :
    WellFormed (keep (sortByUnits (entries.map (·.1))) (.object entries)) := by
  apply wellFormed_keep
  · exact nodup_sortByUnits h.1
  · intro k hk
    obtain ⟨e,he,rfl⟩ := mem_map.1 (mem_sortByUnits.1 hk)
    exact (wellFormedEntries_iff.1 h.2 e he).1
  · exact h

theorem lookup_select_own (hk : k∈keys) (h : entries.lookup k=some v) :
    (select keys entries).lookup k=some v := by
  unfold select
  induction keys with
  | nil => cases hk
  | cons j keys ih =>
    rw [filterMap_cons]
    by_cases hj : k=j
    · subst hj
      simp [h]
    · have hrest := ih ((mem_cons.1 hk).resolve_left hj)
      cases (entries.lookup j).or (inherited j) with
      | none => exact hrest
      | some w =>
        show ((j,w)::_).lookup k = _
        rw [Dict.lookup_cons,if_neg hj]
        exact hrest

theorem lookup_select_none (hk : k∉keys) : (select keys entries).lookup k=none := by
  apply Dict.lookup_eq_none
  intro hmem
  exact hk (keys_select_sublist.subset hmem)

def written (entries : List (Str × Json)) : List (Str × Json) :=
  select (sortByUnits (entries.map (·.1)))
    (keepEntries (sortByUnits (entries.map (·.1))) entries)

theorem stringifySorted_eq :
    stringifySorted entries=render writeRaw (.object (written entries)) := rfl

/-- An object that is written with its own keys keeps them all, with what is left of their
values. -/
theorem lookup_written : (written entries).lookup k =
    (entries.lookup k).map (keep (sortByUnits (entries.map (·.1)))) := by
  cases hlookup : entries.lookup k with
  | none =>
    apply lookup_select_none
    rw [mem_sortByUnits]
    intro hmem
    obtain ⟨v,hv⟩ := Dict.lookup_of_mem hmem
    rw [hv] at hlookup
    cases hlookup
  | some v =>
    apply lookup_select_own
    · exact mem_sortByUnits.2 (mem_map_of_mem (Dict.mem_of_lookup hlookup))
    · rw [lookup_keepEntries,hlookup]
      rfl

theorem parse_stringifySorted (h : WellFormed (.object entries)) :
    parse (stringifySorted entries)=some (.object (written entries)) :=
  parse_render readable_writeRaw (wellFormed_stringified h)

theorem written_eq_of_stringifySorted {entries' : List (Str × Json)}
    (h : WellFormed (.object entries)) (h' : WellFormed (.object entries'))
    (heq : stringifySorted entries=stringifySorted entries') :
    written entries=written entries' := by
  have hjson := render_inj readable_writeRaw readable_writeRaw (wellFormed_stringified h)
    (wellFormed_stringified h') heq
  exact Json.object.inj hjson

end Framework.Json
