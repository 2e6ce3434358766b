import Harpocrates.Framework.JsonAscii
import Harpocrates.Framework.JsonKeys

namespace Framework.Json

open List

/-! Which values are left as they are by a writer that prints numbers in its own way and reduces
objects to a list of keys. -/

/-- What a number is written as; one that is out of range is written as no number. -/
def reprintNumber (print : List Char → Option (List Char)) (token : List Char) : Json :=
  match print token with
  | some printed => .number printed
  | none => .null

variable (print : List Char → Option (List Char))

mutual

def reprint : Json → Json
  | .number token => reprintNumber print token
  | .array items => .array (reprintItems items)
  | .object entries => .object (reprintEntries entries)
  | v => v

def reprintItems : List Json → List Json
  | [] => []
  | v::items => reprint v::reprintItems items

def reprintEntries : List (Str × Json) → List (Str × Json)
  | [] => []
  | (k,v)::entries => (k,reprint v)::reprintEntries entries

end

/-- A number is printed as it stands; an object has no other keys than the listed ones, and its
own entry under the name of its prototype if that is listed. -/
def KeptHere (keys : List Str) : Json → Prop
  | .number token => print token = some token
  | .object entries => (∀ e ∈ entries, e.1 ∈ keys) ∧
      (str "__proto__" ∈ keys → str "__proto__" ∈ entries.map (·.1))
  | _ => True

variable {print} {keys : List Str} {entries : List (Str × Json)}

theorem keptHere_congr {ks ks' : List Str}
    (h : ∀ k, k∈ks ↔ k∈ks') : KeptHere print ks=KeptHere print ks' := by
  funext v
  cases v with
  | object entries => simp only [KeptHere,h]
  | null => rfl
  | bool b => rfl
  | number token => rfl
  | string s => rfl
  | array items => rfl

theorem reprintItems_eq_map (items : List Json) :
    reprintItems print items=items.map (reprint print) := by
  induction items with
  | nil => rfl
  | cons v items ih => rw [reprintItems,ih,map_cons]

theorem reprintEntries_eq_map (entries : List (Str × Json)) :
    reprintEntries print entries=entries.map fun e => (e.1,reprint print e.2) := by
  induction entries with
  | nil => rfl
  | cons e entries ih => rw [reprintEntries,ih,map_cons]

theorem keys_reprintEntries (entries : List (Str × Json)) :
    (reprintEntries print entries).map (·.1)=entries.map (·.1) := by
  rw [reprintEntries_eq_map,map_map]
  rfl

theorem wellFormed_reprint (hprint : ∀ token printed, print token=some printed → IsToken printed)
    {v : Json} (h : WellFormed v) : WellFormed (reprint print v) := by
  induction v using Json.induct with
  | null => exact h
  | bool b => exact h
  | number token =>
    show WellFormed (reprintNumber print token)
    unfold reprintNumber
    cases hprinted : print token with
    | none => trivial
    | some printed => exact hprint token printed hprinted
  | string s => exact h
  | array items ih =>
    have hitems := wellFormedItems_iff.1 h
    rw [reprint,WellFormed,wellFormedItems_iff,reprintItems_eq_map,forall_mem_map]
    exact fun v hv => ih v hv (hitems v hv)
  | object entries ih =>
    have hentries := wellFormedEntries_iff.1 h.2
    rw [reprint,WellFormed,keys_reprintEntries,wellFormedEntries_iff,reprintEntries_eq_map,
      forall_mem_map]
    exact ⟨h.1,fun e he => ⟨(hentries e he).1,ih e he (hentries e he).2⟩⟩

theorem keep_reprintNumber {token : List Char} :
    keep keys (reprintNumber print token)=.number token ↔ print token=some token := by
  unfold reprintNumber
  cases print token with
  | none => exact ⟨fun h => (nomatch h),fun h => (nomatch h)⟩
  | some printed =>
    show Json.number printed=.number token ↔ _
    rw [Json.number.injEq,Option.some.injEq]

theorem mem_left {e : Str × Json} (hnodup : (entries.map (·.1)).Nodup) (he : e∈entries)
    (h : e∈select keys (keepEntries keys (reprintEntries print entries))) :
    e.1∈keys ∧ keep keys (reprint print e.2)=e.2 := by
  obtain ⟨hk,hv⟩ := mem_keys_select h
  have hlookup : (reprintEntries print entries).lookup e.1=some (reprint print e.2) := by
    apply Dict.lookup_eq_of_mem
    · rw [keys_reprintEntries]
      exact hnodup
    · rw [reprintEntries_eq_map]
      exact mem_map_of_mem (f := fun e : Str × Json => (e.1,reprint print e.2)) he
  rw [lookup_keepEntries,hlookup] at hv
  exact ⟨hk,Option.some.inj hv⟩

theorem proto_mem_select (h : str "__proto__" ∈ keys) :
    str "__proto__" ∈ (select keys entries).map (·.1) := by
  have hsome : ((entries.lookup (str "__proto__")).or (inherited (str "__proto__"))).isSome := by
    rw [Option.isSome_or]
    exact Bool.or_eq_true_iff.2 (.inr rfl)
  obtain ⟨v,hv⟩ := Option.isSome_iff_exists.1 hsome
  refine mem_map.2 ⟨(str "__proto__",v),mem_filterMap.2 ⟨_,h,?_⟩,rfl⟩
  rw [hv]
  rfl

theorem keptHere_of_keep {v : Json} (h : WellFormed v)
    (heq : keep keys (reprint print v)=v) : Everywhere (KeptHere print keys) v := by
  induction v using Json.induct with
  | null => trivial
  | bool b => trivial
  | number token => exact keep_reprintNumber.1 heq
  | string s => trivial
  | array items ih =>
    have hitems := wellFormedItems_iff.1 h
    rw [reprint,keep,reprintItems_eq_map,keepItems_eq_map,map_map,Json.array.injEq] at heq
    have hall := map_inj_left.1 (heq.trans (map_id items).symm)
    exact ⟨trivial,everywhereItems_iff.2 fun v hv => ih v hv (hitems v hv) (hall v hv)⟩
  | object entries ih =>
    have hentries := wellFormedEntries_iff.1 h.2
    rw [reprint,keep,Json.object.injEq] at heq
    have hleft (e : Str × Json) (he : e∈entries) :
        e.1∈keys ∧ keep keys (reprint print e.2)=e.2 :=
      mem_left h.1 he (heq.symm ▸ he)
    refine ⟨⟨fun e he => (hleft e he).1,fun hproto => ?_⟩,everywhereEntries_iff.2 fun e he => ?_⟩
    · rw [← heq]
      exact proto_mem_select hproto
    · exact ih e he (hentries e he).2 (hleft e he).2

theorem units_plain {s : Str} (h : isPlain s) : units s=codes s := by
  have hpoint (p : Point) (hp : p∈s) : p.units=[p.code] := by
    have hplain := all_eq_true.1 h p hp
    cases p with
    | surrogate n => rfl
    | char c =>
      have hc : c.toNat<127 := by simpa [Point.plain] using hplain
      exact if_pos (by omega)
  rw [units,flatMap_congr hpoint,codes,map_eq_flatMap]

theorem code_injective : Function.Injective Point.code := by
  intro p q h
  have hrange (c : Char) : c.toNat<0xD800 ∨ 0xE000≤c.toNat :=
    c.valid.imp id fun hhigh => Nat.succ_le_of_lt hhigh.1
  cases p with
  | char c =>
    cases q with
    | char d => rw [Char.toNat_inj.1 h]
    | surrogate n =>
      have hn := n.isLt
      have hcode : c.toNat=0xD800+n.val := h
      rcases hrange c with hlow | hhigh
      · omega
      · omega
  | surrogate m =>
    cases q with
    | char d =>
      have hm := m.isLt
      have hcode : 0xD800+m.val=d.toNat := h
      rcases hrange d with hlow | hhigh
      · omega
      · omega
    | surrogate n => rw [Fin.val_injective (Nat.add_left_cancel h)]

theorem codes_injective : Function.Injective codes := map_injective_iff.2 code_injective

/-- A selection by sorted keys is the object itself where it has no other keys and gets nothing
from its prototype. -/
theorem select_eq_self (hkeys : keys.Pairwise fun a b => units a≤units b) (hdup : keys.Nodup)
    (hnodup : (entries.map (·.1)).Nodup)
    (hsorted : entries.Pairwise fun a b => codes a.1<codes b.1)
    (hplain : ∀ e∈entries, isPlain e.1) (hwithin : ∀ e∈entries, e.1∈keys)
    (hproto : str "__proto__" ∈ keys → str "__proto__" ∈ entries.map (·.1)) :
    select keys entries=entries := by
  have hmem (e : Str × Json) : e∈select keys entries ↔ e∈entries := by
    constructor
    · intro he
      obtain ⟨hk,hv⟩ := mem_keys_select he
      rcases Option.or_eq_some_iff.1 hv with hown | ⟨hnone,hinherited⟩
      · exact Dict.mem_of_lookup hown
      · have hname : e.1=str "__proto__" := by
          unfold inherited at hinherited
          split at hinherited
          · assumption
          · cases hinherited
        rw [hname] at hk hnone
        obtain ⟨v,hv⟩ := Dict.lookup_of_mem (hproto hk)
        rw [hv] at hnone
        cases hnone
    · intro he
      exact Dict.mem_of_lookup (lookup_select_own (hwithin e he) (Dict.lookup_eq_of_mem hnodup he))
  have hselected : ((select keys entries).map (·.1)).Nodup := hdup.sublist keys_select_sublist
  have hperm : (select keys entries).Perm entries :=
    (perm_ext_iff_of_nodup hselected.of_map hnodup.of_map).2 hmem
  -- both lists are sorted by the units of their keys, and plain keys differ in their units
  have hleft : (select keys entries).Pairwise fun a b => units a.1≤units b.1 := by
    have hselected : ((select keys entries).map (·.1)).Pairwise fun a b => units a≤units b :=
      hkeys.sublist keys_select_sublist
    rw [pairwise_map] at hselected
    exact hselected
  have hright : entries.Pairwise fun a b => units a.1≤units b.1 := by
    refine hsorted.imp_of_mem fun {a b} ha hb hlt => ?_
    rw [units_plain (hplain a ha),units_plain (hplain b hb)]
    exact le_of_lt hlt
  refine List.Perm.eq_of_pairwise (fun a b ha hb hab hba => ?_) hleft hright hperm
  have ha' := (hmem a).1 ha
  have hunits := le_antisymm hab hba
  rw [units_plain (hplain a ha'),units_plain (hplain b hb)] at hunits
  exact inj_on_of_nodup_map hnodup ha' hb (codes_injective hunits)

theorem keep_eq_self {v : Json} (hkeys : keys.Pairwise fun a b => units a≤units b)
    (hdup : keys.Nodup) (h : IsValue v) (hplain : Everywhere (plainHere · = true) v)
    (hkept : Everywhere (KeptHere print keys) v) : keep keys (reprint print v)=v := by
  obtain ⟨hformed,hsorted⟩ := h
  induction v using Json.induct with
  | null => rfl
  | bool b => rfl
  | number token => exact keep_reprintNumber.2 hkept
  | string s => rfl
  | array items ih =>
    have hitems (v : Json) (hv : v∈items) : keep keys (reprint print v)=v :=
      ih v hv (everywhereItems_iff.1 hplain.2 v hv) (everywhereItems_iff.1 hkept.2 v hv)
        (wellFormedItems_iff.1 hformed v hv) (sortedItems_iff.1 hsorted v hv)
    rw [reprint,keep,reprintItems_eq_map,keepItems_eq_map,map_map]
    exact congrArg Json.array ((map_congr_left hitems).trans (map_id items))
  | object entries ih =>
    have hentries (e : Str × Json) (he : e∈entries) :
        (e.1,keep keys (reprint print e.2))=e := by
      rw [ih e he (everywhereEntries_iff.1 hplain.2 e he) (everywhereEntries_iff.1 hkept.2 e he)
        (wellFormedEntries_iff.1 hformed.2 e he).2 (sortedEntries_iff.1 hsorted.2 e he)]
    have hleft : keepEntries keys (reprintEntries print entries)=entries := by
      rw [reprintEntries_eq_map,keepEntries_eq_map,map_map]
      exact (map_congr_left hentries).trans (map_id entries)
    rw [reprint,keep,hleft,select_eq_self hkeys hdup hformed.1 hsorted.1
      (fun e he => all_eq_true.1 hplain.1 e he) hkept.1.1 hkept.1.2]

end Framework.Json
