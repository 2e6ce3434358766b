import Harpocrates.Backend.VerifierCache

namespace Harpocrates.Backend.VerifierCache

open Framework Framework.Python List

section Index

variable {κ : Type} {p p' : Text}

theorem keysOf_set (proofKeys : List (Text × Finset κ)) (keys : Finset κ) :
    keysOf (Dict.set proofKeys p keys) p'=if p'=p then keys else keysOf proofKeys p' := by
  unfold keysOf
  rw [Dict.lookup_set]
  split_ifs
  · rfl
  · rfl

theorem keysOf_remove (proofKeys : List (Text × Finset κ)) :
    keysOf (Dict.remove proofKeys [p]) p'=if p'=p then ∅ else keysOf proofKeys p' := by
  unfold keysOf
  rw [Dict.lookup_remove]
  simp only [mem_singleton]
  split_ifs
  · rfl
  · rfl

variable [DecidableEq κ] {cache : Cache κ} {key k : κ} {proofId : Option Text}

theorem keysOf_discard (proofKeys : List (Text × Finset κ)) :
    keysOf (discard proofKeys p key) p' =
      if p'=p then (keysOf proofKeys p).erase key else keysOf proofKeys p' := by
  unfold discard
  split
  · rename_i hlookup
    have hnone : keysOf proofKeys p=∅ := by rw [keysOf,hlookup]; rfl
    split_ifs with hp
    · rw [hp,hnone,Finset.erase_empty]
    · rfl
  · rename_i keys hlookup
    have hkeys : keysOf proofKeys p=keys := by rw [keysOf,hlookup]; rfl
    rw [keysOf_set,hkeys]

theorem keysOf_add (proofKeys : List (Text × Finset κ)) :
    keysOf (add proofKeys p key) p' =
      if p'=p then insert key (keysOf proofKeys p) else keysOf proofKeys p' :=
  keysOf_set _ _

theorem keysOf_dropEmpty (proofKeys : List (Text × Finset κ)) :
    keysOf (dropEmpty proofKeys p) p'=keysOf proofKeys p' := by
  unfold dropEmpty
  split_ifs with hempty
  · rw [keysOf_remove]
    split_ifs with hp
    · rw [hp,hempty]
    · rfl
  · rfl

theorem named_eq_some : named proofId=some p ↔ proofId=some p ∧ p≠[] := by
  simp [named,Option.filter_eq_some_iff]

def Cache.Indexed (cache : Cache κ) (p : Text) (k : κ) : Prop := k ∈ keysOf cache.proofKeys p

theorem indexed_discardNamed : (cache.discardNamed proofId key).Indexed p k ↔
    cache.Indexed p k ∧ ¬ (named proofId=some p ∧ k=key) := by
  unfold Cache.discardNamed Cache.Indexed
  cases hnamed : named proofId with
  | none => simp
  | some p' =>
    show k∈keysOf (discard cache.proofKeys p' key) p ↔ _
    rw [keysOf_discard]
    by_cases hp : p=p'
    · rw [if_pos hp,Finset.mem_erase,hp]
      simp [and_comm]
    · have hne : some p'≠some p := fun h => hp (Option.some.inj h).symm
      rw [if_neg hp]
      simp [hne]

theorem indexed_addNamed : (cache.addNamed proofId key).Indexed p k ↔
    cache.Indexed p k ∨ named proofId=some p ∧ k=key := by
  unfold Cache.addNamed Cache.Indexed
  cases hnamed : named proofId with
  | none => simp
  | some p' =>
    show k∈keysOf (add cache.proofKeys p' key) p ↔ _
    rw [keysOf_add]
    by_cases hp : p=p'
    · rw [if_pos hp,Finset.mem_insert,hp]
      simp [or_comm]
    · have hne : some p'≠some p := fun h => hp (Option.some.inj h).symm
      rw [if_neg hp]
      simp [hne]

end Index

variable {κ : Type} [DecidableEq κ] {cache : Cache κ} {key k : κ} {p : Text}
  {proofId : Option Text} {now : ℚ} {fns : KeyFunctions κ} {call : Call}

def Cache.held (cache : Cache κ) (k : κ) : Option Entry := cache.entries.lookup k

theorem held_pop : (cache.pop key).held k=if k=key then none else cache.held k := by
  unfold Cache.pop Cache.held
  rw [Dict.lookup_remove]
  simp only [mem_singleton]

theorem held_store {entry : Entry} :
    (cache.store key entry).held k=if k=key then some entry else cache.held k :=
  Dict.lookup_set

theorem entries_discardNamed : (cache.discardNamed proofId key).entries=cache.entries := by
  unfold Cache.discardNamed
  split
  · rfl
  · rfl

theorem entries_addNamed : (cache.addNamed proofId key).entries=cache.entries := by
  unfold Cache.addNamed
  split
  · rfl
  · rfl

theorem held_discardNamed : (cache.discardNamed proofId key).held k=cache.held k :=
  congrArg (List.lookup k) entries_discardNamed

theorem held_addNamed : (cache.addNamed proofId key).held k=cache.held k :=
  congrArg (List.lookup k) entries_addNamed

def Live (cache : Cache κ) (k : κ) (now : ℚ) : Prop :=
  ∃ entry, cache.held k = some entry ∧ now < entry.expiresAt

theorem get_live {entry : Entry} (h : cache.held key=some entry) (hnow : now<entry.expiresAt) :
    get cache now key proofId =
      (((cache.pop key).discardNamed proofId key).store key entry,some entry.result) := by
  unfold get
  rw [show cache.entries.lookup key=some entry from h]
  exact if_pos hnow

theorem get_not_live (proofId : Option Text) (h : ¬ Live cache key now) :
    get cache now key proofId=(cache,none) ∧ cache.held key=none ∨
      get cache now key proofId=(cache.pop key,none) := by
  unfold get
  cases hlookup : cache.entries.lookup key with
  | none => exact .inl ⟨rfl,hlookup⟩
  | some entry => exact .inr (if_neg fun hnow => h ⟨entry,hlookup,hnow⟩)

theorem get_answers_iff : (get cache now key proofId).2≠none ↔ Live cache key now := by
  constructor
  · intro hres
    by_contra hlive
    rcases get_not_live proofId hlive with ⟨heq,-⟩ | heq
    · exact hres (by rw [heq])
    · exact hres (by rw [heq])
  · rintro ⟨entry,hheld,hnow⟩
    rw [get_live hheld hnow]
    simp

/-- The proof that a call names for the key, if it sets the key. -/
def setsKey (fns : KeyFunctions κ) (k : κ) (call : Call) : Option (Option Text) :=
  match call.op with
  | .set query _ proofId => if getCacheKey fns query = k then some proofId else none
  | _ => none

def Serves (fns : KeyFunctions κ) (k : κ) (p : Text) (cache : Cache κ) (call : Call) : Prop :=
  ∃ query proofId, call.op = .get query proofId ∧ getCacheKey fns query = k ∧
    named proofId = some p ∧ (get cache call.now k proofId).2 ≠ none

/-- What a call leaves of a key that it does not set. If the key is still held, its entry is the
same, and it is in the index as before unless the call served it under the proof. -/
structure Leaves (k : κ) (served : Text → Prop) (cache after : Cache κ) : Prop where
  held : after.held k ≠ none → after.held k = cache.held k
  indexed : after.held k ≠ none → ∀ p, after.Indexed p k ↔ cache.Indexed p k ∧ ¬ served p

theorem leaves_of {after : Cache κ} {served : Text → Prop}
    (hheld : after.held k≠none → after.held k=cache.held k)
    (hindex : after.held k≠none → ∀ p, after.Indexed p k ↔ cache.Indexed p k)
    (hserved : ∀ p, ¬ served p) : Leaves k served cache after := by
  refine ⟨hheld,fun h p => ?_⟩
  rw [hindex h p]
  exact ⟨fun hi => ⟨hi,hserved p⟩,And.left⟩

theorem held_pop_eq (h : (cache.pop key).held k≠none) :
    (cache.pop key).held k=cache.held k := by
  rw [held_pop] at h ⊢
  split_ifs at h ⊢
  · exact absurd rfl h
  · rfl

theorem leaves_get : Leaves k (fun p => key=k ∧ named proofId=some p ∧ Live cache k now) cache
    (get cache now key proofId).1 := by
  by_cases hlive : Live cache key now
  · obtain ⟨entry,hheld,hnow⟩ := hlive
    rw [get_live hheld hnow]
    constructor
    · intro h
      rw [held_store,held_discardNamed] at h ⊢
      split_ifs at h ⊢ with hk
      · rw [hk,hheld]
      · exact held_pop_eq h
    · intro _ p
      have hindexed : (((cache.pop key).discardNamed proofId key).store key entry).Indexed p k ↔
          cache.Indexed p k ∧ ¬ (named proofId=some p ∧ k=key) := indexed_discardNamed
      rw [hindexed]
      refine and_congr_right fun _ => not_congr ⟨?_,?_⟩
      · rintro ⟨hnamed,rfl⟩
        exact ⟨rfl,hnamed,entry,hheld,hnow⟩
      · rintro ⟨rfl,hnamed,-⟩
        exact ⟨hnamed,rfl⟩
  · have hserved : ∀ p, ¬ (key=k ∧ named proofId=some p ∧ Live cache k now) := by
      rintro p ⟨rfl,-,hk⟩
      exact hlive hk
    rcases get_not_live proofId hlive with ⟨heq,-⟩ | heq
    · rw [heq]
      exact leaves_of (fun _ => rfl) (fun _ _ => .rfl) hserved
    · rw [heq]
      exact leaves_of held_pop_eq (fun _ _ => .rfl) hserved

def Cache.Keyed (cache : Cache κ) : Prop := (cache.entries.map (·.1)).Nodup

theorem held_makeRoom (hkeys : cache.Keyed) (h : (makeRoom cache key proofId).held k≠none) :
    (makeRoom cache key proofId).held k=cache.held k := by
  unfold makeRoom at h ⊢
  split_ifs at h ⊢
  · rw [held_discardNamed] at h ⊢
    exact held_pop_eq h
  · unfold Cache.held Cache.Keyed at *
    cases hentries : cache.entries with
    | nil => rfl
    | cons e entries =>
      rw [hentries,map_cons,nodup_cons] at hkeys
      show entries.lookup k=((e.1,e.2)::entries).lookup k
      rw [Dict.lookup_cons]
      split_ifs with hk
      · -- the entry that was dropped was the only one under its key
        have hnone : entries.lookup k=none := Dict.lookup_eq_none (hk ▸ hkeys.1)
        rw [hentries] at h
        exact absurd hnone h
      · rfl
  · rfl

theorem indexed_makeRoom (hk : k≠key) :
    (makeRoom cache key proofId).Indexed p k ↔ cache.Indexed p k := by
  unfold makeRoom
  split_ifs
  · rw [indexed_discardNamed]
    exact ⟨And.left,fun h => ⟨h,fun hkey => hk hkey.2⟩⟩
  · rfl
  · rfl

theorem leaves_set {isValid : Bool} (hkeys : cache.Keyed) (hk : k≠key) :
    Leaves k (fun _ => False) cache (set cache now key isValid proofId) := by
  refine leaves_of (fun h => ?_) (fun h p => ?_) (fun _ => id)
  · unfold set at h ⊢
    rw [held_addNamed,held_store,if_neg hk] at h ⊢
    exact held_makeRoom hkeys h
  · unfold set
    rw [indexed_addNamed]
    have hroom : ((makeRoom cache key proofId).store key
        ⟨isValid,now+if isValid then cache.positiveTtl else cache.negativeTtl⟩).Indexed p k ↔
        cache.Indexed p k := indexed_makeRoom hk
    rw [hroom]
    exact ⟨fun h => h.resolve_right fun hkey => hk hkey.2,Or.inl⟩

theorem entries_invalidate : (invalidate cache key proofId).entries=(cache.pop key).entries := by
  unfold invalidate
  dsimp only
  split
  · rfl
  · split_ifs
    · rfl
    · rfl

theorem leaves_invalidate :
    Leaves k (fun _ => False) cache (invalidate cache key proofId) := by
  have hheld : (invalidate cache key proofId).held k=(cache.pop key).held k :=
    congrArg (List.lookup k) entries_invalidate
  refine leaves_of (fun h => ?_) (fun h p => ?_) (fun _ => id)
  · rw [hheld] at h ⊢
    exact held_pop_eq h
  · have hk : k≠key := by
      rintro rfl
      rw [hheld,held_pop,if_pos rfl] at h
      exact h rfl
    unfold invalidate
    dsimp only
    split
    · rfl
    · rename_i p' _
      split_ifs
      · rfl
      · show k∈keysOf (dropEmpty (discard cache.proofKeys p' key) p') p ↔ _
        rw [keysOf_dropEmpty,keysOf_discard]
        split_ifs with hp
        · rw [Finset.mem_erase,hp]
          exact ⟨And.right,fun h => ⟨hk,h⟩⟩
        · rfl

theorem held_filter {drop : Finset κ} :
    ({ cache with entries := cache.entries.filter (·.1∉drop) } : Cache κ).held k =
      if k∈drop then none else cache.held k := by
  unfold Cache.held
  have hentries : (Dict.remove cache.entries drop.toList).lookup k =
      if k∈drop.toList then none else cache.entries.lookup k := Dict.lookup_remove
  simpa only [Dict.remove,Finset.mem_toList] using hentries

theorem held_invalidateProof : (invalidateProof cache p).held k =
    if k∈keysOf cache.proofKeys p then none else cache.held k := held_filter

theorem leaves_invalidateProof :
    Leaves k (fun _ => False) cache (invalidateProof cache p) := by
  refine leaves_of (fun h => ?_) (fun h p' => ?_) (fun _ => id)
  · rw [held_invalidateProof] at h ⊢
    split_ifs at h ⊢
    · exact absurd rfl h
    · rfl
  · have hk : k∉keysOf cache.proofKeys p := by
      intro hk
      rw [held_invalidateProof,if_pos hk] at h
      exact h rfl
    show k∈keysOf (Dict.remove cache.proofKeys [p]) p' ↔ k∈keysOf cache.proofKeys p'
    rw [keysOf_remove]
    split_ifs with hp
    · rw [hp]
      exact ⟨fun h => absurd h (Finset.notMem_empty k),fun h => absurd h hk⟩
    · rfl

theorem leaves_perform (hkeys : cache.Keyed) (hset : setsKey fns k call=none) :
    Leaves k (fun p => Serves fns k p cache call) cache (perform fns cache call) := by
  obtain ⟨now,op⟩ := call
  have hother : (∀ query proofId, op≠.get query proofId) →
      (fun p => Serves fns k p cache ⟨now,op⟩)=fun _ => False := by
    intro hop
    funext p
    refine eq_false ?_
    rintro ⟨query,proofId,heq,-⟩
    exact hop query proofId heq
  cases op with
  | get query proofId =>
    have hserved : (fun p => Serves fns k p cache ⟨now,.get query proofId⟩) =
        fun p => getCacheKey fns query=k ∧ named proofId=some p ∧ Live cache k now := by
      funext p
      refine propext ⟨?_,?_⟩
      · rintro ⟨_,_,hop,hkey,hnamed,hres⟩
        cases hop
        exact ⟨hkey,hnamed,get_answers_iff.1 hres⟩
      · rintro ⟨hkey,hnamed,hlive⟩
        exact ⟨query,proofId,rfl,hkey,hnamed,get_answers_iff.2 hlive⟩
    rw [hserved]
    exact leaves_get
  | set query isValid proofId =>
    rw [hother (fun _ _ => Op.noConfusion)]
    apply leaves_set hkeys
    rintro rfl
    have hsets : setsKey fns _ ⟨now,.set query isValid proofId⟩=some proofId := if_pos rfl
    rw [hsets] at hset
    cases hset
  | invalidate query proofId =>
    rw [hother (fun _ _ => Op.noConfusion)]
    exact leaves_invalidate
  | invalidateProof p =>
    rw [hother (fun _ _ => Op.noConfusion)]
    exact leaves_invalidateProof
  | clear =>
    rw [hother (fun _ _ => Op.noConfusion)]
    exact leaves_of (fun h => absurd rfl h) (fun h => absurd rfl h) (fun _ => id)

theorem set_indexes {isValid : Bool} (h : named proofId=some p) :
    (set cache now key isValid proofId).Indexed p key := by
  unfold set
  rw [indexed_addNamed]
  exact .inr ⟨h,rfl⟩

theorem indexed_makeRoom_imp (h : (makeRoom cache key proofId).Indexed p k) :
    cache.Indexed p k := by
  unfold makeRoom at h
  split_ifs at h
  · exact (indexed_discardNamed.1 h).1
  · exact h
  · exact h

theorem indexed_unnamed (h : (perform fns cache call).Indexed [] k) : cache.Indexed [] k := by
  obtain ⟨now,op⟩ := call
  cases op with
  | get query proofId =>
    replace h : (get cache now (getCacheKey fns query) proofId).1.Indexed [] k := h
    by_cases hlive : Live cache (getCacheKey fns query) now
    · obtain ⟨entry,hheld,hnow⟩ := hlive
      rw [get_live hheld hnow] at h
      exact (indexed_discardNamed.1 h).1
    · rcases get_not_live proofId hlive with ⟨heq,-⟩ | heq
      · rw [heq] at h
        exact h
      · rw [heq] at h
        exact h
  | set query isValid proofId =>
    rcases indexed_addNamed.1 h with hroom | ⟨hnamed,-⟩
    · exact indexed_makeRoom_imp hroom
    · exact absurd rfl (named_eq_some.1 hnamed).2
  | invalidate query proofId =>
    replace h : (invalidate cache (getCacheKey fns query) proofId).Indexed [] k := h
    unfold invalidate at h
    dsimp only at h
    split at h
    · exact h
    · rename_i p' hnamed
      split_ifs at h
      · exact h
      · have hne : []≠p' := (named_eq_some.1 hnamed).2.symm
        replace h : k∈keysOf (dropEmpty (discard cache.proofKeys p' _) p') [] := h
        rw [keysOf_dropEmpty,keysOf_discard,if_neg hne] at h
        exact h
  | invalidateProof p =>
    replace h : k∈keysOf (Dict.remove cache.proofKeys [p]) [] := h
    rw [keysOf_remove] at h
    split_ifs at h
    · exact absurd h (Finset.notMem_empty k)
    · exact h
  | clear => exact absurd h (Finset.notMem_empty k)

theorem length_pop (h : cache.held key≠none) :
    (cache.pop key).entries.length<cache.entries.length := by
  have hmem : ∃ e∈cache.entries, e.1=key := by
    cases hheld : cache.held key with
    | none => exact absurd hheld h
    | some entry => exact ⟨_,Dict.mem_of_lookup hheld,rfl⟩
  obtain ⟨e,he,hkey⟩ := hmem
  refine length_filter_lt_length_iff_exists.2 ⟨e,he,?_⟩
  simp [hkey]

/-- The cache holds at most `n` entries, under different keys, and is made for so many. -/
structure Cache.Bounded (n : Nat) (cache : Cache κ) : Prop where
  keyed : cache.Keyed
  maxSize : cache.maxSize = n
  length_le : cache.entries.length ≤ n

variable {n : Nat}

omit [DecidableEq κ] in
theorem Cache.Keyed.sublist {after : Cache κ} (h : cache.Keyed)
    (hentries : after.entries.Sublist cache.entries) : after.Keyed :=
  List.Nodup.sublist (hentries.map _) h

omit [DecidableEq κ] in
theorem Cache.Bounded.sublist {after : Cache κ} (h : cache.Bounded n)
    (hmax : after.maxSize=cache.maxSize) (hentries : after.entries.Sublist cache.entries) :
    after.Bounded n :=
  ⟨h.keyed.sublist hentries,hmax.trans h.maxSize,hentries.length_le.trans h.length_le⟩

theorem maxSize_discardNamed : (cache.discardNamed proofId key).maxSize=cache.maxSize := by
  unfold Cache.discardNamed
  split
  · rfl
  · rfl

theorem maxSize_addNamed : (cache.addNamed proofId key).maxSize=cache.maxSize := by
  unfold Cache.addNamed
  split
  · rfl
  · rfl

theorem pop_sublist : (cache.pop key).entries.Sublist cache.entries := filter_sublist

theorem bounded_store (key : κ) (entry : Entry) (hkeys : cache.Keyed) (hmax : cache.maxSize=n)
    (hroom : cache.entries.length<n) : (cache.store key entry).Bounded n := by
  have hlen := Dict.length_set_le cache.entries key entry
  exact ⟨Dict.nodup_keys_set hkeys,hmax,hlen.trans hroom⟩

theorem bounded_get (h : cache.Bounded n) : (get cache now key proofId).1.Bounded n := by
  by_cases hlive : Live cache key now
  · obtain ⟨entry,hheld,hnow⟩ := hlive
    rw [get_live hheld hnow]
    have hpop : (cache.pop key).entries.length<cache.entries.length :=
      length_pop (by rw [hheld]; simp)
    apply bounded_store
    · unfold Cache.Keyed
      rw [entries_discardNamed]
      exact h.keyed.sublist pop_sublist
    · rw [maxSize_discardNamed]
      exact h.maxSize
    · rw [entries_discardNamed]
      exact hpop.trans_le h.length_le
  · rcases get_not_live proofId hlive with ⟨heq,-⟩ | heq
    · rw [heq]
      exact h
    · rw [heq]
      exact h.sublist rfl pop_sublist

theorem makeRoom_room (key : κ) (proofId : Option Text) (hn : 1≤n) (h : cache.Bounded n) :
    (makeRoom cache key proofId).Keyed ∧ (makeRoom cache key proofId).maxSize=n ∧
      (makeRoom cache key proofId).entries.length<n := by
  unfold makeRoom
  have hmax := h.maxSize
  have hlen := h.length_le
  split_ifs with hheld hfull
  · have hpop : (cache.pop key).entries.length<cache.entries.length :=
      length_pop fun hnone => by simp [show cache.entries.lookup key=none from hnone] at hheld
    unfold Cache.Keyed
    rw [maxSize_discardNamed,entries_discardNamed]
    exact ⟨h.keyed.sublist pop_sublist,hmax,by omega⟩
  · refine ⟨h.keyed.sublist (tail_sublist _),hmax,?_⟩
    rw [length_tail]
    omega
  · exact ⟨h.keyed,hmax,by omega⟩

theorem bounded_set {isValid : Bool} (hn : 1≤n) (h : cache.Bounded n) :
    (set cache now key isValid proofId).Bounded n := by
  obtain ⟨hkeys,hmax,hroom⟩ := makeRoom_room key proofId hn h
  have hstored := bounded_store key
    ⟨isValid,now+if isValid then cache.positiveTtl else cache.negativeTtl⟩ hkeys hmax hroom
  apply hstored.sublist maxSize_addNamed
  rw [entries_addNamed]

theorem bounded_invalidate (h : cache.Bounded n) : (invalidate cache key proofId).Bounded n := by
  apply h.sublist
  · unfold invalidate
    dsimp only
    split
    · rfl
    · split_ifs
      · rfl
      · rfl
  · rw [entries_invalidate]
    exact pop_sublist

theorem bounded_perform (hn : 1≤n) (h : cache.Bounded n) :
    (perform fns cache call).Bounded n := by
  obtain ⟨now,op⟩ := call
  cases op with
  | get query proofId => exact bounded_get h
  | set query isValid proofId => exact bounded_set hn h
  | invalidate query proofId => exact bounded_invalidate h
  | invalidateProof p => exact h.sublist rfl filter_sublist
  | clear => exact h.sublist rfl (nil_sublist _)

def lastSet (fns : KeyFunctions κ) (k : κ) (tr : List (Event (World κ) Call)) :
    Option (Option Text) :=
  tr.findSome? fun e => setsKey fns k e.label

def Unserved (fns : KeyFunctions κ) (k : κ) (p : Text) (tr : List (Event (World κ) Call)) : Prop :=
  ∀ e ∈ tr.takeWhile fun e => (setsKey fns k e.label).isNone, ¬ Serves fns k p e.pre.cache e.label

def World.start (maxSize : Nat) (positiveTtl negativeTtl clock : ℚ) : World κ :=
  ⟨{ maxSize, positiveTtl, negativeTtl },clock⟩

/-- A key whose latest set named a proof is in the index under that proof for as long as it is
held, unless it was served under that proof. -/
structure Consistent (fns : KeyFunctions κ) (tr : List (Event (World κ) Call)) (cache : Cache κ) :
    Prop where
  indexed : ∀ k p, p ≠ [] → lastSet fns k tr = some (some p) → cache.held k ≠ none →
    (cache.Indexed p k ↔ Unserved fns k p tr)
  unnamed : ∀ k, ¬ cache.Indexed [] k

variable {tr : List (Event (World κ) Call)} {w w' : World κ} {e : Event (World κ) Call}

theorem lastSet_cons_set {proofId : Option Text} (h : setsKey fns k e.label=some proofId) :
    lastSet fns k (e::tr)=some proofId := by
  rw [lastSet,List.findSome?_cons,h]

theorem lastSet_cons_other (h : setsKey fns k e.label=none) :
    lastSet fns k (e::tr)=lastSet fns k tr := by
  rw [lastSet,List.findSome?_cons,h]
  rfl

theorem unserved_cons_set {proofId : Option Text} (h : setsKey fns k e.label=some proofId) :
    Unserved fns k p (e::tr) := by
  intro e' he'
  rw [takeWhile_cons_of_neg (by simp [h])] at he'
  cases he'

theorem unserved_cons_other (h : setsKey fns k e.label=none) : Unserved fns k p (e::tr) ↔
    ¬ Serves fns k p e.pre.cache e.label ∧ Unserved fns k p tr := by
  unfold Unserved
  rw [takeWhile_cons_of_pos (by simp [h]),forall_mem_cons]

/-- A call that sets a key leaves it in the index under the proof it names. -/
theorem indexed_of_sets (h : setsKey fns k call=some (some p)) (hp : p≠[]) :
    (perform fns cache call).Indexed p k := by
  obtain ⟨now,op⟩ := call
  cases op with
  | set query isValid proofId =>
    unfold setsKey at h
    dsimp only at h
    split_ifs at h with hk
    cases h
    rw [← hk]
    exact set_indexes (named_eq_some.2 ⟨rfl,hp⟩)
  | _ => cases h

theorem consistent_step (hkeys : w.cache.Keyed) (hi : Consistent fns tr w.cache)
    (hst : Step fns w call w') : Consistent fns (⟨w,call,w'⟩::tr) w'.cache := by
  obtain ⟨-,rfl⟩ := hst
  refine ⟨fun k p hp hlast hheld => ?_,fun k h => hi.unnamed k (indexed_unnamed h)⟩
  cases hset : setsKey fns k call with
  | some proofId =>
    have hnamed : proofId=some p := by
      rw [lastSet_cons_set (e := ⟨w,call,_⟩) hset] at hlast
      exact Option.some.inj hlast
    have hunserved : Unserved fns k p (⟨w,call,⟨perform fns w.cache call,call.now⟩⟩::tr) :=
      unserved_cons_set hset
    rw [hnamed] at hset
    exact ⟨fun _ => hunserved,fun _ => indexed_of_sets hset hp⟩
  | none =>
    have hleaves := leaves_perform hkeys hset
    have hlast' : lastSet fns k tr=some (some p) := by
      rwa [lastSet_cons_other (e := ⟨w,call,_⟩) hset] at hlast
    have hbefore := hi.indexed k p hp hlast' (hleaves.held hheld ▸ hheld)
    rw [hleaves.indexed hheld p,hbefore,unserved_cons_other hset]
    exact And.comm

theorem run_consistent {positiveTtl negativeTtl clock : ℚ} (hn : 1≤n)
    (hrun : Run (Step fns) (World.start n positiveTtl negativeTtl clock) tr w) :
    w.cache.Bounded n ∧ Consistent fns tr w.cache := by
  refine Run.invariant (C := fun _ => True)
    (I := fun tr w => w.cache.Bounded n ∧ Consistent fns tr w.cache) ?_ ?_ hrun
    (fun _ _ => trivial)
  · refine ⟨⟨nodup_nil,rfl,Nat.zero_le n⟩,?_,fun k => Finset.notMem_empty k⟩
    intro k p _ hlast
    cases hlast
  · intro tr w call w' _ hi hst _
    have hconsistent := consistent_step hi.1.keyed hi.2 hst
    obtain ⟨-,rfl⟩ := hst
    exact ⟨bounded_perform hn hi.1,hconsistent⟩

theorem not_live_step (hkeys : w.cache.Keyed) (h : ¬ Live w.cache k w.clock)
    (hst : Step fns w call w') (hset : setsKey fns k call=none) :
    ¬ Live w'.cache k w'.clock := by
  obtain ⟨hclock,rfl⟩ := hst
  rintro ⟨entry,hheld,hnow⟩
  have hsame := (leaves_perform hkeys hset).held (by rw [hheld]; simp)
  exact h ⟨entry,hsame.symm.trans hheld,lt_of_le_of_lt hclock hnow⟩

def Forgotten (fns : KeyFunctions κ) (k : κ) (w : World κ) : Prop :=
  ∀ tr w', Run (Step fns) w tr w' → (∀ e ∈ tr, setsKey fns k e.label = none) →
    ∀ now, w'.clock ≤ now → ∀ proofId, (get w'.cache now k proofId).2 = none

theorem forgotten_iff (hn : 1≤n) (hbounded : w.cache.Bounded n) :
    Forgotten fns k w ↔ ¬ Live w.cache k w.clock := by
  constructor
  · intro h hlive
    have hnone := h [] w Run.nil (by simp) w.clock (le_refl _) none
    exact get_answers_iff.2 hlive hnone
  · intro h tr w' hrun hset now hclock proofId
    have hkept := Run.throughout (C := fun e => setsKey fns k e.label=none)
      (I := fun w => w.cache.Bounded n ∧ ¬ Live w.cache k w.clock) ⟨hbounded,h⟩ ?_ hrun hset
    · by_contra hres
      obtain ⟨entry,hheld,hnow⟩ := get_answers_iff.1 hres
      exact hkept.2.2 ⟨entry,hheld,lt_of_le_of_lt hclock hnow⟩
    · intro w call w' hi hst hother
      have hlive := not_live_step hi.1.keyed hi.2 hst hother
      obtain ⟨-,rfl⟩ := hst
      exact ⟨bounded_perform hn hi.1,hlive⟩

theorem live_invalidateProof : Live (invalidateProof cache p) k now ↔
    ¬ cache.Indexed p k ∧ Live cache k now := by
  unfold Live
  rw [held_invalidateProof]
  split_ifs with hk
  · constructor
    · rintro ⟨_,hheld,-⟩
      cases hheld
    · exact fun h => absurd hk h.1
  · exact ⟨fun h => ⟨hk,h⟩,And.right⟩

theorem invalidated_proof_forgotten_iff {positiveTtl negativeTtl clock : ℚ} (hn : 1 ≤ n)
    (hrun : Run (Step fns) (World.start n positiveTtl negativeTtl clock) tr w) :
    w.cache.entries.length ≤ n ∧
      ∀ k p, lastSet fns k tr = some (some p) → ∀ now w', Step fns w ⟨now,.invalidateProof p⟩ w' →
        (Forgotten fns k w' ↔ (p ≠ [] ∧ Unserved fns k p tr) ∨ ¬ Live w.cache k now) := by
  obtain ⟨hbounded,hconsistent⟩ := run_consistent hn hrun
  refine ⟨hbounded.length_le,?_⟩
  rintro k p hlast now w' ⟨hclock,rfl⟩
  have hafter : (perform fns w.cache ⟨now,.invalidateProof p⟩).Bounded n :=
    bounded_perform hn hbounded
  have hforgotten : Forgotten fns k ⟨invalidateProof w.cache p,now⟩ ↔
      ¬ Live (invalidateProof w.cache p) k now := forgotten_iff hn hafter
  refine hforgotten.trans ?_
  rw [live_invalidateProof,not_and_or,not_not]
  by_cases hk : Live w.cache k now
  · have hheld : w.cache.held k≠none := by
      obtain ⟨entry,hheld,-⟩ := hk
      rw [hheld]
      simp
    have hindexed : w.cache.Indexed p k ↔ p≠[] ∧ Unserved fns k p tr := by
      constructor
      · intro hindexed
        have hp : p≠[] := by
          rintro rfl
          exact hconsistent.unnamed k hindexed
        exact ⟨hp,(hconsistent.indexed k p hp hlast hheld).1 hindexed⟩
      · rintro ⟨hp,hunserved⟩
        exact (hconsistent.indexed k p hp hlast hheld).2 hunserved
    rw [hindexed]
  · exact ⟨fun _ => .inr hk,fun _ => .inr hk⟩

def sampleFns : KeyFunctions Nat := ⟨id,List.length⟩

def sampleQuery : Query := ⟨['d'],['n'],['1'],['1'],['a'],['b']⟩

def sampleKey : Nat := getCacheKey sampleFns sampleQuery

def sampleProof : Text := ['p']

def World.after (w : World Nat) (call : Call) : World Nat :=
  ⟨perform sampleFns w.cache call,call.now⟩

def sampleSet : Call := ⟨1,.set sampleQuery true (some sampleProof)⟩

def sampleGet : Call := ⟨2,.get sampleQuery (some sampleProof)⟩

def sampleInvalidation : Call := ⟨3,.invalidateProof sampleProof⟩

def sampleStored : World Nat := (World.start 1 10 10 0).after sampleSet

theorem step_sampleSet : Step sampleFns (World.start 1 10 10 0) sampleSet sampleStored :=
  ⟨show (0 : ℚ)≤1 by decide,rfl⟩

theorem step_sampleGet : Step sampleFns sampleStored sampleGet (sampleStored.after sampleGet) :=
  ⟨show (1 : ℚ)≤2 by decide,rfl⟩

theorem setsKey_sampleSet : setsKey sampleFns sampleKey sampleSet=some (some sampleProof) := by
  decide +kernel

theorem stored_proof_forgotten : sampleStored.cache.entries.length ≤ 1 ∧
    Forgotten sampleFns sampleKey (sampleStored.after sampleInvalidation) := by
  have hsize := invalidated_proof_forgotten_iff (Nat.le_refl 1) (Run.nil.snoc step_sampleSet)
  refine ⟨hsize.1,(hsize.2 sampleKey sampleProof (lastSet_cons_set setsKey_sampleSet) 3 _
    ⟨show (1 : ℚ)≤3 by decide,rfl⟩).2 (.inl ⟨by decide,?_⟩)⟩
  exact unserved_cons_set setsKey_sampleSet

/-- A get in between takes the key out of the index, and the result outlives its proof. -/
theorem served_result_survives : ∃ tr w w', Run (Step sampleFns) (World.start 1 10 10 0) tr w ∧
    lastSet sampleFns sampleKey tr = some (some sampleProof) ∧
      Step sampleFns w sampleInvalidation w' ∧ (get w'.cache 3 sampleKey none).2 = some true := by
  refine ⟨_,_,_,(Run.nil.snoc step_sampleSet).snoc step_sampleGet,?_,⟨?_,rfl⟩,?_⟩
  · exact (lastSet_cons_other rfl).trans (lastSet_cons_set setsKey_sampleSet)
  · show (2 : ℚ)≤3
    decide
  · decide +kernel

end Harpocrates.Backend.VerifierCache
