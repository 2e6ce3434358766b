import Mathlib.Data.List.Basic

namespace Framework.Dict

open List

variable {κ ν : Type} [DecidableEq κ]

def set : List (κ × ν) → κ → ν → List (κ × ν)
  | [],k,v => [(k,v)]
  | (a,b)::d,k,v => if a = k then (k,v)::d else (a,b)::set d k v

def remove (d : List (κ × ν)) (ks : List κ) : List (κ × ν) := d.filter (·.1 ∉ ks)

theorem set_fresh {d : List (κ × ν)} {k : κ} {v : ν} (h : k∉d.map (·.1)) :
    set d k v=d++[(k,v)] := by
  induction d with
  | nil => rfl
  | cons e d ih =>
    rw [map_cons,mem_cons,not_or] at h
    rw [set,if_neg (Ne.symm h.1),ih h.2]
    rfl

theorem keys_set {d : List (κ × ν)} {k : κ} {v : ν} (h : k∈d.map (·.1)) :
    (set d k v).map (·.1)=d.map (·.1) := by
  induction d with
  | nil => cases h
  | cons e d ih =>
    obtain ⟨a,b⟩ := e
    rw [set]
    by_cases ha : a=k
    · rw [if_pos ha,ha]
      rfl
    · rw [if_neg ha,map_cons,ih ((mem_cons.1 h).resolve_left (Ne.symm ha))]
      rfl

theorem nodup_keys_set {d : List (κ × ν)} {k : κ} {v : ν} (h : (d.map (·.1)).Nodup) :
    ((set d k v).map (·.1)).Nodup := by
  by_cases hk : k∈d.map (·.1)
  · rw [keys_set hk]
    exact h
  · rw [set_fresh hk,map_append,nodup_append]
    refine ⟨h,pairwise_singleton _ k,?_⟩
    rintro a ha b hb rfl
    have hak : a=k := mem_singleton.1 hb
    exact hk (hak ▸ ha)

theorem length_set_le (d : List (κ × ν)) (k : κ) (v : ν) : (set d k v).length≤d.length+1 := by
  induction d with
  | nil => exact Nat.le_refl _
  | cons e d ih =>
    rw [set]
    split_ifs
    · simp
    · simpa using ih

theorem mem_set {d : List (κ × ν)} {k : κ} {v : ν} {e : κ × ν} (h : e∈set d k v) :
    e=(k,v) ∨ e∈d := by
  induction d with
  | nil => exact .inl (mem_singleton.1 h)
  | cons e' d ih =>
    obtain ⟨a,b⟩ := e'
    rw [set] at h
    split at h
    · rcases mem_cons.1 h with rfl | hmem
      · exact .inl rfl
      · exact .inr (mem_cons_of_mem _ hmem)
    · rcases mem_cons.1 h with rfl | hmem
      · exact .inr mem_cons_self
      · exact (ih hmem).imp_right (mem_cons_of_mem _)

variable [BEq κ] [LawfulBEq κ] {d : List (κ × ν)} {k k' a : κ} {v b : ν}

theorem lookup_cons : ((a,b)::d).lookup k=if k=a then some b else d.lookup k := by
  by_cases h : k=a
  · simp [h]
  · have hbeq : (k == a)=false := by simpa using h
    rw [List.lookup_cons,hbeq,if_neg h]

theorem mem_of_lookup (h : d.lookup k=some v) : (k,v)∈d := by
  induction d with
  | nil => cases h
  | cons e d ih =>
    obtain ⟨a,b⟩ := e
    rw [lookup_cons] at h
    split at h
    · rename_i hk
      cases h
      rw [hk]
      exact mem_cons_self
    · exact mem_cons_of_mem _ (ih h)

theorem lookup_of_mem (h : k∈d.map (·.1)) : ∃ v, d.lookup k=some v := by
  induction d with
  | nil => cases h
  | cons e d ih =>
    obtain ⟨a,b⟩ := e
    rw [lookup_cons]
    split
    · exact ⟨b,rfl⟩
    · rename_i hk
      exact ih ((mem_cons.1 h).resolve_left hk)

theorem lookup_eq_of_mem (hkeys : (d.map (·.1)).Nodup) (h : (k,v)∈d) : d.lookup k=some v := by
  induction d with
  | nil => cases h
  | cons e d ih =>
    obtain ⟨a,b⟩ := e
    rw [map_cons,nodup_cons] at hkeys
    rw [lookup_cons]
    rcases mem_cons.1 h with heq | hmem
    · cases heq
      exact if_pos rfl
    · have hne : k≠a := by
        rintro rfl
        exact hkeys.1 (mem_map.2 ⟨(k,v),hmem,rfl⟩)
      rw [if_neg hne,ih hkeys.2 hmem]

theorem lookup_eq_none (h : k∉d.map (·.1)) : d.lookup k=none := by
  cases hlookup : d.lookup k with
  | none => rfl
  | some v => exact absurd (mem_map_of_mem (mem_of_lookup hlookup)) h

theorem lookup_set : (set d k v).lookup k'=if k'=k then some v else d.lookup k' := by
  induction d with
  | nil => rw [set,lookup_cons]
  | cons e d ih =>
    obtain ⟨a,b⟩ := e
    rw [set]
    by_cases ha : a=k
    · rw [if_pos ha,lookup_cons,lookup_cons,ha]
      split
      · rfl
      · rfl
    · rw [if_neg ha,lookup_cons,lookup_cons,ih]
      by_cases hk : k'=a
      · rw [if_pos hk,if_neg (fun heq => ha (hk.symm.trans heq)),if_pos hk]
      · rw [if_neg hk,if_neg hk]

theorem lookup_remove {ks : List κ} :
    (remove d ks).lookup k=if k∈ks then none else d.lookup k := by
  unfold remove
  induction d with
  | nil => simp
  | cons e d ih =>
    obtain ⟨a,b⟩ := e
    by_cases ha : a∈ks
    · rw [filter_cons_of_neg (by simpa using ha),ih,lookup_cons]
      by_cases hk : k=a
      · rw [hk,if_pos ha,if_pos ha]
      · rw [if_neg hk]
    · rw [filter_cons_of_pos (by simpa using ha),lookup_cons,lookup_cons,ih]
      by_cases hk : k=a
      · rw [if_pos hk,if_pos hk,hk,if_neg ha]
      · rw [if_neg hk,if_neg hk]

end Framework.Dict
