import Mathlib.Data.List.Nodup
import Mathlib.Order.Lattice

namespace Framework

/-- A finite map, as the list of its entries in the order of the keys. -/
structure SortedMap (κ ν : Type) [LinearOrder κ] where
  entries : List (κ × ν)
  sorted : entries.Pairwise fun a b => a.1 < b.1

namespace SortedMap

variable {κ ν : Type} [LinearOrder κ] {m m' : SortedMap κ ν} {k k' : κ} {v v' : ν}

def empty : SortedMap κ ν := ⟨[],List.Pairwise.nil⟩

def insert (m : SortedMap κ ν) (k : κ) (v : ν) : SortedMap κ ν where
  entries := m.entries.filter (fun e => e.1 < k)++(k,v)::m.entries.filter (fun e => k < e.1)
  sorted := by
    refine List.pairwise_append.2 ⟨m.sorted.filter _,List.pairwise_cons.2 ⟨?_,m.sorted.filter _⟩,?_⟩
    · intro e he
      simpa using (List.mem_filter.1 he).2
    · intro a ha b hb
      have hlow : a.1 < k := by simpa using (List.mem_filter.1 ha).2
      rcases List.mem_cons.1 hb with rfl | hb
      · exact hlow
      · have hhigh : k < b.1 := by simpa using (List.mem_filter.1 hb).2
        exact lt_trans hlow hhigh

def erase (m : SortedMap κ ν) (k : κ) : SortedMap κ ν where
  entries := m.entries.filter fun e => e.1 ≠ k
  sorted := m.sorted.filter _

def values (m : SortedMap κ ν) : List ν := m.entries.map (·.2)

instance : Membership (κ × ν) (SortedMap κ ν) := ⟨fun m e => e ∈ m.entries⟩

@[simp] theorem mem_erase : (k',v)∈m.erase k ↔ k'≠k ∧ (k',v)∈m := by
  change (k',v)∈m.entries.filter (fun e => e.1≠k) ↔ _ ∧ (k',v)∈m.entries
  rw [List.mem_filter]
  simp [and_comm]

theorem ext_mem (h : ∀ k v, (k,v)∈m ↔ (k,v)∈m') : m=m' := by
  have hnodup : ∀ m : SortedMap κ ν, m.entries.Nodup := fun m =>
    m.sorted.imp fun {a b} hlt heq => absurd (congrArg Prod.fst heq) (ne_of_lt hlt)
  have hperm : m.entries.Perm m'.entries :=
    (List.perm_ext_iff_of_nodup (hnodup m) (hnodup m')).2 fun e => h e.1 e.2
  have hentries : m.entries=m'.entries :=
    hperm.eq_of_pairwise (fun a b _ _ hab hba => absurd hab (not_lt_of_gt hba)) m.sorted m'.sorted
  obtain ⟨entries,_⟩ := m
  obtain ⟨entries',_⟩ := m'
  obtain rfl : entries=entries' := hentries
  rfl

theorem erase_eq_self_iff : m.erase k=m ↔ ∀ v, (k,v)∉m := by
  constructor
  · intro h v hmem
    rw [← h] at hmem
    exact (mem_erase.1 hmem).1 rfl
  · intro h
    refine ext_mem fun k' v => ?_
    rw [mem_erase]
    refine ⟨fun hmem => hmem.2,fun hmem => ⟨?_,hmem⟩⟩
    rintro rfl
    exact h v hmem

end SortedMap

end Framework
