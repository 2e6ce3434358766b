import Mathlib.Logic.Function.Basic

namespace Framework

/-- A table `rows` of records and an index from one attribute of a record back to its
row are inverse to each other. -/
structure Indexed {K R V : Type} (attr : R → V) (rows : K → Option R) (index : V → Option K) :
    Prop where
  indexed : ∀ k r, rows k = some r → index (attr r) = some k
  backed : ∀ v k, index v = some k → ∃ r, rows k = some r ∧ attr r = v

namespace Indexed

open Function

variable {K R V : Type} {attr : R → V} {rows : K → Option R} {index : V → Option K}

theorem empty : Indexed attr (fun _ : K => none) (fun _ => none) where
  indexed _ _ h := by simp at h
  backed _ _ h := by simp at h

theorem attr_injective (h : Indexed attr rows index) {k k' : K} {r r' : R}
    (hk : rows k=some r) (hk' : rows k'=some r') (ha : attr r=attr r') : k=k' := by
  have h1 := h.indexed k r hk
  rw [ha,h.indexed k' r' hk'] at h1
  exact (Option.some.inj h1).symm

theorem lookup (h : Indexed attr rows index) {v : V} {k : K} {r : R} (hv : index v=some k)
    (hk : rows k=some r) : attr r=v := by
  obtain ⟨r',hr',ha⟩ := h.backed v k hv
  obtain rfl : r'=r := Option.some.inj (hr'.symm.trans hk)
  exact ha

theorem of_map {R' : Type} {f : R → R'} {attr' : R' → V} (hf : ∀ r, attr' (f r)=attr r)
    (h : Indexed attr' (fun k => (rows k).map f) index) : Indexed attr rows index where
  indexed := by
    intro k r hr
    rw [← hf]
    exact h.indexed k (f r) (by simp [hr])
  backed := by
    intro v k hv
    obtain ⟨r',hr',ha⟩ := h.backed v k hv
    obtain ⟨r,hr,rfl⟩ := Option.map_eq_some_iff.1 hr'
    exact ⟨r,hr,by rw [← hf,ha]⟩

/-- Adding a record under a new key and with a new attribute keeps the two inverse. -/
theorem insert [DecidableEq K] [DecidableEq V] (h : Indexed attr rows index) {k : K} {r : R}
    (hk : rows k=none) (hv : index (attr r)=none) :
    Indexed attr (Function.update rows k (some r))
      (Function.update index (attr r) (some k)) where
  indexed := by
    intro k' r' h'
    by_cases he : k'=k
    · subst he
      obtain rfl : r=r' := by simpa using h'
      simp
    · rw [update_of_ne he] at h'
      have hi := h.indexed k' r' h'
      have hne : attr r'≠attr r := by
        intro ha
        rw [ha,hv] at hi
        cases hi
      rw [update_of_ne hne,hi]
  backed := by
    intro v k' h'
    by_cases he : v=attr r
    · subst he
      obtain rfl : k=k' := by simpa using h'
      exact ⟨r,by simp,rfl⟩
    · rw [update_of_ne he] at h'
      obtain ⟨r',hr',ha⟩ := h.backed v k' h'
      have hne : k'≠k := by
        intro heq
        subst heq
        rw [hk] at hr'
        cases hr'
      exact ⟨r',by rw [update_of_ne hne,hr'],ha⟩

end Indexed

end Framework
