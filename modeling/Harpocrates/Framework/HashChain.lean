import Mathlib.Data.List.Basic
import Mathlib.Data.List.Induction

namespace Framework

open List

section

variable {σ α : Type} {f : σ → α → σ}

/-- A loop over a whole array in which only the rounds below a bound count goes over the first
elements only. -/
theorem foldl_zipIdx_mask (f : σ → α → σ) (n k : Nat) (s : σ) (xs : List α) :
    (xs.zipIdx k).foldl (fun s x => if x.2<n then f s x.1 else s) s =
      (xs.take (n-k)).foldl f s := by
  induction xs generalizing k s with
  | nil => simp
  | cons x xs ih =>
    rw [zipIdx_cons,foldl_cons,ih]
    by_cases hk : k<n
    · have hsucc : n-k=n-(k+1)+1 := by omega
      rw [if_pos hk,hsucc,take_succ_cons,foldl_cons]
    · have hrest : n-(k+1)=0 := by omega
      have hnone : n-k=0 := by omega
      rw [if_neg hk,hrest,hnone,take_zero,take_zero]

/-- Two chains with one end agree from the end on, as far as the shorter one goes; it starts from
a state of the other. -/
theorem foldl_peel (hinj : ∀ s a s' a', f s a=f s' a' → s=s' ∧ a=a') {s s' : σ}
    {xs ys : List α} (hlen : xs.length≤ys.length) (h : xs.foldl f s=ys.foldl f s') :
    ∃ zs, ys=zs++xs ∧ s=zs.foldl f s' := by
  induction xs using List.reverseRecOn generalizing ys with
  | nil => exact ⟨ys,by simp,h⟩
  | append_singleton xs a ih =>
    cases ys using List.reverseRecOn with
    | nil => simp at hlen
    | append_singleton ys b =>
      rw [foldl_concat,foldl_concat] at h
      obtain ⟨hstate,rfl⟩ := hinj _ _ _ _ h
      have hshort : xs.length≤ys.length := by simpa using hlen
      obtain ⟨zs,rfl,hzs⟩ := ih hshort hstate
      exact ⟨zs,by simp,hzs⟩

/-- A chain whose start is no link of a chain is determined by its end. -/
theorem foldl_inj (hinj : ∀ s a s' a', f s a=f s' a' → s=s' ∧ a=a') {s : σ}
    (hstart : ∀ s' a, f s' a≠s) {xs ys : List α} (h : xs.foldl f s=ys.foldl f s) : xs=ys := by
  have hone : ∀ {xs ys : List α}, xs.length≤ys.length → xs.foldl f s=ys.foldl f s →
      xs=ys := by
    intro xs ys hlen h
    obtain ⟨zs,rfl,hzs⟩ := foldl_peel hinj hlen h
    cases zs using List.reverseRecOn with
    | nil => rfl
    | append_singleton zs a =>
      rw [foldl_concat] at hzs
      exact absurd hzs.symm (hstart _ a)
  rcases Nat.le_total xs.length ys.length with hlen | hlen
  · exact hone hlen h
  · exact (hone hlen h.symm).symm

end

end Framework
