import Mathlib.Data.List.Basic
import Mathlib.Logic.Function.Basic

namespace Framework

/-- A log kept as a counter and numbered entries stands for a list: the numbers start at
one and none of them is missing. -/
structure LogOf {E : Type} (l : List E) (count : Nat) (entry : Nat → Option E) : Prop where
  length : count = l.length
  zero : entry 0 = none
  succ : ∀ i, entry (i+1) = l[i]?

namespace LogOf

variable {E : Type} {l : List E} {count : Nat} {entry : Nat → Option E}

theorem empty : LogOf [] 0 (fun _ => (none : Option E)) where
  length := rfl
  zero := rfl
  succ _ := rfl

/-- Writing the next entry and moving the counter appends to the list. -/
theorem append (h : LogOf l count entry) (e : E) :
    LogOf (l++[e]) (count+1) (Function.update entry (count+1) (some e)) where
  length := by simp [h.length]
  zero := by simpa using h.zero
  succ := by
    intro i
    rcases Nat.lt_trichotomy i l.length with hi | hi | hi
    · have hne : i+1≠count+1 := by
        have := h.length
        omega
      rw [Function.update_of_ne hne,h.succ,List.getElem?_append_left hi]
    · rw [h.length,hi,Function.update_self,List.getElem?_concat_length]
    · have hne : i+1≠count+1 := by
        have := h.length
        omega
      rw [Function.update_of_ne hne,h.succ,List.getElem?_eq_none (Nat.le_of_lt hi)]
      have hlen : (l++[e]).length ≤ i := by
        rw [List.length_append,List.length_singleton]
        omega
      exact (List.getElem?_eq_none hlen).symm

variable {entry' : Nat → Option E}

theorem append_of (h : LogOf l count entry) {e : E} (hnew : entry' (count+1)=some e)
    (hold : ∀ i, i≠count+1 → entry' i=entry i) : LogOf (l++[e]) (count+1) entry' := by
  have hentry : entry'=Function.update entry (count+1) (some e) := by
    funext i
    by_cases hi : i=count+1
    · rw [hi,hnew,Function.update_self]
    · rw [hold i hi,Function.update_of_ne hi]
  rw [hentry]
  exact h.append e

theorem isSome_iff (h : LogOf l count entry) (i : Nat) :
    (entry i).isSome=true ↔ 1 ≤ i ∧ i≤count := by
  cases i with
  | zero => simp [h.zero]
  | succ i =>
    have hi : (l[i]?).isSome=true ↔ i<l.length := by simp
    rw [h.succ,h.length,hi]
    omega

theorem mem_iff (h : LogOf l count entry) (e : E) : e∈l ↔ ∃ i, entry i=some e := by
  rw [List.mem_iff_getElem?]
  constructor
  · intro hyp
    obtain ⟨i,hi⟩ := hyp
    exact ⟨i+1,(h.succ i).trans hi⟩
  · intro hyp
    obtain ⟨i,hi⟩ := hyp
    cases i with
    | zero =>
      rw [h.zero] at hi
      cases hi
    | succ i => exact ⟨i,(h.succ i).symm.trans hi⟩

theorem unique {l' : List E} (h : LogOf l count entry) (h' : LogOf l' count entry) : l=l' :=
  List.ext_getElem? fun i => (h.succ i).symm.trans (h'.succ i)

/-- Reading a stretch of numbers reads a stretch of the list. -/
theorem filterMap_range' (h : LogOf l count entry) (i n : Nat) :
    (List.range' i n).filterMap (fun j => entry (j+1))=(l.drop i).take n := by
  induction n generalizing i with
  | zero => simp
  | succ n ih =>
    rw [List.range'_succ,List.filterMap_cons,h.succ,ih (i+1)]
    cases hi : l[i]? with
    | none =>
      have hle : l.length ≤ i := List.getElem?_eq_none_iff.1 hi
      rw [List.drop_eq_nil_of_le hle,List.drop_eq_nil_of_le (Nat.le_succ_of_le hle)]
      simp
    | some e =>
      obtain ⟨hlt,rfl⟩ := List.getElem?_eq_some_iff.1 hi
      rw [List.drop_eq_getElem_cons hlt,List.take_succ_cons]

/-- What relates the earlier entries of the list to the later ones relates smaller numbers
to larger ones. -/
theorem ordered {R : E → E → Prop} (h : LogOf l count entry) (hl : l.Pairwise R) {i j : Nat}
    {a b : E} (hij : i<j) (ha : entry i=some a) (hb : entry j=some b) : R a b := by
  cases i with
  | zero =>
    rw [h.zero] at ha
    cases ha
  | succ i =>
    obtain ⟨j,rfl⟩ : ∃ k, j=k+1 := ⟨j-1,by omega⟩
    rw [h.succ] at ha hb
    obtain ⟨hi,rfl⟩ := List.getElem?_eq_some_iff.1 ha
    obtain ⟨hj,rfl⟩ := List.getElem?_eq_some_iff.1 hb
    exact List.pairwise_iff_getElem.1 hl i j hi hj (by omega)

/-- A longer log still has the entries of the shorter one. -/
theorem stable {l' : List E} {count' : Nat} (h : LogOf l count entry)
    (h' : LogOf l' count' entry') (hl : l <+: l') {i : Nat} {e : E} (he : entry i=some e) :
    entry' i=some e := by
  cases i with
  | zero =>
    rw [h.zero] at he
    cases he
  | succ i =>
    rw [h.succ] at he
    rw [h'.succ]
    obtain ⟨hi,-⟩ := List.getElem?_eq_some_iff.1 he
    obtain ⟨rest,rfl⟩ := hl
    rw [List.getElem?_append_left hi,he]

end LogOf

/-- A log that also knows the number of each of its entries. -/
structure Enumerates {E : Type} (l : List E) (count : Nat) (entry : Nat → Option E)
    (number : E → Option Nat) : Prop extends LogOf l count entry where
  inverse : ∀ e i, number e = some i ↔ entry i = some e

namespace Enumerates

variable {E : Type} {l : List E} {count : Nat} {entry : Nat → Option E} {number : E → Option Nat}

theorem empty : Enumerates [] 0 (fun _ => (none : Option E)) (fun _ => none) where
  toLogOf := LogOf.empty
  inverse := by simp

theorem append_of (h : Enumerates l count entry number) {number' : E → Option Nat} {e : E}
    (hfree : number e=none) (hnew : entry' (count+1)=some e)
    (hold : ∀ i, i≠count+1 → entry' i=entry i) (hnumber : number' e=some (count+1))
    (hnumbers : ∀ a, a≠e → number' a=number a) :
    Enumerates (l++[e]) (count+1) entry' number' where
  toLogOf := h.toLogOf.append_of hnew hold
  inverse := by
    have hvacant : entry (count+1)=none := by
      rw [h.succ,List.getElem?_eq_none (Nat.le_of_eq h.length.symm)]
    intro a i
    by_cases hi : i=count+1
    · subst hi
      rw [hnew,Option.some_inj]
      by_cases ha : a=e
      · subst ha
        simp [hnumber]
      · have hne : e≠a := fun heq => ha heq.symm
        simp [hnumbers a ha,h.inverse,hvacant,hne]
    · rw [hold i hi]
      by_cases ha : a=e
      · subst ha
        have hne : count+1≠i := fun heq => hi heq.symm
        rw [hnumber,← h.inverse,hfree]
        simp [hne]
      · rw [hnumbers a ha,h.inverse]

theorem nodup (h : Enumerates l count entry number) : l.Nodup := by
  refine List.pairwise_iff_getElem.2 fun i j hi hj hij heq => ?_
  have hlast : entry (j+1)=some l[j] := by
    rw [h.succ,List.getElem?_eq_getElem hj]
  have hfirst : entry (i+1)=some l[j] := by
    rw [h.succ,List.getElem?_eq_getElem hi,heq]
  have hsame := ((h.inverse _ _).2 hfirst).symm.trans ((h.inverse _ _).2 hlast)
  have := Option.some.inj hsame
  omega

end Enumerates

end Framework
