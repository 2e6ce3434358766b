import Mathlib.Data.List.Nodup

namespace Framework

/-- A table whose rows are numbered in the order they were added. Numbers are not used again, and
rows keep theirs when they are rewritten. -/
structure Rows (ρ : Type) where
  entries : List (Nat × ρ)
  next : Nat
  ordered : entries.Pairwise fun a b => a.1 < b.1
  numbered : ∀ e ∈ entries, e.1 < next

namespace Rows

open List

variable {ρ : Type} {t : Rows ρ} {i : Nat} {r r' : ρ}

def empty : Rows ρ := ⟨[],0,List.Pairwise.nil,by simp⟩

def insert (t : Rows ρ) (r : ρ) : Rows ρ where
  entries := t.entries++[(t.next,r)]
  next := t.next+1
  ordered := by
    refine List.pairwise_append.2 ⟨t.ordered,List.pairwise_singleton _ _,?_⟩
    intro a ha b hb
    obtain rfl := List.mem_singleton.1 hb
    exact t.numbered a ha
  numbered := by
    intro e he
    rcases List.mem_append.1 he with he | he
    · exact Nat.lt_succ_of_lt (t.numbered e he)
    · obtain rfl := List.mem_singleton.1 he
      exact Nat.lt_succ_self _

/-- Rewrites every row. -/
def update (t : Rows ρ) (f : ρ → ρ) : Rows ρ where
  entries := t.entries.map fun e => (e.1,f e.2)
  next := t.next
  ordered := List.pairwise_map.2 t.ordered
  numbered := by
    intro e he
    obtain ⟨e',he',rfl⟩ := List.mem_map.1 he
    exact t.numbered e' he'

/-- Rewrites the rows under the given numbers. -/
def modifyAll (t : Rows ρ) (numbers : List Nat) (f : ρ → ρ) : Rows ρ where
  entries := t.entries.map fun e => (e.1,if e.1 ∈ numbers then f e.2 else e.2)
  next := t.next
  ordered := List.pairwise_map.2 t.ordered
  numbered := by
    intro e he
    obtain ⟨e',he',rfl⟩ := List.mem_map.1 he
    exact t.numbered e' he'

def modify (t : Rows ρ) (n : Nat) (f : ρ → ρ) : Rows ρ := t.modifyAll [n] f

/-- Deletes the rows under the given numbers. -/
def delete (t : Rows ρ) (numbers : List Nat) : Rows ρ where
  entries := t.entries.filter fun e => e.1 ∉ numbers
  next := t.next
  ordered := t.ordered.filter _
  numbered e he := t.numbered e (List.mem_filter.1 he).1

def insertAll (t : Rows ρ) (l : List ρ) : Rows ρ := l.foldl insert t

def row (t : Rows ρ) (n : Nat) : Option ρ := (t.entries.find? fun e => e.1 = n).map (·.2)

instance : Membership (Nat × ρ) (Rows ρ) := ⟨fun t e => e ∈ t.entries⟩

instance [DecidableEq ρ] (e : Nat × ρ) (t : Rows ρ) : Decidable (e ∈ t) :=
  inferInstanceAs (Decidable (e ∈ t.entries))

variable {f : ρ → ρ}

@[simp] theorem mem_entries {e : Nat × ρ} : e∈t.entries ↔ e∈t := .rfl

@[simp] theorem not_mem_empty {e : Nat × ρ} : e∉(empty : Rows ρ) := not_mem_nil

@[simp] theorem mem_insert : (i,r')∈t.insert r ↔ (i,r')∈t ∨ i=t.next ∧ r'=r := by
  change (i,r')∈t.entries++[(t.next,r)] ↔ _
  simp

@[simp] theorem mem_update : (i,r)∈t.update f ↔ ∃ r', (i,r')∈t ∧ f r'=r := by
  change (i,r)∈t.entries.map (fun e => (e.1,f e.2)) ↔ _
  constructor
  · intro h
    obtain ⟨⟨i',r'⟩,hmem,heq⟩ := mem_map.1 h
    cases heq
    exact ⟨r',hmem,rfl⟩
  · rintro ⟨r',hmem,rfl⟩
    exact mem_map.2 ⟨(i,r'),hmem,rfl⟩

variable {numbers : List Nat} {n : Nat}

@[simp] theorem mem_modifyAll :
    (i,r)∈t.modifyAll numbers f ↔ ∃ r', (i,r')∈t ∧ (if i∈numbers then f r' else r')=r := by
  change (i,r)∈t.entries.map (fun e => (e.1,if e.1∈numbers then f e.2 else e.2)) ↔ _
  constructor
  · intro h
    obtain ⟨⟨i',r'⟩,hmem,heq⟩ := mem_map.1 h
    cases heq
    exact ⟨r',hmem,rfl⟩
  · rintro ⟨r',hmem,rfl⟩
    exact mem_map.2 ⟨(i,r'),hmem,rfl⟩

@[simp] theorem mem_modify :
    (i,r)∈t.modify n f ↔ ∃ r', (i,r')∈t ∧ (if i=n then f r' else r')=r := by
  simp [modify]

theorem mem_modify_const {old new : ρ} (h : (n,old)∈t) :
    (i,r)∈t.modify n (fun _ => new) ↔ i=n ∧ r=new ∨ i≠n ∧ (i,r)∈t := by
  rw [mem_modify]
  by_cases hi : i=n
  · subst hi
    simp only [if_true,true_and,ne_eq,not_true,false_and,or_false]
    exact ⟨fun ⟨_,_,heq⟩ => heq.symm,fun heq => ⟨old,h,heq.symm⟩⟩
  · simp [hi]

@[simp] theorem mem_delete : (i,r)∈t.delete numbers ↔ (i,r)∈t ∧ i∉numbers := by
  change (i,r)∈t.entries.filter (fun e => e.1∉numbers) ↔ _
  simp

theorem lt_next (h : (i,r)∈t) : i<t.next := t.numbered (i,r) h

theorem row_unique (h : (i,r)∈t) (h' : (i,r')∈t) : r=r' := by
  have hnodup : (t.entries.map Prod.fst).Nodup :=
    pairwise_map.2 (t.ordered.imp fun hlt => Nat.ne_of_lt hlt)
  exact (Prod.mk.inj (inj_on_of_nodup_map hnodup h h' rfl)).2

theorem row_eq_some : t.row n=some r ↔ (n,r)∈t := by
  unfold row
  rw [Option.map_eq_some_iff]
  constructor
  · rintro ⟨⟨i,r'⟩,hfind,rfl⟩
    obtain rfl : i=n := by simpa using List.find?_some hfind
    exact mem_of_find?_eq_some hfind
  · intro h
    cases hfind : t.entries.find? fun e => e.1=n with
    | none =>
      have hnone := List.find?_eq_none.1 hfind (n,r) h
      simp at hnone
    | some e =>
      obtain ⟨i,r'⟩ := e
      obtain rfl : i=n := by simpa using List.find?_some hfind
      exact ⟨_,rfl,row_unique (mem_of_find?_eq_some hfind) h⟩

theorem mem_insertAll_of_mem {l : List ρ} (h : (i,r)∈t) : (i,r)∈t.insertAll l := by
  induction l generalizing t with
  | nil => exact h
  | cons a l ih => exact ih (mem_insert.2 (.inl h))

theorem exists_mem_insertAll {l : List ρ} (h : r∈l) : ∃ i, (i,r)∈t.insertAll l := by
  induction l generalizing t with
  | nil => cases h
  | cons a l ih =>
    rcases mem_cons.1 h with rfl | h
    · have hnew : (t.next,r)∈t.insert r := mem_insert.2 (.inr ⟨rfl,rfl⟩)
      have hkept : (t.next,r)∈(t.insert r).insertAll l := mem_insertAll_of_mem hnew
      exact ⟨t.next,hkept⟩
    · exact ih h

/-- Rows that are told apart by a key stay so when rows with new keys are added. -/
theorem key_unique_insertAll {κ : Type} {key : ρ → κ} {l : List ρ}
    (ht : ∀ i j r r', (i,r)∈t → (j,r')∈t → key r=key r' → i=j) (hl : (l.map key).Nodup)
    (hnew : ∀ i r, (i,r)∈t → key r∉l.map key) {j : Nat} (hi : (i,r)∈t.insertAll l)
    (hj : (j,r')∈t.insertAll l) (hkey : key r=key r') : i=j := by
  induction l generalizing t with
  | nil => exact ht i j r r' hi hj hkey
  | cons a l ih =>
    obtain ⟨hfirst,hrest⟩ := nodup_cons.1 (map_cons ▸ hl)
    refine ih ?_ hrest ?_ hi hj
    · intro i j r r' hi hj hkey
      rcases mem_insert.1 hi with hold | ⟨rfl,rfl⟩
      · rcases mem_insert.1 hj with hold' | ⟨rfl,rfl⟩
        · exact ht i j r r' hold hold' hkey
        · exact absurd (by simp [hkey]) (hnew i r hold)
      · rcases mem_insert.1 hj with hold' | ⟨rfl,rfl⟩
        · exact absurd (by simp [hkey]) (hnew j r' hold')
        · rfl
    · intro i r hi
      rcases mem_insert.1 hi with hi | ⟨-,rfl⟩
      · exact fun hmem => hnew i r hi (mem_cons_of_mem _ hmem)
      · exact hfirst

theorem mem_insertAll {l : List ρ} (h : (i,r)∈t.insertAll l) : (i,r)∈t ∨ r∈l := by
  induction l generalizing t with
  | nil => exact .inl h
  | cons a l ih =>
    rcases ih h with hmem | hmem
    · rcases mem_insert.1 hmem with hmem | ⟨-,rfl⟩
      · exact .inl hmem
      · exact .inr mem_cons_self
    · exact .inr (mem_cons_of_mem _ hmem)

/-- A search from the start finds the row with the smallest number. -/
theorem le_of_find {p : Nat × ρ → Bool} {j : Nat} (hfind : t.entries.find? p=some (j,r))
    (h : (i,r')∈t) (hp : p (i,r')=true) : j ≤ i := by
  obtain ⟨-,before,rest,hsplit,hbefore⟩ := List.find?_eq_some_iff_append.1 hfind
  have hmem : (i,r')∈before++(j,r)::rest := hsplit ▸ h
  have hordered := t.ordered
  rw [hsplit] at hordered
  rcases mem_append.1 hmem with hmem | hmem
  · have hnot := hbefore _ hmem
    rw [hp] at hnot
    cases hnot
  rcases mem_cons.1 hmem with heq | hmem
  · exact Nat.le_of_eq (congrArg Prod.fst heq).symm
  · exact Nat.le_of_lt ((pairwise_cons.1 (pairwise_append.1 hordered).2.1).1 _ hmem)

/-- In numbered order, the first rows are those with few before them. -/
theorem mem_take_iff {l : List (Nat × ρ)} (hl : l.Pairwise fun a b => a.1<b.1) {e : Nat × ρ}
    (he : e∈l) {k : Nat} : e∈l.take k ↔ (l.filter fun a => a.1<e.1).length<k := by
  induction l generalizing k with
  | nil => cases he
  | cons a l ih =>
    obtain ⟨hfirst,hrest⟩ := pairwise_cons.1 hl
    cases k with
    | zero => simp
    | succ k =>
      rcases mem_cons.1 he with rfl | he
      · have hnone : (l.filter fun b => b.1<e.1)=[] := by
          refine filter_eq_nil_iff.2 fun b hb => ?_
          have hlt := hfirst b hb
          simp
          omega
        simp [hnone]
      · have hlt := hfirst e he
        have hne : e≠a := fun heq => absurd hlt (by rw [heq]; exact Nat.lt_irrefl _)
        simp [hlt,hne,ih hrest he]

end Rows

end Framework
