import Mathlib.Data.Finset.Card
import Mathlib.Data.Set.Card

namespace Framework

open Function

variable {K R : Type} {P : R → Prop} {rows : K → Option R} {n : Nat}

def rowsWith (P : R → Prop) (rows : K → Option R) : Set K := {k | ∃ r, rows k = some r ∧ P r}

/-- The table has exactly `n` rows with the property, and only finitely many of them. -/
def Counts (P : R → Prop) (rows : K → Option R) (n : Nat) : Prop := (rowsWith P rows).encard = n

theorem Counts.empty : Counts P (fun _ : K => none) 0 := by
  have none : rowsWith P (fun _ : K => none)=∅ := by
    ext k
    simp [rowsWith]
  simp [Counts,none]

variable {k : K} {r : R}

theorem Counts.pos (h : Counts P rows n) (hk : rows k=some r) (hr : P r) : 0<n := by
  rcases eq_zero_or_pos n with hn | hn
  · subst hn
    have hempty : rowsWith P rows=∅ := Set.encard_eq_zero.1 (by simpa [Counts] using h)
    have hmem : k∈rowsWith P rows := ⟨r,hk,hr⟩
    simp [hempty] at hmem
  · exact hn

def CountsBy {A : Type} (attr : R → A) (P : R → Prop) (rows : K → Option R) (counter : A → Nat) :
    Prop :=
  ∀ a, Counts (fun r => attr r = a ∧ P r) rows (counter a)

theorem CountsBy.pos {A : Type} {attr : R → A} {counter : A → Nat}
    (h : CountsBy attr P rows counter) (hk : rows k=some r) (hr : P r) : 0<counter (attr r) :=
  (h (attr r)).pos hk ⟨rfl,hr⟩

theorem length_filter_range' (f : Nat → Bool) (n : Nat) :
    (((List.range' 1 n).filter f).length : ℕ∞)=({i | f i=true} ∩ Set.Icc 1 n).encard := by
  have hnodup : ((List.range' 1 n).filter f).Nodup := List.Nodup.filter f List.nodup_range'
  have hset : {i | f i=true} ∩ Set.Icc 1 n=((List.range' 1 n).filter f).toFinset := by
    ext i
    simp [List.mem_range'_1,Nat.lt_one_add_iff,and_comm]
  rw [hset,Set.encard_coe_eq_coe_finsetCard,List.toFinset_card_of_nodup hnodup]

/-- A chain along which a positive rank falls is no longer than the rank it starts from. -/
theorem length_le_rank {α : Type} {R : α → α → Prop} {rank : α → Nat}
    (hR : ∀ a b, R a b → rank b<rank a) {a : α} {chain : List α}
    (hchain : (a::chain).IsChain R) (hpos : ∀ b∈a::chain, 0<rank b) :
    (a::chain).length≤rank a := by
  induction chain generalizing a with
  | nil => exact hpos a List.mem_cons_self
  | cons b chain ih =>
    obtain ⟨hab,hrest⟩ := List.isChain_cons_cons.1 hchain
    have hlen := ih hrest fun c hc => hpos c (List.mem_cons_of_mem _ hc)
    have hlt := hR a b hab
    rw [List.length_cons]
    omega

variable [DecidableEq K]

theorem mem_rowsWith_update {k' : K} {o : Option R} : k'∈rowsWith P (update rows k o) ↔
      k'=k ∧ (∃ r, o=some r ∧ P r) ∨ k'≠k ∧ k'∈rowsWith P rows := by
  by_cases h : k'=k
  · subst h
    simp [rowsWith]
  · simp [rowsWith,h]

theorem Counts.keep {o : Option R} (h : Counts P rows n)
    (hk : (∃ r, o=some r ∧ P r) ↔ ∃ r, rows k=some r ∧ P r) :
    Counts P (update rows k o) n := by
  have same : rowsWith P (update rows k o)=rowsWith P rows := by
    ext k'
    rw [mem_rowsWith_update,hk]
    by_cases h : k'=k
    · subst h
      simp [rowsWith]
    · simp [h]
  rw [Counts,same]
  exact h

theorem Counts.add (h : Counts P rows n) (hr : P r) (hk : ∀ r', rows k=some r' → ¬ P r') :
    Counts P (update rows k (some r)) (n+1) := by
  have new : k∉rowsWith P rows := by
    intro hmem
    obtain ⟨r',hr',hp⟩ := hmem
    exact hk r' hr' hp
  have grown : rowsWith P (update rows k (some r))=insert k (rowsWith P rows) := by
    ext k'
    rw [mem_rowsWith_update,Set.mem_insert_iff]
    by_cases h : k'=k
    · simp [h,hr]
    · simp [h]
  rw [Counts,grown,Set.encard_insert_of_notMem new,h]
  rfl

/-- A row that counts is removed, or replaced by one that does not. -/
theorem Counts.drop {o : Option R} (h : Counts P rows n) (hk : rows k=some r) (hr : P r)
    (ho : ∀ r', o=some r' → ¬ P r') : Counts P (update rows k o) (n-1) := by
  have mem : k∈rowsWith P rows := ⟨r,hk,hr⟩
  have shrunk : rowsWith P (update rows k o)=rowsWith P rows \ {k} := by
    ext k'
    rw [mem_rowsWith_update,Set.mem_sdiff,Set.mem_singleton_iff]
    by_cases h : k'=k
    · subst h
      simpa using fun r' hr' => ho r' hr'
    · simp [h]
  have hn : n-1+1=n := Nat.sub_add_cancel (h.pos hk hr)
  have total := Set.encard_sdiff_singleton_add_one mem
  rw [show (rowsWith P rows).encard=n from h,← hn] at total
  rw [Counts,shrunk]
  exact WithTop.add_right_cancel WithTop.one_ne_top total

namespace CountsBy

variable {A : Type} {attr : R → A} {counter : A → Nat}

theorem keep {r' : R} (h : CountsBy attr P rows counter) (hk : rows k=some r)
    (ha : attr r'=attr r) (hp : P r' ↔ P r) :
    CountsBy attr P (update rows k (some r')) counter := by
  intro a
  refine (h a).keep ?_
  simp [hk,ha,hp]

variable [DecidableEq A]

theorem add (h : CountsBy attr P rows counter) (hk : rows k=none) (hr : P r) :
    CountsBy attr P (update rows k (some r))
      (update counter (attr r) (counter (attr r)+1)) := by
  intro a
  by_cases ha : a=attr r
  · subst ha
    rw [update_self]
    exact (h (attr r)).add ⟨rfl,hr⟩ (by simp [hk])
  · rw [update_of_ne ha]
    refine (h a).keep ?_
    simp [hk,Ne.symm ha]

/-- A row that counts is replaced by one with the same attribute that does not. -/
theorem drop {r' : R} (h : CountsBy attr P rows counter) (hk : rows k=some r) (hr : P r)
    (ha : attr r'=attr r) (hr' : ¬ P r') : CountsBy attr P (update rows k (some r'))
      (update counter (attr r) (counter (attr r)-1)) := by
  intro a
  by_cases heq : a=attr r
  · subst heq
    rw [update_self]
    exact (h (attr r)).drop hk ⟨rfl,hr⟩ (by simp [hr'])
  · rw [update_of_ne heq]
    refine (h a).keep ?_
    simp [hk,ha,Ne.symm heq]

end CountsBy

section

variable {α β : Type} {f : α → β} {times : α → Nat} {l : List α}

theorem foldl_succ_count [BEq α] (a : α) (l : List α) (n : Nat) :
    l.foldl (fun m b => if b == a then m+1 else m) n=n+l.count a := by
  induction l generalizing n with
  | nil => simp
  | cons b l ih =>
    rw [List.foldl_cons,ih,List.count_cons]
    by_cases hb : (b == a)=true
    · rw [if_pos hb,if_pos hb]
      omega
    · rw [if_neg hb,if_neg hb,Nat.add_zero]

theorem foldl_append_count [BEq α] (a : α) (l : List α) (x : β) (xs : List β) :
    l.foldl (fun ys b => if b == a then ys++[x] else ys) xs =
      xs++List.replicate (l.count a) x := by
  induction l generalizing xs with
  | nil => simp
  | cons b l ih =>
    rw [List.foldl_cons,ih,List.count_cons]
    by_cases hb : (b == a)=true
    · rw [if_pos hb,if_pos hb,List.replicate_succ,List.append_assoc,List.singleton_append]
    · rw [if_neg hb,if_neg hb,Nat.add_zero]

theorem flatMap_replicate_of_le_one (h : ∀ a∈l, times a≤1) :
    l.flatMap (fun a => List.replicate (times a) (f a)) =
      (l.filter fun a => decide (0<times a)).map f := by
  induction l with
  | nil => rfl
  | cons a l ih =>
    have hrest := ih fun b hb => h b (List.mem_cons_of_mem _ hb)
    have ha := h a List.mem_cons_self
    rw [List.flatMap_cons,hrest]
    rcases Nat.eq_zero_or_pos (times a) with hzero | hpos
    · simp [hzero]
    · have hone : times a=1 := by omega
      simp [hone]

theorem length_filter_le_flatMap (f : α → β) (times : α → Nat) (l : List α) :
    (l.filter fun a => decide (0<times a)).length ≤
      (l.flatMap fun a => List.replicate (times a) (f a)).length := by
  induction l with
  | nil => exact le_refl _
  | cons a l ih =>
    rw [List.flatMap_cons,List.length_append,List.length_replicate]
    by_cases ha : 0<times a
    · rw [List.filter_cons_of_pos (by simpa using ha),List.length_cons]
      omega
    · rw [List.filter_cons_of_neg (by simpa using ha)]
      omega

/-- No element is repeated if there are no more entries than elements with any. -/
theorem le_one_of_length_flatMap
    (h : (l.flatMap fun a => List.replicate (times a) (f a)).length ≤
      (l.filter fun a => decide (0<times a)).length) : ∀ a∈l, times a≤1 := by
  induction l with
  | nil => simp
  | cons a l ih =>
    have hle := length_filter_le_flatMap f times l
    rw [List.flatMap_cons,List.length_append,List.length_replicate] at h
    have hsplit : times a≤1 ∧ (l.flatMap fun a => List.replicate (times a) (f a)).length ≤
        (l.filter fun a => decide (0<times a)).length := by
      by_cases ha : 0<times a
      · rw [List.filter_cons_of_pos (by simpa using ha),List.length_cons] at h
        exact ⟨by omega,by omega⟩
      · rw [List.filter_cons_of_neg (by simpa using ha)] at h
        exact ⟨by omega,by omega⟩
    intro b hb
    rcases List.mem_cons.1 hb with rfl | hb
    · exact hsplit.1
    · exact ih hsplit.2 b hb

end

/-- What a limit per window keeps: at most `limit` in each window, none in a window that has not
begun, and in the window that is open no more than the counter in use says. -/
structure WithinLimit (limit : Nat) (count : Nat → Nat) (now used : Nat) : Prop where
  bounded : ∀ window, count window ≤ limit
  ahead : ∀ window, now < window → count window = 0
  current : count now ≤ used

namespace WithinLimit

open List Nat

variable {limit now now' used used' : Nat} {count count' : Nat → Nat}

theorem start (limit now used : Nat) : WithinLimit limit (fun _ => 0) now used where
  bounded _ := zero_le _
  ahead _ _ := rfl
  current := zero_le _

theorem later (h : WithinLimit limit count now used) (hle : now≤now')
    (hused : now'=now → used≤used') : WithinLimit limit count now' used' where
  bounded := h.bounded
  ahead window hwindow := h.ahead window (lt_of_le_of_lt hle hwindow)
  current := by
    rcases eq_or_lt_of_le hle with heq | hlt
    · rw [← heq]
      exact h.current.trans (hused heq.symm)
    · rw [h.ahead now' hlt]
      exact zero_le _

theorem charge (h : WithinLimit limit count now used) (hroom : used<limit)
    (hnow : count' now=count now+1) (hothers : ∀ window, window≠now →
      count' window=count window) : WithinLimit limit count' now (used+1) where
  bounded window := by
    by_cases heq : window=now
    · have := h.current
      rw [heq,hnow]
      omega
    · rw [hothers window heq]
      exact h.bounded window
  ahead window hwindow := by
    rw [hothers window (ne_of_gt hwindow)]
    exact h.ahead window hwindow
  current := by
    have := h.current
    omega

end WithinLimit

end Framework
