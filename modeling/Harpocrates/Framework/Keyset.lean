import Mathlib.Data.List.Pairwise

namespace Framework

/-! Reading a table page by page from the highest number down, each page starting below the last
number of the one before it, while the table changes. -/

variable {τ ρ : Type}

def Below (cursor : Option Nat) (row : Nat × ρ) : Prop := ∀ c ∈ cursor, row.1 < c

/-- The first rows below a cursor, and the number of the last of them if there are more. -/
structure KeysetPage (holds : Nat × ρ → Prop) (cursor : Option Nat)
    (page : List (Nat × ρ) × Option Nat) : Prop where
  descending : page.1.Pairwise fun a b => b.1 < a.1
  sound : ∀ row ∈ page.1, holds row ∧ Below cursor row
  complete : ∀ row, holds row → Below cursor row → (∀ c ∈ page.2, c ≤ row.1) → row ∈ page.1
  next : ∀ c ∈ page.2, (∃ row ∈ page.1, row.1 = c) ∧ ∀ row ∈ page.1, c ≤ row.1

/-- One row more than the page holds is read, to see whether there are more. -/
def cutPage (n : Nat) (matching : List (Nat × ρ)) : List (Nat × ρ) × Option Nat :=
  let rows := matching.take (n+1)
  if n < rows.length then (rows.take n,(rows.take n).getLast?.map (·.1)) else (rows,none)

/-- The rows of the pages, and whether the last of them said that there are no more. -/
def follow (fetch : τ → Option Nat → List (Nat × ρ) × Option Nat) :
    List τ → Option Nat → List (Nat × ρ) × Bool
  | [],_ => ([],false)
  | t::visits,cursor =>
    match fetch t cursor with
    | (rows,none) => (rows,true)
    | (rows,some c) =>
      let more := follow fetch visits (some c)
      (rows++more.1,more.2)

variable {holds : Nat × ρ → Prop} {cursor : Option Nat} {matching : List (Nat × ρ)} {n : Nat}

theorem keysetPage_cutPage (hn : 0<n) (hdesc : matching.Pairwise fun a b => b.1<a.1)
    (hmem : ∀ row, row∈matching ↔ holds row ∧ Below cursor row) :
    KeysetPage holds cursor (cutPage n matching) := by
  unfold cutPage
  dsimp only
  by_cases hmore : n<(matching.take (n+1)).length
  · rw [if_pos hmore]
    have htake : (matching.take (n+1)).take n=matching.take n := by
      rw [List.take_take,Nat.min_eq_left (Nat.le_succ n)]
    rw [List.length_take] at hmore
    have hne : matching.take n≠[] := by
      intro hnil
      have hlength := congrArg List.length hnil
      rw [List.length_take,List.length_nil] at hlength
      omega
    obtain ⟨rows,last,hrows⟩ : ∃ rows last, matching.take n=rows++[last] :=
      ⟨_,_,(List.dropLast_concat_getLast hne).symm⟩
    have hsplit : rows++[last]++matching.drop n=matching := by
      rw [← hrows,List.take_append_drop]
    rw [htake,hrows,List.getLast?_concat]
    rw [← hsplit] at hdesc
    obtain ⟨hpage,-,hlater⟩ := List.pairwise_append.1 hdesc
    have hlast : last∈rows++[last] := List.mem_append_right _ List.mem_cons_self
    refine ⟨hpage,fun row hrow => (hmem row).1 ?_,fun row hholds hbelow hle => ?_,?_⟩
    · rw [← hsplit]
      exact List.mem_append_left _ hrow
    · have hrow := (hmem row).2 ⟨hholds,hbelow⟩
      rw [← hsplit] at hrow
      rcases List.mem_append.1 hrow with hrow | hrow
      · exact hrow
      · exact absurd (hle _ rfl) (Nat.not_le.2 (hlater last hlast row hrow))
    · rintro c ⟨⟩
      refine ⟨⟨last,hlast,rfl⟩,fun row hrow => ?_⟩
      rcases List.mem_append.1 hrow with hrow | hrow
      · exact Nat.le_of_lt ((List.pairwise_append.1 hpage).2.2 _ hrow _ List.mem_cons_self)
      · exact Nat.le_of_eq (congrArg Prod.fst (List.mem_singleton.1 hrow).symm)
  · rw [if_neg hmore]
    have hall : matching.take (n+1)=matching := by
      rw [List.length_take] at hmore
      exact List.take_of_length_le (by omega)
    rw [hall]
    exact ⟨hdesc,fun row hrow => (hmem row).1 hrow,
      fun row hholds hbelow _ => (hmem row).2 ⟨hholds,hbelow⟩,fun _ hc => (nomatch hc)⟩

/-- Whatever happens to the table between the pages, the numbers only go down, a row that is there
all the time is read, and a number bounds the pages that are read below it. -/
theorem follow_spec {holds : τ → Nat × ρ → Prop}
    {fetch : τ → Option Nat → List (Nat × ρ) × Option Nat}
    (h : ∀ t cursor, KeysetPage (holds t) cursor (fetch t cursor)) (visits : List τ)
    (cursor : Option Nat) :
    (follow fetch visits cursor).1.Pairwise (fun a b => b.1<a.1) ∧
      (∀ row∈(follow fetch visits cursor).1,
        (∃ t∈visits, holds t row) ∧ Below cursor row) ∧
      ((follow fetch visits cursor).2=true → ∀ row, (∀ t∈visits, holds t row) →
        Below cursor row → row∈(follow fetch visits cursor).1) ∧
      ∀ c∈cursor, c<visits.length → (follow fetch visits cursor).2=true := by
  induction visits generalizing cursor with
  | nil =>
    refine ⟨List.Pairwise.nil,fun _ hrow => (nomatch hrow),fun hdone => (nomatch hdone),?_⟩
    exact fun c _ hlength => (nomatch hlength)
  | cons t visits ih =>
    obtain ⟨hdesc,hsound,hcomplete,hnext⟩ := h t cursor
    unfold follow
    cases hfetch : fetch t cursor with
    | mk rows next =>
      rw [hfetch] at hdesc hsound hcomplete hnext
      cases next with
      | none =>
        refine ⟨hdesc,fun row hrow => ?_,fun _ row hholds hbelow => ?_,fun _ _ _ => rfl⟩
        · exact ⟨⟨t,List.mem_cons_self,(hsound row hrow).1⟩,(hsound row hrow).2⟩
        · exact hcomplete row (hholds t List.mem_cons_self) hbelow fun _ hc => (nomatch hc)
      | some c =>
        obtain ⟨⟨last,hlast,rfl⟩,hleast⟩ := hnext c rfl
        obtain ⟨hdesc',hsound',hcomplete',hdone⟩ := ih (some last.1)
        have hbelow' := (hsound last hlast).2
        refine ⟨List.pairwise_append.2 ⟨hdesc,hdesc',fun a ha b hb => ?_⟩,fun row hrow => ?_,
          fun hend row hholds hbelow => ?_,fun c hc hlength => ?_⟩
        · exact Nat.lt_of_lt_of_le ((hsound' b hb).2 _ rfl) (hleast a ha)
        · rcases List.mem_append.1 hrow with hrow | hrow
          · exact ⟨⟨t,List.mem_cons_self,(hsound row hrow).1⟩,(hsound row hrow).2⟩
          · obtain ⟨⟨t',ht',hholds⟩,hlow⟩ := hsound' row hrow
            exact ⟨⟨t',List.mem_cons_of_mem _ ht',hholds⟩,
              fun c hc => Nat.lt_trans (hlow _ rfl) (hbelow' c hc)⟩
        · by_cases hle : last.1≤row.1
          · refine List.mem_append_left _ (hcomplete row (hholds t List.mem_cons_self) hbelow ?_)
            rintro c ⟨⟩
            exact hle
          · refine List.mem_append_right _ (hcomplete' hend row ?_ ?_)
            · exact fun t' ht' => hholds t' (List.mem_cons_of_mem _ ht')
            · rintro c ⟨⟩
              omega
        · have hlow := hbelow' c hc
          rw [List.length_cons] at hlength
          exact hdone _ rfl (by omega)

end Framework
