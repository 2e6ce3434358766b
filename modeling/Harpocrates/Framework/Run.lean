import Mathlib.Data.List.Basic

namespace Framework

/-- One step of a run: the state it starts from, what was done, the state it leads to. -/
structure Event (σ ℓ : Type) where
  pre : σ
  label : ℓ
  post : σ

/-- The runs of a transition relation from a start state. The steps taken are kept with
the most recent one first. -/
inductive Run {σ ℓ : Type} (step : σ → ℓ → σ → Prop) (init : σ) : List (Event σ ℓ) → σ → Prop
  | nil : Run step init [] init
  | snoc {tr : List (Event σ ℓ)} {s s' : σ} {l : ℓ} :
      Run step init tr s → step s l s' → Run step init (⟨s,l,s'⟩::tr) s'

namespace Run

open List

variable {σ ℓ : Type} {step : σ → ℓ → σ → Prop} {init s : σ} {tr : List (Event σ ℓ)}

variable {C : Event σ ℓ → Prop}

/-- The invariant rule: what holds at the start, and is kept by every step that meets the
condition `C`, holds after every run all of whose steps meet `C`. -/
theorem invariant {I : List (Event σ ℓ) → σ → Prop} (h0 : I [] init)
    (hs : ∀ tr s l s', Run step init tr s → I tr s → step s l s' → C ⟨s,l,s'⟩ →
      I (⟨s,l,s'⟩::tr) s') (hr : Run step init tr s) (hc : ∀ e∈tr, C e) : I tr s := by
  induction hr with
  | nil => exact h0
  | snoc hr hst ih =>
    exact hs _ _ _ _ hr (ih (fun e he => hc e (by simp [he]))) hst (hc _ (by simp))

theorem state_invariant {I : σ → Prop} (h0 : I init)
    (hs : ∀ s l s', I s → step s l s' → I s') (hr : Run step init tr s) : I s :=
  invariant (C := fun _ => True) (I := fun _ s => I s) h0
    (fun _ s l s' _ hi hst _ => hs s l s' hi hst) hr (fun _ _ => trivial)

/-- What every step of a kind keeps holds all along a run made of such steps. -/
theorem throughout {I : σ → Prop} (h0 : I init)
    (hs : ∀ s l s', I s → step s l s' → C ⟨s,l,s'⟩ → I s') (hr : Run step init tr s)
    (hc : ∀ e∈tr, C e) : (∀ e∈tr, I e.pre) ∧ I s := by
  induction hr with
  | nil => exact ⟨by simp,h0⟩
  | snoc hr hst ih =>
    obtain ⟨hpre,hi⟩ := ih fun e he => hc e (mem_cons_of_mem _ he)
    refine ⟨fun e he => ?_,hs _ _ _ hi hst (hc _ mem_cons_self)⟩
    rcases mem_cons.1 he with rfl | he
    · exact hi
    · exact hpre e he

theorem afterwards {I : σ → Prop} (h0 : I init)
    (hs : ∀ s l s', I s → step s l s' → C ⟨s,l,s'⟩ → I s') (hr : Run step init tr s)
    (hc : ∀ e∈tr, C e) : ∀ e∈tr, I e.post := by
  induction hr with
  | nil => simp
  | snoc hr hst ih =>
    have hbefore : ∀ e ∈ _, C e := fun e he => hc e (mem_cons_of_mem _ he)
    have hpre := (throughout h0 hs hr hbefore).2
    exact forall_mem_cons.2 ⟨hs _ _ _ hpre hst (hc _ mem_cons_self),ih hbefore⟩

theorem trans {tr' : List (Event σ ℓ)} {s' : σ} (hr : Run step init tr s)
    (hr' : Run step s tr' s') : Run step init (tr'++tr) s' := by
  induction hr' with
  | nil => exact hr
  | snoc _ hst ih => exact ih.snoc hst

/-- Each event is a step taken from the state that what came before it reaches, and what
follows it is again a run. -/
theorem split {e : Event σ ℓ} {tr₁ tr₂ : List (Event σ ℓ)}
    (hr : Run step init (tr₂++e::tr₁) s) :
    Run step init tr₁ e.pre ∧ step e.pre e.label e.post ∧ Run step e.post tr₂ s := by
  induction tr₂ generalizing s with
  | nil =>
    cases hr with
    | snoc hr hst => exact ⟨hr,hst,Run.nil⟩
  | cons f tr₂ ih =>
    cases hr with
    | snoc hr hst =>
      obtain ⟨h1,h2,h3⟩ := ih hr
      exact ⟨h1,h2,h3.snoc hst⟩

theorem event_split (hr : Run step init tr s) {e : Event σ ℓ} (he : e∈tr) :
    ∃ tr₁ tr₂, tr=tr₂++e::tr₁ ∧ Run step init tr₁ e.pre ∧ step e.pre e.label e.post ∧
      Run step e.post tr₂ s := by
  obtain ⟨tr₂,tr₁,rfl⟩ := append_of_mem he
  exact ⟨tr₁,tr₂,rfl,hr.split⟩

theorem begins {P : σ → Prop} (hr : Run step init tr s) (h0 : ¬ P init) (hs : P s) :
    ∃ tr₁ e tr₂, tr=tr₂++e::tr₁ ∧ ¬ P e.pre ∧ P e.post := by
  induction hr with
  | nil => exact absurd hs h0
  | @snoc tr s s' l hr hst ih =>
    by_cases hpre : P s
    · obtain ⟨tr₁,e,tr₂,rfl,he⟩ := ih hpre
      exact ⟨tr₁,e,⟨s,l,s'⟩::tr₂,rfl,he⟩
    · exact ⟨tr,⟨s,l,s'⟩,[],rfl,hpre,hs⟩

/-- The history rule: a property that a step brings about exactly when it is of a certain kind,
and that is kept otherwise, holds when there was such a step. -/
theorem history_iff {P : σ → Prop} {Q : Event σ ℓ → Prop} (h0 : ¬ P init)
    (hs : ∀ s l s', step s l s' → (P s' ↔ Q ⟨s,l,s'⟩ ∨ P s)) (hr : Run step init tr s) :
    P s ↔ ∃ e∈tr, Q e := by
  induction hr with
  | nil => simp [h0]
  | snoc hr hst ih => rw [hs _ _ _ hst,ih,exists_mem_cons_iff]

/-- The freshness rule: keys that a step takes only while they are free, and that stay taken, are
taken once in a run. -/
theorem taken_once {κ : Type} {key : Event σ ℓ → Option κ} {T : σ → κ → Prop}
    (hkeep : ∀ s l s' k, step s l s' → T s k → T s' k)
    (htake : ∀ s l s' k, step s l s' → key ⟨s,l,s'⟩=some k → ¬ T s k ∧ T s' k)
    (hr : Run step init tr s) :
    (∀ k∈tr.filterMap key, T s k) ∧ (tr.filterMap key).Nodup := by
  induction hr with
  | nil => exact ⟨by simp,by simp⟩
  | @snoc tr s s' l hr hst ih =>
    obtain ⟨htaken,hnodup⟩ := ih
    have hkept : ∀ k∈tr.filterMap key, T s' k :=
      fun k hk => hkeep _ _ _ k hst (htaken k hk)
    cases hkey : key ⟨s,l,s'⟩ with
    | none =>
      rw [filterMap_cons_none hkey]
      exact ⟨hkept,hnodup⟩
    | some k =>
      obtain ⟨hfree,hnew⟩ := htake _ _ _ k hst hkey
      rw [filterMap_cons_some hkey]
      refine ⟨fun k' hk' => ?_,nodup_cons.2 ⟨fun hk => hfree (htaken k hk),hnodup⟩⟩
      rcases mem_cons.1 hk' with rfl | hk'
      · exact hnew
      · exact hkept k' hk'

end Run

end Framework
