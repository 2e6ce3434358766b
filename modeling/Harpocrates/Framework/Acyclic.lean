import Mathlib.Logic.Relation

namespace Framework

open Relation

variable {V : Type}

def Acyclic (R : V → V → Prop) : Prop := ∀ v, ¬ TransGen R v v

def withEdges (R : V → V → Prop) (v : V) (targets : List V) (a b : V) : Prop :=
  R a b ∨ (a = v ∧ b ∈ targets)

variable {R : V → V → Prop} {v : V} {targets : List V}

theorem le_withEdges : R≤withEdges R v targets := fun _ _ h => .inl h

theorem Acyclic.mono {S : V → V → Prop} (h : Acyclic S) (hle : R≤S) : Acyclic R :=
  fun a ha => h a (TransGen.mono hle _ _ ha)

/-- A path that uses an added edge first goes, along old edges, to where those edges start. -/
theorem transGen_withEdges {a b : V} (h : TransGen (withEdges R v targets) a b) :
    TransGen R a b ∨ ReflTransGen R a v ∧
      ∃ t∈targets, ReflTransGen (withEdges R v targets) t b := by
  induction h using TransGen.head_induction_on with
  | single hab =>
    rcases hab with hab | ⟨rfl,hb⟩
    · exact .inl (.single hab)
    · exact .inr ⟨.refl,b,hb,.refl⟩
  | head hac hcb ih =>
    rcases hac with hac | ⟨rfl,hc⟩
    · rcases ih with ih | ⟨hcv,ht⟩
      · exact .inl (.head hac ih)
      · exact .inr ⟨.head hac hcv,ht⟩
    · exact .inr ⟨.refl,_,hc,hcb.to_reflTransGen⟩

theorem reflTransGen_withEdges_self {a : V} :
    ReflTransGen (withEdges R v targets) a v ↔ ReflTransGen R a v := by
  refine ⟨fun h => ?_,ReflTransGen.mono le_withEdges _ _⟩
  rcases reflTransGen_iff_eq_or_transGen.1 h with rfl | h
  · exact .refl
  · rcases transGen_withEdges h with h | h
    · exact h.to_reflTransGen
    · exact h.1

/-- Added edges keep a relation acyclic exactly when none of them ends where a path leads back
to its start. -/
theorem acyclic_withEdges :
    Acyclic (withEdges R v targets) ↔ Acyclic R ∧ ∀ t∈targets, ¬ ReflTransGen R t v := by
  constructor
  · intro h
    refine ⟨h.mono le_withEdges,fun t ht htv => h v ?_⟩
    exact TransGen.head' (.inr ⟨rfl,ht⟩) (reflTransGen_withEdges_self.2 htv)
  · intro h a ha
    obtain ⟨hold,hback⟩ := h
    rcases transGen_withEdges ha with hcycle | ⟨hav,t,ht,hta⟩
    · exact hold a hcycle
    · have hav' : ReflTransGen (withEdges R v targets) a v := reflTransGen_withEdges_self.2 hav
      exact hback t ht (reflTransGen_withEdges_self.1 (hta.trans hav'))

end Framework
