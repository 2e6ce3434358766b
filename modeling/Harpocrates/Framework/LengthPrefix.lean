import Mathlib.Data.List.Basic

namespace Framework

/-- What stands before the first mark, and what follows it. -/
theorem first_mark_inj {α : Type} {mark : α} {x y r s : List α} (hx : mark∉x) (hy : mark∉y)
    (h : x++mark::r=y++mark::s) : x=y ∧ r=s := by
  induction x generalizing y with
  | nil =>
    cases y with
    | nil => exact ⟨rfl,(List.cons.inj h).2⟩
    | cons b y => exact absurd ((List.cons.inj h).1 ▸ List.mem_cons_self) hy
  | cons a x ih =>
    cases y with
    | nil => exact absurd ((List.cons.inj h).1 ▸ List.mem_cons_self) hx
    | cons b y =>
      have hhead : a=b := (List.cons.inj h).1
      have htail : x++mark::r=y++mark::s := (List.cons.inj h).2
      have hrest := ih (fun hm => hx (List.mem_cons_of_mem _ hm))
        (fun hm => hy (List.mem_cons_of_mem _ hm)) htail
      exact ⟨by rw [hhead,hrest.1],hrest.2⟩

/-- How lengths are spelled, and the mark that comes after them. -/
structure LengthCode (α : Type) where
  spell : Nat → List α
  mark : α
  spell_injective : Function.Injective spell
  mark_notMem : ∀ n, mark ∉ spell n

namespace LengthCode

open List

variable {α : Type} (code : LengthCode α)

def field (v : List α) : List α := code.spell v.length++code.mark::v

theorem field_append_inj {v w r s : List α} (h : code.field v++r=code.field w++s) :
    v=w ∧ r=s := by
  rw [field,field,append_assoc,append_assoc,cons_append,cons_append] at h
  have hparts := first_mark_inj (code.mark_notMem _) (code.mark_notMem _) h
  have hlength : v.length=w.length := code.spell_injective hparts.1
  exact append_inj hparts.2 hlength

def fields (vs : List (List α)) : List α := vs.flatMap code.field

theorem fields_cons (v : List α) (vs : List (List α)) :
    code.fields (v::vs)=code.field v++code.fields vs := flatMap_cons

theorem fields_cons_ne_nil (v : List α) (vs : List (List α)) : code.fields (v::vs)≠[] := by
  simp [fields,field]

theorem fields_injective : Function.Injective code.fields := by
  intro vs ws h
  induction vs generalizing ws with
  | nil =>
    cases ws with
    | nil => rfl
    | cons w ws => exact absurd h.symm (code.fields_cons_ne_nil w ws)
  | cons v vs ih =>
    cases ws with
    | nil => exact absurd h (code.fields_cons_ne_nil v vs)
    | cons w ws =>
      rw [fields_cons,fields_cons] at h
      have hparts := code.field_append_inj h
      rw [hparts.1,ih hparts.2]

end LengthCode

end Framework
