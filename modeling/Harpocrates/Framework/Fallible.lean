import Mathlib.Data.List.Basic

namespace Framework.Fallible

variable {ε α β : Type}

theorem bind_ok {x : Except ε α} {f : α → Except ε β} {b : β} :
    (x >>= f)=.ok b ↔ ∃ a, x=.ok a ∧ f a=.ok b := by
  cases x with
  | ok a => simp [bind,Except.bind]
  | error e => simp [bind,Except.bind]

theorem mapError_ok {δ : Type} {x : Except ε α} {f : ε → δ} {a : α} :
    x.mapError f=.ok a ↔ x=.ok a := by
  cases x with
  | ok b => simp [Except.mapError]
  | error e => simp [Except.mapError]

theorem unit_bind_ok {x : Except ε Unit} {f : Unit → Except ε β} {b : β} :
    (x >>= f)=.ok b ↔ x=.ok () ∧ f ()=.ok b := by
  rw [bind_ok]
  exact ⟨fun ⟨_,h⟩ => h,fun h => ⟨(),h⟩⟩

def require (b : Bool) (e : ε) : Except ε Unit := if b then .ok () else .error e

theorem require_ok {b : Bool} {e : ε} : require b e=.ok () ↔ b=true := by
  unfold require
  cases b with
  | true => simp
  | false => simp

theorem toOption_eq_some {x : Except ε α} {a : α} : x.toOption=some a ↔ x=.ok a := by
  cases x with
  | ok b => simp [Except.toOption]
  | error e => simp [Except.toOption]

theorem forM_ok {l : List α} {f : α → Except ε Unit} :
    forM l f=.ok () ↔ ∀ a∈l, f a=.ok () := by
  induction l with
  | nil => simp [pure,Except.pure]
  | cons a l ih => rw [List.forM_cons,unit_bind_ok,ih,List.forall_mem_cons]

end Framework.Fallible
