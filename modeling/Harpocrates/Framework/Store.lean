import Mathlib.Logic.Function.Basic

namespace Framework

/-- A typed key-value store: the type of the value kept under a key is fixed by the key,
so an ill-typed entry cannot be written. -/
def Store (K : Type) (V : K → Type) : Type := (k : K) → Option (V k)

namespace Store

open Function

variable {K : Type} {V : K → Type}

def empty : Store K V := fun _ => none

variable [DecidableEq K]

def set (s : Store K V) (k : K) (v : V k) : Store K V := Function.update s k (some v)

def erase (s : Store K V) (k : K) : Store K V := Function.update s k none

@[simp] theorem set_self (s : Store K V) (k : K) (v : V k) : s.set k v k=some v :=
  update_self (β := fun k => Option (V k)) k (some v) s

@[simp] theorem set_of_ne (s : Store K V) {k k' : K} (v : V k) (h : k'≠k) :
    s.set k v k'=s k' :=
  update_of_ne (β := fun k => Option (V k)) h (some v) s

@[simp] theorem erase_self (s : Store K V) (k : K) : s.erase k k=none :=
  update_self (β := fun k => Option (V k)) k none s

@[simp] theorem erase_of_ne (s : Store K V) {k k' : K} (h : k'≠k) : s.erase k k'=s k' :=
  update_of_ne (β := fun k => Option (V k)) h none s

end Store

end Framework
