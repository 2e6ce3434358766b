import Harpocrates.Framework.Store
import Mathlib.Tactic

namespace Framework

/-- A transaction over a store: it either fails, and then nothing of what it wrote
remains, or returns a value together with the store it leaves behind. -/
def Tx (K : Type) (V : K → Type) (E α : Type) : Type :=
  Store K V → Except E (α × Store K V)

namespace Tx

variable {K : Type} {V : K → Type} {E α β : Type}

instance : Monad (Tx K V E) where
  pure a := fun s => .ok (a,s)
  bind m f := fun s =>
    match m s with
    | .ok (a,s') => f a s'
    | .error e => .error e

def fail (e : E) : Tx K V E α := fun _ => .error e

def gets (f : Store K V → α) : Tx K V E α := fun s => .ok (f s,s)

def get (k : K) : Tx K V E (Option (V k)) := gets (fun s => s k)

def failIf (c : Bool) (e : E) : Tx K V E Unit := if c then fail e else pure ()

def unwrap (o : Option α) (e : E) : Tx K V E α :=
  match o with
  | some a => pure a
  | none => fail e

def lift {E' : Type} (f : E' → E) (x : Except E' α) : Tx K V E α :=
  match x with
  | .ok a => pure a
  | .error e => fail (f e)

/-- Run a transaction on every element of a list, in order. -/
def forEach {ι : Type} : List ι → (ι → Tx K V E Unit) → Tx K V E Unit
  | [],_ => pure ()
  | i::is,f => do
    f i
    forEach is f

variable {ι : Type} {s s' : Store K V}

@[simp] theorem pure_ok (a b : α) (s s' : Store K V) :
    (pure a : Tx K V E α) s=.ok (b,s') ↔ a=b ∧ s=s' := by
  change Except.ok (a,s) = _ ↔ _
  simp

theorem bind_apply (m : Tx K V E α) (f : α → Tx K V E β) (s : Store K V) :
    (m >>= f) s=match m s with
      | .ok (a,t) => f a t
      | .error e => .error e := rfl

@[simp] theorem bind_ok (m : Tx K V E α) (f : α → Tx K V E β) (s s' : Store K V) (b : β) :
    (m >>= f) s=.ok (b,s') ↔ ∃ a t, m s=.ok (a,t) ∧ f a t=.ok (b,s') := by
  rw [bind_apply]
  cases h : m s with
  | error e => simp
  | ok x => simp [Prod.ext_iff]

@[simp] theorem fail_ok (e : E) (s : Store K V) (x : α × Store K V) :
    ¬ (fail e : Tx K V E α) s=.ok x := by
  simp [fail]

@[simp] theorem gets_ok (f : Store K V → α) (s s' : Store K V) (a : α) :
    (gets f : Tx K V E α) s=.ok (a,s') ↔ f s=a ∧ s=s' := by
  simp [gets]

@[simp] theorem get_ok (k : K) (s s' : Store K V) (o : Option (V k)) :
    (get k : Tx K V E _) s=.ok (o,s') ↔ s k=o ∧ s=s' := by
  simp [get]

@[simp] theorem failIf_ok (c : Bool) (e : E) (s s' : Store K V) (u : Unit) :
    (failIf c e : Tx K V E Unit) s=.ok (u,s') ↔ c=false ∧ s=s' := by
  cases c <;> simp [failIf]

@[simp] theorem unwrap_ok (o : Option α) (e : E) (s s' : Store K V) (a : α) :
    (unwrap o e : Tx K V E α) s=.ok (a,s') ↔ o=some a ∧ s=s' := by
  cases o <;> simp [unwrap]

@[simp] theorem lift_ok {E' : Type} (f : E' → E) (x : Except E' α) (s s' : Store K V) (a : α) :
    (lift f x : Tx K V E α) s=.ok (a,s') ↔ x=.ok a ∧ s=s' := by
  cases x <;> simp [lift]

@[simp] theorem ite_apply (c : Prop) [Decidable c] (m n : Tx K V E α) (s : Store K V) :
    (if c then m else n) s=if c then m s else n s := by
  split <;> rfl

@[simp] theorem forEach_nil (f : ι → Tx K V E Unit) : forEach [] f=pure () := rfl

@[simp] theorem forEach_cons (i : ι) (is : List ι) (f : ι → Tx K V E Unit) :
    forEach (i::is) f=(do f i; forEach is f) := rfl

/-- A loop of checks: it changes nothing and every element has passed. -/
theorem forEach_check {f : ι → Tx K V E Unit} {P : ι → Prop} {is : List ι} {u : Unit}
    (hf : ∀ i t, f i s=.ok ((),t) → s=t ∧ P i) (h : forEach is f s=.ok (u,s')) :
    s=s' ∧ ∀ i∈is, P i := by
  induction is with
  | nil =>
    obtain ⟨-,rfl⟩ := (pure_ok ..).1 h
    exact ⟨rfl,by simp⟩
  | cons i is ih =>
    obtain ⟨_,t,h1,h2⟩ := (bind_ok ..).1 h
    obtain ⟨rfl,hi⟩ := hf i t h1
    obtain ⟨rfl,his⟩ := ih h2
    exact ⟨rfl,by simpa using ⟨hi,his⟩⟩

/-- The transaction goes through only if `P` holds. -/
def Ensures (P : Prop) (m : Tx K V E α) : Prop := ∀ s r, m s = .ok r → P

theorem Ensures.bind_left {P : Prop} {m : Tx K V E α} {f : α → Tx K V E β}
    (h : Ensures P m) : Ensures P (m >>= f) := by
  intro s r hr
  obtain ⟨a,t,h1,-⟩ := (bind_ok ..).1 hr
  exact h s (a,t) h1

theorem Ensures.bind_right {P : Prop} {m : Tx K V E α} {f : α → Tx K V E β}
    (h : ∀ a, Ensures P (f a)) : Ensures P (m >>= f) := by
  intro s r hr
  obtain ⟨a,t,-,h2⟩ := (bind_ok ..).1 hr
  exact h a t r h2

theorem forEach_invariant {f : ι → Tx K V E Unit} {P : Store K V → Prop} {is : List ι} {u : Unit}
    (hf : ∀ i∈is, ∀ t t', P t → f i t=.ok ((),t') → P t') (hs : P s)
    (h : forEach is f s=.ok (u,s')) : P s' := by
  induction is generalizing s with
  | nil =>
    obtain ⟨-,rfl⟩ := (pure_ok ..).1 h
    exact hs
  | cons i is ih =>
    obtain ⟨_,t,h1,h2⟩ := (bind_ok ..).1 h
    exact ih (fun j hj => hf j (by simp [hj])) (hf i (by simp) s t hs h1) h2

/-- A loop is related to a fold when its body is related to the folded function. -/
theorem forEach_simulates {f : ι → Tx K V E Unit} {R : Store K V → β → Prop} {step : β → ι → β}
    {is : List ι} {u : Unit} {b : β}
    (hf : ∀ i∈is, ∀ t t' c, R t c → f i t=.ok ((),t') → R t' (step c i)) (hs : R s b)
    (h : forEach is f s=.ok (u,s')) : R s' (is.foldl step b) := by
  induction is generalizing s b with
  | nil =>
    obtain ⟨-,rfl⟩ := (pure_ok ..).1 h
    exact hs
  | cons i is ih =>
    obtain ⟨_,t,h1,h2⟩ := (bind_ok ..).1 h
    exact ih (fun j hj => hf j (by simp [hj])) (hf i (by simp) s t b hs h1) h2

theorem forEach_foldl {f : ι → Tx K V E Unit} (g : Store K V → β) (step : β → ι → β) {is : List ι}
    {u : Unit} (hf : ∀ i∈is, ∀ t t', f i t=.ok ((),t') → g t'=step (g t) i)
    (h : forEach is f s=.ok (u,s')) : g s'=is.foldl step (g s) := by
  refine forEach_simulates (R := fun t b => g t=b) ?_ rfl h
  intro i hi t t' c hc ht
  rw [hf i hi t t' ht,hc]

variable [DecidableEq K]

def set (k : K) (v : V k) : Tx K V E Unit := fun s => .ok ((),s.set k v)

def remove (k : K) : Tx K V E Unit := fun s => .ok ((),s.erase k)

@[simp] theorem set_ok (k : K) (v : V k) (s s' : Store K V) (u : Unit) :
    (set k v : Tx K V E Unit) s=.ok (u,s') ↔ s.set k v=s' := by
  simp [set]

@[simp] theorem remove_ok (k : K) (s s' : Store K V) (u : Unit) :
    (remove k : Tx K V E Unit) s=.ok (u,s') ↔ s.erase k=s' := by
  simp [remove]

end Tx

end Framework
