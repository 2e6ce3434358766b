import Harpocrates.Framework.Tx

namespace Framework

/-- The two stores hold the same values under the keys of `R`. -/
def SameOn {K : Type} {V : K → Type} (R : K → Prop) (s t : Store K V) : Prop :=
  ∀ k, R k → s k = t k

namespace SameOn

variable {K : Type} {V : K → Type} {R : K → Prop} {s t u : Store K V}

theorem refl (R : K → Prop) (s : Store K V) : SameOn R s s := fun _ _ => rfl

theorem symm (h : SameOn R s t) : SameOn R t s := fun k hk => (h k hk).symm

theorem trans (h : SameOn R s t) (h' : SameOn R t u) : SameOn R s u :=
  fun k hk => (h k hk).trans (h' k hk)

variable [DecidableEq K]

theorem set (h : SameOn R s t) (k : K) (v : V k) : SameOn R (s.set k v) (t.set k v) := by
  intro k' hk'
  by_cases he : k'=k
  · subst he
    simp
  · rw [Store.set_of_ne _ _ he,Store.set_of_ne _ _ he,h k' hk']

theorem erase (h : SameOn R s t) (k : K) : SameOn R (s.erase k) (t.erase k) := by
  intro k' hk'
  by_cases he : k'=k
  · subst he
    simp
  · rw [Store.erase_of_ne _ he,Store.erase_of_ne _ he,h k' hk']

theorem of_set {k : K} (v : V k) (hk : ¬ R k) (s : Store K V) : SameOn R (s.set k v) s := by
  intro k' hk'
  refine Store.set_of_ne _ _ ?_
  intro heq
  subst heq
  exact hk hk'

theorem of_set_same {k : K} {v : V k} (h : s k=some v) : SameOn R (s.set k v) s := by
  intro k' _
  by_cases he : k'=k
  · subst he
    rw [Store.set_self,h]
  · exact Store.set_of_ne _ _ he

theorem erase_iff {k : K} (hk : R k) : SameOn R (s.erase k) s ↔ s k=none := by
  constructor
  · intro h
    rw [← h k hk,Store.erase_self]
  · intro h k' _
    by_cases he : k'=k
    · subst he
      rw [Store.erase_self,h]
    · exact Store.erase_of_ne _ he

end SameOn

namespace Tx

variable {K : Type} {V : K → Type} {E α β : Type}

theorem bind_assoc {γ : Type} (m : Tx K V E α) (f : α → Tx K V E β) (g : β → Tx K V E γ) :
    (m >>= f) >>= g=m >>= fun a => f a >>= g := by
  funext s
  rw [bind_apply,bind_apply,bind_apply]
  cases m s <;> rfl

variable {m : Tx K V E α} {f : α → Tx K V E β}

theorem bind_of_ok {s t : Store K V} {a : α} (h : m s=.ok (a,t)) : (m >>= f) s=f a t := by
  rw [bind_apply,h]

theorem failIf_apply (c : Bool) (e : E) (s : Store K V) :
    (failIf c e : Tx K V E Unit) s=if c then .error e else .ok ((),s) := by
  cases c <;> rfl

theorem failIf_bind_apply (c : Bool) (e : E) (f : Unit → Tx K V E β) (s : Store K V) :
    (failIf c e >>= f) s=if c then .error e else f () s := by
  cases c <;> rfl

theorem bind_of_error {s : Store K V} {e : E} (h : m s=.error e) : (m >>= f) s=.error e := by
  rw [bind_apply,h]

theorem failIf_bind {c : Bool} (h : c=false) (e : E) (f : Unit → Tx K V E α) :
    failIf c e >>= f=f () := by
  subst h
  rfl

theorem bind_pure_unit (m : Tx K V E Unit) : (m >>= fun _ => pure ())=m := by
  funext s
  cases h : m s with
  | ok r => exact bind_of_ok h
  | error e => exact bind_of_error h

/-- The transaction looks at the keys of `R` only: from stores that agree there it returns
the same value and leaves stores that agree there. -/
def Local (R : K → Prop) (m : Tx K V E α) : Prop :=
  ∀ s t, SameOn R s t → ∀ a s', m s = .ok (a,s') → ∃ t', m t = .ok (a,t') ∧ SameOn R s' t'

variable {R : K → Prop}

theorem Local.bind (hm : Local R m) (hf : ∀ a, Local R (f a)) : Local R (m >>= f) := by
  intro s t hst b s' h
  obtain ⟨a,s₁,h1,h2⟩ := (bind_ok ..).1 h
  obtain ⟨t₁,ht1,hst1⟩ := hm s t hst a s₁ h1
  obtain ⟨t₂,ht2,hst2⟩ := hf a s₁ t₁ hst1 b s' h2
  exact ⟨t₂,(bind_ok ..).2 ⟨a,t₁,ht1,ht2⟩,hst2⟩

theorem Local.ite {c : Prop} [Decidable c] {n : Tx K V E α} (hm : Local R m) (hn : Local R n) :
    Local R (if c then m else n) := by
  split
  · exact hm
  · exact hn

@[simp] theorem Local.pure (a : α) : Local R (pure a : Tx K V E α) := by
  intro s t hst b s' h
  obtain ⟨rfl,rfl⟩ := (pure_ok ..).1 h
  exact ⟨t,rfl,hst⟩

@[simp] theorem Local.fail (e : E) : Local R (fail e : Tx K V E α) := by
  intro s t hst b s' h
  exact absurd h (by simp)

theorem Local.gets {f : Store K V → α} (hf : ∀ s t, SameOn R s t → f s=f t) :
    Local R (gets f : Tx K V E α) := by
  intro s t hst b s' h
  obtain ⟨rfl,rfl⟩ := (gets_ok ..).1 h
  exact ⟨t,(gets_ok ..).2 ⟨(hf s t hst).symm,rfl⟩,hst⟩

@[simp] theorem Local.get {k : K} (hk : R k) : Local R (get k : Tx K V E _) :=
  Local.gets fun _ _ hst => hst k hk

@[simp] theorem Local.unwrap (o : Option α) (e : E) : Local R (unwrap o e : Tx K V E α) := by
  cases o <;> simp [Tx.unwrap]

theorem Local.forEach {ι : Type} {f : ι → Tx K V E Unit} (is : List ι)
    (hf : ∀ i, Local R (f i)) : Local R (forEach is f) := by
  induction is with
  | nil => simp
  | cons i is ih => exact Local.bind (hf i) fun _ => ih

theorem Local.isOk (hm : Local R m) {s t : Store K V} (hst : SameOn R s t) :
    (m s).isOk=(m t).isOk := by
  cases hs : m s with
  | ok r =>
    obtain ⟨t',ht,-⟩ := hm s t hst r.1 r.2 hs
    rw [ht]
    rfl
  | error e =>
    cases ht : m t with
    | ok r =>
      obtain ⟨s',hs',-⟩ := hm t s hst.symm r.1 r.2 ht
      rw [hs] at hs'
      cases hs'
    | error e' => rfl

theorem Local.same (hm : Local R m) {s t s' t' : Store K V} {a b : α} (hst : SameOn R s t)
    (hs : m s=.ok (a,s')) (ht : m t=.ok (b,t')) : SameOn R s' t' := by
  obtain ⟨t'',ht'',hst'⟩ := hm s t hst a s' hs
  obtain ⟨-,rfl⟩ := Prod.mk.inj (Except.ok.inj (ht.symm.trans ht''))
  exact hst'

def Total (m : Tx K V E α) : Prop := ∀ s, ∃ a s', m s = .ok (a,s')

theorem Total.bind (hm : Total m) (hf : ∀ a, Total (f a)) : Total (m >>= f) := by
  intro s
  obtain ⟨a,t,h1⟩ := hm s
  obtain ⟨b,s',h2⟩ := hf a t
  exact ⟨b,s',(bind_ok ..).2 ⟨a,t,h1,h2⟩⟩

theorem Total.forEach {ι : Type} {f : ι → Tx K V E Unit} (is : List ι)
    (hf : ∀ i, Total (f i)) : Total (forEach is f) := by
  induction is with
  | nil => exact fun s => ⟨(),s,rfl⟩
  | cons i is ih => exact Total.bind (hf i) fun _ => ih

theorem isOk_bind_total (hf : ∀ a, Total (f a)) (s : Store K V) :
    ((m >>= f) s).isOk=(m s).isOk := by
  cases h : m s with
  | ok r =>
    obtain ⟨b,t,ht⟩ := hf r.1 r.2
    rw [bind_of_ok h,ht]
    rfl
  | error e =>
    rw [bind_of_error h]
    rfl

variable [DecidableEq K]

@[simp] theorem Local.set (k : K) (v : V k) : Local R (set k v : Tx K V E Unit) := by
  intro s t hst u s' h
  obtain rfl := (set_ok ..).1 h
  exact ⟨t.set k v,rfl,hst.set k v⟩

@[simp] theorem Local.remove (k : K) : Local R (remove k : Tx K V E Unit) := by
  intro s t hst u s' h
  obtain rfl := (remove_ok ..).1 h
  exact ⟨t.erase k,rfl,hst.erase k⟩

end Tx

end Framework
