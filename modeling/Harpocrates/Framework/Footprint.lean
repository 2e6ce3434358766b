import Harpocrates.Framework.Tx

namespace Framework.Tx

variable {K : Type} {V : K → Type} {E α β : Type}

/-- A successful run of the transaction changes the store at keys of `W` only. -/
def Writes (W : K → Prop) (m : Tx K V E α) : Prop :=
  ∀ s a s', m s = .ok (a,s') → ∀ k, ¬ W k → s' k = s k

variable {W : K → Prop}

theorem Writes.bind {m : Tx K V E α} {f : α → Tx K V E β} (hm : Writes W m)
    (hf : ∀ a, Writes W (f a)) : Writes W (m >>= f) := by
  intro s b s' h k hk
  obtain ⟨a,t,h1,h2⟩ := (bind_ok ..).1 h
  exact (hf a t b s' h2 k hk).trans (hm s a t h1 k hk)

theorem Writes.ite {c : Prop} [Decidable c] {m n : Tx K V E α} (hm : Writes W m)
    (hn : Writes W n) : Writes W (if c then m else n) := by
  split
  · exact hm
  · exact hn

@[simp] theorem Writes.pure (a : α) : Writes W (pure a : Tx K V E α) := by
  intro s b s' h k _
  obtain ⟨-,rfl⟩ := (pure_ok ..).1 h
  rfl

@[simp] theorem Writes.fail (e : E) : Writes W (fail e : Tx K V E α) := by
  intro s b s' h
  exact absurd h (by simp)

@[simp] theorem Writes.gets (f : Store K V → α) : Writes W (gets f : Tx K V E α) := by
  intro s b s' h k _
  obtain ⟨-,rfl⟩ := (gets_ok ..).1 h
  rfl

@[simp] theorem Writes.get (k : K) : Writes W (get k : Tx K V E _) := Writes.gets _

@[simp] theorem Writes.failIf (c : Bool) (e : E) : Writes W (failIf c e : Tx K V E Unit) := by
  cases c <;> simp [Tx.failIf]

@[simp] theorem Writes.unwrap (o : Option α) (e : E) : Writes W (unwrap o e : Tx K V E α) := by
  cases o <;> simp [Tx.unwrap]

@[simp] theorem Writes.lift {E' : Type} (f : E' → E) (x : Except E' α) :
    Writes W (lift f x : Tx K V E α) := by
  cases x <;> simp [Tx.lift]

theorem Writes.forEach {ι : Type} {f : ι → Tx K V E Unit} (is : List ι)
    (hf : ∀ i∈is, Writes W (f i)) : Writes W (forEach is f) := by
  induction is with
  | nil => simp
  | cons i is ih =>
    rw [forEach_cons]
    exact Writes.bind (hf i (by simp)) (fun _ => ih (fun j hj => hf j (by simp [hj])))

theorem Writes.mono {W' : K → Prop} {m : Tx K V E α} (hm : Writes W m)
    (h : ∀ k, W k → W' k) : Writes W' m :=
  fun s a s' hs k hk => hm s a s' hs k (fun hw => hk (h k hw))

def Preserves (P : Store K V → Prop) (m : Tx K V E α) : Prop :=
  ∀ s a s', P s → m s = .ok (a,s') → P s'

namespace Preserves

variable {P : Store K V → Prop} {m : Tx K V E α} {f : α → Tx K V E β}

theorem bind (hm : Preserves P m) (hf : ∀ a, Preserves P (f a)) : Preserves P (m >>= f) := by
  intro s b s' hs h
  obtain ⟨a,t,h1,h2⟩ := (bind_ok ..).1 h
  exact hf a t b s' (hm s a t hs h1) h2

theorem ite {c : Prop} [Decidable c] {n : Tx K V E α} (hm : Preserves P m)
    (hn : Preserves P n) : Preserves P (if c then m else n) := by
  split
  · exact hm
  · exact hn

theorem forEach {ι : Type} {g : ι → Tx K V E Unit} (is : List ι) (hg : ∀ i, Preserves P (g i)) :
    Preserves P (forEach is g) :=
  fun _ _ _ hs h => forEach_invariant (fun i _ t t' => hg i t () t') hs h

theorem of_writes (hw : Writes W m)
    (hP : ∀ s s', (∀ k, ¬ W k → s' k=s k) → P s → P s') : Preserves P m :=
  fun s a s' hs h => hP s s' (hw s a s' h) hs

end Preserves

variable [DecidableEq K]

@[simp] theorem Writes.set {k : K} (v : V k) (h : W k) : Writes W (set k v : Tx K V E Unit) := by
  intro s u s' hs k' hk'
  obtain rfl := (set_ok ..).1 hs
  exact Store.set_of_ne s v (fun he => hk' (he ▸ h))

@[simp] theorem Writes.remove {k : K} (h : W k) : Writes W (remove k : Tx K V E Unit) := by
  intro s u s' hs k' hk'
  obtain rfl := (remove_ok ..).1 hs
  exact Store.erase_of_ne s (fun he => hk' (he ▸ h))

end Framework.Tx
