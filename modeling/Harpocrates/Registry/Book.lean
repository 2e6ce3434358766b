import Mathlib.Data.List.Nodup
import Harpocrates.Framework.UniqueIndex
import Mathlib.Tactic

namespace Harpocrates.Registry

open Framework List

/-- What is fixed about a proof when it is registered. -/
structure Entry (V N : Type) where
  video : V
  nullifier : Option N
  tier : Nat

/-- What the registry is for: proofs with their videos, the owner of each video, and the
nullifiers spent under each verifier. -/
structure Book (A P V N : Type) where
  entry : P → Option (Entry V N)
  owner : V → Option P
  spent : A → N → Prop

/-- The two ways the book is written. -/
inductive Op (A P V N : Type)
  | spend (verifier : A) (nullifier : N)
  | record (proof : P) (e : Entry V N)

variable {A P V N : Type}

/-- The registrations among the operations. -/
def Op.entries : List (Op A P V N) → List (P × Entry V N)
  | [] => []
  | .spend _ _::ops => entries ops
  | .record p e::ops => (p,e)::entries ops

variable {ops : List (Op A P V N)} {b : Book A P V N}

theorem Op.mem_entries {p : P} {e : Entry V N} : (p,e)∈entries ops ↔ .record p e∈ops := by
  induction ops with
  | nil => simp [entries]
  | cons o ops ih =>
    cases o with
    | spend a n => simp [entries,ih]
    | record q f => simp [entries,ih]

theorem Op.entries_append (ops ops' : List (Op A P V N)) :
    entries (ops++ops')=entries ops++entries ops' := by
  induction ops with
  | nil => rfl
  | cons o ops ih =>
    cases o with
    | spend a n => simpa [entries] using ih
    | record p e => simpa [entries] using ih

namespace Book

variable [DecidableEq P] [DecidableEq V]

def apply (b : Book A P V N) : Op A P V N → Book A P V N
  | .spend a n => { b with spent := fun a' n' => b.spent a' n' ∨ (a' = a ∧ n' = n) }
  | .record p e =>
    { b with
      entry := Function.update b.entry p (some e)
      owner := Function.update b.owner e.video (some p) }

def applyAll (b : Book A P V N) (ops : List (Op A P V N)) : Book A P V N := ops.foldl apply b

@[simp] theorem applyAll_nil (b : Book A P V N) : b.applyAll []=b := rfl

@[simp] theorem applyAll_cons (b : Book A P V N) (o : Op A P V N) (ops : List (Op A P V N)) :
    b.applyAll (o::ops)=(b.apply o).applyAll ops := rfl

theorem applyAll_append (b : Book A P V N) (ops ops' : List (Op A P V N)) :
    b.applyAll (ops++ops')=(b.applyAll ops).applyAll ops' :=
  foldl_append

theorem spent_applyAll (b : Book A P V N) (ops : List (Op A P V N)) (a : A) (n : N) :
    (b.applyAll ops).spent a n ↔ b.spent a n ∨ .spend a n∈ops := by
  induction ops generalizing b with
  | nil => simp
  | cons o ops ih =>
    rw [applyAll_cons,ih]
    cases o with
    | spend a' n' => simp [apply,or_assoc]
    | record p e => simp [apply]

/-- An entry found afterwards was registered now or was there before. -/
theorem entry_applyAll_cases {p : P} {e : Entry V N} (h : (b.applyAll ops).entry p=some e) :
    .record p e∈ops ∨ b.entry p=some e := by
  induction ops generalizing b with
  | nil => exact .inr h
  | cons o ops ih =>
    rcases ih h with h | h
    · exact .inl (mem_cons_of_mem _ h)
    · cases o with
      | spend a n => exact .inr h
      | record q f =>
        by_cases hq : p=q
        · subst hq
          obtain rfl : f=e := by simpa [apply] using h
          exact .inl (by simp)
        · exact .inr (by simpa [apply,hq] using h)

theorem entry_applyAll_of_not_mem {p : P} (h : ∀ e, .record p e∉ops) :
    (b.applyAll ops).entry p=b.entry p := by
  induction ops generalizing b with
  | nil => rfl
  | cons o ops ih =>
    rw [applyAll_cons,ih (fun e he => h e (mem_cons_of_mem _ he))]
    cases o with
    | spend a n => rfl
    | record q f =>
      have hq : p≠q := by
        intro heq
        subst heq
        exact h f (by simp)
      simp [apply,hq]

/-- What is registered now is found afterwards, provided no id is registered twice. -/
theorem entry_applyAll_of_mem {p : P} {e : Entry V N}
    (hids : ((Op.entries ops).map Prod.fst).Nodup) (h : .record p e∈ops) :
    (b.applyAll ops).entry p=some e := by
  induction ops generalizing b with
  | nil => simp at h
  | cons o ops ih =>
    cases o with
    | spend a n => exact ih hids (by simpa using h)
    | record q f =>
      obtain ⟨hq,hids⟩ := nodup_cons.1 hids
      rcases mem_cons.1 h with h | h
      · cases h
        rw [applyAll_cons,entry_applyAll_of_not_mem]
        · simp [apply]
        · intro e' h'
          exact hq (mem_map.2 ⟨(p,e'),Op.mem_entries.2 h',rfl⟩)
      · exact ih hids h

theorem entry_applyAll_isSome {p : P} (h : b.entry p≠none) : (b.applyAll ops).entry p≠none := by
  induction ops generalizing b with
  | nil => exact h
  | cons o ops ih =>
    apply ih
    cases o with
    | spend a n => exact h
    | record q f =>
      by_cases hq : p=q
      · simp [apply,hq]
      · simpa [apply,hq] using h

/-- Registrations of new proofs with new videos, no id and no video twice, keep the table of
proofs and the table of videos inverse to each other. -/
theorem indexed_applyAll (hb : Indexed Entry.video b.entry b.owner)
    (hfresh : ∀ p e, .record p e∈ops → b.entry p=none ∧ b.owner e.video=none)
    (hids : ((Op.entries ops).map Prod.fst).Nodup)
    (hvideos : ((Op.entries ops).map (·.2.video)).Nodup) :
    Indexed Entry.video (b.applyAll ops).entry (b.applyAll ops).owner := by
  induction ops generalizing b with
  | nil => exact hb
  | cons o ops ih =>
    cases o with
    | spend a n =>
      exact ih (b := b.apply (.spend a n)) hb
        (fun p e h => hfresh p e (mem_cons_of_mem _ h)) hids hvideos
    | record q f =>
      obtain ⟨hq,hids⟩ := nodup_cons.1 hids
      obtain ⟨hv,hvideos⟩ := nodup_cons.1 hvideos
      have new := hfresh q f (by simp)
      refine ih (b := b.apply (.record q f)) (hb.insert new.1 new.2) ?_ hids hvideos
      intro p e h
      have old := hfresh p e (mem_cons_of_mem _ h)
      have mem := Op.mem_entries.2 h
      have hpq : p≠q := by
        intro heq
        subst heq
        exact hq (mem_map.2 ⟨(p,e),mem,rfl⟩)
      have hvv : e.video≠f.video := by
        intro he
        exact hv (mem_map.2 ⟨(p,e),mem,he⟩)
      exact ⟨by simp [apply,hpq,old.1],by simp [apply,hvv,old.2]⟩

/-- No two proofs registered under one verifier carry the same nullifier, because each
carried nullifier is spent under the verifiers its proof was registered under. -/
structure SingleUse (b : Book A P V N) (under : P → A → Prop) : Prop where
  spent : ∀ p e n a, b.entry p = some e → e.nullifier = some n → under p a → b.spent a n
  unique : ∀ p q e f n a, b.entry p = some e → b.entry q = some f → e.nullifier = some n →
    f.nullifier = some n → under p a → under q a → p = q

/-- Registrations under the active verifier keep nullifiers single-use when each one spends
a nullifier that was not spent yet and no two of them spend the same one. -/
theorem SingleUse.applyAll {under under' : P → A → Prop} (active : Option A)
    (hb : b.SingleUse under) (hstay : ∀ p a, under p a → b.entry p≠none)
    (hunder : ∀ p a, under' p a → under p a ∨ (b.entry p=none ∧ active=some a))
    (hfresh : ∀ p e, .record p e∈ops → b.entry p=none)
    (hspend : ∀ p e n a, .record p e∈ops → e.nullifier=some n → active=some a →
      .spend a n∈ops ∧ ¬ b.spent a n)
    (honce : ∀ p q e f n, .record p e∈ops → .record q f∈ops → e.nullifier=some n →
      f.nullifier=some n → p=q) : (b.applyAll ops).SingleUse under' := by
  have old : ∀ p e a, .record p e∉ops → (b.applyAll ops).entry p=some e → under' p a →
      b.entry p=some e ∧ under p a := by
    intro p e a hnew he hu
    rcases entry_applyAll_cases he with h | h
    · exact absurd h hnew
    · refine ⟨h,(hunder p a hu).resolve_right ?_⟩
      intro hyp
      obtain ⟨hn,-⟩ := hyp
      rw [h] at hn
      cases hn
  have new : ∀ p e a, .record p e∈ops → under' p a → active=some a := by
    intro p e a hnew hu
    rcases hunder p a hu with h | h
    · exact absurd (hfresh p e hnew) (hstay p a h)
    · exact h.2
  constructor
  · intro p e n a he hn hu
    rw [spent_applyAll]
    by_cases hp : .record p e∈ops
    · exact .inr (hspend p e n a hp hn (new p e a hp hu)).1
    · obtain ⟨he,hu⟩ := old p e a hp he hu
      exact .inl (hb.spent p e n a he hn hu)
  · intro p q e f n a he hf hen hfn hup huq
    by_cases hp : .record p e∈ops <;> by_cases hq : .record q f∈ops
    · exact honce p q e f n hp hq hen hfn
    · obtain ⟨hf,huq⟩ := old q f a hq hf huq
      exact absurd (hb.spent q f n a hf hfn huq) (hspend p e n a hp hen (new p e a hp hup)).2
    · obtain ⟨he,hup⟩ := old p e a hp he hup
      exact absurd (hb.spent p e n a he hen hup) (hspend q f n a hq hfn (new q f a hq huq)).2
    · obtain ⟨he,hup⟩ := old p e a hp he hup
      obtain ⟨hf,huq⟩ := old q f a hq hf huq
      exact hb.unique p q e f n a he hf hen hfn hup huq

end Book

end Harpocrates.Registry
