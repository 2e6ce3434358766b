import Harpocrates.Circuits.SilentWitness

namespace Harpocrates.Circuits.SilentWitnessAggregator

open Framework.Fallible

def MAX_AGGREGATION_SIZE : Nat := 8

structure Element (F : Type) where
  videoHashHi : F
  videoHashLo : F
  credentialRoot : F
  nullifier : F

section

variable {F : Type} [DecidableEq F] [NatCast F] (pedersenHash : List F → F)

def verifyElement (canonicalRoot credentialSecret nullifierSecret : F) (e : Element F) :
    Except Failure Unit := do
  assertThat (e.credentialRoot = canonicalRoot) .batchCredentialRootMismatch
  let expectedNullifier := pedersenHash
    [credentialSecret,nullifierSecret,e.videoHashHi,e.videoHashLo]
  assertThat (e.nullifier = expectedNullifier) .batchNullifierMismatch

/-- The elements are checked one after the other. -/
def main (credentialSecret nullifierSecret : F)
    (elements : Vector (Element F) MAX_AGGREGATION_SIZE) : Except Failure Unit :=
  let canonicalRoot := pedersenHash [credentialSecret]
  forM elements.toList (verifyElement pedersenHash canonicalRoot credentialSecret nullifierSecret)

/-- What the circuit for a single element gets in place of an element of a batch. -/
def Element.statement (e : Element F) (scope ep : F) : SilentWitness.PublicInputs F where
  videoHashHi := e.videoHashHi
  videoHashLo := e.videoHashLo
  credentialRoot := e.credentialRoot
  nullifier := e.nullifier
  verifierScope := scope
  epoch := ep
  domainTag := expectedDomainTag pedersenHash
  circuitVersion := (SilentWitness.CURRENT_CIRCUIT_VERSION : Nat)

def BatchNullifier (cs ns : F) (e : Element F) : Prop :=
  e.nullifier = pedersenHash [cs,ns,e.videoHashHi,e.videoHashLo]

def ScopedNullifier (cs ns : F) (e : Element F) : Prop :=
  ∃ scope ep, e.nullifier =
    computeScopedNullifier pedersenHash cs ns e.videoHashHi e.videoHashLo scope ep

variable {pedersenHash} {cs ns root : F} {e : Element F}

omit [NatCast F] in
theorem verifyElement_ok : verifyElement pedersenHash root cs ns e=.ok () ↔
    e.credentialRoot=root ∧ BatchNullifier pedersenHash cs ns e := by
  rw [verifyElement,unit_bind_ok,assertThat_ok,assertThat_ok]
  rfl

omit [NatCast F] in
theorem main_ok {elements : Vector (Element F) MAX_AGGREGATION_SIZE} :
    main pedersenHash cs ns elements=.ok () ↔ ∀ e∈elements.toList,
      e.credentialRoot=pedersenHash [cs] ∧ BatchNullifier pedersenHash cs ns e := by
  simp only [main,forM_ok,verifyElement_ok]

theorem statement_ok :
    (∃ scope ep, SilentWitness.main pedersenHash cs ns (e.statement pedersenHash scope ep) =
      .ok ()) ↔
    e.credentialRoot=pedersenHash [cs] ∧ ScopedNullifier pedersenHash cs ns e := by
  constructor
  · intro h
    obtain ⟨scope,ep,h⟩ := h
    obtain ⟨hroot,hnull,-⟩ := SilentWitness.main_ok.1 h
    exact ⟨hroot.symm,scope,ep,hnull.symm⟩
  · intro h
    obtain ⟨hroot,scope,ep,hnull⟩ := h
    exact ⟨scope,ep,SilentWitness.main_ok.2 ⟨hroot.symm,hnull.symm,rfl⟩⟩

omit [DecidableEq F] in
/-- The two nullifiers of an element are hashes of four and of three field elements. -/
theorem nullifiers_differ (hfree : Function.Injective pedersenHash)
    (hbatch : BatchNullifier pedersenHash cs ns e) : ¬ ScopedNullifier pedersenHash cs ns e := by
  intro hscoped
  obtain ⟨scope,ep,hnull⟩ := hscoped
  have hinputs := hfree (hbatch.symm.trans hnull)
  have hlength := congrArg List.length hinputs
  simp at hlength

/-- A batch is accepted as one and element by element, or neither, exactly when it is not accepted
either way: the roots have to be right and the nullifiers have to be all of one of the two kinds. -/
theorem aggregation_is_batching (hfree : Function.Injective pedersenHash)
    (elements : Vector (Element F) MAX_AGGREGATION_SIZE) :
    (main pedersenHash cs ns elements = .ok () ↔ ∀ e ∈ elements.toList, ∃ scope ep,
      SilentWitness.main pedersenHash cs ns (e.statement pedersenHash scope ep) = .ok ()) ↔
    (∃ e ∈ elements.toList, e.credentialRoot ≠ pedersenHash [cs]) ∨
    ((∃ e ∈ elements.toList, ¬ BatchNullifier pedersenHash cs ns e) ∧
      ∃ e ∈ elements.toList, ¬ ScopedNullifier pedersenHash cs ns e) := by
  have hfirst : elements[0]∈elements.toList := by simp
  have hsingle : (∀ e∈elements.toList, ∃ scope ep,
      SilentWitness.main pedersenHash cs ns (e.statement pedersenHash scope ep)=.ok ()) ↔
      ∀ e∈elements.toList,
        e.credentialRoot=pedersenHash [cs] ∧ ScopedNullifier pedersenHash cs ns e :=
    forall₂_congr fun e _ => statement_ok
  rw [main_ok,hsingle]
  -- an element that is right in both ways cannot be, so the two sides hold together only if none
  -- of them does
  constructor
  · intro hiff
    by_contra hno
    push Not at hno
    obtain ⟨hroots,hkinds⟩ := hno
    by_cases hbatch : ∀ e∈elements.toList, BatchNullifier pedersenHash cs ns e
    · have hboth := hiff.1 (fun e he => ⟨hroots e he,hbatch e he⟩) _ hfirst
      exact nullifiers_differ hfree (hbatch _ hfirst) hboth.2
    · push Not at hbatch
      have hscoped := hkinds hbatch
      have hboth := hiff.2 (fun e he => ⟨hroots e he,hscoped e he⟩) _ hfirst
      exact nullifiers_differ hfree hboth.2 (hscoped _ hfirst)
  · intro hno
    rcases hno with ⟨e,he,hroot⟩ | ⟨⟨e,he,hbatch⟩,⟨e',he',hscoped⟩⟩
    · exact ⟨fun h => absurd (h e he).1 hroot,fun h => absurd (h e he).1 hroot⟩
    · exact ⟨fun h => absurd (h e he).2 hbatch,fun h => absurd (h e' he').2 hscoped⟩

end

def videos (nullifier : Nat → Nat) : Vector (Element Nat) MAX_AGGREGATION_SIZE :=
  Vector.ofFn fun i => ⟨i,i+1,freeHash [12345],nullifier i⟩

theorem mem_videos {nullifier : Nat → Nat} {e : Element Nat}
    (h : e∈(videos nullifier).toList) :
    ∃ i, e=⟨i,i+1,freeHash [12345],nullifier i⟩ := by
  obtain ⟨i,hi⟩ := Vector.mem_ofFn.1 (Vector.mem_toList_iff.1 h)
  exact ⟨i,hi.symm⟩

/-- A batch for which the two circuits agree: all its nullifiers are wrong. -/
theorem aggregation_is_batching_refused :
    (main freeHash 12345 67890 (videos fun _ => 0) = .ok () ↔
      ∀ e ∈ (videos fun _ => 0).toList, ∃ scope ep,
        SilentWitness.main freeHash 12345 67890 (e.statement freeHash scope ep) = .ok ()) := by
  have hzero : ∀ l : List Nat, l≠[] → (0 : Nat)≠freeHash l := by
    intro l hne hzero
    exact hne (freeHash_injective hzero.symm)
  have hmem : (videos fun _ => 0)[0]∈(videos fun _ => 0).toList := by simp
  obtain ⟨i,hi⟩ := mem_videos hmem
  refine (aggregation_is_batching freeHash_injective _).2 (.inr ⟨⟨_,hmem,?_⟩,⟨_,hmem,?_⟩⟩)
  · intro hbatch
    rw [hi] at hbatch
    exact hzero _ (by simp) hbatch
  · intro hscoped
    rw [hi] at hscoped
    obtain ⟨scope,ep,hnull⟩ := hscoped
    exact hzero _ (by simp) hnull

/-- The batch is accepted, and none of its elements is by the single circuit. -/
theorem batch_of_unacceptable_elements :
    main freeHash 12345 67890 (videos fun i => freeHash [12345,67890,i,i+1]) = .ok () ∧
    ∀ e ∈ (videos fun i => freeHash [12345,67890,i,i+1]).toList, ∀ scope ep,
      SilentWitness.main freeHash 12345 67890 (e.statement freeHash scope ep) ≠ .ok () := by
  have hbatch : ∀ e∈(videos fun i => freeHash [12345,67890,i,i+1]).toList,
      e.credentialRoot=freeHash [12345] ∧ BatchNullifier freeHash 12345 67890 e := by
    intro e he
    obtain ⟨i,rfl⟩ := mem_videos he
    exact ⟨rfl,rfl⟩
  refine ⟨main_ok.2 hbatch,fun e he scope ep h => ?_⟩
  exact nullifiers_differ freeHash_injective (hbatch e he).2 (statement_ok.1 ⟨scope,ep,h⟩).2

end Harpocrates.Circuits.SilentWitnessAggregator
