import Harpocrates.Framework.Acyclic
import Harpocrates.Registry.LineageDepth

namespace Harpocrates.Registry

open Framework Relation

def NamesParent (s : Storage) (o parent : Bytes32) : Prop :=
  ∃ record, s (.Lineage o) = some record ∧ parent ∈ record.parentProofIds

/-- The step registers a derivative of something that is derived from it. -/
def ClosesCycle (host : Host) (e : Event World Label) : Prop :=
  ∃ actor parents manifestDigest operationType o depth,
    Succeeds host e (.registerLineage actor parents manifestDigest operationType o depth) ∧
    ∃ parent ∈ parents, ReflTransGen (NamesParent e.pre.store) parent o

theorem namesParent_congr {s s' : Storage} (h : ∀ o, s' (.Lineage o)=s (.Lineage o)) :
    NamesParent s'=NamesParent s := by
  funext o parent
  simp only [NamesParent,h]

theorem namesParent_new {s s' : Storage} {o : Bytes32} {record : LineageRecord}
    (free : s (.Lineage o)=none)
    (post : ∀ o', s' (.Lineage o')=if o'=o then some record else s (.Lineage o')) :
    NamesParent s'=withEdges (NamesParent s) o record.parentProofIds := by
  funext a b
  by_cases ha : a=o
  · subst ha
    simp [NamesParent,withEdges,post,free]
  · simp [NamesParent,withEdges,post,ha]

theorem succeeds_namesParent {host : Host} {e : Event World Label} {actor : Address}
    {parents : List Bytes32} {manifestDigest o : Bytes32} {operationType : String} {depth : Nat}
    (h : Succeeds host e (.registerLineage actor parents manifestDigest operationType o depth)) :
    NamesParent e.post.store=withEdges (NamesParent e.pre.store) o parents := by
  obtain ⟨record,-,rfl,free,-,post⟩ := succeeds_lineage h
  exact namesParent_new free post

/-- A step leaves the graph acyclic exactly when it was and the step closes no cycle. -/
theorem acyclic_step {host : Host} {w w' : World} {l : Label} (hst : next host w l=w') :
    Acyclic (NamesParent w'.store) ↔
      Acyclic (NamesParent w.store) ∧ ¬ ClosesCycle host ⟨w,l,w'⟩ := by
  constructor
  · intro h
    refine ⟨?_,fun hcloses => ?_⟩
    · cases lineage_step hst with
      | keep post => rwa [namesParent_congr post] at h
      | new o record _ free _ post =>
        rw [namesParent_new free post] at h
        exact (acyclic_withEdges.1 h).1
    · obtain ⟨_,_,_,_,o,_,hcall,parent,hparent,hback⟩ := hcloses
      rw [succeeds_namesParent hcall] at h
      exact (acyclic_withEdges.1 h).2 parent hparent hback
  · intro h
    obtain ⟨hold,hopen⟩ := h
    cases lineage_step hst with
    | keep post => rwa [namesParent_congr post]
    | new o record records free _ post =>
      rw [namesParent_new free post]
      refine acyclic_withEdges.2 ⟨hold,fun parent hparent hback => hopen ?_⟩
      obtain ⟨-,actor,manifestDigest,operationType,depth,hcall⟩ := records
      exact ⟨actor,_,manifestDigest,operationType,o,depth,hcall,parent,hparent,hback⟩

theorem namesParent_empty_acyclic : Acyclic (NamesParent Store.empty) := by
  intro o hcycle
  obtain ⟨_,⟨_,hrecord,-⟩,-⟩ := TransGen.head'_iff.1 hcycle
  cases hrecord

/-- No derivative is among its own ancestors, in any state, exactly when the run registered none
whose parents were already derived from it. -/
theorem lineage_acyclic {host : Host} {start : Ledger} {tr : Trace} {w : World}
    (hr : Reaches host start tr w) :
    Acyclic (NamesParent w.store) ↔ ∀ e ∈ tr, ¬ ClosesCycle host e := by
  have hhistory : ¬ Acyclic (NamesParent w.store) ↔ ∃ e∈tr, ClosesCycle host e := by
    refine Run.history_iff (P := fun w : World => ¬ Acyclic (NamesParent w.store))
      (not_not.2 namesParent_empty_acyclic) ?_ hr
    intro w l w' hst
    rw [acyclic_step hst,not_and_or,not_not,or_comm]
  rw [← not_iff_not,hhistory]
  simp

theorem not_reaches_of_no_record {s : Storage} {a b : Bytes32} (h : s (.Lineage a)=none)
    (hne : a≠b) : ¬ ReflTransGen (NamesParent s) a b := by
  intro hpath
  rcases ReflTransGen.cases_head hpath with heq | ⟨_,⟨_,hrecord,-⟩,-⟩
  · exact hne heq
  · exact absurd (h.symm.trans hrecord) (by simp)

/-- A derivative of a source artefact closes no cycle. -/
theorem lineage_acyclic_first_generation : Acyclic (NamesParent (generation 1).store) := by
  refine (lineage_acyclic (generation_reaches 1)).2 fun e he hcloses => ?_
  obtain ⟨_,_,_,_,_,_,hcall,parent,hparent,hback⟩ := hcloses
  obtain ⟨k,hk,rfl,rfl,rfl⟩ := ancestry_registers he hcall
  obtain rfl := Nat.lt_one_iff.1 hk
  obtain rfl := List.mem_singleton.1 hparent
  exact not_reaches_of_no_record (by decide +kernel) (by decide +kernel) hback

def derivedBack : Label :=
  .call ⟨3⟩ (.registerLineage ⟨3⟩ [artefact 1] (fill 90) "crop" (artefact 0) 1)

def circular : Event World Label := (generation 1).event stellarHost derivedBack

theorem circular_parents :
    (circular.post.store (.Lineage (artefact 0))).map (·.parentProofIds)=some [artefact 1] ∧
    (circular.post.store (.Lineage (artefact 1))).map (·.parentProofIds)=some [artefact 0] := by
  decide +kernel

/-- It goes through, and then each of the two is derived from the other. -/
theorem lineage_circular :
    Reaches stellarHost genesis (circular::ancestry 1) circular.post ∧
    TransGen (NamesParent circular.post.store) (artefact 0) (artefact 0) := by
  have hedge : ∀ a b, (circular.post.store (.Lineage a)).map (·.parentProofIds)=some [b] →
      NamesParent circular.post.store a b := by
    intro a b h
    obtain ⟨record,hrecord,hparents⟩ := Option.map_eq_some_iff.1 h
    exact ⟨record,hrecord,by simp [hparents]⟩
  obtain ⟨hback,hforth⟩ := circular_parents
  exact ⟨(generation_reaches 1).event _,.tail (.single (hedge _ _ hback)) (hedge _ _ hforth)⟩

end Harpocrates.Registry
