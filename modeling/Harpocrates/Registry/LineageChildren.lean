import Harpocrates.Framework.AppendLog
import Harpocrates.Registry.LineageDepth

namespace Harpocrates.Registry

open Framework Tx List Option

def ChildLog (s : Storage) (p : Bytes32) (children : List Bytes32) : Prop :=
  LogOf children ((s (.LineageChildSeq p)).getD 0) fun i => s (.LineageChild p i)

variable {s s' : Storage} {parents : List Bytes32} {host : Host} {w : World} {tr : Trace}

theorem appendLineageChild_log {parent child p : Bytes32} {u : Unit} {children : List Bytes32}
    (hlog : ChildLog s p children) (h : appendLineageChild parent child s=.ok (u,s')) :
    ChildLog s' p (if parent == p then children++[child] else children) := by
  simp only [appendLineageChild,bind_ok,get_ok,failIf_ok,set_ok] at h
  obtain ⟨_,_,⟨rfl,rfl⟩,_,_,⟨-,rfl⟩,_,_,rfl,rfl⟩ := h
  by_cases hp : parent=p
  · subst hp
    rw [if_pos (beq_self_eq_true _),ChildLog,Store.set_self,getD_some]
    exact hlog.append_of (by simp) fun i hi => by simp [hi]
  · have hp' : p≠parent := fun heq => hp heq.symm
    rw [if_neg fun heq => hp (beq_iff_eq.1 heq),ChildLog]
    simpa [ChildLog,hp'] using hlog

theorem appendLineageChildren_log {child p : Bytes32} {u : Unit} {children : List Bytes32}
    (hlog : ChildLog s p children)
    (h : forEach parents (appendLineageChild · child) s=.ok (u,s')) :
    ChildLog s' p (children++List.replicate (parents.count p) child) := by
  rw [← foldl_append_count]
  refine forEach_simulates (R := fun t children => ChildLog t p children) ?_ hlog h
  intro parent _ t t' children hlog hstep
  exact appendLineageChild_log hlog hstep

/-- Every parent had room, and each time it is named it is charged. -/
theorem validateLineage_charges {env : Env} {output : Bytes32} {claimed derived : Nat}
    (h : validateLineage env parents output claimed s=.ok (derived,s')) :
    (∀ p∈parents, lineageChildCount s p<MAX_LINEAGE_FANOUT) ∧
      ∀ p, lineageChildCount s' p=lineageChildCount s p+parents.count p := by
  simp only [validateLineage,bind_ok,failIf_ok,pure_ok] at h
  obtain ⟨_,_,⟨-,rfl⟩,_,_,⟨-,rfl⟩,_,s₁,hparents,_,_,⟨-,rfl⟩,_,_,⟨-,rfl⟩,h⟩ := h
  obtain ⟨_,s₂,hroom,_,s₃,hcharge,-,rfl⟩ := h
  have hsame : s=s₁ := by
    funext k
    exact (Writes.forEach (W := fun _ => False) _
      (fun _ _ => checkLineageParent_writes _ _ _ _) _ _ _ hparents k id).symm
  subst hsame
  obtain ⟨rfl,hfree⟩ := forEach_check (P := fun p => lineageChildCount s p<MAX_LINEAGE_FANOUT)
    (by
      intro p t ht
      simp only [bind_ok,gets_ok,failIf_ok] at ht
      obtain ⟨_,_,⟨rfl,rfl⟩,hless,rfl⟩ := ht
      exact ⟨rfl,Nat.lt_of_not_le (of_decide_eq_false hless)⟩) hroom
  refine ⟨hfree,fun p => ?_⟩
  rw [← foldl_succ_count]
  refine forEach_foldl (lineageChildCount · p) (fun n q => if q == p then n+1 else n) ?_ hcharge
  intro q _ t t' ht
  simp only [bind_ok,gets_ok,set_ok] at ht
  obtain ⟨_,_,⟨rfl,rfl⟩,rfl⟩ := ht
  by_cases hq : q=p
  · subst hq
    simp [lineageChildCount]
  · have hq' : p≠q := fun heq => hq heq.symm
    rw [if_neg fun heq => hq (beq_iff_eq.1 heq)]
    simp [lineageChildCount,hq']

variable {record : LineageRecord} {start : Ledger}

/-- What a registration does to the children of every parent. -/
theorem registerLineage_children {env : Env} {actor : Address} {manifestDigest output : Bytes32}
    {operationType : String} {depth : Nat}
    (h : registerLineage env actor parents manifestDigest operationType output depth s =
      .ok (record,s')) :
    record.outputDigest=output ∧
      (∀ p∈parents, lineageChildCount s p<MAX_LINEAGE_FANOUT) ∧
      (∀ p, lineageChildCount s' p=lineageChildCount s p+parents.count p) ∧
      ∀ p children, ChildLog s p children →
        ChildLog s' p (children++List.replicate (parents.count p) output) := by
  simp only [registerLineage,bind_ok,requireInitialized_ok,requireAuth_ok,has_ok,
    failIf_ok,gets_ok,lift_ok,set_ok,pure_ok] at h
  obtain ⟨_,_,⟨-,rfl⟩,_,_,⟨-,rfl⟩,_,_,⟨rfl,rfl⟩,_,_,⟨-,rfl⟩,h⟩ := h
  obtain ⟨derived,t,hvalid,_,_,⟨rfl,rfl⟩,_,_,⟨-,rfl⟩,h⟩ := h
  obtain ⟨_,_,rfl,_,_,hindex,rfl,rfl⟩ := h
  obtain ⟨hroom,hcharge⟩ := validateLineage_charges hvalid
  have hvalid' : ∀ k, k.family≠.LineageChildCount → t k=s k := fun k hk =>
    validateLineage_writes _ _ _ _ (List.Subset.refl _) _ _ _ hvalid k (by simpa using hk)
  refine ⟨rfl,hroom,fun p => ?_,fun p children hlog => ?_⟩
  · have hkept := Writes.forEach _
      (fun _ _ => appendLineageChild_writes _ _ (List.Subset.refl _)) _ _ _ hindex
      (.LineageChildCount p) (by simp)
    rw [← hcharge p,lineageChildCount,hkept,lineageChildCount,Store.set_of_ne _ _ (by simp)]
  · refine appendLineageChildren_log ?_ hindex
    simpa [ChildLog,hvalid'] using hlog

def Call.derivative : Call → Option Bytes32
  | .registerLineage _ _ _ _ o _ => some o
  | _ => none

/-- The record that the step makes of a derivative. -/
def registration (e : Event World Label) : Option LineageRecord :=
  match e.label with
  | .invoke _ c =>
    match c.derivative with
    | some o => if (e.pre.store (.Lineage o)).isSome then none else e.post.store (.Lineage o)
    | none => none
  | _ => none

def derivatives (tr : Trace) : List LineageRecord := tr.reverse.filterMap registration

def offspring (tr : Trace) (p : Bytes32) : List Bytes32 :=
  ((derivatives tr).filter fun r => decide (p ∈ r.parentProofIds)).map (·.outputDigest)

/-- The step registers this derivative. -/
def Derives (host : Host) (e : Event World Label) (record : LineageRecord) : Prop :=
  ∃ env actor manifestDigest operationType depth,
    Succeeds host e (.registerLineage actor record.parentProofIds manifestDigest operationType
      record.outputDigest depth) ∧
    registerLineage env actor record.parentProofIds manifestDigest operationType
      record.outputDigest depth e.pre.store = .ok (record,e.post.store)

theorem succeeds_derives {e : Event World Label} {actor : Address} {manifestDigest o : Bytes32}
    {operationType : String} {depth : Nat}
    (h : Succeeds host e (.registerLineage actor parents manifestDigest operationType o depth)) :
    ∃ record, registration e=some record ∧ Derives host e record ∧
      record.parentProofIds=parents := by
  obtain ⟨inv,hl,hx⟩ := h
  obtain ⟨record,hrecord⟩ := (discard_ok ..).1 hx
  obtain ⟨free,hparents,-,hpost⟩ := registerLineage_lineage hrecord
  obtain ⟨houtput,-⟩ := registerLineage_children hrecord
  refine ⟨record,?_,?_,hparents⟩
  · simp [registration,hl,Call.derivative,free,hpost]
  · subst hparents houtput
    exact ⟨_,actor,manifestDigest,operationType,depth,⟨inv,hl,hx⟩,hrecord⟩

/-- A step registers a derivative or leaves the children of every parent alone. -/
theorem registration_step {w' : World} {l : Label} (h : next host w l=w') :
    (∃ record, registration ⟨w,l,w'⟩=some record ∧ Derives host ⟨w,l,w'⟩ record) ∨
    (registration ⟨w,l,w'⟩=none ∧ ∀ p, w'.store (.LineageChildCount p) =
        w.store (.LineageChildCount p) ∧ w'.store (.LineageChildSeq p) =
        w.store (.LineageChildSeq p) ∧ ∀ i, w'.store (.LineageChild p i) =
        w.store (.LineageChild p i)) := by
  obtain ⟨inv,c,rfl,-,hx⟩ | hsame := next_store h
  · cases c with
    | registerLineage actor parents manifestDigest operationType o depth =>
      have hcall : Succeeds host
          ⟨w,.invoke inv (.registerLineage actor parents manifestDigest operationType o depth),w'⟩
          (.registerLineage actor parents manifestDigest operationType o depth) := ⟨inv,rfl,hx⟩
      obtain ⟨record,hregistered,hderives,-⟩ := succeeds_derives hcall
      exact .inl ⟨record,hregistered,hderives⟩
    | _ =>
      exact .inr ⟨rfl,fun p => ⟨exec_footprint hx (notMem_of_elem rfl),
        exec_footprint hx (notMem_of_elem rfl),fun i => exec_footprint hx (notMem_of_elem rfl)⟩⟩
  · refine .inr ⟨?_,fun p => ⟨hsame _ (by simp),hsame _ (by simp),fun i => hsame _ (by simp)⟩⟩
    unfold registration
    split
    · split
      · rename_i o _
        rw [hsame (.Lineage o) (by simp)]
        cases w.store (.Lineage o) with
        | none => rfl
        | some record => rfl
      · rfl
    · rfl

def appended (tr : Trace) (p : Bytes32) : List Bytes32 :=
  (derivatives tr).flatMap fun r => List.replicate (r.parentProofIds.count p) r.outputDigest

theorem derivatives_cons (e : Event World Label) (tr : Trace) :
    derivatives (e::tr)=derivatives tr++(registration e).toList := by
  rw [derivatives,reverse_cons,filterMap_append,derivatives]
  cases h : registration e with
  | none => simp [h]
  | some record => simp [h]

theorem appended_cons (e : Event World Label) (tr : Trace) (p : Bytes32) :
    appended (e::tr) p=appended tr p++(registration e).toList.flatMap
      fun r => List.replicate (r.parentProofIds.count p) r.outputDigest := by
  rw [appended,derivatives_cons,flatMap_append,appended]

theorem mem_derivatives : record∈derivatives tr ↔ ∃ e∈tr, registration e=some record := by
  simp [derivatives]

/-- List and count of a parent hold what the run appended to them. -/
theorem reaches_children (hr : Reaches host start tr w) (p : Bytes32) :
    ChildLog w.store p (appended tr p) ∧
      lineageChildCount w.store p=(appended tr p).length := by
  refine Run.invariant (C := fun _ => True)
    (I := fun tr (w : World) => ChildLog w.store p (appended tr p) ∧
      lineageChildCount w.store p=(appended tr p).length) ?_ ?_ hr fun _ _ => trivial
  · exact ⟨LogOf.empty,rfl⟩
  · intro tr w l w' _ hi hst _
    obtain ⟨hlog,hcount⟩ := hi
    rw [appended_cons]
    obtain ⟨record,hregistered,_,_,_,_,_,-,hrecord⟩ | ⟨hnone,hkept⟩ := registration_step hst
    · obtain ⟨-,-,hcharge,happend⟩ := registerLineage_children hrecord
      rw [hregistered,toList_some,flatMap_singleton,length_append,
        length_replicate]
      exact ⟨happend p _ hlog,by rw [hcharge p,hcount]⟩
    · obtain ⟨hcounter,hseq,hchild⟩ := hkept p
      rw [hnone,toList_none,flatMap_nil,append_nil]
      exact ⟨by simpa [ChildLog,hseq,hchild] using hlog,by rw [← hcount,lineageChildCount,hcounter,
        lineageChildCount]⟩

theorem derivatives_once (hr : Reaches host start tr w) :
    ((derivatives tr).map (·.outputDigest)).Nodup := by
  rw [derivatives,map_filterMap,filterMap_reverse,nodup_reverse]
  refine (Run.taken_once (T := fun (w : World) o => (w.store (.Lineage o)).isSome=true)
    ?_ ?_ hr).2
  · intro w l w' o hst htaken
    obtain ⟨record,hrecord⟩ := isSome_iff_exists.1 htaken
    exact isSome_iff_exists.2 ⟨record,lineage_kept hst hrecord⟩
  · intro w l w' o hst hkey
    obtain ⟨r,hr,rfl⟩ := map_eq_some_iff.1 hkey
    obtain ⟨record,hregistered,_,_,_,_,_,-,hrecord⟩ | ⟨hnone,-⟩ := registration_step hst
    · cases hr.symm.trans hregistered
      obtain ⟨free,-,-,hpost⟩ := registerLineage_lineage hrecord
      dsimp only at free hpost
      exact ⟨by simp [free],by simp [hpost]⟩
    · exact absurd (hr.symm.trans hnone) (by simp)

/-- The step names no parent twice. -/
def DistinctParents (host : Host) (e : Event World Label) : Prop :=
  ∀ actor parents manifestDigest operationType o depth,
    Succeeds host e (.registerLineage actor parents manifestDigest operationType o depth) →
      parents.Nodup

theorem DistinctParents.nodup {e : Event World Label} (h : DistinctParents host e)
    (hderives : Derives host e record) : record.parentProofIds.Nodup := by
  obtain ⟨_,_,_,_,_,hcall,-⟩ := hderives
  exact h _ _ _ _ _ _ hcall

theorem distinctParents_iff (hr : Reaches host start tr w) :
    (∀ e∈tr, DistinctParents host e) ↔ ∀ r∈derivatives tr, r.parentProofIds.Nodup := by
  constructor
  · intro h r hr'
    obtain ⟨e,he,hregistered⟩ := mem_derivatives.1 hr'
    obtain ⟨record,hrecord,hderives⟩ | ⟨hnone,-⟩ := registration_step (hr.next_eq he)
    · cases hregistered.symm.trans hrecord
      exact (h e he).nodup hderives
    · exact absurd (hregistered.symm.trans hnone) (by simp)
  · intro h e he actor parents manifestDigest operationType o depth hcall
    obtain ⟨record,hregistered,-,rfl⟩ := succeeds_derives hcall
    exact h record (mem_derivatives.2 ⟨e,he,hregistered⟩)

/-- A parent that no step names twice is charged for at most the allowed number of children. -/
theorem reaches_fanout (hr : Reaches host start tr w)
    (hdistinct : ∀ e∈tr, DistinctParents host e) (p : Bytes32) :
    lineageChildCount w.store p≤MAX_LINEAGE_FANOUT := by
  refine (Run.throughout (I := fun w : World => lineageChildCount w.store p≤MAX_LINEAGE_FANOUT)
    (Nat.zero_le _) ?_ hr hdistinct).2
  intro w l w' hle hst hone
  obtain ⟨record,-,hderives⟩ | ⟨-,hkept⟩ := registration_step hst
  · have hnodup := hone.nodup hderives
    obtain ⟨_,_,_,_,_,-,hrecord⟩ := hderives
    obtain ⟨-,hroom,hcharge,-⟩ := registerLineage_children hrecord
    rw [hcharge p]
    by_cases hp : p∈record.parentProofIds
    · have hless := hroom p hp
      have hcount := nodup_iff_count_le_one.1 hnodup p
      omega
    · rwa [count_eq_zero_of_not_mem hp,Nat.add_zero]
  · rwa [lineageChildCount,(hkept p).1,← lineageChildCount]

/-- List and count of a parent are the derivatives registered for it, each of them once and in the
order of registration, and no more of them than allowed. -/
structure ChildrenExact (tr : Trace) (s : Storage) (p : Bytes32) : Prop where
  listed : ChildLog s p (offspring tr p)
  once : (offspring tr p).Nodup
  counted : lineageChildCount s p = (offspring tr p).length
  bounded : lineageChildCount s p ≤ MAX_LINEAGE_FANOUT

theorem offspring_eq (tr : Trace) (p : Bytes32) : offspring tr p =
    ((derivatives tr).filter fun r => decide (0<r.parentProofIds.count p)).map
      (·.outputDigest) := by
  simp [offspring,count_pos_iff]

/-- The children of every parent are exact when no registration named a parent twice, and only
then. -/
theorem lineage_children_exact {host : Host} {start : Ledger} {tr : Trace} {w : World}
    (hr : Reaches host start tr w) :
    (∀ p, ChildrenExact tr w.store p) ↔ ∀ e ∈ tr, DistinctParents host e := by
  rw [distinctParents_iff hr]
  constructor
  · intro h r hmem
    refine nodup_iff_count_le_one.2 fun p => ?_
    have hsame : appended tr p=offspring tr p := (reaches_children hr p).1.unique (h p).listed
    have hlen := congrArg List.length hsame
    rw [appended,offspring_eq,length_map] at hlen
    have honce : ∀ r∈derivatives tr, (fun r : LineageRecord => r.parentProofIds.count p) r≤1 :=
      le_one_of_length_flatMap (le_of_eq hlen)
    exact honce r hmem
  · intro h p
    obtain ⟨hlog,hcount⟩ := reaches_children hr p
    have hsame : appended tr p=offspring tr p := by
      rw [offspring_eq]
      exact flatMap_replicate_of_le_one fun r hmem => nodup_iff_count_le_one.1 (h r hmem) p
    have hsublist : (offspring tr p).Sublist ((derivatives tr).map (·.outputDigest)) :=
      filter_sublist.map _
    exact
      { listed := hsame ▸ hlog
        once := hsublist.nodup (derivatives_once hr)
        counted := hsame ▸ hcount
        bounded := reaches_fanout hr ((distinctParents_iff hr).2 h) p }

/-- Two generations, where every derivative names one parent. -/
theorem lineage_children_exact_two_generations :
    ChildrenExact (ancestry 2) (generation 2).store (artefact 0) ∧
      offspring (ancestry 2) (artefact 0) = [artefact 1] := by
  refine ⟨(lineage_children_exact (generation_reaches 2)).2 ?_ _,by decide +kernel⟩
  intro e he actor parents manifestDigest operationType o depth hcall
  obtain ⟨k,-,-,rfl,-⟩ := ancestry_registers he hcall
  exact nodup_singleton _

def composed (parents : List Bytes32) (o : Bytes32) : Label :=
  .call ⟨3⟩ (.registerLineage ⟨3⟩ parents (fill 90) "compose" o 1)

/-- Three derivatives of one artefact, and a fourth that names it four times. -/
def overcharged : List Label :=
  artefactRegistered++[composed [artefact 0] (artefact 1),composed [artefact 0] (artefact 2),
    composed [artefact 0] (artefact 3),
    composed [artefact 0,artefact 0,artefact 0,artefact 0] (artefact 4)]

/-- The fourth derivative is listed twice and more, and the artefact is charged for seven. -/
theorem lineage_child_repeated :
    Reaches stellarHost genesis (deploy overcharged).1 (deploy overcharged).2 ∧
    offspring (deploy overcharged).1 (artefact 0) =
      [artefact 1,artefact 2,artefact 3,artefact 4] ∧
    (deploy overcharged).2.store (.LineageChild (artefact 0) 4) = some (artefact 4) ∧
    (deploy overcharged).2.store (.LineageChild (artefact 0) 5) = some (artefact 4) ∧
    lineageChildCount (deploy overcharged).2.store (artefact 0) = 7 ∧ MAX_LINEAGE_FANOUT < 7 :=
  ⟨deploy_reaches overcharged,by decide +kernel⟩

end Harpocrates.Registry
