import Harpocrates.Framework.Counting
import Harpocrates.Registry.System

namespace Harpocrates.Registry

open Framework Tx List Option Nat

variable {parents : List Bytes32} {s : Storage} {o : Bytes32} {w' : World}

theorem validateLineage_depth {env : Env} {output : Bytes32} {claimed derived : Nat}
    {s' : Storage} (h : validateLineage env parents output claimed s=.ok (derived,s')) :
    derived=1 := by
  simp only [validateLineage,bind_ok,pure_ok] at h
  obtain ⟨_,_,-,_,_,-,_,_,-,_,_,-,_,_,-,_,_,-,_,_,-,rfl,-⟩ := h
  rfl

variable {record : LineageRecord} {manifestDigest : Bytes32} {operationType : String}
  {e : Event World Label}

/-- A registration adds one record, under a digest that had none. -/
theorem registerLineage_lineage {env : Env} {actor : Address} {output : Bytes32} {depth : Nat}
    {s' : Storage}
    (h : registerLineage env actor parents manifestDigest operationType output depth s =
      .ok (record,s')) :
    s (.Lineage output)=none ∧ record.parentProofIds=parents ∧ record.depth=1 ∧
      ∀ o, s' (.Lineage o)=if o=output then some record else s (.Lineage o) := by
  simp only [registerLineage,bind_ok,requireInitialized_ok,requireAuth_ok,has_ok,
    failIf_ok,gets_ok,lift_ok,set_ok,pure_ok] at h
  obtain ⟨_,_,⟨-,rfl⟩,_,_,⟨-,rfl⟩,_,_,⟨rfl,rfl⟩,_,_,⟨free,rfl⟩,h⟩ := h
  obtain ⟨derived,t,hvalid,_,_,⟨rfl,rfl⟩,_,_,⟨-,rfl⟩,h⟩ := h
  obtain ⟨_,_,rfl,_,_,hindex,rfl,rfl⟩ := h
  have hvalid' : ∀ o, t (.Lineage o)=s (.Lineage o) := fun o =>
    validateLineage_writes _ _ _ _ (List.Subset.refl _) _ _ _ hvalid _ (by simp)
  refine ⟨by simpa using free,rfl,validateLineage_depth hvalid,fun o => ?_⟩
  rw [Writes.forEach _ (fun _ _ => appendLineageChild_writes _ _ (List.Subset.refl _)) _ _ _
    hindex (.Lineage o) (by simp)]
  by_cases ho : o=output
  · subst ho
    simp
  · have hk : DataKey.Lineage o≠.Lineage output := by simpa using ho
    rw [Store.set_of_ne _ _ hk,hvalid' o,if_neg ho]

/-- The step registers a derivative and makes this record of it. -/
def Records (host : Host) (e : Event World Label) (o : Bytes32) (record : LineageRecord) : Prop :=
  e.post.store (.Lineage o) = some record ∧ ∃ actor manifestDigest operationType depth,
    Succeeds host e (.registerLineage actor record.parentProofIds manifestDigest operationType o
      depth)

/-- What a step can do to the lineage records. -/
inductive LineageStep (host : Host) (e : Event World Label) : Prop
  | keep (post : ∀ o, e.post.store (.Lineage o) = e.pre.store (.Lineage o))
  | new (o : Bytes32) (record : LineageRecord) (records : Records host e o record)
      (free : e.pre.store (.Lineage o) = none) (depth : record.depth = 1)
      (post : ∀ o', e.post.store (.Lineage o') =
        if o' = o then some record else e.pre.store (.Lineage o'))

theorem succeeds_lineage {host : Host} {actor : Address} {depth : Nat}
    (h : Succeeds host e (.registerLineage actor parents manifestDigest operationType o depth)) :
    ∃ record, Records host e o record ∧ record.parentProofIds=parents ∧
      e.pre.store (.Lineage o)=none ∧ record.depth=1 ∧
      ∀ o', e.post.store (.Lineage o') =
        if o'=o then some record else e.pre.store (.Lineage o') := by
  obtain ⟨inv,hl,hx⟩ := h
  obtain ⟨record,hrecord⟩ := (discard_ok ..).1 hx
  obtain ⟨free,rfl,hdepth,hpost⟩ := registerLineage_lineage hrecord
  exact ⟨record,⟨by simp [hpost],actor,manifestDigest,operationType,depth,inv,hl,hx⟩,rfl,free,
    hdepth,hpost⟩

theorem lineage_step {host : Host} {w : World} {l : Label} (h : next host w l=w') :
    LineageStep host ⟨w,l,w'⟩ := by
  obtain ⟨inv,c,hl,-,hx⟩ | hsame := next_store h
  · cases c with
    | registerLineage actor parents manifestDigest operationType o depth =>
      have hs : Succeeds host ⟨w,l,w'⟩
          (.registerLineage actor parents manifestDigest operationType o depth) := ⟨inv,hl,hx⟩
      obtain ⟨record,hrecords,-,free,hdepth,hpost⟩ := succeeds_lineage hs
      exact .new o record hrecords free hdepth hpost
    | _ => exact .keep fun o => exec_footprint hx (notMem_of_elem rfl)
  · exact .keep fun o => hsame _ (by simp)

theorem Records.depth_eq_one {host : Host} (h : Records host e o record) : record.depth=1 := by
  obtain ⟨hstored,_,_,_,_,hcall⟩ := h
  obtain ⟨record',⟨hstored',-⟩,-,-,hdepth,-⟩ := succeeds_lineage hcall
  cases hstored'.symm.trans hstored
  exact hdepth

theorem lineage_kept {host : Host} {w : World} {l : Label} (h : next host w l=w')
    (hw : w.store (.Lineage o)=some record) : w'.store (.Lineage o)=some record := by
  cases lineage_step h with
  | keep post => exact (post o).trans hw
  | new o' record' _ free _ post =>
    have hne : o≠o' := by
      intro heq
      subst heq
      exact absurd (hw.symm.trans free) (by simp)
    exact ((post o).trans (if_neg hne)).trans hw

theorem proceeds_lineage {host : Host} {w : World} {tr : Trace} (h : Proceeds host w tr w')
    (hw : w.store (.Lineage o)=some record) : w'.store (.Lineage o)=some record :=
  Run.state_invariant (I := fun w' : World => w'.store (.Lineage o)=some record) hw
    (fun _ _ _ hi hst => lineage_kept hst hi) h

/-- The records of a state are the ones that the steps of the run made. -/
theorem stored_iff_recorded {host : Host} {start : Ledger} {tr : Trace} {w : World}
    (h : Reaches host start tr w) (o : Bytes32) (record : LineageRecord) :
    w.store (.Lineage o)=some record ↔ ∃ e∈tr, Records host e o record := by
  refine Run.history_iff (P := fun w : World => w.store (.Lineage o)=some record)
    (Q := fun e => Records host e o record) (by simp [Store.empty]) ?_ h
  intro w l w' hst
  constructor
  · intro hw'
    cases lineage_step hst with
    | keep post => exact .inr ((post o).symm.trans hw')
    | new o' record' records _ _ post =>
      by_cases ho : o=o'
      · subst ho
        obtain rfl := Option.some.inj (((post o).trans (if_pos rfl)).symm.trans hw')
        exact .inl records
      · exact .inr (((post o).trans (if_neg ho)).symm.trans hw')
  · intro hcase
    rcases hcase with hrecords | hw
    · exact hrecords.1
    · exact lineage_kept hst hw

def parentDepth (s : Storage) (parent : Bytes32) : Nat :=
  ((s (.Lineage parent)).map (·.depth)).getD 0

def maxParentDepth (s : Storage) (parents : List Bytes32) : Nat :=
  (parents.map (parentDepth s)).foldr max 0

theorem parentDepth_of_record {parent : Bytes32} (h : s (.Lineage parent)=some record) :
    parentDepth s parent=record.depth := by
  simp [parentDepth,h]

theorem parentDepth_le_max {parent : Bytes32} (h : parent∈parents) :
    parentDepth s parent ≤ maxParentDepth s parents :=
  le_max_of_le (mem_map_of_mem h) (le_refl _)

theorem maxParentDepth_eq_zero (h : ∀ parent∈parents, s (.Lineage parent)=none) :
    maxParentDepth s parents=0 := by
  refine le_zero.1 (max_le_of_forall_le _ 0 ?_)
  intro depth hdepth
  obtain ⟨parent,hparent,rfl⟩ := mem_map.1 hdepth
  simp [parentDepth,h parent hparent]

def Deep (before : Storage) (record : LineageRecord) : Prop :=
  record.depth = 1+maxParentDepth before record.parentProofIds ∧
    record.depth ≤ MAX_LINEAGE_DEPTH

def DerivedFrom (host : Host) (tr : Trace) (o parent : Bytes32) : Prop :=
  ∃ e ∈ tr, ∃ record, Records host e o record ∧ parent ∈ record.parentProofIds ∧
    (e.pre.store (.Lineage parent)).isSome = true

def DerivationChain (host : Host) (tr : Trace) (w : World) (chain : List Bytes32) : Prop :=
  chain.IsChain (DerivedFrom host tr) ∧
    ∀ o ∈ chain, (w.store (.Lineage o)).isSome = true

/-- The step registers a derivative of something that is itself a derivative. -/
def Continues (host : Host) (e : Event World Label) : Prop :=
  ∃ actor parents manifestDigest operationType o depth,
    Succeeds host e (.registerLineage actor parents manifestDigest operationType o depth) ∧
    ∃ parent ∈ parents, (e.pre.store (.Lineage parent)).isSome = true

section

variable {host : Host} {start : Ledger} {tr : Trace} {w : World}

theorem parentDepth_lt (hr : Reaches host start tr w)
    (hdeep : ∀ e∈tr, ∀ o record, Records host e o record → Deep e.pre.store record)
    {o parent : Bytes32} (h : DerivedFrom host tr o parent) :
    parentDepth w.store parent<parentDepth w.store o := by
  obtain ⟨e,he,record,hrecord,hparent,hsome⟩ := h
  obtain ⟨before,hbefore⟩ := isSome_iff_exists.1 hsome
  obtain ⟨_,_,-,-,hst,hafter⟩ := Run.event_split hr he
  have hkept := proceeds_lineage hafter (lineage_kept hst hbefore)
  have hstored := proceeds_lineage hafter hrecord.1
  have hmax := parentDepth_le_max (s := e.pre.store) hparent
  have hdepth := (hdeep e he o record hrecord).1
  rw [parentDepth_of_record hbefore] at hmax
  rw [parentDepth_of_record hkept,parentDepth_of_record hstored]
  omega

/-- Depths that are kept right and within the limit keep the chains within it. -/
theorem chain_length_le (hr : Reaches host start tr w)
    (hdeep : ∀ e∈tr, ∀ o record, Records host e o record → Deep e.pre.store record)
    {chain : List Bytes32} (h : DerivationChain host tr w chain) :
    chain.length≤MAX_LINEAGE_DEPTH := by
  have depths : ∀ o, (w.store (.Lineage o)).isSome=true →
      0<parentDepth w.store o ∧ parentDepth w.store o≤MAX_LINEAGE_DEPTH := by
    intro o ho
    obtain ⟨record,hrecord⟩ := isSome_iff_exists.1 ho
    obtain ⟨e,he,hmade⟩ := (stored_iff_recorded hr o record).1 hrecord
    obtain ⟨hdepth,hlimit⟩ := hdeep e he o record hmade
    rw [parentDepth_of_record hrecord]
    exact ⟨by omega,hlimit⟩
  obtain ⟨hchain,hall⟩ := h
  cases chain with
  | nil => exact zero_le _
  | cons o rest =>
    have hfalls : ∀ a b, DerivedFrom host tr a b → parentDepth w.store b<parentDepth w.store a :=
      fun _ _ => parentDepth_lt hr hdeep
    have hlen := length_le_rank hfalls hchain fun b hb => (depths b (hall b hb)).1
    exact hlen.trans (depths o (hall o mem_cons_self)).2

/-- The depth of a record is right when no parent of it had a record, and only then. -/
theorem Records.deep_iff {o : Bytes32} (hr : Reaches host start tr w) (he : e∈tr)
    (hrecord : Records host e o record) : Deep e.pre.store record ↔
      ∀ parent∈record.parentProofIds, e.pre.store (.Lineage parent)=none := by
  have hdepth := hrecord.depth_eq_one
  constructor
  · intro hdeep parent hparent
    by_contra hsome
    obtain ⟨before,hbefore⟩ := ne_none_iff_exists'.1 hsome
    obtain ⟨_,_,-,hbegin,-⟩ := Run.event_split hr he
    obtain ⟨_,-,hmade⟩ := (stored_iff_recorded hbegin parent before).1 hbefore
    have hmax := parentDepth_le_max (s := e.pre.store) hparent
    rw [parentDepth_of_record hbefore,hmade.depth_eq_one] at hmax
    have hsum := hdeep.1
    omega
  · intro hnone
    rw [Deep,maxParentDepth_eq_zero hnone,hdepth]
    decide

/-- The records are those the run made, and each has the depth that its parents give exactly when
no parent of it had a record. All of them do, and no derivation chain is longer than the limit,
exactly when no derivative of a derivative was registered. -/
theorem lineage_depth (hr : Reaches host start tr w) :
    (∀ o record, w.store (.Lineage o) = some record ↔ ∃ e ∈ tr, Records host e o record) ∧
    (∀ e ∈ tr, ∀ o record, Records host e o record → (Deep e.pre.store record ↔
      ∀ parent ∈ record.parentProofIds, e.pre.store (.Lineage parent) = none)) ∧
    (((∀ e ∈ tr, ∀ o record, Records host e o record → Deep e.pre.store record) ∧
      ∀ chain, DerivationChain host tr w chain → chain.length ≤ MAX_LINEAGE_DEPTH) ↔
      ∀ e ∈ tr, ¬ Continues host e) := by
  refine ⟨stored_iff_recorded hr,fun _ he _ _ hrecord => hrecord.deep_iff hr he,?_,?_⟩
  · intro h e he hcontinues
    obtain ⟨_,_,_,_,o,_,hcall,parent,hparent,hsome⟩ := hcontinues
    obtain ⟨record,hrecord,rfl,-⟩ := succeeds_lineage hcall
    have hnone := (hrecord.deep_iff hr he).1 (h.1 e he o record hrecord) parent hparent
    exact absurd hsome (by simp [hnone])
  · intro h
    have hdeep : ∀ e∈tr, ∀ o record, Records host e o record → Deep e.pre.store record := by
      intro e he o record hrecord
      refine (hrecord.deep_iff hr he).2 fun parent hparent => ?_
      obtain ⟨-,actor,manifestDigest,operationType,depth,hcall⟩ := hrecord
      by_contra hsome
      exact h e he ⟨actor,_,manifestDigest,operationType,o,depth,hcall,parent,hparent,
        isSome_iff_ne_none.2 hsome⟩
    exact ⟨hdeep,fun _ hchain => chain_length_le hr hdeep hchain⟩

end

def artefact (n : Nat) : Bytes32 := fill (UInt8.ofNat (n+1))

def derivation (n depth : Nat) : Call :=
  .registerLineage ⟨3⟩ [artefact n] (fill 90) "crop" (artefact (n+1)) depth

def artefactRegistered : List Label :=
  [.call ⟨1⟩ (.init ⟨1⟩),.call ⟨2⟩ (.registerSource ⟨2⟩ (fill 80) zero32 (artefact 0))]

def generation : Nat → World
  | 0 => (deploy artefactRegistered).2
  | n+1 => next stellarHost (generation n) (.call ⟨3⟩ (derivation n 1))

def derived (n : Nat) : Event World Label :=
  (generation n).event stellarHost (.call ⟨3⟩ (derivation n 1))

def ancestry : Nat → Trace
  | 0 => (deploy artefactRegistered).1
  | n+1 => derived n::ancestry n

theorem generation_reaches (n : Nat) :
    Reaches stellarHost genesis (ancestry n) (generation n) := by
  induction n with
  | zero => exact deploy_reaches artefactRegistered
  | succ n ih => exact ih.event _

theorem derived_mem {k n : Nat} (h : k<n) : derived k∈ancestry n := by
  induction n with
  | zero => exact absurd h (Nat.not_lt_zero k)
  | succ n ih =>
    rcases Nat.lt_succ_iff_lt_or_eq.1 h with hlt | rfl
    · exact List.mem_cons_of_mem _ (ih hlt)
    · exact List.mem_cons_self

theorem ancestry_registers {n : Nat} {actor : Address} {parents : List Bytes32} {o : Bytes32}
    {depth : Nat} (he : e∈ancestry n) (h : Succeeds stellarHost e
      (.registerLineage actor parents manifestDigest operationType o depth)) :
    ∃ k<n, e=derived k ∧ parents=[artefact k] ∧ o=artefact (k+1) := by
  induction n with
  | zero =>
    have hlabel := play_label he
    obtain ⟨_,hregisters,-⟩ := h
    rw [hregisters] at hlabel
    simp [artefactRegistered,Label.call] at hlabel
  | succ n ih =>
    rcases mem_cons.1 he with rfl | he
    · obtain ⟨_,hlabel,-⟩ := h
      cases hlabel
      exact ⟨n,lt_succ_self n,rfl,rfl,rfl⟩
    · obtain ⟨k,hk,hderived⟩ := ih he
      exact ⟨k,lt_succ_of_lt hk,hderived⟩

theorem derivation_accepted : ∀ n<5, (exec ((generation n).env stellarHost (.signedBy ⟨3⟩))
    (derivation n 1) (generation n).store).isOk=true := by
  decide +kernel

theorem derived_recorded {n : Nat} (h : n<5) :
    ∃ record, Records stellarHost (derived n) (artefact (n+1)) record ∧
      record.parentProofIds=[artefact n] := by
  have hcall : Succeeds stellarHost (derived n) (derivation n 1) :=
    succeeds_event (derivation_accepted n h)
  obtain ⟨record,hrecord,hparents,-⟩ := succeeds_lineage hcall
  exact ⟨record,hrecord,hparents⟩

/-- One generation after the source has the depth its parent gives. -/
theorem lineage_depth_first_generation :
    (∃ record, (generation 1).store (.Lineage (artefact 1)) = some record ∧
      Deep (generation 0).store record) ∧
    ∀ chain, DerivationChain stellarHost (ancestry 1) (generation 1) chain →
      chain.length ≤ MAX_LINEAGE_DEPTH := by
  obtain ⟨hstored,-,hall⟩ := lineage_depth (generation_reaches 1)
  have hfirst : ∀ e∈ancestry 1, ¬ Continues stellarHost e := by
    intro e he hcontinues
    obtain ⟨_,_,_,_,_,_,hcall,parent,hparent,hsome⟩ := hcontinues
    obtain ⟨k,hk,rfl,rfl,-⟩ := ancestry_registers he hcall
    obtain rfl := lt_one_iff.1 hk
    obtain rfl := mem_singleton.1 hparent
    exact absurd hsome (by decide +kernel)
  obtain ⟨hdeep,hchain⟩ := hall.2 hfirst
  obtain ⟨record,hrecord,-⟩ := derived_recorded (n := 0) (by decide)
  exact ⟨⟨record,hrecord.1,hdeep _ (derived_mem zero_lt_one) _ _ hrecord⟩,hchain⟩

/-- Five generations are registered, and every one of them is recorded at depth one; the real
depth of the second is refused. -/
theorem lineage_chain_exceeds_limit :
    DerivationChain stellarHost (ancestry 5) (generation 5)
      [artefact 5,artefact 4,artefact 3,artefact 2,artefact 1] ∧
    MAX_LINEAGE_DEPTH < 5 ∧
    (∀ n < 5, parentDepth (generation 5).store (artefact (n+1)) = 1) ∧
    exec ((generation 1).env stellarHost (.signedBy ⟨3⟩)) (derivation 1 2) (generation 1).store =
      .error (.error .LineageDepthMismatch) := by
  have hlink : ∀ n<4, DerivedFrom stellarHost (ancestry 5) (artefact (n+2)) (artefact (n+1)) := by
    intro n hn
    obtain ⟨record,hrecord,hparents⟩ := derived_recorded (n := n+1) (by omega)
    obtain ⟨before,hbefore,-⟩ := derived_recorded (n := n) (by omega)
    refine ⟨derived (n+1),derived_mem (by omega),record,hrecord,by simp [hparents],?_⟩
    exact isSome_iff_exists.2 ⟨before,hbefore.1⟩
  refine ⟨⟨?_,by decide +kernel⟩,by decide,by decide +kernel,?_⟩
  · simp [hlink]
  · rfl

end Harpocrates.Registry
