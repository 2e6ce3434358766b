import Harpocrates.Framework.Paging
import Harpocrates.Registry.LineageChildren
import Harpocrates.Registry.Supersession

namespace Harpocrates.Registry

open Framework List Option Nat Function

def MAX_PROOF_DISPUTES_PAGE : Nat := 50
def MAX_LINEAGE_CHILDREN_PAGE : Nat := 50

def listProofDisputes (s : Storage) (proofId : Bytes32) (cursor limit : Nat) : List Bytes32 :=
  let total := (s (.ProofDisputeSeq proofId)).getD 0
  if cursor ≥ total then []
  else
    let effectiveLimit :=
      if limit > MAX_PROOF_DISPUTES_PAGE then MAX_PROOF_DISPUTES_PAGE else limit
    if effectiveLimit = 0 then []
    else
      let remaining := total-cursor
      let count := if remaining < effectiveLimit then remaining else effectiveLimit
      (List.range' cursor count).filterMap fun idx => s (.ProofDispute proofId (idx+1))

structure LineageChildrenPage where
  children : List Bytes32
  nextOffset : Nat
  total : Nat
  deriving DecidableEq

def listLineageChildren (s : Storage) (parentProofId : Bytes32) (offset limit : Nat) :
    Except RegistryError LineageChildrenPage :=
  if limit = 0 ∨ limit > MAX_LINEAGE_CHILDREN_PAGE then .error .LineageChildrenLimitExceeded
  else
    let total := (s (.LineageChildSeq parentProofId)).getD 0
    if offset ≥ total then .ok { children := [], nextOffset := total, total }
    else
      let stop := if total-offset < limit then total else offset+limit
      .ok
        { children := (List.range' offset (stop-offset)).filterMap fun idx =>
            s (.LineageChild parentProofId (idx+1))
          nextOffset := stop
          total }

/-- A page of disputes; the next one starts after as many disputes as were returned. -/
def disputesPage (s : Storage) (p : Bytes32) (cursor limit : Nat) :
    Option (List Bytes32 × Option Nat) :=
  some (listProofDisputes s p cursor limit,
    some (cursor+(listProofDisputes s p cursor limit).length))

/-- A page of children; a limit that is refused gives none. -/
def childrenPage (s : Storage) (p : Bytes32) (offset limit : Nat) :
    Option (List Bytes32 × Option Nat) :=
  (listLineageChildren s p offset limit).toOption.map fun page =>
    (page.children,some page.nextOffset)

def DisputeLog (s : Storage) (p : Bytes32) (disputes : List Bytes32) : Prop :=
  LogOf disputes ((s (.ProofDisputeSeq p)).getD 0) fun i => s (.ProofDispute p i)

variable {p : Bytes32} {disputes : List Bytes32} {s : Storage} {host : Host} {w : World}
  {tr : Trace}

theorem appendProofDispute_log {q d : Bytes32} {s' : Storage} {u : Unit}
    (hlog : DisputeLog s p disputes) (h : appendProofDispute q d s=.ok (u,s')) :
    DisputeLog s' p (if q=p then disputes++[d] else disputes) := by
  simp only [appendProofDispute,Tx.bind_ok,Tx.get_ok,add32_ok,Tx.set_ok] at h
  obtain ⟨_,_,⟨rfl,rfl⟩,_,_,⟨-,rfl,rfl⟩,_,_,rfl,rfl⟩ := h
  by_cases hq : q=p
  · subst hq
    rw [if_pos rfl,DisputeLog,Store.set_self,getD_some]
    exact hlog.append_of (by simp) fun i hi => by simp [hi]
  · have hq' : p≠q := fun heq => hq heq.symm
    rw [if_neg hq,DisputeLog]
    simpa [DisputeLog,hq'] using hlog

def Call.disputed : Call → Option (Bytes32 × Bytes32)
  | .openDispute _ _ d p _ _ => some (d,p)
  | _ => none

/-- The dispute that the step opens, and the proof it is about. -/
def opening (e : Event World Label) : Option (Bytes32 × Bytes32) :=
  match e.label with
  | .invoke _ c => c.disputed.filter fun dispute =>
      (e.pre.store (.Dispute dispute.1)).isNone && (e.post.store (.Dispute dispute.1)).isSome
  | _ => none

def openedAgainst (tr : Trace) (p : Bytes32) : List Bytes32 :=
  ((tr.reverse.filterMap opening).filter fun dispute => decide (dispute.2 = p)).map (·.1)

theorem openedAgainst_cons (e : Event World Label) (tr : Trace) (p : Bytes32) :
    openedAgainst (e::tr) p=openedAgainst tr p++
      ((opening e).toList.filter fun dispute => decide (dispute.2=p)).map (·.1) := by
  rw [openedAgainst,reverse_cons,filterMap_append,filter_append,map_append,
    ← openedAgainst]
  cases h : opening e with
  | none => simp [h]
  | some dispute => simp [h]

/-- A step opens a dispute, which is then stored and listed, or leaves the listings alone. -/
theorem opening_step {w' : World} {l : Label} (h : next host w l=w') :
    (∃ d q, opening ⟨w,l,w'⟩=some (d,q) ∧ w.store (.Dispute d)=none ∧
      (w'.store (.Dispute d)).isSome=true ∧ ∀ p disputes, DisputeLog w.store p disputes →
        DisputeLog w'.store p (if q=p then disputes++[d] else disputes)) ∨
    (opening ⟨w,l,w'⟩=none ∧ ∀ p, w'.store (.ProofDisputeSeq p)=w.store (.ProofDisputeSeq p) ∧
      ∀ i, w'.store (.ProofDispute p i)=w.store (.ProofDispute p i)) := by
  obtain ⟨inv,c,rfl,-,hx⟩ | hsame := next_store h
  · cases c with
    | openDispute reporter reporterHash d q reason commitmentHash =>
      obtain ⟨x,hx⟩ := (discard_ok ..).1 hx
      obtain ⟨-,free,-,-,-,happend⟩ := openDispute_ok hx
      have htable := congrFun (openDispute_table hx).2 d
      rw [update_self] at htable
      have hstored : (w'.store (.Dispute d)).isSome=true := isSome_iff_exists.2 ⟨_,htable⟩
      refine .inl ⟨d,q,?_,free,hstored,fun p disputes hlog => ?_⟩
      · simp [opening,Call.disputed,Option.filter,free,hstored]
      · refine appendProofDispute_log ?_ happend
        simpa [DisputeLog,openedStorage] using hlog
    | _ =>
      exact .inr ⟨rfl,fun p => ⟨exec_footprint hx (notMem_of_elem rfl),
        fun i => exec_footprint hx (notMem_of_elem rfl)⟩⟩
  · refine .inr ⟨?_,fun p => ⟨hsame _ (by simp),fun i => hsame _ (by simp)⟩⟩
    unfold opening
    split
    · refine filter_eq_none_iff.2 fun dispute _ => ?_
      rw [hsame (.Dispute dispute.1) (by simp)]
      cases w.store (.Dispute dispute.1) with
      | none => simp
      | some v => simp
    · rfl

theorem reaches_disputeLog {start : Ledger} (hr : Reaches host start tr w) (p : Bytes32) :
    DisputeLog w.store p (openedAgainst tr p) := by
  refine Run.invariant (C := fun _ => True)
    (I := fun tr (w : World) => DisputeLog w.store p (openedAgainst tr p)) ?_ ?_ hr
    fun _ _ => trivial
  · exact LogOf.empty
  · intro tr w l w' _ hlog hst _
    rw [openedAgainst_cons]
    obtain ⟨d,q,hopening,-,-,happend⟩ | ⟨hnone,hkept⟩ := opening_step hst
    · rw [hopening,toList_some]
      have hnext := happend p _ hlog
      by_cases hq : q=p
      · rw [if_pos hq] at hnext
        simpa [hq] using hnext
      · rw [if_neg hq] at hnext
        simpa [hq] using hnext
    · obtain ⟨hseq,hentry⟩ := hkept p
      rw [hnone]
      simpa [DisputeLog,hseq,hentry] using hlog

theorem dispute_stays {w' : World} {l : Label} {d : Bytes32} (hst : next host w l=w')
    (hd : (w.store (.Dispute d)).isSome=true) : (w'.store (.Dispute d)).isSome=true := by
  change (disputeTable w.store d).isSome=true at hd
  change (disputeTable w'.store d).isSome=true
  have hset : ∀ (t : Bytes32 → Option DisputeValue) d' v, (t d).isSome=true →
      (Function.update t d' (some v) d).isSome=true := by
    intro t d' v ht
    by_cases heq : d=d'
    · subst heq
      simp
    · rwa [update_of_ne heq]
  cases next_disputes (e := ⟨w,l,w'⟩) hst with
  | keep post => rwa [post]
  | new d' r post => rw [post]; exact hset _ _ _ hd
  | update d' r r' post => rw [post]; exact hset _ _ _ hd
  | supersede admin d' y r r' o o' post => rw [post]; exact hset _ _ _ (hset _ _ _ hd)

theorem opened_once {start : Ledger} (hr : Reaches host start tr w) :
    ((tr.reverse.filterMap opening).map (·.1)).Nodup := by
  rw [map_filterMap,filterMap_reverse,nodup_reverse]
  refine (Run.taken_once (T := fun (w : World) d => (w.store (.Dispute d)).isSome=true)
    (fun _ _ _ _ => dispute_stays) ?_ hr).2
  intro w l w' d hst hkey
  obtain ⟨dispute,hdispute,rfl⟩ := map_eq_some_iff.1 hkey
  obtain ⟨d,q,hopening,free,hnew,-⟩ | ⟨hnone,-⟩ := opening_step hst
  · cases hdispute.symm.trans hopening
    exact ⟨by simp [free],hnew⟩
  · exact absurd (hdispute.symm.trans hnone) (by simp)

theorem openedAgainst_nodup {start : Ledger} (hr : Reaches host start tr w) (p : Bytes32) :
    (openedAgainst tr p).Nodup := by
  have hsublist : (openedAgainst tr p).Sublist ((tr.reverse.filterMap opening).map (·.1)) :=
    filter_sublist.map _
  exact hsublist.nodup (opened_once hr)

theorem openedAgainst_extends (tr tr' : Trace) (p : Bytes32) :
    openedAgainst tr p <+: openedAgainst (tr'++tr) p := by
  rw [openedAgainst,openedAgainst,reverse_append,filterMap_append,filter_append,
    map_append]
  exact prefix_append _ _

theorem appended_extends (tr tr' : Trace) (p : Bytes32) :
    appended tr p <+: appended (tr'++tr) p := by
  rw [appended,appended,derivatives,derivatives,reverse_append,filterMap_append,
    flatMap_append]
  exact prefix_append _ _

theorem listProofDisputes_eq (hlog : DisputeLog s p disputes) (cursor : Nat) {limit : Nat}
    (hlimit : 0<limit) :
    listProofDisputes s p cursor limit=(disputes.drop cursor).take
      (min (disputes.length-cursor) (min limit MAX_PROOF_DISPUTES_PAGE)) := by
  have htotal : (s (.ProofDisputeSeq p)).getD 0=disputes.length := hlog.length
  have hcap : (if limit > MAX_PROOF_DISPUTES_PAGE then MAX_PROOF_DISPUTES_PAGE else limit) =
      min limit MAX_PROOF_DISPUTES_PAGE := by
    split <;> omega
  have hpos : min limit MAX_PROOF_DISPUTES_PAGE≠0 := by
    rw [MAX_PROOF_DISPUTES_PAGE]
    omega
  unfold listProofDisputes
  simp only [htotal,hcap,if_neg hpos]
  by_cases hend : cursor ≥ disputes.length
  · rw [if_pos hend,List.drop_eq_nil_of_le hend,List.take_nil]
  · rw [if_neg hend,hlog.filterMap_range']
    by_cases hfew : disputes.length-cursor < min limit MAX_PROOF_DISPUTES_PAGE
    · rw [if_pos hfew,Nat.min_eq_left (Nat.le_of_lt hfew)]
    · rw [if_neg hfew,Nat.min_eq_right (Nat.le_of_not_lt hfew)]

theorem disputesPage_offset (hlog : DisputeLog s p disputes) :
    OffsetPager (0 < ·) disputes (disputesPage s p) := by
  intro cursor limit hcursor hlimit
  have hpage := listProofDisputes_eq hlog cursor hlimit
  refine ⟨min (disputes.length-cursor) (min limit MAX_PROOF_DISPUTES_PAGE),?_,by omega,?_⟩
  · have hlen : (listProofDisputes s p cursor limit).length =
        min (disputes.length-cursor) (min limit MAX_PROOF_DISPUTES_PAGE) := by
      rw [hpage,length_take,length_drop]
      omega
    rw [disputesPage,hlen,hpage]
  · intro hless
    rw [MAX_PROOF_DISPUTES_PAGE]
    omega

def ChildrenLimit (limit : Nat) : Prop := 0 < limit ∧ limit ≤ MAX_LINEAGE_CHILDREN_PAGE

theorem childrenPage_offset {children : List Bytes32} (hlog : ChildLog s p children) :
    OffsetPager ChildrenLimit children (childrenPage s p) := by
  intro offset limit hoffset hlimit
  obtain ⟨hpos,hle⟩ := hlimit
  have htotal : (s (.LineageChildSeq p)).getD 0=children.length := hlog.length
  have hrange : ¬ (limit=0 ∨ limit > MAX_LINEAGE_CHILDREN_PAGE) := by omega
  refine ⟨min (children.length-offset) limit,?_,by omega,by omega⟩
  unfold childrenPage listLineageChildren
  simp only [htotal,if_neg hrange]
  by_cases hend : offset ≥ children.length
  · have hlast : offset+min (children.length-offset) limit=children.length := by omega
    rw [if_pos hend,hlast,List.drop_eq_nil_of_le hend,List.take_nil]
    rfl
  · have hstop : (if children.length-offset<limit then children.length else offset+limit) =
        offset+min (children.length-offset) limit := by
      split <;> omega
    rw [if_neg hend,hstop,hlog.filterMap_range',Nat.add_sub_cancel_left]
    rfl

/-- Read page by page, the disputes of a proof are the ones opened against it and the children of
a parent the ones appended for it, in order and each of them once, for every limit that the
listing accepts; and a reader who goes on later from the cursor reached gets the rest. -/
theorem listings_page_through {host : Host} {start : Ledger} {tr tr' : Trace} {w w' : World}
    (hr : Reaches host start tr w) (hp : Proceeds host w tr' w') (p : Bytes32) :
    (openedAgainst tr p).Nodup ∧
    PagesThrough (0 < ·) (disputesPage w.store p) (disputesPage w'.store p)
      (openedAgainst tr p) (openedAgainst (tr'++tr) p) ∧
    PagesThrough ChildrenLimit (childrenPage w.store p) (childrenPage w'.store p)
      (appended tr p) (appended (tr'++tr) p) := by
  have hr' := hr.proceed hp
  refine ⟨openedAgainst_nodup hr p,?_,?_⟩
  · exact (disputesPage_offset (reaches_disputeLog hr p)).pagesThrough
      (disputesPage_offset (reaches_disputeLog hr' p)) (openedAgainst_extends tr tr' p)
  · exact (childrenPage_offset (reaches_children hr p).1).pagesThrough
      (childrenPage_offset (reaches_children hr' p).1) (appended_extends tr tr' p)

/-- A source artefact, one derivative of it and two disputes about it. -/
def listed : List Label :=
  artefactRegistered++[composed [artefact 0] (artefact 1),
    .call ⟨4⟩ (.openDispute ⟨4⟩ (fill 31) (fill 21) (artefact 0) .Other zero32),
    .call ⟨5⟩ (.openDispute ⟨5⟩ (fill 32) (fill 22) (artefact 0) .Other zero32)]

theorem listed_items : openedAgainst (deploy listed).1 (artefact 0)=[fill 21,fill 22] ∧
    appended (deploy listed).1 (artefact 0)=[artefact 1] := by
  decide +kernel

/-- The two disputes on pages of one, and the derivative on the largest page. -/
theorem listings_page_through_two_disputes :
    (∃ cursor, walk (disputesPage (deploy listed).2.store (artefact 0)) [1,1] 0 =
      some ([fill 21,fill 22],some cursor)) ∧
    ∃ cursor, walk (childrenPage (deploy listed).2.store (artefact 0)) [50] 0 =
      some ([artefact 1],some cursor) := by
  obtain ⟨hopened,happended⟩ := listed_items
  obtain ⟨-,hdisputes,hchildren⟩ :=
    listings_page_through (deploy_reaches listed) Run.nil (artefact 0)
  rw [hopened] at hdisputes
  rw [happended] at hchildren
  constructor
  · obtain ⟨items,cursor,hwalk,-,hall,-⟩ := hdisputes [1,1] [] (by simp) (by simp)
    exact ⟨cursor,by rw [hwalk,hall (by decide)]⟩
  · obtain ⟨items,cursor,hwalk,-,hall,-⟩ := hchildren [50] []
      (by simp [ChildrenLimit,MAX_LINEAGE_CHILDREN_PAGE]) (by simp)
    exact ⟨cursor,by rw [hwalk,hall (by decide)]⟩

/-- A listing of children refuses a limit past its cap. -/
theorem children_limit_refused :
    Reaches stellarHost genesis (deploy listed).1 (deploy listed).2 ∧
    appended (deploy listed).1 (artefact 0) = [artefact 1] ∧
    listLineageChildren (deploy listed).2.store (artefact 0) 0 51 =
      .error .LineageChildrenLimitExceeded ∧
    walk (childrenPage (deploy listed).2.store (artefact 0)) [51] 0 = none :=
  ⟨deploy_reaches listed,by decide +kernel⟩

end Harpocrates.Registry
