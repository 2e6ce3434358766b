import Harpocrates.Registry.CouncilAuthority

namespace Harpocrates.Registry

open Framework Tx List

/-- The step opens a proposal under this number. -/
def Creates (host : Host) (e : Event World Label) (id : Nat) : Prop :=
  ∃ proposer action target payload,
    Succeeds host e (.proposeCouncilAction proposer action target payload) ∧
      satAdd32 ((e.pre.store .CouncilProposalSeq).getD 0) 1 = id

def Executes (host : Host) (e : Event World Label) (id : Nat) : Prop :=
  ∃ caller, Succeeds host e (.executeCouncilProposal caller id)

/-- What a step can do to the proposal with this number. All but the first need a council
in force. -/
inductive ProposalStep (host : Host) (e : Event World Label) (id : Nat) : Prop
  | keep (hc : ¬ Creates host e id) (hx : ¬ Executes host e id)
      (post : e.post.store (.CouncilProposal id) = e.pre.store (.CouncilProposal id))
  | create (council : AdminCouncil) (p : CouncilProposal)
      (inForce : getAdminCouncil e.pre.ledger.timestamp e.pre.store = some council)
      (hc : Creates host e id) (hx : ¬ Executes host e id)
      (seq : e.post.store .CouncilProposalSeq = some id)
      (post : e.post.store (.CouncilProposal id) = some p) (approvals : p.approvals = [])
      (executed : p.executed = false)
  | approve (council : AdminCouncil) (p : CouncilProposal) (member : Address)
      (inForce : getAdminCouncil e.pre.ledger.timestamp e.pre.store = some council)
      (hc : ¬ Creates host e id) (hx : ¬ Executes host e id)
      (pre : e.pre.store (.CouncilProposal id) = some p) (executed : p.executed = false)
      (mem : member ∈ council.members) (new : member ∉ p.approvals)
      (post : e.post.store (.CouncilProposal id) =
        some { p with approvals := p.approvals++[member] })
  | execute (council : AdminCouncil) (p : CouncilProposal)
      (inForce : getAdminCouncil e.pre.ledger.timestamp e.pre.store = some council)
      (hc : ¬ Creates host e id) (hx : Executes host e id)
      (pre : e.pre.store (.CouncilProposal id) = some p) (executed : p.executed = false)
      (cancelled : p.cancelled = false) (time : e.pre.ledger.timestamp ≤ p.expiresAt)
      (threshold : council.threshold ≤ p.approvals.length)
      (post : e.post.store (.CouncilProposal id) = some { p with executed := true })
  | cancel (council : AdminCouncil) (p : CouncilProposal)
      (inForce : getAdminCouncil e.pre.ledger.timestamp e.pre.store = some council)
      (hc : ¬ Creates host e id) (hx : ¬ Executes host e id)
      (pre : e.pre.store (.CouncilProposal id) = some p) (executed : p.executed = false)
      (post : e.post.store (.CouncilProposal id) = some { p with cancelled := true })

variable {id : Nat} {env : Env}

theorem not_creates_of_label {host : Host} {e : Event World Label} {inv : Invocation} {c : Call}
    (hl : e.label=.invoke inv c) (hc : ∀ proposer action target payload,
      c≠.proposeCouncilAction proposer action target payload) : ¬ Creates host e id := by
  intro hyp
  obtain ⟨proposer,action,target,payload,⟨inv',hl',-⟩,-⟩ := hyp
  rw [hl] at hl'
  exact hc proposer action target payload (Label.invoke.inj hl').2

variable {host : Host} {c : Call} {e : Event World Label} {s s' : Storage} {p : CouncilProposal}
  {w : World} {tr : Trace}

theorem not_executes_of_label {inv : Invocation} (hl : e.label=.invoke inv c)
    (hc : ∀ caller, c≠.executeCouncilProposal caller id) : ¬ Executes host e id := by
  intro hyp
  obtain ⟨caller,inv',hl',-⟩ := hyp
  rw [hl] at hl'
  exact hc caller (Label.invoke.inj hl').2

theorem proposal_ne {id' : Nat} (h : id≠id') :
    DataKey.CouncilProposal id≠.CouncilProposal id' := by
  simpa using h

theorem proposeCouncilAction_ok {proposer target : Address} {action n : Nat} {payload : Bytes32}
    (h : proposeCouncilAction env proposer action target payload s=.ok (n,s')) :
    ∃ council p, getAdminCouncil env.timestamp s=some council ∧ p.approvals=[] ∧
      p.executed=false ∧ n=satAdd32 ((s .CouncilProposalSeq).getD 0) 1 ∧
      Store.set (Store.set s .CouncilProposalSeq n) (.CouncilProposal n) p=s' := by
  simp only [proposeCouncilAction,nextCouncilProposalId,bind_ok,requireCouncil_ok,
    requireAuth_ok,failIf_ok,get_ok,set_ok,pure_ok] at h
  obtain ⟨council,_,⟨hcouncil,rfl⟩,_,_,⟨-,rfl⟩,_,_,⟨-,rfl⟩,_,_,⟨-,rfl⟩,_,_,
    ⟨_,_,⟨rfl,rfl⟩,_,_,rfl,rfl,rfl⟩,_,_,rfl,rfl,rfl⟩ := h
  exact ⟨council,_,hcouncil,rfl,rfl,rfl,rfl⟩

theorem approveCouncilProposal_ok {member : Address} {b : Bool}
    (h : approveCouncilProposal env member id s=.ok (b,s')) :
    ∃ council p, getAdminCouncil env.timestamp s=some council ∧
      s (.CouncilProposal id)=some p ∧ p.executed=false ∧ member∈council.members ∧
      member∉p.approvals ∧
      Store.set s (.CouncilProposal id) { p with approvals := p.approvals++[member] }=s' := by
  simp only [approveCouncilProposal,bind_ok,requireCouncil_ok,requireAuth_ok,failIf_ok,
    getCouncilProposalOrPanic_ok,set_ok,pure_ok] at h
  obtain ⟨council,_,⟨hcouncil,rfl⟩,_,_,⟨-,rfl⟩,_,_,⟨hmem,rfl⟩,p,_,⟨hp,rfl⟩,_,_,⟨hx,rfl⟩,_,_,⟨-,rfl⟩,
    _,_,⟨-,rfl⟩,_,_,⟨hnew,rfl⟩,_,_,rfl,-,rfl⟩ := h
  exact ⟨council,p,hcouncil,hp,hx,by simpa using hmem,by simpa using hnew,rfl⟩

theorem CouncilEffect.proposals (h : CouncilEffect env p s s') (id : Nat) :
    s' (.CouncilProposal id)=s (.CouncilProposal id) := by
  cases h with
  | upgradeStorage _ _ kept => exact kept _ (by simp)
  | _ => simp [deactivated,installedStorage,activatedStorage]

theorem cancelCouncilProposal_ok {caller : Address} {u : Unit}
    (h : cancelCouncilProposal env caller id s=.ok (u,s')) :
    ∃ council p, getAdminCouncil env.timestamp s=some council ∧
      s (.CouncilProposal id)=some p ∧ p.executed=false ∧
      Store.set s (.CouncilProposal id) { p with cancelled := true }=s' := by
  simp only [cancelCouncilProposal,bind_ok,requireCouncil_ok,requireAuth_ok,failIf_ok,
    getCouncilProposalOrPanic_ok,get_ok,set_ok] at h
  obtain ⟨council,_,⟨hcouncil,rfl⟩,_,_,⟨-,rfl⟩,p,_,⟨hp,rfl⟩,_,_,⟨hx,rfl⟩,_,_,⟨-,rfl⟩,
    _,_,⟨-,rfl⟩,_,_,⟨-,rfl⟩,rfl⟩ := h
  exact ⟨council,p,hcouncil,hp,hx,rfl⟩

theorem exec_proposal {inv : Invocation} (hl : e.label=.invoke inv c)
    (h : exec (e.pre.env host inv) c e.pre.store=.ok ((),e.post.store)) (id : Nat) :
    ProposalStep host e id := by
  cases c with
  | proposeCouncilAction proposer action target payload =>
    have hs : Succeeds host e (.proposeCouncilAction proposer action target payload) :=
      ⟨inv,hl,h⟩
    have hx : ¬ Executes host e id := not_executes_of_label hl (by simp)
    obtain ⟨n,h⟩ := (discard_ok ..).1 h
    obtain ⟨council,p,hcouncil,hap,hex,hn,hpost⟩ := proposeCouncilAction_ok h
    by_cases hid : id=n
    · subst hid
      exact .create council p hcouncil ⟨proposer,action,target,payload,hs,hn.symm⟩ hx
        (by simp [← hpost]) (by simp [← hpost]) hap hex
    · refine .keep ?_ hx (by simp [← hpost,proposal_ne hid])
      intro hyp
      obtain ⟨_,_,_,_,-,hid'⟩ := hyp
      exact hid (hid'.symm.trans hn.symm)
  | approveCouncilProposal member id' =>
    have hc : ¬ Creates host e id := not_creates_of_label hl (by simp)
    have hx : ¬ Executes host e id := not_executes_of_label hl (by simp)
    obtain ⟨_,h⟩ := (discard_ok ..).1 h
    obtain ⟨council,p,hcouncil,hp,hex,hmem,hnew,hpost⟩ := approveCouncilProposal_ok h
    by_cases hid : id=id'
    · subst hid
      exact .approve council p member hcouncil hc hx hp hex hmem hnew (by simp [← hpost])
    · exact .keep hc hx (by simp [← hpost,proposal_ne hid])
  | executeCouncilProposal caller id' =>
    have hs : Succeeds host e (.executeCouncilProposal caller id') := ⟨inv,hl,h⟩
    have hc : ¬ Creates host e id := not_creates_of_label hl (by simp)
    obtain ⟨council,p,hp⟩ := executeCouncilProposal_ok h
    have hpost := hp.effect.proposals id
    by_cases hid : id=id'
    · subst hid
      exact .execute council p hp.inForce hc ⟨caller,hs⟩ hp.stored hp.executed hp.cancelled
        hp.inTime hp.approved (by simp [hpost])
    · refine .keep hc (not_executes_of_label hl ?_) (by simp [hpost,proposal_ne hid])
      intro caller' heq
      exact hid (Call.executeCouncilProposal.inj heq).2.symm
  | cancelCouncilProposal caller id' =>
    have hc : ¬ Creates host e id := not_creates_of_label hl (by simp)
    have hx : ¬ Executes host e id := not_executes_of_label hl (by simp)
    obtain ⟨council,p,hcouncil,hp,hex,hpost⟩ := cancelCouncilProposal_ok h
    by_cases hid : id=id'
    · subst hid
      exact .cancel council p hcouncil hc hx hp hex (by simp [← hpost])
    · exact .keep hc hx (by simp [← hpost,proposal_ne hid])
  | _ =>
    exact .keep (not_creates_of_label hl (by simp)) (not_executes_of_label hl (by simp))
      (exec_footprint h (notMem_of_elem rfl))

theorem next_proposal (hst : next host e.pre e.label=e.post) (id : Nat) :
    ProposalStep host e id := by
  by_cases hs : ∃ c, Succeeds host e c
  · obtain ⟨c,inv,hl,hx⟩ := hs
    exact exec_proposal hl hx id
  · refine .keep ?_ ?_ ?_
    · intro hyp
      obtain ⟨_,_,_,_,hc,-⟩ := hyp
      exact hs ⟨_,hc⟩
    · intro hyp
      obtain ⟨_,hc⟩ := hyp
      exact hs ⟨_,hc⟩
    · obtain ⟨inv,c,hl,-,hx⟩ | hk := next_store hst
      · exact absurd ⟨c,inv,hl,hx⟩ hs
      · exact hk _ (by simp)

/-- The approvals come from distinct members of the council in force, and an executed
proposal has enough of them. -/
structure Approved (w : World) (p : CouncilProposal) (council : AdminCouncil) : Prop where
  inForce : getAdminCouncil w.ledger.timestamp w.store = some council
  distinct : p.approvals.Nodup
  members : ∀ a ∈ p.approvals, a ∈ council.members
  executed : p.executed = true →
    council.threshold ≤ p.approvals.length ∧ p.cancelled = false

theorem Approved.mono {w' : World} {council : AdminCouncil} (h : Approved w p council)
    (hc : getAdminCouncil w'.ledger.timestamp w'.store=some council) : Approved w' p council :=
  ⟨hc,h.distinct,h.members,h.executed⟩

theorem next_approved (hst : next host e.pre e.label=e.post)
    (h : ∀ p, e.pre.store (.CouncilProposal id)=some p → ∃ council, Approved e.pre p council)
    (hp : e.post.store (.CouncilProposal id)=some p) : ∃ council, Approved e.post p council := by
  cases next_proposal hst id with
  | keep hc hx post =>
    obtain ⟨council,ha⟩ := h p (post ▸ hp)
    exact ⟨council,ha.mono (next_council hst ha.inForce)⟩
  | create council q inForce hc hx seq post approvals executed =>
    obtain rfl : q=p := Option.some.inj (post.symm.trans hp)
    exact ⟨council,next_council hst inForce,by simp [approvals],by simp [approvals],
      by simp [executed]⟩
  | approve council q member inForce hc hx pre executed mem new post =>
    obtain rfl : _ = p := Option.some.inj (post.symm.trans hp)
    obtain ⟨council',ha⟩ := h q pre
    obtain rfl : council'=council := Option.some.inj (ha.inForce.symm.trans inForce)
    refine ⟨council',next_council hst inForce,?_,?_,by simp [executed]⟩
    · exact nodup_append.2 ⟨ha.distinct,by simp,by
        intro a hmem b hb hab
        rw [hab,mem_singleton.1 hb] at hmem
        exact new hmem⟩
    · intro a hmem
      rcases mem_append.1 hmem with hmem | hmem
      · exact ha.members a hmem
      · rw [mem_singleton.1 hmem]
        exact mem
  | execute council q inForce hc hx pre executed cancelled time threshold post =>
    obtain rfl : _ = p := Option.some.inj (post.symm.trans hp)
    obtain ⟨council',ha⟩ := h q pre
    obtain rfl : council'=council := Option.some.inj (ha.inForce.symm.trans inForce)
    exact ⟨council',next_council hst inForce,ha.distinct,ha.members,
      fun _ => ⟨threshold,cancelled⟩⟩
  | cancel council q inForce hc hx pre executed post =>
    obtain rfl : _ = p := Option.some.inj (post.symm.trans hp)
    obtain ⟨council',ha⟩ := h q pre
    exact ⟨council',next_council hst ha.inForce,ha.distinct,ha.members,by simp [executed]⟩

theorem reaches_approved {start : Ledger} (h : Reaches host start tr w)
    (hp : w.store (.CouncilProposal id)=some p) : ∃ council, Approved w p council := by
  refine Run.state_invariant (I := fun w : World => ∀ p, w.store (.CouncilProposal id)=some p →
    ∃ council, Approved w p council) ?_ ?_ h p hp
  · intro p hp
    cases hp
  · intro w l w' hw hst p hp
    exact next_approved (e := ⟨w,l,w'⟩) hst hw hp

structure Numbered (s : Storage) : Prop where
  bounded : (s .CouncilProposalSeq).getD 0 ≤ u32Max
  stored : ∀ id, (s (.CouncilProposal id)).isSome = true → id ≤ (s .CouncilProposalSeq).getD 0

theorem satAdd32_one {n : Nat} (h : n≤u32Max) : n ≤ satAdd32 n 1 ∧ satAdd32 n 1≤u32Max := by
  unfold satAdd32
  omega

theorem exec_seq {u : Unit} (h : exec env c s=.ok (u,s'))
    (hb : (s .CouncilProposalSeq).getD 0≤u32Max) :
    (s .CouncilProposalSeq).getD 0≤(s' .CouncilProposalSeq).getD 0 ∧
      (s' .CouncilProposalSeq).getD 0≤u32Max := by
  cases c with
  | proposeCouncilAction proposer action target payload =>
    obtain ⟨n,h⟩ := (discard_ok ..).1 h
    obtain ⟨_,_,-,-,-,rfl,rfl⟩ := proposeCouncilAction_ok h
    simpa using satAdd32_one hb
  | _ =>
    rw [exec_footprint h (notMem_of_elem rfl)]
    exact ⟨le_refl _,hb⟩

theorem next_seq {w' : World} {l : Label} (hst : next host w l=w')
    (hb : (w.store .CouncilProposalSeq).getD 0≤u32Max) :
    (w.store .CouncilProposalSeq).getD 0≤(w'.store .CouncilProposalSeq).getD 0 ∧
      (w'.store .CouncilProposalSeq).getD 0≤u32Max := by
  obtain ⟨inv,c,-,-,hx⟩ | hk := next_store hst
  · exact exec_seq hx hb
  · rw [hk _ (by simp)]
    exact ⟨le_refl _,hb⟩

theorem next_numbered (hst : next host e.pre e.label=e.post) (h : Numbered e.pre.store) :
    Numbered e.post.store := by
  have hseq := next_seq hst h.bounded
  refine ⟨hseq.2,fun id hid => ?_⟩
  -- away from creation, a proposal that is stored was stored before
  have kept : (e.pre.store (.CouncilProposal id)).isSome=true →
      id≤(e.post.store .CouncilProposalSeq).getD 0 := fun hpre =>
    le_trans (h.stored id hpre) hseq.1
  cases next_proposal hst id with
  | keep hc hx post => exact kept (post ▸ hid)
  | create council q inForce hc hx seq post approvals executed => simp [seq]
  | approve council q member inForce hc hx pre executed mem new post => exact kept (by simp [pre])
  | execute council q inForce hc hx pre => exact kept (by simp [pre])
  | cancel council q inForce hc hx pre executed post => exact kept (by simp [pre])

theorem reaches_numbered {start : Ledger} (h : Reaches host start tr w) : Numbered w.store := by
  refine Run.state_invariant (I := fun w : World => Numbered w.store) ?_ ?_ h
  · exact ⟨Nat.zero_le _,fun id hid => by cases hid⟩
  · intro w l w' hw hst
    exact next_numbered (e := ⟨w,l,w'⟩) hst hw

theorem Numbered.fresh (h : Numbered e.pre.store) (hc : Creates host e id) (hid : id<u32Max) :
    e.pre.store (.CouncilProposal id)=none := by
  obtain ⟨_,_,_,_,-,rfl⟩ := hc
  by_contra hne
  have hle := h.stored _ (Option.isSome_iff_ne_none.2 hne)
  unfold satAdd32 at hid hle
  omega

def Quiet (host : Host) (id : Nat) (tr : Trace) : Prop :=
  ∀ e ∈ tr, ¬ Creates host e id ∧ ¬ Executes host e id

/-- A proposal was opened and has not been executed since. Its number was not in use before,
unless it is the last one there is. -/
def Opened (host : Host) (id : Nat) (tr : Trace) : Prop :=
  ∃ tr₂ c tr₁, tr = tr₂++c::tr₁ ∧ Creates host c id ∧ Quiet host id tr₂ ∧
    (id < u32Max → Quiet host id tr₁)

def ExecutedOnce (host : Host) (id deadline : Nat) (tr : Trace) : Prop :=
  ∃ tr₂ x tr₁, tr = tr₂++x::tr₁ ∧ Executes host x id ∧ x.pre.ledger.timestamp ≤ deadline ∧
    Opened host id tr₁ ∧ Quiet host id tr₂

theorem Quiet.cons {host : Host} {tr : Trace} {e : Event World Label} (h : Quiet host id tr)
    (hc : ¬ Creates host e id) (hx : ¬ Executes host e id) : Quiet host id (e::tr) := by
  intro x hmem
  rcases mem_cons.1 hmem with rfl | hmem
  · exact ⟨hc,hx⟩
  · exact h x hmem

theorem Opened.cons {host : Host} {tr : Trace} {e : Event World Label} (h : Opened host id tr)
    (hc : ¬ Creates host e id) (hx : ¬ Executes host e id) : Opened host id (e::tr) := by
  obtain ⟨tr₂,c,tr₁,rfl,hcr,hq,hfirst⟩ := h
  exact ⟨e::tr₂,c,tr₁,rfl,hcr,hq.cons hc hx,hfirst⟩

theorem ExecutedOnce.cons {host : Host} {deadline : Nat} {tr : Trace} {e : Event World Label}
    (h : ExecutedOnce host id deadline tr) (hc : ¬ Creates host e id) (hx : ¬ Executes host e id) :
    ExecutedOnce host id deadline (e::tr) := by
  obtain ⟨tr₂,x,tr₁,rfl,hex,htime,ho,hq⟩ := h
  exact ⟨e::tr₂,x,tr₁,rfl,hex,htime,ho,hq.cons hc hx⟩

/-- What the stored record tells about the steps taken. -/
structure History (host : Host) (id : Nat) (tr : Trace) (s : Storage) : Prop where
  unused : s (.CouncilProposal id) = none → Quiet host id tr
  opened : ∀ p, s (.CouncilProposal id) = some p → p.executed = false → Opened host id tr
  executed : ∀ p, s (.CouncilProposal id) = some p → p.executed = true →
    ExecutedOnce host id p.expiresAt tr

theorem History.of_opened (hp : s (.CouncilProposal id)=some p) (hx : p.executed=false)
    (h : Opened host id tr) : History host id tr s := by
  refine ⟨fun hn => ?_,fun _ _ _ => h,fun q hq hqx => ?_⟩
  · rw [hp] at hn
    cases hn
  · obtain rfl : p=q := Option.some.inj (hp.symm.trans hq)
    rw [hx] at hqx
    cases hqx

theorem next_history (hst : next host e.pre e.label=e.post) (hn : Numbered e.pre.store)
    (h : History host id tr e.pre.store) : History host id (e::tr) e.post.store := by
  cases next_proposal hst id with
  | keep hc hx post =>
    exact ⟨fun hnone => (h.unused (post ▸ hnone)).cons hc hx,
      fun p hp hpx => (h.opened p (post ▸ hp) hpx).cons hc hx,
      fun p hp hpx => (h.executed p (post ▸ hp) hpx).cons hc hx⟩
  | create council p inForce hc hx seq post approvals executed =>
    refine .of_opened post executed ⟨[],e,tr,rfl,hc,by simp [Quiet],fun hid => ?_⟩
    exact h.unused (hn.fresh hc hid)
  | approve council p member inForce hc hx pre executed mem new post =>
    exact .of_opened post executed ((h.opened p pre executed).cons hc hx)
  | execute council p inForce hc hx pre executed cancelled time threshold post =>
    have done : ExecutedOnce host id p.expiresAt (e::tr) :=
      ⟨[],e,tr,rfl,hx,time,h.opened p pre executed,by simp [Quiet]⟩
    refine ⟨fun hnone => ?_,fun q hq hqx => ?_,fun q hq hqx => ?_⟩
    · rw [post] at hnone
      cases hnone
    · obtain rfl : _ = q := Option.some.inj (post.symm.trans hq)
      cases hqx
    · obtain rfl : _ = q := Option.some.inj (post.symm.trans hq)
      exact done
  | cancel council p inForce hc hx pre executed post =>
    exact .of_opened post executed ((h.opened p pre executed).cons hc hx)

theorem reaches_history {start : Ledger} (id : Nat) (h : Reaches host start tr w) :
    History host id tr w.store := by
  refine Run.invariant (C := fun _ => True) (I := fun tr w => History host id tr w.store) ?_ ?_ h
    (fun _ _ => trivial)
  · refine ⟨fun _ => by simp [Quiet],fun p hp => ?_,fun p hp => ?_⟩
    · cases hp
    · cases hp
  · intro tr w l w' hr hw hst _
    exact next_history (e := ⟨w,l,w'⟩) hst (reaches_numbered hr) hw

/-- A proposal that counts as executed was approved by enough distinct members of the council
in force, was executed exactly once since it was opened and not too late, and is not
cancelled; a council once in force stays as it is. -/
theorem council_execution_safe {host : Host} {start : Ledger} {tr : Trace} {w : World}
    (h : Reaches host start tr w) :
    (∀ id p, w.store (.CouncilProposal id) = some p → p.executed = true →
      (∃ council, getAdminCouncil w.ledger.timestamp w.store = some council ∧
        council.threshold ≤ p.approvals.length ∧ p.approvals.Nodup ∧
        ∀ a ∈ p.approvals, a ∈ council.members) ∧
      ExecutedOnce host id p.expiresAt tr ∧ p.cancelled = false) ∧
    ∀ e ∈ tr, ∀ council, getAdminCouncil e.pre.ledger.timestamp e.pre.store = some council →
      getAdminCouncil w.ledger.timestamp w.store = some council := by
  constructor
  · intro id p hp hx
    obtain ⟨council,ha⟩ := reaches_approved h hp
    obtain ⟨hthr,hcan⟩ := ha.executed hx
    exact ⟨⟨council,ha.inForce,hthr,ha.distinct,ha.members⟩,
      (reaches_history id h).executed p hp hx,hcan⟩
  · intro e he council hc
    obtain ⟨_,_,-,-,hst,hrest⟩ := Run.event_split h he
    exact run_council hrest (next_council hst hc)

def verifierExecuted : List Label :=
  verifierApproved++[.call ⟨7⟩ (.executeCouncilProposal ⟨7⟩ 1)]

theorem council_execution_safe_set_verifier :
    ∃ p, (deploy verifierExecuted).2.store (.CouncilProposal 1) = some p ∧ p.executed = true ∧
      ExecutedOnce stellarHost 1 p.expiresAt (deploy verifierExecuted).1 ∧
      p.cancelled = false := by
  have hx : ((deploy verifierExecuted).2.store (.CouncilProposal 1)).map (·.executed) =
      some true := by decide +kernel
  obtain ⟨p,hp,hpx⟩ := Option.map_eq_some_iff.1 hx
  have safe := (council_execution_safe (deploy_reaches verifierExecuted)).1 1 p hp hpx
  exact ⟨p,hp,hpx,safe.2⟩

end Harpocrates.Registry
