import Harpocrates.Framework.Counting
import Harpocrates.Registry.Dispatch
import Harpocrates.Registry.System

namespace Harpocrates.Registry

open Framework Tx List Function

def TimelockProposal.Waits (p : TimelockProposal) : Prop := p.executed = false ∧ p.cancelled = false

/-- The two ways a proposal is closed. -/
inductive TimelockProposal.Closes (p : TimelockProposal) : TimelockProposal → Prop
  | execute : Closes p { p with executed := true }
  | cancel : Closes p { p with cancelled := true }

theorem satAdd32_succ {n : Nat} (h : n<u32Max) : satAdd32 n 1=n+1 := Nat.min_eq_left h

variable {id : Nat}

@[ext] structure Agenda where
  seq : Nat
  proposals : Nat → Option TimelockProposal

namespace Agenda

def waiting (A : Agenda) : Set Nat := rowsWith TimelockProposal.Waits A.proposals

/-- What can happen to the agenda at a time, with a delay in force. -/
inductive Step (now delay : Nat) (A : Agenda) : Agenda → Prop
  | keep : Step now delay A A
  | propose (p : TimelockProposal) (waits : p.Waits)
      (room : (A.waiting ∩ Set.Icc 1 A.seq).encard < MAX_PENDING_TIMELOCK_PROPOSALS)
      (due : p.minExecutionAt = satAdd64 now delay) :
      Step now delay A ⟨satAdd32 A.seq 1,Function.update A.proposals (satAdd32 A.seq 1) (some p)⟩
  | close (id : Nat) (p q : TimelockProposal) (stored : A.proposals id = some p) (waits : p.Waits)
      (closes : p.Closes q) :
      Step now delay A { A with proposals := Function.update A.proposals id (some q) }

variable {delay now : Nat} {A A' : Agenda}

theorem Step.of_parts {T : Agenda} (h : Step now delay A T) (hseq : A'.seq=T.seq)
    (hproposals : A'.proposals=T.proposals) : Step now delay A A' := by
  rw [Agenda.ext hseq hproposals]
  exact h

/-- Every proposal has a number that was given out, and there are not too many that wait. -/
structure Sound (A : Agenda) : Prop where
  numbered : ∀ id p, A.proposals id = some p → 1 ≤ id ∧ id ≤ A.seq
  bounded : A.waiting.encard ≤ MAX_PENDING_TIMELOCK_PROPOSALS

theorem Sound.waiting_numbered (h : A.Sound) : A.waiting ∩ Set.Icc 1 A.seq=A.waiting := by
  refine Set.inter_eq_left.2 fun id hid => ?_
  obtain ⟨p,hp,-⟩ := hid
  exact h.numbered id p hp

theorem Sound.next_free (h : A.Sound) : A.proposals (A.seq+1)=none := by
  cases hp : A.proposals (A.seq+1) with
  | none => rfl
  | some p =>
    have := h.numbered _ p hp
    omega

theorem Step.sound (h : Step now delay A A') (hseq : A.seq<u32Max) (hA : A.Sound) : A'.Sound := by
  cases h with
  | keep => exact hA
  | propose p waits room due =>
    rw [satAdd32_succ hseq]
    rw [hA.waiting_numbered] at room
    refine ⟨fun id q hq => ?_,?_⟩
    · by_cases hid : id=A.seq+1
      · simp [hid]
      · have := hA.numbered id q (by simpa [hid] using hq)
        exact ⟨this.1,Nat.le_succ_of_le this.2⟩
    · have grown : rowsWith TimelockProposal.Waits
          (update A.proposals (A.seq+1) (some p)) ⊆ insert (A.seq+1) A.waiting := by
        intro id hid
        rcases mem_rowsWith_update.1 hid with ⟨rfl,-⟩ | ⟨-,hmem⟩
        · exact Set.mem_insert _ _
        · exact Set.mem_insert_of_mem _ hmem
      calc _ ≤ (insert (A.seq+1) A.waiting).encard := Set.encard_le_encard grown
        _ ≤ A.waiting.encard+1 := Set.encard_insert_le _ _
        _ ≤ MAX_PENDING_TIMELOCK_PROPOSALS := Order.add_one_le_of_lt room
  | close id p q stored waits closes =>
    refine ⟨fun id' q' hq' => ?_,?_⟩
    · by_cases hid : id'=id
      · subst hid
        exact hA.numbered _ p stored
      · exact hA.numbered id' q' (by simpa [hid] using hq')
    · refine le_trans (Set.encard_le_encard fun id' hid' => ?_) hA.bounded
      rcases mem_rowsWith_update.1 hid' with ⟨rfl,-⟩ | ⟨-,hmem⟩
      · exact ⟨p,stored,waits⟩
      · exact hmem

/-- A stored proposal keeps its due time, and once closed it stays as it is. -/
theorem Step.stored (h : Step now delay A A') (hseq : A.seq<u32Max) (hA : A.Sound)
    {p : TimelockProposal} (hp : A.proposals id=some p) :
    ∃ q, A'.proposals id=some q ∧ q.minExecutionAt=p.minExecutionAt ∧
      (p.executed=true → q.executed=true) ∧ (p.cancelled=true → q.cancelled=true) := by
  cases h with
  | keep => exact ⟨p,hp,rfl,fun h => h,fun h => h⟩
  | propose p' waits room due =>
    refine ⟨p,?_,rfl,fun h => h,fun h => h⟩
    have hne : id≠A.seq+1 := by
      intro heq
      rw [heq,hA.next_free] at hp
      cases hp
    simpa [satAdd32_succ hseq,hne] using hp
  | close id' p' q stored waits closes =>
    by_cases hid : id=id'
    · subst hid
      cases stored.symm.trans hp
      refine ⟨q,by simp,?_⟩
      cases closes <;> simp
    · exact ⟨p,by simpa [hid] using hp,rfl,fun h => h,fun h => h⟩

theorem Step.stored_before (h : Step now delay A A') (hseq : A.seq<u32Max)
    (hkept : A'.seq=A.seq) {q : TimelockProposal} (hq : A'.proposals id=some q) :
    ∃ p, A.proposals id=some p ∧ q.minExecutionAt=p.minExecutionAt := by
  cases h with
  | keep => exact ⟨q,hq,rfl⟩
  | propose p waits room due =>
    rw [satAdd32_succ hseq] at hkept
    exact absurd hkept (Nat.succ_ne_self _)
  | close id' p q' stored waits closes =>
    by_cases hid : id=id'
    · subst hid
      obtain rfl : q'=q := by simpa using hq
      refine ⟨p,stored,?_⟩
      cases closes <;> rfl
    · exact ⟨q,by simpa [hid] using hq,rfl⟩

end Agenda

def agenda (s : Storage) : Agenda := ⟨(s .ProposalSeq).getD 0,fun id => s (.Proposal id)⟩

variable {s s' : Storage} {host : Host} {e : Event World Label} {tr : Trace}

theorem agenda_kept {now delay : Nat} (hseq : s' .ProposalSeq=s .ProposalSeq)
    (hproposals : ∀ id, s' (.Proposal id)=s (.Proposal id)) :
    Agenda.Step now delay (agenda s) (agenda s') :=
  .of_parts .keep (by simp [agenda,hseq]) (funext hproposals)

theorem countPendingProposals_eq (s : Storage) :
    (countPendingProposals s : ℕ∞) =
      ((agenda s).waiting ∩ Set.Icc 1 (agenda s).seq).encard := by
  refine (length_filter_range' _ _).trans
    (congrArg (fun S : Set Nat => (S ∩ Set.Icc 1 (agenda s).seq).encard) ?_)
  ext id
  cases hp : s (.Proposal id) <;>
    simp [Agenda.waiting,rowsWith,agenda,hp,TimelockProposal.Waits]

theorem agenda_set (s : Storage) (id : Nat) (p : TimelockProposal) :
    agenda (Store.set s (.Proposal id) p) =
      { agenda s with proposals := update (agenda s).proposals id (some p) } := by
  refine Agenda.ext (by simp [agenda]) (funext fun id' => ?_)
  by_cases hid : id'=id
  · subst hid
    simp [agenda]
  · simp [agenda,hid]

theorem proposeTimelockedAction_ok {env : Env} {admin target : Address} {action : Nat}
    {payload : Bytes32}
    (h : proposeTimelockedAction env admin action target payload s=.ok (id,s')) :
    countPendingProposals s<MAX_PENDING_TIMELOCK_PROPOSALS ∧ id=satAdd32 (agenda s).seq 1 ∧
      ∃ p : TimelockProposal, p.Waits ∧
        p.minExecutionAt=satAdd64 env.timestamp (getTimelockMinDelay s) ∧
        agenda s'=⟨id,update (agenda s).proposals id (some p)⟩ := by
  simp only [proposeTimelockedAction,nextProposalId,bind_ok,requireAdmin_ok,failIf_ok,
    gets_ok,get_ok,set_ok,pure_ok] at h
  obtain ⟨_,_,⟨-,-,rfl⟩,_,_,⟨-,rfl⟩,_,_,⟨rfl,rfl⟩,_,_,⟨hroom,rfl⟩,_,_,⟨rfl,rfl⟩,h⟩ := h
  obtain ⟨_,_,⟨_,_,⟨rfl,rfl⟩,_,_,rfl,rfl,rfl⟩,_,_,rfl,rfl,rfl⟩ := h
  refine ⟨Nat.lt_of_not_le (of_decide_eq_false hroom),rfl,
    { action, proposer := admin, target, payload
      createdAt := env.timestamp
      minExecutionAt := satAdd64 env.timestamp (getTimelockMinDelay s)
      executed := false
      cancelled := false },⟨rfl,rfl⟩,rfl,?_⟩
  rw [agenda_set]
  exact Agenda.ext (by simp [agenda]) (by simp [agenda])

theorem cancelTimelockedProposal_ok {env : Env} {admin : Address} {u : Unit}
    (h : cancelTimelockedProposal env admin id s=.ok (u,s')) :
    ∃ p, s (.Proposal id)=some p ∧ p.Waits ∧
      Store.set s (.Proposal id) { p with cancelled := true }=s' := by
  simp only [cancelTimelockedProposal,bind_ok,requireAdmin_ok,getTimelockProposalOrPanic_ok,
    failIf_ok,set_ok] at h
  obtain ⟨_,_,⟨-,-,rfl⟩,p,_,⟨hp,rfl⟩,_,_,⟨hx,rfl⟩,_,_,⟨hc,rfl⟩,rfl⟩ := h
  exact ⟨p,hp,⟨hx,hc⟩,rfl⟩

theorem TimelockEffect.agenda {env : Env} {p : TimelockProposal} (h : TimelockEffect env p s s') :
    agenda s'=agenda s := by
  cases h <;> exact Agenda.ext (by simp [Registry.agenda,deactivated])
    (funext fun id => by simp [Registry.agenda,deactivated])

theorem exec_agenda {env : Env} {c : Call} {u : Unit} (h : exec env c s=.ok (u,s')) :
    Agenda.Step env.timestamp (getTimelockMinDelay s) (agenda s) (agenda s') := by
  cases c with
  | proposeTimelockedAction admin action target payload =>
    obtain ⟨id,h⟩ := (discard_ok ..).1 h
    obtain ⟨hroom,rfl,p,hwaits,hdue,hpost⟩ := proposeTimelockedAction_ok h
    rw [hpost]
    refine .propose p hwaits ?_ hdue
    rw [← countPendingProposals_eq]
    exact_mod_cast hroom
  | cancelTimelockedProposal admin id =>
    obtain ⟨p,hp,hwaits,rfl⟩ := cancelTimelockedProposal_ok h
    rw [agenda_set]
    exact .close id p _ hp hwaits .cancel
  | executeTimelockedProposal caller id =>
    obtain ⟨p,hp⟩ := executeTimelockedProposal_ok h
    rw [hp.effect.agenda,agenda_set]
    exact .close id p _ hp.stored ⟨hp.executed,hp.cancelled⟩ .execute
  | emergencyExecuteTimelock admin id =>
    obtain ⟨p,hp⟩ := emergencyExecuteTimelock_ok h
    rw [hp.effect.agenda,agenda_set]
    exact .close id p _ hp.stored ⟨hp.executed,hp.cancelled⟩ .execute
  | _ =>
    exact agenda_kept (exec_footprint h (notMem_of_elem rfl))
      fun _ => exec_footprint h (notMem_of_elem rfl)

theorem next_agenda {w w' : World} {l : Label} (hst : next host w l=w') :
    Agenda.Step w.ledger.timestamp (getTimelockMinDelay w.store) (agenda w.store)
      (agenda w'.store) := by
  obtain ⟨inv,c,-,-,hx⟩ | hk := next_store hst
  · exact exec_agenda hx
  · exact agenda_kept (hk _ (by simp)) fun _ => hk _ (by simp)

/-- The step files a proposal, and is told this number for it. -/
def Proposes (host : Host) (e : Event World Label) (id : Nat) : Prop :=
  ∃ inv admin action target payload,
    e.label = .invoke inv (.proposeTimelockedAction admin action target payload) ∧
    proposeTimelockedAction (e.pre.env host inv) admin action target payload e.pre.store =
      .ok (id,e.post.store)

/-- The step is the filing of a proposal that goes through. -/
def proposes (host : Host) (e : Event World Label) : Bool :=
  match e.label with
  | .invoke inv (.proposeTimelockedAction admin action target payload) =>
    (proposeTimelockedAction (e.pre.env host inv) admin action target payload e.pre.store).isOk
  | _ => false

def Cancels (host : Host) (e : Event World Label) (id : Nat) : Prop :=
  ∃ admin, Succeeds host e (.cancelTimelockedProposal admin id)

def Dispatches (host : Host) (e : Event World Label) (id : Nat) : Prop :=
  (∃ caller, Succeeds host e (.executeTimelockedProposal caller id)) ∨
    ∃ admin, Succeeds host e (.emergencyExecuteTimelock admin id)

theorem Proposes.filed (h : Proposes host e id) :
    id=satAdd32 (agenda e.pre.store).seq 1 ∧ ∃ p : TimelockProposal,
      p.minExecutionAt=satAdd64 e.pre.ledger.timestamp (getTimelockMinDelay e.pre.store) ∧
      agenda e.post.store=⟨id,update (agenda e.pre.store).proposals id (some p)⟩ := by
  obtain ⟨inv,admin,action,target,payload,-,hx⟩ := h
  obtain ⟨-,hid,p,-,hdue,hpost⟩ := proposeTimelockedAction_ok hx
  exact ⟨hid,p,hdue,hpost⟩

theorem Cancels.cancelled (h : Cancels host e id) :
    ∃ p, e.post.store (.Proposal id)=some p ∧ p.cancelled=true := by
  obtain ⟨admin,inv,-,hx⟩ := h
  obtain ⟨p,-,-,hpost⟩ := cancelTimelockedProposal_ok hx
  exact ⟨_,by rw [← hpost,Store.set_self],rfl⟩

/-- A proposal that is carried out was waiting, and counts as executed from then on. A wasm
upgrade, and whatever is carried out in the regular way, is due. -/
theorem Dispatches.dispatched (h : Dispatches host e id) :
    ∃ p, e.pre.store (.Proposal id)=some p ∧ p.Waits ∧
      (agenda e.post.store).proposals id=some { p with executed := true } ∧
      (p.action=ProposalAction.UpgradeWasm → p.minExecutionAt≤e.pre.ledger.timestamp) := by
  rcases h with ⟨caller,inv,-,hx⟩ | ⟨admin,inv,-,hx⟩
  · obtain ⟨p,hp⟩ := executeTimelockedProposal_ok hx
    refine ⟨p,hp.stored,⟨hp.executed,hp.cancelled⟩,?_,fun _ => hp.due⟩
    rw [hp.effect.agenda,agenda_set]
    exact update_self ..
  · obtain ⟨p,hp⟩ := emergencyExecuteTimelock_ok hx
    refine ⟨p,hp.stored,⟨hp.executed,hp.cancelled⟩,?_,
      fun haction => absurd haction hp.noUpgrade⟩
    rw [hp.effect.agenda,agenda_set]
    exact update_self ..

theorem proposes_filed (hst : next host e.pre e.label=e.post) (h : proposes host e=true) :
    ∃ id, Proposes host e id := by
  obtain ⟨w,l,w'⟩ := e
  unfold proposes at h
  split at h
  · rename_i inv admin action target payload hl
    subst hl
    cases hx : proposeTimelockedAction (w.env host inv) admin action target payload w.store with
    | ok r =>
      refine ⟨r.1,inv,admin,action,target,payload,rfl,?_⟩
      have hexec : exec (w.env host inv) (.proposeTimelockedAction admin action target payload)
          w.store=.ok ((),r.2) := (discard_ok ..).2 ⟨r.1,hx⟩
      have hpost : w'={ w with store := r.2 } := by
        rw [← show next host w _ = w' from hst]
        simp [next,hexec]
      rw [hpost]
      exact hx
    | error err => simp [hx,Except.isOk,Except.toBool] at h
  · cases h

theorem seq_kept (hst : next host e.pre e.label=e.post) (h : proposes host e=false) :
    (agenda e.post.store).seq=(agenda e.pre.store).seq := by
  have hseq : e.post.store .ProposalSeq=e.pre.store .ProposalSeq := by
    obtain ⟨inv,c,hl,-,hx⟩ | hk := next_store hst
    · cases c with
      | proposeTimelockedAction admin action target payload =>
        obtain ⟨id,hx⟩ := (discard_ok ..).1 hx
        simp [proposes,hl,hx,Except.isOk,Except.toBool] at h
      | _ => exact exec_footprint hx (notMem_of_elem rfl)
    · exact hk _ (by simp)
  simp [agenda,hseq]

/-- What the agenda remembers of the steps taken. -/
structure Minutes (host : Host) (tr : Trace) (A : Agenda) : Prop where
  sound : A.Sound
  counted : A.seq = tr.countP (proposes host)
  filed : ∀ id p, A.proposals id = some p → ∃ c ∈ tr, Proposes host c id ∧
    p.minExecutionAt = satAdd64 c.pre.ledger.timestamp (getTimelockMinDelay c.pre.store)
  executed : ∀ e ∈ tr, ∀ id, Dispatches host e id → ∃ p, A.proposals id = some p ∧
    p.executed = true
  cancelled : ∀ e ∈ tr, ∀ id, Cancels host e id → ∃ p, A.proposals id = some p ∧
    p.cancelled = true

theorem Minutes.empty (host : Host) : Minutes host [] (agenda Store.empty) where
  sound := by
    refine ⟨fun id p hp => (by cases hp),?_⟩
    have none : (agenda Store.empty).waiting=∅ := by
      ext id
      simp [Agenda.waiting,rowsWith,agenda,Store.empty]
    simp [none]
  counted := rfl
  filed := fun id p hp => by cases hp
  executed := by simp
  cancelled := by simp

theorem Minutes.counted_step (h : Minutes host tr (agenda e.pre.store))
    (hst : next host e.pre e.label=e.post) (hseq : (agenda e.pre.store).seq<u32Max) :
    (agenda e.post.store).seq=(e::tr).countP (proposes host) := by
  cases hp : proposes host e with
  | true =>
    obtain ⟨id,hid⟩ := proposes_filed hst hp
    obtain ⟨rfl,p,-,hpost⟩ := hid.filed
    rw [hpost,countP_cons_of_pos hp,← h.counted]
    exact satAdd32_succ hseq
  | false => rw [seq_kept hst hp,countP_cons_of_neg (by simp [hp]),h.counted]

theorem Minutes.filed_step (h : Minutes host tr (agenda e.pre.store))
    (hst : next host e.pre e.label=e.post) (hseq : (agenda e.pre.store).seq<u32Max)
    {q : TimelockProposal} (hq : (agenda e.post.store).proposals id=some q) :
    ∃ c∈e::tr, Proposes host c id ∧
      q.minExecutionAt=satAdd64 c.pre.ledger.timestamp (getTimelockMinDelay c.pre.store) := by
  have before : ∀ p, (agenda e.pre.store).proposals id=some p →
      q.minExecutionAt=p.minExecutionAt → ∃ c∈e::tr, Proposes host c id ∧
        q.minExecutionAt =
          satAdd64 c.pre.ledger.timestamp (getTimelockMinDelay c.pre.store) := by
    intro p hp hdue
    obtain ⟨c,hc,hproposes,hp'⟩ := h.filed id p hp
    exact ⟨c,mem_cons_of_mem _ hc,hproposes,hdue.trans hp'⟩
  cases hp : proposes host e with
  | true =>
    obtain ⟨n,hn⟩ := proposes_filed hst hp
    obtain ⟨-,p,hdue,hpost⟩ := hn.filed
    rw [hpost] at hq
    by_cases hid : id=n
    · subst hid
      obtain rfl : p=q := by simpa using hq
      exact ⟨e,mem_cons_self,hn,hdue⟩
    · exact before q (by simpa [hid] using hq) rfl
  | false =>
    obtain ⟨p,hp',hdue⟩ := (next_agenda hst).stored_before hseq (seq_kept hst hp) hq
    exact before p hp' hdue

theorem Minutes.step (h : Minutes host tr (agenda e.pre.store))
    (hst : next host e.pre e.label=e.post) (hseq : (agenda e.pre.store).seq<u32Max) :
    Minutes host (e::tr) (agenda e.post.store) where
  sound := (next_agenda hst).sound hseq h.sound
  counted := h.counted_step hst hseq
  filed := fun _ _ => h.filed_step hst hseq
  executed := by
    intro x hx id hdispatch
    rcases mem_cons.1 hx with rfl | hx
    · obtain ⟨p,-,-,hpost,-⟩ := hdispatch.dispatched
      exact ⟨_,hpost,rfl⟩
    · obtain ⟨p,hp,hexecuted⟩ := h.executed x hx id hdispatch
      obtain ⟨q,hq,-,hkept,-⟩ := (next_agenda hst).stored hseq h.sound hp
      exact ⟨q,hq,hkept hexecuted⟩
  cancelled := by
    intro x hx id hcancel
    rcases mem_cons.1 hx with rfl | hx
    · exact hcancel.cancelled
    · obtain ⟨p,hp,hcancelled⟩ := h.cancelled x hx id hcancel
      obtain ⟨q,hq,-,-,hkept⟩ := (next_agenda hst).stored hseq h.sound hp
      exact ⟨q,hq,hkept hcancelled⟩

theorem reaches_minutes {start : Ledger} {w : World} (h : Reaches host start tr w)
    (hfew : tr.countP (proposes host)<u32Max) : Minutes host tr (agenda w.store) := by
  refine Run.invariant (C := fun _ => True) (I := fun tr w =>
    tr.countP (proposes host)<u32Max → Minutes host tr (agenda w.store)) ?_ ?_ h
    (fun _ _ => trivial) hfew
  · exact fun _ => Minutes.empty host
  · intro tr w l w' hr ih hst _ hfew
    have hbefore : tr.countP (proposes host)<u32Max :=
      lt_of_le_of_lt (sublist_cons_self _ _).countP_le hfew
    have hw := ih hbefore
    exact Minutes.step (e := ⟨w,l,w'⟩) hw hst (hw.counted ▸ hbefore)

/-- The wasm changes only when a proposal to upgrade it is carried out. -/
theorem wasm_changed (hst : next host e.pre e.label=e.post)
    (h : e.post.store .WasmHash≠e.pre.store .WasmHash) :
    ∃ id p, Dispatches host e id ∧ e.pre.store (.Proposal id)=some p ∧
      p.action=ProposalAction.UpgradeWasm := by
  have upgrade : ∀ {env : Env} {p : TimelockProposal} {s : Storage},
      s .WasmHash=e.pre.store .WasmHash → TimelockEffect env p s e.post.store →
      p.action=ProposalAction.UpgradeWasm := by
    intro env p s hs heffect
    generalize e.post.store=s' at h heffect
    cases heffect with
    | upgradeWasm action installed => exact action
    | _ => exact absurd (by simpa [deactivated] using hs) h
  obtain ⟨inv,c,hl,-,hx⟩ | hk := next_store hst
  · cases c with
    | executeTimelockedProposal caller id =>
      obtain ⟨p,hp⟩ := executeTimelockedProposal_ok hx
      exact ⟨id,p,.inl ⟨caller,inv,hl,hx⟩,hp.stored,upgrade (by simp) hp.effect⟩
    | emergencyExecuteTimelock admin id =>
      obtain ⟨p,hp⟩ := emergencyExecuteTimelock_ok hx
      exact ⟨id,p,.inr ⟨admin,inv,hl,hx⟩,hp.stored,upgrade (by simp) hp.effect⟩
    | _ => exact absurd (exec_footprint hx (notMem_of_elem rfl)) h
  · exact absurd (hk _ (by simp)) h

/-- The timelock over a whole run with fewer than `2^32-1` proposals. Its numbers are given out
in order; a proposal is carried out at most once and not once it is cancelled; the regular way
waits for the delay in force at the filing, as far as a 64-bit time can tell; a wasm upgrade is
never early; and no more proposals wait than are allowed. -/
theorem timelock_safety {host : Host} {start : Ledger} {tr : Trace} {w : World}
    (h : Reaches host start tr w) (hfew : tr.countP (proposes host) < 2^32-1) :
    (∀ tr₁ e tr₂ id, tr = tr₂++e::tr₁ → Proposes host e id →
      id = tr₁.countP (proposes host)+1 ∧ e.pre.store (.Proposal id) = none) ∧
    (∀ tr₁ e tr₂ id, tr = tr₂++e::tr₁ → Dispatches host e id →
      ∀ x ∈ tr₁, ¬ Dispatches host x id ∧ ¬ Cancels host x id) ∧
    (∀ tr₁ e tr₂ caller id, tr = tr₂++e::tr₁ →
      Succeeds host e (.executeTimelockedProposal caller id) →
      ∃ c ∈ tr₁, Proposes host c id ∧
        satAdd64 c.pre.ledger.timestamp (getTimelockMinDelay c.pre.store) ≤
          e.pre.ledger.timestamp) ∧
    (∀ e ∈ tr, ∀ id p, Dispatches host e id → e.pre.store (.Proposal id) = some p →
      p.action = ProposalAction.UpgradeWasm → p.minExecutionAt ≤ e.pre.ledger.timestamp) ∧
    (∀ e ∈ tr, e.post.store .WasmHash ≠ e.pre.store .WasmHash →
      ∃ id p, Dispatches host e id ∧ e.pre.store (.Proposal id) = some p ∧
        p.action = ProposalAction.UpgradeWasm) ∧
    Set.encard {id | ∃ p, w.store (.Proposal id) = some p ∧ p.executed = false ∧
      p.cancelled = false} ≤ MAX_PENDING_TIMELOCK_PROPOSALS := by
  have minutes : ∀ {tr₁ e tr₂}, tr=tr₂++e::tr₁ →
      tr₁.countP (proposes host)<u32Max ∧ Minutes host tr₁ (agenda e.pre.store) := by
    intro tr₁ e tr₂ htr
    subst htr
    have hbefore : tr₁.countP (proposes host)<u32Max := by
      rw [countP_append,countP_cons] at hfew
      unfold u32Max
      omega
    obtain ⟨hpre,-,-⟩ := Run.split h
    exact ⟨hbefore,reaches_minutes hpre hbefore⟩
  refine ⟨?_,?_,?_,?_,?_,(reaches_minutes h hfew).sound.bounded⟩
  · intro tr₁ e tr₂ id htr hproposes
    obtain ⟨hbefore,hmin⟩ := minutes htr
    obtain ⟨hid,-⟩ := hproposes.filed
    rw [satAdd32_succ (hmin.counted ▸ hbefore)] at hid
    subst hid
    exact ⟨by rw [hmin.counted],hmin.sound.next_free⟩
  · intro tr₁ e tr₂ id htr hdispatch x hx
    obtain ⟨-,hmin⟩ := minutes htr
    obtain ⟨p,hp,hwaits,-,-⟩ := hdispatch.dispatched
    refine ⟨fun hx' => ?_,fun hx' => ?_⟩
    · obtain ⟨q,hq,hexecuted⟩ := hmin.executed x hx id hx'
      cases hp.symm.trans hq
      cases hwaits.1.symm.trans hexecuted
    · obtain ⟨q,hq,hcancelled⟩ := hmin.cancelled x hx id hx'
      cases hp.symm.trans hq
      cases hwaits.2.symm.trans hcancelled
  · intro tr₁ e tr₂ caller id htr hsucceeds
    obtain ⟨-,hmin⟩ := minutes htr
    obtain ⟨inv,-,hx⟩ := hsucceeds
    obtain ⟨p,hp⟩ := executeTimelockedProposal_ok hx
    obtain ⟨c,hc,hproposes,hdue⟩ := hmin.filed id p hp.stored
    exact ⟨c,hc,hproposes,hdue ▸ hp.due⟩
  · intro e _ id p hdispatch hp haction
    obtain ⟨q,hq,-,-,hdue⟩ := hdispatch.dispatched
    cases hp.symm.trans hq
    exact hdue haction
  · intro e he
    exact wasm_changed (h.next_eq he)

def upgradeFiled : List Label :=
  [.call ⟨1⟩ (.init ⟨1⟩),
    .call ⟨1⟩ (.proposeTimelockedAction ⟨1⟩ ProposalAction.UpgradeWasm ⟨2⟩ (fill 7)),
    .advance (genesisPlus 86400 genesis_day_lt)]

def upgradeExecuted : Event World Label :=
  (deploy upgradeFiled).2.event stellarHost (.call ⟨1⟩ (.executeTimelockedProposal ⟨1⟩ 1))

theorem timelock_safety_upgrade :
    upgradeExecuted.post.store .WasmHash = some (fill 7) ∧
    (∃ c ∈ (deploy upgradeFiled).1, Proposes stellarHost c 1 ∧
      satAdd64 c.pre.ledger.timestamp (getTimelockMinDelay c.pre.store) ≤
        upgradeExecuted.pre.ledger.timestamp) ∧
    ∀ x ∈ (deploy upgradeFiled).1, ¬ Dispatches stellarHost x 1 ∧ ¬ Cancels stellarHost x 1 := by
  have run := (deploy_reaches upgradeFiled).event (.call ⟨1⟩ (.executeTimelockedProposal ⟨1⟩ 1))
  obtain ⟨-,honce,hdelay,-⟩ := timelock_safety run (by decide +kernel)
  have executed : Succeeds stellarHost upgradeExecuted (.executeTimelockedProposal ⟨1⟩ 1) :=
    succeeds_event (by decide +kernel)
  exact ⟨by decide +kernel,hdelay _ _ [] ⟨1⟩ 1 rfl executed,
    honce _ _ [] 1 rfl (.inl ⟨⟨1⟩,executed⟩)⟩

theorem nearEnd_lt : 2^64-2<2^64 := by decide
theorem end_lt : 2^64-1<2^64 := by decide

def nearEnd : Ledger := ⟨2^64-2,1,nearEnd_lt,genesis.sequence_lt⟩

def endOfTime : Ledger := ⟨2^64-1,1,end_lt,genesis.sequence_lt⟩

def filedNearEnd : Event World Label :=
  (play stellarHost ⟨nearEnd,Store.empty⟩ [.call ⟨1⟩ (.init ⟨1⟩)]).2.event stellarHost
    (.call ⟨1⟩ (.proposeTimelockedAction ⟨1⟩ 3 ⟨2⟩ (fill 0)))

def lastSecond : Event World Label :=
  filedNearEnd.post.event stellarHost (.advance endOfTime)

def executedAtEnd : Event World Label :=
  lastSecond.post.event stellarHost (.call ⟨1⟩ (.executeTimelockedProposal ⟨1⟩ 1))

/-- At the end of time the sum of filing time and delay is cut, and a proposal filed one second
ago is carried out. -/
theorem timelock_delay_cut : ∃ tr₁,
    Reaches stellarHost nearEnd (executedAtEnd::tr₁) executedAtEnd.post ∧
    (executedAtEnd::tr₁).countP (proposes stellarHost) < 2^32-1 ∧
    filedNearEnd ∈ tr₁ ∧ Proposes stellarHost filedNearEnd 1 ∧
    Succeeds stellarHost executedAtEnd (.executeTimelockedProposal ⟨1⟩ 1) ∧
    executedAtEnd.pre.ledger.timestamp <
      filedNearEnd.pre.ledger.timestamp+getTimelockMinDelay filedNearEnd.pre.store := by
  have run := (((play_reaches stellarHost nearEnd [.call ⟨1⟩ (.init ⟨1⟩)]).event
    (.call ⟨1⟩ (.proposeTimelockedAction ⟨1⟩ 3 ⟨2⟩ (fill 0)))).event (.advance endOfTime)).event
    (.call ⟨1⟩ (.executeTimelockedProposal ⟨1⟩ 1))
  obtain ⟨id,hproposes⟩ : ∃ id, Proposes stellarHost filedNearEnd id :=
    proposes_filed rfl (by decide +kernel)
  obtain rfl : id=1 := hproposes.filed.1.trans (by decide +kernel)
  exact ⟨_,run,by decide +kernel,by simp [filedNearEnd],hproposes,
    succeeds_event (by decide +kernel),by decide +kernel⟩

end Harpocrates.Registry
