import Harpocrates.Registry.Docket
import Harpocrates.Registry.Refinement
import Harpocrates.Registry.Supersession

namespace Harpocrates.Registry

open Framework Tx Function

def DisputeValue.record? : Option DisputeValue → Option DisputeRecord
  | some (.record r) => some r
  | _ => none

/-- The docket a storage stands for. -/
def docket (s : Storage) : Docket where
  records d := DisputeValue.record? (disputeTable s d)
  perProof := getOpenDisputeCount s
  perReporter := getReporterOpenDisputeCount s

variable {d p : Bytes32} {r x : DisputeRecord} {s s' : Storage} {u : Unit} {host : Host}
  {w w' : World}

theorem docket_record : (docket s).records d=some r ↔ s (.Dispute d)=some (.record r) := by
  change DisputeValue.record? (s (.Dispute d))=some r ↔ _
  cases s (.Dispute d) with
  | none => simp [DisputeValue.record?]
  | some v => cases v <;> simp [DisputeValue.record?]

theorem records_update
    (h : disputeTable s'=update (disputeTable s) d (some (.record r))) :
    (docket s').records=update (docket s).records d (some r) := by
  change DisputeValue.record? ∘ disputeTable s' =
    update (DisputeValue.record? ∘ disputeTable s) d (some r)
  rw [h,comp_update]
  rfl

/-- An entry of the reverse index is no dispute, and neither is what it overwrites. -/
theorem records_update_index {s s' : Storage} {d k q : Bytes32} {r r' : DisputeRecord}
    {o : Option Bytes32} (hd : disputeTable s d=some (.record r))
    (hk : disputeTable s k=o.map .proofId)
    (h : disputeTable s'=update
      (update (disputeTable s) d (some (.record r'))) k (some (.proofId q))) :
    (docket s').records=update (docket s).records d (some r') := by
  have hkd : k≠d := by
    intro heq
    rw [heq,hd] at hk
    cases o <;> cases hk
  have hnone : DisputeValue.record? (disputeTable s k)=none := by
    rw [hk]
    cases o <;> rfl
  change DisputeValue.record? ∘ disputeTable s' =
    update (DisputeValue.record? ∘ disputeTable s) d (some r')
  rw [h,comp_update,comp_update]
  refine update_eq_iff.2 ⟨?_,fun _ _ => rfl⟩
  rw [update_of_ne hkd,comp_apply,hnone]
  rfl

theorem docket_congr (ht : disputeTable s'=disputeTable s)
    (hp : ∀ p, s' (.ProofOpenDisputeCount p)=s (.ProofOpenDisputeCount p))
    (ha : ∀ a, s' (.ReporterOpenDisputeCount a)=s (.ReporterOpenDisputeCount a)) :
    docket s'=docket s := by
  have hproof : getOpenDisputeCount s'=getOpenDisputeCount s := by
    funext p
    rw [getOpenDisputeCount,hp,getOpenDisputeCount]
  have hreporter : getReporterOpenDisputeCount s'=getReporterOpenDisputeCount s := by
    funext a
    rw [getReporterOpenDisputeCount,ha,getReporterOpenDisputeCount]
  rw [docket,docket,ht,hproof,hreporter]

theorem getOpenDisputeCount_set (s : Storage) (p : Bytes32) (n : Nat) :
    getOpenDisputeCount (Store.set s (.ProofOpenDisputeCount p) n) =
      update (getOpenDisputeCount s) p n := by
  funext q
  by_cases hq : q=p
  · subst hq
    simp [getOpenDisputeCount]
  · have hk : DataKey.ProofOpenDisputeCount q≠.ProofOpenDisputeCount p := by simpa using hq
    simp [getOpenDisputeCount,hk,hq]

theorem getReporterOpenDisputeCount_set (s : Storage) (a : Address) (n : Nat) :
    getReporterOpenDisputeCount (Store.set s (.ReporterOpenDisputeCount a) n) =
      update (getReporterOpenDisputeCount s) a n := by
  funext b
  by_cases hb : b=a
  · subst hb
    simp [getReporterOpenDisputeCount]
  · have hk : DataKey.ReporterOpenDisputeCount b≠.ReporterOpenDisputeCount a := by simpa using hb
    simp [getReporterOpenDisputeCount,hk,hb]

theorem getOpenDisputeCount_set_other (s : Storage) {k : DataKey} (v : k.Val)
    (hk : k.family≠.ProofOpenDisputeCount) :
    getOpenDisputeCount (Store.set s k v)=getOpenDisputeCount s := by
  funext p
  have hne : DataKey.ProofOpenDisputeCount p≠k := fun heq => hk (heq ▸ rfl)
  rw [getOpenDisputeCount,Store.set_of_ne _ _ hne,getOpenDisputeCount]

theorem getReporterOpenDisputeCount_set_other (s : Storage) {k : DataKey} (v : k.Val)
    (hk : k.family≠.ReporterOpenDisputeCount) :
    getReporterOpenDisputeCount (Store.set s k v)=getReporterOpenDisputeCount s := by
  funext a
  have hne : DataKey.ReporterOpenDisputeCount a≠k := fun heq => hk (heq ▸ rfl)
  rw [getReporterOpenDisputeCount,Store.set_of_ne _ _ hne,getReporterOpenDisputeCount]

/-- The count goes down by one. At zero the key is removed, which reads as zero. -/
theorem decrementOpenDisputeCount_ok (h : decrementOpenDisputeCount p s=.ok (u,s')) :
    getOpenDisputeCount s' =
      update (getOpenDisputeCount s) p (getOpenDisputeCount s p-1) ∧
    getReporterOpenDisputeCount s'=getReporterOpenDisputeCount s := by
  simp only [decrementOpenDisputeCount,bind_ok,get_ok,Tx.ite_apply] at h
  obtain ⟨_,_,⟨rfl,rfl⟩,h⟩ := h
  split at h
  · rename_i hzero
    obtain rfl := (remove_ok ..).1 h
    refine ⟨?_,funext fun a => by simp [getReporterOpenDisputeCount]⟩
    have hcount : getOpenDisputeCount s p-1=0 := hzero
    rw [hcount]
    funext q
    by_cases hq : q=p
    · subst hq
      simp [getOpenDisputeCount]
    · have hk : DataKey.ProofOpenDisputeCount q≠.ProofOpenDisputeCount p := by simpa using hq
      simp [getOpenDisputeCount,hk,hq]
  · obtain rfl := (set_ok ..).1 h
    exact ⟨getOpenDisputeCount_set s p _,getReporterOpenDisputeCount_set_other s _ (by simp)⟩

theorem decrementReporterOpenDisputeCount_ok {a : Address}
    (h : decrementReporterOpenDisputeCount a s=.ok (u,s')) :
    getReporterOpenDisputeCount s' =
      update (getReporterOpenDisputeCount s) a (getReporterOpenDisputeCount s a-1) ∧
    getOpenDisputeCount s'=getOpenDisputeCount s := by
  simp only [decrementReporterOpenDisputeCount,bind_ok,get_ok,Tx.ite_apply] at h
  obtain ⟨_,_,⟨rfl,rfl⟩,h⟩ := h
  split at h
  · rename_i hzero
    obtain rfl := (remove_ok ..).1 h
    refine ⟨?_,funext fun p => by simp [getOpenDisputeCount]⟩
    have hcount : getReporterOpenDisputeCount s a-1=0 := hzero
    rw [hcount]
    funext b
    by_cases hb : b=a
    · subst hb
      simp [getReporterOpenDisputeCount]
    · have hk : DataKey.ReporterOpenDisputeCount b≠.ReporterOpenDisputeCount a := by
        simpa using hb
      simp [getReporterOpenDisputeCount,hk,hb]
  · obtain rfl := (set_ok ..).1 h
    exact ⟨getReporterOpenDisputeCount_set s a _,getOpenDisputeCount_set_other s _ (by simp)⟩

/-- Both counters go down once the new record is in the table. -/
theorem docket_close {t u : Storage} {x y : Unit}
    (hrecords : (docket s').records=update (docket s).records d (some r))
    (hproof : getOpenDisputeCount t=getOpenDisputeCount s)
    (hreporter : getReporterOpenDisputeCount t=getReporterOpenDisputeCount s)
    (h1 : decrementOpenDisputeCount r.proofId t=.ok (x,u))
    (h2 : decrementReporterOpenDisputeCount r.reporter u=.ok (y,s')) :
    docket s'=(docket s).close d r := by
  obtain ⟨hp1,ha1⟩ := decrementOpenDisputeCount_ok h1
  obtain ⟨ha2,hp2⟩ := decrementReporterOpenDisputeCount_ok h2
  have perProof : (docket s').perProof=((docket s).close d r).perProof := by
    change getOpenDisputeCount s'=update (getOpenDisputeCount s) r.proofId _
    rw [hp2,hp1,hproof]
    rfl
  have perReporter : (docket s').perReporter=((docket s).close d r).perReporter := by
    change getReporterOpenDisputeCount s' =
      update (getReporterOpenDisputeCount s) r.reporter _
    rw [ha2,ha1,hreporter]
    rfl
  exact Docket.ext hrecords perProof perReporter

def Storage.holds (s : Storage) (p : Bytes32) : Prop := (s (.Proof p)).isSome = true

theorem openDispute_docket {env : Env} {reporter : Address} {h c : Bytes32}
    {reason : DisputeReason} (hx : openDispute env reporter h d p reason c s=.ok (x,s')) :
    docket s'=(docket s).file (openedRecord env reporter h d p reason c) := by
  obtain ⟨-,-,-,-,-,happ⟩ := openDispute_ok hx
  have frame := appendProofDispute_writes p d _ _ _ happ
  have perProof : getOpenDisputeCount s' =
      update (getOpenDisputeCount s) p (getOpenDisputeCount s p+1) := by
    have hlog : getOpenDisputeCount s' =
        getOpenDisputeCount (openedStorage env reporter h d p reason c s) :=
      funext fun q => congrArg (Option.getD · 0) (frame (.ProofOpenDisputeCount q) (by simp))
    rw [hlog,openedStorage,getOpenDisputeCount_set_other _ _ (by simp),getOpenDisputeCount_set,
      getOpenDisputeCount_set_other _ _ (by simp),getOpenDisputeCount_set_other _ _ (by simp)]
  have perReporter : getReporterOpenDisputeCount s'=update
      (getReporterOpenDisputeCount s) reporter (getReporterOpenDisputeCount s reporter+1) := by
    have hlog : getReporterOpenDisputeCount s' =
        getReporterOpenDisputeCount (openedStorage env reporter h d p reason c s) :=
      funext fun q => congrArg (Option.getD · 0) (frame (.ReporterOpenDisputeCount q) (by simp))
    rw [hlog,openedStorage,getReporterOpenDisputeCount_set,
      getReporterOpenDisputeCount_set_other _ _ (by simp),
      getReporterOpenDisputeCount_set_other _ _ (by simp),
      getReporterOpenDisputeCount_set_other _ _ (by simp)]
  exact Docket.ext (records_update (openDispute_table hx).2) perProof perReporter

theorem closeDispute_docket {env : Env} {status : DisputeStatus}
    (h : closeDispute env d r status s=.ok (x,s')) :
    docket s'=(docket s).close d { r with status, resolvedAt := env.timestamp } := by
  have hrecords := records_update (closeDispute_table h)
  simp only [closeDispute,bind_ok,set_ok,pure_ok] at h
  obtain ⟨_,_,rfl,_,_,h1,_,_,h2,-,rfl⟩ := h
  exact docket_close hrecords (getOpenDisputeCount_set_other _ _ (by simp))
    (getReporterOpenDisputeCount_set_other _ _ (by simp)) h1 h2

theorem supersedeDispute_docket {env : Env} {admin : Address} {y : Bytes32}
    (h : supersedeDispute env admin d y s=.ok (x,s')) :
    ∃ r, s (.Dispute d)=some (.record r) ∧ isOpenStatus r.status=true ∧ s.holds y ∧
      y≠r.proofId ∧ docket s'=(docket s).close d
        { r with
          status := .Superseded
          supersededBy := some y
          resolvedAt := env.timestamp } := by
  obtain ⟨r,hr,status,known,other,check,t,h1,h2⟩ := supersedeDispute_ok h
  obtain ⟨-,o,-,ho,-⟩ := checkSupersessionCycle_false check
  have htable := counters_table h1 h2
  rw [supersededStorage,disputeTable_set,disputeTable_set] at htable
  have perProof : getOpenDisputeCount (supersededStorage env d y r s) =
      getOpenDisputeCount s := by
    rw [supersededStorage,getOpenDisputeCount_set_other _ _ (by simp),
      getOpenDisputeCount_set_other _ _ (by simp)]
  have perReporter : getReporterOpenDisputeCount (supersededStorage env d y r s) =
      getReporterOpenDisputeCount s := by
    rw [supersededStorage,getReporterOpenDisputeCount_set_other _ _ (by simp),
      getReporterOpenDisputeCount_set_other _ _ (by simp)]
  exact ⟨r,hr,status,known,other,
    docket_close (records_update_index hr ho htable) perProof perReporter h1 h2⟩

theorem exec_docket {env : Env} {c : Call} (h : exec env c s=.ok (u,s')) :
    Docket.Step env.timestamp s.holds (docket s) (docket s') := by
  cases c with
  | openDispute reporter reporterHash d proofId reason commitmentHash =>
    obtain ⟨_,h⟩ := (discard_ok ..).1 h
    obtain ⟨-,free,room,room',-,-⟩ := openDispute_ok h
    rw [openDispute_docket h]
    refine .file _ ?_ rfl rfl rfl room room'
    change DisputeValue.record? (s (.Dispute d))=none
    rw [free]
    rfl
  | respondDispute responder d commitment =>
    obtain ⟨_,h⟩ := (discard_ok ..).1 h
    obtain ⟨r,hr,status,inTime,rfl⟩ := respondDispute_ok h
    have hpost : docket (Store.set s (.Dispute d) (.record { r with
        status := .Responded
        responseCommitment := some commitment
        resolveDeadline := satAdd64 env.timestamp RESOLVE_DEADLINE_SECS })) =
        (docket s).revise d { r with
          status := .Responded
          responseCommitment := some commitment
          resolveDeadline := satAdd64 env.timestamp RESOLVE_DEADLINE_SECS } :=
      Docket.ext (records_update (disputeTable_set ..))
        (getOpenDisputeCount_set_other _ _ (by simp))
        (getReporterOpenDisputeCount_set_other _ _ (by simp))
    rw [hpost]
    exact .revise d r _ (docket_record.2 hr) (.respond r commitment status inTime) rfl
  | resolveDispute admin d =>
    obtain ⟨_,h⟩ := (discard_ok ..).1 h
    obtain ⟨r,hr,status,inTime,h⟩ := resolveDispute_ok h
    rw [closeDispute_docket h]
    exact .close d r _ (docket_record.2 hr) (.resolve r status inTime) rfl
  | dismissDispute admin d =>
    obtain ⟨_,h⟩ := (discard_ok ..).1 h
    obtain ⟨r,hr,status,h⟩ := dismissDispute_ok h
    rw [closeDispute_docket h]
    exact .close d r _ (docket_record.2 hr) (.dismiss r status) rfl
  | supersedeDispute admin d y =>
    obtain ⟨_,h⟩ := (discard_ok ..).1 h
    obtain ⟨r,hr,status,known,other,hpost⟩ := supersedeDispute_docket h
    rw [hpost]
    exact .close d r _ (docket_record.2 hr) (.supersede r y status known other) rfl
  | _ =>
    have frame := exec_writes env _ s u s' h
    rw [docket_congr (funext fun d => frame (.Dispute d) (notMem_of_elem rfl))
      (fun p => frame (.ProofOpenDisputeCount p) (notMem_of_elem rfl))
      (fun a => frame (.ReporterOpenDisputeCount a) (notMem_of_elem rfl))]
    exact .keep

theorem next_docket {l : Label} (hst : next host w l=w') :
    Docket.Step w.ledger.timestamp w.store.holds (docket w.store) (docket w'.store) := by
  obtain ⟨inv,c,-,-,hx⟩ | hk := next_store hst
  · exact exec_docket hx
  · rw [docket_congr (funext fun d => hk (.Dispute d) (by simp)) (fun p => hk _ (by simp))
      (fun a => hk _ (by simp))]
    exact .keep

theorem next_holds {l : Label} (hst : next host w l=w') (hp : w.store.holds p) :
    w'.store.holds p := by
  have known : ∀ s : Storage, (book s).entry p≠none ↔ s.holds p := by
    intro s
    rw [Ne,book_entry_none,Storage.holds,Option.isSome_iff_ne_none]
  refine (known w'.store).1 ?_
  obtain ⟨inv,c,-,hreg⟩ | hbook := next_registers hst
  · rw [hreg.refines]
    exact Book.entry_applyAll_isSome ((known w.store).2 hp)
  · rw [hbook]
    exact (known w.store).2 hp

theorem reaches_docket {start : Ledger} {tr : Trace} (h : Reaches host start tr w) :
    (docket w.store).Sound w.store.holds := by
  refine Run.state_invariant (I := fun w : World => (docket w.store).Sound w.store.holds) ?_ ?_ h
  · exact Docket.Sound.empty
  · intro w l w' hw hst
    exact ((next_docket hst).sound hw).mono fun p => next_holds hst

/-- From one state to a later one, a record stays, its submission is what it was and it is
final once closed. -/
theorem proceeds_dispute {tr : Trace} (h : Proceeds host w tr w')
    (hr : w.store (.Dispute d)=some (.record r)) :
    ∃ r', w'.store (.Dispute d)=some (.record r') ∧ r'.submission=r.submission ∧
      (isOpenStatus r.status=false → r'=r) := by
  refine Run.state_invariant (I := fun w' : World => ∃ r', w'.store (.Dispute d) =
    some (.record r') ∧ r'.submission=r.submission ∧ (isOpenStatus r.status=false → r'=r))
    ?_ ?_ h
  · exact ⟨r,hr,rfl,fun _ => rfl⟩
  · intro w₁ l w₂ hyp hst
    obtain ⟨r₁,hr₁,hsub,hclosed⟩ := hyp
    obtain ⟨r₂,hr₂,hmove⟩ := (next_docket hst).record (docket_record.2 hr₁)
    rcases hmove with rfl | hmove
    · exact ⟨r₂,docket_record.1 hr₂,hsub,hclosed⟩
    · refine ⟨r₂,docket_record.1 hr₂,hmove.submission.trans hsub,fun hr => ?_⟩
      have hopen := hmove.was_open
      rw [hclosed hr,hr] at hopen
      cases hopen

end Harpocrates.Registry
