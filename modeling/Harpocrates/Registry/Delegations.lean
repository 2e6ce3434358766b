import Harpocrates.Framework.Counting
import Harpocrates.Registry.System

namespace Harpocrates.Registry

open Framework Function

@[ext] structure Delegations where
  granted : Address → Address → Option DelegationRecord
  slots : Address → Nat

namespace Delegations

/-- A grant takes a slot, unless it replaces a grant to the same delegate. -/
def grant (D : Delegations) (r : DelegationRecord) : Delegations where
  granted := Function.update D.granted r.grantor
    (Function.update (D.granted r.grantor) r.delegate (some r))
  slots := if (D.granted r.grantor r.delegate).isSome then D.slots
    else Function.update D.slots r.grantor (D.slots r.grantor+1)

def revoke (D : Delegations) (g d : Address) : Delegations where
  granted := Function.update D.granted g (Function.update (D.granted g) d none)
  slots := if (D.granted g d).isSome then Function.update D.slots g (D.slots g-1) else D.slots

theorem grant_self (D : Delegations) (r : DelegationRecord) :
    (D.grant r).granted r.grantor r.delegate=some r := by
  simp [grant]

theorem grant_other (D : Delegations) {r : DelegationRecord} {g d : Address}
    (h : ¬ (g=r.grantor ∧ d=r.delegate)) : (D.grant r).granted g d=D.granted g d := by
  by_cases hg : g=r.grantor
  · subst hg
    have hd : d≠r.delegate := fun hd => h ⟨rfl,hd⟩
    simp [grant,hd]
  · simp [grant,hg]

theorem revoke_self (D : Delegations) (g d : Address) : (D.revoke g d).granted g d=none := by
  simp [revoke]

theorem revoke_other (D : Delegations) {g d g' d' : Address} (h : ¬ (g'=g ∧ d'=d)) :
    (D.revoke g d).granted g' d'=D.granted g' d' := by
  by_cases hg : g'=g
  · subst hg
    have hd : d'≠d := fun hd => h ⟨rfl,hd⟩
    simp [revoke,hd]
  · simp [revoke,hg]

def Sound (D : Delegations) : Prop :=
  ∀ g, Counts (fun _ => True) (D.granted g) (D.slots g) ∧ D.slots g ≤ MAX_DELEGATIONS_PER_GRANTOR

theorem Sound.empty : Sound ⟨fun _ _ => none,fun _ => 0⟩ :=
  fun _ => ⟨.empty,Nat.zero_le _⟩

theorem Sound.update {D : Delegations} {row : Address → Option DelegationRecord} {n : Nat}
    (h : D.Sound) (g : Address) (hrow : Counts (fun _ => True) row n)
    (hn : n≤MAX_DELEGATIONS_PER_GRANTOR) :
    Sound ⟨update D.granted g row,update D.slots g n⟩ := by
  intro g'
  by_cases hg : g'=g
  · subst hg
    simpa using ⟨hrow,hn⟩
  · simpa [hg] using h g'

theorem Sound.grant {D : Delegations} {r : DelegationRecord} (h : D.Sound)
    (room : D.granted r.grantor r.delegate=none →
      D.slots r.grantor<MAX_DELEGATIONS_PER_GRANTOR) : (D.grant r).Sound := by
  obtain ⟨hcount,hbound⟩ := h r.grantor
  cases hr : D.granted r.grantor r.delegate with
  | none =>
    have new := h.update r.grantor (hcount.add (k := r.delegate) (r := r) trivial (by simp [hr]))
      (room hr)
    simpa [Delegations.grant,hr] using new
  | some r₀ =>
    have same := h.update r.grantor (hcount.keep (k := r.delegate) (o := some r) (by simp [hr]))
      hbound
    simpa [Delegations.grant,hr] using same

theorem Sound.revoke {D : Delegations} (h : D.Sound) (g d : Address) : (D.revoke g d).Sound := by
  obtain ⟨hcount,hbound⟩ := h g
  cases hr : D.granted g d with
  | none =>
    have same := h.update g (hcount.keep (k := d) (o := none) (by simp [hr])) hbound
    simpa [Delegations.revoke,hr] using same
  | some r =>
    have freed := h.update g (hcount.drop (o := none) hr trivial (by simp))
      ((Nat.sub_le _ _).trans hbound)
    simpa [Delegations.revoke,hr] using freed

end Delegations

def delegations (s : Storage) : Delegations where
  granted g d := s (.Delegation g d)
  slots := delegationCount s

/-- What a call does to the table. -/
def Call.onDelegations (now : Nat) (D : Delegations) : Call → Delegations
  | .grantDelegation g d scope duration => D.grant ⟨g,d,scope,now,satAdd64 now duration⟩
  | .revokeDelegation _ g d => D.revoke g d
  | _ => D

variable {d g : Address} {s s' : Storage} {host : Host} {w : World} {tr : Trace}
  {e : Event World Label}

/-- Two tables agree when they do under every pair of addresses. -/
theorem granted_update {o : Option DelegationRecord} (hself : s' (.Delegation g d)=o)
    (hother : ∀ g' d', ¬ (g'=g ∧ d'=d) → s' (.Delegation g' d')=s (.Delegation g' d')) :
    (delegations s').granted=update (delegations s).granted g
      (update ((delegations s).granted g) d o) := by
  funext g' d'
  by_cases hg : g'=g
  · subst hg
    by_cases hd : d'=d
    · subst hd
      simpa [delegations] using hself
    · simpa [delegations,hd] using hother g' d' (by simp [hd])
  · simpa [delegations,hg] using hother g' d' (by simp [hg])

theorem slots_update {n : Nat} (hself : s' (.DelegationCount g)=some n)
    (hother : ∀ g', g'≠g → s' (.DelegationCount g')=s (.DelegationCount g')) :
    (delegations s').slots=update (delegations s).slots g n := by
  funext g'
  by_cases hg : g'=g
  · subst hg
    simp [delegations,delegationCount,hself]
  · simp [delegations,delegationCount,hg,hother g' hg]

theorem grantDelegation_table {env : Env} {scope : UInt32} {duration x : Nat}
    (h : grantDelegation env g d scope duration s=.ok (x,s')) :
    delegations s' =
      (delegations s).grant ⟨g,d,scope,env.timestamp,satAdd64 env.timestamp duration⟩ := by
  obtain ⟨-,t,ht,rfl⟩ := grantDelegation_ok h
  have kept : ∀ g' d', t (.Delegation g' d')=s (.Delegation g' d') := by
    intro g' d'
    rcases ht with ⟨-,rfl⟩ | ⟨-,-,rfl⟩
    · rfl
    · simp
  refine Delegations.ext (granted_update (by simp) fun g' d' hne => ?_) ?_
  · rw [Store.set_of_ne _ _ (by simpa using hne),kept]
  · have counted : (delegations (Store.set t (.Delegation g d)
        ⟨g,d,scope,env.timestamp,satAdd64 env.timestamp duration⟩)).slots =
        (delegations t).slots :=
      funext fun g' => by simp [delegations,delegationCount]
    rw [counted]
    rcases ht with ⟨hknown,rfl⟩ | ⟨hnone,-,rfl⟩
    · simp [delegations,Delegations.grant,hknown]
    · rw [slots_update (s := s) (g := g) (n := delegationCount s g+1) (by simp)]
      · simp [delegations,Delegations.grant,hnone]
      · intro g' hg
        exact Store.set_of_ne _ _ (by simpa using hg)

theorem revokeDelegation_table {env : Env} {revoker : Address} {u : Unit}
    (h : revokeDelegation env revoker g d s=.ok (u,s')) :
    delegations s'=(delegations s).revoke g d := by
  rcases revokeDelegation_ok h with ⟨hknown,rfl⟩ | ⟨hnone,rfl⟩
  · refine Delegations.ext (granted_update (by simp) fun g' d' hne => ?_) ?_
    · rw [Store.set_of_ne _ _ (by simp),Store.erase_of_ne _ (by simpa using hne)]
    · rw [slots_update (s := s) (g := g) (n := delegationCount s g-1) (by simp)]
      · simp [delegations,Delegations.revoke,hknown]
      · intro g' hg
        have hk : DataKey.DelegationCount g'≠.DelegationCount g := by simpa using hg
        simp [hk]
  · refine Delegations.ext (granted_update hnone fun _ _ _ => rfl) ?_
    simp [delegations,Delegations.revoke,hnone]

theorem exec_delegations {env : Env} {c : Call} {u : Unit} (h : exec env c s=.ok (u,s')) :
    delegations s'=c.onDelegations env.timestamp (delegations s) := by
  cases c with
  | grantDelegation =>
    obtain ⟨_,h⟩ := (discard_ok ..).1 h
    exact grantDelegation_table h
  | revokeDelegation => exact revokeDelegation_table h
  | _ =>
    have frame := exec_writes env _ s u s' h
    refine Delegations.ext (funext fun g => funext fun d => ?_) (funext fun g => ?_)
    · exact frame (.Delegation g d) (notMem_of_elem rfl)
    · exact congrArg (Option.getD · 0) (frame (.DelegationCount g) (notMem_of_elem rfl))

theorem next_delegations {w' : World} {l : Label} (hst : next host w l=w') :
    (∃ inv c, l=.invoke inv c ∧ exec (w.env host inv) c w.store=.ok ((),w'.store) ∧
      delegations w'.store=c.onDelegations w.ledger.timestamp (delegations w.store)) ∨
    delegations w'.store=delegations w.store := by
  obtain ⟨inv,c,hl,-,hx⟩ | hk := next_store hst
  · exact .inl ⟨inv,c,hl,hx,exec_delegations hx⟩
  · refine .inr (Delegations.ext (funext fun g => funext fun d => ?_) (funext fun g => ?_))
    · exact hk _ (by simp)
    · exact congrArg (Option.getD · 0) (hk _ (by simp))

theorem next_slots {w' : World} {l : Label} (hst : next host w l=w')
    (h : (delegations w.store).Sound) : (delegations w'.store).Sound := by
  obtain ⟨inv,c,-,hx,hpost⟩ | hpost := next_delegations hst
  · rw [hpost]
    cases c with
    | grantDelegation g d scope duration =>
      obtain ⟨_,hx⟩ := (discard_ok ..).1 hx
      obtain ⟨-,t,ht,-⟩ := grantDelegation_ok hx
      refine h.grant fun hnone => ?_
      rcases ht with ⟨hknown,-⟩ | ⟨-,room,-⟩
      · rw [show w.store (.Delegation g d)=none from hnone] at hknown
        cases hknown
      · exact room
    | revokeDelegation revoker g d => exact h.revoke g d
    | _ => exact h
  · exact hpost ▸ h

theorem reaches_slots {start : Ledger} (h : Reaches host start tr w) :
    (delegations w.store).Sound :=
  Run.state_invariant (I := fun w : World => (delegations w.store).Sound)
    (show (delegations Store.empty).Sound from Delegations.Sound.empty)
    (fun _ _ _ hw hst => next_slots hst hw) h

/-- The slots of every grantor are counted exactly, and a revocation that finds a delegation
takes one off the count. -/
theorem delegation_slots_exact {host : Host} {start : Ledger} {tr : Trace} {w : World}
    (h : Reaches host start tr w) :
    (∀ g, {d | (w.store (.Delegation g d)).isSome = true}.encard = delegationCount w.store g ∧
      delegationCount w.store g ≤ MAX_DELEGATIONS_PER_GRANTOR) ∧
    ∀ e ∈ tr, ∀ revoker g d, Succeeds host e (.revokeDelegation revoker g d) →
      (e.pre.store (.Delegation g d)).isSome = true →
      delegationCount e.post.store g+1 = delegationCount e.pre.store g := by
  constructor
  · intro g
    obtain ⟨hcount,hbound⟩ := reaches_slots h g
    have rows : {d | (w.store (.Delegation g d)).isSome=true} =
        rowsWith (fun _ => True) ((delegations w.store).granted g) := by
      ext d
      simp [rowsWith,delegations,Option.isSome_iff_exists]
    rw [rows]
    exact ⟨hcount,hbound⟩
  · intro e he revoker g d hs hknown
    obtain ⟨_,_,-,hpre,-,-⟩ := Run.event_split h he
    obtain ⟨r,hr⟩ := Option.isSome_iff_exists.1 hknown
    have hpos : 0<delegationCount e.pre.store g := (reaches_slots hpre g).1.pos hr trivial
    obtain ⟨inv,-,hx⟩ := hs
    have hslots := congrArg (Delegations.slots · g) (exec_delegations hx)
    have hpost : delegationCount e.post.store g=delegationCount e.pre.store g-1 := by
      simpa [Call.onDelegations,Delegations.revoke,delegations,hknown] using hslots
    rw [hpost]
    exact Nat.sub_add_cancel hpos

/-- Grantor 2 has three delegates; one grant is renewed and another revoked by the admin. -/
def delegatedThrice : List Label :=
  [.call ⟨1⟩ (.init ⟨1⟩),
    .call ⟨2⟩ (.grantDelegation ⟨2⟩ ⟨5⟩ 1 3600),
    .call ⟨2⟩ (.grantDelegation ⟨2⟩ ⟨6⟩ 3 3600),
    .call ⟨2⟩ (.grantDelegation ⟨2⟩ ⟨7⟩ 2 3600),
    .call ⟨2⟩ (.grantDelegation ⟨2⟩ ⟨5⟩ 3 7200),
    .call ⟨1⟩ (.revokeDelegation ⟨1⟩ ⟨2⟩ ⟨6⟩)]

theorem delegation_slots_exact_revoked :
    {d | ((deploy delegatedThrice).2.store (.Delegation ⟨2⟩ d)).isSome = true}.encard = 2 := by
  obtain ⟨exact,-⟩ := delegation_slots_exact (deploy_reaches delegatedThrice)
  have two : delegationCount (deploy delegatedThrice).2.store ⟨2⟩=2 := by decide +kernel
  refine (exact ⟨2⟩).1.trans ?_
  rw [two]
  rfl

def Grants (host : Host) (e : Event World Label) (g d : Address) : Prop :=
  ∃ scope duration, Succeeds host e (.grantDelegation g d scope duration)

def Revokes (host : Host) (e : Event World Label) (g d : Address) : Prop :=
  ∃ revoker, Succeeds host e (.revokeDelegation revoker g d)

def AuthorisedBy (e : Event World Label) (a : Address) : Prop :=
  ∃ inv c, e.label = .invoke inv c ∧ c.caller = some a ∧ inv.auth a = true

theorem Succeeds.authorised {c : Call} {a : Address} (h : Succeeds host e c)
    (hc : c.caller=some a) : AuthorisedBy e a := by
  obtain ⟨inv,hl,hx⟩ := h
  exact ⟨inv,c,hl,hc,exec_authenticates _ hc _ _ hx⟩

/-- The step `e` is the latest grant of `g` to `d` in the trace and has not been revoked since. -/
structure InForce (host : Host) (tr : Trace) (g d : Address) (e : Event World Label)
    (scope : UInt32) (duration : Nat) : Prop where
  call : Succeeds host e (.grantDelegation g d scope duration)
  authorised : AuthorisedBy e g
  bounded : duration ≤ MAX_DELEGATION_DURATION_SECS
  latest : ∃ newer older, tr = newer++e::older ∧
    ∀ x ∈ newer, ¬ Grants host x g d ∧ ¬ Revokes host x g d

theorem InForce.later {x : Event World Label} {scope : UInt32} {duration : Nat}
    (h : InForce host tr g d e scope duration) (hg : ¬ Grants host x g d)
    (hr : ¬ Revokes host x g d) : InForce host (x::tr) g d e scope duration := by
  obtain ⟨newer,older,rfl,hnewer⟩ := h.latest
  exact { h with latest := ⟨x::newer,older,rfl,List.forall_mem_cons.2 ⟨⟨hg,hr⟩,hnewer⟩⟩ }

theorem next_delegation_kept (hst : next host e.pre e.label=e.post) (hg : ¬ Grants host e g d)
    (hr : ¬ Revokes host e g d) :
    e.post.store (.Delegation g d)=e.pre.store (.Delegation g d) := by
  change (delegations e.post.store).granted g d=(delegations e.pre.store).granted g d
  obtain ⟨inv,c,hl,hx,hpost⟩ | hpost := next_delegations hst
  · rw [hpost]
    cases c with
    | grantDelegation g' d' scope duration =>
      refine Delegations.grant_other _ fun hyp => hg ?_
      obtain ⟨rfl,rfl⟩ := hyp
      exact ⟨scope,duration,inv,hl,hx⟩
    | revokeDelegation revoker g' d' =>
      refine Delegations.revoke_other _ fun hyp => hr ?_
      obtain ⟨rfl,rfl⟩ := hyp
      exact ⟨revoker,inv,hl,hx⟩
    | _ => rfl
  · rw [hpost]

theorem reaches_inForce {start : Ledger} {r : DelegationRecord} (h : Reaches host start tr w)
    (hr : w.store (.Delegation g d)=some r) :
    ∃ e scope duration, InForce host tr g d e scope duration ∧ r=⟨g,d,scope,
      e.pre.ledger.timestamp,satAdd64 e.pre.ledger.timestamp duration⟩ := by
  refine Run.invariant (C := fun _ => True) (I := fun tr w => ∀ r,
    w.store (.Delegation g d)=some r → ∃ e scope duration,
      InForce host tr g d e scope duration ∧ r=⟨g,d,scope,e.pre.ledger.timestamp,
        satAdd64 e.pre.ledger.timestamp duration⟩) ?_ ?_ h (fun _ _ => trivial) r hr
  · intro r hr
    cases hr
  · intro tr w l w' _ ih hst _ r hr
    by_cases hgrant : Grants host ⟨w,l,w'⟩ g d
    · obtain ⟨scope,duration,hs⟩ := hgrant
      have hauth : AuthorisedBy ⟨w,l,w'⟩ g := hs.authorised rfl
      obtain ⟨inv,hl,hx⟩ := hs
      have hpost := congrArg (fun D => D.granted g d) (exec_delegations hx)
      have hstored := (hr.symm.trans hpost).trans (Delegations.grant_self ..)
      obtain ⟨_,hcall⟩ := (discard_ok ..).1 hx
      obtain ⟨hmax,-⟩ := grantDelegation_ok hcall
      exact ⟨⟨w,l,w'⟩,scope,duration,⟨⟨inv,hl,hx⟩,hauth,hmax,[],tr,rfl,by simp⟩,
        Option.some.inj hstored⟩
    · by_cases hrevoke : Revokes host ⟨w,l,w'⟩ g d
      · obtain ⟨revoker,inv,-,hx⟩ := hrevoke
        have hpost := congrArg (fun D => D.granted g d) (exec_delegations hx)
        have hnone := (hr.symm.trans hpost).trans (Delegations.revoke_self ..)
        cases hnone
      · have hkept := next_delegation_kept (e := ⟨w,l,w'⟩) hst hgrant hrevoke
        obtain ⟨e,scope,duration,hforce,heq⟩ := ih r (hkept.symm.trans hr)
        exact ⟨e,scope,duration,hforce.later hgrant hrevoke,heq⟩

end Harpocrates.Registry
