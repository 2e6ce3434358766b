import Harpocrates.Registry.Containment
import Harpocrates.Registry.Delegations
import Harpocrates.Registry.DossierRefinement

namespace Harpocrates.Registry

open Framework

def RegistersProof (e : Event World Label) (p : Bytes32) : Prop :=
  e.pre.store (.Proof p) = none ∧ (e.post.store (.Proof p)).isSome = true

variable {p : Bytes32} {r : ProofRecord} {s s' : Storage} {c : Call} {u : Unit} {a : Address}

/-- Every stored proof was created by one of the calls, and what registration fixed is still
there. -/
theorem reaches_created {host : Host} {start : Ledger} {tr : Trace} {w : World}
    (h : Reaches host start tr w) (hr : w.store (.Proof p)=some r) :
    ∃ tr₁ e tr₂ r₀, tr=tr₂++e::tr₁ ∧ e.pre.store (.Proof p)=none ∧
      e.post.store (.Proof p)=some r₀ ∧ r.registration=r₀.registration := by
  obtain ⟨tr₁,e,tr₂,rfl,hpre,hpost⟩ := Run.begins
    (P := fun w : World => (w.store (.Proof p)).isSome=true) h (by simp [Store.empty])
    (by simp [hr])
  obtain ⟨r₀,hr₀⟩ := Option.isSome_iff_exists.1 hpost
  refine ⟨tr₁,e,tr₂,r₀,rfl,by simpa using hpre,hr₀,?_⟩
  obtain ⟨hrun,hst,hlater⟩ := h.split
  have hcreated : Reaches host start (e::tr₁) e.post := hrun.snoc hst
  obtain ⟨o,ho⟩ := reaches_dossier hcreated p
  obtain ⟨d,rfl,hd⟩ := ho.tracks.some_of_record hr₀
  obtain ⟨o',ho',hgrows⟩ := proceeds_dossier hlater ho
  obtain ⟨d',rfl,hd'⟩ := ho'.tracks.some_of_record hr
  obtain ⟨d'',heq,hgrow⟩ := hgrows d rfl
  cases heq
  rw [← hd,← hd']
  exact hgrow.registration

theorem SavesNew.created {env : Env} {subject actor : Address} {q v : Bytes32}
    {record : Storage → ProofRecord} (h : SavesNew env subject actor q v record s s')
    (hp : s (.Proof p)=none) (hr : s' (.Proof p)=some r) : p=q ∧ ∃ t, r=record t := by
  obtain ⟨-,-,t,r',hquota,hsave⟩ := h
  have hpost := (saveRecord_ok hsave).2 (.Proof p) (by simp)
  by_cases hpq : p=q
  · subst hpq
    refine ⟨rfl,t,Option.some.inj (hr.symm.trans (hpost.trans ?_))⟩
    simp
  · have hk : DataKey.Proof p≠.Proof q := by simpa using hpq
    have hwrites : Tx.Writes (In [.IssuerQuotaUsage]) (chargeIssuerQuota env subject) :=
      chargeIssuerQuota_writes env subject (by simp)
    have hframe : t (.Proof p)=s (.Proof p) := hwrites _ _ _ hquota _ (by simp)
    rw [hpost,Store.set_of_ne _ _ (by simp),Store.set_of_ne _ _ hk,hframe,hp] at hr
    cases hr

theorem exec_new_tier {env : Env} (h : exec env c s=.ok (u,s')) (hp : s (.Proof p)=none)
    (hr : s' (.Proof p)=some r) : c.tier=some r.tier := by
  rcases exec_record_tier h hr with ⟨r₀,hr₀,-⟩ | ht
  · rw [hp] at hr₀
    cases hr₀
  · exact ht

/-- The delegation that a delegated registration has found, and the time the record ends. -/
def UsesDelegation (env : Env) (a d : Address) (bit : UInt32) (s : Storage) (r : ProofRecord) :
    Prop :=
  ∃ del t, s (.Delegation a d) = some del ∧ env.timestamp < del.expiresAt ∧
    del.scope &&& bit = bit ∧ r.expiresAt = boundedDelegatedExpiry env del.expiresAt t

theorem source_created {env : Env} (h : exec env c s=.ok (u,s')) (hp : s (.Proof p)=none)
    (hr : s' (.Proof p)=some r) (ht : r.tier=TIER_CONSISTENT_SOURCE) (ha : r.source=some a) :
    c.caller=some a ∨
      ∃ d, c.caller=some d ∧ UsesDelegation env a d DELEGATION_SCOPE_REGISTER_SOURCE s r := by
  have htier := exec_new_tier h hp hr
  rw [ht] at htier
  cases c with
  | registerSource a' v m q =>
    obtain ⟨_,h⟩ := (discard_ok ..).1 h
    obtain ⟨-,hsaves⟩ := registerSource_ok h
    obtain ⟨-,t,rfl⟩ := hsaves.created hp hr
    exact .inl ha
  | registerSourceDelegated d a' v m q =>
    obtain ⟨_,h⟩ := (discard_ok ..).1 h
    obtain ⟨-,del,hdel,htime,hscope,hsaves⟩ := registerSourceDelegated_ok h
    obtain ⟨-,t,rfl⟩ := hsaves.created hp hr
    obtain rfl : a'=a := Option.some.inj ha
    exact .inr ⟨d,rfl,del,t,hdel,htime,hscope,rfl⟩
  | registerSourceBatchRoot a' root count m =>
    have hframe : s' (.Proof p)=s (.Proof p) := exec_footprint h (notMem_of_elem rfl)
    rw [hframe,hp] at hr
    cases hr
  | _ => exact absurd htier (of_decide_eq_false rfl)

theorem seal_created {env : Env} (h : exec env c s=.ok (u,s')) (hp : s (.Proof p)=none)
    (hr : s' (.Proof p)=some r) (ht : r.tier=TIER_PUBLIC_SEAL) (ha : r.issuer=some a) :
    hasActiveIssuer s a=true ∧ (c.caller=some a ∨
      ∃ d, c.caller=some d ∧ UsesDelegation env a d DELEGATION_SCOPE_REGISTER_SEAL s r) := by
  have htier := exec_new_tier h hp hr
  rw [ht] at htier
  cases c with
  | registerSeal a' v m q =>
    obtain ⟨_,h⟩ := (discard_ok ..).1 h
    obtain ⟨-,-,hactive,hsaves⟩ := registerSeal_ok h
    obtain ⟨-,t,rfl⟩ := hsaves.created hp hr
    obtain rfl : a'=a := Option.some.inj ha
    exact ⟨hactive,.inl rfl⟩
  | registerSealDelegated d a' v m q =>
    obtain ⟨_,h⟩ := (discard_ok ..).1 h
    obtain ⟨-,del,hdel,htime,hscope,hactive,hsaves⟩ := registerSealDelegated_ok h
    obtain ⟨-,t,rfl⟩ := hsaves.created hp hr
    obtain rfl : a'=a := Option.some.inj ha
    exact ⟨hactive,.inr ⟨d,rfl,del,t,hdel,htime,hscope,rfl⟩⟩
  | _ => exact absurd htier (of_decide_eq_false rfl)

theorem boundedDelegatedExpiry_bounds {env : Env} {expiresAt : Nat} (s : Storage)
    (hnow : env.timestamp<expiresAt) (hmax : expiresAt≤u64Max) :
    env.timestamp<boundedDelegatedExpiry env expiresAt s ∧
      boundedDelegatedExpiry env expiresAt s≤expiresAt := by
  have ttl : computeExpiresAt env s≠0 → env.timestamp<computeExpiresAt env s := by
    intro hne
    have apart : ∀ now ttl max : Nat, ttl≠0 → now < max → now < min (now+ttl) max := by
      intro now ttl max httl hlt
      omega
    simp only [computeExpiresAt] at hne ⊢
    split at hne
    · exact absurd rfl hne
    · rename_i httl
      rw [if_neg httl]
      exact apart _ _ _ httl (hnow.trans_le hmax)
  by_cases hzero : computeExpiresAt env s=0
  · simp only [boundedDelegatedExpiry,if_pos hzero]
    exact ⟨hnow,le_refl _⟩
  · simp only [boundedDelegatedExpiry,if_neg hzero]
    exact ⟨lt_min (ttl hzero) hnow,Nat.min_le_right _ _⟩

/-- Who has authorised the registration of a proof attributed to `a` that ends at `expiresAt`:
the address itself, or a delegate under a grant that is in force. -/
def AuthorisedFor (host : Host) (tr : Trace) (e : Event World Label) (a : Address)
    (bit : UInt32) (expiresAt : Nat) : Prop :=
  AuthorisedBy e a ∨ ∃ d g scope duration, AuthorisedBy e d ∧
    InForce host tr a d g scope duration ∧ scope &&& bit = bit ∧
    e.pre.ledger.timestamp < g.pre.ledger.timestamp+duration ∧
    e.pre.ledger.timestamp < expiresAt ∧
    expiresAt ≤ satAdd64 g.pre.ledger.timestamp duration

theorem UsesDelegation.authorised {host : Host} {start : Ledger} {tr : Trace}
    {e : Event World Label} {inv : Invocation} {d : Address} {bit : UInt32}
    (h : Reaches host start tr e.pre) (hd : AuthorisedBy e d)
    (hu : UsesDelegation (e.pre.env host inv) a d bit e.pre.store r) :
    AuthorisedFor host tr e a bit r.expiresAt := by
  obtain ⟨del,t,hdel,htime,hscope,hexpires⟩ := hu
  obtain ⟨g,scope,duration,hforce,rfl⟩ := reaches_inForce h hdel
  have hbounds := boundedDelegatedExpiry_bounds t htime (Nat.min_le_right _ _)
  rw [← hexpires] at hbounds
  exact .inr ⟨d,g,scope,duration,hd,hforce,hscope,htime.trans_le (Nat.min_le_left _ _),
    hbounds.1,hbounds.2⟩

/-- No proof is attributed to a source or an issuer without its authority. -/
theorem attribution_authorised {host : Host} {start : Ledger} {tr : Trace} {w : World}
    {p : Bytes32} {r : ProofRecord} {a : Address} (h : Reaches host start tr w)
    (hr : w.store (.Proof p) = some r) :
    (r.tier = TIER_CONSISTENT_SOURCE → r.source = some a →
      ∃ tr₁ e tr₂, tr = tr₂++e::tr₁ ∧ RegistersProof e p ∧
        AuthorisedFor host tr₁ e a DELEGATION_SCOPE_REGISTER_SOURCE r.expiresAt) ∧
    (r.tier = TIER_PUBLIC_SEAL → r.issuer = some a →
      ∃ tr₁ e tr₂, tr = tr₂++e::tr₁ ∧ RegistersProof e p ∧
        hasActiveIssuer e.pre.store a = true ∧
        AuthorisedFor host tr₁ e a DELEGATION_SCOPE_REGISTER_SEAL r.expiresAt) := by
  obtain ⟨tr₁,e,tr₂,r₀,rfl,hpre,hpost,hreg⟩ := reaches_created h hr
  obtain ⟨hrun,hst,-⟩ := h.split
  have hcreates : RegistersProof e p := ⟨hpre,by simp [hpost]⟩
  have htier : r.tier=r₀.tier := congrArg (fun x => x.2.1) hreg
  have hexpires : r.expiresAt=r₀.expiresAt := congrArg (fun x => x.2.2.2.1) hreg
  have hsource : r.source=r₀.source := congrArg (fun x => x.2.2.2.2.1) hreg
  have hissuer : r.issuer=r₀.issuer := congrArg (fun x => x.2.2.2.2.2.1) hreg
  obtain ⟨inv,c,hl,-,hx⟩ | hk := next_store hst
  · have authorised : ∀ d, c.caller=some d → AuthorisedBy e d :=
      fun d hd => Succeeds.authorised ⟨inv,hl,hx⟩ hd
    rw [htier,hexpires,hsource,hissuer]
    constructor
    · intro ht ha
      refine ⟨tr₁,e,tr₂,rfl,hcreates,?_⟩
      rcases source_created hx hpre hpost ht ha with hc | ⟨d,hc,hu⟩
      · exact .inl (authorised a hc)
      · exact hu.authorised hrun (authorised d hc)
    · intro ht ha
      obtain ⟨hactive,hcall⟩ := seal_created hx hpre hpost ht ha
      refine ⟨tr₁,e,tr₂,rfl,hcreates,hactive,?_⟩
      rcases hcall with hc | ⟨d,hc,hu⟩
      · exact .inl (authorised a hc)
      · exact hu.authorised hrun (authorised d hc)
  · rw [hk _ (by simp),hpre] at hpost
    cases hpost

/-- Source 2 lets delegate 5 register for an hour, and the delegate does. -/
def delegatedSource : List Label :=
  [.call ⟨1⟩ (.init ⟨1⟩),
    .call ⟨2⟩ (.grantDelegation ⟨2⟩ ⟨5⟩ 1 3600),
    .call ⟨5⟩ (.registerSourceDelegated ⟨5⟩ ⟨2⟩ (fill 1) zero32 (fill 1))]

theorem attribution_authorised_delegated :
    ∃ r, (deploy delegatedSource).2.store (.Proof (fill 1)) = some r ∧
      ∃ tr₁ e tr₂, (deploy delegatedSource).1 = tr₂++e::tr₁ ∧ RegistersProof e (fill 1) ∧
        AuthorisedFor stellarHost tr₁ e ⟨2⟩ DELEGATION_SCOPE_REGISTER_SOURCE r.expiresAt := by
  have stored : ((deploy delegatedSource).2.store (.Proof (fill 1))).any (fun r =>
      decide (r.tier=TIER_CONSISTENT_SOURCE) && decide (r.source=some ⟨2⟩))=true := by
    decide +kernel
  obtain ⟨r,hr,hrecord⟩ := (Option.any_eq_true ..).1 stored
  rw [Bool.and_eq_true,decide_eq_true_eq,decide_eq_true_eq] at hrecord
  exact ⟨r,hr,(attribution_authorised (deploy_reaches delegatedSource) hr).1 hrecord.1 hrecord.2⟩

end Harpocrates.Registry
