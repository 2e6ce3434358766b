import Harpocrates.Framework.Locality
import Harpocrates.Registry.Refinement
import Harpocrates.Registry.TimelockSafety

namespace Harpocrates.Registry

open Framework Tx List

namespace CredentialRootRecord

def Withdrawn (r : CredentialRootRecord) (now : Nat) : Prop :=
  r.status = STATUS_REVOKED ∨ r.status = STATUS_EXPIRED ∨ 0 < r.expiresAt ∧ r.expiresAt ≤ now

def revoked (r : CredentialRootRecord) : CredentialRootRecord :=
  { r with status := STATUS_REVOKED }

def expired (r : CredentialRootRecord) (now : Nat) : CredentialRootRecord :=
  { r with status := STATUS_EXPIRED, expiresAt := now }

/-- What can happen to the record of a root, other than that the root is added. -/
inductive Step (now : Nat) (o : Option CredentialRootRecord) : Option CredentialRootRecord → Prop
  | keep : Step now o o
  | revoke (r : CredentialRootRecord) (record : o = some r) : Step now o (some r.revoked)
  | expire (r : CredentialRootRecord) (record : o = some r) : Step now o (some (r.expired now))

variable {r : CredentialRootRecord} {env : Env}

theorem Withdrawn.later {now now' : Nat} (h : r.Withdrawn now) (hle : now≤now') :
    r.Withdrawn now' := by
  rcases h with h | h | ⟨h1,h2⟩
  · exact .inl h
  · exact .inr (.inl h)
  · exact .inr (.inr ⟨h1,h2.trans hle⟩)

theorem Step.withdrawn {now : Nat} {o o' : Option CredentialRootRecord} (h : Step now o o')
    (ho : ∃ r, o=some r ∧ r.Withdrawn now) : ∃ r, o'=some r ∧ r.Withdrawn now := by
  cases h with
  | keep => exact ho
  | revoke r record => exact ⟨_,rfl,.inl rfl⟩
  | expire r record => exact ⟨_,rfl,.inr (.inl rfl)⟩

theorem Step.stored_iff {now : Nat} {o o' : Option CredentialRootRecord} (h : Step now o o') :
    (∃ r, o'=some r) ↔ ∃ r, o=some r := by
  cases h with
  | keep => exact .rfl
  | revoke r record => simp [record]
  | expire r record => simp [record]

end CredentialRootRecord

variable {s s' : Storage} {now : Nat} {u : Unit} {admin : Address} {c : Call} {host : Host}
  {w w' : World} {tr : Trace}

theorem getCredentialRootRecordOpt_congr {root : Bytes32}
    (h1 : s' (.CredentialRootV2 root)=s (.CredentialRootV2 root))
    (h2 : s' (.CredentialRoot root)=s (.CredentialRoot root)) :
    getCredentialRootRecordOpt s' root=getCredentialRootRecordOpt s root := by
  simp only [getCredentialRootRecordOpt,h1,h2]

theorem getCredentialRootRecordOpt_set (s : Storage) (root root' : Bytes32)
    (r : CredentialRootRecord) :
    getCredentialRootRecordOpt (Store.set s (.CredentialRootV2 root) r) root' =
      if root'=root then some r else getCredentialRootRecordOpt s root' := by
  by_cases h : root'=root
  · subst h
    simp [getCredentialRootRecordOpt]
  · simp [getCredentialRootRecordOpt,h]

theorem getCredentialRootRecordOpt_proposal (s : Storage) (id : Nat) (p : TimelockProposal)
    (root : Bytes32) :
    getCredentialRootRecordOpt (Store.set s (.Proposal id) p) root =
      getCredentialRootRecordOpt s root := by
  simp [getCredentialRootRecordOpt]

theorem root_kept {root : Bytes32} (h1 : s' (.CredentialRootV2 root)=s (.CredentialRootV2 root))
    (h2 : s' (.CredentialRoot root)=s (.CredentialRoot root)) :
    CredentialRootRecord.Step now (getCredentialRootRecordOpt s root)
      (getCredentialRootRecordOpt s' root) := by
  rw [getCredentialRootRecordOpt_congr h1 h2]
  exact .keep

/-- A record is revoked or expired under the current key, wherever it was found. -/
theorem root_changed {root : Bytes32} {r' : CredentialRootRecord}
    (h : CredentialRootRecord.Step now (getCredentialRootRecordOpt s root) (some r'))
    (root' : Bytes32) :
    CredentialRootRecord.Step now (getCredentialRootRecordOpt s root')
      (getCredentialRootRecordOpt (Store.set s (.CredentialRootV2 root) r') root') := by
  rw [getCredentialRootRecordOpt_set]
  split
  · rename_i heq
    rw [heq]
    exact h
  · exact .keep

theorem revokeCredentialRoot_ok {root : Bytes32}
    (h : revokeCredentialRoot env admin root s=.ok (u,s')) :
    ∃ r, getCredentialRootRecordOpt s root=some r ∧
      Store.set s (.CredentialRootV2 root) r.revoked=s' := by
  simp only [revokeCredentialRoot,bind_ok,requireAdmin_ok,getCredentialRootRecord_ok,
    set_ok] at h
  obtain ⟨_,_,⟨-,-,rfl⟩,r,_,⟨hr,rfl⟩,rfl⟩ := h
  exact ⟨r,hr,rfl⟩

theorem expireCredentialRoot_ok {root : Bytes32}
    (h : expireCredentialRoot env admin root s=.ok (u,s')) :
    ∃ r, getCredentialRootRecordOpt s root=some r ∧
      Store.set s (.CredentialRootV2 root) (r.expired env.timestamp)=s' := by
  simp only [expireCredentialRoot,bind_ok,requireAdmin_ok,getCredentialRootRecord_ok,
    set_ok] at h
  obtain ⟨_,_,⟨-,-,rfl⟩,r,_,⟨hr,rfl⟩,rfl⟩ := h
  exact ⟨r,hr,rfl⟩

def CredentialRootRecord.added (metadataHash : Bytes32) (now : Nat) : CredentialRootRecord :=
  { metadataHash, status := STATUS_REGISTERED, issuedAt := now, expiresAt := 0 }

theorem addCredentialRoot_ok {root m : Bytes32}
    (h : addCredentialRoot env admin root m s=.ok (u,s')) (root' : Bytes32) :
    getCredentialRootRecordOpt s' root' =
      if root'=root then some (.added m env.timestamp)
      else getCredentialRootRecordOpt s root' := by
  simp only [addCredentialRoot,bind_ok,requireAdmin_ok,set_ok,pure_ok] at h
  obtain ⟨_,_,⟨-,-,rfl⟩,_,_,rfl,_,_,hindex,-,rfl⟩ := h
  have kept := indexCredentialRoot_writes root (List.Subset.refl _) _ _ _ hindex
  rw [getCredentialRootRecordOpt_congr (kept _ (by simp)) (kept _ (by simp)),
    getCredentialRootRecordOpt_set]
  rfl

theorem TimelockEffect.root {p : TimelockProposal} (h : TimelockEffect env p s s')
    (root : Bytes32) : CredentialRootRecord.Step env.timestamp (getCredentialRootRecordOpt s root)
      (getCredentialRootRecordOpt s' root) := by
  cases h with
  | revokeRoot action r record => exact root_changed (.revoke r record) root
  | expireRoot action r record => exact root_changed (.expire r record) root
  | _ => exact root_kept (by simp [deactivated]) (by simp [deactivated])

/-- Only adding a root makes a record of it other than by revoking or expiring the one there. -/
theorem exec_root (h : exec env c s=.ok (u,s')) (root : Bytes32) :
    (∃ admin m, c=.addCredentialRoot admin root m ∧
      getCredentialRootRecordOpt s' root=some (.added m env.timestamp)) ∨
    CredentialRootRecord.Step env.timestamp (getCredentialRootRecordOpt s root)
      (getCredentialRootRecordOpt s' root) := by
  cases c with
  | addCredentialRoot admin root' m =>
    have hadd := addCredentialRoot_ok h root
    by_cases hroot : root=root'
    · subst hroot
      exact .inl ⟨admin,m,rfl,by simpa using hadd⟩
    · rw [if_neg hroot] at hadd
      rw [hadd]
      exact .inr .keep
  | revokeCredentialRoot admin root' =>
    obtain ⟨r,hr,rfl⟩ := revokeCredentialRoot_ok h
    exact .inr (root_changed (.revoke r hr) root)
  | expireCredentialRoot admin root' =>
    obtain ⟨r,hr,rfl⟩ := expireCredentialRoot_ok h
    exact .inr (root_changed (.expire r hr) root)
  | executeTimelockedProposal caller id =>
    obtain ⟨p,hp⟩ := executeTimelockedProposal_ok h
    have hstep := hp.effect.root root
    rw [getCredentialRootRecordOpt_proposal] at hstep
    exact .inr hstep
  | emergencyExecuteTimelock admin id =>
    obtain ⟨p,hp⟩ := emergencyExecuteTimelock_ok h
    have hstep := hp.effect.root root
    rw [getCredentialRootRecordOpt_proposal] at hstep
    exact .inr hstep
  | _ =>
    exact .inr (root_kept (exec_footprint h (notMem_of_elem rfl))
      (exec_footprint h (notMem_of_elem rfl)))

def RootAccepted (now : Nat) (root : Bytes32) (s : Storage) : Prop :=
  ∃ r, getCredentialRootRecordOpt s root = some r ∧ ¬ r.Withdrawn now

theorem ChecksRoot.accepted {root : Bytes32} (h : ChecksRoot env root s) :
    RootAccepted env.timestamp root s := by
  obtain ⟨⟨u,s'⟩,h⟩ := h
  simp only [requireActiveCredentialRoot,bind_ok,getCredentialRootRecord_ok,failIf_ok] at h
  obtain ⟨r,_,⟨hr,rfl⟩,_,_,⟨hrevoked,rfl⟩,hexpired,rfl⟩ := h
  refine ⟨r,hr,fun hw => ?_⟩
  rcases hw with hw | hw | ⟨h1,h2⟩
  · simp [hw] at hrevoked
  · simp [hw] at hexpired
  · simp [h1,h2] at hexpired

/-- The credential roots a call presents. -/
def Call.credentialRoots : Call → List Bytes32
  | .registerAnonymous _ _ _ _ root _ => [root]
  | .registerAnonymousVerified _ _ _ publicInputs _ => [field publicInputs 64]
  | .registerBatchVerified _ _ publicInputs _ videoHashes =>
    (List.range videoHashes.length).map fun i => field publicInputs (32+i*128+64)
  | .checkNonRevocation publicInputs _ => [field publicInputs 96]
  | .verifySelectiveDisclosure publicInputs _ => [field publicInputs 96]
  | _ => []

theorem checkBatchItem_root {ctx : VerifierContext} {root : Bytes32} {item : BatchItem}
    {t : Storage} (h : checkBatchItem ctx root item s=.ok ((),t)) :
    s=t ∧ item.element.credentialRoot=root := by
  refine ⟨funext fun k => (checkBatchItem_writes (fun _ => False) ctx root item s () t h k
    not_false).symm,?_⟩
  obtain ⟨_,_,hroot,-⟩ := (bind_ok ..).1 h
  simpa using ((failIf_ok ..).1 hroot).1

/-- Every element of a batch presents the root that is checked, that of the first. -/
theorem registerBatchVerified_root {b m : Bytes32} {publicInputs proof : Bytes}
    {videoHashes : List Bytes32} {x : List ProofRecord × Storage}
    (h : registerBatchVerified env b m publicInputs proof videoHashes s=.ok x) {i : Nat}
    (hi : i<videoHashes.length) : ChecksRoot env (field publicInputs (32+i*128+64)) s := by
  obtain ⟨_,s'⟩ := x
  simp only [registerBatchVerified,bind_ok,VerifierContext.load_ok,failIf_ok,lift_ok,
    unwrap_ok,gets_ok] at h
  obtain ⟨_,_,⟨-,rfl⟩,_,_,⟨-,rfl⟩,parsed,_,⟨hparsed,rfl⟩,_,_,⟨-,rfl⟩,_,_,⟨-,rfl⟩,h⟩ := h
  obtain ⟨_,_,hproof,_,_,hroot,_,_,⟨-,rfl⟩,_,_,hcheck,-⟩ := h
  obtain ⟨rfl,-⟩ := VerifierContext.requireVerifiedProof_unchanged hproof
  obtain ⟨-,hsame⟩ := forEach_check (fun item t => checkBatchItem_root) hcheck
  have hfirst : (parsed.elements i).credentialRoot=(parsed.elements 0).credentialRoot := by
    refine hsame ⟨deriveElementProofId b i,videoHashes[i],parsed.elements i⟩ ?_
    simp only [batchItems,mem_mapIdx]
    exact ⟨i,hi,rfl⟩
  have hfield : field publicInputs (32+i*128+64)=(parsed.elements 0).credentialRoot := by
    rw [← hfirst,parseAggregatedPublicInputs_ok hparsed hi]
  rw [hfield]
  exact ⟨_,hroot⟩

/-- A call goes through only if every root it presents is accepted. -/
theorem exec_accepts (h : exec env c s=.ok (u,s')) {root : Bytes32}
    (hroot : root∈c.credentialRoots) : RootAccepted env.timestamp root s := by
  refine ChecksRoot.accepted ?_
  cases c with
  | registerAnonymous v m p n root' proof =>
    obtain rfl := mem_singleton.1 hroot
    obtain ⟨_,h⟩ := (discard_ok ..).1 h
    obtain ⟨-,-,-,-,-,hchecks,-⟩ := registerAnonymous_ok h
    exact hchecks
  | registerAnonymousVerified v m p publicInputs proof =>
    obtain rfl := mem_singleton.1 hroot
    obtain ⟨_,h⟩ := (discard_ok ..).1 h
    obtain ⟨-,-,-,-,-,hchecks,-⟩ := registerAnonymousVerified_ok h
    exact hchecks
  | registerBatchVerified b m publicInputs proof videoHashes =>
    obtain ⟨i,hi,rfl⟩ := mem_map.1 hroot
    obtain ⟨_,h⟩ := (discard_ok ..).1 h
    exact registerBatchVerified_root h (mem_range.1 hi)
  | checkNonRevocation publicInputs proof =>
    obtain rfl := mem_singleton.1 hroot
    obtain ⟨-,-,hchecks,-⟩ := checkNonRevocation_ok h
    exact hchecks
  | verifySelectiveDisclosure publicInputs proof =>
    obtain rfl := mem_singleton.1 hroot
    obtain ⟨-,-,hchecks,-⟩ := verifySelectiveDisclosure_ok h
    exact hchecks
  | _ => cases hroot

def AddsRoot (host : Host) (e : Event World Label) (root : Bytes32) : Prop :=
  ∃ admin m, Succeeds host e (.addCredentialRoot admin root m)

/-- The step revokes or expires a root: directly, or by carrying out a proposal to do so. -/
def Withdraws (host : Host) (e : Event World Label) (root : Bytes32) : Prop :=
  (∃ admin, Succeeds host e (.revokeCredentialRoot admin root)) ∨
  (∃ admin, Succeeds host e (.expireCredentialRoot admin root)) ∨
  ∃ id p, Dispatches host e id ∧ e.pre.store (.Proposal id) = some p ∧
    (p.action = 4 ∨ p.action = 5) ∧ p.payload = root

def RootWithdrawn (w : World) (root : Bytes32) : Prop :=
  ∃ r, getCredentialRootRecordOpt w.store root = some r ∧ r.Withdrawn w.ledger.timestamp

theorem next_root {l : Label} (hst : next host w l=w') (root : Bytes32) :
    (AddsRoot host ⟨w,l,w'⟩ root ∧
      ∃ m, getCredentialRootRecordOpt w'.store root=some (.added m w.ledger.timestamp)) ∨
    CredentialRootRecord.Step w.ledger.timestamp (getCredentialRootRecordOpt w.store root)
      (getCredentialRootRecordOpt w'.store root) := by
  obtain ⟨inv,c,rfl,-,hx⟩ | hk := next_store hst
  · obtain ⟨admin,m,rfl,hadd⟩ | hstep := exec_root hx root
    · exact .inl ⟨⟨admin,m,inv,rfl,hx⟩,m,hadd⟩
    · exact .inr hstep
  · exact .inr (root_kept (hk _ (by simp)) (hk _ (by simp)))

theorem next_rootWithdrawn {l : Label} {root : Bytes32} (hst : next host w l=w')
    (hadd : ¬ AddsRoot host ⟨w,l,w'⟩ root) (h : RootWithdrawn w root) : RootWithdrawn w' root := by
  obtain ⟨hadds,-⟩ | hstep := next_root hst root
  · exact absurd hadds hadd
  · obtain ⟨r,hr,hwithdrawn⟩ := hstep.withdrawn h
    exact ⟨r,hr,hwithdrawn.later (next_ledger hst)⟩

theorem Withdraws.withdrawn {e : Event World Label} {root : Bytes32} (h : Withdraws host e root)
    (hst : next host e.pre e.label=e.post) : RootWithdrawn e.post root := by
  suffices hw : ∃ r, getCredentialRootRecordOpt e.post.store root=some r ∧
      r.Withdrawn e.pre.ledger.timestamp by
    obtain ⟨r,hr,hw⟩ := hw
    exact ⟨r,hr,hw.later (next_ledger hst)⟩
  have effect : ∀ {env : Env} {p : TimelockProposal} {s : Storage},
      (p.action=4 ∨ p.action=5) → p.payload=root → TimelockEffect env p s e.post.store →
      ∃ r, getCredentialRootRecordOpt e.post.store root=some r ∧
        r.Withdrawn e.pre.ledger.timestamp := by
    intro env p s haction hroot heffect
    subst hroot
    generalize e.post.store=s' at heffect
    cases heffect with
    | revokeRoot action r record =>
      exact ⟨r.revoked,by simp [getCredentialRootRecordOpt_set,CredentialRootRecord.revoked],
        .inl rfl⟩
    | expireRoot action r record =>
      exact ⟨r.expired env.timestamp,
        by simp [getCredentialRootRecordOpt_set,CredentialRootRecord.expired],.inr (.inl rfl)⟩
    | _ => simp_all [ProposalAction.UpgradeWasm]
  rcases h with ⟨admin,inv,-,hx⟩ | ⟨admin,inv,-,hx⟩ | ⟨id,p,hdispatch,hp,haction,hroot⟩
  · obtain ⟨r,-,hpost⟩ := revokeCredentialRoot_ok hx
    exact ⟨r.revoked,by simp [← hpost,getCredentialRootRecordOpt_set],.inl rfl⟩
  · obtain ⟨r,-,hpost⟩ := expireCredentialRoot_ok hx
    exact ⟨_,by rw [← hpost,getCredentialRootRecordOpt_set,if_pos rfl],.inr (.inl rfl)⟩
  · rcases hdispatch with ⟨caller,inv,-,hx⟩ | ⟨admin,inv,-,hx⟩
    · obtain ⟨q,hq⟩ := executeTimelockedProposal_ok hx
      cases hp.symm.trans hq.stored
      exact effect haction hroot hq.effect
    · obtain ⟨q,hq⟩ := emergencyExecuteTimelock_ok hx
      cases hp.symm.trans hq.stored
      exact effect haction hroot hq.effect

theorem RootWithdrawn.kept {root : Bytes32} (hw : RootWithdrawn w root)
    (h : Proceeds host w tr w') (hadd : ∀ x∈tr, ¬ AddsRoot host x root) : RootWithdrawn w' root :=
  (Run.throughout (I := fun w => RootWithdrawn w root) hw
    (fun _ _ _ hw hst hno => next_rootWithdrawn hst hno hw) h hadd).2

theorem RootWithdrawn.rejects {f : Event World Label} {root : Bytes32}
    (h : RootWithdrawn f.pre root) (hroot : root∈c.credentialRoots) : ¬ Succeeds host f c := by
  intro hsucceeds
  obtain ⟨inv,-,hx⟩ := hsucceeds
  obtain ⟨r,hr,haccepted⟩ := exec_accepts hx hroot
  obtain ⟨r',hr',hwithdrawn⟩ := h
  cases hr.symm.trans hr'
  exact haccepted hwithdrawn

/-- From any state on, once a root is revoked or expired, or its expiry time is reached, no call
that presents it goes through until the root is added again. -/
theorem withdrawn_root_rejected {host : Host} {w w' : World} {tr : Trace}
    (h : Proceeds host w tr w') (root : Bytes32) :
    (∀ tr₁ e tr₂ f tr₃ c, tr = tr₃++f::(tr₂++e::tr₁) → Withdraws host e root →
      (∀ x ∈ tr₂, ¬ AddsRoot host x root) → root ∈ c.credentialRoots → ¬ Succeeds host f c) ∧
    ∀ tr₂ f tr₃ c r, tr = tr₃++f::tr₂ → getCredentialRootRecordOpt w.store root = some r →
      0 < r.expiresAt → r.expiresAt ≤ w.ledger.timestamp →
      (∀ x ∈ tr₂, ¬ AddsRoot host x root) → root ∈ c.credentialRoots → ¬ Succeeds host f c := by
  refine ⟨?_,?_⟩
  · intro tr₁ e tr₂ f tr₃ c htr hwithdraws hadd hroot
    subst htr
    obtain ⟨hbefore,-,-⟩ := Run.split h
    obtain ⟨-,hst,hbetween⟩ := Run.split hbefore
    exact ((hwithdraws.withdrawn hst).kept hbetween hadd).rejects hroot
  · intro tr₂ f tr₃ c r htr hr hpos hreached hadd hroot
    subst htr
    obtain ⟨hbefore,-,-⟩ := Run.split h
    have hlapsed : RootWithdrawn w root := ⟨r,hr,.inr (.inr ⟨hpos,hreached⟩)⟩
    exact (hlapsed.kept hbefore hadd).rejects hroot

def legacyRegistry : World :=
  (play stellarHost ⟨genesis,Store.set Store.empty (.CredentialRoot (fill 7)) ⟨fill 1,true,5⟩⟩
    [.call ⟨1⟩ (.init ⟨1⟩),.call ⟨1⟩ (.setVerifier ⟨1⟩ ⟨2⟩)]).2

def legacyWitness : Call := .registerAnonymous (fill 3) (fill 1) (fill 4) (fill 5) (fill 7) [1]

def legacyRevoked : Event World Label :=
  legacyRegistry.event stellarHost (.call ⟨1⟩ (.revokeCredentialRoot ⟨1⟩ (fill 7)))

theorem withdrawn_root_rejected_legacy :
    Succeeds stellarHost (legacyRegistry.event stellarHost (.call ⟨1⟩ legacyWitness))
      legacyWitness ∧
    ¬ Succeeds stellarHost (legacyRevoked.post.event stellarHost (.call ⟨1⟩ legacyWitness))
      legacyWitness := by
  have run : Proceeds stellarHost legacyRegistry
      [legacyRevoked.post.event stellarHost (.call ⟨1⟩ legacyWitness),legacyRevoked]
      (legacyRevoked.post.event stellarHost (.call ⟨1⟩ legacyWitness)).post :=
    (Run.nil.snoc rfl).snoc rfl
  have revoked : Withdraws stellarHost legacyRevoked (fill 7) :=
    .inl ⟨⟨1⟩,succeeds_event (by decide +kernel)⟩
  obtain ⟨hrejected,-⟩ := withdrawn_root_rejected run (fill 7)
  exact ⟨succeeds_event (by decide +kernel),
    hrejected [] legacyRevoked [] _ [] legacyWitness rfl revoked (by simp)
      (by simp [legacyWitness,Call.credentialRoots])⟩

theorem requireActiveCredentialRoot_none {root : Bytes32}
    (h : getCredentialRootRecordOpt s root=none) :
    requireActiveCredentialRoot env root s=.error (.error .UnknownCredentialRoot) := by
  have hget : getCredentialRootRecord root s=.error (.error .UnknownCredentialRoot) := by
    simp [getCredentialRootRecord,bind_apply,gets,unwrap,h,fail]
  exact bind_of_error hget

/-- What enforcement answers for a stored record: a revocation counts before an expiry. -/
theorem requireActiveCredentialRoot_some {root : Bytes32}
    (h : getCredentialRootRecordOpt s root=some r) : requireActiveCredentialRoot env root s =
      if r.status=STATUS_REVOKED then .error (.error .RevokedCredentialRoot)
      else if r.status=STATUS_EXPIRED ∨ 0<r.expiresAt ∧ r.expiresAt≤env.timestamp then
        .error (.error .ExpiredCredentialRoot)
      else .ok ((),s) := by
  have hget : getCredentialRootRecord root s=.ok (r,s) :=
    (getCredentialRootRecord_ok ..).2 ⟨h,rfl⟩
  rw [requireActiveCredentialRoot,bind_of_ok hget,failIf_bind_apply]
  simp [failIf_apply]

/-- In a run from empty storage the legacy key of a root is never written, and the record under
the current key has one of three statuses. -/
structure RootKept (s : Storage) (root : Bytes32) : Prop where
  legacy : s (.CredentialRoot root) = none
  status : ∀ r, getCredentialRootRecordOpt s root = some r →
    r.status = STATUS_REGISTERED ∨ r.status = STATUS_REVOKED ∨ r.status = STATUS_EXPIRED

theorem exec_legacy (h : exec env c s=.ok (u,s')) (root : Bytes32) :
    s' (.CredentialRoot root)=s (.CredentialRoot root) := by
  cases c <;> exact exec_footprint h (notMem_of_elem rfl)

theorem reaches_rootKept {start : Ledger} (h : Reaches host start tr w) (root : Bytes32) :
    RootKept w.store root := by
  refine Run.state_invariant (I := fun w : World => RootKept w.store root) ?_ ?_ h
  · refine ⟨rfl,fun r hr => ?_⟩
    cases hr
  · intro w l w' hw hst
    refine ⟨?_,fun r hr => ?_⟩
    · obtain ⟨inv,c,-,-,hx⟩ | hk := next_store hst
      · exact (exec_legacy hx root).trans hw.legacy
      · exact (hk _ (by simp)).trans hw.legacy
    · obtain ⟨-,m,hadd⟩ | hstep := next_root hst root
      · cases hadd.symm.trans hr
        exact .inl rfl
      · generalize getCredentialRootRecordOpt w'.store root=o at hr hstep
        cases hstep with
        | keep => exact hw.status r hr
        | revoke r' record =>
          cases hr
          exact .inr (.inl rfl)
        | expire r' record =>
          cases hr
          exact .inr (.inr rfl)

theorem root_stored_iff {start : Ledger} (h : Reaches host start tr w) (root : Bytes32) :
    (∃ r, getCredentialRootRecordOpt w.store root=some r) ↔ ∃ e∈tr, AddsRoot host e root := by
  refine Run.history_iff
    (P := fun w : World => ∃ r, getCredentialRootRecordOpt w.store root=some r) ?_ ?_ h
  · intro hr
    obtain ⟨r,hr⟩ := hr
    cases hr
  · intro w l w' hst
    by_cases hadds : AddsRoot host ⟨w,l,w'⟩ root
    · obtain ⟨admin,m,inv,hl,hx⟩ := hadds
      have hadd := addCredentialRoot_ok hx root
      rw [if_pos rfl] at hadd
      exact iff_of_true ⟨_,hadd⟩ (.inl ⟨admin,m,inv,hl,hx⟩)
    · obtain ⟨hadds',-⟩ | hstep := next_root hst root
      · exact absurd hadds' hadds
      · rw [hstep.stored_iff,or_iff_right hadds]

def ViewFinds (env : Env) (s : Storage) (root : Bytes32) : Prop :=
  (∃ r, getCredentialRoot root s = .ok (some r,s)) ↔
    requireActiveCredentialRoot env root s ≠ .error (.error .UnknownCredentialRoot)

/-- A listed status is the one enforcement acts on. -/
def StatusActs (env : Env) (s : Storage) (root : Bytes32) (status : Nat) : Prop :=
  (status = STATUS_REVOKED ↔
    requireActiveCredentialRoot env root s = .error (.error .RevokedCredentialRoot)) ∧
  (status = STATUS_EXPIRED ↔
    requireActiveCredentialRoot env root s = .error (.error .ExpiredCredentialRoot)) ∧
  (status = STATUS_REGISTERED ↔ requireActiveCredentialRoot env root s = .ok ((),s))

theorem getCredentialRoot_ne_some (s s' : Storage) (root : Bytes32) (r : CredentialRootRecord) :
    getCredentialRoot root s≠.ok (some r,s') := by
  intro h
  simp only [getCredentialRoot,bind_ok,get_ok] at h
  obtain ⟨o,_,⟨rfl,rfl⟩,h⟩ := h
  cases ho : s (.CredentialRoot root) with
  | none => simp [ho] at h
  | some v => simp [ho] at h

theorem viewFinds_iff (env : Env) (s : Storage) (root : Bytes32) :
    ViewFinds env s root ↔ getCredentialRootRecordOpt s root=none := by
  have absent : ¬ ∃ r, getCredentialRoot root s=.ok (some r,s) := fun h =>
    getCredentialRoot_ne_some s s root _ h.choose_spec
  rw [ViewFinds,iff_false_left absent,not_not]
  cases hr : getCredentialRootRecordOpt s root with
  | none => simp [requireActiveCredentialRoot_none hr]
  | some r =>
    rw [requireActiveCredentialRoot_some hr]
    split_ifs <;> simp

theorem statusActs_iff {root : Bytes32} (h : RootKept s root)
    (hr : getCredentialRootRecordOpt s root=some r) :
    StatusActs env s root (r.listedStatus env.timestamp) ↔
      ¬ (r.status=STATUS_REVOKED ∧ 0<r.expiresAt ∧ r.expiresAt≤env.timestamp) := by
  rw [StatusActs,requireActiveCredentialRoot_some hr,CredentialRootRecord.listedStatus]
  rcases h.status r hr with hs | hs | hs <;>
    by_cases hlapsed : 0<r.expiresAt ∧ r.expiresAt≤env.timestamp <;>
    simp [hs,hlapsed,STATUS_REGISTERED,STATUS_REVOKED,STATUS_EXPIRED]

theorem credentialRootEntry_some {id : Nat} {entry : CredentialRootEntry}
    (h : credentialRootEntry now s id=some entry) :
    ∃ r, getCredentialRootRecordOpt s entry.rootHash=some r ∧
      entry.status=r.listedStatus now := by
  unfold credentialRootEntry at h
  split at h
  · cases h
  · split at h
    · cases h
    · rename_i root _ _ r hr
      cases h
      exact ⟨r,hr,rfl⟩

/-- Whatever holds of the entry for every number holds of all entries of a page. -/
theorem scanCredentialRoots_forall {limit totalSeq : Nat} {P : CredentialRootEntry → Prop}
    (hP : ∀ id entry, credentialRootEntry now s id=some entry → P entry) {remaining id : Nat}
    {roots : List CredentialRootEntry} {page : CredentialRootPage} (hroots : ∀ x∈roots, P x)
    (h : scanCredentialRoots now limit totalSeq s remaining id roots=some page) :
    ∀ x∈page.roots, P x := by
  induction remaining generalizing id roots with
  | zero =>
    unfold scanCredentialRoots at h
    split at h
    · cases h
    · cases h
      exact hroots
  | succ remaining ih =>
    unfold scanCredentialRoots at h
    cases hentry : credentialRootEntry now s id with
    | none =>
      rw [hentry] at h
      exact ih hroots h
    | some entry =>
      rw [hentry] at h
      have hmore : ∀ x∈roots++[entry], P x := by
        intro x hx
        rcases mem_append.1 hx with hx | hx
        · exact hroots x hx
        · rw [mem_singleton.1 hx]
          exact hP id entry hentry
      simp only at h
      split at h
      · cases h
        exact hmore
      · exact ih hmore h

theorem listCredentialRoots_entry {cursor limit : Nat} {page : CredentialRootPage}
    (h : listCredentialRoots env cursor limit s=.ok (page,s')) {entry : CredentialRootEntry}
    (hentry : entry∈page.roots) : ∃ r, getCredentialRootRecordOpt s entry.rootHash=some r ∧
      entry.status=r.listedStatus env.timestamp := by
  simp only [listCredentialRoots,bind_ok,get_ok,gets_ok,unwrap_ok] at h
  obtain ⟨_,_,⟨rfl,rfl⟩,_,_,⟨rfl,rfl⟩,hscan,rfl⟩ := h
  exact scanCredentialRoots_forall (fun _ _ => credentialRootEntry_some) (by simp) hscan
    entry hentry

/-- The view of a single root agrees with enforcement only on roots that were never added; the
listing agrees except on a root that was expired and then revoked. -/
theorem credential_root_views {host : Host} {start : Ledger} {tr : Trace} {w : World}
    (h : Reaches host start tr w) (env : Env) (root : Bytes32) :
    (ViewFinds env w.store root ↔ ∀ e ∈ tr, ¬ AddsRoot host e root) ∧
    ∀ cursor limit page s' entry, listCredentialRoots env cursor limit w.store = .ok (page,s') →
      entry ∈ page.roots → entry.rootHash = root →
      (StatusActs env w.store root entry.status ↔
        ¬ ∃ r, getCredentialRootRecordOpt w.store root = some r ∧ r.status = STATUS_REVOKED ∧
          0 < r.expiresAt ∧ r.expiresAt ≤ env.timestamp) := by
  refine ⟨?_,?_⟩
  · have hstored := root_stored_iff h root
    rw [viewFinds_iff,← not_iff_not,← Ne,Option.ne_none_iff_exists']
    rw [hstored]
    simp
  · intro cursor limit page s' entry hlist hentry hroot
    subst hroot
    obtain ⟨r,hr,hstatus⟩ := listCredentialRoots_entry hlist hentry
    rw [hstatus,statusActs_iff (reaches_rootKept h _) hr]
    simp [hr]

def rootAdded : List Label :=
  [.call ⟨1⟩ (.init ⟨1⟩),.call ⟨1⟩ (.addCredentialRoot ⟨1⟩ (fill 7) (fill 1))]

def rootExpiredRevoked : List Label :=
  rootAdded++[.call ⟨1⟩ (.expireCredentialRoot ⟨1⟩ (fill 7)),
    .call ⟨1⟩ (.revokeCredentialRoot ⟨1⟩ (fill 7))]

def World.viewEnv (w : World) : Env := w.env stellarHost (.signedBy ⟨1⟩)

theorem rootAdded_record : getCredentialRootRecordOpt (deploy rootAdded).2.store (fill 7) =
    some (.added (fill 1) genesis.timestamp) := by
  decide +kernel

theorem rootExpiredRevoked_record :
    getCredentialRootRecordOpt (deploy rootExpiredRevoked).2.store (fill 7) =
      some ((CredentialRootRecord.added (fill 1) genesis.timestamp).expired
        genesis.timestamp).revoked := by
  decide +kernel

/-- The single view does not find a root in use, and the listing takes a revoked root for an
expired one. -/
theorem credential_root_views_disagree :
    (getCredentialRoot (fill 7) (deploy rootAdded).2.store =
        .ok (none,(deploy rootAdded).2.store) ∧
      requireActiveCredentialRoot (deploy rootAdded).2.viewEnv (fill 7)
        (deploy rootAdded).2.store = .ok ((),(deploy rootAdded).2.store)) ∧
    (listCredentialRoots (deploy rootExpiredRevoked).2.viewEnv 0 0
        (deploy rootExpiredRevoked).2.store).map (·.1) =
      .ok ⟨[⟨fill 7,STATUS_EXPIRED⟩],none⟩ ∧
    requireActiveCredentialRoot (deploy rootExpiredRevoked).2.viewEnv (fill 7)
      (deploy rootExpiredRevoked).2.store = .error (.error .RevokedCredentialRoot) := by
  refine ⟨⟨?_,?_⟩,?_,?_⟩
  · have habsent := (reaches_rootKept (deploy_reaches rootAdded) (fill 7)).legacy
    simp [getCredentialRoot,habsent]
  · rw [requireActiveCredentialRoot_some rootAdded_record]
    simp [CredentialRootRecord.added,STATUS_REGISTERED,STATUS_REVOKED,STATUS_EXPIRED]
  · decide +kernel
  · rw [requireActiveCredentialRoot_some rootExpiredRevoked_record]
    simp [CredentialRootRecord.revoked]

/-- A root that was never added, and one that was only added. -/
theorem credential_root_views_added :
    ViewFinds (deploy rootAdded).2.viewEnv (deploy rootAdded).2.store (fill 8) ∧
    StatusActs (deploy rootAdded).2.viewEnv (deploy rootAdded).2.store (fill 7)
      STATUS_REGISTERED := by
  have run := deploy_reaches rootAdded
  refine ⟨(credential_root_views run _ (fill 8)).1.2 fun e he hadds => ?_,?_⟩
  · have absent : getCredentialRootRecordOpt (deploy rootAdded).2.store (fill 8)=none := by
      decide +kernel
    obtain ⟨r,hr⟩ := (root_stored_iff run (fill 8)).2 ⟨e,he,hadds⟩
    cases absent.symm.trans hr
  · have listed : (listCredentialRoots (deploy rootAdded).2.viewEnv 0 0
        (deploy rootAdded).2.store).map (·.1)=.ok ⟨[⟨fill 7,STATUS_REGISTERED⟩],none⟩ := by
      decide +kernel
    cases hlist : listCredentialRoots (deploy rootAdded).2.viewEnv 0 0
        (deploy rootAdded).2.store with
    | error err => simp [hlist,Except.map] at listed
    | ok x =>
      obtain ⟨page,s'⟩ := x
      obtain rfl : page=⟨[⟨fill 7,STATUS_REGISTERED⟩],none⟩ := by
        simpa [hlist,Except.map] using listed
      refine ((credential_root_views run _ (fill 7)).2 0 0 _ s' _ hlist
        (mem_singleton.2 rfl) rfl).2 fun hrevoked => ?_
      obtain ⟨r,hr,hstatus,-⟩ := hrevoked
      cases rootAdded_record.symm.trans hr
      cases hstatus

end Harpocrates.Registry
