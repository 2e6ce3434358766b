import Harpocrates.Registry.Dispatch
import Harpocrates.Registry.System

namespace Harpocrates.Registry

open Framework Tx List

variable {council : AdminCouncil} {s s' : Storage} {c : Call} {u : Unit} {host : Host} {w : World}
  {admin : Address}

theorem getAdminCouncil_some {now : Nat} :
    getAdminCouncil now s=some council ↔
      s .AdminCouncil=some council ∧ council.effectiveAt≤now := by
  unfold getAdminCouncil
  cases hs : s .AdminCouncil with
  | none => simp
  | some record =>
    by_cases he : record.effectiveAt≤now
    · simp only [he,if_true,Option.some.injEq]
      constructor
      · intro heq
        subst heq
        exact ⟨rfl,he⟩
      · exact fun h => h.1
    · simp only [he,if_false,Option.some.injEq,reduceCtorEq,false_iff,not_and]
      intro heq
      subst heq
      exact he

theorem isCouncilActive_iff {now : Nat} :
    isCouncilActive now s=true ↔ ∃ council, getAdminCouncil now s=some council := by
  unfold isCouncilActive getAdminCouncil
  cases s .AdminCouncil with
  | none => simp
  | some record => simp

variable {env : Env}

theorem council_of_no_council {α : Type} {a : Address} {f : Unit → M α} {x : α}
    (h : (requireAdmin env a >>= fun _ => requireNoCouncil env >>= f) s=.ok (x,s')) :
    isCouncilActive env.timestamp s=false := by
  simp only [bind_ok,requireAdmin_ok,requireNoCouncil_ok] at h
  obtain ⟨_,_,⟨-,-,rfl⟩,_,_,⟨hn,rfl⟩,-⟩ := h
  exact hn

theorem exec_council (h : exec env c s=.ok (u,s'))
    (hc : getAdminCouncil env.timestamp s=some council) : s' .AdminCouncil=some council := by
  have hs := getAdminCouncil_some.1 hc
  cases c with
  | setAdminCouncil =>
    have hn := council_of_no_council h
    rw [isCouncilActive_iff.2 ⟨council,hc⟩] at hn
    cases hn
  | cancelPendingAdminCouncil =>
    simp only [exec,cancelPendingAdminCouncil,bind_ok,requireAdmin_ok,get_ok,unwrap_ok,
      failIf_ok] at h
    obtain ⟨_,_,⟨-,-,rfl⟩,_,_,⟨rfl,rfl⟩,record,_,⟨hr,rfl⟩,_,_,⟨ht,rfl⟩,-⟩ := h
    obtain rfl : record=council := Option.some.inj (hr.symm.trans hs.1)
    simp only [ge_iff_le,decide_eq_false_iff_not] at ht
    exact absurd hs.2 ht
  | _ => rw [exec_footprint h (notMem_of_elem rfl),hs.1]

theorem next_council {w' : World} {l : Label} (hst : next host w l=w')
    (hc : getAdminCouncil w.ledger.timestamp w.store=some council) :
    getAdminCouncil w'.ledger.timestamp w'.store=some council := by
  have hs := getAdminCouncil_some.1 hc
  refine getAdminCouncil_some.2 ⟨?_,le_trans hs.2 (next_ledger hst)⟩
  obtain ⟨inv,c,-,-,hx⟩ | hk := next_store hst
  · exact exec_council hx hc
  · rw [hk _ (by simp),hs.1]

theorem run_council {w' : World} {tr : Trace}
    (hr : Run (fun w l w' => next host w l=w') w tr w')
    (hc : getAdminCouncil w.ledger.timestamp w.store=some council) :
    getAdminCouncil w'.ledger.timestamp w'.store=some council :=
  Run.state_invariant
    (I := fun w : World => getAdminCouncil w.ledger.timestamp w.store=some council) hc
    (fun _ _ _ hw hst => next_council hst hw) hr

theorem exec_admin_isSome (h : exec env c s=.ok (u,s')) (ha : (s .Admin).isSome=true) :
    (s' .Admin).isSome=true := by
  cases c with
  | init =>
    simp only [exec,init,bind_ok,has_ok,failIf_ok] at h
    obtain ⟨_,_,⟨hb,rfl⟩,_,_,⟨rfl,rfl⟩,-⟩ := h
    rw [ha] at hb
    cases hb
  | acceptAdmin =>
    simp only [exec,acceptAdmin,bind_ok,get_ok,unwrap_ok,requireAuth_ok,failIf_ok,
      requireAdminRoleAvailable_ok,set_ok,remove_ok] at h
    obtain ⟨_,_,⟨-,rfl⟩,_,_,⟨-,rfl⟩,_,_,⟨-,rfl⟩,_,_,⟨-,rfl⟩,_,_,⟨rfl,-⟩,_,_,⟨-,rfl⟩,_,_,⟨-,rfl⟩,_,_,
      rfl,rfl⟩ := h
    simp
  | _ => rw [exec_footprint h (notMem_of_elem rfl),ha]

theorem exec_admin_of_council (h : exec env c s=.ok (u,s'))
    (hs : (s .AdminCouncil).isSome=true → (s .Admin).isSome=true)
    (hc : (s' .AdminCouncil).isSome=true) : (s' .Admin).isSome=true := by
  cases c with
  | setAdminCouncil admin =>
    refine exec_admin_isSome h ?_
    obtain ⟨_,_,ha,-⟩ := (bind_ok ..).1 h
    rw [((requireAdmin_ok ..).1 ha).1]
    rfl
  | cancelPendingAdminCouncil admin =>
    refine exec_admin_isSome h ?_
    obtain ⟨_,_,ha,-⟩ := (bind_ok ..).1 h
    rw [((requireAdmin_ok ..).1 ha).1]
    rfl
  | _ =>
    rw [exec_footprint h (notMem_of_elem rfl)] at hc
    exact exec_admin_isSome h (hs hc)

theorem admin_of_council {start : Ledger} {tr : Trace} (h : Reaches host start tr w)
    (hc : (w.store .AdminCouncil).isSome=true) : (w.store .Admin).isSome=true := by
  refine Run.state_invariant (I := fun w : World =>
    (w.store .AdminCouncil).isSome=true → (w.store .Admin).isSome=true) ?_ ?_ h hc
  · intro h
    cases h
  · intro w l w' hw hst hc
    obtain ⟨inv,c,-,-,hx⟩ | hk := next_store hst
    · exact exec_admin_of_council hx hw hc
    · rw [hk _ (by simp)] at hc ⊢
      exact hw hc

/-- The state a council governs did not change, except that issuers may have become active. -/
structure GovernanceKept (s s' : Storage) : Prop where
  verifier : s' .Verifier = s .Verifier
  issuers : ∀ i, hasActiveIssuer s i = true → hasActiveIssuer s' i = true
  revocationRoot : s' .RevocationRoot = s .RevocationRoot
  schemaVersion : s' .SchemaVersion = s .SchemaVersion

theorem GovernanceKept.of_keys (hv : s' .Verifier=s .Verifier)
    (hi : ∀ i, s' (.Issuer i)=s (.Issuer i)) (hr : s' .RevocationRoot=s .RevocationRoot)
    (hs : s' .SchemaVersion=s .SchemaVersion) : GovernanceKept s s' :=
  ⟨hv,fun i h => by simpa only [hasActiveIssuer,hi] using h,hr,hs⟩

theorem GovernanceKept.of_writes {α : Type} {m : M α} {fs : List Family} {a : α}
    (hm : Writes (In fs) m) (h : m s=.ok (a,s')) (hv : Family.Verifier∉fs)
    (hi : Family.Issuer∉fs) (hr : Family.RevocationRoot∉fs) (hs : Family.SchemaVersion∉fs) :
    GovernanceKept s s' :=
  .of_keys (hm _ _ _ h _ hv) (fun _ => hm _ _ _ h _ hi) (hm _ _ _ h _ hr) (hm _ _ _ h _ hs)

theorem GovernanceKept.trans {t u : Storage} (h : GovernanceKept s t) (h' : GovernanceKept t u) :
    GovernanceKept s u :=
  ⟨h'.verifier.trans h.verifier,fun i hi => h'.issuers i (h.issuers i hi),
    h'.revocationRoot.trans h.revocationRoot,h'.schemaVersion.trans h.schemaVersion⟩

theorem GovernanceKept.store_issuer {i : Address} {r : IssuerRecord}
    (h : hasActiveIssuer s i=true → r.active=true) :
    GovernanceKept s (Store.set s (.Issuer i) r) := by
  refine ⟨by simp,fun j hj => ?_,by simp,by simp⟩
  by_cases hij : j=i
  · subst hij
    simpa [hasActiveIssuer] using h hj
  · have hk : DataKey.Issuer j≠.Issuer i := by simpa using hij
    simpa [hasActiveIssuer,hk] using hj

theorem TimelockEffect.kept {p : TimelockProposal} (h : TimelockEffect env p s s')
    (hgated : (p.action == 1 || p.action == 2)=false) : GovernanceKept s s' := by
  simp only [Bool.or_eq_false_iff,beq_eq_false_iff_ne] at hgated
  cases h with
  | setVerifier action => exact absurd action hgated.1
  | revokeIssuer action => exact absurd action hgated.2
  | _ => exact .of_keys (by simp) (by simp) (by simp) (by simp)

theorem GovernanceKept.store_proposal (s : Storage) (id : Nat) (p : TimelockProposal) :
    GovernanceKept s (Store.set s (.Proposal id) p) :=
  .of_keys (by simp) (by simp) (by simp) (by simp)

theorem executeTimelockedProposal_kept {caller : Address} {id : Nat}
    (h : executeTimelockedProposal env caller id s=.ok (u,s'))
    (hact : isCouncilActive env.timestamp s=true) : GovernanceKept s s' := by
  obtain ⟨p,hp⟩ := executeTimelockedProposal_ok h
  exact (GovernanceKept.store_proposal ..).trans (hp.effect.kept (hp.council hact))

/-- What two entry points do not check themselves while a council is in force: the admin
alone neither rotates an issuer out nor executes a proposal of the first two kinds. -/
def respectsCouncil (w : World) (c : Call) : Bool :=
  !isCouncilActive w.ledger.timestamp w.store ||
    match c with
    | .rotateIssuer _ _ _ _ => false
    | .emergencyExecuteTimelock _ id =>
      match w.store (.Proposal id) with
      | some proposal => proposal.action != 1 && proposal.action != 2
      | none => true
    | _ => true

theorem emergencyExecuteTimelock_kept {id : Nat}
    (h : emergencyExecuteTimelock env admin id s=.ok (u,s'))
    (hc : ∀ p, s (.Proposal id)=some p → (p.action == 1 || p.action == 2)=false) :
    GovernanceKept s s' := by
  obtain ⟨p,hp⟩ := emergencyExecuteTimelock_ok h
  exact (GovernanceKept.store_proposal ..).trans (hp.effect.kept (hc p hp.stored))

theorem addIssuer_kept {issuer : Address} {m : Bytes32}
    (h : addIssuer env admin issuer m s=.ok (u,s')) : GovernanceKept s s' := by
  simp only [addIssuer,bind_ok,requireAdmin_ok,requireIssuerRoleAvailable_ok,get_ok,
    failIf_ok,set_ok,remove_ok] at h
  obtain ⟨_,_,⟨-,-,rfl⟩,_,_,⟨rfl,-⟩,_,_,⟨-,rfl⟩,_,_,⟨-,rfl⟩,_,_,rfl,rfl⟩ := h
  refine .trans (.store_issuer (i := issuer) (r := ⟨m,true⟩) fun _ => rfl) ?_
  exact .of_keys (by simp) (by simp) (by simp) (by simp)

theorem updateIssuerMetadata_kept {issuer : Address} {m : Bytes32}
    (h : updateIssuerMetadata env admin issuer m s=.ok (u,s')) : GovernanceKept s s' := by
  simp only [updateIssuerMetadata,bind_ok,requireAdmin_ok,getIssuerRecord_ok,failIf_ok,
    set_ok] at h
  obtain ⟨_,_,⟨-,-,rfl⟩,r,_,⟨hr,rfl⟩,_,_,⟨hact,rfl⟩,rfl⟩ := h
  exact .store_issuer fun _ => by simpa using hact

/-- While a council is in force, nothing but the execution of a council proposal changes what
it governs. -/
theorem exec_kept {inv : Invocation} (h : exec (w.env host inv) c w.store=.ok (u,s'))
    (hact : isCouncilActive w.ledger.timestamp w.store=true)
    (hadmin : (w.store .Admin).isSome=true) (hc : respectsCouncil w c=true)
    (hx : ∀ caller id, c≠.executeCouncilProposal caller id) : GovernanceKept w.store s' := by
  have gated : ∀ {α : Type} {a : Address} {f : Unit → M α} {x : α},
      (requireAdmin (w.env host inv) a >>= fun _ => requireNoCouncil (w.env host inv) >>= f)
        w.store=.ok (x,s') → GovernanceKept w.store s' := by
    intro α a f x h
    have hn := council_of_no_council h
    rw [World.env_timestamp,hact] at hn
    cases hn
  cases c with
  | init =>
    simp only [exec,init,bind_ok,has_ok,failIf_ok] at h
    obtain ⟨_,_,⟨hb,rfl⟩,_,_,⟨rfl,rfl⟩,-⟩ := h
    rw [hadmin] at hb
    cases hb
  | upgradeStorage => exact gated h
  | addIssuer => exact addIssuer_kept h
  | revokeIssuer => exact gated h
  | updateIssuerMetadata => exact updateIssuerMetadata_kept h
  | rotateIssuer => simp [respectsCouncil,hact] at hc
  | setVerifier => exact gated h
  | activateVerifierRotation => exact gated h
  | rollbackVerifierRotation => exact gated h
  | executeTimelockedProposal => exact executeTimelockedProposal_kept h hact
  | emergencyExecuteTimelock admin id =>
    refine emergencyExecuteTimelock_kept h fun p hp => ?_
    simpa [respectsCouncil,hact,hp] using hc
  | executeCouncilProposal caller id => exact absurd rfl (hx caller id)
  | setRevocationRoot => exact gated h
  | _ =>
    exact .of_writes (exec_writes _ _) h (notMem_of_elem rfl) (notMem_of_elem rfl)
      (notMem_of_elem rfl) (notMem_of_elem rfl)

/-- The step changed something a council governs. -/
def ChangesGovernance (e : Event World Label) : Prop :=
  e.post.store .Verifier ≠ e.pre.store .Verifier ∨
  (∃ issuer, hasActiveIssuer e.pre.store issuer = true ∧
    hasActiveIssuer e.post.store issuer = false) ∨
  e.post.store .RevocationRoot ≠ e.pre.store .RevocationRoot ∨
  e.post.store .SchemaVersion ≠ e.pre.store .SchemaVersion

theorem GovernanceKept.not_changes {e : Event World Label}
    (h : GovernanceKept e.pre.store e.post.store) : ¬ ChangesGovernance e := by
  intro hyp
  rcases hyp with hv | ⟨i,hi,hi'⟩ | hr | hs
  · exact hv h.verifier
  · rw [h.issuers i hi] at hi'
    cases hi'
  · exact hr h.revocationRoot
  · exact hs h.schemaVersion

/-- From the moment a council is in force, every step that changes what it governs is the
execution of a council proposal, as long as the admin does not rotate issuers out or execute
proposals of the first two kinds in an emergency. -/
theorem council_not_bypassed {host : Host} {start : Ledger} {tr tr₁ tr₂ : Trace} {w : World}
    {e e' : Event World Label} (h : Reaches host start tr w)
    (hc : ∀ e ∈ tr, meets respectsCouncil e = true) (htr : tr = tr₂++e::tr₁)
    (he' : e' ∈ e::tr₁) (hact : isCouncilActive e'.pre.ledger.timestamp e'.pre.store = true)
    (hch : ChangesGovernance e) :
    ∃ caller id, Succeeds host e (.executeCouncilProposal caller id) := by
  subst htr
  obtain ⟨hpre,hst,-⟩ := Run.split h
  have active : isCouncilActive e.pre.ledger.timestamp e.pre.store=true := by
    rcases mem_cons.1 he' with rfl | he'
    · exact hact
    · obtain ⟨council,hcouncil⟩ := isCouncilActive_iff.1 hact
      obtain ⟨_,_,-,-,hst',hrest⟩ := Run.event_split hpre he'
      exact isCouncilActive_iff.2 ⟨council,run_council hrest (next_council hst' hcouncil)⟩
  have admin : (e.pre.store .Admin).isSome=true := by
    obtain ⟨council,hcouncil⟩ := isCouncilActive_iff.1 active
    refine admin_of_council hpre ?_
    rw [(getAdminCouncil_some.1 hcouncil).1]
    rfl
  obtain ⟨inv,c,hl,-,hx⟩ | hk := next_store hst
  · by_contra hno
    have hm := hc e (by simp)
    simp only [meets,hl] at hm
    refine (exec_kept hx active admin hm ?_).not_changes hch
    intro caller id heq
    subst heq
    exact hno ⟨caller,id,inv,hl,hx⟩
  · have kept : GovernanceKept e.pre.store e.post.store :=
      .of_keys (hk _ (by simp)) (fun _ => hk _ (by simp)) (hk _ (by simp)) (hk _ (by simp))
    exact absurd hch kept.not_changes

def councilInForce (before : List Label) : List Label :=
  .call ⟨1⟩ (.init ⟨1⟩)::before++
    [.call ⟨1⟩ (.setAdminCouncil ⟨1⟩ [⟨5⟩,⟨6⟩] 2),.advance (genesisPlus 86400 genesis_day_lt)]

def verifierApproved : List Label := councilInForce []++
  [.call ⟨5⟩ (.proposeCouncilAction ⟨5⟩ 1 ⟨2⟩ zero32),.call ⟨5⟩ (.approveCouncilProposal ⟨5⟩ 1),
    .call ⟨6⟩ (.approveCouncilProposal ⟨6⟩ 1)]

theorem council_not_bypassed_set_verifier : ∃ caller id, Succeeds stellarHost
    ((deploy verifierApproved).2.event stellarHost (.call ⟨7⟩ (.executeCouncilProposal ⟨7⟩ 1)))
    (.executeCouncilProposal caller id) :=
  council_not_bypassed ((deploy_reaches verifierApproved).event _) (by decide +kernel)
    (show _ = []++_::_ from rfl) mem_cons_self (by decide +kernel)
    (.inl (by decide +kernel))

/-- A proposal for another verifier, made before the council was in force, is executed by
the admin alone. -/
def emergencyStep : Event World Label :=
  (deploy (councilInForce [.call ⟨1⟩ (.proposeTimelockedAction ⟨1⟩ 1 ⟨2⟩ zero32)])).2.event
    stellarHost (.call ⟨1⟩ (.emergencyExecuteTimelock ⟨1⟩ 1))

/-- The admin alone retires an active issuer. -/
def rotationStep : Event World Label :=
  (deploy (councilInForce [.call ⟨1⟩ (.addIssuer ⟨1⟩ ⟨8⟩ zero32),
    .call ⟨1⟩ (.addIssuer ⟨1⟩ ⟨9⟩ zero32)])).2.event stellarHost
      (.call ⟨1⟩ (.rotateIssuer ⟨1⟩ ⟨8⟩ ⟨9⟩ 0))

/-- Both ways around a council that is in force. -/
theorem council_bypassed :
    (∃ tr, Reaches stellarHost genesis tr emergencyStep.post ∧ emergencyStep ∈ tr ∧
      isCouncilActive emergencyStep.pre.ledger.timestamp emergencyStep.pre.store = true ∧
      Succeeds stellarHost emergencyStep (.emergencyExecuteTimelock ⟨1⟩ 1) ∧
      emergencyStep.post.store .Verifier ≠ emergencyStep.pre.store .Verifier) ∧
    ∃ tr, Reaches stellarHost genesis tr rotationStep.post ∧ rotationStep ∈ tr ∧
      isCouncilActive rotationStep.pre.ledger.timestamp rotationStep.pre.store = true ∧
      Succeeds stellarHost rotationStep (.rotateIssuer ⟨1⟩ ⟨8⟩ ⟨9⟩ 0) ∧
      hasActiveIssuer rotationStep.pre.store ⟨8⟩ = true ∧
      hasActiveIssuer rotationStep.post.store ⟨8⟩ = false :=
  ⟨⟨_,(deploy_reaches _).event _,mem_cons_self,by decide +kernel,
      succeeds_event (by decide +kernel),by decide +kernel⟩,
    _,(deploy_reaches _).event _,mem_cons_self,by decide +kernel,
      succeeds_event (by decide +kernel),by decide +kernel,by decide +kernel⟩

end Harpocrates.Registry
