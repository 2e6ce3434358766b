import Harpocrates.Registry.Attribution
import Harpocrates.Registry.Dispatch

namespace Harpocrates.Registry

open Framework Tx

@[ext] structure Roles where
  admin : Option Address
  pending : Option Address
  issuers : Set Address

namespace Roles

/-- What one call can do to the roles. -/
inductive Step (R : Roles) : Roles → Prop
  | retire (issuers : Set Address) (fewer : issuers ⊆ R.issuers) : Step R { R with issuers }
  | init (a : Address) (free : R.admin = none) : Step R { R with admin := some a }
  | propose (a : Address) (available : a ∉ R.issuers) : Step R { R with pending := some a }
  | cancel : Step R { R with pending := none }
  | accept (a : Address) (available : a ∉ R.issuers) :
      Step R { R with admin := some a, pending := none }
  | appoint (a i : Address) (admin : R.admin = some a) (other : i ≠ a)
      (other' : R.pending ≠ some i) : Step R { R with issuers := insert i R.issuers }

/-- Neither the admin nor the one to come is an issuer, and there are none before there is an
admin. -/
structure Separated (R : Roles) : Prop where
  admin : ∀ a, R.admin = some a → a ∉ R.issuers
  pending : ∀ a, R.pending = some a → a ∉ R.issuers
  first : R.admin = none → R.issuers = ∅

theorem Step.separated {R R' : Roles} (h : Step R R') (hR : R.Separated) : R'.Separated := by
  cases h with
  | retire issuers fewer =>
    refine ⟨fun a ha hi => hR.admin a ha (fewer hi),fun a ha hi => hR.pending a ha (fewer hi),?_⟩
    intro hnone
    exact Set.subset_empty_iff.1 (hR.first hnone ▸ fewer)
  | init a free =>
    refine ⟨fun a' _ hi => ?_,hR.pending,by simp⟩
    rw [hR.first free] at hi
    exact hi
  | propose a available =>
    refine ⟨hR.admin,fun a' ha => ?_,hR.first⟩
    cases ha
    exact available
  | cancel => exact ⟨hR.admin,by simp,hR.first⟩
  | accept a available =>
    refine ⟨fun a' ha => ?_,by simp,by simp⟩
    cases ha
    exact available
  | appoint a i admin other other' =>
    refine ⟨fun a' ha hi => ?_,fun a' ha hi => ?_,fun hnone => ?_⟩
    · rcases Set.mem_insert_iff.1 hi with rfl | hi
      · exact other (Option.some.inj (ha.symm.trans admin))
      · exact hR.admin a' ha hi
    · rcases Set.mem_insert_iff.1 hi with rfl | hi
      · exact other' ha
      · exact hR.pending a' ha hi
    · cases hnone.symm.trans admin

end Roles

def roles (s : Storage) : Roles where
  admin := s .Admin
  pending := s .PendingAdmin
  issuers := {a | hasActiveIssuer s a = true}

variable {s s' : Storage}

theorem issuers_congr (h : ∀ i, s' (.Issuer i)=s (.Issuer i)) :
    (roles s').issuers=(roles s).issuers := by
  ext i
  simp [roles,hasActiveIssuer,h]

theorem issuers_set (s : Storage) (i : Address) (r : IssuerRecord) :
    (roles (Store.set s (.Issuer i) r)).issuers =
      if r.active then insert i (roles s).issuers else (roles s).issuers \ {i} := by
  ext j
  by_cases hj : j=i
  · subst hj
    cases hr : r.active <;> simp [roles,hasActiveIssuer,hr]
  · have hk : DataKey.Issuer j≠.Issuer i := by simpa using hj
    cases hr : r.active <;> simp [roles,hasActiveIssuer,hk,hj]

def Retires {α : Type} (m : M α) : Prop :=
  ∀ s a s', m s = .ok (a,s') → (roles s').issuers ⊆ (roles s).issuers

theorem Retires.of_writes {α : Type} {m : M α} {fs : List Family} (hm : Writes (In fs) m)
    (hf : Family.Issuer∉fs) : Retires m := by
  intro s a s' h
  exact (issuers_congr fun i => hm s a s' h (.Issuer i) hf).subset

theorem issuers_deactivated (s : Storage) (i : Address) (r : IssuerRecord) :
    (roles (deactivated s i r)).issuers ⊆ (roles s).issuers := by
  rw [issuers_congr (s := Store.set s (.Issuer i) { r with active := false })
    (by simp [deactivated]),issuers_set]
  exact Set.sdiff_subset

theorem TimelockEffect.issuers {env : Env} {p : TimelockProposal} (h : TimelockEffect env p s s') :
    (roles s').issuers ⊆ (roles s).issuers := by
  cases h with
  | revokeIssuer _ r _ => exact issuers_deactivated s p.target r
  | _ => exact (issuers_congr (by simp)).subset

theorem CouncilEffect.issuers {env : Env} {p : CouncilProposal} (h : CouncilEffect env p s s') :
    (roles s').issuers ⊆ (roles s).issuers := by
  cases h with
  | revokeIssuer _ r _ => exact issuers_deactivated s p.target r
  | upgradeStorage _ _ kept => exact (issuers_congr fun i => kept _ (by simp)).subset
  | _ => exact (issuers_congr (by simp [installedStorage,activatedStorage])).subset

theorem executeTimelockedProposal_retires (env : Env) (caller : Address) (id : Nat) :
    Retires (executeTimelockedProposal env caller id) := by
  intro s u s' h
  obtain ⟨p,hp⟩ := executeTimelockedProposal_ok h
  exact hp.effect.issuers.trans (issuers_congr (by simp)).subset

theorem emergencyExecuteTimelock_retires (env : Env) (admin : Address) (id : Nat) :
    Retires (emergencyExecuteTimelock env admin id) := by
  intro s u s' h
  obtain ⟨p,hp⟩ := emergencyExecuteTimelock_ok h
  exact hp.effect.issuers.trans (issuers_congr (by simp)).subset

theorem executeCouncilProposal_retires (env : Env) (caller : Address) (id : Nat) :
    Retires (executeCouncilProposal env caller id) := by
  intro s u s' h
  obtain ⟨_,p,hp⟩ := executeCouncilProposal_ok h
  exact hp.effect.issuers.trans (issuers_congr (by simp)).subset

theorem revokeIssuer_retires (env : Env) (admin issuer : Address) :
    Retires (revokeIssuer env admin issuer) := by
  intro s u s' h
  simp only [revokeIssuer,bind_ok,requireAdmin_ok,requireNoCouncil_ok,getIssuerRecord_ok,
    set_ok,remove_ok] at h
  obtain ⟨_,_,⟨-,-,rfl⟩,_,_,⟨-,rfl⟩,r,_,⟨-,rfl⟩,_,_,rfl,rfl⟩ := h
  exact issuers_deactivated s issuer r

theorem rotateIssuer_retires (env : Env) (admin previous replacement : Address) (grace : Nat) :
    Retires (rotateIssuer env admin previous replacement grace) := by
  intro s x s' h
  simp only [rotateIssuer,bind_ok,requireAdmin_ok,failIf_ok,getIssuerRecord_ok,set_ok,
    pure_ok] at h
  obtain ⟨_,_,⟨-,-,rfl⟩,_,_,⟨-,rfl⟩,r,_,⟨-,rfl⟩,_,_,⟨-,rfl⟩,_,_,⟨-,rfl⟩,_,_,⟨-,rfl⟩,h⟩ := h
  obtain ⟨_,_,⟨-,rfl⟩,_,_,⟨-,rfl⟩,_,_,rfl,_,_,rfl,-,rfl⟩ := h
  rw [issuers_congr (s := Store.set s (.Issuer previous) { r with active := false }) (by simp),
    issuers_set]
  exact Set.sdiff_subset

theorem updateIssuerMetadata_retires (env : Env) (admin issuer : Address) (m : Bytes32) :
    Retires (updateIssuerMetadata env admin issuer m) := by
  intro s x s' h
  simp only [updateIssuerMetadata,bind_ok,requireAdmin_ok,getIssuerRecord_ok,failIf_ok,
    set_ok] at h
  obtain ⟨_,_,⟨-,-,rfl⟩,r,_,⟨hr,rfl⟩,_,_,⟨hactive,rfl⟩,rfl⟩ := h
  have active : r.active=true := by simpa using hactive
  rw [issuers_set,if_pos active]
  exact Set.insert_subset (hasActiveIssuer_of_record hr hactive) (Set.Subset.refl _)

theorem Roles.Step.of_retires {α : Type} {m : M α} {fs : List Family} {a : α} (hr : Retires m)
    (hm : Writes (In fs) m) (ha : Family.Admin∉fs) (hp : Family.PendingAdmin∉fs)
    (h : m s=.ok (a,s')) : Roles.Step (roles s) (roles s') := by
  have heq : roles s'={ roles s with issuers := (roles s').issuers } :=
    Roles.ext (hm s a s' h .Admin ha) (hm s a s' h .PendingAdmin hp) rfl
  rw [heq]
  exact .retire _ (hr s a s' h)

theorem exec_roles {env : Env} {c : Call} {u : Unit} (h : exec env c s=.ok (u,s')) :
    Roles.Step (roles s) (roles s') := by
  cases c with
  | init admin =>
    simp only [exec,init,bind_ok,has_ok,failIf_ok,requireAuth_ok,set_ok] at h
    obtain ⟨_,_,⟨rfl,rfl⟩,_,_,⟨free,rfl⟩,_,_,⟨-,rfl⟩,_,_,rfl,rfl⟩ := h
    have heq : roles (Store.set (Store.set s .Admin admin) .SchemaVersion SchemaVersion.V2) =
        { roles s with admin := some admin } :=
      Roles.ext (by simp [roles]) (by simp [roles]) (issuers_congr (by simp))
    rw [heq]
    exact .init admin (show s .Admin=none by simpa using free)
  | proposeAdmin admin candidate =>
    simp only [exec,proposeAdmin,bind_ok,requireAdmin_ok,requireAdminRoleAvailable_ok,
      set_ok] at h
    obtain ⟨_,_,⟨-,-,rfl⟩,_,_,⟨rfl,-,available⟩,rfl⟩ := h
    have heq : roles (Store.set s .PendingAdmin candidate) =
        { roles s with pending := some candidate } :=
      Roles.ext (by simp [roles]) (by simp [roles]) (issuers_congr (by simp))
    rw [heq]
    exact .propose candidate (by simp [roles,available])
  | cancelAdminTransfer admin =>
    simp only [exec,cancelAdminTransfer,bind_ok,requireAdmin_ok,get_ok,unwrap_ok,
      remove_ok] at h
    obtain ⟨_,_,⟨-,-,rfl⟩,_,_,⟨-,rfl⟩,_,_,⟨-,rfl⟩,rfl⟩ := h
    have heq : roles (Store.erase s .PendingAdmin)={ roles s with pending := none } :=
      Roles.ext (by simp [roles]) (by simp [roles]) (issuers_congr (by simp))
    rw [heq]
    exact .cancel
  | acceptAdmin candidate =>
    simp only [exec,acceptAdmin,bind_ok,get_ok,unwrap_ok,requireAuth_ok,failIf_ok,
      requireAdminRoleAvailable_ok,set_ok,remove_ok] at h
    obtain ⟨_,_,⟨-,rfl⟩,_,_,⟨-,rfl⟩,_,_,⟨-,rfl⟩,_,_,⟨-,rfl⟩,_,_,⟨rfl,-,available⟩,h⟩ := h
    obtain ⟨_,_,⟨-,rfl⟩,_,_,⟨-,rfl⟩,_,_,rfl,rfl⟩ := h
    have heq : roles (Store.erase (Store.set s .Admin candidate) .PendingAdmin) =
        { roles s with admin := some candidate, pending := none } :=
      Roles.ext (by simp [roles]) (by simp [roles]) (issuers_congr (by simp))
    rw [heq]
    exact .accept candidate (by simp [roles,available])
  | addIssuer admin issuer m =>
    simp only [exec,addIssuer,bind_ok,requireAdmin_ok,requireIssuerRoleAvailable_ok,get_ok,
      failIf_ok,set_ok,remove_ok] at h
    obtain ⟨_,_,⟨-,-,rfl⟩,_,_,⟨rfl,a,ha,hne⟩,_,_,⟨rfl,rfl⟩,_,_,⟨hpending,rfl⟩,_,_,rfl,rfl⟩ := h
    have heq : roles (Store.erase (Store.set s (.Issuer issuer) ⟨m,true⟩)
        (.IssuerRotation issuer)) =
        { roles s with issuers := insert issuer (roles s).issuers } := by
      refine Roles.ext (by simp [roles]) (by simp [roles]) ?_
      rw [issuers_congr (s := Store.set s (.Issuer issuer) ⟨m,true⟩) (by simp),issuers_set,
        if_pos rfl]
    rw [heq]
    exact .appoint a issuer ha hne (by simpa [roles] using hpending)
  | revokeIssuer =>
    exact .of_retires (revokeIssuer_retires _ _ _) (revokeIssuer_writes _ _ _) (by simp)
      (by simp) h
  | updateIssuerMetadata =>
    exact .of_retires (updateIssuerMetadata_retires _ _ _ _)
      (updateIssuerMetadata_writes _ _ _ _) (by simp) (by simp) h
  | rotateIssuer =>
    obtain ⟨_,h⟩ := (discard_ok ..).1 h
    exact .of_retires (rotateIssuer_retires _ _ _ _ _) (rotateIssuer_writes _ _ _ _ _) (by simp)
      (by simp) h
  | executeTimelockedProposal =>
    exact .of_retires (executeTimelockedProposal_retires _ _ _)
      (executeTimelockedProposal_writes _ _ _) (notMem_of_elem rfl) (notMem_of_elem rfl) h
  | emergencyExecuteTimelock =>
    exact .of_retires (emergencyExecuteTimelock_retires _ _ _)
      (emergencyExecuteTimelock_writes _ _ _) (notMem_of_elem rfl) (notMem_of_elem rfl) h
  | executeCouncilProposal =>
    exact .of_retires (executeCouncilProposal_retires _ _ _)
      (executeCouncilProposal_writes _ _ _) (notMem_of_elem rfl) (notMem_of_elem rfl) h
  | _ =>
    exact .of_retires (.of_writes (exec_writes env _) (notMem_of_elem rfl)) (exec_writes env _)
      (notMem_of_elem rfl) (notMem_of_elem rfl) h

theorem next_roles {host : Host} {w w' : World} {l : Label} (hst : next host w l=w') :
    Roles.Step (roles w.store) (roles w'.store) := by
  obtain ⟨inv,c,-,-,hx⟩ | hk := next_store hst
  · exact exec_roles hx
  · have heq : roles w'.store={ roles w.store with issuers := (roles w.store).issuers } :=
      Roles.ext (hk .Admin (by simp)) (hk .PendingAdmin (by simp))
        (issuers_congr fun i => hk (.Issuer i) (by simp))
    rw [heq]
    exact .retire _ (Set.Subset.refl _)

theorem reaches_roles {host : Host} {start : Ledger} {tr : Trace} {w : World}
    (h : Reaches host start tr w) : (roles w.store).Separated := by
  refine Run.state_invariant (I := fun w : World => (roles w.store).Separated) ?_ ?_ h
  · have none : (roles Store.empty).issuers=∅ := Set.eq_empty_of_forall_notMem
      fun a ha => by cases ha
    refine ⟨fun a ha => ?_,fun a ha => ?_,fun _ => none⟩ <;> cases ha
  · intro w l w' hw hst
    exact (next_roles hst).separated hw

/-- The admin is no issuer, nor is the one to come, and no seal names the admin. -/
theorem roles_separated {host : Host} {start : Ledger} {tr : Trace} {w : World}
    (h : Reaches host start tr w) :
    (∀ a, w.store .Admin = some a → hasActiveIssuer w.store a = false) ∧
    (∀ a, w.store .PendingAdmin = some a → hasActiveIssuer w.store a = false) ∧
    ∀ e ∈ tr, ∀ p r a, RegistersProof e p → e.post.store (.Proof p) = some r →
      r.tier = TIER_PUBLIC_SEAL → r.issuer = some a →
      e.pre.store .Admin ≠ some a := by
  have hw := reaches_roles h
  refine ⟨fun a ha => ?_,fun a ha => ?_,?_⟩
  · exact Bool.eq_false_iff.2 (hw.admin a ha)
  · exact Bool.eq_false_iff.2 (hw.pending a ha)
  · intro e he p r a hnew hr ht ha
    obtain ⟨_,_,-,hpre,hst,-⟩ := Run.event_split h he
    obtain ⟨inv,c,-,-,hx⟩ | hk := next_store hst
    · obtain ⟨hactive,-⟩ := seal_created hx hnew.1 hr ht ha
      exact fun hadmin => (reaches_roles hpre).admin a hadmin hactive
    · rw [hk _ (by simp),hnew.1] at hr
      cases hr

/-- The admin proposes a successor, appoints an issuer that lets delegate 5 seal for it, and
hands over. -/
def handedOver : List Label :=
  [.call ⟨1⟩ (.init ⟨1⟩),
    .call ⟨1⟩ (.proposeAdmin ⟨1⟩ ⟨3⟩),
    .call ⟨1⟩ (.addIssuer ⟨1⟩ ⟨3⟩ zero32),
    .call ⟨1⟩ (.addIssuer ⟨1⟩ ⟨8⟩ zero32),
    .call ⟨8⟩ (.grantDelegation ⟨8⟩ ⟨5⟩ 2 3600),
    .call ⟨3⟩ (.acceptAdmin ⟨3⟩)]

def sealed : Event World Label :=
  (deploy handedOver).2.event stellarHost
    (.call ⟨5⟩ (.registerSealDelegated ⟨5⟩ ⟨8⟩ (fill 1) zero32 (fill 1)))

theorem roles_separated_handed_over :
    (deploy handedOver).2.store .Admin = some ⟨3⟩ ∧
    hasActiveIssuer (deploy handedOver).2.store ⟨3⟩ = false ∧
    RegistersProof sealed (fill 1) ∧ sealed.pre.store .Admin ≠ some ⟨8⟩ := by
  have admin : (deploy handedOver).2.store .Admin=some ⟨3⟩ := by decide +kernel
  have new : RegistersProof sealed (fill 1) := ⟨by decide +kernel,by decide +kernel⟩
  have stored : (sealed.post.store (.Proof (fill 1))).any (fun r =>
      decide (r.tier=TIER_PUBLIC_SEAL) && decide (r.issuer=some ⟨8⟩))=true := by
    decide +kernel
  obtain ⟨r,hr,hrecord⟩ := (Option.any_eq_true ..).1 stored
  rw [Bool.and_eq_true,decide_eq_true_eq,decide_eq_true_eq] at hrecord
  obtain ⟨hadmin,-,-⟩ := roles_separated (deploy_reaches handedOver)
  obtain ⟨-,-,hseal⟩ := roles_separated ((deploy_reaches handedOver).event _)
  exact ⟨admin,hadmin ⟨3⟩ admin,new,
    hseal sealed List.mem_cons_self _ r ⟨8⟩ new hr hrecord.1 hrecord.2⟩

end Harpocrates.Registry
