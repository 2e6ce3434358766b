import Harpocrates.Registry.GovernanceActions

namespace Harpocrates.Registry

open Framework Tx

@[ext] structure Standing where
  record : Option IssuerRecord
  rotation : Option IssuerRotationRecord

namespace Standing

/-- What can happen to an issuer, other than being added. -/
inductive Step (now : Nat) (S : Standing) : Standing → Prop
  | keep : Step now S S
  | revoke (r : IssuerRecord) (record : S.record = some r) :
      Step now S ⟨some { r with active := false },none⟩
  | update (r : IssuerRecord) (metadataHash : Bytes32) (record : S.record = some r)
      (active : r.active = true) : Step now S { S with record := some { r with metadataHash } }
  | rotate (r : IssuerRecord) (w : IssuerRotationRecord) (record : S.record = some r)
      (active : r.active = true) (from_now : w.rotatedAt = now)
      (opens : w.rotatedAt ≤ w.graceExpiresAt)
      (bounded : w.graceExpiresAt ≤ w.rotatedAt+MAX_ISSUER_ROTATION_GRACE_SECS) :
      Step now S ⟨some { r with active := false },some w⟩
  | finalize (w : IssuerRotationRecord) (rotation : S.rotation = some w)
      (lapsed : w.graceExpiresAt ≤ now) : Step now S { S with rotation := none }

def added (metadataHash : Bytes32) : Standing := ⟨some ⟨metadataHash,true⟩,none⟩

/-- A window is open only for an issuer that is known and no longer active, and its length is
bounded. -/
def Sound (S : Standing) : Prop :=
  ∀ w, S.rotation = some w → (∃ r, S.record = some r ∧ r.active = false) ∧
    w.rotatedAt ≤ w.graceExpiresAt ∧
    w.graceExpiresAt ≤ w.rotatedAt+MAX_ISSUER_ROTATION_GRACE_SECS

def Out (S : Standing) : Prop :=
  (∀ r, S.record = some r → r.active = false) ∧ S.rotation = none

variable {now : Nat} {S S' : Standing}

theorem Step.of_parts {T : Standing} (h : Step now S T) (hr : S'.record=T.record)
    (hw : S'.rotation=T.rotation) : Step now S S' := by
  rw [Standing.ext hr hw]
  exact h

theorem added_sound (m : Bytes32) : (added m).Sound := by
  intro w hw
  cases hw

theorem Step.sound (h : Step now S S') (hS : S.Sound) : S'.Sound := by
  intro v hv
  cases h with
  | keep => exact hS v hv
  | revoke r record => cases hv
  | update r m record active =>
    obtain ⟨⟨r',hr',inactive⟩,-⟩ := hS v hv
    cases record.symm.trans hr'
    rw [active] at inactive
    cases inactive
  | rotate r w record active from_now opens bounded =>
    cases hv
    exact ⟨⟨_,rfl,rfl⟩,opens,bounded⟩
  | finalize w rotation lapsed => cases hv

theorem Step.out (h : Step now S S') (hS : S.Out) : S'.Out := by
  have inactive : ∀ r, S.record=some r → r.active≠true := by
    intro r hr active
    rw [hS.1 r hr] at active
    cases active
  cases h with
  | keep => exact hS
  | revoke r record =>
    refine ⟨fun r' hr' => ?_,rfl⟩
    cases hr'
    rfl
  | update r m record active => exact absurd active (inactive r record)
  | rotate r w record active => exact absurd active (inactive r record)
  | finalize w rotation lapsed => exact ⟨hS.1,rfl⟩

end Standing

def standing (s : Storage) (k : Address) : Standing := ⟨s (.Issuer k),s (.IssuerRotation k)⟩

variable {s s' : Storage} {k : Address} {host : Host}

theorem standing_kept {now : Nat} (hr : s' (.Issuer k)=s (.Issuer k))
    (hw : s' (.IssuerRotation k)=s (.IssuerRotation k)) :
    Standing.Step now (standing s k) (standing s' k) :=
  .of_parts .keep hr hw

theorem standing_deactivated (s : Storage) (k i : Address) (r : IssuerRecord) :
    standing (deactivated s i r) k =
      if k=i then ⟨some { r with active := false },none⟩ else standing s k := by
  by_cases hk : k=i
  · subst hk
    simp [standing,deactivated]
  · simp [standing,deactivated,hk]

theorem deactivated_step {now : Nat} {i : Address} {r : IssuerRecord}
    (hr : s (.Issuer i)=some r) (k : Address) :
    Standing.Step now (standing s k) (standing (deactivated s i r) k) := by
  rw [standing_deactivated]
  split
  · rename_i hk
    subst hk
    exact .revoke r hr
  · exact .keep

theorem TimelockEffect.standing {env : Env} {p : TimelockProposal} (h : TimelockEffect env p s s')
    (k : Address) : Standing.Step env.timestamp (standing s k) (standing s' k) := by
  cases h with
  | revokeIssuer action r record => exact deactivated_step record k
  | _ =>
    exact standing_kept (by simp) (by simp)

theorem CouncilEffect.standing {env : Env} {p : CouncilProposal} (h : CouncilEffect env p s s')
    (k : Address) : Standing.Step env.timestamp (standing s k) (standing s' k) := by
  cases h with
  | revokeIssuer action r record => exact deactivated_step record k
  | upgradeStorage action _ kept =>
    exact standing_kept (kept _ (by simp)) (kept _ (by simp))
  | _ =>
    exact standing_kept (by simp [installedStorage,activatedStorage])
      (by simp [installedStorage,activatedStorage])

/-- Every call other than the addition of the issuer is a step of its standing. -/
theorem exec_standing {env : Env} {c : Call} {u : Unit} (h : exec env c s=.ok (u,s'))
    (k : Address) :
    (∃ admin m, c=.addIssuer admin k m ∧ standing s' k=.added m) ∨
      Standing.Step env.timestamp (standing s k) (standing s' k) := by
  cases c with
  | addIssuer admin issuer m =>
    simp only [exec,addIssuer,bind_ok,requireAdmin_ok,requireIssuerRoleAvailable_ok,get_ok,
      failIf_ok,set_ok,remove_ok] at h
    obtain ⟨_,_,⟨-,-,rfl⟩,_,_,⟨rfl,-⟩,_,_,⟨-,rfl⟩,_,_,⟨-,rfl⟩,_,_,rfl,rfl⟩ := h
    by_cases hk : k=issuer
    · subst hk
      exact .inl ⟨admin,m,rfl,by simp [standing,Standing.added]⟩
    · exact .inr (standing_kept (by simp [hk]) (by simp [hk]))
  | revokeIssuer admin issuer =>
    simp only [exec,revokeIssuer,bind_ok,requireAdmin_ok,requireNoCouncil_ok,getIssuerRecord_ok,
      set_ok,remove_ok] at h
    obtain ⟨_,_,⟨-,-,rfl⟩,_,_,⟨-,rfl⟩,r,_,⟨hr,rfl⟩,_,_,rfl,rfl⟩ := h
    exact .inr (deactivated_step hr k)
  | updateIssuerMetadata admin issuer m =>
    simp only [exec,updateIssuerMetadata,bind_ok,requireAdmin_ok,getIssuerRecord_ok,
      failIf_ok,set_ok] at h
    obtain ⟨_,_,⟨-,-,rfl⟩,r,_,⟨hr,rfl⟩,_,_,⟨hactive,rfl⟩,rfl⟩ := h
    by_cases hk : k=issuer
    · subst hk
      exact .inr (.of_parts (.update r m hr (by simpa using hactive)) (by simp [standing])
        (by simp [standing]))
    · exact .inr (standing_kept (by simp [hk]) (by simp))
  | rotateIssuer admin previous replacement grace =>
    obtain ⟨_,h⟩ := (discard_ok ..).1 h
    simp only [rotateIssuer,bind_ok,requireAdmin_ok,failIf_ok,getIssuerRecord_ok,set_ok,
      pure_ok] at h
    obtain ⟨_,_,⟨-,-,rfl⟩,_,_,⟨-,rfl⟩,r,_,⟨hr,rfl⟩,_,_,⟨hactive,rfl⟩,_,_,⟨-,rfl⟩,h⟩ := h
    obtain ⟨_,_,⟨-,rfl⟩,_,_,⟨hmax,rfl⟩,_,_,⟨-,rfl⟩,_,_,rfl,_,_,rfl,-,rfl⟩ := h
    generalize (if grace=0 then DEFAULT_ISSUER_ROTATION_GRACE_SECS else grace)=g at hmax
    by_cases hk : k=previous
    · subst hk
      have bounded : g≤MAX_ISSUER_ROTATION_GRACE_SECS :=
        Nat.le_of_not_lt (of_decide_eq_false hmax)
      exact .inr (.of_parts (.rotate r ⟨k,replacement,env.timestamp,env.timestamp+g,g⟩ hr
        (by simpa using hactive) rfl (Nat.le_add_right _ _) (Nat.add_le_add_left bounded _))
        (by simp [standing]) (by simp [standing]))
    · exact .inr (standing_kept (by simp [hk]) (by simp [hk]))
  | finalizeIssuerRotation issuer =>
    simp only [exec,finalizeIssuerRotation,bind_ok,get_ok,unwrap_ok,failIf_ok,
      remove_ok] at h
    obtain ⟨_,_,⟨rfl,rfl⟩,w,_,⟨hw,rfl⟩,_,_,⟨hlapsed,rfl⟩,rfl⟩ := h
    by_cases hk : k=issuer
    · subst hk
      exact .inr (.of_parts (.finalize w hw (Nat.le_of_not_lt (of_decide_eq_false hlapsed)))
        (by simp [standing]) (by simp [standing]))
    · exact .inr (standing_kept (by simp) (by simp [hk]))
  | executeTimelockedProposal caller id =>
    obtain ⟨p,hp⟩ := executeTimelockedProposal_ok h
    exact .inr (hp.effect.standing k)
  | emergencyExecuteTimelock admin id =>
    obtain ⟨p,hp⟩ := emergencyExecuteTimelock_ok h
    exact .inr (hp.effect.standing k)
  | executeCouncilProposal caller id =>
    obtain ⟨_,p,hp⟩ := executeCouncilProposal_ok h
    exact .inr (hp.effect.standing k)
  | _ =>
    exact .inr (standing_kept (exec_footprint h (notMem_of_elem rfl))
      (exec_footprint h (notMem_of_elem rfl)))

theorem next_standing {w w' : World} {l : Label} (hst : next host w l=w') (k : Address) :
    (∃ admin m, Succeeds host ⟨w,l,w'⟩ (.addIssuer admin k m) ∧ standing w'.store k=.added m) ∨
      Standing.Step w.ledger.timestamp (standing w.store k) (standing w'.store k) := by
  obtain ⟨inv,c,rfl,-,hx⟩ | hk := next_store hst
  · obtain ⟨admin,m,rfl,hadded⟩ | hstep := exec_standing hx k
    · exact .inl ⟨admin,m,⟨inv,rfl,hx⟩,hadded⟩
    · exact .inr hstep
  · exact .inr (standing_kept (hk _ (by simp)) (hk _ (by simp)))

theorem reaches_standing {start : Ledger} {tr : Trace} {w : World} (h : Reaches host start tr w)
    (k : Address) : (standing w.store k).Sound := by
  refine Run.state_invariant (I := fun w : World => (standing w.store k).Sound) ?_ ?_ h
  · intro v hv
    cases hv
  · intro w l w' hw hst
    obtain ⟨_,m,-,hadded⟩ | hstep := next_standing hst k
    · rw [hadded]
      exact Standing.added_sound m
    · exact hstep.sound hw

def RevokesIssuer (host : Host) (e : Event World Label) (k : Address) : Prop :=
  ∃ p : Path, p.carries (.revokeIssuer k) e.pre.store = true ∧
    Succeeds host e (p.call (.revokeIssuer k))

def AddsIssuer (host : Host) (e : Event World Label) (k : Address) : Prop :=
  ∃ admin metadataHash, Succeeds host e (.addIssuer admin k metadataHash)

def Seals (host : Host) (e : Event World Label) (k : Address) : Prop :=
  ∃ v m p, Succeeds host e (.registerSeal k v m p) ∨
    ∃ delegate, Succeeds host e (.registerSealDelegated delegate k v m p)

theorem RevokesIssuer.out {e : Event World Label} (h : RevokesIssuer host e k) :
    (standing e.post.store k).Out := by
  obtain ⟨p,hp,inv,-,hx⟩ := h
  rw [exec_path hp (authorised_of_exec hp hx)] at hx
  change ((GovernanceAction.revokeIssuer k).main >>= fun _ => _) _ = _ at hx
  obtain ⟨_,t,hmain,hrest⟩ := (bind_ok ..).1 hx
  simp only [GovernanceAction.main,bind_ok,getIssuerRecord_ok,set_ok,remove_ok] at hmain
  obtain ⟨r,_,⟨-,rfl⟩,_,_,rfl,rfl⟩ := hmain
  have unchanged : Store.erase (Store.set (p.mark e.pre.store) (.Issuer k)
      { r with active := false }) (.IssuerRotation k)=e.post.store := by
    split at hrest <;> exact ((pure_ok ..).1 hrest).2
  rw [← unchanged]
  refine ⟨fun r' hr' => ?_,by simp [standing]⟩
  have stored : some { r with active := false }=some r' := by simpa [standing] using hr'
  rw [← Option.some.inj stored]

theorem Standing.Out.not_active (h : (standing s k).Out) : hasActiveIssuer s k=false := by
  cases hr : s (.Issuer k) with
  | none => simp [hasActiveIssuer,hr]
  | some r => simp [hasActiveIssuer,hr,h.1 r hr]

theorem Seals.active {e : Event World Label} (h : Seals host e k) :
    hasActiveIssuer e.pre.store k=true := by
  obtain ⟨v,m,p,⟨inv,-,hx⟩ | ⟨d,inv,-,hx⟩⟩ := h
  · obtain ⟨_,hx⟩ := (discard_ok ..).1 hx
    exact (registerSeal_ok hx).2.2.1
  · obtain ⟨_,hx⟩ := (discard_ok ..).1 hx
    obtain ⟨-,_,-,-,-,hactive,-⟩ := registerSealDelegated_ok hx
    exact hactive

theorem isIssuerVerifiable_iff (h : (standing s k).Sound) (now : Nat) :
    isIssuerVerifiable now s k=true ↔ hasActiveIssuer s k=true ∨
      ∃ w, s (.IssuerRotation k)=some w ∧ now<w.graceExpiresAt := by
  cases hr : s (.Issuer k) with
  | none =>
    -- without a record there is no window either
    have closed : ∀ w, s (.IssuerRotation k)≠some w := by
      intro w hw
      obtain ⟨⟨r,hr',-⟩,-⟩ := h w hw
      cases hr.symm.trans hr'
    simp [isIssuerVerifiable,hasActiveIssuer,hr,closed]
  | some r =>
    cases hactive : r.active with
    | true => simp [isIssuerVerifiable,hasActiveIssuer,hr,hactive]
    | false =>
      cases hw : s (.IssuerRotation k) <;>
        simp [isIssuerVerifiable,hasActiveIssuer,hr,hactive,hw]

/-- Issuers rotate as the protocol says, and a revoked issuer has no standing until it is added
again. -/
theorem issuer_standing {host : Host} {start : Ledger} {tr : Trace} {w : World}
    (h : Reaches host start tr w) :
    (∀ k v, w.store (.IssuerRotation k) = some v →
      (∃ r, w.store (.Issuer k) = some r ∧ r.active = false) ∧ v.rotatedAt ≤ v.graceExpiresAt ∧
      v.graceExpiresAt-v.rotatedAt ≤ MAX_ISSUER_ROTATION_GRACE_SECS) ∧
    (∀ k now, isIssuerVerifiable now w.store k = true ↔ hasActiveIssuer w.store k = true ∨
      ∃ v, w.store (.IssuerRotation k) = some v ∧ now < v.graceExpiresAt) ∧
    ∀ tr₁ e tr₂ k, tr = tr₂++e::tr₁ → RevokesIssuer host e k →
      (∀ f ∈ tr₂, ¬ AddsIssuer host f k) →
      (∀ now, isIssuerVerifiable now w.store k = false) ∧ ∀ f ∈ tr₂, ¬ Seals host f k := by
  refine ⟨?_,?_,?_⟩
  · intro k v hv
    obtain ⟨hrecord,opens,bounded⟩ := reaches_standing h k v hv
    exact ⟨hrecord,opens,by omega⟩
  · intro k now
    exact isIssuerVerifiable_iff (reaches_standing h k) now
  · intro tr₁ e tr₂ k htr hrevoked hnone
    subst htr
    obtain ⟨-,-,hlater⟩ := Run.split h
    -- from the revocation on, the issuer is out at every step
    have out := Run.throughout (I := fun w : World => (standing w.store k).Out) hrevoked.out
      (fun w l w' hw hst hadd => by
        obtain ⟨admin,m,hs,-⟩ | hstep := next_standing hst k
        · exact absurd ⟨admin,m,hs⟩ hadd
        · exact hstep.out hw) hlater hnone
    constructor
    · intro now
      refine Bool.eq_false_iff.2 fun hv => ?_
      obtain hactive | ⟨v,hv,-⟩ := (isIssuerVerifiable_iff (reaches_standing h k) now).1 hv
      · rw [out.2.not_active] at hactive
        cases hactive
      · cases out.2.2.symm.trans hv
    · intro f hf hseal
      have inactive := (out.1 f hf).not_active
      rw [hseal.active] at inactive
      cases inactive

/-- Issuer 3 replaces issuer 2, and the revocation of issuer 2 is proposed. -/
def rotatedOut : List Label :=
  [.call ⟨1⟩ (.init ⟨1⟩),
    .call ⟨1⟩ (.addIssuer ⟨1⟩ ⟨2⟩ zero32),
    .call ⟨1⟩ (.addIssuer ⟨1⟩ ⟨3⟩ zero32),
    .call ⟨1⟩ (.rotateIssuer ⟨1⟩ ⟨2⟩ ⟨3⟩ 3600),
    .call ⟨1⟩ (.proposeTimelockedAction ⟨1⟩ 2 ⟨2⟩ zero32)]

def revokedInGrace : Event World Label :=
  (deploy rotatedOut).2.event stellarHost (.call ⟨1⟩ (.emergencyExecuteTimelock ⟨1⟩ 1))

theorem issuer_standing_revoked_in_grace :
    isIssuerVerifiable genesis.timestamp (deploy rotatedOut).2.store ⟨2⟩ = true ∧
    RevokesIssuer stellarHost revokedInGrace ⟨2⟩ ∧
    ∀ now, isIssuerVerifiable now revokedInGrace.post.store ⟨2⟩ = false := by
  have revoked : RevokesIssuer stellarHost revokedInGrace ⟨2⟩ :=
    ⟨.emergency ⟨1⟩ 1,by decide +kernel,succeeds_event (by decide +kernel)⟩
  obtain ⟨-,-,hout⟩ := issuer_standing ((deploy_reaches rotatedOut).event _)
  exact ⟨by decide +kernel,revoked,(hout _ revokedInGrace [] ⟨2⟩ rfl revoked (by simp)).1⟩

end Harpocrates.Registry
