import Harpocrates.Registry.Nullifiers

namespace Harpocrates.Registry

open Framework Tx List

/-- The tier a call registers for. -/
def Call.tier : Call → Option Nat
  | .registerAnonymous _ _ _ _ _ _ => some TIER_SILENT_WITNESS
  | .registerAnonymousVerified _ _ _ _ _ => some TIER_SILENT_WITNESS
  | .registerBatchVerified _ _ _ _ _ => some TIER_SILENT_WITNESS
  | .registerSource _ _ _ _ => some TIER_CONSISTENT_SOURCE
  | .registerSourceBatchRoot _ _ _ _ => some TIER_CONSISTENT_SOURCE
  | .registerSourceDelegated _ _ _ _ _ => some TIER_CONSISTENT_SOURCE
  | .registerSeal _ _ _ _ => some TIER_PUBLIC_SEAL
  | .registerSealDelegated _ _ _ _ _ => some TIER_PUBLIC_SEAL
  | _ => none

/-- The pause domain of a tier. -/
def tierDomain (tier : Nat) : UInt32 :=
  if tier = TIER_SILENT_WITNESS then PAUSE_DOMAIN_TIER1_REGISTRATION
  else if tier = TIER_CONSISTENT_SOURCE then PAUSE_DOMAIN_TIER2_REGISTRATION
  else PAUSE_DOMAIN_TIER3_REGISTRATION

def Call.isBatch : Call → Bool
  | .registerBatchVerified _ _ _ _ _ => true
  | _ => false

variable {s s' : Storage} {c : Call} {u : Unit} {p : Bytes32}

variable {env : Env}

theorem unpaused_of_bind {α : Type} {d : UInt32} {f : Unit → M α} {a : α}
    (h : (requireDomainUnpaused env d >>= f) s=.ok (a,s')) :
    domainIsPaused s d env.timestamp=false := by
  obtain ⟨_,_,hd,-⟩ := (bind_ok ..).1 h
  exact ((requireDomainUnpaused_ok ..).1 hd).1

theorem exec_unpaused {tier : Nat} (h : exec env c s=.ok (u,s')) (hb : c.isBatch=false)
    (ht : c.tier=some tier) : domainIsPaused s (tierDomain tier) env.timestamp=false := by
  cases c with
  | registerAnonymous =>
    cases ht
    obtain ⟨_,h⟩ := (discard_ok ..).1 h
    exact unpaused_of_bind h
  | registerAnonymousVerified =>
    cases ht
    obtain ⟨_,h⟩ := (discard_ok ..).1 h
    obtain ⟨_,_,hl,h⟩ := (bind_ok ..).1 h
    obtain ⟨-,rfl⟩ := (VerifierContext.load_ok ..).1 hl
    exact unpaused_of_bind h
  | registerBatchVerified => cases hb
  | registerSource =>
    cases ht
    obtain ⟨_,h⟩ := (discard_ok ..).1 h
    obtain ⟨_,_,hi,h⟩ := (bind_ok ..).1 h
    obtain ⟨-,rfl⟩ := (requireInitialized_ok ..).1 hi
    exact unpaused_of_bind h
  | registerSourceBatchRoot =>
    cases ht
    obtain ⟨_,h⟩ := (discard_ok ..).1 h
    obtain ⟨_,_,hi,h⟩ := (bind_ok ..).1 h
    obtain ⟨-,rfl⟩ := (requireInitialized_ok ..).1 hi
    exact unpaused_of_bind h
  | registerSourceDelegated =>
    cases ht
    obtain ⟨_,h⟩ := (discard_ok ..).1 h
    exact unpaused_of_bind h
  | registerSeal =>
    cases ht
    obtain ⟨_,h⟩ := (discard_ok ..).1 h
    exact unpaused_of_bind h
  | registerSealDelegated =>
    cases ht
    obtain ⟨_,h⟩ := (discard_ok ..).1 h
    exact unpaused_of_bind h
  | _ => cases ht

theorem mem_witnessOps {q v n : Bytes32} {e : Entry Bytes32 Bytes32}
    (h : .record p e∈witnessOps s q v n) : e.tier=TIER_SILENT_WITNESS := by
  unfold witnessOps at h
  split at h
  · obtain ⟨-,rfl⟩ : p=q ∧ e=⟨v,some n,TIER_SILENT_WITNESS⟩ := by simpa using h
    rfl
  · simp at h

theorem ops_tier {e : Entry Bytes32 Bytes32} (h : .record p e∈c.ops s) :
    c.tier=some e.tier := by
  cases c with
  | registerAnonymous => exact congrArg some (mem_witnessOps h).symm
  | registerAnonymousVerified => exact congrArg some (mem_witnessOps h).symm
  | registerBatchVerified =>
    obtain ⟨item,-,h⟩ := mem_flatMap.1 h
    exact congrArg some (mem_witnessOps h).symm
  | checkNonRevocation =>
    simp only [Call.ops,spendOps] at h
    split at h <;> simp at h
  | verifySelectiveDisclosure =>
    simp only [Call.ops,spendOps] at h
    split at h <;> simp at h
  | registerSource =>
    obtain ⟨-,rfl⟩ := Op.record.inj (mem_singleton.1 h)
    rfl
  | registerSeal =>
    obtain ⟨-,rfl⟩ := Op.record.inj (mem_singleton.1 h)
    rfl
  | registerSourceDelegated =>
    obtain ⟨-,rfl⟩ := Op.record.inj (mem_singleton.1 h)
    rfl
  | registerSealDelegated =>
    obtain ⟨-,rfl⟩ := Op.record.inj (mem_singleton.1 h)
    rfl
  | _ => cases h

theorem exec_record_tier {r : ProofRecord} (h : exec env c s=.ok (u,s'))
    (hr : s' (.Proof p)=some r) :
    (∃ r₀, s (.Proof p)=some r₀ ∧ r₀.tier=r.tier) ∨ c.tier=some r.tier := by
  have he : (book s').entry p=some r.entry := book_entry_some.2 ⟨r,hr,rfl⟩
  rw [(exec_registers h).refines] at he
  rcases Book.entry_applyAll_cases he with h | h
  · exact .inr (ops_tier h)
  · obtain ⟨r₀,hr₀,heq⟩ := book_entry_some.1 h
    exact .inl ⟨r₀,hr₀,congrArg Entry.tier heq⟩

theorem exec_sourceBatch {root : Bytes32} (h : exec env c s=.ok (u,s'))
    (ht : c.tier≠some TIER_CONSISTENT_SOURCE) :
    s' (.SourceBatch root)=s (.SourceBatch root) := by
  refine exec_footprint h ?_
  cases c with
  | registerSourceBatchRoot => exact absurd rfl ht
  | _ => exact notMem_of_elem rfl

def batchUnpaused (w : World) (c : Call) : Bool :=
  !c.isBatch || !domainIsPaused w.store PAUSE_DOMAIN_TIER1_REGISTRATION w.ledger.timestamp

/-- A registration call of a paused tier does not go through. -/
theorem exec_paused {host : Host} {w : World} {inv : Invocation} {tier : Nat}
    (hp : domainIsPaused w.store (tierDomain tier) w.ledger.timestamp=true)
    (hc : batchUnpaused w c=true) (ht : c.tier=some tier) :
    ∃ err, exec (w.env host inv) c w.store=.error err := by
  cases hx : exec (w.env host inv) c w.store with
  | error err => exact ⟨err,rfl⟩
  | ok r =>
    cases hb : c.isBatch with
    | false =>
      have hu := exec_unpaused hx hb ht
      rw [World.env_timestamp,hp] at hu
      cases hu
    | true =>
      cases c with
      | registerBatchVerified =>
        cases ht
        replace hp : domainIsPaused w.store PAUSE_DOMAIN_TIER1_REGISTRATION
          w.ledger.timestamp=true := hp
        simp [batchUnpaused,hp,hb] at hc
      | _ => cases hb

/-- While a tier is paused, no step stores a new record of that tier or, for sources, a new
batch root, and every registration call of that tier fails and changes nothing, as long as no
batch is submitted while Tier 1 is paused. -/
theorem paused_tier_contained {host : Host} {start : Ledger} {tr : Trace} {w : World}
    {e : Event World Label} {tier : Nat} (h : Reaches host start tr w)
    (hc : ∀ e ∈ tr, meets batchUnpaused e = true) (he : e ∈ tr)
    (hp : domainIsPaused e.pre.store (tierDomain tier) e.pre.ledger.timestamp = true) :
    (∀ p r, e.post.store (.Proof p) = some r → r.tier = tier →
      ∃ r₀, e.pre.store (.Proof p) = some r₀ ∧ r₀.tier = tier) ∧
    (tier = TIER_CONSISTENT_SOURCE → ∀ root,
      e.post.store (.SourceBatch root) = e.pre.store (.SourceBatch root)) ∧
    (∀ inv c, e.label = .invoke inv c → c.tier = some tier →
      (∃ err, exec (e.pre.env host inv) c e.pre.store = .error err) ∧ e.post = e.pre) := by
  have hst := h.next_eq he
  refine ⟨?_,?_,?_⟩
  · intro p r hr ht
    obtain ⟨inv,c,hl,-,hx⟩ | hk := next_store hst
    · rcases exec_record_tier hx hr with ⟨r₀,hr₀,heq⟩ | htier
      · exact ⟨r₀,hr₀,heq.trans ht⟩
      · have hm := hc e he
        simp only [meets,hl] at hm
        obtain ⟨err,herr⟩ := exec_paused hp hm (htier.trans (congrArg some ht))
        rw [herr] at hx
        cases hx
    · rw [hk _ (by simp)] at hr
      exact ⟨r,hr,ht⟩
  · intro heq root
    subst heq
    obtain ⟨inv,c,hl,-,hx⟩ | hk := next_store hst
    · refine exec_sourceBatch hx fun htier => ?_
      have hm := hc e he
      simp only [meets,hl] at hm
      obtain ⟨err,herr⟩ := exec_paused hp hm htier
      rw [herr] at hx
      cases hx
    · exact hk _ (by simp)
  · intro inv c hl htier
    have hm := hc e he
    simp only [meets,hl] at hm
    obtain ⟨err,herr⟩ := exec_paused hp hm htier
    refine ⟨⟨err,herr⟩,?_⟩
    rw [← hst,hl]
    simp [next,herr]

def tierOnePaused : List Label := deployment ⟨1⟩ ⟨2⟩++
  [.call ⟨1⟩ (.pause ⟨1⟩ PAUSE_DOMAIN_TIER1_REGISTRATION 3600)]

def browserWhilePaused : Event World Label :=
  (deploy tierOnePaused).2.event stellarHost (.call ⟨3⟩ (registerBrowser 10 20 7))

theorem paused_tier_contained_browser : browserWhilePaused.post = browserWhilePaused.pre :=
  ((paused_tier_contained ((deploy_reaches tierOnePaused).event _) (by decide +kernel)
    (mem_cons_self : browserWhilePaused ∈ _)
    (show domainIsPaused _ (tierDomain TIER_SILENT_WITNESS) _ = true by decide +kernel)).2.2
    _ _ rfl rfl).2

def batchWhilePaused : Event World Label :=
  (deploy tierOnePaused).2.event stellarHost (.call ⟨3⟩ (registerPair 21 10 7 11 8))

/-- A batch goes through while Tier 1 is paused. -/
theorem batch_registers_while_paused : ∃ tr, Reaches stellarHost genesis tr batchWhilePaused.pre ∧
    domainIsPaused batchWhilePaused.pre.store PAUSE_DOMAIN_TIER1_REGISTRATION
      batchWhilePaused.pre.ledger.timestamp = true ∧
    Succeeds stellarHost batchWhilePaused (registerPair 21 10 7 11 8) ∧
    batchWhilePaused.pre.store (.Proof (deriveElementProofId (fill 21) 0)) = none ∧
    (batchWhilePaused.post.store (.Proof (deriveElementProofId (fill 21) 0))).map (·.tier) =
      some TIER_SILENT_WITNESS :=
  ⟨_,deploy_reaches tierOnePaused,by decide +kernel,succeeds_event (by decide +kernel),
    by decide +kernel,by decide +kernel⟩

theorem forEach_pause {bits : List UInt32} {r : PauseRecord}
    (h : forEach bits (fun bit => store (.Pause bit) r) s=.ok (u,s')) (b : UInt32) :
    s' (.Pause b)=if b∈bits then some r else s (.Pause b) := by
  induction bits generalizing s with
  | nil =>
    obtain ⟨-,rfl⟩ := (pure_ok ..).1 h
    simp
  | cons bit bits ih =>
    obtain ⟨_,t,ht,h⟩ := (bind_ok ..).1 h
    obtain rfl := (set_ok ..).1 ht
    rw [ih h]
    by_cases hb : b=bit
    · subst hb
      simp
    · have hk : DataKey.Pause b≠.Pause bit := by simpa using hb
      simp [hb,hk]

theorem pause_ok {caller : Address} {domain : UInt32} {durationSecs n : Nat}
    (h : pause env caller domain durationSecs s=.ok (n,s')) (b : UInt32) : s' (.Pause b) =
      if b∈domainBits domain then some (pauseRecord env caller durationSecs)
      else s (.Pause b) := by
  simp only [pause,bind_ok,requirePauser_ok,failIf_ok,pure_ok] at h
  obtain ⟨_,_,⟨-,rfl⟩,_,_,⟨rfl,-⟩,_,_,⟨-,rfl⟩,_,_,h,-,rfl⟩ := h
  exact forEach_pause h b

/-- The call leaves the pause of a domain alone or replaces it by one that lasts at least as
long. -/
def prolongs (now : Nat) (b : UInt32) (r : PauseRecord) : Call → Bool
  | .pause _ domain durationSecs =>
    !(domainBits domain).contains b || r.expiresAt ≤ satAdd64 now durationSecs
  | _ => true

theorem exec_pause_kept_iff {b : UInt32} {r : PauseRecord} (h : exec env c s=.ok (u,s'))
    (hc : ∀ admin, s .Admin=some admin → c.caller≠some admin) (hr : s (.Pause b)=some r) :
    (∃ r', s' (.Pause b)=some r' ∧ r.expiresAt≤r'.expiresAt) ↔
      prolongs env.timestamp b r c=true := by
  cases c with
  | pause caller domain durationSecs =>
    obtain ⟨_,h⟩ := (discard_ok ..).1 h
    rw [pause_ok h b]
    by_cases hb : b∈domainBits domain
    · simp [prolongs,hb,pauseRecord]
    · simp [prolongs,hb,hr]
  | unpause admin domain =>
    simp only [exec,unpause,bind_ok,failIf_ok,requireAdmin_ok] at h
    obtain ⟨_,_,⟨-,rfl⟩,_,_,⟨ha,-,rfl⟩,-⟩ := h
    exact absurd rfl (hc admin ha)
  | _ =>
    have hkept : s' (.Pause b)=s (.Pause b) := exec_footprint h (notMem_of_elem rfl)
    exact iff_of_true ⟨r,hkept.trans hr,le_refl _⟩ rfl

/-- In every run, a call that goes through and does not come from the admin keeps a pause
running at least as long, exactly when it is not a pause of that domain that ends earlier. -/
theorem pause_kept_iff {host : Host} {start : Ledger} {tr : Trace} {w : World}
    {e : Event World Label} {inv : Invocation} {c : Call} {b : UInt32} {r : PauseRecord}
    (h : Reaches host start tr w) (he : e ∈ tr) (hl : e.label = .invoke inv c)
    (hok : (exec (e.pre.env host inv) c e.pre.store).isOk = true)
    (hc : ∀ admin, e.pre.store .Admin = some admin → c.caller ≠ some admin)
    (hr : e.pre.store (.Pause b) = some r) :
    (∃ r', e.post.store (.Pause b) = some r' ∧ r.expiresAt ≤ r'.expiresAt) ↔
      prolongs e.pre.ledger.timestamp b r c = true := by
  have hx := exec_event hok
  rw [← hl] at hx
  have hpost : (e.pre.event host e.label).post=e.post := h.next_eq he
  rw [hpost] at hx
  exact exec_pause_kept_iff hx hc hr

def weekPaused : List Label :=
  [.call ⟨1⟩ (.init ⟨1⟩),.call ⟨1⟩ (.setGuardian ⟨1⟩ ⟨4⟩),
    .call ⟨1⟩ (.pause ⟨1⟩ PAUSE_DOMAIN_TIER1_REGISTRATION MAX_PAUSE_DURATION_SECS)]

def weekPause : PauseRecord := ⟨⟨1⟩,genesis.timestamp,genesis.timestamp+MAX_PAUSE_DURATION_SECS⟩

def guardianPause (domain : UInt32) : Event World Label :=
  (deploy weekPaused).2.event stellarHost (.call ⟨4⟩ (.pause ⟨4⟩ domain 1))

theorem weekPaused_admin (domain : UInt32) (admin : Address)
    (h : (deploy weekPaused).2.store .Admin=some admin) :
    (Call.pause ⟨4⟩ domain 1).caller≠some admin := by
  have ha : (deploy weekPaused).2.store .Admin=some ⟨1⟩ := by decide +kernel
  obtain rfl : admin=⟨1⟩ := Option.some.inj (h.symm.trans ha)
  intro heq
  have hcaller : some (⟨4⟩ : Address)=some ⟨1⟩ := heq
  exact absurd hcaller (by decide)

theorem pause_kept_iff_other_tier :
    ∃ r', (guardianPause PAUSE_DOMAIN_TIER2_REGISTRATION).post.store
      (.Pause PAUSE_DOMAIN_TIER1_REGISTRATION) = some r' ∧ weekPause.expiresAt ≤ r'.expiresAt :=
  (pause_kept_iff ((deploy_reaches weekPaused).event _) mem_cons_self rfl
    (by decide +kernel) (weekPaused_admin _)
    (show (deploy weekPaused).2.store (.Pause PAUSE_DOMAIN_TIER1_REGISTRATION)=some weekPause
      by decide +kernel)).2 (by decide +kernel)

/-- The guardian ends the admin's pause of a week after a second. -/
theorem guardian_shortens_pause :
    (∃ tr, Reaches stellarHost genesis tr (guardianPause 1).pre) ∧
    Succeeds stellarHost (guardianPause 1) (.pause ⟨4⟩ 1 1) ∧
    (guardianPause 1).pre.store .Admin = some ⟨1⟩ ∧
    ((guardianPause 1).pre.store (.Pause 1)).map (·.expiresAt) =
      some ((guardianPause 1).pre.ledger.timestamp+604800) ∧
    ((guardianPause 1).post.store (.Pause 1)).map (·.expiresAt) =
      some ((guardianPause 1).pre.ledger.timestamp+1) :=
  ⟨⟨_,deploy_reaches weekPaused⟩,succeeds_event (by decide +kernel),by decide +kernel,
    by decide +kernel,by decide +kernel⟩

end Harpocrates.Registry
