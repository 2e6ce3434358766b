import Harpocrates.Registry.Refinement

namespace Harpocrates.Registry

open Framework List

variable {a : Address} {s : Storage} {n p : Bytes32} {w w' : World} {l : Label} {tr : Trace}
  {c : Call} {host : Host}

theorem book_spent_of_hasNullifier (h : hasNullifier s a n=false) : ¬ (book s).spent a n := by
  simp only [hasNullifier,Bool.or_eq_false_iff] at h
  simp [book,h.1]

/-- The proof was registered while `verifier` was the active one. -/
def RegisteredUnder (tr : Trace) (p : Bytes32) (verifier : Address) : Prop :=
  ∃ e ∈ tr, e.pre.store (.Proof p) = none ∧ e.post.store (.Proof p) ≠ none ∧
    e.pre.store .Verifier = some verifier

instance (tr : Trace) (p : Bytes32) (verifier : Address) :
    Decidable (RegisteredUnder tr p verifier) :=
  inferInstanceAs (Decidable (∃ e ∈ tr, _))

theorem registeredUnder_cons : RegisteredUnder (⟨w,l,w'⟩::tr) p a ↔
      (w.store (.Proof p)=none ∧ w'.store (.Proof p)≠none ∧ w.store .Verifier=some a) ∨
        RegisteredUnder tr p a := by
  simp [RegisteredUnder]

def carriedNullifier (s : Storage) (p : Bytes32) : Option Bytes32 :=
  (s (.Proof p)).bind ProofRecord.nullifier

theorem carriedNullifier_some :
    carriedNullifier s p=some n ↔ ∃ e, (book s).entry p=some e ∧ e.nullifier=some n := by
  unfold carriedNullifier
  constructor
  · intro h
    obtain ⟨r,hr,hn⟩ := Option.bind_eq_some_iff.1 h
    exact ⟨r.entry,book_entry_some.2 ⟨r,hr,rfl⟩,hn⟩
  · intro hyp
    obtain ⟨e,he,hn⟩ := hyp
    obtain ⟨r,hr,rfl⟩ := book_entry_some.1 he
    rw [hr]
    exact hn

/-- What the registration paths do not check themselves: the nullifier of a browser frame
is new to the active verifier, and the elements of a batch carry different ones. -/
def freshNullifiers (w : World) : Call → Bool
  | .registerAnonymousVerified _ _ _ publicInputs _ =>
    publicInputs.length != SILENT_WITNESS_BROWSER_V1_INPUT_LEN ||
      match w.store .Verifier with
      | some verifier => !hasNullifier w.store verifier (frameNullifier publicInputs)
      | none => true
  | .registerBatchVerified batchId _ publicInputs _ videoHashes =>
    decide ((batchOf batchId publicInputs videoHashes).map (·.element.nullifier)).Nodup
  | _ => true

theorem unspent_of_fresh {s' : Storage} (hr : Registers w.store c s')
    (hc : freshNullifiers w c=true) {e : Entry Bytes32 Bytes32}
    (he : .record p e∈c.ops w.store) (hn : e.nullifier=some n)
    (ha : w.store .Verifier=some a) : hasNullifier w.store a n=false := by
  cases hb : c.isBrowserWitness with
  | false => exact hr.unspent hb p e n a he hn ha
  | true =>
    cases c with
    | registerAnonymousVerified v m q publicInputs proof =>
      simp only [Call.isBrowserWitness,beq_iff_eq] at hb
      simp only [Call.ops,witnessOps,ha,mem_cons,Op.record.injEq,not_mem_nil,or_false,
        reduceCtorEq,false_or] at he
      obtain ⟨-,rfl⟩ := he
      obtain rfl : frameNullifier publicInputs=n := by simpa using hn
      simpa [freshNullifiers,hb,ha] using hc
    | _ => cases hb

/-- The registrations of one call carry different nullifiers. -/
theorem ops_nullifier_once (hc : freshNullifiers w c=true) {q : Bytes32}
    {e f : Entry Bytes32 Bytes32} (he : .record p e∈c.ops w.store)
    (hf : .record q f∈c.ops w.store) (hen : e.nullifier=some n) (hfn : f.nullifier=some n) :
    p=q := by
  rw [← Op.mem_entries] at he hf
  obtain ⟨o,ho⟩ | ⟨b,m,publicInputs,proof,vs,rfl,hs⟩ := ops_entries w.store c
  · rw [ho,Option.mem_toList] at he hf
    exact (Prod.mk.inj (Option.mem_unique he hf)).1
  · rw [hs] at he hf
    obtain ⟨i,hi,h1⟩ := mem_map.1 he
    obtain ⟨j,hj,h2⟩ := mem_map.1 hf
    cases h1
    cases h2
    have hij : i.element.nullifier=j.element.nullifier := Option.some.inj (hen.trans hfn.symm)
    rw [inj_on_of_nodup_map (of_decide_eq_true hc) hi hj hij]

/-- Nullifiers are single-use, and what was registered stays registered. -/
structure SoleUse (tr : Trace) (w : World) : Prop where
  use : (book w.store).SingleUse (RegisteredUnder tr)
  stays : ∀ p a, RegisteredUnder tr p a → (book w.store).entry p ≠ none

theorem SoleUse.of_book_eq (h : SoleUse tr w) (hb : book w'.store=book w.store) :
    SoleUse (⟨w,l,w'⟩::tr) w' := by
  have same : RegisteredUnder (⟨w,l,w'⟩::tr)=RegisteredUnder tr := by
    funext p a
    refine eq_iff_iff.2 (registeredUnder_cons.trans (or_iff_right ?_))
    intro hyp
    obtain ⟨h1,h2,-⟩ := hyp
    rw [← book_entry_none,← hb,book_entry_none] at h1
    exact h2 h1
  refine ⟨?_,?_⟩
  · rw [hb,same]
    exact h.use
  · rw [hb,same]
    exact h.stays

theorem SoleUse.step (h : SoleUse tr w) (hr : Registers w.store c w'.store)
    (hc : freshNullifiers w c=true) : SoleUse (⟨w,l,w'⟩::tr) w' := by
  refine ⟨?_,?_⟩
  · rw [hr.refines]
    refine Book.SingleUse.applyAll (w.store .Verifier) h.use h.stays ?_ ?_ ?_ ?_
    · intro p a hu
      obtain ⟨hp,-,ha⟩ | hu := registeredUnder_cons.1 hu
      · exact .inr ⟨book_entry_none.2 hp,ha⟩
      · exact .inl hu
    · intro p e he
      exact book_entry_none.2 (hr.fresh p e he).1
    · intro p e n a he hn ha
      have fresh := unspent_of_fresh hr hc he hn ha
      exact ⟨hr.spends p e n a he hn ha,book_spent_of_hasNullifier fresh⟩
    · intro p q e f n
      exact ops_nullifier_once hc
  · intro p a hu
    obtain ⟨-,hp,-⟩ | hu := registeredUnder_cons.1 hu
    · rwa [ne_eq,book_entry_none]
    · rw [hr.refines]
      exact Book.entry_applyAll_isSome (h.stays p a hu)

theorem soleUse_of_reaches {start : Ledger} (h : Reaches host start tr w)
    (hc : ∀ e∈tr, meets freshNullifiers e=true) : SoleUse tr w := by
  refine Run.invariant ⟨⟨?_,?_⟩,?_⟩ ?_ h hc
  · intro _ _ _ _ _ _ hyp
    obtain ⟨_,he,-⟩ := hyp
    simp at he
  · intro _ _ _ _ _ _ _ _ _ _ hyp
    obtain ⟨_,he,-⟩ := hyp
    simp at he
  · intro _ _ hyp
    obtain ⟨_,he,-⟩ := hyp
    simp at he
  · intro tr w l w' _ ih hst hce
    obtain ⟨inv,c,rfl,hr⟩ | hb := next_registers hst
    · exact ih.step hr hce
    · exact ih.of_book_eq hb

/-- Two proofs registered under one verifier never carry the same nullifier, as long as no
browser frame repeats a consumed nullifier and no batch repeats one of its own. -/
theorem nullifiers_single_use {host : Host} {start : Ledger} {tr : Trace} {w : World}
    (h : Reaches host start tr w) (hc : ∀ e ∈ tr, meets freshNullifiers e = true)
    {p q n : Bytes32} {verifier : Address} (hne : p ≠ q) (hp : RegisteredUnder tr p verifier)
    (hq : RegisteredUnder tr q verifier) (hn : carriedNullifier w.store p = some n) :
    carriedNullifier w.store q ≠ some n := by
  intro hqn
  obtain ⟨e,he,hen⟩ := carriedNullifier_some.1 hn
  obtain ⟨f,hf,hfn⟩ := carriedNullifier_some.1 hqn
  exact hne ((soleUse_of_reaches h hc).use.unique p q e f n verifier he hf hen hfn hp hq)

def deployment (admin verifier : Address) : List Label :=
  [.call admin (.init admin),.call admin (.setVerifier admin verifier),
    .call admin (.addCredentialRoot admin (fill 9) zero32)]

def elementBytes (video nullifier : UInt8) : Bytes :=
  List.replicate 64 video++List.replicate 32 9++List.replicate 32 nullifier

def registerBrowser (video proofId nullifier : UInt8) : Call :=
  .registerAnonymousVerified (fill video) zero32 (fill proofId) (elementBytes video nullifier) [1]

def registerPair (batchId video nullifier video' nullifier' : UInt8) : Call :=
  .registerBatchVerified (fill batchId) zero32
    (zero32.1++elementBytes video nullifier++elementBytes video' nullifier') [1]
    [fill video,fill video']

def mixedPaths : List Label := deployment ⟨1⟩ ⟨2⟩++
  [.call ⟨3⟩ (registerBrowser 10 20 7),.call ⟨3⟩ (registerPair 21 11 8 12 6)]

theorem nullifiers_single_use_mixed_paths :
    carriedNullifier (deploy mixedPaths).2.store (fill 20) = some (fill 7) ∧
      carriedNullifier (deploy mixedPaths).2.store (deriveElementProofId (fill 21) 1) ≠
        some (fill 7) :=
  ⟨by decide +kernel,nullifiers_single_use (deploy_reaches mixedPaths) (by decide +kernel)
    (by decide +kernel) (show RegisteredUnder _ (fill 20) ⟨2⟩ by decide +kernel)
    (by decide +kernel) (by decide +kernel)⟩

def repeatedBrowserFrame : List Label := deployment ⟨1⟩ ⟨2⟩++
  [.call ⟨3⟩ (registerBrowser 10 20 7),.call ⟨3⟩ (registerBrowser 11 21 7)]

def repeatedBatchElement : List Label := deployment ⟨1⟩ ⟨2⟩++
  [.call ⟨3⟩ (registerPair 21 10 7 11 7)]

/-- Both unchecked paths let one nullifier through twice. -/
theorem nullifier_used_twice :
    (∃ tr w, Reaches stellarHost genesis tr w ∧ RegisteredUnder tr (fill 20) ⟨2⟩ ∧
      RegisteredUnder tr (fill 21) ⟨2⟩ ∧ carriedNullifier w.store (fill 20) = some (fill 7) ∧
      carriedNullifier w.store (fill 21) = some (fill 7)) ∧
    ∃ tr w, Reaches stellarHost genesis tr w ∧
      RegisteredUnder tr (deriveElementProofId (fill 21) 0) ⟨2⟩ ∧
      RegisteredUnder tr (deriveElementProofId (fill 21) 1) ⟨2⟩ ∧
      carriedNullifier w.store (deriveElementProofId (fill 21) 0) = some (fill 7) ∧
      carriedNullifier w.store (deriveElementProofId (fill 21) 1) = some (fill 7) ∧
      deriveElementProofId (fill 21) 0 ≠ deriveElementProofId (fill 21) 1 :=
  ⟨⟨_,_,deploy_reaches repeatedBrowserFrame,by decide +kernel⟩,
    _,_,deploy_reaches repeatedBatchElement,by decide +kernel⟩

/-- The nullifier such a call presents. -/
def Call.presented : Call → Option Bytes32
  | .checkNonRevocation publicInputs _ => some (field publicInputs 32)
  | .verifySelectiveDisclosure publicInputs _ => some (field publicInputs 128)
  | _ => none

/-- Such a call went through while `verifier` was the active one. -/
def Consumes (host : Host) (e : Event World Label) (verifier : Address) (n : Bytes32) : Prop :=
  ∃ c, Succeeds host e c ∧ c.presented = some n ∧ e.pre.store .Verifier = some verifier

theorem consumes_event {host : Host} {w : World} {inv : Invocation} {c : Call} {verifier : Address}
    {n : Bytes32} (h : (exec (w.env host inv) c w.store).isOk=true ∧ c.presented=some n ∧
      w.store .Verifier=some verifier) :
    Consumes host (w.event host (.invoke inv c)) verifier n :=
  ⟨c,succeeds_event h.1,h.2⟩

/-- A proof that carries the nullifier was registered while `verifier` was the active one. -/
def RegistersNullifier (e : Event World Label) (verifier : Address) (n : Bytes32) : Prop :=
  ∃ p, e.pre.store (.Proof p) = none ∧ carriedNullifier e.post.store p = some n ∧
    e.pre.store .Verifier = some verifier

theorem ops_spend (h : .spend a n∈c.ops s) : s .Verifier=some a ∧
      (c.presented=some n ∨ ∃ p e, .record p e∈c.ops s ∧ e.nullifier=some n) := by
  cases hv : s .Verifier with
  | none => cases c <;> simp_all [Call.ops,witnessOps,spendOps,itemOps]
  | some v =>
    cases c with
    | registerBatchVerified b m publicInputs proof vs =>
      obtain ⟨item,hi,h⟩ := mem_flatMap.1 h
      obtain ⟨rfl,rfl⟩ : a=v ∧ n=item.element.nullifier := by
        simpa [itemOps,witnessOps,hv] using h
      refine ⟨rfl,.inr ⟨item.proofId,
        ⟨item.videoHash,some item.element.nullifier,TIER_SILENT_WITNESS⟩,?_,rfl⟩⟩
      exact mem_flatMap.2 ⟨item,hi,by simp [itemOps,witnessOps,hv]⟩
    | _ => simp_all [Call.ops,witnessOps,spendOps,Call.presented]

theorem ops_of_presented (h : c.presented=some n) (ha : s .Verifier=some a) :
    .spend a n∈c.ops s := by
  cases c with
  | checkNonRevocation => simp_all [Call.presented,Call.ops,spendOps]
  | verifySelectiveDisclosure => simp_all [Call.presented,Call.ops,spendOps]
  | _ => cases h

theorem Consumes.spent {e : Event World Label} (h : Consumes host e a n) :
    (book e.post.store).spent a n := by
  obtain ⟨c,⟨inv,-,hx⟩,hn,ha⟩ := h
  rw [(exec_registers hx).refines,Book.spent_applyAll]
  exact .inr (ops_of_presented hn ha)

theorem RegistersNullifier.spent (hst : next host w l=w') (h : RegistersNullifier ⟨w,l,w'⟩ a n) :
    (book w'.store).spent a n := by
  obtain ⟨p,hp,hn,ha⟩ := h
  obtain ⟨e,he,hen⟩ := carriedNullifier_some.1 hn
  replace hp := book_entry_none.2 hp
  obtain ⟨inv,c,-,hr⟩ | hb := next_registers hst
  · rw [hr.refines] at he
    rw [hr.refines,Book.spent_applyAll]
    rcases Book.entry_applyAll_cases he with h | h
    · exact .inr (hr.spends p e n a h hen ha)
    · rw [h] at hp
      cases hp
  · rw [hb] at he
    rw [he] at hp
    cases hp

theorem spent_next (hst : next host w l=w') (h : (book w.store).spent a n) :
    (book w'.store).spent a n := by
  obtain ⟨inv,c,-,hr⟩ | hb := next_registers hst
  · rw [hr.refines,Book.spent_applyAll]
    exact .inl h
  · rwa [hb]

theorem spent_next_cases (hst : next host w l=w') (h : (book w'.store).spent a n) :
    (book w.store).spent a n ∨ Consumes host ⟨w,l,w'⟩ a n ∨ RegistersNullifier ⟨w,l,w'⟩ a n := by
  obtain ⟨inv,c,rfl,-,hx⟩ | hk := next_store hst
  · have hr := exec_registers hx
    rw [hr.refines,Book.spent_applyAll] at h
    rcases h with h | h
    · exact .inl h
    obtain ⟨ha,hn | ⟨p,e,he,hn⟩⟩ := ops_spend h
    · exact .inr (.inl ⟨c,⟨inv,rfl,hx⟩,hn,ha⟩)
    · refine .inr (.inr ⟨p,(hr.fresh p e he).1,carriedNullifier_some.2 ⟨e,?_,hn⟩,ha⟩)
      rw [hr.refines]
      exact Book.entry_applyAll_of_mem hr.ids he
  · have hs := hk (.VerifierNullifier a n) (by simp)
    simp only [book,hs] at h
    exact .inl h

theorem legacy_nullifier_none {start : Ledger} (h : Reaches host start tr w) (n : Bytes32) :
    w.store (.Nullifier n)=none := by
  refine Run.state_invariant (I := fun w : World => w.store (.Nullifier n)=none) rfl ?_ h
  intro w l w' hw hst
  obtain ⟨inv,c,-,-,hx⟩ | hk := next_store hst
  · rw [exec_footprint hx,hw]
    cases c <;> exact notMem_of_elem rfl
  · rw [hk _ (by simp),hw]

/-- A nullifier counts as consumed exactly when an earlier call consumed it. -/
theorem hasNullifier_iff {start : Ledger} (h : Reaches host start tr w) (a : Address)
    (n : Bytes32) :
    hasNullifier w.store a n=true ↔
      ∃ e∈tr, Consumes host e a n ∨ RegistersNullifier e a n := by
  have spent_iff : (book w.store).spent a n ↔
      ∃ e∈tr, Consumes host e a n ∨ RegistersNullifier e a n := by
    refine Run.history_iff (P := fun w : World => (book w.store).spent a n) ?_ ?_ h
    · simp [book,Store.empty]
    · intro w l w' hst
      constructor
      · intro hs
        exact (spent_next_cases hst hs).symm
      · intro hyp
        rcases hyp with (hs | hs) | hs
        · exact hs.spent
        · exact hs.spent hst
        · exact spent_next hst hs
  rw [← spent_iff]
  simp [hasNullifier,book,legacy_nullifier_none h]

/-- What these calls do not check themselves: the nullifier is new to the active verifier. -/
def presentsUnconsumed (w : World) (c : Call) : Bool :=
  match c.presented,w.store .Verifier with
  | some n,some verifier => !hasNullifier w.store verifier n
  | _,_ => true

/-- A nullifier is presented at most once under a verifier, and never after a registration
took it, as long as no call presents a consumed one. -/
theorem presented_nullifiers_single_use {host : Host} {start : Ledger} {tr tr₁ tr₂ : Trace}
    {w : World} {e : Event World Label} {verifier : Address} {n : Bytes32}
    (h : Reaches host start tr w) (hc : ∀ e ∈ tr, meets presentsUnconsumed e = true)
    (htr : tr = tr₂++e::tr₁) (he : Consumes host e verifier n) :
    hasNullifier e.pre.store verifier n = false ∧
      ∀ e' ∈ tr₁, ¬ Consumes host e' verifier n ∧ ¬ RegistersNullifier e' verifier n := by
  subst htr
  have hpre : Reaches host start tr₁ e.pre := (Run.split h).1
  have unconsumed : hasNullifier e.pre.store verifier n=false := by
    obtain ⟨c,⟨inv,hl,-⟩,hn,hv⟩ := he
    have hm := hc e (by simp)
    simpa [meets,hl,presentsUnconsumed,hn,hv] using hm
  have none_before : ¬ ∃ e'∈tr₁, Consumes host e' verifier n ∨
      RegistersNullifier e' verifier n := by
    rw [← hasNullifier_iff hpre,unconsumed]
    simp
  refine ⟨unconsumed,fun e' he' => ⟨fun h1 => none_before ⟨e',he',.inl h1⟩,?_⟩⟩
  exact fun h2 => none_before ⟨e',he',.inr h2⟩

def revocationFrame (nullifier : UInt8) : Bytes :=
  (fill 8).1++(fill nullifier).1++REVOCATION_DOMAIN_SEPARATOR.1++(fill 9).1

/-- The eleven fields of a disclosure under schema `fill 5`, version 1. -/
def disclosureFrame (nullifier : UInt8) : Bytes :=
  let one := List.replicate 31 0++[1]
  (fill 5).1++zero32.1++one++(fill 9).1++(fill nullifier).1++zero32.1++zero32.1++zero32.1++one++
    zero32.1++zero32.1

def consumerSetup : List Label := deployment ⟨1⟩ ⟨2⟩++
  [.call ⟨1⟩ (.setRevocationRoot ⟨1⟩ (fill 8)),.call ⟨1⟩ (.addSchema ⟨1⟩ (fill 5) zero32 1 1)]

def registered : Event World Label :=
  (deploy consumerSetup).2.event stellarHost (.call ⟨3⟩ (registerBrowser 10 20 7))

def checked (nullifier : UInt8) : Event World Label :=
  registered.post.event stellarHost
    (.call ⟨3⟩ (.checkNonRevocation (revocationFrame nullifier) [1]))

def disclosed (nullifier : UInt8) : Event World Label :=
  (checked nullifier).post.event stellarHost
    (.call ⟨3⟩ (.verifySelectiveDisclosure (disclosureFrame nullifier) [1]))

theorem registered_reaches : Reaches stellarHost genesis (registered::(deploy consumerSetup).1)
    registered.post :=
  (deploy_reaches consumerSetup).event _

theorem presented_nullifiers_single_use_checked :
    hasNullifier (checked 6).pre.store ⟨2⟩ (fill 6) = false ∧
      ∀ e ∈ registered::(deploy consumerSetup).1,
        ¬ Consumes stellarHost e ⟨2⟩ (fill 6) ∧ ¬ RegistersNullifier e ⟨2⟩ (fill 6) :=
  presented_nullifiers_single_use (registered_reaches.event _) (by decide +kernel)
    (show _ = []++checked 6::_ from rfl)
    (consumes_event (by decide +kernel))

/-- After a registration took the nullifier, a revocation check and a disclosure both
consume it again. -/
theorem presented_nullifier_replayed : ∃ tr w e₁ e₂ e₃ rest,
    Reaches stellarHost genesis tr w ∧ tr = e₃::e₂::e₁::rest ∧
      RegistersNullifier e₁ ⟨2⟩ (fill 7) ∧ Consumes stellarHost e₂ ⟨2⟩ (fill 7) ∧
      Consumes stellarHost e₃ ⟨2⟩ (fill 7) ∧ hasNullifier e₂.pre.store ⟨2⟩ (fill 7) = true ∧
      hasNullifier e₃.pre.store ⟨2⟩ (fill 7) = true :=
  ⟨_,_,registered,checked 7,disclosed 7,_,(registered_reaches.event _).event _,rfl,
    ⟨fill 20,by decide +kernel⟩,
    consumes_event (by decide +kernel),consumes_event (by decide +kernel),
    by decide +kernel,by decide +kernel⟩

end Harpocrates.Registry
