import Harpocrates.Registry.System

namespace Harpocrates.Registry

open Framework Tx

inductive TimestampSource
  | claimed | stellar | rfc3161
  deriving DecidableEq

def TimestampSource.bit : TimestampSource → UInt32
  | .claimed => TIMESTAMP_SOURCE_CLAIMED
  | .stellar => TIMESTAMP_SOURCE_STELLAR
  | .rfc3161 => TIMESTAMP_SOURCE_RFC3161

/-- What a claim has stored from a source. -/
inductive SourceValue
  | time (claimedTime : Nat)
  | ledger (anchoredAt ledgerSequence : Nat)
  | commitment (rfc3161Commitment : Bytes32)
  deriving DecidableEq

def timestampSources (claimed rfc3161 : Bool) : UInt32 :=
  TIMESTAMP_SOURCE_STELLAR ||| (if claimed then TIMESTAMP_SOURCE_CLAIMED else 0) |||
    (if rfc3161 then TIMESTAMP_SOURCE_RFC3161 else 0)

theorem timestampSources_bits (claimed rfc3161 : Bool) :
    (timestampSources claimed rfc3161 &&& TimestampSource.claimed.bit != 0)=claimed ∧
    (timestampSources claimed rfc3161 &&& TimestampSource.stellar.bit != 0)=true ∧
    (timestampSources claimed rfc3161 &&& TimestampSource.rfc3161.bit != 0)=rfc3161 ∧
    computeTimestampAssurance (timestampSources claimed rfc3161) =
      TIMESTAMP_ASSURANCE_INDEPENDENT := by
  revert claimed rfc3161
  decide

namespace TimestampClaim

def has (claim : TimestampClaim) (source : TimestampSource) : Bool :=
  claim.sources &&& source.bit != 0

def value (claim : TimestampClaim) : TimestampSource → SourceValue
  | .claimed => .time claim.claimedTime
  | .stellar => .ledger claim.anchoredAt claim.ledgerSequence
  | .rfc3161 => .commitment claim.rfc3161Commitment

def evidence (claim : TimestampClaim) (source : TimestampSource) : Option SourceValue :=
  if claim.has source then some (claim.value source) else none

/-- Bits, values and assurance of a claim fit together. -/
structure Sound (claim : TimestampClaim) : Prop where
  sources : claim.sources =
    timestampSources (claim.claimedTime > 0) (claim.rfc3161Commitment != zero32)
  assurance : claim.assurance = computeTimestampAssurance claim.sources

namespace Sound

variable {claim : TimestampClaim}

theorem has_claimed (h : claim.Sound) : claim.has .claimed=decide (claim.claimedTime > 0) := by
  rw [has,h.sources,(timestampSources_bits _ _).1]

theorem has_stellar (h : claim.Sound) : claim.has .stellar=true := by
  rw [has,h.sources,(timestampSources_bits _ _).2.1]

theorem independent (h : claim.Sound) : claim.assurance=TIMESTAMP_ASSURANCE_INDEPENDENT := by
  rw [h.assurance,h.sources,(timestampSources_bits _ _).2.2.2]

end Sound

end TimestampClaim

/-- The claim that an anchoring stores. -/
def newTimestampClaim (env : Env) (actor : Address) (p digest : Bytes32) (claimedTime : Nat)
    (commitment : Bytes32) : TimestampClaim where
  proofId := p
  attestationDigest := digest
  claimedTime := claimedTime
  anchoredAt := env.timestamp
  ledgerSequence := env.sequence
  sources := timestampSources (claimedTime > 0) (commitment != zero32)
  rfc3161Commitment := commitment
  actor := actor
  assurance := computeTimestampAssurance
    (timestampSources (claimedTime > 0) (commitment != zero32))

section

variable {env : Env} {actor : Address} {p digest commitment : Bytes32} {claimedTime : Nat}

theorem newTimestampClaim_sound :
    (newTimestampClaim env actor p digest claimedTime commitment).Sound := ⟨rfl,rfl⟩

theorem requireTimestampClaimActor_unchanged {proof : ProofRecord} {s s' : Storage} {u : Unit}
    (h : requireTimestampClaimActor env actor proof s=.ok (u,s')) : s=s' := by
  simp only [requireTimestampClaimActor,bind_ok,requireAuth_ok,get_ok,unwrap_ok,
    gets_ok,failIf_ok] at h
  obtain ⟨_,_,⟨-,rfl⟩,_,_,⟨-,rfl⟩,_,_,⟨-,rfl⟩,_,_,⟨-,rfl⟩,-,rfl⟩ := h
  rfl

/-- Only a claim with less assurance, or without an RFC 3161 commitment, is replaced. -/
theorem anchorTimestampClaim_ok {claim : TimestampClaim} {s s' : Storage}
    (h : anchorTimestampClaim env actor p digest claimedTime commitment s=.ok (claim,s')) :
    claim=newTimestampClaim env actor p digest claimedTime commitment ∧
    s'=Store.set s (.TimestampClaim p) claim ∧
    ∀ old, s (.TimestampClaim p)=some old → old.assurance≤claim.assurance ∧
      (claim.assurance=old.assurance → commitment≠zero32 ∧ old.has .rfc3161=false) := by
  have hsources : (TIMESTAMP_SOURCE_STELLAR |||
      (if claimedTime > 0 then TIMESTAMP_SOURCE_CLAIMED else 0) |||
      (if commitment != zero32 then TIMESTAMP_SOURCE_RFC3161 else 0)) =
      timestampSources (claimedTime > 0) (commitment != zero32) := by
    simp [timestampSources]
  have hcommitment : (if commitment != zero32 then commitment else zero32)=commitment := by
    by_cases hzero : commitment=zero32 <;> simp [hzero]
  simp only [anchorTimestampClaim,bind_ok,has_ok,getProofRecord_ok,failIf_ok,get_ok,
    hsources,hcommitment] at h
  obtain ⟨_,_,⟨-,rfl⟩,_,_,⟨-,rfl⟩,_,_,⟨-,rfl⟩,_,_,hactor,_,_,⟨-,rfl⟩,_,_,⟨-,rfl⟩,existing,_,
    ⟨hexisting,rfl⟩,h⟩ := h
  obtain rfl := requireTimestampClaimActor_unchanged hactor
  cases existing with
  | none =>
    simp only [bind_ok,set_ok,pure_ok] at h
    obtain ⟨_,_,rfl,rfl,rfl⟩ := h
    exact ⟨rfl,rfl,fun old hold => absurd (hexisting.symm.trans hold) (by simp)⟩
  | some existing =>
    simp only [bind_ok,failIf_ok,set_ok,pure_ok] at h
    obtain ⟨_,_,⟨hcheck,rfl⟩,_,_,rfl,rfl,rfl⟩ := h
    refine ⟨rfl,rfl,fun old hold => ?_⟩
    cases hexisting.symm.trans hold
    obtain ⟨hlower,hequal⟩ := Bool.or_eq_false_iff.1 hcheck
    refine ⟨Nat.le_of_not_lt (of_decide_eq_false hlower),fun heq => ?_⟩
    rw [beq_iff_eq.2 heq,Bool.true_and,Bool.not_eq_false',Bool.and_eq_true,bne_iff_ne,
      beq_iff_eq] at hequal
    exact ⟨hequal.1,by simpa [TimestampClaim.has,TimestampSource.bit] using hequal.2⟩

end

/-- The step leaves this claim about the proof, anchored in its own ledger. A claim that was there
before had no RFC 3161 commitment, if it had as much assurance. -/
structure Anchors (e : Event World Label) (p : Bytes32) (claimedTime : Nat)
    (claim : TimestampClaim) : Prop where
  post : e.post.store (.TimestampClaim p) = some claim
  sound : claim.Sound
  claimedTime : claim.claimedTime = claimedTime
  anchoredAt : claim.anchoredAt = e.pre.ledger.timestamp
  ledgerSequence : claim.ledgerSequence = e.pre.ledger.sequence
  upgrade : ∀ old, e.pre.store (.TimestampClaim p) = some old →
    old.assurance ≤ claim.assurance ∧
      (claim.assurance = old.assurance → old.has .rfc3161 = false)

section

variable {host : Host} {p : Bytes32}

variable {e : Event World Label} {w : World}

theorem succeeds_anchors {actor : Address} {digest commitment : Bytes32} {claimedTime : Nat}
    (h : Succeeds host e (.anchorTimestampClaim actor p digest claimedTime commitment)) :
    ∃ claim, Anchors e p claimedTime claim := by
  obtain ⟨inv,-,hx⟩ := h
  obtain ⟨_,hx⟩ := (discard_ok ..).1 hx
  obtain ⟨rfl,hpost,hupgrade⟩ := anchorTimestampClaim_ok hx
  refine ⟨_,by rw [hpost,Store.set_self],newTimestampClaim_sound,rfl,rfl,rfl,fun old hold => ?_⟩
  obtain ⟨hle,hequal⟩ := hupgrade old hold
  exact ⟨hle,fun heq => (hequal heq).2⟩

/-- The claim about a proof stays as it is except when it is anchored. -/
theorem claim_step {w' : World} {l : Label} (hst : next host w l=w') (p : Bytes32) :
    w'.store (.TimestampClaim p)=w.store (.TimestampClaim p) ∨
    ∃ actor digest claimedTime commitment, Succeeds host ⟨w,l,w'⟩
      (.anchorTimestampClaim actor p digest claimedTime commitment) := by
  obtain ⟨inv,c,rfl,-,hx⟩ | hsame := next_store hst
  · cases c with
    | anchorTimestampClaim actor q digest claimedTime commitment =>
      by_cases hq : p=q
      · subst hq
        exact .inr ⟨actor,digest,claimedTime,commitment,inv,rfl,hx⟩
      · obtain ⟨_,hx⟩ := (discard_ok ..).1 hx
        obtain ⟨-,hpost,-⟩ := anchorTimestampClaim_ok hx
        rw [hpost]
        exact .inl (Store.set_of_ne _ _ (by simpa using hq))
    | _ => exact .inl (exec_footprint hx (notMem_of_elem rfl))
  · exact .inl (hsame _ (by simp))

theorem reaches_sound {start : Ledger} {tr : Trace} (hr : Reaches host start tr w)
    {claim : TimestampClaim} (hclaim : w.store (.TimestampClaim p)=some claim) : claim.Sound := by
  refine Run.state_invariant (I := fun w : World => ∀ claim,
    w.store (.TimestampClaim p)=some claim → claim.Sound) ?_ ?_ hr claim hclaim
  · intro claim hnone
    cases hnone
  · intro w l w' hw hst claim hclaim
    rcases claim_step hst p with hsame | ⟨_,_,_,_,hcall⟩
    · exact hw claim (hsame ▸ hclaim)
    · obtain ⟨new,hnew⟩ := succeeds_anchors hcall
      cases hnew.post.symm.trans hclaim
      exact hnew.sound

/-- Every step of the run leaves, where there was a claim about the proof, a claim related to
it. -/
def ClaimsEvolve (R : TimestampClaim → TimestampClaim → Prop) (tr : Trace) (p : Bytes32) : Prop :=
  ∀ e ∈ tr, ∀ old, e.pre.store (.TimestampClaim p) = some old →
    ∃ new, e.post.store (.TimestampClaim p) = some new ∧ R old new

/-- The step anchors a proof again that had a claim. -/
def Reanchors (host : Host) (e : Event World Label) (p : Bytes32) (old : TimestampClaim)
    (claimedTime : Nat) : Prop :=
  e.pre.store (.TimestampClaim p) = some old ∧ ∃ actor digest commitment,
    Succeeds host e (.anchorTimestampClaim actor p digest claimedTime commitment)

/-- How claims evolve is up to the steps that anchor a proof again. -/
theorem claimsEvolve_iff {start : Ledger} {tr : Trace} (hr : Reaches host start tr w)
    {R : TimestampClaim → TimestampClaim → Prop} {C : Ledger → TimestampClaim → Nat → Prop}
    (hrefl : ∀ claim, R claim claim)
    (hre : ∀ e old new claimedTime, old.Sound → old.has .rfc3161=false →
      Anchors e p claimedTime new → (R old new ↔ C e.pre.ledger old claimedTime)) :
    ClaimsEvolve R tr p ↔
      ∀ e∈tr, ∀ old claimedTime, Reanchors host e p old claimedTime →
        C e.pre.ledger old claimedTime := by
  have hplain : ∀ e∈tr, ∀ old new claimedTime, e.pre.store (.TimestampClaim p)=some old →
      Anchors e p claimedTime new → old.Sound ∧ old.has .rfc3161=false := by
    intro e he old new claimedTime hold hnew
    obtain ⟨_,_,-,hpre,-⟩ := Run.event_split hr he
    have hsound : old.Sound := reaches_sound hpre hold
    exact ⟨hsound,(hnew.upgrade old hold).2 (hnew.sound.independent.trans hsound.independent.symm)⟩
  constructor
  · intro h e he old claimedTime hagain
    obtain ⟨hold,_,_,_,hcall⟩ := hagain
    obtain ⟨new,hnew⟩ := succeeds_anchors hcall
    obtain ⟨_,hpost,hR⟩ := h e he old hold
    cases hnew.post.symm.trans hpost
    obtain ⟨hsound,hno⟩ := hplain e he old _ _ hold hnew
    exact (hre e old _ _ hsound hno hnew).1 hR
  · intro h e he old hold
    rcases claim_step (hr.next_eq he) p with hsame | ⟨actor,digest,claimedTime,commitment,hcall⟩
    · exact ⟨old,hsame.trans hold,hrefl old⟩
    · obtain ⟨new,hnew⟩ := succeeds_anchors hcall
      obtain ⟨hsound,hno⟩ := hplain e he old _ _ hold hnew
      refine ⟨new,hnew.post,(hre e old _ _ hsound hno hnew).2 ?_⟩
      exact h e he old claimedTime ⟨hold,actor,digest,commitment,hcall⟩

/-- Anchored again, a claim keeps its sources when it keeps having a claimed time. -/
theorem Anchors.sources_iff {old new : TimestampClaim} {claimedTime : Nat} (hold : old.Sound)
    (hno : old.has .rfc3161=false) (hnew : Anchors e p claimedTime new) :
    (∀ source, old.has source=true → new.has source=true) ↔
      (0<old.claimedTime → 0<claimedTime) := by
  have hclaimed : (old.has .claimed=true → new.has .claimed=true) ↔
      (0<old.claimedTime → 0<claimedTime) := by
    rw [hold.has_claimed,hnew.sound.has_claimed,hnew.claimedTime,decide_eq_true_iff,
      decide_eq_true_iff]
  rw [← hclaimed]
  refine ⟨fun h => h .claimed,fun h source => ?_⟩
  cases source with
  | claimed => exact h
  | stellar => exact fun _ => hnew.sound.has_stellar
  | rfc3161 => simp [hno]

/-- It keeps what it has from them when the time claimed and the ledger are the same. -/
theorem Anchors.evidence_iff {old new : TimestampClaim} {claimedTime : Nat} (hold : old.Sound)
    (hno : old.has .rfc3161=false) (hnew : Anchors e p claimedTime new) :
    (∀ source v, old.evidence source=some v → new.evidence source=some v) ↔
      (0<old.claimedTime → claimedTime=old.claimedTime) ∧
      e.pre.ledger.timestamp=old.anchoredAt ∧ e.pre.ledger.sequence=old.ledgerSequence := by
  have hclaimed : (∀ v, old.evidence .claimed=some v → new.evidence .claimed=some v) ↔
      (0<old.claimedTime → claimedTime=old.claimedTime) := by
    by_cases hpos : 0<old.claimedTime
    · have htime : 0<claimedTime ∧ claimedTime=old.claimedTime ↔
          claimedTime=old.claimedTime := by omega
      simp [TimestampClaim.evidence,hold.has_claimed,hnew.sound.has_claimed,TimestampClaim.value,
        hnew.claimedTime,hpos,htime]
    · simp [TimestampClaim.evidence,hold.has_claimed,hpos]
  have hledger : (∀ v, old.evidence .stellar=some v → new.evidence .stellar=some v) ↔
      e.pre.ledger.timestamp=old.anchoredAt ∧ e.pre.ledger.sequence=old.ledgerSequence := by
    simp [TimestampClaim.evidence,hold.has_stellar,hnew.sound.has_stellar,TimestampClaim.value,
      hnew.anchoredAt,hnew.ledgerSequence]
  rw [← hclaimed,← hledger]
  refine ⟨fun h => ⟨h .claimed,h .stellar⟩,fun h source => ?_⟩
  cases source with
  | claimed => exact h.1
  | stellar => exact h.2
  | rfc3161 => simp [TimestampClaim.evidence,hno]

end

/-- Assurance is what the sources give and never falls. No source of a claim is lost exactly when
every later anchoring gives a claimed time if the claim has one; what the sources say is kept
exactly when it gives the same one, in the same ledger. -/
theorem timestamp_evidence_accumulates {host : Host} {start : Ledger} {tr : Trace} {w : World}
    (hr : Reaches host start tr w) (p : Bytes32) :
    (∀ claim, w.store (.TimestampClaim p) = some claim →
      claim.assurance = computeTimestampAssurance claim.sources) ∧
    ClaimsEvolve (fun old new => old.assurance ≤ new.assurance) tr p ∧
    (ClaimsEvolve (fun old new => ∀ source, old.has source = true → new.has source = true) tr p ↔
      ∀ e ∈ tr, ∀ old claimedTime, Reanchors host e p old claimedTime →
        0 < old.claimedTime → 0 < claimedTime) ∧
    (ClaimsEvolve (fun old new => ∀ source v, old.evidence source = some v →
        new.evidence source = some v) tr p ↔
      ∀ e ∈ tr, ∀ old claimedTime, Reanchors host e p old claimedTime →
        (0 < old.claimedTime → claimedTime = old.claimedTime) ∧
        e.pre.ledger.timestamp = old.anchoredAt ∧
        e.pre.ledger.sequence = old.ledgerSequence) := by
  refine ⟨fun claim hclaim => (reaches_sound hr hclaim).assurance,?_,?_,?_⟩
  · refine (claimsEvolve_iff hr (C := fun _ _ _ => True)
      (fun claim => Nat.le_refl claim.assurance) ?_).2 (by simp)
    intro e old new _ hold _ hnew
    simp [hold.independent,hnew.sound.independent]
  · exact claimsEvolve_iff hr (C := fun _ old claimedTime => 0<old.claimedTime → 0<claimedTime)
      (fun _ _ h => h) fun _ _ _ _ => Anchors.sources_iff
  · exact claimsEvolve_iff hr
      (C := fun ledger old claimedTime => (0<old.claimedTime → claimedTime=old.claimedTime) ∧
        ledger.timestamp=old.anchoredAt ∧ ledger.sequence=old.ledgerSequence)
      (fun _ _ _ h => h) fun _ _ _ _ => Anchors.evidence_iff

/-- A source artefact with a claim, which is anchored again with an RFC 3161 commitment. -/
def anchoredAgain (claimedTime : Nat) : List Label :=
  [.call ⟨1⟩ (.init ⟨1⟩),.call ⟨3⟩ (.registerSource ⟨3⟩ (fill 1) (fill 2) (fill 3)),
    .call ⟨3⟩ (.anchorTimestampClaim ⟨3⟩ (fill 3) (fill 4) 1000 zero32),
    .call ⟨3⟩ (.anchorTimestampClaim ⟨3⟩ (fill 3) (fill 5) claimedTime (fill 6))]

/-- With the same claimed time, the second anchoring loses no source. -/
theorem timestamp_evidence_accumulates_same_time :
    ((deploy (anchoredAgain 1000)).2.store (.TimestampClaim (fill 3))).map (·.sources) = some 7 ∧
    ClaimsEvolve (fun old new => ∀ source, old.has source = true → new.has source = true)
      (deploy (anchoredAgain 1000)).1 (fill 3) := by
  refine ⟨by decide +kernel,
    (timestamp_evidence_accumulates (deploy_reaches _) (fill 3)).2.2.1.2 ?_⟩
  intro e he old claimedTime hagain _
  obtain ⟨-,_,_,_,_,hlabel,-⟩ := hagain
  have hmem := play_label he
  simp only [hlabel,anchoredAgain,Label.call,List.mem_cons,List.not_mem_nil,or_false,
    Label.invoke.injEq,reduceCtorEq,and_false,false_or,Call.anchorTimestampClaim.injEq] at hmem
  rcases hmem with ⟨-,-,-,-,rfl,-⟩ | ⟨-,-,-,-,rfl,-⟩
  · decide
  · decide

/-- Without one, it drops the claimed time that was stored. -/
theorem claimed_time_dropped :
    Reaches stellarHost genesis (deploy (anchoredAgain 0)).1 (deploy (anchoredAgain 0)).2 ∧
    ((deploy ((anchoredAgain 0).take 3)).2.store (.TimestampClaim (fill 3))).map
      (fun claim => (claim.sources,claim.claimedTime)) = some (3,1000) ∧
    ((deploy (anchoredAgain 0)).2.store (.TimestampClaim (fill 3))).map
      (fun claim => (claim.sources,claim.claimedTime)) = some (6,0) :=
  ⟨deploy_reaches _,by decide +kernel⟩

end Harpocrates.Registry
