import Harpocrates.Framework.Fallible
import Harpocrates.Framework.Python

namespace Harpocrates.Backend.TimeAttestation

open Framework Framework.Python Framework.Fallible

/-! Time attestations and the risk that the claimed time was backdated. Times are in milliseconds
unless they are a ledger's. -/

def MAX_TIMESTAMP_TOKEN_SIZE : Nat := 10000
def MAX_ANCHOR_COUNT : Nat := 10

inductive VerificationStatus
  | valid | invalid | unverified | expired | untrusted
  deriving DecidableEq

structure ClaimedTime where
  unixMs : Int
  sourceLabel : Text
  uncertaintyMs : Int := 0

structure ObservedTime where
  unixMs : Int
  sourceLabel : Text

structure StellarAnchor where
  ledgerSequence : Int
  ledgerTimestamp : Int
  transactionHash : Text
  networkPassphrase : Text

structure RFC3161Anchor where
  tokenBytes : Text
  tsaUrl : Text
  genTime : Int
  policyOid : Option Text := none
  certFingerprint : Option Text := none
  verificationStatus : VerificationStatus := .unverified
  verificationError : Option Text := none
  certificateChain : Option (List Text) := none

structure Attestation where
  version : Int
  protocol : Text
  evidenceDigest : Text
  claimedTime : Option ClaimedTime := none
  observedTime : Option ObservedTime := none
  stellarAnchors : List StellarAnchor := []
  rfc3161Anchors : List RFC3161Anchor := []

def isValidHex (value : Text) (expectedLength : Nat) : Bool :=
  value.length = expectedLength && (parseInt 16 value).isSome

def Attestation.anchorCount (a : Attestation) : Nat :=
  a.stellarAnchors.length+a.rfc3161Anchors.length

def addStellarAnchor (a : Attestation) (anchor : StellarAnchor) : Except String Attestation := do
  require (a.anchorCount < MAX_ANCHOR_COUNT) "Maximum anchor count (10) reached"
  require (isValidHex anchor.transactionHash 64)
    "transaction_hash must be 64-character hex string"
  return { a with stellarAnchors := a.stellarAnchors++[anchor] }

def addRfc3161Anchor (a : Attestation) (anchor : RFC3161Anchor) : Except String Attestation := do
  require (a.anchorCount < MAX_ANCHOR_COUNT) "Maximum anchor count (10) reached"
  require (anchor.tokenBytes.length ≤ MAX_TIMESTAMP_TOKEN_SIZE)
    "Timestamp token exceeds 10000 bytes"
  return { a with rfc3161Anchors := a.rfc3161Anchors++[anchor] }

inductive RiskLevel
  | none | low | medium | high
  deriving DecidableEq

def RiskLevel.rank : RiskLevel → Nat
  | .none => 0
  | .low => 1
  | .medium => 2
  | .high => 3

instance : LE RiskLevel := ⟨fun a b => a.rank ≤ b.rank⟩

instance (a b : RiskLevel) : Decidable (a ≤ b) := inferInstanceAs (Decidable (a.rank ≤ b.rank))

structure RiskAssessment where
  riskLevel : RiskLevel := .none
  reasons : List String := []
  recommendations : List String := []
  deriving DecidableEq

def Attestation.hasIndependentAnchor (a : Attestation) : Bool :=
  !a.stellarAnchors.isEmpty || !a.rfc3161Anchors.isEmpty

def wholeSeconds (ms : Nat) : Nat :=
  if ms%1000 < 500 ∨ ms%1000 = 500 ∧ ms/1000%2 = 0 then ms/1000 else ms/1000+1

def assessAnchors (a : Attestation) : RiskAssessment :=
  if a.hasIndependentAnchor then {}
  else {
    riskLevel := .medium
    reasons := ["No independent timestamp anchor (Stellar/RFC 3161)"]
    recommendations := ["Add Stellar ledger timestamp from transaction"] }

/-- More than a day between the two times, whichever comes first. -/
def assessDrift (claimedMs observedMs : Int) (risk : RiskAssessment) : RiskAssessment :=
  let drift := (claimedMs-observedMs).natAbs
  if 86400*1000 < drift then
    { risk with
      riskLevel :=
        match risk.riskLevel with
        | .none => .low
        | .medium => .high
        | level => level
      reasons := risk.reasons++["Large drift between claimed and observed time: "++
        toString (wholeSeconds drift)++" seconds"] }
  else risk

/-- Claimed more than an hour before it was observed. -/
def assessPredating (claimedMs observedMs : Int) (risk : RiskAssessment) : RiskAssessment :=
  if claimedMs < observedMs-3600000 then
    { risk with
      riskLevel :=
        match risk.riskLevel with
        | .none => .medium
        | .low => .medium
        | .medium => .high
        | level => level
      reasons := risk.reasons++["Claimed time significantly predates observed time"] }
  else risk

def assessTimes (a : Attestation) (risk : RiskAssessment) : RiskAssessment :=
  match a.claimedTime,a.observedTime with
  | some claimed,some observed =>
    assessPredating claimed.unixMs observed.unixMs
      (assessDrift claimed.unixMs observed.unixMs risk)
  | _,_ => risk

def assessObservation (a : Attestation) (risk : RiskAssessment) : RiskAssessment :=
  if a.observedTime.isSome then risk
  else { risk with
    riskLevel := if risk.riskLevel = .none then .low else risk.riskLevel
    reasons := risk.reasons++["No observed registration time recorded"] }

def checkBackdatingRisk (a : Attestation) : RiskAssessment :=
  let risk := assessObservation a (assessTimes a (assessAnchors a))
  { risk with
    reasons := if risk.reasons.isEmpty then ["All time sources align within acceptable bounds"]
      else risk.reasons
    recommendations := if risk.recommendations.isEmpty then ["Time attestation appears robust"]
      else risk.recommendations }

def riskLevel (a : Attestation) : RiskLevel := (checkBackdatingRisk a).riskLevel

/-- The level where both times are there: whether there is an anchor, whether the times are more
than a day apart, and whether the claimed one is more than an hour early. -/
def levelOf (anchored far early : Bool) : RiskLevel :=
  if anchored then if early then .medium else if far then .low else .none
  else if far || early then .high else .medium

def isFar (claimedMs observedMs : Int) : Bool := 86400*1000 < (claimedMs-observedMs).natAbs

def isEarly (claimedMs observedMs : Int) : Bool := claimedMs < observedMs-3600000

variable {a b : Attestation} {claimed : ClaimedTime} {observed : ObservedTime}

theorem level_assessAnchors (a : Attestation) :
    (assessAnchors a).riskLevel=levelOf a.hasIndependentAnchor false false := by
  unfold assessAnchors
  cases a.hasIndependentAnchor with
  | true => rfl
  | false => rfl

theorem level_assessDrift {anchored : Bool} {risk : RiskAssessment}
    (h : risk.riskLevel=levelOf anchored false false) (claimedMs observedMs : Int) :
    (assessDrift claimedMs observedMs risk).riskLevel =
      levelOf anchored (isFar claimedMs observedMs) false := by
  unfold assessDrift isFar
  by_cases hfar : 86400*1000<(claimedMs-observedMs).natAbs
  · rw [if_pos hfar,decide_eq_true hfar]
    dsimp only
    rw [h]
    cases anchored with
    | true => rfl
    | false => rfl
  · rw [if_neg hfar,decide_eq_false hfar,h]

theorem level_assessPredating {anchored far : Bool} {risk : RiskAssessment}
    (h : risk.riskLevel=levelOf anchored far false) (claimedMs observedMs : Int) :
    (assessPredating claimedMs observedMs risk).riskLevel =
      levelOf anchored far (isEarly claimedMs observedMs) := by
  unfold assessPredating isEarly
  by_cases hearly : claimedMs<observedMs-3600000
  · rw [if_pos hearly,decide_eq_true hearly]
    dsimp only
    rw [h]
    cases anchored with
    | true => cases far <;> rfl
    | false => cases far <;> rfl
  · rw [if_neg hearly,decide_eq_false hearly,h]

theorem riskLevel_eq (a : Attestation) :
    riskLevel a=(assessObservation a (assessTimes a (assessAnchors a))).riskLevel := rfl

theorem riskLevel_both (hc : a.claimedTime=some claimed) (ho : a.observedTime=some observed) :
    riskLevel a=levelOf a.hasIndependentAnchor (isFar claimed.unixMs observed.unixMs)
      (isEarly claimed.unixMs observed.unixMs) := by
  have hdrift := level_assessDrift (level_assessAnchors a) claimed.unixMs observed.unixMs
  have htimes := level_assessPredating hdrift claimed.unixMs observed.unixMs
  rw [riskLevel_eq,assessObservation,ho,Option.isSome_some,if_pos rfl]
  simp only [assessTimes,hc,ho]
  exact htimes

theorem riskLevel_unclaimed (hc : a.claimedTime=none) (ho : a.observedTime=some observed) :
    riskLevel a=levelOf a.hasIndependentAnchor false false := by
  rw [riskLevel_eq,assessObservation,ho,Option.isSome_some,if_pos rfl]
  simp only [assessTimes,hc]
  exact level_assessAnchors a

theorem riskLevel_unobserved (ho : a.observedTime=none) :
    riskLevel a=if a.hasIndependentAnchor then .low else .medium := by
  have htimes : assessTimes a (assessAnchors a)=assessAnchors a := by
    unfold assessTimes
    rw [ho]
    split
    · rename_i hnone
      cases hnone
    · rfl
  rw [riskLevel_eq,htimes,assessObservation,ho]
  dsimp only [Option.isSome_none]
  rw [if_neg Bool.false_ne_true,level_assessAnchors]
  cases a.hasIndependentAnchor with
  | true => rfl
  | false => rfl

theorem levelOf_mono {anchored far far' early early' : Bool} (hfar : far=true → far'=true)
    (hearly : early=true → early'=true) :
    levelOf anchored far early≤levelOf anchored far' early' := by
  revert hfar hearly
  cases anchored <;> cases far <;> cases far' <;> cases early <;> cases early' <;> decide

theorem isFar_mono {earlier claimedMs observedMs : Int} (h : earlier≤claimedMs)
    (hpast : claimedMs≤observedMs) :
    isFar claimedMs observedMs=true → isFar earlier observedMs=true := by
  unfold isFar
  rw [decide_eq_true_eq,decide_eq_true_eq]
  omega

theorem isEarly_mono {earlier claimedMs observedMs : Int} (h : earlier≤claimedMs) :
    isEarly claimedMs observedMs=true → isEarly earlier observedMs=true := by
  unfold isEarly
  rw [decide_eq_true_eq,decide_eq_true_eq]
  omega

def Attestation.claiming (a : Attestation) (claimed : ClaimedTime) (unixMs : Int) : Attestation :=
  { a with claimedTime := some { claimed with unixMs } }

theorem riskLevel_earlier {earlier : Int} (hc : a.claimedTime=some claimed)
    (hpast : ∀ o, a.observedTime=some o → claimed.unixMs≤o.unixMs)
    (h : earlier≤claimed.unixMs) :
    riskLevel a≤riskLevel (a.claiming claimed earlier) := by
  have hsame : (a.claiming claimed earlier).observedTime=a.observedTime := rfl
  cases ho : a.observedTime with
  | none =>
    rw [riskLevel_unobserved ho,riskLevel_unobserved (hsame.trans ho)]
    exact Nat.le_refl _
  | some observed =>
    rw [riskLevel_both hc ho,riskLevel_both rfl (hsame.trans ho)]
    exact levelOf_mono (isFar_mono h (hpast observed ho)) (isEarly_mono h)

theorem levelOf_anchored (far early : Bool) :
    (levelOf true far early).rank<(levelOf false far early).rank := by
  cases far <;> cases early <;> decide

/-- The first anchor lowers the level, and a further one leaves it. -/
theorem riskLevel_anchor (hc : b.claimedTime=a.claimedTime) (ho : b.observedTime=a.observedTime)
    (hb : b.hasIndependentAnchor=true) :
    if a.hasIndependentAnchor then riskLevel b=riskLevel a
    else (riskLevel b).rank<(riskLevel a).rank := by
  cases hobserved : a.observedTime with
  | none =>
    rw [riskLevel_unobserved hobserved,riskLevel_unobserved (ho.trans hobserved),hb]
    cases a.hasIndependentAnchor with
    | true => rfl
    | false => decide
  | some observed =>
    cases hclaimed : a.claimedTime with
    | none =>
      rw [riskLevel_unclaimed hclaimed hobserved,
        riskLevel_unclaimed (hc.trans hclaimed) (ho.trans hobserved),hb]
      cases a.hasIndependentAnchor with
      | true => rfl
      | false => exact levelOf_anchored _ _
    | some claimed =>
      rw [riskLevel_both hclaimed hobserved,
        riskLevel_both (hc.trans hclaimed) (ho.trans hobserved),hb]
      cases a.hasIndependentAnchor with
      | true => rfl
      | false => exact levelOf_anchored _ _

theorem addStellarAnchor_ok {anchor : StellarAnchor} (h : addStellarAnchor a anchor=.ok b) :
    b={ a with stellarAnchors := a.stellarAnchors++[anchor] } := by
  obtain ⟨-,h⟩ := unit_bind_ok.1 h
  obtain ⟨-,h⟩ := unit_bind_ok.1 h
  exact (Except.ok.inj h).symm

theorem addRfc3161Anchor_ok {anchor : RFC3161Anchor} (h : addRfc3161Anchor a anchor=.ok b) :
    b={ a with rfc3161Anchors := a.rfc3161Anchors++[anchor] } := by
  obtain ⟨-,h⟩ := unit_bind_ok.1 h
  obtain ⟨-,h⟩ := unit_bind_ok.1 h
  exact (Except.ok.inj h).symm

/-- An anchor was added, of either kind. -/
structure Anchored (a b : Attestation) : Prop where
  claimed : b.claimedTime = a.claimedTime
  observed : b.observedTime = a.observedTime
  anchored : b.hasIndependentAnchor = true

theorem anchored_of_stellar {anchor : StellarAnchor} (h : addStellarAnchor a anchor=.ok b) :
    Anchored a b := by
  obtain rfl := addStellarAnchor_ok h
  exact ⟨rfl,rfl,by simp [Attestation.hasIndependentAnchor]⟩

theorem anchored_of_rfc3161 {anchor : RFC3161Anchor} (h : addRfc3161Anchor a anchor=.ok b) :
    Anchored a b := by
  obtain rfl := addRfc3161Anchor_ok h
  exact ⟨rfl,rfl,by simp [Attestation.hasIndependentAnchor]⟩

theorem Anchored.level_le (h : Anchored a b) : riskLevel b≤riskLevel a := by
  have hlevel := riskLevel_anchor h.claimed h.observed h.anchored
  split_ifs at hlevel with hanchored
  · rw [hlevel]
    exact Nat.le_refl _
  · exact Nat.le_of_lt hlevel

theorem Anchored.level_ge_iff (h : Anchored a b) :
    riskLevel a≤riskLevel b ↔ a.hasIndependentAnchor=true := by
  have hlevel := riskLevel_anchor h.claimed h.observed h.anchored
  split_ifs at hlevel with hanchored
  · rw [hlevel]
    exact ⟨fun _ => hanchored,fun _ => Nat.le_refl _⟩
  · refine ⟨fun hle => ?_,fun htrue => absurd htrue hanchored⟩
    exact absurd hlevel (Nat.not_lt.2 hle)

theorem backdating_risk (a : Attestation) :
    (∀ claimed earlier, a.claimedTime = some claimed →
      (∀ o, a.observedTime = some o → claimed.unixMs ≤ o.unixMs) → earlier ≤ claimed.unixMs →
      riskLevel a ≤ riskLevel (a.claiming claimed earlier)) ∧
    (∀ anchor b, addStellarAnchor a anchor = .ok b → riskLevel b ≤ riskLevel a) ∧
    (∀ anchor b, addRfc3161Anchor a anchor = .ok b → riskLevel b ≤ riskLevel a) ∧
    ∀ anchor b, addRfc3161Anchor a anchor = .ok b → anchor.verificationStatus ≠ .valid →
      (riskLevel a ≤ riskLevel b ↔ a.hasIndependentAnchor = true) := by
  refine ⟨fun claimed earlier hc hpast h => riskLevel_earlier hc hpast h,?_,?_,?_⟩
  · intro anchor b h
    exact (anchored_of_stellar h).level_le
  · intro anchor b h
    exact (anchored_of_rfc3161 h).level_le
  · intro anchor b h _
    exact (anchored_of_rfc3161 h).level_ge_iff

/-- An attestation of a time claimed a minute before it was observed. -/
def recentAttestation (stellarAnchors : List StellarAnchor) : Attestation where
  version := 1
  protocol := "harpocrates-time-attestation/v1".toList
  evidenceDigest := List.replicate 64 'a'
  claimedTime := some ⟨1700000000000,"device_clock".toList,0⟩
  observedTime := some ⟨1700000060000,"backend_system_clock".toList⟩
  stellarAnchors

def ledgerAnchor : StellarAnchor where
  ledgerSequence := 100
  ledgerTimestamp := 1700000060
  transactionHash := List.replicate 64 'b'
  networkPassphrase := "Test SDF Network ; September 2015".toList

def invalidAnchor : RFC3161Anchor where
  tokenBytes := "token".toList
  tsaUrl := "https://tsa.example.com".toList
  genTime := 1700000060000
  verificationStatus := .invalid
  verificationError := some "untrusted_root".toList

theorem invalid_anchor_beside_ledger :
    ∃ b, addRfc3161Anchor (recentAttestation [ledgerAnchor]) invalidAnchor = .ok b ∧
      riskLevel (recentAttestation [ledgerAnchor]) ≤ riskLevel b :=
  ⟨_,rfl,((backdating_risk (recentAttestation [ledgerAnchor])).2.2.2 invalidAnchor _ rfl
    (by decide)).2 rfl⟩

/-- A first anchor that did not verify takes the level from medium to none. -/
theorem invalid_anchor_lowers_risk : ∃ b, addRfc3161Anchor (recentAttestation []) invalidAnchor =
    .ok b ∧ riskLevel (recentAttestation []) = .medium ∧ riskLevel b = .none := by
  exact ⟨_,rfl,by decide +kernel,by decide +kernel⟩

end Harpocrates.Backend.TimeAttestation
