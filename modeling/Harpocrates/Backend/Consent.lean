import Mathlib.Data.Rat.Defs
import Mathlib.Algebra.Order.Ring.Rat
import Harpocrates.Framework.Dict
import Harpocrates.Framework.Python

namespace Harpocrates.Backend.Analytics

open Framework Framework.Python

/-! The consent of accounts to the collection of events. Times are in seconds. -/

inductive ConsentStatus
  | unknown | granted | denied | expired | withdrawn | invalid | grace
  deriving DecidableEq

inductive ConsentSource
  | userExplicit | userImplicit | legal | systemDefault | token | apiRequest | unknownSource
  deriving DecidableEq

structure ConsentDecision where
  status : ConsentStatus
  source : ConsentSource
  scope : List Text
  expiresAt : ℚ
  consentToken : Option Text := none
  withdrawalAt : Option ℚ := none

/-- The state of an account. The time of the grant and the schema version are read nowhere. -/
structure ConsentState where
  status : ConsentStatus := .unknown
  source : ConsentSource := .unknownSource
  expiresAt : ℚ := 0
  withdrawalAt : Option ℚ := none
  grantedScopes : List Text := []
  consentToken : Option Text := none
  lastModified : ℚ := 0
  deriving DecidableEq

abbrev ConsentStates := List (Text × ConsentState)

def ConsentState.expired (state : ConsentState) (now : ℚ) : Bool :=
  state.status = .granted && 0 < state.expiresAt && state.expiresAt < now

def ConsentState.effectiveStatus (state : ConsentState) (now : ℚ) : ConsentStatus :=
  if state.expired now then .expired else state.status

def graceState (gracePeriod now : ℚ) : ConsentState where
  status := .grace
  source := .systemDefault
  expiresAt := now+gracePeriod
  lastModified := now

def ConsentState.covers (state : ConsentState) : Option Text → Bool
  | none => true
  | some scope => state.grantedScopes.contains scope || state.grantedScopes.contains "*".toList

def ConsentStatus.over : ConsentStatus → Bool
  | .expired => true
  | .withdrawn => true
  | .invalid => true
  | _ => false

/-- The verdict on an account and the state it was read from. An account that is seen for the first
time is refused and enters its grace period. -/
def checkConsent (gracePeriod : ℚ) (states : ConsentStates) (account scope : Option Text)
    (now : ℚ) : ConsentStates × Bool × ConsentState :=
  match account with
  | none => (states,true,graceState gracePeriod now)
  | some account =>
    match states.lookup account with
    | none =>
      (Dict.set states account (graceState gracePeriod now),false,graceState gracePeriod now)
    | some state =>
      if (state.effectiveStatus now).over then (states,false,state)
      else if !state.covers scope then (states,false,state)
      else (states,true,state)

def ConsentDecision.state (decision : ConsentDecision) (now : ℚ) : ConsentState where
  status := decision.status
  source := decision.source
  expiresAt := decision.expiresAt
  withdrawalAt := decision.withdrawalAt
  grantedScopes := decision.scope
  consentToken := decision.consentToken
  lastModified := now

/-- Two states that a decision does not tell apart. -/
def ConsentState.same (a b : ConsentState) : Bool :=
  a.status = b.status && a.source = b.source && a.grantedScopes = b.grantedScopes &&
    a.expiresAt = b.expiresAt && a.consentToken = b.consentToken &&
    a.withdrawalAt = b.withdrawalAt

def setConsent (states : ConsentStates) (account : Text) (decision : ConsentDecision) (now : ℚ) :
    ConsentStates :=
  let new := decision.state now
  match states.lookup account with
  | none => Dict.set states account new
  | some existing =>
    Dict.set states account
      (if existing.same new then { existing with lastModified := now } else new)

def withdrawConsent (states : ConsentStates) (account : Text) (now : ℚ) : ConsentStates :=
  let state := (states.lookup account).getD { source := .userExplicit }
  Dict.set states account { state with
    status := .withdrawn
    withdrawalAt := some now
    lastModified := now }

def invalidateConsent (states : ConsentStates) (account : Text) (now : ℚ) : ConsentStates :=
  let state := (states.lookup account).getD { source := .systemDefault }
  Dict.set states account { state with
    status := .invalid
    lastModified := now }

def pruneExpired (gracePeriod : ℚ) (states : ConsentStates) (now : ℚ) (maxToPrune : Int) :
    ConsentStates :=
  Dict.remove states (((states.filter fun e =>
    e.2.status.over && gracePeriod < now-e.2.lastModified).take maxToPrune.toNat).map (·.1))

variable {gracePeriod now : ℚ} {states : ConsentStates} {account other : Text}

theorem checkConsent_fresh {scope : Option Text} (h : states.lookup account=none) :
    checkConsent gracePeriod states (some account) scope now =
      (Dict.set states account (graceState gracePeriod now),false,graceState gracePeriod now) := by
  simp only [checkConsent,h]

theorem checkConsent_stored {scope : Option Text} {state : ConsentState}
    (h : states.lookup account=some state) :
    checkConsent gracePeriod states (some account) scope now =
      (states,!(state.effectiveStatus now).over && state.covers scope,state) := by
  simp only [checkConsent,h]
  cases hover : (state.effectiveStatus now).over with
  | true => rfl
  | false =>
    cases hcovers : state.covers scope with
    | true => rfl
    | false => rfl

theorem lookup_checkConsent {tag scope : Option Text} :
    (checkConsent gracePeriod states tag scope now).1.lookup account =
      if tag=some account ∧ states.lookup account=none then some (graceState gracePeriod now)
      else states.lookup account := by
  unfold checkConsent
  split
  · simp
  rename_i tag
  split
  · rename_i hnone
    rw [Dict.lookup_set]
    by_cases htag : account=tag
    · subst htag
      simp [hnone]
    · rw [if_neg htag,if_neg (by simp [Ne.symm htag])]
  · rename_i state hsome
    have hstates : ¬ (some tag=some account ∧ states.lookup account=none) := by
      rintro ⟨htag,hnone⟩
      cases htag
      rw [hsome] at hnone
      cases hnone
    rw [if_neg hstates]
    split_ifs
    · rfl
    · rfl
    · rfl

theorem lookup_setConsent {decision : ConsentDecision} :
    (setConsent states account decision now).lookup other =
      if other=account then some (decision.state now) else states.lookup other := by
  unfold setConsent
  dsimp only
  split
  · rw [Dict.lookup_set]
  · rename_i existing _
    rw [Dict.lookup_set]
    have heq : (if existing.same (decision.state now) then { existing with lastModified := now }
        else decision.state now)=decision.state now := by
      split
      · rename_i hsame
        simp only [ConsentState.same,Bool.and_eq_true,decide_eq_true_eq] at hsame
        obtain ⟨⟨⟨⟨⟨hstatus,hsource⟩,hscopes⟩,hexpires⟩,htoken⟩,hwithdrawal⟩ := hsame
        rw [hstatus,hsource,hscopes,hexpires,htoken,hwithdrawal]
        rfl
      · rfl
    rw [heq]

end Harpocrates.Backend.Analytics
