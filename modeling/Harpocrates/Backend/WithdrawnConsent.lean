import Harpocrates.Backend.AnalyticsEngine

namespace Harpocrates.Backend.Analytics

open Framework Framework.Python List

inductive Call
  | setConsent (account : Text) (decision : ConsentDecision)
  | withdrawConsent (account : Text)
  | invalidateConsent (account : Text)
  | pruneExpired (maxToPrune : Int)
  | checkConsent (account scope : Option Text)
  | processEvent (call : EventCall)

def perform (config : EngineConfig) (states : ConsentStates) : ℚ × Call → ConsentStates
  | (now,.setConsent account decision) => setConsent states account decision now
  | (now,.withdrawConsent account) => withdrawConsent states account now
  | (now,.invalidateConsent account) => invalidateConsent states account now
  | (now,.pruneExpired maxToPrune) => pruneExpired config.gracePeriod states now maxToPrune
  | (now,.checkConsent account scope) =>
    (checkConsent config.gracePeriod states account scope now).1
  | (now,.processEvent call) => (processEvent config states now call).1

def statesAfter (config : EngineConfig) (calls : List (ℚ × Call)) : ConsentStates :=
  calls.foldl (perform config) []

structure Standing where
  stopped : Bool := false
  /-- When the grant in force expires, if the last decision is a grant. -/
  grant : Option ℚ := none

def Standing.ended (standing : Standing) (now : ℚ) : Bool :=
  standing.stopped || standing.grant.any fun expiresAt => 0 < expiresAt && expiresAt < now

def Standing.decided (standing : Standing) (now : ℚ) (decision : ConsentDecision) : Standing :=
  match decision.status with
  | .granted => { grant := some decision.expiresAt }
  -- neither a grant nor a refusal: what had ended stays ended
  | .unknown => { stopped := standing.ended now }
  | .grace => { stopped := standing.ended now }
  | _ => { stopped := true }

def Standing.follow (account : Text) (standing : Standing) : ℚ × Call → Standing
  | (now,.setConsent a decision) =>
    if account = a then standing.decided now decision else standing
  | (_,.withdrawConsent a) => if account = a then { stopped := true } else standing
  | (_,.invalidateConsent a) => if account = a then { stopped := true } else standing
  | _ => standing

def standingAfter (account : Text) (calls : List (ℚ × Call)) : Standing :=
  calls.foldl (Standing.follow account) {}

variable {config : EngineConfig} {states : ConsentStates} {account : Text} {now : ℚ}
  {standing : Standing}

/-- The states hold no grant but the one in force. -/
structure Follows (account : Text) (states : ConsentStates) (standing : Standing) : Prop where
  stopped : standing.stopped → standing.grant = none
  granted : ∀ state, states.lookup account = some state → state.status = .granted →
    standing.grant = some state.expiresAt

theorem Follows.of_lookup {states' : ConsentStates} (h : Follows account states standing)
    (hlookup : ∀ state, states'.lookup account=some state → state.status=.granted →
      states.lookup account=some state) : Follows account states' standing :=
  ⟨h.stopped,fun state hstate hgranted => h.granted state (hlookup state hstate hgranted) hgranted⟩

theorem follows_decided {decision : ConsentDecision} :
    Follows account (setConsent states account decision now) (standing.decided now decision) := by
  constructor
  · intro hstopped
    unfold Standing.decided at hstopped ⊢
    split at hstopped
    · cases hstopped
    · rfl
    · rfl
    · rfl
  · intro state hstate hgranted
    rw [lookup_setConsent,if_pos rfl] at hstate
    cases hstate
    have hstatus : decision.status=.granted := hgranted
    simp only [Standing.decided,hstatus]
    rfl

variable {state : ConsentState} {scope : Option Text} {call : EventCall} {event : TrackedEvent}

theorem follows_replaced {a : Text} (h : Follows account states standing)
    (hstate : state.status≠.granted) : Follows account (Dict.set states a state)
      (if account=a then { stopped := true } else standing) := by
  split_ifs with ha
  · refine ⟨fun _ => rfl,fun found hfound hgranted => ?_⟩
    rw [Dict.lookup_set,if_pos ha] at hfound
    cases hfound
    exact absurd hgranted hstate
  · apply h.of_lookup
    intro found hfound _
    rwa [Dict.lookup_set,if_neg ha] at hfound

theorem follows_check {tag : Option Text} (h : Follows account states standing) :
    Follows account (checkConsent config.gracePeriod states tag scope now).1 standing := by
  apply h.of_lookup
  intro state hstate hgranted
  rw [lookup_checkConsent] at hstate
  split at hstate
  · cases hstate
    cases hgranted
  · exact hstate

theorem states_processEvent : (processEvent config states now call).1=states ∨
      (processEvent config states now call).1 =
        (checkConsent config.gracePeriod states call.account
          (some ("analytics:".toList++call.eventName.toList)) now).1 := by
  unfold processEvent
  split_ifs
  · exact .inl rfl
  · exact .inr rfl
  · exact .inl rfl

theorem follows_perform (timed : ℚ × Call) (h : Follows account states standing) :
    Follows account (perform config states timed) (standing.follow account timed) := by
  obtain ⟨now,call⟩ := timed
  cases call with
  | setConsent a decision =>
    show Follows account (setConsent states a decision now)
      (if account=a then standing.decided now decision else standing)
    by_cases ha : account=a
    · rw [if_pos ha,← ha]
      exact follows_decided
    · rw [if_neg ha]
      apply h.of_lookup
      intro state hstate _
      rwa [lookup_setConsent,if_neg ha] at hstate
  | withdrawConsent a => exact follows_replaced h (by simp)
  | invalidateConsent a => exact follows_replaced h (by simp)
  | pruneExpired maxToPrune =>
    apply h.of_lookup
    intro state hstate _
    simp only [perform,pruneExpired,Dict.lookup_remove] at hstate
    split at hstate
    · cases hstate
    · exact hstate
  | checkConsent tag scope => exact follows_check h
  | processEvent call =>
    show Follows account (processEvent config states now call).1 standing
    have hstates : (processEvent config states now call).1=states ∨ _ := states_processEvent
    rcases hstates with heq | heq
    · rw [heq]
      exact h
    · rw [heq]
      exact follows_check h

theorem follows_foldl (calls : List (ℚ × Call)) (h : Follows account states standing) :
    Follows account (calls.foldl (perform config) states)
      (calls.foldl (Standing.follow account) standing) := by
  induction calls generalizing states standing with
  | nil => exact h
  | cons timed calls ih => exact ih (follows_perform timed h)

theorem follows_after (calls : List (ℚ × Call)) :
    Follows account (statesAfter config calls) (standingAfter account calls) := by
  apply follows_foldl
  exact ⟨fun _ => rfl,fun _ hstate _ => by cases hstate⟩

/-- A grant that is still stored when consent has ended is over. -/
theorem Follows.expired (h : Follows account states standing) (hended : standing.ended now)
    (hstate : states.lookup account=some state) (hgranted : state.status=.granted) :
    state.expired now := by
  have hgrant := h.granted state hstate hgranted
  have hstopped : standing.stopped=false := by
    cases hs : standing.stopped with
    | false => rfl
    | true =>
      have hnone := h.stopped hs
      rw [hgrant] at hnone
      cases hnone
  rw [Standing.ended,hstopped,hgrant] at hended
  simpa [ConsentState.expired,hgranted] using hended

def CheckShut (states : ConsentStates) (account : Text) (scope : Option Text) : Prop :=
  ∀ state, states.lookup account = some state →
    state.status ∈ [ConsentStatus.denied,.unknown,.grace] → state.covers scope = false

theorem check_false_iff
    (hexpired : ∀ state, states.lookup account=some state → state.status=.granted →
      state.expired now) :
    (checkConsent config.gracePeriod states (some account) scope now).2.1=false ↔
      CheckShut states account scope := by
  unfold CheckShut
  cases hlookup : states.lookup account with
  | none => simp [checkConsent_fresh hlookup]
  | some state =>
    rw [checkConsent_stored hlookup]
    simp only [Option.some.injEq,forall_eq']
    by_cases hgranted : state.status=.granted
    · rw [ConsentState.effectiveStatus,if_pos (hexpired state hlookup hgranted),hgranted]
      simp [ConsentStatus.over]
    · have hstatus : state.effectiveStatus now=state.status := by
        simp [ConsentState.effectiveStatus,ConsentState.expired,hgranted]
      rw [hstatus]
      -- what is over is refused whatever the scope, the other statuses by their scopes
      cases hcase : state.status with
      | granted => exact absurd hcase hgranted
      | _ => simp [ConsentStatus.over]

theorem lifecycle_transition {state : LifecycleState} {reason : Option String} :
    (transitionEventState event state reason).lifecycleState =
      if state∈VALID_TRANSITIONS event.lifecycleState then state else .failedStable := by
  unfold transitionEventState
  split_ifs
  · rfl
  · rfl

theorem reject_not_ingested {state : LifecycleState} {reason : String} :
    (reject event state reason).lifecycleState≠.ingested := by
  rw [reject,lifecycle_transition]
  split_ifs
  · decide
  · decide

def TurnedAway (config : EngineConfig) (call : EventCall) : Prop :=
  (config.sessionReplayProtectionEnabled ∧ call.replayNonce ∧ call.replayOutcome ≠ "new") ∨
    (config.samplingEnabled ∧ call.sampledIn = false)

def Stranded (config : EngineConfig) (call : EventCall) (state : LifecycleState) : Prop :=
  ¬ (config.fieldRedactionEnabled ∧ call.hasPayload) ∧ state ≠ .failedStable ∧
    (config.samplingEnabled → state = .consentGranted)

theorem lifecycle_ingestStep : (ingestStep event).lifecycleState=.ingested ↔
      event.lifecycleState∈[LifecycleState.ingested,.redacted,.failedStable] := by
  unfold ingestStep
  split_ifs with h
  · rw [lifecycle_transition]
    cases hstate : event.lifecycleState with
    | _ => simp_all [VALID_TRANSITIONS]
  · cases hstate : event.lifecycleState with
    | _ => simp_all

theorem lifecycle_redactionStep : (redactionStep config call event).lifecycleState =
      if config.fieldRedactionEnabled ∧ call.hasPayload then
        if event.lifecycleState=.sampledIn then .redacted else .failedStable
      else event.lifecycleState := by
  unfold redactionStep
  simp only [Bool.and_eq_true]
  split
  · rw [lifecycle_transition]
    cases hstate : event.lifecycleState with
    | _ => simp [VALID_TRANSITIONS]
  · rfl

theorem lifecycle_samplingStep (hin : ¬ (config.samplingEnabled ∧ call.sampledIn=false)) :
    ∃ sampled, samplingStep config call event=.ok sampled ∧
      sampled.lifecycleState =
        if config.samplingEnabled then
          if event.lifecycleState=.consentGranted then .sampledIn else .failedStable
        else event.lifecycleState := by
  unfold samplingStep
  cases hsampling : config.samplingEnabled with
  | false => exact ⟨event,rfl,rfl⟩
  | true =>
    have hsampled : call.sampledIn=true := by simpa [hsampling] using hin
    rw [hsampled]
    refine ⟨_,rfl,?_⟩
    rw [lifecycle_transition]
    cases hstate : event.lifecycleState with
    | _ => simp [VALID_TRANSITIONS]

theorem afterConsent_not_ingested_iff (hstate : event.lifecycleState ∈
      [LifecycleState.allowlisted,.consentGranted,.consentPending,.failedStable]) :
    (afterConsent config call event).event.lifecycleState≠.ingested ↔
      TurnedAway config call ∨ Stranded config call event.lifecycleState := by
  unfold afterConsent
  by_cases hreplay : config.sessionReplayProtectionEnabled ∧ call.replayNonce ∧
      call.replayOutcome ≠ "new"
  · have hstep : replayStep config call event =
        .error (reject event .replayRejected ("replay:"++call.replayOutcome)) := by
      simp [replayStep,hreplay]
    rw [hstep]
    exact ⟨fun _ => .inl (.inl hreplay),fun _ => reject_not_ingested⟩
  have hstep : replayStep config call event=.ok event := by
    unfold replayStep
    rw [if_neg]
    simpa [and_assoc] using hreplay
  rw [hstep]
  show (Processing.event do
    let event ← samplingStep config call event
    return ingestStep (redactionStep config call event)).lifecycleState ≠ _ ↔ _
  by_cases hout : config.samplingEnabled ∧ call.sampledIn=false
  · have hsample : samplingStep config call event =
        .error (reject event .sampledOut ("sampling:"++call.samplingOutcome)) := by
      simp [samplingStep,hout]
    rw [hsample]
    exact ⟨fun _ => .inl (.inr hout),fun _ => reject_not_ingested⟩
  have hguards : ¬ TurnedAway config call := by
    rintro (h | h)
    · exact hreplay h
    · exact hout h
  rw [or_iff_right hguards]
  obtain ⟨sampled,hsample,hsampled⟩ :
      ∃ sampled, samplingStep config call event=.ok sampled ∧ _ := lifecycle_samplingStep hout
  rw [hsample]
  show (ingestStep (redactionStep config call sampled)).lifecycleState ≠ _ ↔ _
  rw [Ne,lifecycle_ingestStep,lifecycle_redactionStep,hsampled,Stranded]
  simp only [mem_cons,not_mem_nil,or_false] at hstate
  by_cases hredacted : config.fieldRedactionEnabled ∧ call.hasPayload
  · rw [if_pos hredacted]
    constructor
    · intro hnot
      refine absurd ?_ hnot
      split_ifs
      all_goals simp
    · intro hstranded
      exact absurd hredacted hstranded.1
  · rw [if_neg hredacted]
    simp only [hredacted,not_false_eq_true,true_and]
    cases hsampling : config.samplingEnabled with
    | false => rcases hstate with h | h | h | h <;> simp [h]
    | true => rcases hstate with h | h | h | h <;> simp [h]

/-- The event does not get through: it is not on the allowlist, the stored decision is a denial,
a guard turns it away, or its last transition is refused. -/
def EventShut (config : EngineConfig) (states : ConsentStates) (account : Text)
    (call : EventCall) : Prop :=
  (config.eventAllowlistEnabled ∧ config.allowlist.isAllowed call.eventName = false) ∨
    (config.consentCheckEnabled ∧ (states.lookup account).map (·.status) = some .denied) ∨
    TurnedAway config call ∨
    (¬ (config.fieldRedactionEnabled ∧ call.hasPayload) ∧
      call.created.lifecycleState = .created ∧
      (config.samplingEnabled → config.consentCheckEnabled ∧
        (states.lookup account).map (·.status) = some .granted))

theorem lifecycle_allowlisted : (transitionEventState event .allowlisted).lifecycleState =
      if event.lifecycleState=.created then .allowlisted else .failedStable := by
  rw [lifecycle_transition]
  cases hstate : event.lifecycleState with
  | _ => simp [VALID_TRANSITIONS]

theorem checkConsent_status :
    (checkConsent config.gracePeriod states (some account) scope now).2.2.status =
      ((states.lookup account).map (·.status)).getD .grace := by
  cases hlookup : states.lookup account with
  | none => rw [checkConsent_fresh hlookup]; rfl
  | some state => rw [checkConsent_stored hlookup]; rfl

/-- An event that the consent check has moved on, or that stays failed. -/
theorem moved_not_ingested_iff {moved : TrackedEvent} (state : LifecycleState)
    (hevent : event.lifecycleState∈[LifecycleState.allowlisted,.failedStable])
    (hstate : state∈[LifecycleState.consentGranted,.consentPending])
    (hmoved : moved.lifecycleState=(transitionEventState event state).lifecycleState) :
    (afterConsent config call moved).event.lifecycleState≠.ingested ↔ TurnedAway config call ∨
      (¬ (config.fieldRedactionEnabled ∧ call.hasPayload) ∧
        event.lifecycleState≠.failedStable ∧
        (config.samplingEnabled → state=.consentGranted)) := by
  simp only [mem_cons,not_mem_nil,or_false] at hevent hstate
  have hlifecycle : moved.lifecycleState =
      if event.lifecycleState=.allowlisted then state else .failedStable := by
    rw [hmoved,lifecycle_transition]
    rcases hevent with h | h <;> rcases hstate with rfl | rfl <;> simp [h,VALID_TRANSITIONS]
  rw [afterConsent_not_ingested_iff,Stranded,hlifecycle]
  · rcases hevent with h | h <;> simp [h]
    rcases hstate with rfl | rfl <;> simp
  · rw [hlifecycle]
    split_ifs
    · rcases hstate with rfl | rfl <;> simp
    · simp

theorem consentStep_not_ingested_iff {status : ConsentStatus}
    (hstate : event.lifecycleState∈[LifecycleState.allowlisted,.failedStable]) :
    (Processing.event do
        afterConsent config call (← consentStep status event)).lifecycleState≠.ingested ↔
      status=.denied ∨ TurnedAway config call ∨
        (¬ (config.fieldRedactionEnabled ∧ call.hasPayload) ∧
          event.lifecycleState≠.failedStable ∧ (config.samplingEnabled → status=.granted)) := by
  cases status with
  | granted =>
    refine (moved_not_ingested_iff .consentGranted hstate (by simp) rfl).trans ?_
    simp
  | denied => exact ⟨fun _ => .inl rfl,fun _ => reject_not_ingested⟩
  -- a status that is no decision leaves the event pending, like one in grace
  | _ =>
    refine Iff.trans (moved_not_ingested_iff .consentPending hstate (by simp) ?_) ?_
    · rfl
    · simp

theorem process_not_ingested_iff (haccount : call.account=some account) :
    (processEvent config states now call).2.lifecycleState≠.ingested ↔
      EventShut config states account call := by
  have hcreated : (transitionEventState call.created .allowlisted).lifecycleState≠.failedStable ↔
      call.created.lifecycleState=.created := by
    rw [lifecycle_allowlisted]
    split_ifs with h <;> simp [h]
  have hallowlisted : (transitionEventState call.created .allowlisted).lifecycleState ∈
      [LifecycleState.allowlisted,.failedStable] := by
    rw [lifecycle_allowlisted]
    split_ifs <;> simp
  unfold processEvent EventShut
  by_cases hlisted : config.eventAllowlistEnabled ∧
      config.allowlist.isAllowed call.eventName=false
  · rw [if_pos (by simpa using hlisted)]
    refine ⟨fun _ => .inl hlisted,fun _ => ?_⟩
    rw [lifecycle_transition]
    split_ifs
    · decide
    · decide
  rw [if_neg (by simpa using hlisted),or_iff_right hlisted]
  cases hconsent : config.consentCheckEnabled with
  | true =>
    rw [if_pos rfl,haccount]
    show (Processing.event do afterConsent config call (← consentStep
      (checkConsent _ _ _ _ _).2.2.status _)).lifecycleState ≠ _ ↔ _
    rw [consentStep_not_ingested_iff hallowlisted,checkConsent_status,hcreated]
    cases hlookup : states.lookup account with
    | none => simp
    | some state => simp
  | false =>
    rw [if_neg (by decide)]
    show (afterConsent config call _).event.lifecycleState ≠ _ ↔ _
    rw [afterConsent_not_ingested_iff (by
      rw [lifecycle_allowlisted]
      split_ifs <;> simp),Stranded,hcreated]
    have hnot : (transitionEventState call.created .allowlisted).lifecycleState ≠
        .consentGranted := by
      rw [lifecycle_allowlisted]
      split_ifs <;> decide
    simp [hnot]

/-- Once consent has ended by the calls made, and until it is granted again, exactly these calls
respect it. -/
theorem ended_consent_respected_iff (config : EngineConfig) (calls : List (ℚ × Call))
    (account : Text) (now : ℚ) (hended : (standingAfter account calls).ended now) :
    (∀ scope, (checkConsent config.gracePeriod (statesAfter config calls) (some account) scope
        now).2.1 = false ↔ CheckShut (statesAfter config calls) account scope) ∧
      ∀ call : EventCall, call.account = some account →
        ((processEvent config (statesAfter config calls) now call).2.lifecycleState ≠ .ingested ↔
          EventShut config (statesAfter config calls) account call) := by
  have hfollows : Follows account (statesAfter config calls) (standingAfter account calls) :=
    follows_after calls
  constructor
  · intro scope
    apply check_false_iff
    intro state hstate hgranted
    exact hfollows.expired hended hstate hgranted
  · intro call haccount
    exact process_not_ingested_iff haccount

def allScopes (status : ConsentStatus) : ConsentDecision where
  status := status
  source := .userExplicit
  scope := ["*".toList]
  expiresAt := 0

def grantedThenWithdrawn : List (ℚ × Call) :=
  [(1,.setConsent "acct".toList (allScopes .granted)),(2,.withdrawConsent "acct".toList)]

def proofCompleted : EventCall where
  eventName := "proof.generate_completed"
  account := some "acct".toList
  hasPayload := true
  replayNonce := false
  replayOutcome := "new"
  sampledIn := true
  samplingOutcome := "sampled_in"

def unlisted : EventCall := { proofCompleted with eventName := "proof.other" }

theorem withdrawn_consent_respected :
    (checkConsent 1800 (statesAfter {} grantedThenWithdrawn) (some "acct".toList) none 3).2.1 =
        false ∧
      (processEvent {} (statesAfter {} grantedThenWithdrawn) 3 unlisted).2.lifecycleState ≠
        .ingested := by
  have hended : (standingAfter "acct".toList grantedThenWithdrawn).ended 3 := by decide
  obtain ⟨hcheck,hevent⟩ :=
    ended_consent_respected_iff {} grantedThenWithdrawn "acct".toList 3 hended
  refine ⟨(hcheck none).2 ?_,(hevent unlisted rfl).2 (.inl ⟨rfl,by decide⟩)⟩
  intro state hstate hstatus
  cases hstate
  exact absurd hstatus (by decide)

/-- A withdrawn account's event is ingested, and a denied account passes the check that names no
scope. -/
theorem ended_consent_ignored :
    (standingAfter "acct".toList grantedThenWithdrawn).ended 3 ∧
      (processEvent {} (statesAfter {} grantedThenWithdrawn) 3 proofCompleted).2.lifecycleState =
        .ingested ∧
      (standingAfter "acct".toList [(1,.setConsent "acct".toList (allScopes .denied))]).ended 3 ∧
      (checkConsent 1800 (statesAfter {} [(1,.setConsent "acct".toList (allScopes .denied))])
        (some "acct".toList) none 3).2.1 = true := by
  refine ⟨by decide,by decide,by decide,by decide⟩

end Harpocrates.Backend.Analytics
