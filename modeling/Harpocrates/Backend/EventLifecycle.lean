import Harpocrates.Backend.AnalyticsEngine

namespace Harpocrates.Backend.Analytics

open Framework Framework.Python List

abbrev Request := LifecycleState × Option String

def request (event : TrackedEvent) (r : Request) : TrackedEvent :=
  transitionEventState event r.1 r.2

def EngineConfig.allEnabled (config : EngineConfig) : Bool :=
  config.eventAllowlistEnabled && config.consentCheckEnabled &&
    config.sessionReplayProtectionEnabled && config.samplingEnabled && config.fieldRedactionEnabled

def EventCall.replayed (call : EventCall) : Bool := call.replayNonce && call.replayOutcome ≠ "new"

def rejection (state : LifecycleState) (reason : String) : List Request :=
  [(state,some reason),(.dropped,some reason)]

def requestsAfterConsent (call : EventCall) : List Request :=
  if call.replayed then rejection .replayRejected ("replay:"++call.replayOutcome)
  else if call.sampledIn then
    (.sampledIn,none)::((if call.hasPayload then [(.redacted,none)] else [])++[(.ingested,none)])
  else rejection .sampledOut ("sampling:"++call.samplingOutcome)

def requestsFor (call : EventCall) : ConsentStatus → List Request
  | .granted => (.consentGranted,none)::requestsAfterConsent call
  | .denied => rejection .consentDenied "consent_denied"
  | _ => (.consentPending,none)::requestsAfterConsent call

def requests (config : EngineConfig) (call : EventCall) (status : ConsentStatus) : List Request :=
  if config.allowlist.isAllowed call.eventName then (.allowlisted,none)::requestsFor call status
  else [(.dropped,some "allowlist_rejected")]

/-- The status that the consent check reads for a call. -/
def consentStatus (config : EngineConfig) (states : ConsentStates) (now : ℚ) (call : EventCall) :
    ConsentStatus :=
  (checkConsent config.gracePeriod states call.account
    (some ("analytics:".toList++call.eventName.toList)) now).2.2.status

def SameCourse (e e' : TrackedEvent) : Prop :=
  e.lifecycleState = e'.lifecycleState ∧ e.rejectionReason = e'.rejectionReason

theorem SameCourse.request {e e' : TrackedEvent} (h : SameCourse e e') (r : Request) :
    SameCourse (request e r) (request e' r) := by
  obtain ⟨hstate,hreason⟩ := h
  unfold Analytics.request transitionEventState
  rw [hstate,hreason]
  split_ifs
  · exact ⟨rfl,rfl⟩
  · exact ⟨rfl,rfl⟩

theorem SameCourse.foldl {e e' : TrackedEvent} (h : SameCourse e e') (rs : List Request) :
    SameCourse (rs.foldl Analytics.request e) (rs.foldl Analytics.request e') := by
  induction rs generalizing e e' with
  | nil => exact h
  | cons r rs ih => exact ih (h.request r)

theorem request_state (event : TrackedEvent) (r : Request) :
    (request event r).lifecycleState=r.1 ∨
      (request event r).lifecycleState=.failedStable := by
  unfold request transitionEventState
  split_ifs
  · exact .inl rfl
  · exact .inr rfl

theorem ingestStep_request (event : TrackedEvent) (r : Request) (hi : r.1≠.ingested)
    (hd : r.1≠.dropped) :
    ingestStep (request event r)=request (request event r) (.ingested,none) := by
  unfold ingestStep
  rcases request_state event r with hstate | hstate
  · rw [hstate]
    simp [hi,hd,request]
  · rw [hstate]
    simp [request]

variable {config : EngineConfig} {states : ConsentStates} {now : ℚ} {call : EventCall}

theorem afterConsent_eq (hon : config.allEnabled=true) (event : TrackedEvent) :
    (afterConsent config call event).event=(requestsAfterConsent call).foldl request event := by
  simp only [EngineConfig.allEnabled,Bool.and_eq_true] at hon
  obtain ⟨⟨⟨⟨-,-⟩,hreplay⟩,hsampling⟩,hredaction⟩ := hon
  have hguard : replayStep config call event=if call.replayed then
      .error (reject event .replayRejected ("replay:"++call.replayOutcome)) else .ok event := by
    rw [replayStep,hreplay,Bool.true_and]
    rfl
  have hsample : samplingStep config call event=if call.sampledIn then
      .ok (request event (.sampledIn,none))
      else .error (reject event .sampledOut ("sampling:"++call.samplingOutcome)) := by
    rw [samplingStep,hsampling,if_pos rfl]
    rfl
  have hredact : ∀ e, redactionStep config call e =
      if call.hasPayload then request e (.redacted,none) else e := by
    intro e
    rw [redactionStep,hredaction,Bool.true_and]
    rfl
  unfold afterConsent requestsAfterConsent
  rw [hguard]
  cases hreplayed : call.replayed with
  | true => rfl
  | false =>
    show Processing.event (samplingStep config call event >>= _) = _
    rw [hsample]
    cases hin : call.sampledIn with
    | false => rfl
    | true =>
      show ingestStep (redactionStep config call (request event (.sampledIn,none))) = _
      rw [hredact]
      cases hpayload : call.hasPayload with
      | true =>
        refine (ingestStep_request _ _ ?_ ?_).trans rfl
        · simp
        · simp
      | false =>
        refine (ingestStep_request _ _ ?_ ?_).trans rfl
        · simp
        · simp

/-- With all features on, an event ends as it does when the requests are made one by one. -/
theorem processEvent_requests (hon : config.allEnabled=true) :
    SameCourse (processEvent config states now call).2
      ((requests config call (consentStatus config states now call)).foldl request
        call.created) := by
  have hflags := hon
  simp only [EngineConfig.allEnabled,Bool.and_eq_true] at hflags
  obtain ⟨⟨⟨⟨hallow,hconsent⟩,-⟩,-⟩,-⟩ := hflags
  unfold processEvent requests consentStatus
  rw [hallow,hconsent,Bool.true_and,if_pos rfl]
  cases hallowed : config.allowlist.isAllowed call.eventName with
  | false => exact ⟨rfl,rfl⟩
  | true =>
    generalize checkConsent config.gracePeriod states call.account
      (some ("analytics:".toList++call.eventName.toList)) now=check
    obtain ⟨after,verdict,state⟩ := check
    have hgo : ∀ e e', SameCourse e e' → SameCourse (afterConsent config call e).event
        ((requestsAfterConsent call).foldl request e') := by
      intro e e' hsame
      rw [afterConsent_eq hon]
      exact hsame.foldl _
    show SameCourse (Processing.event (consentStep state.status
      (request call.created (.allowlisted,none)) >>= afterConsent config call)) _
    cases hstatus : state.status with
    | denied => exact ⟨rfl,rfl⟩
    | granted => exact hgo _ _ ⟨rfl,rfl⟩
    | unknown => exact hgo _ _ ⟨rfl,rfl⟩
    | expired => exact hgo _ _ ⟨rfl,rfl⟩
    | withdrawn => exact hgo _ _ ⟨rfl,rfl⟩
    | invalid => exact hgo _ _ ⟨rfl,rfl⟩
    | grace => exact hgo _ _ ⟨rfl,rfl⟩

def allAllowed : TrackedEvent → List Request → Bool
  | _,[] => true
  | event,r::rs => r.1 ∈ VALID_TRANSITIONS event.lifecycleState && allAllowed (request event r) rs

def passed : TrackedEvent → List Request → List LifecycleState
  | _,[] => []
  | event,r::rs => (request event r).lifecycleState::passed (request event r) rs

def Plain (reason : Option String) : Prop := ∀ rest, reason ≠ some ("invalid_transition"++rest)

variable {event : TrackedEvent}

theorem request_allowed {r : Request} (h : r.1∈VALID_TRANSITIONS event.lifecycleState) :
    (request event r).lifecycleState=r.1 ∧
      (request event r).rejectionReason=r.2.or event.rejectionReason := by
  unfold request transitionEventState
  rw [if_pos h]
  exact ⟨rfl,rfl⟩

variable {rs : List Request}

theorem passed_eq (h : allAllowed event rs=true) : passed event rs=rs.map (·.1) := by
  induction rs generalizing event with
  | nil => rfl
  | cons r rs ih =>
    rw [allAllowed,Bool.and_eq_true,decide_eq_true_eq] at h
    rw [passed,map_cons,(request_allowed h.1).1,ih h.2]

theorem lifecycleState_foldl (h : allAllowed event rs=true) :
    (rs.foldl request event).lifecycleState =
      (rs.map (·.1)).getLastD event.lifecycleState := by
  induction rs generalizing event with
  | nil => rfl
  | cons r rs ih =>
    rw [allAllowed,Bool.and_eq_true,decide_eq_true_eq] at h
    rw [foldl_cons,ih h.2,(request_allowed h.1).1,map_cons,getLastD_cons]

theorem plain_foldl (h : allAllowed event rs=true) (hevent : Plain event.rejectionReason)
    (hrs : ∀ r∈rs, Plain r.2) : Plain (rs.foldl request event).rejectionReason := by
  induction rs generalizing event with
  | nil => exact hevent
  | cons r rs ih =>
    rw [allAllowed,Bool.and_eq_true,decide_eq_true_eq] at h
    refine ih h.2 ?_ fun r' hr' => hrs r' (mem_cons_of_mem _ hr')
    rw [(request_allowed h.1).2]
    cases hreason : r.2 with
    | none => exact hevent
    | some reason =>
      rw [Option.some_or,← hreason]
      exact hrs r mem_cons_self

theorem plain_none : Plain none := fun rest h => by cases h

theorem plain_of_head {reason : String} (h : reason.toList.head? ≠ some 'i') :
    Plain (some reason) := by
  intro rest heq
  rw [Option.some.inj heq,String.toList_append] at h
  exact h rfl

theorem plain_rejection {state : LifecycleState} {reason : String} (h : Plain (some reason)) :
    ∀ r∈rejection state reason, Plain r.2 :=
  forall_mem_cons.2 ⟨h,forall_mem_singleton.2 h⟩

theorem plain_requestsAfterConsent (call : EventCall) :
    ∀ r∈requestsAfterConsent call, Plain r.2 := by
  unfold requestsAfterConsent
  split_ifs with hreplayed hin hpayload
  · refine plain_rejection (plain_of_head ?_)
    rw [String.toList_append]
    exact nofun
  · simp [plain_none]
  · simp [plain_none]
  · refine plain_rejection (plain_of_head ?_)
    rw [String.toList_append]
    exact nofun

theorem plain_requests (config : EngineConfig) (call : EventCall) (status : ConsentStatus) :
    ∀ r∈requests config call status, Plain r.2 := by
  have hrest := plain_requestsAfterConsent call
  have hdenied : Plain (some "consent_denied") := plain_of_head (by decide)
  have hdropped : Plain (some "allowlist_rejected") := plain_of_head (by decide)
  unfold requests
  split_ifs
  · refine forall_mem_cons.2 ⟨plain_none,?_⟩
    cases status with
    | denied => exact plain_rejection hdenied
    | granted => exact forall_mem_cons.2 ⟨plain_none,hrest⟩
    | unknown => exact forall_mem_cons.2 ⟨plain_none,hrest⟩
    | expired => exact forall_mem_cons.2 ⟨plain_none,hrest⟩
    | withdrawn => exact forall_mem_cons.2 ⟨plain_none,hrest⟩
    | invalid => exact forall_mem_cons.2 ⟨plain_none,hrest⟩
    | grace => exact forall_mem_cons.2 ⟨plain_none,hrest⟩
  · exact forall_mem_singleton.2 hdropped

def EndsWell (rs : List LifecycleState) : Prop :=
  rs.getLast? = some .dropped ∨ rs.getLast? = some .ingested ∧ .sampledIn ∈ rs

theorem EndsWell.cons {rs : List LifecycleState} (h : EndsWell rs) (s : LifecycleState) :
    EndsWell (s::rs) := by
  have hlast : ∀ s', rs.getLast? = some s' → (s::rs).getLast? = some s' := by
    intro s' hs'
    rw [List.getLast?_cons,hs']
    rfl
  exact h.imp (hlast _) fun ⟨hl,hin⟩ => ⟨hlast _ hl,mem_cons_of_mem _ hin⟩

theorem endsWell_requests (config : EngineConfig) (call : EventCall) (status : ConsentStatus) :
    EndsWell ((requests config call status).map (·.1)) := by
  have hrest : EndsWell ((requestsAfterConsent call).map (·.1)) := by
    unfold requestsAfterConsent
    split_ifs
    · exact .inl rfl
    · exact .inr ⟨rfl,by simp⟩
    · exact .inr ⟨rfl,by simp⟩
    · exact .inl rfl
  unfold requests
  split_ifs
  · refine EndsWell.cons ?_ .allowlisted
    cases status with
    | denied => exact .inl rfl
    | granted => exact hrest.cons _
    | unknown => exact hrest.cons _
    | expired => exact hrest.cons _
    | withdrawn => exact hrest.cons _
    | invalid => exact hrest.cons _
    | grace => exact hrest.cons _
  · exact .inl rfl

def regular (config : EngineConfig) (call : EventCall) (status : ConsentStatus) : Bool :=
  !config.allowlist.isAllowed call.eventName || status = .denied ||
    (status = .granted && (call.replayed || !call.sampledIn || call.hasPayload))

theorem allAllowed_requests (config : EngineConfig) (call : EventCall) (status : ConsentStatus) :
    allAllowed {} (requests config call status)=regular config call status := by
  unfold requests regular requestsFor requestsAfterConsent
  cases config.allowlist.isAllowed call.eventName with
  | false => rfl
  | true =>
    cases call.replayed with
    | true => cases status <;> rfl
    | false =>
      cases call.sampledIn with
      | false => cases status <;> rfl
      | true => cases call.hasPayload <;> cases status <;> rfl

/-- Every change of state that is asked for is declared, no reason speaks of an invalid one, and the
event ends dropped, or ingested after it was sampled in. -/
structure KeepsTable (config : EngineConfig) (states : ConsentStates) (now : ℚ)
    (call : EventCall) : Prop where
  allowed : allAllowed call.created
    (requests config call (consentStatus config states now call)) = true
  reason : Plain (processEvent config states now call).2.rejectionReason
  ends : (processEvent config states now call).2.lifecycleState = .dropped ∨
    (processEvent config states now call).2.lifecycleState = .ingested
  sampled : (processEvent config states now call).2.lifecycleState = .ingested →
    .sampledIn ∈ passed call.created
      (requests config call (consentStatus config states now call))

theorem keepsTable_of_allowed (hon : config.allEnabled=true) (hnew : call.created={})
    (h : allAllowed call.created
      (requests config call (consentStatus config states now call))=true) :
    KeepsTable config states now call := by
  obtain ⟨hstate,hreason⟩ := @processEvent_requests config states now call hon
  have hends := endsWell_requests config call (consentStatus config states now call)
  have hplain := plain_foldl h (by rw [hnew]; exact plain_none)
    (plain_requests config call (consentStatus config states now call))
  rw [lifecycleState_foldl h,getLastD_eq_getLast?] at hstate
  refine ⟨h,hreason ▸ hplain,?_,fun hingested => ?_⟩
  · rw [hstate]
    rcases hends with hlast | ⟨hlast,-⟩
    · exact .inl (by rw [hlast]; rfl)
    · exact .inr (by rw [hlast]; rfl)
  · rw [passed_eq h]
    rcases hends with hlast | ⟨-,hin⟩
    · rw [hstate,hlast] at hingested
      cases hingested
    · exact hin

theorem keeps_table_iff (config : EngineConfig) (states : ConsentStates) (now : ℚ)
    (call : EventCall) (hon : config.allEnabled = true) (hnew : call.created = {}) :
    KeepsTable config states now call ↔
      config.allowlist.isAllowed call.eventName = false ∨
      consentStatus config states now call = .denied ∨
      consentStatus config states now call = .granted ∧
        (call.replayed = true ∨ call.sampledIn = false ∨ call.hasPayload = true) := by
  have hregular : allAllowed call.created
      (requests config call (consentStatus config states now call)) =
        regular config call (consentStatus config states now call) := by
    rw [hnew,allAllowed_requests]
  have hkeeps : KeepsTable config states now call ↔
      regular config call (consentStatus config states now call)=true := by
    rw [← hregular]
    exact ⟨fun h => h.allowed,keepsTable_of_allowed hon hnew⟩
  rw [hkeeps,regular]
  simp only [Bool.or_eq_true,Bool.and_eq_true,Bool.not_eq_true',decide_eq_true_eq,or_assoc]

def startupCall (account : Option Text) : EventCall where
  eventName := "system.startup"
  account
  hasPayload := true
  replayNonce := false
  replayOutcome := "new"
  sampledIn := true
  samplingOutcome := "sampled_in"

def grantedStates : ConsentStates :=
  [("a".toList,{ status := .granted, grantedScopes := ["*".toList] })]

theorem granted_keeps_table : EngineConfig.allEnabled {} = true ∧
    (startupCall (some "a".toList)).created = {} ∧
    KeepsTable {} grantedStates 0 (startupCall (some "a".toList)) := by
  have hstatus : consentStatus {} grantedStates 0 (startupCall (some "a".toList))=.granted := by
    decide +kernel
  exact ⟨rfl,rfl,(keeps_table_iff {} grantedStates 0 _ rfl rfl).2
    (.inr (.inr ⟨hstatus,.inr (.inr rfl)⟩))⟩

def graceResult : TrackedEvent where
  lifecycleState := .ingested
  rejectionReason := some "invalid_transition_failed_stable_to_redacted"
  consentGrace := true

/-- An event in its grace period is ingested although it was never sampled in, and its reason speaks
of an invalid transition. -/
theorem grace_breaks_table : EngineConfig.allEnabled {} = true ∧ (startupCall none).created = {} ∧
    (processEvent {} [] 0 (startupCall none)).2 = graceResult ∧
    .sampledIn ∉ passed {} (requests {} (startupCall none) .grace) ∧
    ¬ KeepsTable {} [] 0 (startupCall none) := by
  have hfacts : (processEvent {} [] 0 (startupCall none)).2=graceResult ∧
      .sampledIn∉passed {} (requests {} (startupCall none) .grace) ∧
      allAllowed {} (requests {} (startupCall none)
        (consentStatus {} [] 0 (startupCall none)))≠true := by decide +kernel
  exact ⟨rfl,rfl,hfacts.1,hfacts.2.1,fun h => hfacts.2.2 h.allowed⟩

end Harpocrates.Backend.Analytics
