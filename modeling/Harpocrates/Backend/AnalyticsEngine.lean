import Harpocrates.Backend.Consent

namespace Harpocrates.Backend.Analytics

open Framework Framework.Python

inductive LifecycleState
  | created | allowlisted | consentPending | consentGranted | consentDenied | sampledIn | sampledOut
  | replayRejected | redacted | dropped | ingested | exported | cancelled | timedOut | failedStable
  deriving DecidableEq

def LifecycleState.name : LifecycleState → String
  | .created => "created"
  | .allowlisted => "allowlisted"
  | .consentPending => "consent_pending"
  | .consentGranted => "consent_granted"
  | .consentDenied => "consent_denied"
  | .sampledIn => "sampled_in"
  | .sampledOut => "sampled_out"
  | .replayRejected => "replay_rejected"
  | .redacted => "redacted"
  | .dropped => "dropped"
  | .ingested => "ingested"
  | .exported => "exported"
  | .cancelled => "cancelled"
  | .timedOut => "timed_out"
  | .failedStable => "failed_stable"

def VALID_TRANSITIONS : LifecycleState → List LifecycleState
  | .created => [.allowlisted,.dropped,.cancelled,.timedOut,.replayRejected]
  | .allowlisted => [.consentPending,.consentGranted,.consentDenied,.replayRejected,.dropped]
  | .consentPending => [.consentGranted,.consentDenied,.timedOut,.dropped,.cancelled]
  | .consentGranted => [.sampledIn,.sampledOut,.dropped,.cancelled,.timedOut,.replayRejected]
  | .consentDenied => [.dropped]
  | .sampledIn => [.redacted,.dropped,.cancelled,.timedOut,.failedStable]
  | .sampledOut => [.dropped]
  | .replayRejected => [.dropped]
  | .redacted => [.ingested,.exported,.dropped,.failedStable,.cancelled,.timedOut]
  | .ingested => [.exported,.dropped]
  | .exported => [.dropped]
  | .cancelled => [.dropped]
  | .timedOut => [.dropped]
  | .failedStable => [.dropped,.ingested]
  | .dropped => []

/-- An event as far as the engine's decisions show in it. -/
structure TrackedEvent where
  lifecycleState : LifecycleState := .created
  rejectionReason : Option String := none
  consentGrace : Bool := false
  deriving DecidableEq

/-- A transition that is not in the table leads to `failedStable`. -/
def transitionEventState (event : TrackedEvent) (state : LifecycleState)
    (reason : Option String := none) : TrackedEvent :=
  if state ∈ VALID_TRANSITIONS event.lifecycleState then
    { event with
      lifecycleState := state
      rejectionReason := reason.or event.rejectionReason }
  else
    { event with
      lifecycleState := .failedStable
      rejectionReason := some ("invalid_transition_"++event.lifecycleState.name++"_to_"++
        state.name) }

def EVENT_ALLOWLIST : List String :=
  ["system.startup","system.shutdown","system.health_check","system.config_loaded",
    "system.config_reload_requested","system.rollout_phase_changed","system.saturation_signal",
    "system.recovery_signal","user.consent_granted","user.consent_denied","user.consent_updated",
    "user.session_started","user.session_ended","user.authentication_attempted",
    "user.authentication_succeeded","user.authentication_failed","user.authorization_denied",
    "user.rate_limited","proof.workflow_started","proof.workflow_queued","proof.workflow_completed",
    "proof.workflow_failed","proof.workflow_cancelled","proof.workflow_timed_out",
    "proof.workflow_invalid","proof.circuit_compilation_requested",
    "proof.circuit_compilation_completed","proof.circuit_compilation_failed",
    "proof.generate_requested","proof.generate_completed","proof.generate_failed",
    "proof.verify_requested","proof.verify_completed","proof.verify_failed","media.upload_started",
    "media.upload_completed","media.upload_failed","media.upload_cancelled",
    "media.upload_oversized","media.metadata_extracted","media.metadata_parse_failed",
    "media.embed_requested","media.embed_completed","media.embed_failed","media.extract_requested",
    "media.extract_completed","media.extract_failed","network.rpc_requested",
    "network.rpc_completed","network.rpc_failed","network.stellar_tx_submitted",
    "network.stellar_tx_confirmed","network.stellar_tx_failed","network.stellar_tx_timed_out",
    "error.error_observed","error.validation_failed","error.resource_limit_exceeded",
    "error.export_safety_violation_detected","error.redaction_engine_fallback_triggered",
    "ops.progress_tick","ops.saturation_detected","ops.recovery_triggered","ops.recovery_completed",
    "privacy.consent_missing","privacy.replay_attempt_detected",
    "privacy.allowlist_violation_attempted","privacy.sensitive_field_detected_in_event",
    "export.export_requested","export.export_completed","export.export_failed",
    "export.export_safety_validated","export.import_completed"]

structure EventAllowlist where
  extraAllowed : List String := []
  blocklist : List String := []

def EventAllowlist.isAllowed (allowlist : EventAllowlist) (eventName : String) : Bool :=
  (EVENT_ALLOWLIST.contains eventName || allowlist.extraAllowed.contains eventName) &&
    !allowlist.blocklist.contains eventName

structure EngineConfig where
  eventAllowlistEnabled : Bool := true
  consentCheckEnabled : Bool := true
  sessionReplayProtectionEnabled : Bool := true
  samplingEnabled : Bool := true
  fieldRedactionEnabled : Bool := true
  allowlist : EventAllowlist := {}
  gracePeriod : ℚ := 1800

/-- An event to process, with what the replay guard and the sampler say of it. The caller's extra
fields may set the state that the event is created in. -/
structure EventCall where
  eventName : String
  account : Option Text
  created : TrackedEvent := {}
  hasPayload : Bool
  replayNonce : Bool
  replayOutcome : String
  sampledIn : Bool
  samplingOutcome : String

abbrev Processing := Except TrackedEvent TrackedEvent

def Processing.event : Processing → TrackedEvent
  | .ok event => event
  | .error event => event

def reject (event : TrackedEvent) (state : LifecycleState) (reason : String) : TrackedEvent :=
  transitionEventState (transitionEventState event state (some reason)) .dropped (some reason)

/-- The step after the consent check, by the status of the state that the check read. -/
def consentStep (status : ConsentStatus) (event : TrackedEvent) : Processing :=
  match status with
  | .granted => .ok (transitionEventState event .consentGranted)
  | .denied => .error (reject event .consentDenied "consent_denied")
  | _ => .ok { transitionEventState event .consentPending with consentGrace := true }

def replayStep (config : EngineConfig) (call : EventCall) (event : TrackedEvent) : Processing :=
  if config.sessionReplayProtectionEnabled && call.replayNonce && call.replayOutcome ≠ "new" then
    .error (reject event .replayRejected ("replay:"++call.replayOutcome))
  else .ok event

def samplingStep (config : EngineConfig) (call : EventCall) (event : TrackedEvent) : Processing :=
  if config.samplingEnabled then
    if call.sampledIn then .ok (transitionEventState event .sampledIn)
    else .error (reject event .sampledOut ("sampling:"++call.samplingOutcome))
  else .ok event

def redactionStep (config : EngineConfig) (call : EventCall) (event : TrackedEvent) :
    TrackedEvent :=
  if config.fieldRedactionEnabled && call.hasPayload then transitionEventState event .redacted
  else event

def ingestStep (event : TrackedEvent) : TrackedEvent :=
  if event.lifecycleState ≠ .ingested && event.lifecycleState ≠ .dropped then
    transitionEventState event .ingested
  else event

def afterConsent (config : EngineConfig) (call : EventCall) (event : TrackedEvent) : Processing :=
  do
  let event ← replayStep config call event
  let event ← samplingStep config call event
  return ingestStep (redactionStep config call event)

/-- The consent states after an event was processed, and the event as it ended. -/
def processEvent (config : EngineConfig) (states : ConsentStates) (now : ℚ) (call : EventCall) :
    ConsentStates × TrackedEvent :=
  if config.eventAllowlistEnabled && !config.allowlist.isAllowed call.eventName then
    (states,transitionEventState call.created .dropped (some "allowlist_rejected"))
  else
    let event := transitionEventState call.created .allowlisted
    if config.consentCheckEnabled then
      let (states,_,state) := checkConsent config.gracePeriod states call.account
        (some ("analytics:".toList++call.eventName.toList)) now
      (states,Processing.event do afterConsent config call (← consentStep state.status event))
    else (states,Processing.event (afterConsent config call event))

end Harpocrates.Backend.Analytics
