import Harpocrates.Backend.ProofEvents
import Harpocrates.Backend.RegisterAuth
import Harpocrates.Framework.Fallible

namespace Harpocrates.Backend

open Framework Framework.Python Framework.Fallible

def isHex32 : Value → Bool
  | .str s => s.length = 64 && (parseInt 16 s).isSome
  | _ => false

def value32 (s : Text) : Option Int := if s.length = 64 then parseInt 16 s else none

def SameValue (s s' : Text) : Prop := (value32 s).isSome ∧ value32 s = value32 s'

instance (s s' : Text) : Decidable (SameValue s s') := inferInstanceAs (Decidable (_ ∧ _))

def TX_HASH_MESSAGE : String := "txHash must be a 32-byte hex string"

def normalizeTxHash : Value → Except String (Option Text)
  | .none => .ok none
  | .str value =>
    let normalized := lower (strip value)
    if isHex32 (.str normalized) then .ok (some normalized) else .error TX_HASH_MESSAGE
  | _ => .error TX_HASH_MESSAGE

def TX_STATUS_MESSAGE : String := "txStatus must be one of: pending, confirmed, failed, missing"

def TX_STATUS_WORDS : List (Text × StorableStatus) :=
  [("pending".toList,⟨_,TxStatus.pending_storable⟩),
    ("confirmed".toList,⟨_,TxStatus.confirmed_storable⟩),
    ("failed".toList,⟨_,TxStatus.failed_storable⟩),
    ("missing".toList,⟨_,TxStatus.missing_storable⟩),
    ("success".toList,⟨_,TxStatus.confirmed_storable⟩),
    ("successful".toList,⟨_,TxStatus.confirmed_storable⟩),
    ("succeeded".toList,⟨_,TxStatus.confirmed_storable⟩),
    ("failure".toList,⟨_,TxStatus.failed_storable⟩),
    ("error".toList,⟨_,TxStatus.failed_storable⟩),
    ("errored".toList,⟨_,TxStatus.failed_storable⟩),
    ("not_found".toList,⟨_,TxStatus.missing_storable⟩),
    ("notfound".toList,⟨_,TxStatus.missing_storable⟩)]

def normalizeTxStatus : Value → Except String (Option StorableStatus)
  | .none => .ok none
  | .str value =>
    match TX_STATUS_WORDS.lookup (lower (strip value)) with
    | some status => .ok (some status)
    | none => .error TX_STATUS_MESSAGE
  | _ => .error TX_STATUS_MESSAGE

def ensure (condition : Bool) (reply : ErrorReply) : Except ErrorReply Unit :=
  if condition then .ok () else .error reply

def orBadRequest {α : Type} : Except String α → Except ErrorReply α
  | .ok a => .ok a
  | .error message => .error { status := 400, message }

def hexField (payload : Value) (name : String) : Except ErrorReply Text :=
  let reply : ErrorReply := {
    status := 400
    message := name++" must be a 32-byte hex string"
    code := some .VALIDATION_ERROR
    cliCode := some .MALFORMED_INPUT }
  match payload.get name.toList with
  | .str s => if isHex32 (.str s) then .ok s else .error reply
  | _ => .error reply

/-- Looks a value up among texts. Python cannot hash lists and objects. -/
def choose {α : Type} (choices : List (Text × α)) (value : Value) (reply : ErrorReply) :
    Except ErrorReply (Text × α) :=
  match value with
  | .str s =>
    match choices.lookup s with
    | some a => .ok (s,a)
    | none => .error reply
  | .list _ _ => .error serverError
  | .dict _ _ => .error serverError
  | _ => .error reply

def ALLOWED_TIERS : List (Text × Unit) :=
  [("silent".toList,()),("source".toList,()),("seal".toList,())]

def RETENTION_CLASSES : List (Text × Int) :=
  [("default".toList,30),("short".toList,7),("long".toList,365)]

def SECONDS_PER_DAY : Int := 86400

def expiryOf (now retentionDays : Int) : Option Int :=
  if 0 ≤ retentionDays then some (now+retentionDays*SECONDS_PER_DAY) else none

def hasKey (payload : Value) (key : Text) : Bool :=
  match payload with
  | .dict _ entries => (entries.lookup key).isSome
  | _ => false

def isDict : Value → Bool
  | .dict _ _ => true
  | _ => false

/-- A scoped credential may not register a proof that a different address owns. -/
def checkOwner (principal : Option RegistrationPrincipal)
    (findOwner : Text → Except Unit (Option Text)) (proofId : Text) (sourceAddress : Option Text) :
    Except ErrorReply Unit :=
  if !principal.any RegistrationPrincipal.isScoped then .ok ()
  else
    match findOwner proofId with
    | .error _ =>
      .error {
        status := 503
        message := "ownership check unavailable; registration was not applied"
        code := some .DEPENDENCY_UNAVAILABLE }
    | .ok existingOwner =>
      if existingOwner ≠ none ∧ existingOwner ≠ sourceAddress then
        .error {
          status := 403
          message := "proof is registered to a different owner"
          code := some .FORBIDDEN
          field := some "proofId" }
      else .ok ()

def checkAttestation (request : RegisterRequest) : Except ErrorReply Unit :=
  if hasKey request.payload "timeAttestation".toList then request.attestation else .ok ()

def requestedRetention (payload : Value) : Value :=
  if hasKey payload "retentionClass".toList then payload.get "retentionClass".toList
  else .str "default".toList

/-- What a request that passed all checks is about to insert, and for whom. -/
structure Registration where
  principal : Option RegistrationPrincipal
  idempotencyKey : Text
  fields : EventFields
  deriving DecidableEq

def registerProofEvent (config : Config) (now : Int) (principal : Option RegistrationPrincipal)
    (findOwner : Text → Except Unit (Option Text)) (request : RegisterRequest) :
    Except ErrorReply Registration := do
  let payload := request.payload
  ensure (request.jsonBytes ≤ config.maxJsonBytes)
    { status := 413, message := "JSON payload exceeds size limit" }
  ensure (isDict payload)
    { status := 400, message := "JSON body is required", code := some .VALIDATION_ERROR }
  ensure (request.dumpedBytes ≤ config.maxMetadataBytes) {
    status := 413
    message := "registration payload is too large"
    code := some .PAYLOAD_TOO_LARGE
    cliCode := some .OVERSIZED_INPUT }
  let videoHash ← hexField payload "videoHash"
  let metadataHash ← hexField payload "metadataHash"
  let proofId ← hexField payload "proofId"
  let (tier,_) ← choose ALLOWED_TIERS (payload.get "tier".toList) {
    status := 400
    message := "tier must be one of: silent, source, seal"
    code := some .VALIDATION_ERROR
    cliCode := some .UNSUPPORTED_INPUT }
  let txHash ← orBadRequest (normalizeTxHash (payload.get "txHash".toList))
  let reported ← orBadRequest (normalizeTxStatus (payload.get "txStatus".toList))
  let sourceAddress ← orBadRequest
    (StrKey.validateSourceAddress (payload.get "sourceAddress".toList))
  let contractId ← orBadRequest (StrKey.validateContractId (payload.get "contractId".toList))
  checkOwner principal findOwner proofId sourceAddress
  checkAttestation request
  let retention := requestedRetention payload
  let (retentionClass,retentionDays) ← choose RETENTION_CLASSES retention {
    status := 400
    message := "invalid retention class: "++String.ofList retention.shown
    code := some .VALIDATION_ERROR
    cliCode := some .UNSUPPORTED_INPUT }
  return {
    principal
    idempotencyKey := makeIdempotencyKey videoHash proofId txHash
    fields := {
      eventType := .register
      videoHash := some videoHash
      metadataHash := some metadataHash
      proofId := some proofId
      tier := some tier
      txHash
      -- A status that comes with a transaction hash is left to reconciliation.
      txStatus := if txHash.isSome then some .pending else reported.map (·.1)
      sourceAddress
      contractId
      retentionClass := some retentionClass
      expiresAt := expiryOf now retentionDays } }

theorem ensure_ok {condition : Bool} {reply : ErrorReply} :
    ensure condition reply=.ok () ↔ condition=true := by
  cases condition with
  | true => simp [ensure]
  | false => simp [ensure]

theorem orBadRequest_ok {α : Type} {x : Except String α} {a : α} :
    orBadRequest x=.ok a ↔ x=.ok a := by
  cases x with
  | ok a' => simp [orBadRequest]
  | error message => simp [orBadRequest]

theorem hexField_ok {payload : Value} {name : String} {s : Text}
    (h : hexField payload name=.ok s) : (value32 s).isSome := by
  simp only [hexField] at h
  split at h
  · split at h
    · next hhex =>
      cases h
      simp only [isHex32,Bool.and_eq_true,decide_eq_true_eq] at hhex
      rw [value32,if_pos hhex.1]
      exact hhex.2
    · cases h
  · cases h

/-- What is known of a request that passed. -/
structure Admissible (principal : Option RegistrationPrincipal)
    (findOwner : Text → Except Unit (Option Text)) (payload : Value) (reg : Registration) :
    Prop where
  principal_eq : reg.principal = principal
  object : isDict payload = true
  eventType : reg.fields.eventType = .register
  address : StrKey.validateSourceAddress (payload.get "sourceAddress".toList) =
    .ok reg.fields.sourceAddress
  owner : ∃ proofId, reg.fields.proofId = some proofId ∧ (value32 proofId).isSome ∧
    checkOwner principal findOwner proofId reg.fields.sourceAddress = .ok ()
  withHash : reg.fields.txHash.isSome → reg.fields.txStatus = some .pending
  status : reg.fields.txStatus ≠ some .revoked

theorem registerProofEvent_ok {config : Config} {now : Int}
    {principal : Option RegistrationPrincipal} {findOwner : Text → Except Unit (Option Text)}
    {request : RegisterRequest} {reg : Registration}
    (h : registerProofEvent config now principal findOwner request=.ok reg) :
    Admissible principal findOwner request.payload reg := by
  simp only [registerProofEvent,bind_ok,orBadRequest_ok] at h
  obtain ⟨_,-,_,hobject,_,-,videoHash,-,metadataHash,-,proofId,hproof,⟨tier,_⟩,-,txHash,-,
    reported,-,sourceAddress,haddress,contractId,-,_,howner,_,-,⟨retentionClass,retentionDays⟩,-,
    h⟩ := h
  cases h
  refine ⟨rfl,ensure_ok.1 hobject,rfl,haddress,⟨proofId,rfl,hexField_ok hproof,howner⟩,?_,?_⟩
  · intro htx
    exact if_pos htx
  · cases txHash with
    | some h => simp
    | none =>
      cases reported with
      | none => simp
      | some status => simpa using status.2

end Harpocrates.Backend
