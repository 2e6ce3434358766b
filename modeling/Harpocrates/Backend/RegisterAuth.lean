import Harpocrates.Backend.StrKey
import Harpocrates.Framework.Sha256

namespace Harpocrates.Backend

open Framework Framework.Python

inductive ErrorCode
  | VALIDATION_ERROR | PAYLOAD_TOO_LARGE | FORBIDDEN | DEPENDENCY_UNAVAILABLE
  deriving DecidableEq

inductive CliCode
  | MALFORMED_INPUT | OVERSIZED_INPUT | UNSUPPORTED_INPUT | described (message : String)
  deriving DecidableEq

/-- An error response. Those without a code are bare messages. -/
structure ErrorReply where
  status : Nat
  message : String
  code : Option ErrorCode := none
  field : Option String := none
  cliCode : Option CliCode := none
  deriving DecidableEq

def serverError : ErrorReply := { status := 500, message := "Internal Server Error" }

structure ScopedKey where
  owner : Text
  digest : BytesN 32

structure RegistrationPrincipal where
  owner : Option Text
  deriving DecidableEq

def RegistrationPrincipal.isScoped (principal : RegistrationPrincipal) : Bool :=
  principal.owner.isSome

structure Config where
  registerApiKey : Option Text := none
  registerScopedKeys : List ScopedKey := []
  registerApiKeyExpires : Option Int := none
  registerApiKeyPrevious : Option Text := none
  registerApiKeyPreviousExpires : Option Int := none
  maxJsonBytes : Nat
  maxMetadataBytes : Nat

/-- A request to register. `jsonBytes` is the length of the body as sent and `dumpedBytes` its
length written out again; `attestation` is what decoding and validating the time attestation
yields, if the payload has one. -/
structure RegisterRequest where
  authorization : Text := []
  contentLength : Nat := 0
  jsonBytes : Nat := 0
  dumpedBytes : Nat := 0
  payload : Value
  attestation : Except ErrorReply Unit := .ok ()

def MAX_TOKEN_CHARS : Nat := 256

def authenticate (token : Text) (legacyKey : Option Text) (scopedKeys : List ScopedKey) :
    Option RegistrationPrincipal :=
  if MAX_TOKEN_CHARS < token.length then none
  else
    let presented := encode token
    let presentedDigest := Sha256.digest presented
    -- Every key is compared, so that the last one with the digest decides.
    let matchedOwner := scopedKeys.foldl
      (fun owner entry => if presentedDigest = entry.digest then some entry.owner else owner) none
    match matchedOwner with
    | some owner => some ⟨some owner⟩
    | none => if legacyKey.any fun key => encode key = presented then some ⟨none⟩ else none

def scopeAllows (principal : RegistrationPrincipal) (claimedOwner : Option Text) : Bool :=
  match principal.owner,claimedOwner with
  | none,_ => true
  | some _,none => false
  | some owner,some claimed => owner = claimed

/-- The principal of a token at a time: the primary and scoped keys while they are not expired,
else the previous key while that one is not. -/
def principalAt (config : Config) (now : Int) (token : Text) :
    Except ErrorReply RegistrationPrincipal :=
  let primaryExpired := config.registerApiKeyExpires.any (· ≤ now)
  let primary :=
    if primaryExpired then none
    else authenticate token config.registerApiKey config.registerScopedKeys
  let previous :=
    match config.registerApiKeyPrevious with
    | none => none
    | some key =>
      if key.isEmpty || config.registerApiKeyPreviousExpires.any (· ≤ now) then none
      else authenticate token (some key) []
  match primary.or previous with
  | some principal => .ok principal
  | none =>
    if primaryExpired then .error { status := 401, message := "API key has expired" }
    else .error { status := 401, message := "Invalid API key" }

def BEARER : Text := "Bearer ".toList

/-- The check in front of the handler. Without keys the endpoint is open and there is no
principal. -/
def requireRegisterAuth (config : Config) (now : Int) (request : RegisterRequest) :
    Except ErrorReply (Option RegistrationPrincipal) :=
  if config.registerApiKey.isNone && config.registerScopedKeys.isEmpty then .ok none
  else if request.authorization.take BEARER.length ≠ BEARER then
    .error { status := 401, message := "Authorization header with Bearer token is required" }
  else
    match principalAt config now (strip (request.authorization.drop BEARER.length)) with
    | .error reply => .error reply
    | .ok principal =>
      if !principal.isScoped then .ok (some principal)
      else if config.maxJsonBytes < request.contentLength then
        .error { status := 413, message := "JSON payload exceeds size limit" }
      else
        match request.payload with
        | .dict _ _ =>
          match StrKey.validateSourceAddress (request.payload.get "sourceAddress".toList) with
          | .error message => .error { status := 400, message }
          | .ok claimedOwner =>
            if scopeAllows principal claimedOwner then .ok (some principal)
            else
              .error {
                status := 403
                message := "credential is not authorized for this sourceAddress"
                code := some .FORBIDDEN
                field := some "sourceAddress" }
        -- A body that is no object is left for the handler.
        | _ => .ok (some principal)

/-- A scoped principal that gets past the check names its own address, in any object it sends. -/
theorem requireRegisterAuth_scoped {config : Config} {now : Int} {request : RegisterRequest}
    {owner : Text} {shown : Text} {entries : List (Text × Value)}
    (h : requireRegisterAuth config now request=.ok (some ⟨some owner⟩))
    (hp : request.payload=.dict shown entries) :
    StrKey.validateSourceAddress (request.payload.get "sourceAddress".toList) =
      .ok (some owner) := by
  unfold requireRegisterAuth at h
  split at h
  · cases h
  split at h
  · cases h
  split at h
  · cases h
  next principal hprincipal =>
  split at h
  · next hscoped =>
    obtain rfl : principal=⟨some owner⟩ := by simpa using h
    simp [RegistrationPrincipal.isScoped] at hscoped
  split at h
  · cases h
  split at h
  · split at h
    · cases h
    next claimedOwner hclaimed =>
    split at h
    · next hallowed =>
      obtain rfl : principal=⟨some owner⟩ := by simpa using h
      cases claimedOwner with
      | none => simp [scopeAllows] at hallowed
      | some claimed =>
        obtain rfl : owner=claimed := by simpa [scopeAllows] using hallowed
        exact hclaimed
    · cases h
  · next hother => exact absurd hp (hother shown entries)

end Harpocrates.Backend
