import Harpocrates.Framework.Dict
import Harpocrates.Framework.Fallible
import Harpocrates.Framework.Python
import Harpocrates.Framework.Run

namespace Harpocrates.Backend.KeyTransparency

open Framework Framework.Fallible Framework.Python

/-! An issuer's directory of keys, rebuilt from a log of events. Manifests and checkpoints do not
touch the keys and are left out. -/

def MAX_EVENTS : Nat := 10000

inductive KeyStatus
  | active | rotated | compromised | retired
  deriving DecidableEq

inductive EventType
  | activation | rotation | compromise | retirement | checkpoint
  deriving DecidableEq

structure IssuerKey where
  keyId : Text
  publicKeyHash : Text
  algorithm : Text
  validFrom : Int
  validUntil : Option Int := none
  status : KeyStatus := .active
  deriving DecidableEq

structure DirectoryEvent where
  eventType : EventType
  sequence : Int
  timestamp : Int
  organizationIdentityHash : Text
  keyId : Text
  publicKeyHash : Text
  previousEventHash : Option Text := none
  relatedKeyId : Option Text := none
  manifestHash : Option Text := none
  reasonHash : Option Text := none

structure IssuerDirectory where
  organizationIdentityHash : Text
  events : List DirectoryEvent := []
  keys : List (Text × IssuerKey) := []

/-- `event_hash`: SHA-256 of an event's canonical JSON. -/
abbrev EventHash := DirectoryEvent → Text

abbrev Keys := List (Text × IssuerKey)

/-- A key that signs from the event on. -/
def opened (event : DirectoryEvent) (algorithm : Text) : IssuerKey where
  keyId := event.keyId
  publicKeyHash := event.publicKeyHash
  algorithm
  validFrom := event.timestamp

def IssuerKey.closed (key : IssuerKey) (timestamp : Int) (status : KeyStatus) : IssuerKey :=
  { key with validUntil := some timestamp, status }

def activate (keys : Keys) (event : DirectoryEvent) : Except String Keys :=
  match keys.lookup event.keyId with
  | some key =>
    if key.status = .active then .error "conflicting activation for active key"
    else .ok (Dict.set keys event.keyId (opened event "ed25519".toList))
  | none => .ok (Dict.set keys event.keyId (opened event "ed25519".toList))

def rotate (keys : Keys) (event : DirectoryEvent) : Except String Keys :=
  match event.relatedKeyId with
  | none => .error "rotation requires relatedKeyId (predecessor)"
  | some [] => .error "rotation requires relatedKeyId (predecessor)"
  | some related =>
    match keys.lookup related with
    | none => .error "broken rotation link: unknown predecessor key"
    | some pred =>
      if pred.status = .compromised then
        .error "cannot rotate from compromised key without retirement"
      else
        .ok (Dict.set (Dict.set keys related (pred.closed event.timestamp .rotated)) event.keyId
          (opened event pred.algorithm))

/-- Compromise and retirement, which differ in the status and in the text of the error. -/
def close (status : KeyStatus) (unknown : String) (keys : Keys) (event : DirectoryEvent) :
    Except String Keys :=
  match keys.lookup event.keyId with
  | none => .error unknown
  | some key => .ok (Dict.set keys event.keyId (key.closed event.timestamp status))

def compromise : Keys → DirectoryEvent → Except String Keys :=
  close .compromised "compromise of unknown key"

def retire : Keys → DirectoryEvent → Except String Keys :=
  close .retired "retirement of unknown key"

def applyEvent (keys : Keys) (event : DirectoryEvent) : Except String Keys :=
  match event.eventType with
  | .activation => activate keys event
  | .rotation => rotate keys event
  | .compromise => compromise keys event
  | .retirement => retire keys event
  | .checkpoint => .ok keys

def checkChain (eventHash : EventHash) (events : List DirectoryEvent) (event : DirectoryEvent) :
    Except String Unit :=
  match events.getLast? with
  | none => require (event.previousEventHash = none) "genesis event must not set previousEventHash"
  | some last => require (event.previousEventHash = some (eventHash last))
      "broken event chain (previousEventHash mismatch)"

def appendEvent (eventHash : EventHash) (directory : IssuerDirectory) (event : DirectoryEvent) :
    Except String IssuerDirectory := do
  require (directory.events.length < MAX_EVENTS) "event log exceeds bound"
  require (event.organizationIdentityHash = directory.organizationIdentityHash)
    "event organizationIdentityHash mismatch"
  require (event.sequence = directory.events.length)
    ("non-monotonic sequence: expected "++toString directory.events.length++", got "++
      toString event.sequence)
  checkChain eventHash directory.events event
  let keys ← applyEvent directory.keys event
  return { directory with events := directory.events++[event], keys }

def keyValidForHistoricalSignature (directory : IssuerDirectory) (keyId : Text)
    (signatureTimestamp : Int) : Bool :=
  match directory.keys.lookup keyId with
  | none => false
  | some key =>
    if signatureTimestamp < key.validFrom then false
    else
      match key.validUntil with
      | none => true
      | some validUntil => !(validUntil ≤ signatureTimestamp)

def keyWasCompromisedAt (directory : IssuerDirectory) (keyId : Text) (time : Int) : Bool :=
  match directory.keys.lookup keyId with
  | none => false
  | some key =>
    if key.status ≠ .compromised then false
    else key.validUntil.any (· ≤ time)

def lastTime (directory : IssuerDirectory) : Option Int :=
  directory.events.getLast?.map (·.timestamp)

/-- An event that is accepted and is not earlier than the one before it. -/
def Step (eventHash : EventHash) (directory : IssuerDirectory) (event : DirectoryEvent)
    (after : IssuerDirectory) : Prop :=
  (∀ t, lastTime directory = some t → t ≤ event.timestamp) ∧
    appendEvent eventHash directory event = .ok after

end Harpocrates.Backend.KeyTransparency
