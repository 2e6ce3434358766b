import Harpocrates.Framework.Python
import Harpocrates.Framework.Rows
import Harpocrates.Framework.Sha256

namespace Harpocrates.Backend

open Framework Framework.Python

/-! The table of proof events and the transactions on it. A row's number stands for its `id`. -/

inductive EventType
  | register | embed | extract | revoke | expire | correct
  | disputeOpen | disputeResolve | disputeSupersede | disputeDismiss
  deriving DecidableEq

inductive TxStatus
  | pending | confirmed | failed | missing | revoked
  deriving DecidableEq

/-- The columns a writer gives. Columns that no query reads are left out. -/
structure EventFields where
  eventType : EventType
  videoHash : Option Text := none
  metadataHash : Option Text := none
  proofId : Option Text := none
  tier : Option Text := none
  txHash : Option Text := none
  txStatus : Option TxStatus := none
  sourceAddress : Option Text := none
  contractId : Option Text := none
  retentionClass : Option Text := none
  expiresAt : Option Int := none
  deriving DecidableEq

structure ProofEvent extends EventFields where
  legalHold : Bool := false
  idempotencyKey : Option Text := none
  eventIndex : Option Int := none
  deriving DecidableEq

abbrev ProofEvents := Rows ProofEvent

def insertProofEvent (t : ProofEvents) (fields : EventFields) : ProofEvents :=
  t.insert { fields with }

def PROOF_EVENTS_MAX_LIMIT : Int := 100
def PROOF_EVENTS_DEFAULT_LIMIT : Int := 25

def clampProofEventsLimit (limit : Int) : Nat := (max 1 (min limit PROOF_EVENTS_MAX_LIMIT)).toNat

def listProofEvents (t : ProofEvents) (limit : Int := PROOF_EVENTS_DEFAULT_LIMIT)
    (cursorId : Option Nat := none) : List (Nat × ProofEvent) × Option Nat :=
  let pageSize := clampProofEventsLimit limit
  let rows := (t.entries.reverse.filter fun e => cursorId.all (e.1 < ·)).take (pageSize+1)
  if pageSize < rows.length then (rows.take pageSize,(rows.take pageSize).getLast?.map (·.1))
  else (rows,none)

/-- A page of the events of a video, newest first, and the number to go on from. -/
def findProofEventsByVideo (t : ProofEvents) (videoHash : Text)
    (limit : Int := PROOF_EVENTS_DEFAULT_LIMIT) (cursorId : Option Nat := none) :
    List (Nat × ProofEvent) × Option Nat :=
  let pageSize := clampProofEventsLimit limit
  let matching := t.entries.reverse.filter fun e =>
    e.2.videoHash = some videoHash && cursorId.all (e.1 < ·)
  let rows := matching.take (pageSize+1)
  if pageSize < rows.length then (rows.take pageSize,(rows.take pageSize).getLast?.map (·.1))
  else (rows,none)

def findProofEventsByProofId (t : ProofEvents) (proofId : Text) : List (Nat × ProofEvent) :=
  t.entries.reverse.filter fun e => e.2.proofId = some proofId

def ProofEvent.claims (e : ProofEvent) : Bool := e.eventType = .register && e.sourceAddress.isSome

def findProofOwner (t : ProofEvents) (proofId : Text) : Option Text :=
  (t.entries.find? fun e => e.2.proofId = some proofId && e.2.claims).bind (·.2.sourceAddress)

def listPendingRegistrationTxs (t : ProofEvents) (limit : Int) : List (Nat × ProofEvent) :=
  (t.entries.filter fun e => e.2.txHash.isSome && e.2.txStatus = some .pending).take
    (max 1 (min limit 50)).toNat

def makeIdempotencyKey (videoHash proofId : Text) (txHash : Option Text) : Text :=
  hex (Sha256.digest (encode (videoHash++[':']++proofId++[':']++txHash.getD []))).1

def CONFLICT_FIELDS : List (String × (EventFields → Option Text)) :=
  [("video_hash",(·.videoHash)),("metadata_hash",(·.metadataHash)),("proof_id",(·.proofId)),
    ("tier",(·.tier)),("source_address",(·.sourceAddress)),("contract_id",(·.contractId))]

structure ConflictError where
  idempotencyKey : Text
  field : String
  existingValue : Option Text
  incomingValue : Option Text
  deriving DecidableEq

def conflict? (idempotencyKey : Text) (existing incoming : EventFields) : Option ConflictError :=
  (CONFLICT_FIELDS.find? fun field => field.2 existing ≠ field.2 incoming).map fun field =>
    ⟨idempotencyKey,field.1,field.2 existing,field.2 incoming⟩

def registerRow (idempotencyKey : Text) (fields : EventFields) : ProofEvent :=
  { fields with eventType := .register, idempotencyKey := some idempotencyKey }

/-- The row stored under the key and whether it was written now. -/
def upsertRegisterEvent (t : ProofEvents) (idempotencyKey : Text) (fields : EventFields) :
    ProofEvents × Except ConflictError ((Nat × ProofEvent) × Bool) :=
  match t.entries.find? fun e => e.2.idempotencyKey = some idempotencyKey with
  | none =>
    let row := registerRow idempotencyKey fields
    (t.insert row,.ok ((t.next,row),true))
  | some existing =>
    match conflict? idempotencyKey existing.2.toEventFields fields with
    | some error => (t,.error error)
    | none => (t,.ok (existing,false))

theorem upsertRegisterEvent_table (t : ProofEvents) (idempotencyKey : Text)
    (fields : EventFields) :
    (upsertRegisterEvent t idempotencyKey fields).1=t ∨
      (upsertRegisterEvent t idempotencyKey fields).1 =
        t.insert (registerRow idempotencyKey fields) := by
  unfold upsertRegisterEvent
  split
  · exact .inr rfl
  · left
    split
    · rfl
    · rfl

def indexedRow (fields : EventFields) (txHash : Text) (eventIndex : Int) : ProofEvent :=
  { fields with
    txHash := some txHash
    idempotencyKey := some ("indexer:".toList++txHash++[':']++(toString eventIndex).toList)
    eventIndex := some eventIndex }

def insertIndexedProofEvent (t : ProofEvents) (fields : EventFields) (txHash : Text)
    (eventIndex : Int) : ProofEvents × ((Nat × ProofEvent) × Bool) :=
  match t.entries.find? fun e => e.2.txHash = some txHash && e.2.eventIndex = some eventIndex with
  | none =>
    let row := indexedRow fields txHash eventIndex
    (t.insert row,((t.next,row),true))
  | some existing => (t,(existing,false))

theorem insertIndexedProofEvent_table (t : ProofEvents) (fields : EventFields) (txHash : Text)
    (eventIndex : Int) :
    (insertIndexedProofEvent t fields txHash eventIndex).1=t ∨
      (insertIndexedProofEvent t fields txHash eventIndex).1 =
        t.insert (indexedRow fields txHash eventIndex) := by
  unfold insertIndexedProofEvent
  split
  · exact .inr rfl
  · exact .inl rfl

abbrev StorableStatus := {status : TxStatus // status ≠ .revoked}

theorem TxStatus.pending_storable : pending≠revoked := nofun
theorem TxStatus.confirmed_storable : confirmed≠revoked := nofun
theorem TxStatus.failed_storable : failed≠revoked := nofun
theorem TxStatus.missing_storable : missing≠revoked := nofun

def ProofEvent.awaits (e : ProofEvent) (txHash : Text) (force : Bool) : Bool :=
  e.txHash = some txHash && (force || e.txStatus = none || e.txStatus = some .pending)

def ProofEvent.settle (txHash : Text) (status : StorableStatus) (force : Bool) (e : ProofEvent) :
    ProofEvent :=
  if e.awaits txHash force then { e with txStatus := some status.1 } else e

def updateTxStatus (t : ProofEvents) (txHash : Text) (status : StorableStatus) (force : Bool) :
    ProofEvents × Bool :=
  if (strip txHash).isEmpty then (t,false)
  else (t.update (·.settle txHash status force),t.entries.any fun e => e.2.awaits txHash force)

def ProofEvent.hold (proofId : Text) (hold : Bool) (e : ProofEvent) : ProofEvent :=
  if e.proofId = some proofId then { e with legalHold := hold } else e

def setLegalHold (t : ProofEvents) (proofId : Text) (hold : Bool) : ProofEvents :=
  t.update (·.hold proofId hold)

def RETENTION_BATCH_MAX_SIZE : Int := 5000

def ProofEvent.expired (now : Int) (e : ProofEvent) : Bool :=
  (match e.expiresAt with
    | none => false
    | some expiresAt => expiresAt ≤ now) && !e.legalHold

def countExpiredEvents (t : ProofEvents) (now : Int) : Nat :=
  t.entries.countP fun e => e.2.expired now

structure DeletionReceipt where
  eventId : Nat
  proofId : Option Text
  videoHash : Option Text
  metadataHash : Option Text
  deriving DecidableEq

def purgeSize (batchSize : Int) : Nat := (max 1 (min batchSize RETENTION_BATCH_MAX_SIZE)).toNat

def expiredBatch (t : ProofEvents) (now batchSize : Int) : List (Nat × ProofEvent) :=
  (t.entries.filter fun e => e.2.expired now).take (purgeSize batchSize)

def purgeExpiredEvents (t : ProofEvents) (now batchSize : Int) :
    ProofEvents × List DeletionReceipt :=
  let expired := expiredBatch t now batchSize
  (t.delete (expired.map (·.1)),
    expired.map fun e => ⟨e.1,e.2.proofId,e.2.videoHash,e.2.metadataHash⟩)

def ProofEvent.Rewritten (e e' : ProofEvent) : Prop :=
  e' = { e with txStatus := e'.txStatus, legalHold := e'.legalHold }

theorem ProofEvent.Rewritten.refl (e : ProofEvent) : e.Rewritten e := rfl

theorem ProofEvent.Rewritten.trans {e e' e'' : ProofEvent} (h : e.Rewritten e')
    (h' : e'.Rewritten e'') : e.Rewritten e'' := by
  unfold ProofEvent.Rewritten at h h' ⊢
  rw [h',h]

namespace ProofEvent.Rewritten

variable {e e' : ProofEvent}

theorem proofId (h : e.Rewritten e') : e'.proofId=e.proofId := by
  unfold ProofEvent.Rewritten at h
  rw [h]

theorem sourceAddress (h : e.Rewritten e') : e'.sourceAddress=e.sourceAddress := by
  unfold ProofEvent.Rewritten at h
  rw [h]

theorem claims (h : e.Rewritten e') : e'.claims=e.claims := by
  unfold ProofEvent.Rewritten at h
  rw [h]
  rfl

end ProofEvent.Rewritten

theorem ProofEvent.rewritten_settle (txHash : Text) (status : StorableStatus) (force : Bool)
    (e : ProofEvent) : e.Rewritten (e.settle txHash status force) := by
  unfold ProofEvent.settle
  split
  · rfl
  · rfl

theorem ProofEvent.legalHold_settle (txHash : Text) (status : StorableStatus) (force : Bool)
    (e : ProofEvent) : (e.settle txHash status force).legalHold=e.legalHold := by
  unfold ProofEvent.settle
  split
  · rfl
  · rfl

theorem ProofEvent.rewritten_hold (proofId : Text) (hold : Bool) (e : ProofEvent) :
    e.Rewritten (e.hold proofId hold) := by
  unfold ProofEvent.hold
  split
  · rfl
  · rfl

theorem updateTxStatus_table (t : ProofEvents) (txHash : Text) (status : StorableStatus)
    (force : Bool) :
    (updateTxStatus t txHash status force).1=t ∨
      (updateTxStatus t txHash status force).1=t.update (·.settle txHash status force) := by
  unfold updateTxStatus
  split
  · exact .inl rfl
  · exact .inr rfl

end Harpocrates.Backend
