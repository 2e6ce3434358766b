import Harpocrates.Backend.ProofEvents
import Harpocrates.Framework.Fallible

namespace Harpocrates.Backend

open Framework Framework.Python Framework.Fallible

/-! The indexer of contract events. Values arrive as JSON; `decodeScval` turns the encoded ones
among them into what they stand for. -/

structure DecodedLifecycleEvent where
  eventType : EventType
  proofId : Option Text
  txHash : Text
  eventIndex : Int
  contractId : Value
  txStatus : TxStatus

def normalizeHex : Value → Option Text
  | .none => none
  | val => some (dropHexMark (lower (strip val.shown)))

def resolveTxHash (event : Value) : Option Text :=
  let found := ((event.get "txHash".toList).orElse (event.get "transactionHash".toList)).orElse
    (event.get "tx_hash".toList)
  match found with
  | .str s =>
    if s.isEmpty then none
    else
      match normalizeHex (.str s) with
      | some normalized => some (if normalized.isEmpty then s else normalized)
      | none => some s
  | _ => none

/-- Zero where Python cannot read a number; an infinite float is not caught. -/
def intOrZero (value : Value) : Except ConversionError Int :=
  match value.toInt with
  | .ok i => .ok i
  | .error .overflow => .error .overflow
  | .error _ => .ok 0

def indexOfToken (token : Text) : Except ConversionError Int :=
  if '-' ∈ token then intOrZero (.str (token.rtakeWhile (· ≠ '-'))) else .ok 0

def resolveEventIndex (event : Value) : Except ConversionError Int :=
  let given :=
    if (event.get "eventIndex".toList).isNone then event.get "event_index".toList
    else event.get "eventIndex".toList
  if given.isNone then
    indexOfToken (((event.get "id".toList).orElse (event.get "pagingToken".toList)).orElse
      (.str [])).shown
  else intOrZero given

/-- The action code of a history entry. -/
def historyAction (val : Value) : Except ConversionError Int :=
  let action : Value :=
    match val with
    | .dict _ _ => val.get "action".toList
    | .list _ (action::_) => action
    | .int i => .int i
    | .bool b => .bool b
    | _ => .none
  if action.isNone then .ok 0 else intOrZero action

/-- What happened to which proof, by the topics of the event and its value. -/
def lifecycleOf (topics : List Value) (val : Value) :
    Except ConversionError (Option (EventType × Option Text × TxStatus)) :=
  let word (i : Nat) : Text := lower ((topics[i]?.map Value.shown).getD [])
  let hexAt (i : Nat) : Option Text := topics[i]?.bind normalizeHex
  let dispute :=
    if word 0 = "dispute".toList ∧ 2 ≤ topics.length then
      let proofId := if hexAt 3 = none ∧ topics.length = 3 then hexAt 2 else hexAt 3
      if word 1 = "open".toList then some (EventType.disputeOpen,proofId,TxStatus.confirmed)
      else if word 1 = "resolve".toList then some (.disputeResolve,proofId,.confirmed)
      else if word 1 = "supersede".toList then some (.disputeSupersede,proofId,.confirmed)
      else if word 1 = "dismiss".toList then some (.disputeDismiss,proofId,.confirmed)
      else none
    else none
  if word 0 = "proof".toList ∧ word 1 = "revoke".toList ∧ 3 ≤ topics.length then
    .ok (some (.revoke,hexAt 2,.revoked))
  else if word 0 = "proof".toList ∧ word 1 = "history".toList ∧ 3 ≤ topics.length then
    match historyAction val with
    | .error error => .error error
    | .ok 3 => .ok (some (.revoke,hexAt 2,.revoked))
    | .ok 4 => .ok (some (.expire,hexAt 2,.confirmed))
    | .ok 5 => .ok (some (.correct,hexAt 2,.confirmed))
    | .ok _ => .ok none
  else .ok dispute

def classifyAndDecodeEvent (decodeScval : Value → Value) (event : Value)
    (defaultContractId : Option Text) : Except ConversionError (Option DecodedLifecycleEvent) :=
  match resolveTxHash event with
  | none => .ok none
  | some txHash => do
    let eventIndex ← resolveEventIndex event
    let contractId :=
      ((event.get "contractId".toList).orElse (event.get "contract_id".toList)).orElse
        ((defaultContractId.map Value.str).getD .none)
    match (event.get "topic".toList).orElse (event.get "topics".toList) with
    | .list _ (topic::topics) =>
      let lifecycle ← lifecycleOf ((topic::topics).map decodeScval)
        (decodeScval (event.get "value".toList))
      return lifecycle.map fun (eventType,proofId,txStatus) =>
        { eventType, proofId, txHash, eventIndex, contractId, txStatus }
    | _ => return none

/-- The columns of an indexed event. Hashes of media are not among them. -/
def DecodedLifecycleEvent.fields (decoded : DecodedLifecycleEvent) (contractId : Option Text) :
    EventFields where
  eventType := decoded.eventType
  proofId := decoded.proofId
  txStatus := some decoded.txStatus
  contractId

inductive Ingestion
  | skipped | indexed | duplicate
  deriving DecidableEq

/-- The column holds text: the driver refuses anything else. -/
def contractColumn : Value → Except ConversionError (Option Text)
  | .none => .ok none
  | .str s => .ok (some s)
  | _ => .error .type

/-- One event of a batch, in a transaction of its own. -/
def ingest (decodeScval : Value → Value) (defaultContractId : Option Text) (t : ProofEvents)
    (raw : Value) : Except ConversionError (ProofEvents × Ingestion) := do
  match (← classifyAndDecodeEvent decodeScval raw defaultContractId) with
  | none => return (t,.skipped)
  | some decoded =>
    let contractId ← contractColumn decoded.contractId
    let (t',_,created) := insertIndexedProofEvent t (decoded.fields contractId) decoded.txHash
      decoded.eventIndex
    return (t',if created then .indexed else .duplicate)

structure IndexerSummary where
  scanned : Nat := 0
  indexed : Nat := 0
  skipped : Nat := 0
  duplicates : Nat := 0
  deriving DecidableEq

def IndexerSummary.count (summary : IndexerSummary) : Ingestion → IndexerSummary
  | .skipped => { summary with scanned := summary.scanned+1, skipped := summary.skipped+1 }
  | .indexed => { summary with scanned := summary.scanned+1, indexed := summary.indexed+1 }
  | .duplicate =>
    { summary with scanned := summary.scanned+1, duplicates := summary.duplicates+1 }

/-- The table after a batch, and its summary unless an event raised. What was stored before that
event stays. -/
def processEventsBatch (decodeScval : Value → Value) (contractId : Option Text) :
    IndexerSummary → ProofEvents → List Value → ProofEvents × Except ConversionError IndexerSummary
  | summary,t,[] => (t,.ok summary)
  | summary,t,raw::events =>
    match ingest decodeScval contractId t raw with
    | .error error => (t,.error error)
    | .ok (t',ingestion) =>
      processEventsBatch decodeScval contractId (summary.count ingestion) t' events

theorem lifecycleOf_ok {topics : List Value} {val : Value} {eventType : EventType}
    {proofId : Option Text} {txStatus : TxStatus}
    (h : lifecycleOf topics val=.ok (some (eventType,proofId,txStatus))) :
    eventType=.revoke ∧ txStatus=.revoked ∨
      eventType≠.revoke ∧ eventType≠.register ∧ txStatus=.confirmed := by
  simp only [lifecycleOf] at h
  split at h
  · cases h
    exact .inl ⟨rfl,rfl⟩
  split at h
  · split at h
    · cases h
    · cases h
      exact .inl ⟨rfl,rfl⟩
    · cases h
      exact .inr ⟨by decide,by decide,rfl⟩
    · cases h
      exact .inr ⟨by decide,by decide,rfl⟩
    · cases h
  · have h := Except.ok.inj h
    right
    split_ifs at h
    all_goals
      cases h
      exact ⟨by decide,by decide,rfl⟩

theorem classifyAndDecodeEvent_ok {decodeScval : Value → Value} {event : Value}
    {defaultContractId : Option Text} {decoded : DecodedLifecycleEvent}
    (h : classifyAndDecodeEvent decodeScval event defaultContractId=.ok (some decoded)) :
    decoded.eventType=.revoke ∧ decoded.txStatus=.revoked ∨
      decoded.eventType≠.revoke ∧ decoded.eventType≠.register ∧
        decoded.txStatus=.confirmed := by
  unfold classifyAndDecodeEvent at h
  split at h
  · cases h
  next txHash _ =>
  obtain ⟨eventIndex,-,h⟩ := bind_ok.1 h
  dsimp only at h
  split at h
  · obtain ⟨lifecycle,hlifecycle,h⟩ := bind_ok.1 h
    obtain ⟨⟨eventType,proofId,txStatus⟩,rfl,rfl⟩ := Option.map_eq_some_iff.1 (Except.ok.inj h)
    exact lifecycleOf_ok hlifecycle
  · cases h

/-- An event leaves the table as it is or adds one row, which says what was decoded. -/
theorem ingest_ok {decodeScval : Value → Value} {defaultContractId : Option Text}
    {t t' : ProofEvents} {raw : Value} {ingestion : Ingestion}
    (h : ingest decodeScval defaultContractId t raw=.ok (t',ingestion)) :
    t'=t ∨ ∃ decoded contractId,
      classifyAndDecodeEvent decodeScval raw defaultContractId=.ok (some decoded) ∧
      t'=t.insert (indexedRow (decoded.fields contractId) decoded.txHash decoded.eventIndex) := by
  obtain ⟨found,hfound,h⟩ := bind_ok.1 h
  cases found with
  | none =>
    cases h
    exact .inl rfl
  | some decoded =>
    obtain ⟨contractId,-,h⟩ := bind_ok.1 h
    have ht := congrArg Prod.fst (Except.ok.inj h)
    dsimp only at ht
    rcases insertIndexedProofEvent_table t (decoded.fields contractId) decoded.txHash
      decoded.eventIndex with hsame | hadded
    · exact .inl (ht.symm.trans hsame)
    · exact .inr ⟨decoded,contractId,hfound,ht.symm.trans hadded⟩

end Harpocrates.Backend
