import Harpocrates.Backend.Register

namespace Harpocrates.Backend

open Framework Framework.Python

inductive ItemStatus
  | malformed | notFound | revoked | verified | failed | pending | dependencyFailure
  deriving DecidableEq

structure ItemResult where
  status : ItemStatus
  error : Option String := none
  events : List (Nat × ProofEvent) := []
  index : Nat
  deriving DecidableEq

/-- The status that the events of an item amount to. -/
def statusOf (events : List (Nat × ProofEvent)) : ItemStatus :=
  if events.isEmpty then .notFound
  else if events.any fun e => e.2.txStatus = some .revoked || e.2.eventType = .revoke then .revoked
  else if events.any fun e => e.2.txStatus = some .confirmed then .verified
  else if events.any fun e => e.2.txStatus = some .failed then .failed
  else .pending

/-- The events that are looked up for an item with a video hash, a proof id or both. -/
def lookupEvents (t : ProofEvents) : Option Text → Option Text → List (Nat × ProofEvent)
  | some videoHash,none => (findProofEventsByVideo t videoHash).1
  | some videoHash,some proofId =>
    (findProofEventsByVideo t videoHash).1.filter fun e => e.2.proofId = some proofId
  | none,some proofId => findProofEventsByProofId t proofId
  | none,none => []

/-- The outcome for one item of the batch; `db` is the table, or the error of reaching it. -/
def verifyItem (db : Except String ProofEvents) (index : Nat) (item : Value) : ItemResult :=
  match item with
  | .dict _ _ =>
    let videoHash := item.get "videoHash".toList
    let proofId := item.get "proofId".toList
    if !videoHash.isNone && !isHex32 videoHash then
      { status := .malformed, error := some "invalid videoHash", index }
    else if !proofId.isNone && !isHex32 proofId then
      { status := .malformed, error := some "invalid proofId", index }
    else if !videoHash.truthy && !proofId.truthy then
      { status := .malformed, error := some "must provide videoHash or proofId", index }
    else
      match db with
      | .error message => { status := .dependencyFailure, error := some message, index }
      | .ok t =>
        let events := lookupEvents t videoHash.text? proofId.text?
        { status := statusOf events, events, index }
  | _ => { status := .malformed, error := some "item must be a JSON object", index }

/-- The batch endpoint; `jsonBytes` is the length of the body as sent. -/
def verifyBatch (maxJsonBytes maxBatchSize : Nat) (db : Except String ProofEvents)
    (jsonBytes : Nat) (payload : Value) : Except ErrorReply (List ItemResult) :=
  if maxJsonBytes < jsonBytes then
    .error { status := 413, message := "JSON payload exceeds size limit" }
  else
    match payload.get "proofs".toList with
    | .list _ proofs =>
      if maxBatchSize < proofs.length then
        .error {
          status := 413
          message := "batch size exceeds limit of "++toString maxBatchSize }
      else .ok (proofs.mapIdx fun index item => verifyItem db index item)
    | _ => .error { status := 400, message := "JSON body with a 'proofs' array is required" }

end Harpocrates.Backend
