import Harpocrates.Backend.ProofEvents
import Harpocrates.Backend.TxVerification

namespace Harpocrates.Backend

open Framework Framework.Python

def MAX_RECONCILE_BATCH : Int := 50

def isTerminal : Option TxStatus → Bool
  | some .confirmed => true
  | some .failed => true
  | some .missing => true
  | _ => false

/-- The status that a verdict is stored as. The others are not stored. -/
def VerificationStatus.terminal? : VerificationStatus → Option StorableStatus
  | confirmed => some ⟨_,TxStatus.confirmed_storable⟩
  | failed => some ⟨_,TxStatus.failed_storable⟩
  | missing => some ⟨_,TxStatus.missing_storable⟩
  | pending => none
  | error => none

/-- A call for one transaction hash and what the endpoints answer during it. -/
structure ReconcileCall where
  txHash : Value
  previousStatus : Option TxStatus := some .pending
  proofId : Option Text := none
  eventId : Option Nat := none
  minConfirmations : Int := 1
  force : Bool := false
  endpoints : List Endpoint

structure ReconcileResult where
  txHash : Option Text
  previousStatus : Option TxStatus
  verification : TxVerificationResult
  updated : Bool
  minConfirmationsApplied : Option Int := none
  proofId : Option Text
  eventId : Option Nat
  deriving DecidableEq

namespace ReconcileCall

def result (call : ReconcileCall) (txHash : Option Text) (verification : TxVerificationResult)
    (updated : Bool) (minConfirmationsApplied : Option Int) : ReconcileResult :=
  { txHash, previousStatus := call.previousStatus, verification, updated, minConfirmationsApplied,
    proofId := call.proofId, eventId := call.eventId }

/-- The status of a call that finds the row settled already. -/
def settledStatus : Option TxStatus → VerificationStatus
  | some .confirmed => .confirmed
  | some .failed => .failed
  | _ => .missing

def asks (call : ReconcileCall) : Option Text :=
  if isTerminal call.previousStatus && !call.force then none else horizonTxHash call.txHash

def verdict (call : ReconcileCall) (txHash : Text) : TxVerificationResult :=
  verifyTransaction (.str txHash) call.minConfirmations call.endpoints

end ReconcileCall

def reconcileRegistration (t : ProofEvents) (call : ReconcileCall) :
    Except String (ProofEvents × ReconcileResult) :=
  if call.minConfirmations < 1 then .error "minConfirmations must be >= 1"
  else
    match horizonTxHash call.txHash with
    | none =>
      let verification := { status := .failed, reason := .malformedTxHash }
      .ok (t,call.result none verification false none)
    | some normalized =>
      if isTerminal call.previousStatus && !call.force then
        let verification := {
          status := ReconcileCall.settledStatus call.previousStatus
          reason := .alreadyTerminal }
        .ok (t,call.result (some normalized) verification false none)
      else
        let verification := call.verdict normalized
        let (t',updated) :=
          match verification.status.terminal? with
          | some status => updateTxStatus t normalized status call.force
          | none => (t,false)
        .ok (t',call.result (some normalized) verification updated (some call.minConfirmations))

def clampReconcileLimit (limit : Value) : Except String Int :=
  if limit.isNone then .ok MAX_RECONCILE_BATCH
  else
    match limit.toInt with
    | .ok parsed =>
      if parsed < 1 then .error "limit must be a positive integer"
      else .ok (min parsed MAX_RECONCILE_BATCH)
    | .error .overflow => .error "cannot convert float infinity to integer"
    | .error _ => .error "limit must be a positive integer"

structure ReconcileSummary where
  scanned : Nat := 0
  confirmed : Nat := 0
  failed : Nat := 0
  missing : Nat := 0
  pending : Nat := 0
  error : Nat := 0
  updated : Nat := 0
  deriving DecidableEq

def ReconcileSummary.count (summary : ReconcileSummary) (item : ReconcileResult) :
    ReconcileSummary :=
  let summary := { summary with
    scanned := summary.scanned+1
    updated := summary.updated+if item.updated then 1 else 0 }
  match item.verification.status with
  | .confirmed => { summary with confirmed := summary.confirmed+1 }
  | .failed => { summary with failed := summary.failed+1 }
  | .missing => { summary with missing := summary.missing+1 }
  | .pending => { summary with pending := summary.pending+1 }
  | .error => { summary with error := summary.error+1 }

/-- The call for a pending row. -/
def ReconcileCall.ofRow (minConfirmations : Int) (row : Nat × ProofEvent)
    (endpoints : List Endpoint) : ReconcileCall where
  txHash := (row.2.txHash.map Value.str).getD .none
  previousStatus := some (row.2.txStatus.getD .pending)
  proofId := row.2.proofId
  eventId := some row.1
  minConfirmations
  endpoints

/-- The rows one after the other, each with the answers that Horizon gives for it. -/
def reconcileRows (minConfirmations : Int) (horizon : Nat × ProofEvent → List Endpoint) :
    ReconcileSummary → ProofEvents → List (Nat × ProofEvent) →
      Except String (ProofEvents × ReconcileSummary)
  | summary,t,[] => .ok (t,summary)
  | summary,t,row::rows =>
    match reconcileRegistration t (ReconcileCall.ofRow minConfirmations row (horizon row)) with
    | .error message => .error message
    | .ok (t',item) => reconcileRows minConfirmations horizon (summary.count item) t' rows

def reconcilePendingRegistrations (t : ProofEvents) (limit : Value) (minConfirmations : Int)
    (horizon : Nat × ProofEvent → List Endpoint) : Except String (ProofEvents × ReconcileSummary) :=
  match clampReconcileLimit limit with
  | .error message => .error message
  | .ok pageSize =>
    if minConfirmations < 1 then .error "minConfirmations must be >= 1"
    else
      reconcileRows minConfirmations horizon {} t (listPendingRegistrationTxs t pageSize)

/-- A call leaves the table as it is, or stores a terminal verdict about the hash it asked for. -/
theorem reconcileRegistration_ok {t t' : ProofEvents} {call : ReconcileCall}
    {result : ReconcileResult} (h : reconcileRegistration t call=.ok (t',result)) :
    t'=t ∧ (∀ txHash∈call.asks, (call.verdict txHash).status.terminal? = none) ∨
    ∃ txHash status, call.asks=some txHash ∧ 1≤call.minConfirmations ∧
      (call.verdict txHash).status.terminal? = some status ∧
      t'=(updateTxStatus t txHash status call.force).1 := by
  unfold reconcileRegistration at h
  split at h
  · cases h
  next hmin =>
  split at h
  · next hmalformed =>
    cases h
    exact .inl ⟨rfl,by simp [ReconcileCall.asks,hmalformed]⟩
  next normalized hnormalized =>
  split at h
  · next hsettled =>
    cases h
    exact .inl ⟨rfl,by simp [ReconcileCall.asks,hsettled]⟩
  next hopen =>
  have hasks : call.asks=some normalized := by
    rw [ReconcileCall.asks,if_neg hopen,hnormalized]
  have ht := congrArg Prod.fst (Except.ok.inj h)
  cases hverdict : (call.verdict normalized).status.terminal? with
  | none =>
    rw [hverdict] at ht
    refine .inl ⟨ht.symm,?_⟩
    rw [hasks]
    rintro _ ⟨⟩
    exact hverdict
  | some status =>
    rw [hverdict] at ht
    exact .inr ⟨normalized,status,hasks,by omega,hverdict,ht.symm⟩

end Harpocrates.Backend
