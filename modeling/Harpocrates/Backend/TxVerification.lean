import Harpocrates.Framework.Python

namespace Harpocrates.Backend

open Framework.Python List

/-! What Horizon says about a transaction. The answers of the endpoints are given; the endpoints
are asked in order until one of them decides. -/

/-- The answer to one request: an exception, which a body that is no object leads to as well, or a
status and a body, if that is not empty. -/
inductive Answer (α : Type)
  | raises
  | reply (statusCode : Nat) (data : Option α)

structure TxData where
  successful : Value := .bool false
  ledger : Value := .none

/-- How an endpoint answers for the transaction and for the fee statistics, of which only the last
ledger is read, zero if it is absent. -/
structure Endpoint where
  rpcUrl : Text
  transaction : Answer TxData
  feeStats : Answer Value := .raises

inductive VerificationStatus
  | pending | confirmed | failed | missing | error
  deriving DecidableEq

inductive Reason
  | malformedTxHash | invalidMinConfirmations | txUnsuccessful | confirmationsUnavailable
  | awaitingConfirmations | confirmed | notFoundOnHorizon | horizonDependencyFailure
  | alreadyTerminal
  deriving DecidableEq

structure TxVerificationResult where
  status : VerificationStatus
  reason : Reason
  ledger : Option Int := none
  latestLedger : Option Int := none
  confirmations : Option Int := none
  successful : Option Bool := none
  source : Option Text := none
  deriving DecidableEq

/-- Four and sixty hex digits, after an optional `0x`; none where the source raises. -/
def horizonTxHash : Value → Option Text
  | .str value =>
    let normalized := dropHexMark (lower (strip value))
    if normalized.length = 64 ∧ normalized.all ("0123456789abcdef".toList.contains ·) then
      some normalized
    else none
  | _ => none

/-- The ledger of a transaction; an infinite float is not caught here. -/
def readLedger (raw : Value) : Except ConversionError (Option Int) :=
  if raw.isNone then .ok none
  else
    match raw.toInt with
    | .ok ledger => .ok (some ledger)
    | .error .overflow => .error .overflow
    | .error _ => .ok none

def latestLedger : Answer Value → Except ConversionError (Option Int)
  | .raises => .error .value
  | .reply 200 (some lastLedger) =>
    match lastLedger.toInt with
    | .ok ledger => .ok (if ledger = 0 then none else some ledger)
    | .error error => .error error
  | .reply _ _ => .ok none

def confirmationsOf : Option Int → Option Int → Option Int
  | some ledger,some latest => if ledger ≤ latest then some (latest-ledger+1) else none
  | _,_ => none

/-- What asking one endpoint comes to. -/
inductive Probe
  | notFound
  | unavailable
  | decided (result : TxVerificationResult)
  deriving DecidableEq

def probeSuccess (minConfirmations : Int) (endpoint : Endpoint) (ledger latest : Option Int) :
    TxVerificationResult :=
  let result (status : VerificationStatus) (reason : Reason) (confirmations : Option Int) :
      TxVerificationResult :=
    { status, reason, ledger, latestLedger := latest, confirmations, successful := some true,
      source := some endpoint.rpcUrl }
  match confirmationsOf ledger latest with
  | none => result .pending .confirmationsUnavailable none
  | some confirmations =>
    if confirmations < minConfirmations then
      result .pending .awaitingConfirmations (some confirmations)
    else result .confirmed .confirmed (some confirmations)

def probe (minConfirmations : Int) (endpoint : Endpoint) : Probe :=
  match endpoint.transaction with
  | .raises => .unavailable
  | .reply 404 _ => .notFound
  | .reply 200 (some data) =>
    match readLedger data.ledger with
    | .error _ => .unavailable
    | .ok ledger =>
      if !data.successful.truthy then
        .decided {
          status := .failed
          reason := .txUnsuccessful
          ledger
          successful := some false
          source := some endpoint.rpcUrl }
      else
        match latestLedger endpoint.feeStats with
        | .error _ => .unavailable
        | .ok latest => .decided (probeSuccess minConfirmations endpoint ledger latest)
  | .reply _ _ => .unavailable

/-- The failover loop, with what it saw so far. -/
def askEndpoints (minConfirmations : Int) : Bool → Bool → List Endpoint → TxVerificationResult
  | dependencyFailure,notFound,[] =>
    if notFound && !dependencyFailure then { status := .missing, reason := .notFoundOnHorizon }
    else if dependencyFailure then { status := .error, reason := .horizonDependencyFailure }
    else { status := .missing, reason := .notFoundOnHorizon }
  | dependencyFailure,notFound,endpoint::endpoints =>
    match probe minConfirmations endpoint with
    | .notFound => askEndpoints minConfirmations dependencyFailure true endpoints
    | .unavailable => askEndpoints minConfirmations true notFound endpoints
    | .decided result => result

def verifyTransaction (txHash : Value) (minConfirmations : Int) (endpoints : List Endpoint) :
    TxVerificationResult :=
  match horizonTxHash txHash with
  | none => { status := .failed, reason := .malformedTxHash }
  | some _ =>
    if minConfirmations < 1 then { status := .error, reason := .invalidMinConfirmations }
    else askEndpoints minConfirmations false false endpoints

-- Not decided as it stands: with all of `Char` in view, every character would be tried.
theorem hexDigits_plain : ∀ c ∈ "0123456789abcdef".toList,
    isSpace c=false ∧ lowerChar c=c ∧ c ≠ 'x' := by
  have hall : ("0123456789abcdef".toList.all fun c =>
      isSpace c=false ∧ lowerChar c=c ∧ c ≠ 'x')=true := by decide
  intro c hc
  exact of_decide_eq_true (all_eq_true.1 hall c hc)

/-- A hash that was normalized is not changed by doing so again, nor is it blank. -/
theorem horizonTxHash_normal {value : Value} {txHash : Text}
    (h : horizonTxHash value=some txHash) :
    horizonTxHash (.str txHash)=some txHash ∧ strip txHash≠[] := by
  obtain ⟨hlength,hdigits⟩ : txHash.length=64 ∧ ∀ c∈txHash, c ∈ "0123456789abcdef".toList := by
    cases value with
    | str s =>
      simp only [horizonTxHash] at h
      split at h
      · next hhex =>
        cases h
        exact ⟨hhex.1,fun c hc => contains_iff_mem.1 (all_eq_true.1 hhex.2 c hc)⟩
      · cases h
    | _ => cases h
  have hstrip : strip txHash=txHash :=
    strip_eq_self fun c hc => (hexDigits_plain c (hdigits c hc)).1
  have hlower : lower txHash=txHash := by
    refine (map_congr_left fun c hc => ?_).trans (map_id txHash)
    exact (hexDigits_plain c (hdigits c hc)).2.1
  have hmark : dropHexMark txHash=txHash := by
    refine if_neg fun hmark => ?_
    have hx : 'x'∈txHash := mem_of_mem_take (by rw [hmark]; decide)
    exact (hexDigits_plain 'x' (hdigits 'x' hx)).2.2 rfl
  refine ⟨?_,?_⟩
  · simp only [horizonTxHash,hstrip,hlower,hmark]
    refine if_pos ⟨hlength,all_eq_true.2 fun c hc => ?_⟩
    exact contains_iff_mem.2 (hdigits c hc)
  · rw [hstrip]
    intro hnil
    simp [hnil] at hlength

namespace Endpoint

/-- The endpoint says that the transaction succeeded, that many ledgers deep. -/
def ReportsSuccess (minConfirmations : Int) (endpoint : Endpoint) : Prop :=
  ∃ data ledger latest, endpoint.transaction = .reply 200 (some data) ∧
    data.successful.truthy = true ∧ readLedger data.ledger = .ok (some ledger) ∧
    latestLedger endpoint.feeStats = .ok (some latest) ∧ ledger ≤ latest ∧
    minConfirmations ≤ latest-ledger+1

def ReportsFailure (endpoint : Endpoint) : Prop :=
  ∃ data, endpoint.transaction = .reply 200 (some data) ∧ data.successful.truthy = false

def NotFound (endpoint : Endpoint) : Prop := ∃ data, endpoint.transaction = .reply 404 data

def Reachable (minConfirmations : Int) (endpoint : Endpoint) : Prop :=
  probe minConfirmations endpoint ≠ .unavailable

end Endpoint

section

variable {minConfirmations : Int} {endpoint : Endpoint} {endpoints : List Endpoint}
  {result : TxVerificationResult}

theorem confirmationsOf_eq_some {ledger latest : Option Int} {confirmations : Int} :
    confirmationsOf ledger latest=some confirmations ↔
      ∃ l m, ledger=some l ∧ latest=some m ∧ l ≤ m ∧ m-l+1=confirmations := by
  cases ledger with
  | none => simp [confirmationsOf]
  | some l =>
    cases latest with
    | none => simp [confirmationsOf]
    | some m => simp [confirmationsOf]

theorem probeSuccess_status {ledger latest : Option Int} :
    ((probeSuccess minConfirmations endpoint ledger latest).status=.confirmed ∨
      (probeSuccess minConfirmations endpoint ledger latest).status=.pending) ∧
    ((probeSuccess minConfirmations endpoint ledger latest).status=.confirmed ↔
      ∃ l m, ledger=some l ∧ latest=some m ∧ l ≤ m ∧ minConfirmations ≤ m-l+1) := by
  unfold probeSuccess
  split
  · next hnone =>
    refine ⟨.inr rfl,by simp,?_⟩
    rintro ⟨l,m,hl,hm,hle,-⟩
    rw [confirmationsOf_eq_some.2 ⟨l,m,hl,hm,hle,rfl⟩] at hnone
    cases hnone
  next confirmations hconfirmations =>
  obtain ⟨l,m,rfl,rfl,hle,rfl⟩ := confirmationsOf_eq_some.1 hconfirmations
  split
  · next hshallow =>
    refine ⟨.inr rfl,by simp,?_⟩
    rintro ⟨l',m',hl,hm,-,hdeep⟩
    cases hl
    cases hm
    omega
  · next hdeep => exact ⟨.inl rfl,fun _ => ⟨l,m,rfl,rfl,hle,by omega⟩,fun _ => rfl⟩

theorem probe_cases (minConfirmations : Int) (endpoint : Endpoint) :
    probe minConfirmations endpoint=.notFound ∧ endpoint.NotFound ∨
    probe minConfirmations endpoint=.unavailable ∨
    ∃ result, probe minConfirmations endpoint=.decided result ∧
      (result.status=.failed ∧ endpoint.ReportsFailure ∨ result.status=.pending ∨
        result.status=.confirmed ∧ endpoint.ReportsSuccess minConfirmations) := by
  unfold probe
  split
  · exact .inr (.inl rfl)
  · next data htx => exact .inl ⟨rfl,data,htx⟩
  · next data htx =>
    split
    · exact .inr (.inl rfl)
    next ledger hledger =>
    split
    · next hfailed => exact .inr (.inr ⟨_,rfl,.inl ⟨rfl,data,htx,by simpa using hfailed⟩⟩)
    next hsuccess =>
    split
    · exact .inr (.inl rfl)
    next latest hlatest =>
    refine .inr (.inr ⟨_,rfl,.inr ?_⟩)
    obtain ⟨hstatus | hstatus,hdeep⟩ :=
      @probeSuccess_status minConfirmations endpoint ledger latest
    · obtain ⟨l,m,rfl,rfl,hle,hmin⟩ := hdeep.1 hstatus
      exact .inr ⟨hstatus,data,l,m,htx,by simpa using hsuccess,hledger,hlatest,hle,hmin⟩
    · exact .inl hstatus
  · exact .inr (.inl rfl)

theorem probe_of_success (h : endpoint.ReportsSuccess minConfirmations) :
    ∃ result, probe minConfirmations endpoint=.decided result ∧ result.status=.confirmed := by
  obtain ⟨data,l,m,htx,hsuccess,hledger,hlatest,hle,hmin⟩ := h
  refine ⟨probeSuccess minConfirmations endpoint (some l) (some m),?_,?_⟩
  · simp [probe,htx,hledger,hsuccess,hlatest]
  · exact probeSuccess_status.2.2 ⟨l,m,rfl,rfl,hle,hmin⟩

theorem reachable_of_success (h : endpoint.ReportsSuccess minConfirmations) :
    endpoint.Reachable minConfirmations := by
  obtain ⟨result,hprobe,-⟩ := probe_of_success h
  rw [Endpoint.Reachable,hprobe]
  exact nofun

theorem probe_of_notFound (h : endpoint.NotFound) :
    probe minConfirmations endpoint=.notFound := by
  obtain ⟨data,htx⟩ := h
  simp [probe,htx]

variable {dependencyFailure notFound : Bool}

/-- The loop ends with what an endpoint decided, or because none did. -/
theorem askEndpoints_cases
    (hresult : askEndpoints minConfirmations dependencyFailure notFound endpoints=result) :
    (∃ e∈endpoints, probe minConfirmations e=.decided result) ∨
    result.status=.missing ∧ dependencyFailure=false ∧ (∀ e∈endpoints, e.NotFound) ∨
    result.status=.error := by
  induction endpoints generalizing dependencyFailure notFound with
  | nil =>
    subst hresult
    cases dependencyFailure with
    | true => simp [askEndpoints]
    | false => simp [askEndpoints]
  | cons endpoint endpoints ih =>
    rcases probe_cases minConfirmations endpoint with
      ⟨hprobe,hnotFound⟩ | hprobe | ⟨decision,hprobe,-⟩
    · simp only [askEndpoints,hprobe] at hresult
      rcases ih hresult with ⟨e,he,hdecided⟩ | ⟨hmissing,hdep,hall⟩ | herror
      · exact .inl ⟨e,mem_cons_of_mem _ he,hdecided⟩
      · exact .inr (.inl ⟨hmissing,hdep,forall_mem_cons.2 ⟨hnotFound,hall⟩⟩)
      · exact .inr (.inr herror)
    · simp only [askEndpoints,hprobe] at hresult
      rcases ih hresult with ⟨e,he,hdecided⟩ | ⟨-,hdep,-⟩ | herror
      · exact .inl ⟨e,mem_cons_of_mem _ he,hdecided⟩
      · cases hdep
      · exact .inr (.inr herror)
    · simp only [askEndpoints,hprobe] at hresult
      exact .inl ⟨endpoint,mem_cons_self,hresult ▸ hprobe⟩

/-- The verdicts of the loop that are stored, and what the endpoints said. -/
theorem askEndpoints_stored
    (hresult : askEndpoints minConfirmations dependencyFailure notFound endpoints=result) :
    (result.status=.confirmed → ∃ e∈endpoints, e.ReportsSuccess minConfirmations) ∧
    (result.status=.failed → ∃ e∈endpoints, e.ReportsFailure) ∧
    (result.status=.missing → ∀ e∈endpoints, e.NotFound) := by
  rcases askEndpoints_cases hresult with ⟨e,he,hdecided⟩ | ⟨hmissing,-,hall⟩ | herror
  · rcases probe_cases minConfirmations e with
      ⟨hprobe,-⟩ | hprobe | ⟨decision,hprobe,hdecision⟩
    · rw [hprobe] at hdecided
      cases hdecided
    · rw [hprobe] at hdecided
      cases hdecided
    rw [hprobe] at hdecided
    cases hdecided
    rcases hdecision with ⟨hstatus,hfailure⟩ | hstatus | ⟨hstatus,hsuccess⟩
    · exact ⟨by simp [hstatus],fun _ => ⟨e,he,hfailure⟩,by simp [hstatus]⟩
    · exact ⟨by simp [hstatus],by simp [hstatus],by simp [hstatus]⟩
    · exact ⟨fun _ => ⟨e,he,hsuccess⟩,by simp [hstatus],by simp [hstatus]⟩
  · exact ⟨by simp [hmissing],by simp [hmissing],fun _ => hall⟩
  · exact ⟨by simp [herror],by simp [herror],by simp [herror]⟩

theorem askEndpoints_missing (hall : ∀ e∈endpoints, e.NotFound) :
    (askEndpoints minConfirmations false notFound endpoints).status=.missing := by
  induction endpoints generalizing notFound with
  | nil => cases notFound <;> rfl
  | cons endpoint endpoints ih =>
    obtain ⟨hnotFound,hall⟩ := forall_mem_cons.1 hall
    simp only [askEndpoints,probe_of_notFound hnotFound]
    exact ih hall

/-- When all endpoints that can be reached report success, and there is one, so does the loop. -/
theorem askEndpoints_confirmed
    (hall : ∀ e∈endpoints, e.Reachable minConfirmations → e.ReportsSuccess minConfirmations)
    (hsome : ∃ e∈endpoints, e.Reachable minConfirmations) :
    (askEndpoints minConfirmations dependencyFailure notFound endpoints).status=.confirmed := by
  induction endpoints generalizing dependencyFailure notFound with
  | nil => simp at hsome
  | cons endpoint endpoints ih =>
    by_cases hreachable : endpoint.Reachable minConfirmations
    · obtain ⟨result,hprobe,hstatus⟩ :=
        probe_of_success (hall endpoint mem_cons_self hreachable)
      simpa only [askEndpoints,hprobe] using hstatus
    · have hprobe : probe minConfirmations endpoint=.unavailable := not_not.1 hreachable
      obtain ⟨e,he,hreach⟩ := hsome
      rcases mem_cons.1 he with rfl | he
      · exact absurd hreach hreachable
      simp only [askEndpoints,hprobe]
      exact ih (fun e he => hall e (mem_cons_of_mem _ he)) ⟨e,he,hreach⟩

end

end Harpocrates.Backend
