import Harpocrates.Backend.RevocationLookup

namespace Harpocrates.Backend

open Framework Framework.Python List

/-- A Horizon endpoint reported the transaction successful at the depth that was asked for. -/
def ReportedOnLedger (tr : Trace) (txHash : Text) : Prop :=
  ∃ ev ∈ tr, ∃ call, ev.label = .reconcile call ∧ call.asks = some txHash ∧
    1 ≤ call.minConfirmations ∧
    ∃ endpoint ∈ call.endpoints, endpoint.ReportsSuccess call.minConfirmations

/-- The indexer met the event on chain. -/
def ObservedOnChain (service : Service) (tr : Trace) (e : ProofEvent) : Prop :=
  ∃ ev ∈ tr, ∃ raw default decoded, ev.label = .index raw default ∧
    classifyAndDecodeEvent service.decodeScval raw default = .ok (some decoded) ∧
    e.txHash = some decoded.txHash ∧ e.eventIndex = some decoded.eventIndex ∧
    e.eventType = decoded.eventType ∧ e.proofId = decoded.proofId

def Grounded (service : Service) (tr : Trace) (e : ProofEvent) : Prop :=
  (∃ txHash, e.txHash = some txHash ∧ ReportedOnLedger tr txHash) ∨ ObservedOnChain service tr e

section

variable {service : Service} {tr : Trace} {w : World} {e : ProofEvent}

theorem Grounded.mono (ev : Event World Label) (h : Grounded service tr e) :
    Grounded service (ev::tr) e := by
  rcases h with ⟨txHash,htx,ev',hev',hreported⟩ | ⟨ev',hev',hobserved⟩
  · exact .inl ⟨txHash,htx,ev',mem_cons_of_mem _ hev',hreported⟩
  · exact .inr ⟨ev',mem_cons_of_mem _ hev',hobserved⟩

theorem Grounded.txHash_isSome (h : Grounded service tr e) : e.txHash.isSome := by
  rcases h with ⟨txHash,htx,-⟩ | ⟨_,_,_,_,decoded,-,-,htx,-⟩
  · simp [htx]
  · simp [htx]

theorem verdict_confirmed {call : ReconcileCall} {txHash : Text}
    (h : (call.verdict txHash).status.terminal? = some ⟨.confirmed,by decide⟩) :
    ∃ endpoint∈call.endpoints, endpoint.ReportsSuccess call.minConfirmations := by
  have hstatus : (call.verdict txHash).status=.confirmed := by
    cases hs : (call.verdict txHash).status <;> simp [hs,VerificationStatus.terminal?] at h ⊢
  unfold ReconcileCall.verdict verifyTransaction at hstatus
  split at hstatus
  · cases hstatus
  split at hstatus
  · cases hstatus
  · exact (askEndpoints_stored rfl).1 hstatus

/-- A confirmed row with a transaction hash got its status from the ledger. -/
theorem confirmed_row_grounded (hr : Run (step service) World.empty tr w) {i : Nat}
    (he : (i,e)∈w.events) :
    e.txStatus=some .confirmed → e.txHash.isSome → Grounded service tr e := by
  refine row_rule (P := fun tr e => e.txStatus=some .confirmed → e.txHash.isSome →
    Grounded service tr e) ?_ ?_ ?_ ?_ ?_ ?_ hr he
  · exact fun ev _ _ h hstatus htx => (h hstatus htx).mono ev
  · intro _ key fields _ hpending _ hstatus htx
    have hconfirmed : fields.txStatus=some .confirmed := hstatus
    rw [hpending htx] at hconfirmed
    cases hconfirmed
  · intro _ media hstatus _
    cases hstatus
  · intro _ w w' raw default column decoded hdecoded _ _
    exact .inr ⟨_,mem_cons_self,raw,default,decoded,rfl,hdecoded,rfl,rfl,rfl,rfl⟩
  · intro _ w w' call txHash status e hasks hmin hverdict hawaits _ hstatus _
    have htx : e.txHash=some txHash := by
      simp only [ProofEvent.awaits,Bool.and_eq_true,decide_eq_true_eq] at hawaits
      exact hawaits.1
    obtain ⟨status,hne⟩ := status
    obtain rfl : status=.confirmed := Option.some.inj hstatus
    exact .inl ⟨txHash,htx,_,mem_cons_self,call,rfl,hasks,hmin,verdict_confirmed hverdict⟩
  · exact fun _ e hold h => h

end

def confirmationSteps : List Label :=
  [.arrive shoutedRequest 0,.store 0,
    .reconcile { txHash := repeated 'd', endpoints := [settledEndpoint] }]

def confirmedWorld : World := confirmationSteps.foldl (next openService) World.empty

theorem confirmedWorld_verified :
    (verifyItem (.ok confirmedWorld.events) 0 (itemOf [("videoHash",'b')])).status=.verified ∧
      ∃ e∈(verifyItem (.ok confirmedWorld.events) 0 (itemOf [("videoHash",'b')])).events,
        e.2.txStatus=some .confirmed ∧ e.2.txHash.isSome := by
  decide +kernel

/-- A registration that brings its own status along, and no transaction hash. -/
def selfConfirmedRequest : RegisterRequest where
  payload := .dict [] [("videoHash".toList,repeated 'b'),("metadataHash".toList,repeated 'c'),
    ("proofId".toList,repeated 'a'),("tier".toList,.str "silent".toList),
    ("txStatus".toList,.str "Success".toList)]

def selfConfirmedWorld : World :=
  [Label.arrive selfConfirmedRequest 0,.store 0].foldl (next openService) World.empty

theorem selfConfirmedWorld_verified :
    (verifyItem (.ok selfConfirmedWorld.events) 0 (itemOf [("proofId",'a')])).status=.verified ∧
      ∀ e∈(verifyItem (.ok selfConfirmedWorld.events) 0 (itemOf [("proofId",'a')])).events,
        e.2.txHash=none := by
  decide +kernel

end Harpocrates.Backend
