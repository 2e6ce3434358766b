import Harpocrates.Backend.Grounding

namespace Harpocrates.Backend

open Framework Framework.Python List Option

/-! Reconciliation over several calls. A row keeps the first terminal verdict about its hash. -/

/-- The status that a step settles on for a transaction hash. -/
def settles (txHash : Text) (ev : Event World Label) : Option StorableStatus :=
  match ev.label with
  | .reconcile call =>
    if call.asks = some txHash ∧ 1 ≤ call.minConfirmations then
      (call.verdict txHash).status.terminal?
    else none
  | _ => none

def firstSettled (txHash : Text) : Trace → Option StorableStatus
  | [] => none
  | ev::tr => (firstSettled txHash tr).or (settles txHash ev)

def Misses (txHash : Text) (ev : Event World Label) : Prop :=
  ∃ call, ev.label = .reconcile call ∧ call.asks = some txHash ∧ 1 ≤ call.minConfirmations ∧
    ∀ endpoint ∈ call.endpoints, endpoint.NotFound

def Confirms (txHash : Text) (ev : Event World Label) : Prop :=
  ∃ call, ev.label = .reconcile call ∧ call.asks = some txHash ∧ 1 ≤ call.minConfirmations ∧
    (call.verdict txHash).status = .confirmed

section

variable {txHash : Text} {call : ReconcileCall} {ev : Event World Label} {status : StorableStatus}
  {tr tr₁ tr₂ : Trace}

theorem terminal?_eq_some {verdict : VerificationStatus} :
    verdict.terminal? = some status ↔ verdict=.confirmed ∧ status.1=.confirmed ∨
      verdict=.failed ∧ status.1=.failed ∨ verdict=.missing ∧ status.1=.missing := by
  cases verdict <;> simp [VerificationStatus.terminal?,Subtype.ext_iff,eq_comm]

theorem asks_normal (h : call.asks=some txHash) :
    horizonTxHash (.str txHash)=some txHash ∧ strip txHash≠[] := by
  unfold ReconcileCall.asks at h
  split at h
  · cases h
  · exact horizonTxHash_normal h

theorem verdict_eq (h : call.asks=some txHash) (hmin : 1≤call.minConfirmations) :
    call.verdict txHash=askEndpoints call.minConfirmations false false call.endpoints := by
  rw [ReconcileCall.verdict,verifyTransaction,(asks_normal h).1]
  exact if_neg (by omega)

theorem settles_eq_some :
    settles txHash ev=some status ↔ ∃ call, ev.label=.reconcile call ∧
      call.asks=some txHash ∧ 1≤call.minConfirmations ∧
      (call.verdict txHash).status.terminal? = some status := by
  unfold settles
  split
  · next call hlabel =>
    constructor
    · intro h
      split at h
      · next hasks => exact ⟨call,hlabel,hasks.1,hasks.2,h⟩
      · cases h
    · rintro ⟨call',hlabel',hasks,hmin,h⟩
      obtain rfl : call=call' := Label.reconcile.inj (hlabel.symm.trans hlabel')
      rw [if_pos ⟨hasks,hmin⟩]
      exact h
  · next hother =>
    constructor
    · intro h
      cases h
    · rintro ⟨call,hlabel,-⟩
      exact absurd hlabel (hother call)

theorem settles_confirmed :
    settles txHash ev=some ⟨.confirmed,by decide⟩ ↔ Confirms txHash ev := by
  simp only [settles_eq_some,terminal?_eq_some,Confirms,reduceCtorEq,and_false,or_false,and_true]

theorem settles_missing : settles txHash ev=some ⟨.missing,by decide⟩ ↔ Misses txHash ev := by
  simp only [settles_eq_some,terminal?_eq_some,Misses,reduceCtorEq,and_false,false_or,and_true]
  refine exists_congr fun call => and_congr_right fun _ => and_congr_right fun hasks =>
    and_congr_right fun hmin => ?_
  rw [verdict_eq hasks hmin]
  exact ⟨(askEndpoints_stored rfl).2.2,askEndpoints_missing⟩

theorem settles_ne_pending (h : settles txHash ev=some status) : status.1≠.pending := by
  obtain ⟨call,-,-,-,hverdict⟩ := settles_eq_some.1 h
  rcases terminal?_eq_some.1 hverdict with ⟨-,hs⟩ | ⟨-,hs⟩ | ⟨-,hs⟩ <;> simp [hs]

theorem firstSettled_eq_none :
    firstSettled txHash tr=none ↔ ∀ ev∈tr, settles txHash ev=none := by
  induction tr with
  | nil => simp [firstSettled]
  | cons ev tr ih => rw [firstSettled,or_eq_none_iff,ih,forall_mem_cons,and_comm]

theorem firstSettled_split (h : firstSettled txHash tr=some status) :
    ∃ tr₁ ev tr₂, tr=tr₂++ev::tr₁ ∧ settles txHash ev=some status ∧
      firstSettled txHash tr₁=none := by
  induction tr with
  | nil => cases h
  | cons ev tr ih =>
    rw [firstSettled] at h
    cases hbefore : firstSettled txHash tr with
    | some earlier =>
      rw [hbefore,some_or] at h
      obtain ⟨tr₁,ev',tr₂,rfl,hsettles⟩ := ih (hbefore.trans h)
      exact ⟨tr₁,ev',ev::tr₂,rfl,hsettles⟩
    | none =>
      rw [hbefore,none_or] at h
      exact ⟨tr,ev,[],rfl,h,hbefore⟩

theorem firstSettled_append (h : firstSettled txHash tr₁=some status) :
    firstSettled txHash (tr₂++tr₁)=some status := by
  induction tr₂ with
  | nil => exact h
  | cons ev tr₂ ih =>
    rw [cons_append,firstSettled,ih,some_or]

theorem settled_cases {status : StorableStatus} (hpending : status.1≠.pending)
    (hfailed : status.1≠.failed) :
    status=⟨.confirmed,by decide⟩ ∨ status=⟨.missing,by decide⟩ := by
  obtain ⟨status,hrevoked⟩ := status
  cases status with
  | confirmed => exact .inl rfl
  | missing => exact .inr rfl
  | pending => exact absurd rfl hpending
  | failed => exact absurd rfl hfailed
  | revoked => exact absurd rfl hrevoked

/-- A confirmation comes first unless the transaction was missed before any confirmation. -/
theorem firstSettled_confirmed_iff
    (hev : settles txHash ev=some ⟨.confirmed,by decide⟩)
    (hfailed : ∀ ev'∈tr, ∀ status, settles txHash ev'=some status → status.1≠.failed) :
    firstSettled txHash (ev::tr)=some ⟨.confirmed,by decide⟩ ↔
      ∀ tr₁ ev' tr₂, tr=tr₂++ev'::tr₁ → Misses txHash ev' →
        ∃ ev'' ∈ tr₁, Confirms txHash ev'' := by
  rw [firstSettled,hev]
  constructor
  · rintro hfirst tr₁ ev' tr₂ rfl hmiss
    by_contra hnone
    have hbefore : firstSettled txHash (ev'::tr₁)=some ⟨.missing,by decide⟩ := by
      rw [firstSettled,settles_missing.2 hmiss]
      cases hearlier : firstSettled txHash tr₁ with
      | none => rfl
      | some status =>
        obtain ⟨tr₃,ev'',tr₄,rfl,hsettles,-⟩ := firstSettled_split hearlier
        have hmem : ev'' ∈ tr₄++ev''::tr₃ := by simp
        rcases settled_cases (settles_ne_pending hsettles)
          (hfailed ev'' (by simp) status hsettles) with rfl | rfl
        · exact absurd ⟨ev'',hmem,settles_confirmed.1 hsettles⟩ hnone
        · rfl
    rw [firstSettled_append hbefore] at hfirst
    cases hfirst
  · intro hmisses
    cases hearlier : firstSettled txHash tr with
    | none => rfl
    | some status =>
      obtain ⟨tr₁,ev',tr₂,rfl,hsettles,hnone⟩ := firstSettled_split hearlier
      rcases settled_cases (settles_ne_pending hsettles)
        (hfailed ev' (by simp) status hsettles) with rfl | rfl
      · rfl
      obtain ⟨ev'',hev'',hconfirms⟩ := hmisses tr₁ ev' tr₂ rfl (settles_missing.1 hsettles)
      have hcontra := firstSettled_eq_none.1 hnone ev'' hev''
      rw [settles_confirmed.2 hconfirms] at hcontra
      cases hcontra

theorem reported_of_firstSettled (h : firstSettled txHash tr=some ⟨.confirmed,by decide⟩) :
    ReportedOnLedger tr txHash := by
  obtain ⟨tr₁,ev,tr₂,rfl,hsettles,-⟩ := firstSettled_split h
  obtain ⟨call,hlabel,hasks,hmin,hverdict⟩ := settles_eq_some.1 hsettles
  exact ⟨ev,by simp,call,hlabel,hasks,hmin,verdict_confirmed hverdict⟩

variable {service : Service} {w w₀ w' : World} {i : Nat} {e : ProofEvent}

theorem settle_of_ne (htx : e.txHash≠some txHash) (force : Bool) :
    e.settle txHash status force=e := by
  simp [ProofEvent.settle,ProofEvent.awaits,htx]

def ProofEvent.withStatus (e : ProofEvent) (s : TxStatus) : ProofEvent :=
  { e with txStatus := some s }

theorem settle_withStatus (htx : e.txHash=some txHash) (s : TxStatus) :
    (e.withStatus s).settle txHash status false =
      e.withStatus (if s=.pending then status.1 else s) := by
  by_cases hs : s=.pending
  · simp [ProofEvent.settle,ProofEvent.awaits,ProofEvent.withStatus,htx,hs]
  · simp [ProofEvent.settle,ProofEvent.awaits,ProofEvent.withStatus,hs]

/-- What a call that is not forced does to a row with a transaction hash. -/
theorem reconcile_row (hforce : call.force=false) (he : (i,e)∈w.events)
    (htx : e.txHash=some txHash) :
    (i,(settles txHash ⟨w,.reconcile call,w'⟩).elim e (e.settle txHash · false)) ∈
      (next service w (.reconcile call)).events := by
  simp only [next]
  split
  · next message herror =>
    have hmin : ¬ 1≤call.minConfirmations := by
      intro hmin
      unfold reconcileRegistration at herror
      rw [if_neg (by omega)] at herror
      split at herror
      · cases herror
      · split at herror <;> cases herror
    simpa [settles,hmin] using he
  next t result hresult =>
  rcases reconcileRegistration_ok hresult with ⟨rfl,hopen⟩ | ⟨asked,verdict,hasks,hmin,hverdict,rfl⟩
  · have hnone : settles txHash ⟨w,.reconcile call,w'⟩=none := by
      unfold settles
      dsimp only
      split
      · next hasks => exact hopen txHash hasks.1
      · rfl
    simpa [hnone] using he
  have hstrip : (strip asked).isEmpty=false := by
    simpa using (asks_normal hasks).2
  simp only [updateTxStatus,hstrip,hforce,Bool.false_eq_true,if_false]
  refine Rows.mem_update.2 ⟨e,he,?_⟩
  by_cases hsame : asked=txHash
  · subst hsame
    simp [settles,hasks,hmin,hverdict]
  · have hne : e.txHash≠some asked := by
      rw [htx]
      exact fun h => hsame (Option.some.inj h).symm
    simp [settles,hasks,hsame,settle_of_ne hne]

def settledStatus (txHash : Text) (tr : Trace) : TxStatus :=
  ((firstSettled txHash tr).map (·.1)).getD .pending

theorem settledStatus_confirmed :
    settledStatus txHash tr=.confirmed ↔
      firstSettled txHash tr=some ⟨.confirmed,by decide⟩ := by
  unfold settledStatus
  cases firstSettled txHash tr with
  | none => simp
  | some status => simp [Subtype.ext_iff]

/-- After any calls that are not forced, a row that was pending has the first terminal verdict. -/
theorem run_row (hr : Run (step service) w₀ tr w)
    (hcalls : ∀ ev∈tr, ∃ call, ev.label=.reconcile call ∧ call.force=false)
    (he : (i,e)∈w₀.events) (htx : e.txHash=some txHash)
    (hpending : e.txStatus=some .pending) :
    (i,e.withStatus (settledStatus txHash tr))∈w.events := by
  induction hr with
  | nil =>
    have hsame : e.withStatus .pending=e := by rw [ProofEvent.withStatus,← hpending]
    simpa [settledStatus,firstSettled,hsame] using he
  | @snoc tr w w' label _ hst ih =>
    obtain ⟨call,hlabel,hforce⟩ := hcalls _ mem_cons_self
    obtain rfl : label=.reconcile call := hlabel
    have hbefore := ih fun ev hev => hcalls ev (mem_cons_of_mem _ hev)
    have hrow := @reconcile_row txHash call service w w' i _ hforce hbefore htx
    rw [hst] at hrow
    convert hrow using 2
    unfold settledStatus
    rw [firstSettled]
    cases hnow : settles txHash ⟨w,.reconcile call,w'⟩ with
    | none => simp
    | some status =>
      rw [elim_some,settle_withStatus htx]
      cases hearlier : firstSettled txHash tr with
      | none => simp
      | some earlier =>
        obtain ⟨_,_,_,_,hsettles,_⟩ := firstSettled_split hearlier
        simp [settles_ne_pending hsettles]

end

/-- A row that waits for a transaction is confirmed only after an endpoint reported success at the
required depth. When all endpoints that can be reached report it, the row is confirmed exactly if
no call before had found the transaction nowhere before any had confirmed it. -/
theorem late_confirmation_iff {service : Service} {w₀ w : World} {tr : Trace}
    (hr : Run (step service) w₀ tr w)
    (hcalls : ∀ ev ∈ tr, ∃ call, ev.label = .reconcile call ∧ call.force = false) {i : Nat}
    {e : ProofEvent} {txHash : Text} (he : (i,e) ∈ w₀.events) (htx : e.txHash = some txHash)
    (hpending : e.txStatus = some .pending) :
    (∀ e', (i,e') ∈ w.events → e'.txStatus = some .confirmed → ReportedOnLedger tr txHash) ∧
    ∀ ev tr' call, tr = ev::tr' → ev.label = .reconcile call → call.asks = some txHash →
      1 ≤ call.minConfirmations →
      (∃ endpoint ∈ call.endpoints, endpoint.Reachable call.minConfirmations) →
      (∀ endpoint ∈ call.endpoints, endpoint.Reachable call.minConfirmations →
        endpoint.ReportsSuccess call.minConfirmations) →
      (∀ ev' ∈ tr, ∀ call', ev'.label = .reconcile call' → call'.asks = some txHash →
        (call'.verdict txHash).status ≠ .failed) →
      ((∃ e', (i,e') ∈ w.events ∧ e'.txStatus = some .confirmed) ↔
        ∀ tr₁ ev' tr₂, tr' = tr₂++ev'::tr₁ → Misses txHash ev' →
          ∃ ev'' ∈ tr₁, Confirms txHash ev'') := by
  have hrow := run_row hr hcalls he htx hpending
  have hstatus : ∀ e', (i,e')∈w.events →
      (e'.txStatus=some .confirmed ↔ settledStatus txHash tr=.confirmed) := by
    intro e' he'
    rw [Rows.row_unique he' hrow]
    exact some_inj
  refine ⟨fun e' he' hconfirmed => ?_,?_⟩
  · exact reported_of_firstSettled (settledStatus_confirmed.1 ((hstatus e' he').1 hconfirmed))
  rintro ev tr' call rfl hlabel hasks hmin hreachable hall hfailed
  have hsettles : settles txHash ev=some ⟨.confirmed,by decide⟩ := by
    refine settles_confirmed.2 ⟨call,hlabel,hasks,hmin,?_⟩
    rw [verdict_eq hasks hmin]
    exact askEndpoints_confirmed hall hreachable
  have hnever : ∀ ev'∈tr', ∀ status, settles txHash ev'=some status → status.1≠.failed := by
    intro ev' hev' status h hstatus
    obtain ⟨call',hlabel',hasks',-,hverdict⟩ := settles_eq_some.1 h
    have hne := hfailed ev' (mem_cons_of_mem _ hev') call' hlabel' hasks'
    rcases terminal?_eq_some.1 hverdict with ⟨-,hs⟩ | ⟨hf,-⟩ | ⟨-,hs⟩
    · rw [hs] at hstatus
      cases hstatus
    · exact hne hf
    · rw [hs] at hstatus
      cases hstatus
  rw [← firstSettled_confirmed_iff hsettles hnever,← settledStatus_confirmed]
  constructor
  · rintro ⟨e',he',hconfirmed⟩
    exact (hstatus e' he').1 hconfirmed
  · exact fun h => ⟨_,hrow,(hstatus _ hrow).2 h⟩

def registrationSteps : List Label := [.arrive shoutedRequest 0,.store 0]

def registeredWorld : World := registrationSteps.foldl (next openService) World.empty

def pendingRow : ProofEvent := confirmedRow.withStatus .pending

def unknownEndpoint : Endpoint where
  rpcUrl := "horizon".toList
  transaction := .reply 404 none

def callWith (endpoint : Endpoint) : ReconcileCall where
  txHash := repeated 'd'
  endpoints := [endpoint]

def promptWorld : World := next openService registeredWorld (.reconcile (callWith settledEndpoint))

def promptEvent : Event World Label :=
  ⟨registeredWorld,.reconcile (callWith settledEndpoint),promptWorld⟩

def lateWorld₁ : World := next openService registeredWorld (.reconcile (callWith unknownEndpoint))
def lateWorld₂ : World := next openService lateWorld₁ (.reconcile (callWith settledEndpoint))

theorem registeredWorld_rows :
    (0,pendingRow)∈registeredWorld.events ∧
      (0,pendingRow.withStatus .missing)∈lateWorld₂.events := by
  decide +kernel

theorem settledEndpoint_reports : settledEndpoint.ReportsSuccess 1 :=
  ⟨_,5,9,rfl,rfl,rfl,rfl,by decide,by decide⟩

theorem callWith_settledEndpoint :
    (∃ endpoint∈(callWith settledEndpoint).endpoints, endpoint.Reachable 1) ∧
      ∀ endpoint∈(callWith settledEndpoint).endpoints, endpoint.Reachable 1 →
        endpoint.ReportsSuccess 1 := by
  refine ⟨⟨settledEndpoint,mem_cons_self,reachable_of_success settledEndpoint_reports⟩,?_⟩
  intro endpoint hendpoint _
  obtain rfl := mem_singleton.1 hendpoint
  exact settledEndpoint_reports

theorem callWith_settledEndpoint_asks :
    (callWith settledEndpoint).asks=some (List.replicate 64 'd') ∧
      ((callWith settledEndpoint).verdict (List.replicate 64 'd')).status≠.failed := by
  decide +kernel

theorem promptEvent_calls : ∀ ev∈[promptEvent],∃ call,
    ev.label=.reconcile call ∧ call.force=false := by
  intro ev hev
  obtain rfl := mem_singleton.1 hev
  exact ⟨_,rfl,rfl⟩

theorem promptEvent_not_failed : ∀ ev∈[promptEvent],∀ call, ev.label=.reconcile call →
    call.asks=some (List.replicate 64 'd') →
    (call.verdict (List.replicate 64 'd')).status≠.failed := by
  intro ev hev call hlabel _
  obtain rfl := mem_singleton.1 hev
  obtain rfl : callWith settledEndpoint=call := Label.reconcile.inj hlabel
  exact callWith_settledEndpoint_asks.2

theorem late_confirmation_prompt :
    ∃ e, (0,e) ∈ promptWorld.events ∧ e.txStatus = some .confirmed :=
  ((late_confirmation_iff (Run.nil.snoc rfl) promptEvent_calls registeredWorld_rows.1 rfl rfl).2
    promptEvent [] (callWith settledEndpoint) rfl rfl callWith_settledEndpoint_asks.1 (by decide)
    callWith_settledEndpoint.1 callWith_settledEndpoint.2 promptEvent_not_failed).2 (by simp)

/-- Horizon does not know the transaction at first. When all of it reports success later, the row
stays missing. -/
theorem late_confirmation_lost :
    ∃ w₀ w e ev₁ ev₂, Run (step openService) w₀ [ev₂,ev₁] w ∧
      (0,e) ∈ w₀.events ∧ e.txHash = some (List.replicate 64 'd') ∧
      e.txStatus = some .pending ∧
      ev₁.label = .reconcile (callWith unknownEndpoint) ∧
      ev₂.label = .reconcile (callWith settledEndpoint) ∧
      (∀ endpoint ∈ (callWith settledEndpoint).endpoints, endpoint.ReportsSuccess 1) ∧
      (∀ call ∈ [callWith unknownEndpoint,callWith settledEndpoint], ∀ endpoint ∈ call.endpoints,
        ¬ endpoint.ReportsFailure) ∧
      (0,e.withStatus .missing) ∈ w.events := by
  refine ⟨registeredWorld,lateWorld₂,pendingRow,
    ⟨registeredWorld,.reconcile (callWith unknownEndpoint),lateWorld₁⟩,
    ⟨lateWorld₁,.reconcile (callWith settledEndpoint),lateWorld₂⟩,(Run.nil.snoc rfl).snoc rfl,
    registeredWorld_rows.1,rfl,rfl,rfl,rfl,?_,?_,registeredWorld_rows.2⟩
  · intro endpoint hendpoint
    obtain rfl := mem_singleton.1 hendpoint
    exact settledEndpoint_reports
  · intro call hcall endpoint hendpoint hfailure
    rcases mem_cons.1 hcall with rfl | hcall
    · obtain rfl := mem_singleton.1 hendpoint
      obtain ⟨data,htx,-⟩ := hfailure
      cases htx
    · obtain rfl := mem_singleton.1 hcall
      obtain rfl := mem_singleton.1 hendpoint
      obtain ⟨data,htx,hfailed⟩ := hfailure
      cases htx
      cases hfailed

end Harpocrates.Backend
