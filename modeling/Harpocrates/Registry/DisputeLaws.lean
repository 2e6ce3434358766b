import Harpocrates.Registry.DocketRefinement

namespace Harpocrates.Registry

open Framework Option Function

def openDisputes (s : Storage) (C : DisputeRecord → Prop) : Set Bytes32 :=
  {d | ∃ r, s (.Dispute d) = some (.record r) ∧ C r ∧
    (r.status = .Open ∨ r.status = .Responded)}

theorem openDisputes_eq (s : Storage) (C : DisputeRecord → Prop) :
    openDisputes s C =
      rowsWith (fun r => C r ∧ isOpenStatus r.status=true) (docket s).records := by
  ext d
  simp only [openDisputes,rowsWith,Set.mem_ofPred_eq,docket_record,isOpenStatus_iff]

def Closes (host : Host) (e : Event World Label) (d : Bytes32) : Prop :=
  ∃ admin, Succeeds host e (.resolveDispute admin d) ∨ Succeeds host e (.dismissDispute admin d) ∨
    ∃ y, Succeeds host e (.supersedeDispute admin d y)

variable {host : Host} {d h : Bytes32} {e : Event World Label}

theorem Closes.docket_eq (h : Closes host e d) :
    ∃ r r', e.pre.store (.Dispute d)=some (.record r) ∧ isOpenStatus r.status=true ∧
      docket e.post.store=(docket e.pre.store).close d r' ∧ r'.proofId=r.proofId ∧
      r'.reporter=r.reporter := by
  obtain ⟨admin,⟨inv,-,h⟩ | ⟨inv,-,h⟩ | ⟨y,inv,-,h⟩⟩ := h
  · obtain ⟨_,h⟩ := (discard_ok ..).1 h
    obtain ⟨r,hr,status,-,h⟩ := resolveDispute_ok h
    exact ⟨r,_,hr,by simp [status,isOpenStatus],closeDispute_docket h,rfl,rfl⟩
  · obtain ⟨_,h⟩ := (discard_ok ..).1 h
    obtain ⟨r,hr,status,h⟩ := dismissDispute_ok h
    exact ⟨r,_,hr,status,closeDispute_docket h,rfl,rfl⟩
  · obtain ⟨_,h⟩ := (discard_ok ..).1 h
    obtain ⟨r,hr,status,-,-,hpost⟩ := supersedeDispute_docket h
    exact ⟨r,_,hr,status,hpost,rfl,rfl⟩

/-- Both counters are exact and within their bounds, and a dispute that is closed takes one off
each of them. -/
theorem dispute_counters_exact {host : Host} {start : Ledger} {tr : Trace} {w : World}
    (h : Reaches host start tr w) :
    (∀ p, (openDisputes w.store (·.proofId = p)).encard = getOpenDisputeCount w.store p ∧
      getOpenDisputeCount w.store p ≤ MAX_OPEN_DISPUTES_PER_PROOF) ∧
    (∀ a, (openDisputes w.store (·.reporter = a)).encard = getReporterOpenDisputeCount w.store a ∧
      getReporterOpenDisputeCount w.store a ≤ MAX_OPEN_DISPUTES_PER_REPORTER) ∧
    ∀ e ∈ tr, ∀ d, Closes host e d →
      ∃ r, e.pre.store (.Dispute d) = some (.record r) ∧
        getOpenDisputeCount e.post.store r.proofId+1 =
          getOpenDisputeCount e.pre.store r.proofId ∧
        getReporterOpenDisputeCount e.post.store r.reporter+1 =
          getReporterOpenDisputeCount e.pre.store r.reporter := by
  have hw := reaches_docket h
  refine ⟨fun p => ⟨?_,hw.boundProof p⟩,fun a => ⟨?_,hw.boundReporter a⟩,fun e he d hclose => ?_⟩
  · rw [openDisputes_eq]
    exact hw.perProof p
  · rw [openDisputes_eq]
    exact hw.perReporter a
  · obtain ⟨_,_,-,hpre,-,-⟩ := Run.event_split h he
    have hsound := reaches_docket hpre
    obtain ⟨r,r',hr,status,hpost,hproof,hreporter⟩ := hclose.docket_eq
    have posProof := hsound.perProof.pos (docket_record.2 hr) status
    have posReporter := hsound.perReporter.pos (docket_record.2 hr) status
    have perProof : getOpenDisputeCount e.post.store=Function.update
        (getOpenDisputeCount e.pre.store) r.proofId (getOpenDisputeCount e.pre.store r.proofId-1) :=
      hproof ▸ congrArg Docket.perProof hpost
    have perReporter : getReporterOpenDisputeCount e.post.store=Function.update
        (getReporterOpenDisputeCount e.pre.store) r.reporter
        (getReporterOpenDisputeCount e.pre.store r.reporter-1) :=
      hreporter ▸ congrArg Docket.perReporter hpost
    refine ⟨r,hr,?_,?_⟩
    · rw [perProof,update_self]
      exact Nat.sub_add_cancel posProof
    · rw [perReporter,update_self]
      exact Nat.sub_add_cancel posReporter

def dismissedOne : List Label := disputesOpen++[.call ⟨1⟩ (.dismissDispute ⟨1⟩ (fill 21))]

theorem dispute_counters_exact_dismissed :
    (openDisputes (deploy dismissedOne).2.store (·.reporter = ⟨4⟩)).encard = 2 ∧
    (openDisputes (deploy dismissedOne).2.store (·.proofId = fill 1)).encard = 0 := by
  have exact := dispute_counters_exact (deploy_reaches dismissedOne)
  have two : getReporterOpenDisputeCount (deploy dismissedOne).2.store ⟨4⟩=2 := by decide +kernel
  have zero : getOpenDisputeCount (deploy dismissedOne).2.store (fill 1)=0 := by decide +kernel
  refine ⟨(exact.2.1 ⟨4⟩).1.trans ?_,(exact.1 (fill 1)).1.trans ?_⟩
  · rw [two]
    rfl
  · rw [zero]
    rfl

def disputeStatus (s : Storage) (d : Bytes32) : Option DisputeStatus :=
  ((docket s).records d).map (·.status)

def Answers (e : Event World Label) (d : Bytes32) : Prop :=
  disputeStatus e.pre.store d ≠ some .Responded ∧ disputeStatus e.post.store d = some .Responded

def Call.isDispute : Call → Bool
  | .openDispute .. | .respondDispute .. | .resolveDispute .. | .dismissDispute ..
  | .supersedeDispute .. => true
  | _ => false

theorem Call.isDispute_footprint {c : Call} (h : c.isDispute=true) :
    Family.Proof∉c.footprint := by
  cases c <;> first | exact notMem_of_elem rfl | cases h

theorem next_answers (hst : next host e.pre e.label=e.post) :
    Answers e d ↔ ∃ r r', (docket e.pre.store).records d=some r ∧
      (docket e.post.store).records d=some r' ∧
      DisputeMove e.pre.ledger.timestamp e.pre.store.holds r r' ∧ r'.status=.Responded := by
  constructor
  · intro hyp
    obtain ⟨hpre,hpost⟩ := hyp
    obtain ⟨r',hr',status⟩ := map_eq_some_iff.1 hpost
    cases hr : (docket e.pre.store).records d with
    | none =>
      rw [((next_docket hst).new hr hr').1] at status
      cases status
    | some r =>
      obtain ⟨r₁,hr₁,hmove⟩ := (next_docket hst).record hr
      cases hr'.symm.trans hr₁
      rcases hmove with rfl | hmove
      · exact absurd (by simp [disputeStatus,hr,status]) hpre
      · exact ⟨r,r',rfl,hr',hmove,status⟩
  · intro hyp
    obtain ⟨r,r',hr,hr',hmove,status⟩ := hyp
    have hopen := (hmove.responded status).1
    exact ⟨by simp [disputeStatus,hr,hopen],by simp [disputeStatus,hr',status]⟩

/-- A dispute carries a response when it has been answered. -/
theorem reaches_answered {start : Ledger} {tr : Trace} {w : World} (h : Reaches host start tr w)
    (d : Bytes32) :
    (∃ r, (docket w.store).records d=some r ∧ r.responseCommitment.isSome=true) ↔
      ∃ e∈tr, Answers e d := by
  refine Run.history_iff (P := fun w : World => ∃ r, (docket w.store).records d=some r ∧
    r.responseCommitment.isSome=true) ?_ ?_ h
  · intro hyp
    obtain ⟨r,hr,-⟩ := hyp
    cases hr
  · intro w l w' hst
    rw [(next_docket hst).answered,← next_answers (e := ⟨w,l,w'⟩) hst]

/-- The state machine of the disputes. -/
theorem dispute_state_machine {host : Host} {start : Ledger} {tr : Trace} {w : World}
    (h : Reaches host start tr w) :
    (∀ e ∈ tr, ∀ d r, e.pre.store (.Dispute d) = some (.record r) →
      (∃ r', e.post.store (.Dispute d) = some (.record r') ∧
        (r'.status = r.status ∨ (r.status,r'.status) ∈ disputeTransitions)) ∧
      ∃ r', w.store (.Dispute d) = some (.record r') ∧ r'.submission = r.submission ∧
        (r.status ∈ [.Resolved,.Dismissed,.Superseded] → r' = r)) ∧
    (∀ e ∈ tr, ∀ d, disputeStatus e.pre.store d = none →
      ∀ status, disputeStatus e.post.store d = some status → status = .Open) ∧
    (∀ d r, w.store (.Dispute d) = some (.record r) →
      (r.responseCommitment.isSome = true ↔ ∃ e ∈ tr, Answers e d) ∧
      (∀ e ∈ tr, Answers e d → e.pre.ledger.timestamp ≤ r.respondDeadline) ∧
      (r.status = .Resolved → r.resolvedAt ≤ r.resolveDeadline) ∧
      (r.supersededBy.isSome = true ↔ r.status = .Superseded) ∧
      ∀ y, r.supersededBy = some y → (w.store (.Proof y)).isSome = true ∧ y ≠ r.proofId) ∧
    ∀ e ∈ tr, ∀ c, c.isDispute = true → Succeeds host e c →
      ∀ p, e.post.store (.Proof p) = e.pre.store (.Proof p) := by
  refine ⟨?_,?_,?_,?_⟩
  · intro e he d r hr
    obtain ⟨_,_,-,-,hst,hlater⟩ := Run.event_split h he
    constructor
    · obtain ⟨r',hr',rfl | hmove⟩ := (next_docket hst).record (docket_record.2 hr)
      · exact ⟨r',docket_record.1 hr',.inl rfl⟩
      · exact ⟨r',docket_record.1 hr',.inr hmove.transition⟩
    · have hrun : Proceeds host e.pre _ w := (Run.nil.snoc hst).trans hlater
      obtain ⟨r',hr',hsub,hclosed⟩ := proceeds_dispute hrun hr
      refine ⟨r',hr',hsub,fun hs => hclosed ?_⟩
      cases hstatus : r.status <;> simp_all [isOpenStatus]
  · intro e he d hpre status hpost
    obtain ⟨r,hr,rfl⟩ := map_eq_some_iff.1 hpost
    exact ((next_docket (h.next_eq he)).new (map_eq_none_iff.1 hpre) hr).1
  · intro d r hr
    have hsound := (reaches_docket h).records d r (docket_record.2 hr)
    refine ⟨?_,?_,hsound.inTime,hsound.superseded,hsound.corrected⟩
    · rw [← reaches_answered h d,docket_record.2 hr]
      simp
    · intro e he hanswer
      obtain ⟨_,_,-,-,hst,hlater⟩ := Run.event_split h he
      obtain ⟨_,r',-,hr',hmove,status⟩ := (next_answers hst).1 hanswer
      obtain ⟨r₁,hr₁,hsub,-⟩ := proceeds_dispute hlater (docket_record.1 hr')
      obtain rfl := DisputeValue.record.inj (Option.some.inj (hr.symm.trans hr₁))
      have hdeadline : r.respondDeadline=r'.respondDeadline :=
        congrArg (fun x => x.2.2.2.2.2.2.2) hsub
      rw [hdeadline]
      exact (hmove.responded status).2
  · intro e he c hc hs p
    obtain ⟨inv,-,hx⟩ := hs
    exact exec_footprint hx (Call.isDispute_footprint hc)

def settled : List Label := disputesOpen++
  [.call ⟨2⟩ (.respondDispute ⟨2⟩ (fill 21) (fill 9)),.call ⟨1⟩ (.resolveDispute ⟨1⟩ (fill 21)),
    supersede 22 3]

theorem dispute_state_machine_settled :
    (∃ e ∈ (deploy settled).1, Answers e (fill 21)) ∧
    ∃ r, (deploy settled).2.store (.Dispute (fill 22)) = some (.record r) ∧
      r.supersededBy.isSome = true ∧ r.responseCommitment.isSome = false ∧
      ¬ ∃ e ∈ (deploy settled).1, Answers e (fill 22) := by
  obtain ⟨-,-,hrecord,-⟩ := dispute_state_machine (deploy_reaches settled)
  have stored : ((docket (deploy settled).2.store).records (fill 21)).any
        (·.responseCommitment.isSome)=true ∧
      ((docket (deploy settled).2.store).records (fill 22)).any
        (fun r => r.status == .Superseded && r.responseCommitment.isNone)=true := by
    decide +kernel
  obtain ⟨r,hr,hresponse⟩ := (any_eq_true ..).1 stored.1
  obtain ⟨r',hr',hstatus⟩ := (any_eq_true ..).1 stored.2
  rw [Bool.and_eq_true,beq_iff_eq,isNone_iff_eq_none] at hstatus
  obtain ⟨hanswer,-⟩ := hrecord _ r (docket_record.1 hr)
  obtain ⟨hanswer',-,-,hsuperseded,-⟩ := hrecord _ r' (docket_record.1 hr')
  refine ⟨hanswer.1 hresponse,r',docket_record.1 hr',hsuperseded.2 hstatus.1,by simp [hstatus.2],?_⟩
  rw [← hanswer',hstatus.2]
  simp

def ReportsAs (host : Host) (e : Event World Label) (h : Bytes32) : Prop :=
  ∃ reporter d p reason c, Succeeds host e (.openDispute reporter h d p reason c)

/-- No entry of the cooldown runs out within the time it is for. -/
def outlives (e : Event World Label) : Bool :=
  match e.label with
  | .evict h => (e.pre.store (.ReporterCooldown h)).all fun last =>
    decide (last+REPORTER_COOLDOWN_SECS ≤ e.pre.ledger.timestamp)
  | _ => true

theorem outlives_evict {last : Nat} (hlive : outlives e=true) (hl : e.label=.evict h)
    (hlast : e.pre.store (.ReporterCooldown h)=some last) :
    last+REPORTER_COOLDOWN_SECS≤e.pre.ledger.timestamp := by
  rw [outlives,hl] at hlive
  have hall := (all_eq_true ..).1 hlive last hlast
  exact of_decide_eq_true hall

theorem openDispute_cooldown {env : Env} {reporter : Address} {p c : Bytes32}
    {reason : DisputeReason} {s s' : Storage} {x : DisputeRecord}
    (hx : openDispute env reporter h d p reason c s=.ok (x,s')) (h' : Bytes32) :
    s' (.ReporterCooldown h') =
      if h'=h then some env.timestamp else s (.ReporterCooldown h') := by
  obtain ⟨-,-,-,-,-,happ⟩ := openDispute_ok hx
  rw [appendProofDispute_writes p d _ _ _ happ _ (by simp)]
  by_cases hh : h'=h
  · subst hh
    simp [openedStorage]
  · have hk : DataKey.ReporterCooldown h'≠.ReporterCooldown h := by simpa using hh
    simp [openedStorage,hh,hk]

/-- A call leaves an entry alone or stamps it with the time. -/
theorem exec_cooldown {env : Env} {c : Call} {s s' : Storage} {u : Unit}
    (hx : exec env c s=.ok (u,s')) (h : Bytes32) :
    s' (.ReporterCooldown h)=s (.ReporterCooldown h) ∨
      s' (.ReporterCooldown h)=some env.timestamp := by
  cases c with
  | openDispute reporter h₁ d p reason c =>
    obtain ⟨_,hx⟩ := (discard_ok ..).1 hx
    have hentry := openDispute_cooldown hx h
    split_ifs at hentry
    · exact .inr hentry
    · exact .inl hentry
  | _ => exact .inl (exec_footprint hx (notMem_of_elem rfl))

/-- The time since a report at `t` is over, or the entry remembers it or a later one. -/
def Remembered (t : Nat) (h : Bytes32) (w : World) : Prop :=
  t+REPORTER_COOLDOWN_SECS ≤ w.ledger.timestamp ∨
    t ≤ w.ledger.timestamp ∧ ∃ last : Nat, w.store (.ReporterCooldown h) = some last ∧ t ≤ last

theorem next_remembered {t : Nat} (hst : next host e.pre e.label=e.post)
    (hlive : outlives e=true) (hw : Remembered t h e.pre) : Remembered t h e.post := by
  have hclock := next_ledger hst
  rcases hw with hover | ⟨hpast,last,hlast,hle⟩
  · exact .inl (hover.trans hclock)
  · have kept : e.post.store (.ReporterCooldown h)=e.pre.store (.ReporterCooldown h) →
        Remembered t h e.post :=
      fun heq => .inr ⟨hpast.trans hclock,last,heq.trans hlast,hle⟩
    obtain ⟨inv,c,-,-,hx⟩ | ⟨m,-,-,hpost⟩ | ⟨a,hl,hpost⟩ | hpost := next_cases hst
    · rcases exec_cooldown hx h with hsame | hstamped
      · exact kept hsame
      · exact .inr ⟨hpast.trans hclock,_,hstamped,hpast⟩
    · exact kept (by rw [hpost])
    · by_cases ha : a=h
      · subst ha
        have hover := outlives_evict hlive hl hlast
        exact .inl ((Nat.add_le_add_right hle _).trans (hover.trans hclock))
      · refine kept ?_
        rw [hpost]
        exact Store.erase_of_ne _ (by simpa using Ne.symm ha)
    · exact kept (by rw [hpost])

/-- Two disputes opened under one hash are a day apart, unless the first one is of time zero. -/
theorem cooldown_binds_hash {host : Host} {start : Ledger} {tr₁ tr₂ : Trace} {w : World}
    {e e' : Event World Label} {h : Bytes32} (hr : Reaches host start (tr₂++e'::tr₁) w)
    (hlive : ∀ e ∈ tr₁, outlives e = true) (he : e ∈ tr₁) (hfirst : ReportsAs host e h)
    (hsecond : ReportsAs host e' h) (hpos : 0 < e.pre.ledger.timestamp) :
    e.pre.ledger.timestamp+REPORTER_COOLDOWN_SECS ≤ e'.pre.ledger.timestamp := by
  obtain ⟨hpre,-,-⟩ := hr.split
  obtain ⟨older,newer,rfl,-,hst,hbetween⟩ := Run.event_split hpre he
  have first : Remembered e.pre.ledger.timestamp h e.post := by
    obtain ⟨reporter,d,p,reason,c,inv,-,hx⟩ := hfirst
    obtain ⟨_,hx⟩ := (discard_ok ..).1 hx
    have hentry := openDispute_cooldown hx h
    rw [if_pos rfl] at hentry
    exact .inr ⟨next_ledger hst,_,hentry,le_refl _⟩
  have remembered : Remembered e.pre.ledger.timestamp h e'.pre := by
    refine Run.invariant (C := fun e => outlives e=true)
      (I := fun _ w => Remembered e.pre.ledger.timestamp h w) first ?_ hbetween
      (fun e he => hlive e (by simp [he]))
    intro tr w l w' _ hw hst hlive
    exact next_remembered (e := ⟨w,l,w'⟩) hst hlive hw
  rcases remembered with hover | ⟨-,last,hlast,hle⟩
  · exact hover
  · obtain ⟨reporter,d,p,reason,c,inv,-,hx⟩ := hsecond
    obtain ⟨_,hx⟩ := (discard_ok ..).1 hx
    obtain ⟨-,-,-,-,cool,-⟩ := openDispute_ok hx
    exact (Nat.add_le_add_right hle _).trans (cool last hlast (hpos.trans_le hle))

def report (h d : UInt8) : Call := .openDispute ⟨4⟩ (fill h) (fill d) (fill 1) .Other zero32

def reportable (start : Ledger) : Trace × World :=
  play stellarHost ⟨start,Store.empty⟩ (disputesOpen.take 2)

def firstReport (start : Ledger) : Event World Label :=
  (reportable start).2.event stellarHost (.call ⟨4⟩ (report 11 21))

def dayPassed : Event World Label :=
  (firstReport genesis).post.event stellarHost (.advance (genesisPlus 86400 genesis_day_lt))

def dayLater : Event World Label :=
  dayPassed.post.event stellarHost (.call ⟨4⟩ (report 11 22))

theorem cooldown_binds_hash_day_later :
    ReportsAs stellarHost (firstReport genesis) (fill 11) ∧
    ReportsAs stellarHost dayLater (fill 11) ∧
    (firstReport genesis).pre.ledger.timestamp+REPORTER_COOLDOWN_SECS ≤
      dayLater.pre.ledger.timestamp := by
  have first : ReportsAs stellarHost (firstReport genesis) (fill 11) :=
    ⟨_,_,_,_,_,succeeds_event (by decide +kernel)⟩
  have second : ReportsAs stellarHost dayLater (fill 11) :=
    ⟨_,_,_,_,_,succeeds_event (by decide +kernel)⟩
  have run : Reaches stellarHost genesis
      ([]++dayLater::dayPassed::firstReport genesis::(reportable genesis).1) dayLater.post :=
    (((play_reaches stellarHost genesis _).event _).event _).event _
  exact ⟨first,second,cooldown_binds_hash run (by decide +kernel) (by simp) first second
    (by decide +kernel)⟩

def reportAgain (start : Ledger) (h : UInt8) : Event World Label :=
  (firstReport start).post.event stellarHost (.call ⟨4⟩ (report h 22))

def timeZero : Ledger := ⟨0,1,by decide,genesis.sequence_lt⟩

/-- Another hash evades the cooldown, and a report at time zero does not start it. -/
theorem cooldown_evaded :
    (∃ tr w e e', Reaches stellarHost genesis (e'::e::tr) w ∧
      (∀ x ∈ e'::e::tr, outlives x = true) ∧
      Succeeds stellarHost e (report 11 21) ∧ Succeeds stellarHost e' (report 12 22) ∧
      0 < e.pre.ledger.timestamp ∧ e'.pre.ledger.timestamp = e.pre.ledger.timestamp) ∧
    ∃ start tr w e e', Reaches stellarHost start (e'::e::tr) w ∧
      (∀ x ∈ e'::e::tr, outlives x = true) ∧
      Succeeds stellarHost e (report 11 21) ∧ Succeeds stellarHost e' (report 11 22) ∧
      e'.pre.ledger.timestamp = e.pre.ledger.timestamp := by
  constructor
  · exact ⟨_,_,firstReport genesis,reportAgain genesis 12,
      ((play_reaches stellarHost genesis _).event _).event _,by decide +kernel,
      succeeds_event (by decide +kernel),succeeds_event (by decide +kernel),by decide +kernel,
      by decide +kernel⟩
  · exact ⟨timeZero,_,_,firstReport timeZero,reportAgain timeZero 11,
      ((play_reaches stellarHost timeZero _).event _).event _,by decide +kernel,
      succeeds_event (by decide +kernel),succeeds_event (by decide +kernel),by decide +kernel⟩

end Harpocrates.Registry
