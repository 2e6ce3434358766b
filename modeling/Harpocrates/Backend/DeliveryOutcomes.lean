import Harpocrates.Backend.Webhooks
import Harpocrates.Framework.Run

namespace Harpocrates.Backend.Dispatch

open Framework Rows List Nat

/-! Any number of workers that lease deliveries, send them and report what came of it. An outcome
is final as long as no delivery is leased while an attempt at it is under way. -/

/-- A delivery in the hands of a worker, as it was leased. -/
structure Attempt where
  deliveryId : Nat
  retryCount : Nat
  response : Option Response := none
  deriving DecidableEq

structure World where
  deliveries : Deliveries
  attempts : Rows Attempt

def World.empty : World := ⟨Rows.empty,Rows.empty⟩

inductive Label
  | queue (subscriptionId eventId : Nat) (now : Time)
  | lease (now : Time) (limit : Nat) (leaseDuration : Time) (locked : List Nat)
  | send (n : Nat) (response : Response)
  | report (n : Nat) (now : Time)
  | die (n : Nat)
  | delete (numbers : List Nat)

inductive Step : World → Label → World → Prop
  | queue {w : World} (subscriptionId eventId : Nat) (now : Time) :
      Step w (.queue subscriptionId eventId now) { w with
        deliveries := w.deliveries.insert { subscriptionId, eventId, nextRetryAt := now } }
  | lease {w : World} {deliveries : Deliveries} {leased : List (Nat × Delivery)} (now : Time)
      (limit : Nat) (leaseDuration : Time) (locked : List Nat) :
      leaseDeliveries now limit leaseDuration locked w.deliveries = (deliveries,leased) →
      Step w (.lease now limit leaseDuration locked) {
        deliveries
        attempts := w.attempts.insertAll
          (leased.map fun e => { deliveryId := e.1, retryCount := e.2.retryCount }) }
  | send {w : World} {n : Nat} {attempt : Attempt} (response : Response) :
      (n,attempt) ∈ w.attempts → attempt.response = none →
      Step w (.send n response) { w with
        attempts := w.attempts.modify n fun _ => { attempt with response := some response } }
  | report {w : World} {n : Nat} {attempt : Attempt} {response : Response} (now : Time) :
      (n,attempt) ∈ w.attempts → attempt.response = some response →
      Step w (.report n now) {
        deliveries := updateDeliveryStatus now w.deliveries attempt.deliveryId response.success
          response.code attempt.retryCount
        attempts := w.attempts.delete [n] }
  | die {w : World} (n : Nat) :
      Step w (.die n) { w with attempts := w.attempts.delete [n] }
  -- Deliveries go with their subscription or their event.
  | delete {w : World} (numbers : List Nat) :
      Step w (.delete numbers) { w with deliveries := w.deliveries.delete numbers }

variable {w w' : World} {label : Label} {tr : List (Event World Label)}

def Answered (tr : List (Event World Label)) (deliveryId : Nat) : Prop :=
  ∃ e ∈ tr, ∃ n attempt response, e.label = .send n response ∧ (n,attempt) ∈ e.pre.attempts ∧
    attempt.deliveryId = deliveryId ∧ response.success = true

structure OutcomesFinal (tr : List (Event World Label)) (w : World) : Prop where
  final : ∀ e ∈ tr, ∀ i d d', (i,d) ∈ e.pre.deliveries → (i,d') ∈ e.post.deliveries →
    d.status = .success ∨ d.status = .deadLetter → d'.status = d.status
  monotone : ∀ e ∈ tr, ∀ i d d', (i,d) ∈ e.pre.deliveries → (i,d') ∈ e.post.deliveries →
    d.retryCount ≤ d'.retryCount
  answered : ∀ i d, (i,d) ∈ w.deliveries → d.status = .success → Answered tr i

/-- No delivery is leased while an earlier attempt at it has still to report. -/
def LeasesAlone (e : Event World Label) : Prop :=
  ∀ now limit leaseDuration locked i d n attempt,
    e.label = .lease now limit leaseDuration locked →
    (i,d) ∈ readyDeliveries now limit locked e.pre.deliveries →
    (n,attempt) ∈ e.pre.attempts → attempt.deliveryId ≠ i

/-- A row keeps its status and its count, or an attempt reports on it. -/
theorem step_row (h : Step w label w') {i : Nat} {d d' : Delivery} (hd : (i,d)∈w.deliveries)
    (hd' : (i,d')∈w'.deliveries) :
    d'.status=d.status ∧ d'.retryCount=d.retryCount ∨
      ∃ n attempt response now, label=.report n now ∧ (n,attempt)∈w.attempts ∧
        attempt.deliveryId=i ∧ attempt.response=some response ∧
        d'=d.reported now response.success response.code attempt.retryCount := by
  cases h with
  | queue =>
    rcases mem_insert.1 hd' with hold | ⟨rfl,-⟩
    · rw [row_unique hold hd]
      exact .inl ⟨rfl,rfl⟩
    · exact absurd (lt_next hd) (lt_irrefl _)
  | lease now limit leaseDuration locked hlease =>
    obtain ⟨rfl,-⟩ := Prod.mk.inj hlease
    obtain ⟨old,hold,rfl⟩ := mem_modifyAll.1 hd'
    rw [row_unique hold hd]
    left
    split
    · exact ⟨rfl,rfl⟩
    · exact ⟨rfl,rfl⟩
  | send | die =>
    rw [row_unique hd' hd]
    exact .inl ⟨rfl,rfl⟩
  | @report n attempt response now hmem hresponse =>
    obtain ⟨old,hold,rfl⟩ := mem_modify.1 hd'
    rw [row_unique hold hd]
    by_cases hi : i=attempt.deliveryId
    · rw [if_pos hi]
      exact .inr ⟨n,attempt,response,now,rfl,hmem,hi.symm,hresponse,rfl⟩
    · rw [if_neg hi]
      exact .inl ⟨rfl,rfl⟩
  | delete =>
    rw [row_unique (mem_delete.1 hd').1 hd]
    exact .inl ⟨rfl,rfl⟩

theorem Delivery.reported_success {now : Time} {success : Bool} {statusCode : Option Int}
    {retryCount : Nat} {d : Delivery}
    (h : (d.reported now success statusCode retryCount).status=.success) : success=true := by
  cases success with
  | true => rfl
  | false =>
    simp only [Delivery.reported,Bool.false_eq_true,if_false] at h
    split at h
    · cases h
    · cases h

theorem Delivery.reported_retryCount (now : Time) (success : Bool) (statusCode : Option Int)
    (retryCount : Nat) (d : Delivery) :
    retryCount≤(d.reported now success statusCode retryCount).retryCount := by
  unfold Delivery.reported
  dsimp only
  split_ifs
  · exact le_refl _
  · exact le_refl _
  · exact le_succ _

theorem step_new_row (h : Step w label w') {i : Nat} {d' : Delivery}
    (hd' : (i,d')∈w'.deliveries) : (∃ d, (i,d)∈w.deliveries) ∨ d'.status=.pending := by
  cases h with
  | queue =>
    rcases mem_insert.1 hd' with hold | ⟨-,rfl⟩
    · exact .inl ⟨d',hold⟩
    · exact .inr rfl
  | lease now limit leaseDuration locked hlease =>
    obtain ⟨rfl,-⟩ := Prod.mk.inj hlease
    obtain ⟨old,hold,-⟩ := mem_modifyAll.1 hd'
    exact .inl ⟨old,hold⟩
  | send | die => exact .inl ⟨d',hd'⟩
  | report =>
    obtain ⟨old,hold,-⟩ := mem_modify.1 hd'
    exact .inl ⟨old,hold⟩
  | delete => exact .inl ⟨d',(mem_delete.1 hd').1⟩

structure Inv (w : World) : Prop where
  single : ∀ {n n' attempt attempt'}, (n,attempt) ∈ w.attempts → (n',attempt') ∈ w.attempts →
    attempt.deliveryId = attempt'.deliveryId → n = n'
  known : ∀ {n attempt}, (n,attempt) ∈ w.attempts → attempt.deliveryId < w.deliveries.next
  waiting : ∀ {n attempt d}, (n,attempt) ∈ w.attempts → (attempt.deliveryId,d) ∈ w.deliveries →
    (d.status = .pending ∨ d.status = .failed) ∧ d.retryCount = attempt.retryCount

theorem inv_empty : Inv World.empty where
  single h := absurd h not_mem_empty
  known h := absurd h not_mem_empty
  waiting h := absurd h not_mem_empty

theorem Inv.lease (h : Inv w) {now leaseDuration : Time} {limit : Nat} {locked : List Nat}
    (halone : ∀ i d n attempt, (i,d)∈readyDeliveries now limit locked w.deliveries →
      (n,attempt)∈w.attempts → attempt.deliveryId≠i) :
    Inv ⟨(leaseDeliveries now limit leaseDuration locked w.deliveries).1,
      w.attempts.insertAll ((readyDeliveries now limit locked w.deliveries).map fun e =>
        { deliveryId := e.1, retryCount := e.2.retryCount })⟩ := by
  have hrow : ∀ {i d}, (i,d)∈(leaseDeliveries now limit leaseDuration locked w.deliveries).1 →
      ∃ old, (i,old)∈w.deliveries ∧ d.status=old.status ∧ d.retryCount=old.retryCount := by
    intro i d hd
    obtain ⟨old,hold,rfl⟩ := mem_modifyAll.1 hd
    refine ⟨old,hold,?_⟩
    split
    · exact ⟨rfl,rfl⟩
    · exact ⟨rfl,rfl⟩
  constructor
  case single =>
    intro n n' attempt attempt' hn hn' hsame
    refine key_unique_insertAll (fun i j r r' hi hj heq => h.single hi hj heq) ?_ ?_ hn hn'
      hsame
    · rw [map_map]
      exact readyDeliveries_nodup now limit locked w.deliveries
    · intro n attempt hn hmem
      rw [map_map] at hmem
      obtain ⟨⟨i,d⟩,hready,heq⟩ := mem_map.1 hmem
      exact halone i d n attempt hready hn heq.symm
  case known =>
    intro n attempt hn
    rcases mem_insertAll hn with hold | hnew
    · exact h.known hold
    · obtain ⟨⟨i,d⟩,hready,rfl⟩ := mem_map.1 hnew
      have hlt := lt_next (mem_readyDeliveries hready).1
      exact hlt
  case waiting =>
    intro n attempt d hn hd
    obtain ⟨old,hold,hstatus,hcount⟩ := hrow hd
    rw [hstatus,hcount]
    rcases mem_insertAll hn with hearlier | hnew
    · exact h.waiting hearlier hold
    · obtain ⟨⟨i,leased⟩,hready,rfl⟩ := mem_map.1 hnew
      obtain ⟨hmem,hsome⟩ := mem_readyDeliveries hready
      obtain rfl := row_unique hold hmem
      simp only [Delivery.ready,Bool.and_eq_true,Bool.or_eq_true,decide_eq_true_eq] at hsome
      exact ⟨hsome.1.1,rfl⟩

theorem Inv.report (h : Inv w) {n : Nat} {attempt : Attempt} (hmem : (n,attempt)∈w.attempts)
    (now : Time) (success : Bool) (statusCode : Option Int) :
    Inv ⟨updateDeliveryStatus now w.deliveries attempt.deliveryId success statusCode
      attempt.retryCount,w.attempts.delete [n]⟩ := by
  have hother : ∀ {m other}, (m,other)∈w.attempts.delete [n] →
      (m,other)∈w.attempts ∧ other.deliveryId≠attempt.deliveryId := by
    intro m other hm
    obtain ⟨hm,hne⟩ := mem_delete.1 hm
    exact ⟨hm,fun heq => hne (mem_singleton.2 (h.single hm hmem heq))⟩
  constructor
  case single => exact fun hm hm' heq => h.single (hother hm).1 (hother hm').1 heq
  case known => exact fun hm => h.known (hother hm).1
  case waiting =>
    intro m other d hm hd
    obtain ⟨hm,hne⟩ := hother hm
    obtain ⟨old,hold,rfl⟩ := mem_modify.1 hd
    rw [if_neg hne]
    exact h.waiting hm hold

theorem step_inv (h : Inv w) (hstep : Step w label w') (halone : LeasesAlone ⟨w,label,w'⟩) :
    Inv w' := by
  cases hstep with
  | queue =>
    refine ⟨fun hn hn' => h.single hn hn',fun hn => lt_succ_of_lt (h.known hn),?_⟩
    intro n attempt d hn hd
    rcases mem_insert.1 hd with hold | ⟨heq,-⟩
    · exact h.waiting hn hold
    · exact absurd (h.known hn) (by rw [heq]; exact lt_irrefl _)
  | lease now limit leaseDuration locked hlease =>
    cases hlease
    exact h.lease fun i d n attempt hready hn => halone _ _ _ _ i d n attempt rfl hready hn
  | @send n attempt response hmem hnone =>
    have hattempts : ∀ {m other}, (m,other)∈w.attempts.modify n
        (fun _ => { attempt with response := some response }) →
        ∃ before, (m,before)∈w.attempts ∧ before.deliveryId=other.deliveryId ∧
          before.retryCount=other.retryCount := by
      intro m other hm
      rcases (mem_modify_const hmem).1 hm with ⟨rfl,rfl⟩ | ⟨-,hold⟩
      · exact ⟨attempt,hmem,rfl,rfl⟩
      · exact ⟨other,hold,rfl,rfl⟩
    constructor
    case single =>
      intro m m' other other' hm hm' heq
      obtain ⟨before,hb,hid,-⟩ := hattempts hm
      obtain ⟨before',hb',hid',-⟩ := hattempts hm'
      exact h.single hb hb' (by rw [hid,hid',heq])
    case known =>
      intro m other hm
      obtain ⟨before,hb,hid,-⟩ := hattempts hm
      exact hid ▸ h.known hb
    case waiting =>
      intro m other d hm hd
      obtain ⟨before,hb,hid,hcount⟩ := hattempts hm
      rw [← hid] at hd
      rw [← hcount]
      exact h.waiting hb hd
  | report now hmem _ => exact h.report hmem now _ _
  | die n =>
    exact ⟨fun hm hm' => h.single (mem_delete.1 hm).1 (mem_delete.1 hm').1,
      fun hm => h.known (mem_delete.1 hm).1,fun hm => h.waiting (mem_delete.1 hm).1⟩
  | delete numbers =>
    exact ⟨fun hm hm' => h.single hm hm',fun hm => h.known hm,
      fun hm hd => h.waiting hm (mem_delete.1 hd).1⟩

theorem Answered.later {e : Event World Label} {i : Nat} (h : Answered tr i) :
    Answered (e::tr) i := by
  obtain ⟨e',he',hrest⟩ := h
  exact ⟨e',mem_cons_of_mem _ he',hrest⟩

/-- Attempts that were answered well, and deliveries that are a success. -/
structure AnswerInv (tr : List (Event World Label)) (w : World) : Prop where
  attempts : ∀ {n attempt response}, (n,attempt) ∈ w.attempts →
    attempt.response = some response → response.success = true → Answered tr attempt.deliveryId
  deliveries : ∀ {i d}, (i,d) ∈ w.deliveries → d.status = .success → Answered tr i

/-- The attempts after a step: one that was there, one without an answer, or one just answered. -/
theorem step_attempts (h : Step w label w') {n : Nat} {attempt : Attempt}
    (hn : (n,attempt)∈w'.attempts) :
    (n,attempt)∈w.attempts ∨ attempt.response=none ∨
      ∃ before response, label=.send n response ∧ (n,before)∈w.attempts ∧
        before.deliveryId=attempt.deliveryId ∧ attempt.response=some response := by
  cases h with
  | queue | delete => exact .inl hn
  | lease now limit leaseDuration locked hlease =>
    rcases mem_insertAll hn with hold | hnew
    · exact .inl hold
    · obtain ⟨e,-,rfl⟩ := mem_map.1 hnew
      exact .inr (.inl rfl)
  | @send m before response hmem hnone =>
    rcases (mem_modify_const hmem).1 hn with ⟨rfl,rfl⟩ | ⟨-,hold⟩
    · exact .inr (.inr ⟨before,response,rfl,hmem,rfl,rfl⟩)
    · exact .inl hold
  | report | die => exact .inl (mem_delete.1 hn).1

theorem answer_inv (hr : Run Step World.empty tr w) : AnswerInv tr w := by
  refine Run.invariant (C := fun _ => True) (I := AnswerInv) ?_ ?_ hr fun _ _ => trivial
  · exact ⟨fun h => absurd h not_mem_empty,fun h => absurd h not_mem_empty⟩
  · intro tr w label w' _ h hstep _
    constructor
    case attempts =>
      intro n attempt response hn hresponse hsuccess
      rcases step_attempts hstep hn with hold | hnone | ⟨before,response',rfl,hmem,hid,hsome⟩
      · exact (h.attempts hold hresponse hsuccess).later
      · rw [hnone] at hresponse
        cases hresponse
      · obtain rfl := Option.some.inj (hsome.symm.trans hresponse)
        exact ⟨_,mem_cons_self,n,before,response',rfl,hmem,hid,hsuccess⟩
    case deliveries =>
      intro i d' hd' hstatus
      rcases step_new_row hstep hd' with ⟨d,hd⟩ | hpending
      · rcases step_row hstep hd hd' with ⟨hsame,-⟩ |
          ⟨n,attempt,response,now,-,hmem,rfl,hresponse,rfl⟩
        · exact (h.deliveries hd (hsame ▸ hstatus)).later
        · exact (h.attempts hmem hresponse (Delivery.reported_success hstatus)).later
      · rw [hpending] at hstatus
        cases hstatus

/-- In a run in which no delivery is leased while an attempt at it is under way, the outcomes of
deliveries are final. -/
theorem delivery_outcomes_final (hr : Run Step World.empty tr w)
    (halone : ∀ e ∈ tr, LeasesAlone e) : OutcomesFinal tr w := by
  have hinv : ∀ e∈tr, Inv e.pre :=
    (Run.throughout (I := Inv) inv_empty (fun _ _ _ h hstep hone => step_inv h hstep hone) hr
      halone).1
  constructor
  case final =>
    intro e he i d d' hd hd' hfinal
    obtain ⟨-,-,-,-,hstep,-⟩ := hr.event_split he
    rcases step_row hstep hd hd' with ⟨hsame,-⟩ | ⟨n,attempt,response,now,-,hmem,rfl,-,rfl⟩
    · exact hsame
    · obtain ⟨hopen,-⟩ := (hinv e he).waiting hmem hd
      rcases hfinal with hf | hf <;> rw [hf] at hopen <;> simp at hopen
  case monotone =>
    intro e he i d d' hd hd'
    obtain ⟨-,-,-,-,hstep,-⟩ := hr.event_split he
    rcases step_row hstep hd hd' with ⟨-,hsame⟩ | ⟨n,attempt,response,now,-,hmem,rfl,-,rfl⟩
    · exact le_of_eq hsame.symm
    · obtain ⟨-,hcount⟩ := (hinv e he).waiting hmem hd
      rw [hcount]
      exact Delivery.reported_retryCount _ _ _ _ _
  case answered => exact fun i d hd hstatus => (answer_inv hr).deliveries hd hstatus

def queued : Delivery := { subscriptionId := 3, eventId := 7, nextRetryAt := 0 }

def holding (d : Delivery) (attempts : Rows Attempt) : World := ⟨Rows.empty.insert d,attempts⟩

def slow : Attempt := { deliveryId := 0, retryCount := 0 }

def leasedAt (now : Time) : Delivery := { queued with leaseExpiresAt := some (now+seconds 30) }

theorem lease_queued :
    leaseDeliveries 0 10 (seconds 30) [] (Rows.empty.insert queued) =
      (Rows.empty.insert (leasedAt 0),[(0,queued)]) := by
  simp [leaseDeliveries,readyDeliveries,Rows.insert,Rows.empty,Rows.modifyAll,queued,leasedAt,
    Delivery.ready]

theorem lease_expired :
    leaseDeliveries (seconds 31) 10 (seconds 30) [] (Rows.empty.insert (leasedAt 0)) =
      (Rows.empty.insert (leasedAt (seconds 31)),[(0,leasedAt 0)]) := by
  simp [leaseDeliveries,readyDeliveries,Rows.insert,Rows.empty,Rows.modifyAll,queued,leasedAt,
    Delivery.ready,seconds]

theorem run_leased : Run Step World.empty
    [⟨holding queued Rows.empty,.lease 0 10 (seconds 30) [],
      holding (leasedAt 0) (Rows.empty.insert slow)⟩,
    ⟨World.empty,.queue 3 7 0,holding queued Rows.empty⟩]
    (holding (leasedAt 0) (Rows.empty.insert slow)) := by
  have hlease := Step.lease (w := holding queued Rows.empty) 0 10 (seconds 30) [] lease_queued
  exact (Run.nil.snoc (Step.queue 3 7 0)).snoc hlease

def Attempt.answered (attempt : Attempt) (response : Response) : Attempt :=
  { attempt with response := some response }

def delivered : Delivery := (leasedAt 0).reported (seconds 2) true (some 200) 0

/-- A worker that reports while it has the lease. -/
theorem prompt_worker_final : ∃ tr w, Run Step World.empty tr w ∧ (0,delivered) ∈ w.deliveries ∧
    (∀ e ∈ tr, LeasesAlone e) ∧ OutcomesFinal tr w := by
  have hslow : (0,slow)∈(holding (leasedAt 0) (Rows.empty.insert slow)).attempts :=
    mem_singleton.2 rfl
  have hsend : Step _ _
      (holding (leasedAt 0) (Rows.empty.insert (slow.answered (.status 200)))) :=
    Step.send (.status 200) hslow rfl
  have hanswered : (0,slow.answered (.status 200)) ∈
      (holding (leasedAt 0) (Rows.empty.insert (slow.answered (.status 200)))).attempts :=
    mem_singleton.2 rfl
  have hreport : Step _ _
      (holding delivered ((Rows.empty.insert (slow.answered (.status 200))).delete [0])) :=
    Step.report (seconds 2) hanswered rfl
  obtain ⟨tr,hr,halone⟩ : ∃ tr, Run Step World.empty tr (holding delivered
      ((Rows.empty.insert (slow.answered (.status 200))).delete [0])) ∧
      ∀ e∈tr, LeasesAlone e :=
    ⟨_,(run_leased.snoc hsend).snoc hreport,by simp [LeasesAlone,holding]⟩
  exact ⟨tr,_,hr,mem_singleton.2 rfl,halone,delivery_outcomes_final hr halone⟩

def fast : Attempt := { deliveryId := 0, retryCount := 0 }

def answeredRow : Delivery := (leasedAt (seconds 31)).reported (seconds 32) true (some 200) 0

def overwrittenRow : Delivery := answeredRow.reported (seconds 33) false none 0

def bothWorkers (second : Attempt) : Rows Attempt := (Rows.empty.insert slow).insert second

def slowWorker : Rows Attempt := (bothWorkers (fast.answered (.status 200))).delete [1]

theorem run_delivered : ∃ tr, Run Step World.empty tr (holding answeredRow slowWorker) := by
  have hlease := Step.lease (w := holding (leasedAt 0) (Rows.empty.insert slow)) (seconds 31) 10
    (seconds 30) [] lease_expired
  have hfast : (1,fast)∈(holding (leasedAt (seconds 31)) (bothWorkers fast)).attempts :=
    mem_cons_of_mem _ (mem_singleton.2 rfl)
  have hsend : Step _ _
      (holding (leasedAt (seconds 31)) (bothWorkers (fast.answered (.status 200)))) :=
    Step.send (.status 200) hfast rfl
  have hanswered : (1,fast.answered (.status 200)) ∈
      (holding (leasedAt (seconds 31)) (bothWorkers (fast.answered (.status 200)))).attempts :=
    mem_cons_of_mem _ (mem_singleton.2 rfl)
  have hreport : Step _ _ (holding answeredRow slowWorker) :=
    Step.report (seconds 32) hanswered rfl
  exact ⟨_,((run_leased.snoc hlease).snoc hsend).snoc hreport⟩

/-- A second worker leases the row after thirty seconds and delivers it, and then the attempt of
the first worker fails. -/
theorem late_failure_overwrites_success : ∃ tr w, Run Step World.empty tr w ∧
    (0,overwrittenRow) ∈ w.deliveries ∧ overwrittenRow.status = .failed ∧
    ¬ OutcomesFinal tr w := by
  obtain ⟨tr,hdelivered⟩ := run_delivered
  have hslow : (0,slow)∈(holding answeredRow slowWorker).attempts := mem_singleton.2 rfl
  have hsend : Step _ _
      (holding answeredRow (slowWorker.modify 0 fun _ => slow.answered .noResponse)) :=
    Step.send .noResponse hslow rfl
  have hanswered : (0,slow.answered .noResponse)∈(holding answeredRow
      (slowWorker.modify 0 fun _ => slow.answered .noResponse)).attempts :=
    mem_singleton.2 rfl
  have hreport : Step _ _ (holding overwrittenRow
      ((slowWorker.modify 0 fun _ => slow.answered .noResponse).delete [0])) :=
    Step.report (seconds 33) hanswered rfl
  refine ⟨_,_,(hdelivered.snoc hsend).snoc hreport,mem_singleton.2 rfl,rfl,fun h => ?_⟩
  have hsame := h.final _ mem_cons_self 0 answeredRow overwrittenRow
    (mem_singleton.2 rfl) (mem_singleton.2 rfl) (.inl rfl)
  cases hsame

end Harpocrates.Backend.Dispatch
