import Harpocrates.Backend.IndexerPolls

namespace Harpocrates.Backend.Indexer

open Framework Framework.Python Framework.Fallible Rows List

/-! Every event of the chain is stored once, as one pass over the chain stores it, and announced to
the subscriptions that were there all along. -/

variable {service : Service} {w w' init : World} {label : Label} {tr : List (Event World Label)}

/-- The events of a chain, known by their transaction and their position in it. -/
structure Chain where
  events : List ChainEvent
  identified : ∀ a ∈ events, ∀ b ∈ events, a.transaction = b.transaction →
    a.position = b.position → a = b

def Wants (subscriptions : Rows Subscription) (n : Nat) (eventType : EventType) : Prop :=
  ∃ sub, (n,sub) ∈ subscriptions ∧ sub.isActive = true ∧ sub.wants eventType = true

def WantsThroughout (tr : List (Event World Label)) (w : World) (n : Nat)
    (eventType : EventType) : Prop :=
  (∀ e ∈ tr, Wants e.pre.subscriptions n eventType) ∧ Wants w.subscriptions n eventType

def Queued (w : World) (n eventId : Nat) : Prop :=
  ∃ k d, (k,d) ∈ w.deliveries ∧ d.subscriptionId = n ∧ d.eventId = eventId

def onePass (service : Service) (chain : Chain) (init : World) : ProofEvents :=
  (processEventsBatch service.decodeScval (some service.contractId) {} init.events
    (chain.events.map (·.raw))).1

structure IndexedOnce (service : Service) (chain : Chain) (init : World)
    (tr : List (Event World Label)) (w : World) : Prop where
  /-- The row of an event is there, and no other row is in its place. -/
  stored : ∀ event ∈ chain.events, ∀ row, storedRow service event.raw = .ok (some row) →
    ∃ i, (i,row) ∈ w.events ∧
      ∀ j row', (j,row') ∈ w.events → position row' = position row → j = i
  /-- Distinct events have distinct rows. -/
  apart : ∀ a ∈ chain.events, ∀ b ∈ chain.events, ∀ row,
    storedRow service a.raw = .ok (some row) → storedRow service b.raw = .ok (some row) → a = b
  pass : ∀ row, (∃ i, (i,row) ∈ w.events) ↔ ∃ i, (i,row) ∈ onePass service chain init
  announced : ∀ i row n, (i,row) ∈ w.events → position row ≠ none →
    WantsThroughout tr w n row.eventType → Queued w n i

/-- The place read from an event of a recognised type tells it from the others. -/
def Placed (service : Service) (chain : Chain) : Prop :=
  ∀ a ∈ chain.events, ∀ b ∈ chain.events, ∀ row row',
    storedRow service a.raw = .ok (some row) → storedRow service b.raw = .ok (some row') →
    position row = position row' → a.transaction = b.transaction ∧ a.position = b.position

/-- The row that waits for its announcement. -/
def Stage.announcing : Stage → Option Nat
  | .reading _ _ eventId => some eventId
  | .queueing _ _ eventId _ => some eventId
  | _ => none

def Uninterrupted (e : Event World Label) : Prop :=
  e.label = .stop ∨ e.label = .queueFails → e.pre.stage.announcing = none

def Among (service : Service) (t : ProofEvents) (raws : List Value) (row : ProofEvent) : Prop :=
  (∃ i, (i,row) ∈ t) ∨ ∃ raw ∈ raws, storedRow service raw = .ok (some row)

variable {t : ProofEvents} {eventType : EventType} {n : Nat}

theorem ingest_of_storedRow {raw : Value} {found : Option ProofEvent}
    (h : storedRow service raw=.ok found) :
    ∃ t' ingestion,
      ingest service.decodeScval (some service.contractId) t raw=.ok (t',ingestion) := by
  obtain ⟨decoded,hdecoded,h⟩ := bind_ok.1 h
  cases decoded with
  | none => exact ⟨t,.skipped,by rw [ingest,hdecoded]; rfl⟩
  | some decoded =>
    obtain ⟨contractId,hcontract,-⟩ := bind_ok.1 h
    exact ⟨_,_,bind_ok.2 ⟨_,hdecoded,bind_ok.2 ⟨_,hcontract,rfl⟩⟩⟩

/-- What a look at one event makes of the rows, when no two of them compete for a place. -/
theorem among_ingest {t' : ProofEvents} {raw : Value} {raws : List Value} {ingestion : Ingestion}
    (hingest : ingest service.decodeScval (some service.contractId) t raw=.ok (t',ingestion))
    (hagree : ∀ row row', Among service t (raw::raws) row → Among service t (raw::raws) row' →
      position row≠none → position row=position row' → row=row')
    (row : ProofEvent) : Among service t' raws row ↔ Among service t (raw::raws) row := by
  unfold Among at *
  rcases ingest_cases hingest with ⟨hnone,rfl,-⟩ | ⟨new,hnew,⟨⟨i,row',hrow',hsame⟩,rfl,-⟩ |
    ⟨-,rfl,-⟩⟩
  · simp [hnone]
  · have heq : new=row' := by
      refine hagree new row' (.inr ⟨raw,mem_cons_self,hnew⟩) (.inl ⟨i,hrow'⟩)
        (storedRow_position hnew) hsame.symm
    simp only [mem_cons,exists_eq_or_imp,hnew,Except.ok.injEq,Option.some.injEq]
    constructor
    · rintro (hold | hlater)
      · exact .inl hold
      · exact .inr (.inr hlater)
    · rintro (hold | rfl | hlater)
      · exact .inl hold
      · exact .inl ⟨i,heq ▸ hrow'⟩
      · exact .inr hlater
  · simp only [mem_cons,exists_eq_or_imp,hnew,Except.ok.injEq,Option.some.injEq,
      mem_insert]
    constructor
    · rintro (⟨i,hold | ⟨-,rfl⟩⟩ | hlater)
      · exact .inl ⟨i,hold⟩
      · exact .inr (.inl rfl)
      · exact .inr (.inr hlater)
    · rintro (⟨i,hold⟩ | rfl | hlater)
      · exact .inl ⟨i,.inl hold⟩
      · exact .inl ⟨t.next,.inr ⟨rfl,rfl⟩⟩
      · exact .inr hlater

theorem processEventsBatch_rows {raws : List Value} {summary : IndexerSummary}
    (hok : ∀ raw∈raws, ∃ found, storedRow service raw=.ok found)
    (hagree : ∀ row row', Among service t raws row → Among service t raws row' →
      position row≠none → position row=position row' → row=row')
    (row : ProofEvent) :
    (∃ i, (i,row)∈(processEventsBatch service.decodeScval (some service.contractId) summary t
      raws).1) ↔ Among service t raws row := by
  induction raws generalizing t summary with
  | nil => simp [processEventsBatch,Among]
  | cons raw raws ih =>
    obtain ⟨found,hfound⟩ := hok raw mem_cons_self
    obtain ⟨t',ingestion,hingest⟩ := ingest_of_storedRow (t := t) hfound
    have hsame := among_ingest hingest hagree
    rw [processEventsBatch,hingest,← hsame]
    refine ih (fun raw hraw => hok raw (mem_cons_of_mem _ hraw)) ?_
    intro row row' hrow hrow'
    exact hagree row row' ((hsame row).1 hrow) ((hsame row').1 hrow')

/-- The poll is about to queue the row for the subscription. -/
def Coming (w : World) (n : Nat) (eventType : EventType) (eventId : Nat) : Prop :=
  match w.stage with
  | .reading _ _ i => i = eventId
  | .queueing _ _ i subs =>
    i = eventId ∧ ∃ sub, (n,sub) ∈ subs ∧ sub.wants eventType = true
  | _ => False

theorem Coming.announcing {eventId : Nat} (h : Coming w n eventType eventId) :
    w.stage.announcing=some eventId := by
  unfold Coming at h
  split at h
  · rename_i hstage
    rw [hstage,h]
    rfl
  · rename_i hstage
    rw [hstage,h.1]
    rfl
  · cases h

def AnnounceInv (n : Nat) (eventType : EventType) (w : World) : Prop :=
  ∀ i row, (i,row) ∈ w.events → position row ≠ none → row.eventType = eventType →
    Queued w n i ∨ Coming w n eventType i

theorem AnnounceInv.queued (h : AnnounceInv n eventType w) (hstage : w.stage.announcing=none)
    {i : Nat} {row : ProofEvent} (hrow : (i,row)∈w.events) (hplace : position row≠none)
    (htype : row.eventType=eventType) : Queued w n i := by
  rcases h i row hrow hplace htype with hqueued | hcoming
  · exact hqueued
  · rw [hcoming.announcing] at hstage
    cases hstage

theorem announce_step (hstep : Step service w label w')
    (huninterrupted : Uninterrupted ⟨w,label,w'⟩) (hwants : Wants w.subscriptions n eventType)
    (h : AnnounceInv n eventType w) : AnnounceInv n eventType w' := by
  intro i row hrow hplace htype
  cases hstep with
  | fetch hstage => exact .inl (h.queued (by rw [hstage]; rfl) hrow hplace htype)
  | @ingest result event todo events ingestion hstage hingest =>
    have hqueued : (i,row)∈w.events → Queued w n i :=
      fun hold => h.queued (by rw [hstage]; rfl) hold hplace htype
    rcases ingest_cases hingest with ⟨-,rfl,-⟩ | ⟨new,-,⟨-,rfl,-⟩ | ⟨-,rfl,rfl⟩⟩
    · exact .inl (hqueued hrow)
    · exact .inl (hqueued hrow)
    · rcases mem_insert.1 hrow with hold | ⟨rfl,-⟩
      · exact .inl (hqueued hold)
      · exact .inr rfl
  | @read result todo eventId hstage =>
    rcases h i row hrow hplace htype with hqueued | hcoming
    · exact .inl hqueued
    · rw [Coming,hstage] at hcoming
      obtain ⟨sub,hsub,hactive,hasks⟩ := hwants
      exact .inr ⟨hcoming,sub,mem_filter.2 ⟨hsub,hactive⟩,hasks⟩
  | @queue result todo eventId subs now hstage =>
    left
    rcases h i row hrow hplace htype with ⟨k,d,hd,hids⟩ | hcoming
    · exact ⟨k,d,mem_queueWebhookDeliveries_of_mem hd,hids⟩
    · rw [Coming,hstage] at hcoming
      obtain ⟨rfl,sub,hsub,hasks⟩ := hcoming
      exact queueWebhookDeliveries_queues hrow hsub (htype ▸ hasks)
  | readFails | queueFails | stop =>
    exact .inl (h.queued (huninterrupted (by simp)) hrow hplace htype)
  | saveCursor hstage => exact .inl (h.queued (by rw [hstage]; rfl) hrow hplace htype)
  | subscriptions => exact h i row hrow hplace htype

theorem announce_inv (hfresh : Fresh init) (hr : Run (Step service) init tr w)
    (huninterrupted : ∀ e∈tr, Uninterrupted e)
    (hwants : ∀ e∈tr, Wants e.pre.subscriptions n eventType) : AnnounceInv n eventType w := by
  refine Run.invariant (C := fun e => Uninterrupted e ∧ Wants e.pre.subscriptions n eventType)
    (I := fun _ w => AnnounceInv n eventType w) ?_ ?_ hr
    fun e he => ⟨huninterrupted e he,hwants e he⟩
  · exact fun i row hrow hplace => absurd (hfresh.unindexed hrow) hplace
  · exact fun _ _ _ _ _ h hstep hcond => announce_step hstep hcond.1 hcond.2 h

section

variable {chain : Chain}

theorem Placed.event_eq (hplaced : Placed service chain) {a b : ChainEvent}
    (ha : a∈chain.events) (hb : b∈chain.events) {row row' : ProofEvent}
    (hrow : storedRow service a.raw=.ok (some row))
    (hrow' : storedRow service b.raw=.ok (some row')) (hplace : position row=position row') :
    a=b := by
  obtain ⟨htransaction,hposition⟩ := hplaced a ha b hb row row' hrow hrow' hplace
  exact chain.identified a ha b hb htransaction hposition

theorem Placed.row_eq (hplaced : Placed service chain) {row row' : ProofEvent}
    (hrow : OnChain service chain.events row) (hrow' : OnChain service chain.events row')
    (hplace : position row=position row') : row=row' := by
  obtain ⟨a,ha,hrow⟩ := hrow
  obtain ⟨b,hb,hrow'⟩ := hrow'
  obtain rfl := hplaced.event_eq ha hb hrow hrow' hplace
  exact Option.some.inj (Except.ok.inj (hrow.symm.trans hrow'))

theorem among_chain {row : ProofEvent} :
    Among service init.events (chain.events.map (·.raw)) row ↔
      (∃ i, (i,row)∈init.events) ∨ OnChain service chain.events row := by
  simp [Among,OnChain]

/-- The rows after a pass over events that each have a place of their own. -/
theorem onePass_rows (hfresh : Fresh init) (hplaced : Placed service chain)
    (hok : ∀ event∈chain.events, ∃ found, storedRow service event.raw=.ok found)
    (row : ProofEvent) :
    (∃ i, (i,row)∈onePass service chain init) ↔
      (∃ i, (i,row)∈init.events) ∨ OnChain service chain.events row := by
  rw [onePass,processEventsBatch_rows,among_chain]
  · intro raw hraw
    obtain ⟨event,hevent,rfl⟩ := mem_map.1 hraw
    exact hok event hevent
  · intro row row' hrow hrow' hplace hposition
    rcases among_chain.1 hrow with ⟨i,hi⟩ | hchain
    · exact absurd (hfresh.unindexed hi) hplace
    rcases among_chain.1 hrow' with ⟨j,hj⟩ | hchain'
    · rw [hposition] at hplace
      exact absurd (hfresh.unindexed hj) hplace
    · exact hplaced.row_eq hchain hchain' hposition

/-- The rows after polls that looked at every event of the chain. -/
theorem polled_rows (hfresh : Fresh init) (htable : TableInv service chain.events init w)
    (hplaced : Placed service chain)
    (hdone : ∀ event∈chain.events, ∃ found, storedRow service event.raw=.ok found ∧
      ∀ row, found=some row → ∃ i row', (i,row')∈w.events ∧ position row'=position row)
    (row : ProofEvent) :
    (∃ i, (i,row)∈w.events) ↔
      (∃ i, (i,row)∈init.events) ∨ OnChain service chain.events row := by
  constructor
  · rintro ⟨i,hi⟩
    rcases htable.origin hi with hinit | hchain
    · exact .inl ⟨i,hinit⟩
    · exact .inr hchain
  · rintro (⟨i,hi⟩ | ⟨event,hevent,hrow⟩)
    · exact ⟨i,htable.kept hi⟩
    · obtain ⟨found,hfound,hplace⟩ := hdone event hevent
      cases hfound.symm.trans hrow
      obtain ⟨i,row',hmem,hposition⟩ := hplace row rfl
      rcases htable.origin hmem with hinit | hchain
      · rw [hfresh.unindexed hinit] at hposition
        exact absurd hposition.symm (storedRow_position hrow)
      · obtain rfl := hplaced.row_eq hchain ⟨event,hevent,hrow⟩ hposition
        exact ⟨i,hmem⟩

end

/-- In a run in which events are told apart by the place that is read from them, and nothing comes
between a new row and its deliveries, the chain is indexed once. -/
theorem chain_indexed_once {chain : Chain} (hfresh : Fresh init)
    (hr : Run (Step service) init tr w) (hreports : ∀ e ∈ tr, Reports chain.events e)
    (hprocessed : ∀ event ∈ chain.events, ∃ e ∈ tr, e.label = .ingest event)
    (hidle : w.stage = .idle) (hplaced : Placed service chain)
    (huninterrupted : ∀ e ∈ tr, Uninterrupted e) :
    IndexedOnce service chain init tr w := by
  have htable := table_inv hfresh hr hreports
  have hdone : ∀ event∈chain.events, ∃ found, storedRow service event.raw=.ok found ∧
      ∀ row, found=some row →
        ∃ i row', (i,row')∈w.events ∧ position row'=position row := by
    intro event hevent
    obtain ⟨e,he,hlabel⟩ := hprocessed event hevent
    exact processed_stored hr he hlabel
  have hrows := polled_rows hfresh htable hplaced hdone
  constructor
  case stored =>
    intro event hevent row hrow
    obtain ⟨i,hi⟩ := (hrows row).2 (.inr ⟨event,hevent,hrow⟩)
    refine ⟨i,hi,fun j row' hj hposition => ?_⟩
    exact (htable.single hi hj (storedRow_position hrow) hposition.symm).symm
  case apart => exact fun a ha b hb row hrow hrow' => hplaced.event_eq ha hb hrow hrow' rfl
  case pass =>
    intro row
    have hok : ∀ event∈chain.events, ∃ found, storedRow service event.raw=.ok found := by
      intro event hevent
      obtain ⟨found,hfound,-⟩ := hdone event hevent
      exact ⟨found,hfound⟩
    exact (hrows row).trans (onePass_rows hfresh hplaced hok row).symm
  case announced =>
    intro i row n hi hplace hthroughout
    have hinv := announce_inv hfresh hr huninterrupted hthroughout.1
    exact hinv.queued (by rw [hidle]; rfl) hi hplace rfl

def plainService : Service := ⟨fun value => value,"C1".toList⟩

def revocation : ChainEvent where
  transaction := "ab".toList
  position := 0
  raw := .dict [] [("txHash".toList,.str "ab".toList),("eventIndex".toList,.int 0),
    ("topic".toList,.list [] [.str "proof".toList,.str "revoke".toList,.str "cd".toList])]

def revocationChain : Chain where
  events := [revocation]
  identified := by
    intro a ha b hb _ _
    rw [List.mem_singleton.1 ha,List.mem_singleton.1 hb]

def revocationRow : ProofEvent where
  eventType := .revoke
  proofId := some "cd".toList
  txHash := some "ab".toList
  txStatus := some .revoked
  contractId := some "C1".toList
  idempotencyKey := some "indexer:ab:0".toList
  eventIndex := some 0

theorem storedRow_revocation :
    storedRow plainService revocation.raw=.ok (some revocationRow) := rfl

theorem ingest_revocation :
    ingest plainService.decodeScval (some plainService.contractId) empty revocation.raw =
      .ok (empty.insert revocationRow,.indexed) := rfl

theorem ingest_revocation_again :
    ingest plainService.decodeScval (some plainService.contractId)
      (empty.insert revocationRow) revocation.raw =
      .ok (empty.insert revocationRow,.duplicate) := rfl

def subscribed (events : ProofEvents) (deliveries : Deliveries) (cursor : Option Text)
    (stage : Stage) : World :=
  ⟨events,Rows.empty.insert {},deliveries,cursor,stage⟩

def page : RpcResult := ⟨[revocation],some "1-0".toList⟩

theorem fresh_subscribed : Fresh (subscribed empty empty none .idle) :=
  ⟨fun h => absurd h not_mem_empty,rfl⟩

theorem placed_revocation : Placed plainService revocationChain := by
  intro a ha b hb _ _ _ _ _
  rw [mem_singleton.1 ha,mem_singleton.1 hb]
  exact ⟨rfl,rfl⟩

theorem run_stored :
    Run (Step plainService) (subscribed empty empty none .idle)
      [⟨subscribed empty empty none (.ingesting page [revocation]),.ingest revocation,
        subscribed (empty.insert revocationRow) empty none (.reading page [] 0)⟩,
      ⟨subscribed empty empty none .idle,.fetch page,
        subscribed empty empty none (.ingesting page [revocation])⟩]
      (subscribed (empty.insert revocationRow) empty none (.reading page [] 0)) := by
  have hstored : ingest plainService.decodeScval (some plainService.contractId)
      (subscribed empty empty none (.ingesting page [revocation])).events
      revocation.raw = _ := ingest_revocation
  have hstep := Step.ingest rfl hstored
  exact (Run.nil.snoc (Step.fetch rfl)).snoc hstep

def announcedWorld : World :=
  subscribed (Rows.empty.insert revocationRow) (Rows.empty.insert ⟨0,0,.pending,0,7,none,none⟩)
    (some "1-0".toList) .idle

theorem revocation_indexed_once : ∃ tr,
    Run (Step plainService) (subscribed Rows.empty Rows.empty none .idle) tr announcedWorld ∧
      IndexedOnce plainService revocationChain (subscribed Rows.empty Rows.empty none .idle) tr
        announcedWorld := by
  have h₁ : Run (Step plainService) _ _
      (subscribed (empty.insert revocationRow) empty none
        (.queueing page [] 0 [(0,{})])) := run_stored.snoc (Step.read rfl)
  have hqueue : Step plainService (subscribed (empty.insert revocationRow) empty none
    (.queueing page [] 0 [(0,{})])) _ _ := Step.queue 7 rfl
  have h₂ : Run (Step plainService) _ _
      (subscribed (empty.insert revocationRow)
        (empty.insert ⟨0,0,.pending,0,7,none,none⟩) none (.ingesting page [])) :=
    h₁.snoc hqueue
  have h₃ : Run (Step plainService) _ _ announcedWorld := h₂.snoc (Step.saveCursor rfl rfl)
  refine ⟨_,h₃,chain_indexed_once fresh_subscribed h₃ ?_ ?_ rfl placed_revocation ?_⟩
  · simp [Reports,page,revocationChain]
  · simp [revocationChain]
  · simp [Uninterrupted]

/-- The state after a crash between the row and its deliveries, and a poll that then went through
the whole chain. -/
def unannouncedWorld : World :=
  subscribed (Rows.empty.insert revocationRow) Rows.empty (some "1-0".toList) .idle

/-- The event is a duplicate for the second poll, which therefore queues nothing. -/
theorem crash_loses_announcement : ∃ tr,
    Run (Step plainService) (subscribed Rows.empty Rows.empty none .idle) tr unannouncedWorld ∧
      (∀ e ∈ tr, Reports revocationChain.events e) ∧
      (∀ event ∈ revocationChain.events, ∃ e ∈ tr, e.label = .ingest event) ∧
      Placed plainService revocationChain ∧
      ¬ IndexedOnce plainService revocationChain (subscribed Rows.empty Rows.empty none .idle) tr
        unannouncedWorld := by
  have h₁ : Run (Step plainService) _ _
      (subscribed (empty.insert revocationRow) empty none .idle) :=
    run_stored.snoc Step.stop
  have h₂ : Run (Step plainService) _ _
      (subscribed (empty.insert revocationRow) empty none
        (.ingesting page [revocation])) := h₁.snoc (Step.fetch rfl)
  have hagain : ingest plainService.decodeScval (some plainService.contractId)
      (subscribed (empty.insert revocationRow) empty none
        (.ingesting page [revocation])).events revocation.raw = _ := ingest_revocation_again
  have hstep := Step.ingest rfl hagain
  have h₃ : Run (Step plainService) _ _
      (subscribed (empty.insert revocationRow) empty none (.ingesting page [])) :=
    h₂.snoc hstep
  have h₄ : Run (Step plainService) _ _ unannouncedWorld := h₃.snoc (Step.saveCursor rfl rfl)
  refine ⟨_,h₄,?_,?_,placed_revocation,fun h => ?_⟩
  · simp [Reports,page,revocationChain]
  · simp [revocationChain]
  · have hwants : ∀ {events deliveries cursor stage},
        Wants (subscribed events deliveries cursor stage).subscriptions 0 .revoke :=
      ⟨{},mem_singleton.2 rfl,rfl,rfl⟩
    have hqueued := h.announced 0 revocationRow 0 (mem_singleton.2 rfl)
      (storedRow_position storedRow_revocation) ⟨?_,hwants⟩
    · obtain ⟨k,d,hd,-⟩ := hqueued
      exact absurd hd not_mem_empty
    · intro e he
      fin_cases he <;> exact hwants

end Harpocrates.Backend.Indexer
