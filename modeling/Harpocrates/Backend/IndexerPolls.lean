import Harpocrates.Backend.ChainIndexer
import Harpocrates.Backend.Webhooks
import Harpocrates.Framework.Run

namespace Harpocrates.Backend.Indexer

open Framework Framework.Python Framework.Fallible List

/-! The polls of the indexer as a system of transactions. Storing a row, reading the subscriptions
and queueing the deliveries are three of them, and the process can end before each. -/

/-- An event of the chain: where it happened, and how the RPC server reports it. -/
structure ChainEvent where
  transaction : Text
  position : Nat
  raw : Value

structure RpcResult where
  events : List ChainEvent
  cursor : Option Text

/-- The cursor after a page: the one the server gave, or the mark of its last event. The last event
has to be an object then. -/
def nextCursor (cursor : Option Text) (result : RpcResult) : Option (Option Text) :=
  match result.cursor with
  | some (c::cs) => some (some (c::cs))
  | _ =>
    match result.events.getLast? with
    | none => some cursor
    | some last =>
      match last.raw with
      | .dict shown entries =>
        let mark := ((Value.dict shown entries).get "id".toList).orElse
          ((Value.dict shown entries).get "pagingToken".toList)
        some (if mark.truthy then some mark.shown else cursor)
      | _ => none

inductive Stage
  | idle
  | ingesting (result : RpcResult) (todo : List ChainEvent)
  /-- The row is stored and nothing is queued for it. -/
  | reading (result : RpcResult) (todo : List ChainEvent) (eventId : Nat)
  | queueing (result : RpcResult) (todo : List ChainEvent) (eventId : Nat)
      (subs : List (Nat × Subscription))

structure World where
  events : ProofEvents
  subscriptions : Rows Subscription
  deliveries : Deliveries
  cursor : Option Text
  stage : Stage

structure Service where
  decodeScval : Value → Value
  contractId : Text

inductive Label
  | fetch (result : RpcResult)
  | ingest (event : ChainEvent)
  | read
  | queue (now : Time)
  | queueFails
  | saveCursor
  | stop
  | subscriptions (subscriptions : Rows Subscription)

/-- The stage after the transaction that stores an event. -/
def afterIngest (result : RpcResult) (todo : List ChainEvent) (eventId : Nat) : Ingestion → Stage
  | .indexed => .reading result todo eventId
  | .skipped => .ingesting result todo
  | .duplicate => .ingesting result todo

inductive Step (service : Service) : World → Label → World → Prop
  | fetch {w : World} {result : RpcResult} : w.stage = .idle →
      Step service w (.fetch result) { w with stage := .ingesting result result.events }
  | ingest {w : World} {result : RpcResult} {event : ChainEvent} {todo : List ChainEvent}
      {events : ProofEvents} {ingestion : Ingestion} :
      w.stage = .ingesting result (event::todo) →
      ingest service.decodeScval (some service.contractId) w.events event.raw =
        .ok (events,ingestion) →
      Step service w (.ingest event) { w with
        events, stage := afterIngest result todo w.events.next ingestion }
  | read {w : World} {result : RpcResult} {todo : List ChainEvent} {eventId : Nat} :
      w.stage = .reading result todo eventId →
      Step service w .read { w with
        stage := .queueing result todo eventId (getActiveSubscriptions w.subscriptions) }
  | queue {w : World} {result : RpcResult} {todo : List ChainEvent} {eventId : Nat}
      {subs : List (Nat × Subscription)} (now : Time) :
      w.stage = .queueing result todo eventId subs →
      Step service w (.queue now) { w with
        deliveries := queueWebhookDeliveries now w.events subs w.deliveries eventId
        stage := .ingesting result todo }
  -- An error of the database while an event is announced is logged and the batch goes on.
  | readFails {w : World} {result : RpcResult} {todo : List ChainEvent} {eventId : Nat} :
      w.stage = .reading result todo eventId →
      Step service w .queueFails { w with stage := .ingesting result todo }
  | queueFails {w : World} {result : RpcResult} {todo : List ChainEvent} {eventId : Nat}
      {subs : List (Nat × Subscription)} :
      w.stage = .queueing result todo eventId subs →
      Step service w .queueFails { w with stage := .ingesting result todo }
  | saveCursor {w : World} {result : RpcResult} {cursor : Option Text} :
      w.stage = .ingesting result [] → nextCursor w.cursor result = some cursor →
      Step service w .saveCursor { w with cursor, stage := .idle }
  -- The process dies, or an exception ends the poll.
  | stop {w : World} : Step service w .stop { w with stage := .idle }
  | subscriptions {w : World} (subscriptions : Rows Subscription) :
      Step service w (.subscriptions subscriptions) { w with subscriptions }

/-- The transaction and the place in it that a row stands for. -/
def position (row : ProofEvent) : Option (Text × Int) :=
  match row.txHash,row.eventIndex with
  | some txHash,some eventIndex => some (txHash,eventIndex)
  | _,_ => none

@[simp] theorem position_indexedRow (fields : EventFields) (txHash : Text) (eventIndex : Int) :
    position (indexedRow fields txHash eventIndex)=some (txHash,eventIndex) := rfl

theorem position_eq_some {row : ProofEvent} {txHash : Text} {eventIndex : Int} :
    position row=some (txHash,eventIndex) ↔
      row.txHash=some txHash ∧ row.eventIndex=some eventIndex := by
  unfold position
  cases row.txHash <;> cases row.eventIndex <;> simp

/-- The row that an event is stored as, if its type is a recognised one. -/
def storedRow (service : Service) (raw : Value) : Except ConversionError (Option ProofEvent) := do
  match (← classifyAndDecodeEvent service.decodeScval raw (some service.contractId)) with
  | none => return none
  | some decoded =>
    let contractId ← contractColumn decoded.contractId
    return some (indexedRow (decoded.fields contractId) decoded.txHash decoded.eventIndex)

theorem storedRow_position {service : Service} {raw : Value} {row : ProofEvent}
    (h : storedRow service raw=.ok (some row)) : position row≠none := by
  obtain ⟨found,-,h⟩ := bind_ok.1 h
  cases found with
  | none => cases h
  | some decoded =>
    obtain ⟨contractId,-,h⟩ := bind_ok.1 h
    cases Except.ok.inj h
    simp

/-- An event is skipped, or it leads to its row: a row in its place is there already, or it is
added. -/
theorem ingest_cases {service : Service} {t t' : ProofEvents} {raw : Value} {ingestion : Ingestion}
    (h : ingest service.decodeScval (some service.contractId) t raw=.ok (t',ingestion)) :
    storedRow service raw=.ok none ∧ t'=t ∧ ingestion=.skipped ∨
    ∃ row, storedRow service raw=.ok (some row) ∧
      ((∃ i row', (i,row')∈t ∧ position row'=position row) ∧ t'=t ∧ ingestion=.duplicate ∨
        (∀ i row', (i,row')∈t → position row'≠position row) ∧ t'=t.insert row ∧
          ingestion=.indexed) := by
  obtain ⟨found,hfound,h⟩ := bind_ok.1 h
  cases found with
  | none =>
    cases h
    exact .inl ⟨by rw [storedRow,hfound]; rfl,rfl,rfl⟩
  | some decoded =>
    obtain ⟨contractId,hcontract,h⟩ := bind_ok.1 h
    have hstored : storedRow service raw=.ok (some (indexedRow (decoded.fields contractId)
        decoded.txHash decoded.eventIndex)) := by
      rw [storedRow,hfound]
      exact bind_ok.2 ⟨_,rfl,bind_ok.2 ⟨_,hcontract,rfl⟩⟩
    refine .inr ⟨_,hstored,?_⟩
    rw [position_indexedRow]
    rcases hinsert : insertIndexedProofEvent t (decoded.fields contractId) decoded.txHash
      decoded.eventIndex with ⟨after,row,created⟩
    rw [hinsert] at h
    cases h
    unfold insertIndexedProofEvent at hinsert
    split at hinsert
    · rename_i hnone
      cases hinsert
      refine .inr ⟨fun i row' hrow heq => ?_,rfl,rfl⟩
      have hnot := List.find?_eq_none.1 hnone (i,row') hrow
      simp [position_eq_some.1 heq] at hnot
    · rename_i existing hfind
      obtain ⟨i,row'⟩ := existing
      cases hinsert
      refine .inl ⟨⟨i,row',mem_of_find?_eq_some hfind,?_⟩,rfl,rfl⟩
      have hmatch := List.find?_some hfind
      simpa [position_eq_some] using hmatch

variable {service : Service} {w w' init : World} {label : Label} {chain : List ChainEvent}
  {tr : List (Event World Label)}

/-- The events a poll has still to look at. -/
def Stage.todo : Stage → List ChainEvent
  | .idle => []
  | .ingesting _ todo => todo
  | .reading _ todo _ => todo
  | .queueing _ todo _ _ => todo

def Reports (chain : List ChainEvent) (e : Event World Label) : Prop :=
  ∀ result, e.label = .fetch result → ∀ event ∈ result.events, event ∈ chain

def OnChain (service : Service) (chain : List ChainEvent) (row : ProofEvent) : Prop :=
  ∃ event ∈ chain, storedRow service event.raw = .ok (some row)

/-- Nothing is indexed before the first poll. -/
structure Fresh (init : World) : Prop where
  unindexed : ∀ {i row}, (i,row) ∈ init.events → position row = none
  idle : init.stage = .idle

structure TableInv (service : Service) (chain : List ChainEvent) (init w : World) : Prop where
  kept : ∀ {i row}, (i,row) ∈ init.events → (i,row) ∈ w.events
  origin : ∀ {i row}, (i,row) ∈ w.events → (i,row) ∈ init.events ∨ OnChain service chain row
  single : ∀ {i j row row'}, (i,row) ∈ w.events → (j,row') ∈ w.events → position row ≠ none →
    position row = position row' → i = j
  todo : ∀ event ∈ w.stage.todo, event ∈ chain

theorem step_events (h : Step service w label w') :
    w'.events=w.events ∨ ∃ result event todo ingestion, label=.ingest event ∧
      w.stage=.ingesting result (event::todo) ∧
      ingest service.decodeScval (some service.contractId) w.events event.raw =
        .ok (w'.events,ingestion) := by
  cases h with
  | ingest hstage hingest => exact .inr ⟨_,_,_,_,rfl,hstage,hingest⟩
  | fetch | read | queue | readFails | queueFails | saveCursor | stop | subscriptions =>
    exact .inl rfl

theorem step_keeps_rows (h : Step service w label w') {i : Nat} {row : ProofEvent}
    (hrow : (i,row)∈w.events) : (i,row)∈w'.events := by
  rcases step_events h with heq | ⟨_,event,_,ingestion,-,-,hingest⟩
  · rw [heq]
    exact hrow
  · rcases ingest_cases hingest with ⟨-,heq,-⟩ | ⟨new,-,⟨-,heq,-⟩ | ⟨-,heq,-⟩⟩
    · rwa [heq]
    · rwa [heq]
    · rw [heq]
      exact Rows.mem_insert.2 (.inl hrow)

theorem step_todo (h : Step service w label w') (hreports : Reports chain ⟨w,label,w'⟩)
    (htodo : ∀ event∈w.stage.todo, event∈chain) : ∀ event∈w'.stage.todo, event∈chain := by
  cases h with
  | fetch hstage => exact fun event hmem => hreports _ rfl event hmem
  | @ingest result event todo events ingestion hstage hingest =>
    rw [hstage] at htodo
    intro event' hmem
    refine htodo event' (mem_cons_of_mem _ ?_)
    cases ingestion <;> exact hmem
  | read hstage | queue now hstage | readFails hstage | queueFails hstage =>
    rw [hstage] at htodo
    exact htodo
  | saveCursor | stop => exact fun event hmem => absurd hmem not_mem_nil
  | subscriptions => exact htodo

theorem table_inv (hfresh : Fresh init) (hr : Run (Step service) init tr w)
    (hreports : ∀ e∈tr, Reports chain e) : TableInv service chain init w := by
  refine Run.invariant (I := fun _ w => TableInv service chain init w) ?_ ?_ hr hreports
  · refine ⟨fun h => h,fun h => .inl h,?_,?_⟩
    · exact fun hi _ hsome => absurd (hfresh.unindexed hi) hsome
    · rw [hfresh.idle]
      exact fun event hmem => absurd hmem not_mem_nil
  · intro tr w label w' _ h hstep hrep
    have htodo := step_todo hstep hrep h.todo
    rcases step_events hstep with heq | ⟨result,event,todo,ingestion,rfl,hstage,hingest⟩
    · exact ⟨fun hi => heq ▸ h.kept hi,fun hi => h.origin (heq ▸ hi),
        fun hi hj => h.single (heq ▸ hi) (heq ▸ hj),htodo⟩
    · have hevent : event∈chain := h.todo event (by rw [hstage]; exact mem_cons_self)
      rcases ingest_cases hingest with ⟨-,heq,-⟩ | ⟨new,hnew,⟨-,heq,-⟩ | ⟨hfree,heq,-⟩⟩
      · exact ⟨fun hi => heq ▸ h.kept hi,fun hi => h.origin (heq ▸ hi),
          fun hi hj => h.single (heq ▸ hi) (heq ▸ hj),htodo⟩
      · exact ⟨fun hi => heq ▸ h.kept hi,fun hi => h.origin (heq ▸ hi),
          fun hi hj => h.single (heq ▸ hi) (heq ▸ hj),htodo⟩
      · constructor
        case kept => exact fun hi => heq ▸ Rows.mem_insert.2 (.inl (h.kept hi))
        case origin =>
          intro i row hi
          rw [heq] at hi
          rcases Rows.mem_insert.1 hi with hi | ⟨-,rfl⟩
          · exact h.origin hi
          · exact .inr ⟨event,hevent,hnew⟩
        case single =>
          intro i j row row' hi hj hsome hsame
          rw [heq] at hi hj
          rcases Rows.mem_insert.1 hi with hold | ⟨rfl,rfl⟩
          · rcases Rows.mem_insert.1 hj with hold' | ⟨rfl,rfl⟩
            · exact h.single hold hold' hsome hsame
            · exact absurd hsame (hfree i row hold)
          · rcases Rows.mem_insert.1 hj with hold' | ⟨rfl,rfl⟩
            · exact absurd hsame.symm (hfree j row' hold')
            · rfl
        case todo => exact htodo

theorem step_ingest {event : ChainEvent} (h : Step service w (.ingest event) w') :
    ∃ ingestion, ingest service.decodeScval (some service.contractId) w.events event.raw =
      .ok (w'.events,ingestion) := by
  cases h with
  | ingest _ hingest => exact ⟨_,hingest⟩

/-- Once an event was looked at without error, its place is taken. -/
theorem processed_stored (hr : Run (Step service) init tr w) {e : Event World Label} (he : e∈tr)
    {event : ChainEvent} (hlabel : e.label=.ingest event) :
    ∃ found, storedRow service event.raw=.ok found ∧
      ∀ row, found=some row → ∃ i row', (i,row')∈w.events ∧ position row'=position row := by
  obtain ⟨tr₁,tr₂,-,-,hstep,hrest⟩ := hr.event_split he
  have hlater : ∀ row, (∃ i row', (i,row')∈e.post.events ∧ position row'=position row) →
      ∃ i row', (i,row')∈w.events ∧ position row'=position row := by
    intro row hbefore
    refine Run.state_invariant (I := fun w => ∃ i row', (i,row')∈w.events ∧
      position row'=position row) hbefore ?_ hrest
    rintro w label w' ⟨i,row',hrow,hsame⟩ hstep
    exact ⟨i,row',step_keeps_rows hstep hrow,hsame⟩
  rw [hlabel] at hstep
  obtain ⟨ingestion,hingest⟩ := step_ingest hstep
  rcases ingest_cases hingest with ⟨hnone,-⟩ | ⟨new,hnew,hcases⟩
  · exact ⟨none,hnone,fun row hsome => by cases hsome⟩
  · refine ⟨some new,hnew,fun row hsome => hlater row ?_⟩
    cases hsome
    rcases hcases with ⟨⟨i,row',hrow,hsame⟩,heq,-⟩ | ⟨-,heq,-⟩
    · exact ⟨i,row',heq ▸ hrow,hsame⟩
    · exact ⟨_,new,heq ▸ Rows.mem_insert.2 (.inr ⟨rfl,rfl⟩),rfl⟩

end Harpocrates.Backend.Indexer
