import Harpocrates.Backend.ChainIndexer
import Harpocrates.Backend.Register
import Harpocrates.Backend.RegistrationReconcile
import Harpocrates.Framework.Run

namespace Harpocrates.Backend

open Framework Framework.Python Rows List Nat

/-! The backend as a system of transactions on the table of proof events. A registration takes two
of them, the owner lookup and the insert; anything may come in between. -/

structure Service where
  config : Config
  decodeScval : Value → Value

structure World where
  events : ProofEvents
  /-- The requests that passed their checks and have not inserted yet. -/
  inFlight : Rows Registration

def World.empty : World := ⟨Rows.empty,Rows.empty⟩

/-- An event of the embedding or extraction of metadata. -/
structure MediaEvent where
  extracted : Bool
  videoHash : Text
  metadataHash : Option Text := none
  proofId : Option Text := none
  tier : Option Text := none
  retentionClass : Option Text := none
  expiresAt : Option Int := none

def MediaEvent.fields (media : MediaEvent) : EventFields where
  eventType := if media.extracted then .extract else .embed
  videoHash := some media.videoHash
  metadataHash := media.metadataHash
  proofId := media.proofId
  tier := media.tier
  retentionClass := media.retentionClass
  expiresAt := media.expiresAt

inductive Label
  | arrive (request : RegisterRequest) (now : Int)
  | store (n : Nat)
  | record (media : MediaEvent)
  | index (raw : Value) (contractId : Option Text)
  | reconcile (call : ReconcileCall)
  | setLegalHold (proofId : Text) (hold : Bool)
  | purge (now batchSize : Int)

/-- A request up to the point where it inserts, with the owner looked up in the table. -/
def accept (service : Service) (w : World) (request : RegisterRequest) (now : Int) :
    Except ErrorReply Registration :=
  match requireRegisterAuth service.config now request with
  | .error reply => .error reply
  | .ok principal =>
    registerProofEvent service.config now principal
      (fun proofId => .ok (findProofOwner w.events proofId)) request

def next (service : Service) (w : World) : Label → World
  | .arrive request now =>
    match accept service w request now with
    | .error _ => w
    | .ok registration => { w with inFlight := w.inFlight.insert registration }
  | .store n =>
    match w.inFlight.entries.find? fun e => e.1 = n with
    | none => w
    | some (_,registration) => {
        events := (upsertRegisterEvent w.events registration.idempotencyKey registration.fields).1
        inFlight := w.inFlight.delete [n] }
  | .record media => { w with events := insertProofEvent w.events media.fields }
  | .index raw contractId =>
    match ingest service.decodeScval contractId w.events raw with
    | .error _ => w
    | .ok (events,_) => { w with events }
  | .reconcile call =>
    match reconcileRegistration w.events call with
    | .error _ => w
    | .ok (events,_) => { w with events }
  | .setLegalHold proofId hold => { w with events := setLegalHold w.events proofId hold }
  | .purge now batchSize => { w with events := (purgeExpiredEvents w.events now batchSize).1 }

def step (service : Service) (w : World) (label : Label) (w' : World) : Prop :=
  next service w label = w'

abbrev Trace := List (Event World Label)

/-- The trace of taking the given steps. -/
def play (service : Service) : World → List Label → Trace
  | _,[] => []
  | w,label::labels =>
    play service (next service w label) labels++[⟨w,label,next service w label⟩]

theorem run_play (service : Service) (w : World) (labels : List Label) :
    Run (step service) w (play service w labels) (labels.foldl (next service) w) := by
  induction labels generalizing w with
  | nil => exact Run.nil
  | cons label labels ih => exact (Run.nil.snoc rfl).trans (ih (next service w label))

/-- The tables that a step can leave. -/
inductive Write (service : Service) (w : World) : Label → ProofEvents → Prop
  | nothing (label : Label) : Write service w label w.events
  | registered {n : Nat} {registration : Registration} : (n,registration) ∈ w.inFlight →
      Write service w (.store n)
        (w.events.insert (registerRow registration.idempotencyKey registration.fields))
  | recorded (media : MediaEvent) :
      Write service w (.record media) (w.events.insert { media.fields with })
  | indexed {raw : Value} {default column : Option Text} {decoded : DecodedLifecycleEvent} :
      classifyAndDecodeEvent service.decodeScval raw default = .ok (some decoded) →
      Write service w (.index raw default) (w.events.insert
        (indexedRow (decoded.fields column) decoded.txHash decoded.eventIndex))
  | reconciled {call : ReconcileCall} {txHash : Text} {status : StorableStatus} :
      call.asks = some txHash → 1 ≤ call.minConfirmations →
      (call.verdict txHash).status.terminal? = some status →
      Write service w (.reconcile call) (updateTxStatus w.events txHash status call.force).1
  | held (proofId : Text) (hold : Bool) :
      Write service w (.setLegalHold proofId hold) (setLegalHold w.events proofId hold)
  | purged (now batchSize : Int) :
      Write service w (.purge now batchSize) (purgeExpiredEvents w.events now batchSize).1

theorem next_write (service : Service) (w : World) (label : Label) :
    Write service w label (next service w label).events := by
  cases label with
  | arrive request now =>
    simp only [next]
    split
    · exact .nothing _
    · exact .nothing _
  | store n =>
    simp only [next]
    split
    · exact .nothing _
    next number registration hfound =>
    obtain rfl : number=n := by simpa using List.find?_some hfound
    have hmem : (number,registration)∈w.inFlight := mem_of_find?_eq_some hfound
    rcases upsertRegisterEvent_table w.events registration.idempotencyKey registration.fields with
      hsame | hadded
    · simp only [hsame]
      exact .nothing _
    · simp only [hadded]
      exact .registered hmem
  | record media => exact .recorded media
  | index raw contractId =>
    simp only [next]
    split
    · exact .nothing _
    next events ingestion hingest =>
    rcases ingest_ok hingest with rfl | ⟨decoded,column,hdecoded,rfl⟩
    · exact .nothing _
    · exact .indexed hdecoded
  | reconcile call =>
    simp only [next]
    split
    · exact .nothing _
    next events result hresult =>
    rcases reconcileRegistration_ok hresult with ⟨rfl,-⟩ | ⟨txHash,status,hasks,hmin,hverdict,rfl⟩
    · exact .nothing _
    · exact .reconciled hasks hmin hverdict
  | setLegalHold proofId hold => exact .held proofId hold
  | purge now batchSize => exact .purged now batchSize

variable {service : Service} {w w' : World} {label : Label} {t : ProofEvents} {tr : Trace}

/-- What the writes have in common: they add a row, rewrite rows or purge. -/
theorem Write.shape (h : Write service w label t) :
    t=w.events ∨ (∃ row : ProofEvent, row.legalHold=false ∧ t=w.events.insert row) ∨
    (∃ f : ProofEvent → ProofEvent, (∀ e : ProofEvent, e.Rewritten (f e)) ∧
      (∀ e, (f e).legalHold=e.legalHold ∨ ∃ proofId hold, label=.setLegalHold proofId hold ∧
        e.proofId=some proofId) ∧ t=w.events.update f) ∨
    ∃ now batchSize, label=.purge now batchSize ∧
      t=(purgeExpiredEvents w.events now batchSize).1 := by
  cases h with
  | nothing => exact .inl rfl
  | registered _ => exact .inr (.inl ⟨_,rfl,rfl⟩)
  | recorded media => exact .inr (.inl ⟨_,rfl,rfl⟩)
  | indexed _ => exact .inr (.inl ⟨_,rfl,rfl⟩)
  | reconciled _ _ _ =>
    rcases updateTxStatus_table w.events _ _ _ with hsame | hset
    · exact .inl hsame
    · exact .inr (.inr (.inl ⟨_,ProofEvent.rewritten_settle _ _ _,
        fun e => .inl (ProofEvent.legalHold_settle _ _ _ e),hset⟩))
  | held proofId hold =>
    refine .inr (.inr (.inl ⟨_,ProofEvent.rewritten_hold proofId hold,fun e => ?_,rfl⟩))
    by_cases hproof : e.proofId=some proofId
    · exact .inr ⟨proofId,hold,rfl,hproof⟩
    · exact .inl (by rw [ProofEvent.hold,if_neg hproof])
  | purged now batchSize => exact .inr (.inr (.inr ⟨now,batchSize,rfl,rfl⟩))

theorem Write.next_le (h : Write service w label t) : w.events.next≤t.next := by
  rcases h.shape with rfl | ⟨row,-,rfl⟩ | ⟨f,-,-,rfl⟩ | ⟨now,batchSize,-,rfl⟩
  · exact le_refl _
  · exact le_succ _
  · exact le_refl _
  · exact le_refl _

variable {e : ProofEvent} {i n : Nat}

theorem Write.backward (h : Write service w label t) (he : (i,e)∈t) (hi : i<w.events.next) :
    ∃ e', (i,e')∈w.events ∧ e'.Rewritten e := by
  rcases h.shape with rfl | ⟨row,-,rfl⟩ | ⟨f,hf,-,rfl⟩ | ⟨now,batchSize,-,rfl⟩
  · exact ⟨e,he,.refl e⟩
  · rcases mem_insert.1 he with he | ⟨rfl,-⟩
    · exact ⟨e,he,.refl e⟩
    · exact absurd hi (lt_irrefl _)
  · obtain ⟨e',he',rfl⟩ := mem_update.1 he
    exact ⟨e',he',hf e'⟩
  · exact ⟨e,(mem_delete.1 he).1,.refl e⟩

theorem Write.forward (h : Write service w label t)
    (hp : ∀ now batchSize, label≠.purge now batchSize) (he : (i,e)∈w.events) :
    ∃ e', (i,e')∈t ∧ e.Rewritten e' := by
  rcases h.shape with rfl | ⟨row,-,rfl⟩ | ⟨f,hf,-,rfl⟩ | ⟨now,batchSize,hlabel,-⟩
  · exact ⟨e,he,.refl e⟩
  · exact ⟨e,mem_insert.2 (.inl he),.refl e⟩
  · exact ⟨f e,mem_update.2 ⟨e,he,rfl⟩,hf e⟩
  · exact absurd hlabel (hp now batchSize)

theorem step_write (h : step service w label w') : Write service w label w'.events := by
  rw [← h]
  exact next_write service w label

theorem run_next_le (hr : Run (step service) w tr w') : w.events.next≤w'.events.next := by
  induction hr with
  | nil => exact le_refl _
  | snoc _ hst ih => exact le_trans ih (step_write hst).next_le

theorem run_backward (hr : Run (step service) w tr w') (he : (i,e)∈w'.events)
    (hi : i<w.events.next) : ∃ e', (i,e')∈w.events ∧ e'.Rewritten e := by
  induction hr generalizing e with
  | nil => exact ⟨e,he,.refl e⟩
  | snoc hr hst ih =>
    obtain ⟨e',he',hrewritten⟩ :=
      (step_write hst).backward he (lt_of_lt_of_le hi (run_next_le hr))
    obtain ⟨e'',he'',hbefore⟩ := ih he'
    exact ⟨e'',he'',hbefore.trans hrewritten⟩

theorem run_forward (hr : Run (step service) w tr w')
    (hp : ∀ ev∈tr, ∀ now batchSize, ev.label≠.purge now batchSize) (he : (i,e)∈w.events) :
    ∃ e', (i,e')∈w'.events ∧ e.Rewritten e' := by
  induction hr with
  | nil => exact ⟨e,he,.refl e⟩
  | snoc _ hst ih =>
    obtain ⟨e',he',hrewritten⟩ := ih fun ev hev => hp ev (mem_cons_of_mem _ hev)
    obtain ⟨e'',he'',hstep⟩ := (step_write hst).forward (hp _ mem_cons_self) he'
    exact ⟨e'',he'',hrewritten.trans hstep⟩

theorem inFlight_shape (service : Service) (w : World) (label : Label) :
    (next service w label).inFlight=w.inFlight ∨
    (∃ request now registration, label=.arrive request now ∧
      accept service w request now=.ok registration ∧
      (next service w label).inFlight=w.inFlight.insert registration) ∨
    ∃ n, (next service w label).inFlight=w.inFlight.delete [n] := by
  cases label with
  | arrive request now =>
    cases haccept : accept service w request now with
    | error reply => exact .inl (by simp only [next,haccept])
    | ok registration =>
      exact .inr (.inl ⟨request,now,registration,rfl,haccept,by simp only [next,haccept]⟩)
  | store n =>
    simp only [next]
    split
    · exact .inl rfl
    · exact .inr (.inr ⟨n,rfl⟩)
  | record media => exact .inl rfl
  | index raw contractId =>
    simp only [next]
    split
    · exact .inl rfl
    · exact .inl rfl
  | reconcile call =>
    simp only [next]
    split
    · exact .inl rfl
    · exact .inl rfl
  | setLegalHold proofId hold => exact .inl rfl
  | purge now batchSize => exact .inl rfl

variable {registration : Registration}

theorem inFlight_next (h : (n,registration)∈(next service w label).inFlight) :
    (n,registration)∈w.inFlight ∨ ∃ request now, label=.arrive request now ∧
      n=w.inFlight.next ∧ accept service w request now=.ok registration := by
  rcases inFlight_shape service w label with
    hsame | ⟨request,now,accepted,hlabel,haccept,hadded⟩ | ⟨m,hdone⟩
  · rw [hsame] at h
    exact .inl h
  · rw [hadded] at h
    rcases mem_insert.1 h with h | ⟨rfl,rfl⟩
    · exact .inl h
    · exact .inr ⟨request,now,hlabel,rfl,haccept⟩
  · rw [hdone] at h
    exact .inl (mem_delete.1 h).1

theorem inFlight_next_le (service : Service) (w : World) (label : Label) :
    w.inFlight.next≤(next service w label).inFlight.next := by
  rcases inFlight_shape service w label with hsame | ⟨_,_,_,_,_,hadded⟩ | ⟨_,hdone⟩
  · rw [hsame]
  · rw [hadded]
    exact le_succ _
  · rw [hdone]
    exact le_refl _

theorem run_inFlight_next_le (hr : Run (step service) w tr w') :
    w.inFlight.next≤w'.inFlight.next := by
  induction hr with
  | nil => exact le_refl _
  | snoc _ hst ih => exact le_trans ih (hst ▸ inFlight_next_le service _ _)

theorem run_inFlight_backward (hr : Run (step service) w tr w')
    (h : (n,registration)∈w'.inFlight) (hn : n<w.inFlight.next) :
    (n,registration)∈w.inFlight := by
  induction hr with
  | nil => exact h
  | snoc hr hst ih =>
    rw [← hst] at h
    rcases inFlight_next h with h | ⟨_,_,_,rfl,_⟩
    · exact ih h
    · exact absurd hn (not_lt.2 (run_inFlight_next_le hr))

/-- A request in flight was admitted at some step, by the table of that moment. -/
theorem run_admitted (hr : Run (step service) World.empty tr w)
    (h : (n,registration)∈w.inFlight) :
    ∃ ev∈tr, ∃ request now, ev.label=.arrive request now ∧ n=ev.pre.inFlight.next ∧
      accept service ev.pre request now=.ok registration := by
  induction hr with
  | nil => exact absurd h not_mem_empty
  | snoc _ hst ih =>
    rw [← hst] at h
    rcases inFlight_next h with h | ⟨request,now,hlabel,hn,haccept⟩
    · obtain ⟨ev,hev,harrived⟩ := ih h
      exact ⟨ev,mem_cons_of_mem _ hev,harrived⟩
    · exact ⟨_,mem_cons_self,request,now,hlabel,hn,haccept⟩

theorem accept_ok {request : RegisterRequest} {now : Int}
    (h : accept service w request now=.ok registration) :
    ∃ principal, requireRegisterAuth service.config now request=.ok principal ∧
      Admissible principal (fun proofId => .ok (findProofOwner w.events proofId)) request.payload
        registration := by
  unfold accept at h
  split at h
  · cases h
  · next principal hprincipal => exact ⟨principal,hprincipal,registerProofEvent_ok h⟩

/-- A property of rows, possibly of their history, holds of all rows of every run if the writers
give it to new rows and the rewriters keep it. -/
theorem row_rule {P : Trace → ProofEvent → Prop} (hmono : ∀ ev tr e, P tr e → P (ev::tr) e)
    (hregistered : ∀ tr key fields, fields.eventType=.register →
      (fields.txHash.isSome → fields.txStatus=some .pending) → fields.txStatus≠some .revoked →
      P tr (registerRow key fields))
    (hrecorded : ∀ tr (media : MediaEvent), P tr { media.fields with })
    (hindexed : ∀ tr w w' raw default column decoded,
      classifyAndDecodeEvent service.decodeScval raw default=.ok (some decoded) →
      P (⟨w,.index raw default,w'⟩::tr)
        (indexedRow (decoded.fields column) decoded.txHash decoded.eventIndex))
    (hreconciled : ∀ tr w w' call txHash status e, call.asks=some txHash →
      1≤call.minConfirmations → (call.verdict txHash).status.terminal? = some status →
      e.awaits txHash call.force=true → P tr e →
      P (⟨w,.reconcile call,w'⟩::tr) { e with txStatus := some status.1 })
    (hheld : ∀ tr e hold, P tr e → P tr { e with legalHold := hold })
    (hr : Run (step service) World.empty tr w) (he : (i,e)∈w.events) : P tr e := by
  induction hr generalizing i e with
  | nil => exact absurd he not_mem_empty
  | @snoc tr w w' label hr hst ih =>
    have hwrite := step_write hst
    generalize w'.events=t at he hwrite
    cases hwrite with
    | nothing => exact hmono _ _ _ (ih he)
    | registered hflight =>
      rcases mem_insert.1 he with he | ⟨-,rfl⟩
      · exact hmono _ _ _ (ih he)
      obtain ⟨ev,-,request,now,-,-,haccept⟩ := run_admitted hr hflight
      obtain ⟨principal,-,hadmissible⟩ := accept_ok haccept
      exact hregistered _ _ _ hadmissible.eventType hadmissible.withHash hadmissible.status
    | recorded media =>
      rcases mem_insert.1 he with he | ⟨-,rfl⟩
      · exact hmono _ _ _ (ih he)
      · exact hrecorded _ media
    | indexed hdecoded =>
      rcases mem_insert.1 he with he | ⟨-,rfl⟩
      · exact hmono _ _ _ (ih he)
      · exact hindexed _ _ _ _ _ _ _ hdecoded
    | @reconciled call txHash status hasks hmin hverdict =>
      rcases updateTxStatus_table w.events txHash status call.force with hsame | hset
      · rw [hsame] at he
        exact hmono _ _ _ (ih he)
      rw [hset] at he
      obtain ⟨e',he',rfl⟩ := mem_update.1 he
      unfold ProofEvent.settle
      split
      · next hawaits => exact hreconciled _ _ _ _ _ _ _ hasks hmin hverdict hawaits (ih he')
      · exact hmono _ _ _ (ih he')
    | held proofId hold =>
      obtain ⟨e',he',rfl⟩ := mem_update.1 he
      unfold ProofEvent.hold
      split
      · exact hheld _ _ _ (hmono _ _ _ (ih he'))
      · exact hmono _ _ _ (ih he')
    | purged now batchSize => exact hmono _ _ _ (ih (mem_delete.1 he).1)

def openService : Service where
  config := { maxJsonBytes := 4096, maxMetadataBytes := 4096 }
  decodeScval := id

def repeated (c : Char) : Value := .str (List.replicate 64 c)

end Harpocrates.Backend
