import Harpocrates.Backend.Idempotency
import Harpocrates.Framework.Sha256

namespace Harpocrates.Backend.Idempotency

open Framework Framework.Python Rows Option Nat

/-! Equal requests run the view body once: while nobody is taken in by a record that another
request has just inserted, a record has one run, and the other requests get its answer. -/

variable {β : Type} {sha256 : List UInt8 → Text} {w w' : World β} {n : Nat} {client : Client β}

def serverError (code : Int) : Bool := 500 ≤ code && code < 600

/-- The view body ran, or still runs, for the client under the record, and returned no 5xx. -/
def Client.Executed (client : Client β) (id : Nat) : Prop :=
  ∃ run, client.run = some run ∧ run.id = id ∧
    ∀ result, run.outcome = some (.returned result) →
      serverError (extractResponseParts result).2 = false

/-- The reply that repeats what a run stored. -/
def replay : Stored β → Reply β
  | .response status none => ⟨status,.empty⟩
  | .response status (some value) => ⟨status,.json value⟩
  | .error => ⟨500,.object [("error","request processing failed")]⟩

/-- A reply that says that the request is in progress, or repeats what a run for an equal request
stored. -/
def Replays (sha256 : List UInt8 → Text) (w : World β) (key : RequestKey) (reply : Reply β) :
    Prop :=
  reply = duplicateInProgress ∨
    ∃ m first run stored, (m,first) ∈ w.clients ∧ first.request.key sha256 = key ∧
      first.run = some run ∧ run.stored = some stored ∧ reply = replay stored

structure AnsweredOnce (sha256 : List UInt8 → Text) (w : World β) : Prop where
  /-- A record has one run of the view body that returned no 5xx. -/
  once : ∀ {n n' client client' id}, (n,client) ∈ w.clients → (n',client') ∈ w.clients →
    client.Executed id → client'.Executed id → n = n'
  /-- Equal requests have one run that stored something. -/
  single : ∀ {n n' client client' run run' stored stored'}, (n,client) ∈ w.clients →
    (n',client') ∈ w.clients → client.request.key sha256 = client'.request.key sha256 →
    client.run = some run → client'.run = some run' → run.stored = some stored →
    run'.stored = some stored' → n = n'
  /-- What is stored as a response is what the run returned. -/
  faithful : ∀ {n client run status body}, (n,client) ∈ w.clients → client.run = some run →
    run.stored = some (.response status body) →
    ∃ result, run.outcome = some (.returned result) ∧ extractResponseParts result = (body,status)
  /-- The requests that ran nothing are answered by a replay. -/
  replayed : ∀ {n client answer}, (n,client) ∈ w.clients → client.run = none →
    client.stage = .answered answer →
    ∃ reply, answer = .reply reply ∧ Replays sha256 w (client.request.key sha256) reply

/-- The insert of a request does not meet the record of a request still in progress. -/
def InsertsAlone (sha256 : List UInt8 → Text) (e : Event (World β) (Label β)) : Prop :=
  ∀ n client record, e.label = .create n → (n,client) ∈ e.pre.clients →
    getIdempotencyRecord e.pre.records (client.request.key sha256) = some record →
    record.status ≠ .pending

/-- The row of a request whose run has stored this much. -/
def recordOf (key : RequestKey) : Option (Stored β) → Record β
  | none => { key, status := .pending }
  | some (.response status body) =>
    { key, status := .completed, responsePayload := some (.wrapped status body) }
  | some .error => { key, status := .failed, errorPayload := some requestProcessingFailed }

variable {key : RequestKey} {record : Record β} {t : Records β} {id : Nat} {result : ViewResult β}

@[simp] theorem recordOf_key (key : RequestKey) (stored : Option (Stored β)) :
    (recordOf key stored).key=key := by
  rcases stored with _ | ⟨_,_⟩ | _ <;> rfl

theorem recordOf_pending {stored : Option (Stored β)} :
    (recordOf key stored).status=.pending ↔ stored=none := by
  rcases stored with _ | ⟨_,_⟩ | _ <;> simp [recordOf]

theorem recordOf_injective {stored stored' : Option (Stored β)}
    (h : recordOf key stored=recordOf key stored') : stored=stored' := by
  rcases stored with _ | ⟨_,_⟩ | _ <;> rcases stored' with _ | ⟨_,_⟩ | _ <;>
    simp_all [recordOf]

theorem replayStored_recordOf {stored : Stored β}
    (h : ∀ status body, stored=.response status body → status≠0) :
    replayStored (recordOf key (some stored))=replay stored := by
  rcases stored with ⟨status,_ | value⟩ | _
  · simp [replayStored,recordOf,replay,h status none rfl]
  · simp [replayStored,recordOf,replay,h status (some value) rfl]
  · rfl

theorem getIdempotencyRecord_some (h : getIdempotencyRecord t key=some record) :
    ∃ i, (i,record)∈t ∧ record.key=key := by
  obtain ⟨⟨i,found⟩,hfind,rfl⟩ := map_eq_some_iff.1 h
  exact ⟨i,List.mem_of_find?_eq_some hfind,by simpa using List.find?_some hfind⟩

theorem getIdempotencyRecord_none (h : getIdempotencyRecord t key=none) {i : Nat}
    (hmem : (i,record)∈t) : record.key≠key := by
  have hnone := List.find?_eq_none.1 (map_eq_none_iff.1 h) (i,record) hmem
  simpa using hnone

/-- Creating a record either finds one or inserts one for a key that has none. -/
theorem createIdempotencyRecord_cases {records : Records β} {status : RecordStatus}
    (h : createIdempotencyRecord t key=(records,id,status)) :
    (∃ record, getIdempotencyRecord t key=some record ∧ records=t ∧ status=record.status) ∨
      getIdempotencyRecord t key=none ∧ records=t.insert (recordOf key none) ∧ id=t.next ∧
        status=.pending := by
  unfold createIdempotencyRecord at h
  unfold getIdempotencyRecord
  split at h
  · rename_i hnone
    obtain ⟨rfl,hrest⟩ := Prod.mk.inj h
    cases hrest
    exact .inr ⟨by rw [hnone]; rfl,rfl,rfl,rfl⟩
  · rename_i id record hsome
    obtain ⟨rfl,hrest⟩ := Prod.mk.inj h
    cases hrest
    exact .inl ⟨record,by rw [hsome]; rfl,rfl,rfl⟩

/-- The record that a request in its view body, or right after it, works under. -/
def Stage.held : Stage β → Option Nat
  | .running id => some id
  | .storing id _ => some id
  | .failing id => some id
  | _ => none

/-- The run of a request at each stage. -/
def Client.Coherent (client : Client β) : Prop :=
  match client.stage with
  | .looking | .creating | .rereading _ => client.run = none
  | .running id => client.run = some { id }
  | .storing id result => client.run = some { id, outcome := some (.returned result) }
  | .failing id => ∃ outcome, client.run = some { id, outcome := some outcome }
  | .answered _ | .crashed => True

/-- A response is stored as the run returned it. -/
def ViewRun.Truthful (run : ViewRun β) : Prop :=
  ∀ status body, run.stored = some (.response status body) →
    ∃ result, run.outcome = some (.returned result) ∧
      extractResponseParts result = (body,status) ∧ status ≠ 0

/-- One request against the table. -/
structure ClientOk (sha256 : List UInt8 → Text) (t : Records β) (client : Client β) : Prop where
  coherent : client.Coherent
  truthful : ∀ run, client.run = some run → run.Truthful
  fresh : ∀ run, client.run = some run → run.id < t.next
  present : ∀ run, client.run = some run →
    (client.stage.held = some run.id ∨ run.stored ≠ none) →
    (run.id,recordOf (client.request.key sha256) run.stored) ∈ t
  known : ∀ status, client.stage = .rereading status →
    ∃ i record, (i,record) ∈ t ∧ record.key = client.request.key sha256 ∧ record.status ≠ .pending

structure Inv (sha256 : List UInt8 → Text) (w : World β) : Prop where
  keys : ∀ {i j record record'}, (i,record) ∈ w.records → (j,record') ∈ w.records →
    record.key = record'.key → i = j
  clients : ∀ {n client}, (n,client) ∈ w.clients → ClientOk sha256 w.records client
  owned : ∀ {i record}, (i,record) ∈ w.records → ∃ n client run, (n,client) ∈ w.clients ∧
    client.run = some run ∧ run.id = i ∧
    record = recordOf (client.request.key sha256) run.stored
  apart : ∀ {n n' client client' run run'}, (n,client) ∈ w.clients → (n',client') ∈ w.clients →
    client.run = some run → client'.run = some run' → run.id = run'.id → n = n'
  replayed : ∀ {n client answer}, (n,client) ∈ w.clients → client.run = none →
    client.stage = .answered answer →
    ∃ reply, answer = .reply reply ∧ Replays sha256 w (client.request.key sha256) reply

theorem inv_empty : Inv sha256 (World.empty : World β) where
  keys h := absurd h not_mem_empty
  clients h := absurd h not_mem_empty
  owned h := absurd h not_mem_empty
  apart h := absurd h not_mem_empty
  replayed h := absurd h not_mem_empty

theorem Inv.own_row (h : Inv sha256 w) (hmem : (n,client)∈w.clients) {run : ViewRun β}
    (hrun : client.run=some run) (hrow : (run.id,record)∈w.records) :
    record=recordOf (client.request.key sha256) run.stored := by
  obtain ⟨m,owner,run',howner,hrun',hid,rfl⟩ := h.owned hrow
  obtain rfl := h.apart howner hmem hrun' hrun hid
  obtain rfl := row_unique howner hmem
  cases hrun'.symm.trans hrun
  rfl

/-- A record that is found is replayed as what a run stored. -/
theorem Inv.replays (h : Inv sha256 w) {i : Nat} (hrow : (i,record)∈w.records) :
    Replays sha256 w record.key (replayStored record) := by
  obtain ⟨m,first,run,hfirst,hrun,-,rfl⟩ := h.owned hrow
  rw [recordOf_key]
  cases hstored : run.stored with
  | none => exact .inl rfl
  | some stored =>
    refine .inr ⟨m,first,run,stored,hfirst,rfl,hrun,hstored,replayStored_recordOf ?_⟩
    intro status body hresponse
    obtain ⟨-,-,-,hzero⟩ := (h.clients hfirst).truthful run hrun status body
      (by rw [hstored,hresponse])
    exact hzero

theorem ClientOk.mono {t' : Records β} (h : ClientOk sha256 t client) (hnext : t.next≤t'.next)
    (hrows : ∀ i record, (i,record)∈t →
      (record.status≠.pending ∨ ∃ run, client.run=some run ∧ run.id=i) → (i,record)∈t') :
    ClientOk sha256 t' client where
  coherent := h.coherent
  truthful := h.truthful
  fresh run hrun := lt_of_lt_of_le (h.fresh run hrun) hnext
  present run hrun hkept := hrows _ _ (h.present run hrun hkept) (.inr ⟨run,hrun,rfl⟩)
  known status hstage := by
    obtain ⟨i,record,hrow,hkey,hstatus⟩ := h.known status hstage
    exact ⟨i,record,hrows i record hrow (.inl hstatus),hkey,hstatus⟩

theorem Replays.mono {reply : Reply β} (h : Replays sha256 w key reply)
    (hclients : ∀ m first run stored, (m,first)∈w.clients → first.run=some run →
      run.stored=some stored → ∃ first' run', (m,first')∈w'.clients ∧
        first'.request=first.request ∧ first'.run=some run' ∧ run'.stored=some stored) :
    Replays sha256 w' key reply := by
  rcases h with hbusy | ⟨m,first,run,stored,hmem,hkey,hrun,hstored,hreply⟩
  · exact .inl hbusy
  · obtain ⟨first',run',hmem',hreq,hrun',hstored'⟩ := hclients m first run stored hmem hrun hstored
    exact .inr ⟨m,first',run',stored,hmem',by rw [hreq,hkey],hrun',hstored',hreply⟩

/-- A step of one client that changes no row but that of its own run. -/
structure Moves (sha256 : List UInt8 → Text) (w : World β) (client : Client β) (t' : Records β)
    (client' : Client β) : Prop where
  request : client'.request = client.request
  id : client'.run.map (·.id) = client.run.map (·.id)
  next : t'.next = w.records.next
  others : ∀ i record, client.run.map (·.id) ≠ some i →
    ((i,record) ∈ t' ↔ (i,record) ∈ w.records)
  finished : ∀ i record, (i,record) ∈ w.records → record.status ≠ .pending → (i,record) ∈ t'
  own : ∀ run record, client'.run = some run → (run.id,record) ∈ t' →
    record = recordOf (client'.request.key sha256) run.stored ∧ ∃ old, (run.id,old) ∈ w.records
  ok : ClientOk sha256 t' client'
  replayed : ∀ answer, client'.run = none → client'.stage = .answered answer →
    ∃ reply, answer = .reply reply ∧ Replays sha256 w (client'.request.key sha256) reply

namespace Moves

variable {t' : Records β} {client' : Client β}

theorem run_before (hm : Moves sha256 w client t' client') {run' : ViewRun β}
    (hrun' : client'.run=some run') : ∃ run, client.run=some run ∧ run.id=run'.id := by
  have hid := hm.id
  rw [hrun',map_some] at hid
  obtain ⟨run,hrun,heq⟩ := map_eq_some_iff.1 hid.symm
  exact ⟨run,hrun,heq⟩

theorem run_after (hm : Moves sha256 w client t' client') {run : ViewRun β}
    (hrun : client.run=some run) : ∃ run', client'.run=some run' ∧ run'.id=run.id := by
  have hid := hm.id
  rw [hrun,map_some] at hid
  obtain ⟨run',hrun',heq⟩ := map_eq_some_iff.1 hid
  exact ⟨run',hrun',heq⟩

/-- A row after the step stands where a row of the same key stood. -/
theorem old_row (hm : Moves sha256 w client t' client') (h : Inv sha256 w)
    (hmem : (n,client)∈w.clients) {i : Nat} (hrow : (i,record)∈t') :
    ∃ old, (i,old)∈w.records ∧ old.key=record.key := by
  by_cases hi : client.run.map (·.id)=some i
  · obtain ⟨run,hrun,rfl⟩ := map_eq_some_iff.1 hi
    obtain ⟨run',hrun',hid⟩ := hm.run_after hrun
    rw [← hid] at hrow
    obtain ⟨rfl,old,hold⟩ := hm.own run' record hrun' hrow
    rw [hid] at hold
    refine ⟨old,hold,?_⟩
    rw [h.own_row hmem hrun hold,recordOf_key,recordOf_key,hm.request]
  · exact ⟨record,(hm.others i record hi).1 hrow,rfl⟩

theorem stored_after (hm : Moves sha256 w client t' client') (h : Inv sha256 w)
    (hmem : (n,client)∈w.clients) {run : ViewRun β} {stored : Stored β}
    (hrun : client.run=some run) (hstored : run.stored=some stored) :
    ∃ run', client'.run=some run' ∧ run'.stored=some stored := by
  obtain ⟨run',hrun',hid⟩ := hm.run_after hrun
  have hrow := (h.clients hmem).present run hrun (.inr (by rw [hstored]; simp))
  have hkept := hm.finished _ _ hrow (by rw [ne_eq,recordOf_pending,hstored]; simp)
  rw [← hid] at hkept
  obtain ⟨heq,-⟩ := hm.own run' _ hrun' hkept
  rw [hm.request] at heq
  exact ⟨run',hrun',(recordOf_injective heq).symm.trans hstored⟩

theorem inv (hm : Moves sha256 w client t' client') (h : Inv sha256 w)
    (hmem : (n,client)∈w.clients) :
    Inv sha256 ⟨t',w.clients.modify n fun _ => client'⟩ := by
  have hclients : ∀ {m q}, (m,q)∈w.clients.modify n (fun _ => client') →
      m=n ∧ q=client' ∨ m≠n ∧ (m,q)∈w.clients :=
    fun hq => (mem_modify_const hmem).1 hq
  have hnew : (n,client')∈w.clients.modify n (fun _ => client') :=
    (mem_modify_const hmem).2 (.inl ⟨rfl,rfl⟩)
  have hstay : ∀ {m q}, m≠n → (m,q)∈w.clients →
      (m,q)∈w.clients.modify n (fun _ => client') :=
    fun hne hq => (mem_modify_const hmem).2 (.inr ⟨hne,hq⟩)
  -- the runs of the other clients are under other records
  have hother : ∀ {m q run}, m≠n → (m,q)∈w.clients → q.run=some run →
      client.run.map (·.id)≠some run.id := by
    intro m q run hne hq hrun hid
    obtain ⟨run₀,hrun₀,heq⟩ := map_eq_some_iff.1 hid
    exact hne (h.apart hq hmem hrun hrun₀ heq.symm)
  have hreplays : ∀ {key reply}, Replays sha256 w key reply →
      Replays sha256 ⟨t',w.clients.modify n fun _ => client'⟩ key reply := by
    intro key reply hrep
    refine hrep.mono fun m first run stored hfirst hrun hstored => ?_
    by_cases hmn : m=n
    · subst hmn
      obtain rfl := row_unique hfirst hmem
      obtain ⟨run',hrun',hstored'⟩ := hm.stored_after h hmem hrun hstored
      exact ⟨client',run',hnew,hm.request,hrun',hstored'⟩
    · exact ⟨first,run,hstay hmn hfirst,rfl,hrun,hstored⟩
  constructor
  case keys =>
    intro i j record record' hi hj hkey
    obtain ⟨old,hold,hk⟩ := hm.old_row h hmem hi
    obtain ⟨old',hold',hk'⟩ := hm.old_row h hmem hj
    exact h.keys hold hold' (hk.trans (hkey.trans hk'.symm))
  case clients =>
    intro m q hq
    rcases hclients hq with ⟨rfl,rfl⟩ | ⟨hne,hq⟩
    · exact hm.ok
    · refine (h.clients hq).mono hm.next.ge fun i record hrow hwhy => ?_
      rcases hwhy with hstatus | ⟨run,hrun,rfl⟩
      · exact hm.finished i record hrow hstatus
      · exact (hm.others _ record (hother hne hq hrun)).2 hrow
  case owned =>
    intro i record hrow
    by_cases hi : client.run.map (·.id)=some i
    · obtain ⟨run,hrun,rfl⟩ := map_eq_some_iff.1 hi
      obtain ⟨run',hrun',hid⟩ := hm.run_after hrun
      rw [← hid] at hrow
      exact ⟨n,client',run',hnew,hrun',hid,(hm.own run' record hrun' hrow).1⟩
    · obtain ⟨m,q,run,hq,hrun,hid,heq⟩ := h.owned ((hm.others i record hi).1 hrow)
      have hne : m≠n := by
        rintro rfl
        obtain rfl := row_unique hq hmem
        exact hi (by rw [hrun,map_some,hid])
      exact ⟨m,q,run,hstay hne hq,hrun,hid,heq⟩
  case apart =>
    intro m m' q q' run run' hq hq' hrun hrun' hid
    rcases hclients hq with ⟨rfl,rfl⟩ | ⟨-,hold⟩
    · rcases hclients hq' with ⟨rfl,rfl⟩ | ⟨-,hq'⟩
      · rfl
      · obtain ⟨run₀,hrun₀,hid₀⟩ := hm.run_before hrun
        exact h.apart hmem hq' hrun₀ hrun' (hid₀.trans hid)
    · rcases hclients hq' with ⟨rfl,rfl⟩ | ⟨-,hq'⟩
      · obtain ⟨run₀,hrun₀,hid₀⟩ := hm.run_before hrun'
        exact h.apart hold hmem hrun hrun₀ (hid.trans hid₀.symm)
      · exact h.apart hold hq' hrun hrun' hid
  case replayed =>
    intro m q answer hq hrun hstage
    rcases hclients hq with ⟨rfl,rfl⟩ | ⟨hne,hq⟩
    · obtain ⟨reply,hanswer,hrep⟩ := hm.replayed answer hrun hstage
      exact ⟨reply,hanswer,hreplays hrep⟩
    · obtain ⟨reply,hanswer,hrep⟩ := h.replayed hq hrun hstage
      exact ⟨reply,hanswer,hreplays hrep⟩

end Moves

/-- A step of one client that leaves the table and what it ran and stored. -/
theorem Inv.restage (h : Inv sha256 w) (hmem : (n,client)∈w.clients) {client' : Client β}
    (hrequest : client'.request=client.request)
    (hrun : client'.run.map (fun run => (run.id,run.stored)) =
      client.run.map fun run => (run.id,run.stored))
    (hok : ClientOk sha256 w.records client')
    (hreplayed : ∀ answer, client'.run=none → client'.stage=.answered answer →
      ∃ reply, answer=.reply reply ∧ Replays sha256 w (client'.request.key sha256) reply) :
    Inv sha256 (w.move n client') := by
  have hm : Moves sha256 w client w.records client' := by
    refine ⟨hrequest,?_,rfl,fun _ _ _ => .rfl,fun _ _ hrow _ => hrow,?_,hok,hreplayed⟩
    · have hfst := congrArg (Option.map Prod.fst) hrun
      rw [map_map,map_map] at hfst
      exact hfst
    · intro run' record hrun' hrow
      rw [hrun',map_some] at hrun
      obtain ⟨run,hrun₀,heq⟩ := map_eq_some_iff.1 hrun.symm
      obtain ⟨hid,hstored⟩ := Prod.mk.inj heq
      rw [← hid] at hrow
      refine ⟨?_,record,hid ▸ hrow⟩
      rw [h.own_row hmem hrun₀ hrow,hrequest,hstored]
  exact hm.inv h hmem

theorem Client.Coherent.run_of_held (h : client.Coherent) (hheld : client.stage.held=some id) :
    ∃ run, client.run=some run ∧ run.id=id ∧ run.stored=none := by
  unfold Client.Coherent at h
  cases hstage : client.stage <;> rw [hstage] at h hheld
  case running =>
    cases hheld
    exact ⟨_,h,rfl,rfl⟩
  case storing =>
    cases hheld
    exact ⟨_,h,rfl,rfl⟩
  case failing =>
    cases hheld
    obtain ⟨outcome,hrun⟩ := h
    exact ⟨_,hrun,rfl,rfl⟩
  all_goals cases hheld

theorem Inv.held_row (h : Inv sha256 w) (hmem : (n,client)∈w.clients)
    (hheld : client.stage.held=some id) (record : Record β) :
    (id,record)∈w.records ↔ record=recordOf (client.request.key sha256) none := by
  obtain ⟨run,hrun,rfl,hstored⟩ := (h.clients hmem).coherent.run_of_held hheld
  constructor
  · intro hrow
    rw [h.own_row hmem hrun hrow,hstored]
  · rintro rfl
    rw [← hstored]
    exact (h.clients hmem).present run hrun (.inl hheld)

theorem Inv.write (h : Inv sha256 w) (hmem : (n,client)∈w.clients) {t' : Records β}
    {run' : ViewRun β} {answer : Answer β} (hheld : client.stage.held=some run'.id)
    (hnext : t'.next=w.records.next)
    (hothers : ∀ i record, i≠run'.id → ((i,record)∈t' ↔ (i,record)∈w.records))
    (hown : ∀ record, (run'.id,record)∈t' →
      record=recordOf (client.request.key sha256) run'.stored)
    (hpresent : run'.stored≠none →
      (run'.id,recordOf (client.request.key sha256) run'.stored)∈t')
    (htruthful : run'.Truthful) :
    Inv sha256 ⟨t',w.clients.modify n fun _ =>
      { client with stage := .answered answer, run := some run' }⟩ := by
  obtain ⟨run,hrun,hid,-⟩ := (h.clients hmem).coherent.run_of_held hheld
  have hpending := h.held_row hmem hheld
  have hm : Moves sha256 w client t'
      { client with stage := .answered answer, run := some run' } := by
    constructor
    case request => rfl
    case id => rw [hrun,map_some,map_some,hid]
    case next => exact hnext
    case others =>
      intro i record hi
      refine hothers i record fun heq => hi ?_
      rw [hrun,map_some,hid,heq]
    case finished =>
      intro i record hrow hstatus
      refine (hothers i record ?_).2 hrow
      rintro rfl
      obtain rfl := (hpending record).1 hrow
      exact hstatus rfl
    case own =>
      intro run₁ record hrun₁ hrow
      cases hrun₁
      exact ⟨hown record hrow,_,(hpending _).2 rfl⟩
    case ok =>
      constructor
      case coherent => trivial
      case truthful =>
        intro run₁ hrun₁
        cases hrun₁
        exact htruthful
      case fresh =>
        intro run₁ hrun₁
        cases hrun₁
        rw [hnext,← hid]
        exact (h.clients hmem).fresh run hrun
      case present =>
        intro run₁ hrun₁ hwhy
        cases hrun₁
        rcases hwhy with hnot | hstored
        · cases hnot
        · exact hpresent hstored
      case known => exact nofun
    case replayed => exact nofun
  exact hm.inv h hmem

theorem Inv.arrive (h : Inv sha256 w) (request : Request) :
    Inv sha256 { w with clients := w.clients.insert { request } } := by
  have hclients : ∀ {m q}, (m,q)∈w.clients.insert { request } →
      (m,q)∈w.clients ∨ m=w.clients.next ∧ q={ request } := mem_insert.1
  have hstay : ∀ {m q}, (m,q)∈w.clients → (m,q)∈w.clients.insert { request } :=
    fun hq => mem_insert.2 (.inl hq)
  constructor
  case keys => exact h.keys
  case clients =>
    intro m q hq
    rcases hclients hq with hq | ⟨-,rfl⟩
    · exact h.clients hq
    · refine ⟨rfl,?_,?_,?_,?_⟩
      all_goals
        intro _ hnothing
        cases hnothing
  case owned =>
    intro i record hrow
    obtain ⟨m,q,run,hq,hrest⟩ := h.owned hrow
    exact ⟨m,q,run,hstay hq,hrest⟩
  case apart =>
    intro m m' q q' run run' hq hq' hrun hrun' hid
    rcases hclients hq with hq | ⟨-,rfl⟩
    · rcases hclients hq' with hq' | ⟨-,rfl⟩
      · exact h.apart hq hq' hrun hrun' hid
      · cases hrun'
    · cases hrun
  case replayed =>
    intro m q answer hq hrun hstage
    rcases hclients hq with hq | ⟨-,rfl⟩
    · obtain ⟨reply,hanswer,hrep⟩ := h.replayed hq hrun hstage
      refine ⟨reply,hanswer,hrep.mono ?_⟩
      exact fun m first run stored hfirst hrun hstored =>
        ⟨first,run,hstay hfirst,rfl,hrun,hstored⟩
    · cases hstage

theorem Inv.inserted (h : Inv sha256 w) (hmem : (n,client)∈w.clients)
    (hstage : client.stage=.creating)
    (hnone : getIdempotencyRecord w.records (client.request.key sha256)=none) :
    Inv sha256 ({ w with
      records := w.records.insert (recordOf (client.request.key sha256) none) }.move n
        (client.created w.records.next .pending)) := by
  have hrun : client.run=none := by
    have hc := (h.clients hmem).coherent
    unfold Client.Coherent at hc
    rw [hstage] at hc
    exact hc
  have hclients : ∀ {m q}, (m,q)∈w.clients.modify n
      (fun _ => client.created w.records.next .pending) →
      m=n ∧ q=client.created w.records.next .pending ∨ m≠n ∧ (m,q)∈w.clients :=
    fun hq => (mem_modify_const hmem).1 hq
  have hnew : (n,client.created w.records.next .pending)∈w.clients.modify n
      (fun _ => client.created w.records.next .pending) :=
    (mem_modify_const hmem).2 (.inl ⟨rfl,rfl⟩)
  have hstay : ∀ {m q run}, (m,q)∈w.clients → q.run=some run →
      (m,q)∈w.clients.modify n (fun _ => client.created w.records.next .pending) := by
    intro m q run hq hsome
    refine (mem_modify_const hmem).2 (.inr ⟨?_,hq⟩)
    rintro rfl
    obtain rfl := row_unique hq hmem
    rw [hrun] at hsome
    cases hsome
  have hnewrun : (client.created w.records.next .pending).run=some { id := w.records.next } :=
    rfl
  constructor
  case keys =>
    intro i j record record' hi hj hkey
    rcases mem_insert.1 hi with hi | ⟨rfl,rfl⟩
    · rcases mem_insert.1 hj with hj | ⟨rfl,rfl⟩
      · exact h.keys hi hj hkey
      · exact absurd hkey (getIdempotencyRecord_none hnone hi)
    · rcases mem_insert.1 hj with hj | ⟨rfl,rfl⟩
      · exact absurd hkey.symm (getIdempotencyRecord_none hnone hj)
      · rfl
  case clients =>
    intro m q hq
    rcases hclients hq with ⟨rfl,rfl⟩ | ⟨-,hq⟩
    · constructor
      case coherent => rfl
      case truthful =>
        intro run hsome
        cases hnewrun.symm.trans hsome
        exact nofun
      case fresh =>
        intro run hsome
        cases hnewrun.symm.trans hsome
        exact Nat.lt_succ_self _
      case present =>
        intro run hsome _
        cases hnewrun.symm.trans hsome
        exact mem_insert.2 (.inr ⟨rfl,rfl⟩)
      case known => exact nofun
    · exact (h.clients hq).mono (Nat.le_succ _) fun i record hrow _ =>
        mem_insert.2 (.inl hrow)
  case owned =>
    intro i record hrow
    rcases mem_insert.1 hrow with hrow | ⟨rfl,rfl⟩
    · obtain ⟨m,q,run,hq,hsome,hrest⟩ := h.owned hrow
      exact ⟨m,q,run,hstay hq hsome,hsome,hrest⟩
    · exact ⟨n,_,_,hnew,hnewrun,rfl,rfl⟩
  case apart =>
    intro m m' q q' run run' hq hq' hsome hsome' hid
    rcases hclients hq with ⟨rfl,rfl⟩ | ⟨-,hold⟩
    · rcases hclients hq' with ⟨rfl,rfl⟩ | ⟨-,hold'⟩
      · rfl
      · cases hnewrun.symm.trans hsome
        exact absurd hid (Nat.ne_of_gt ((h.clients hold').fresh run' hsome'))
    · rcases hclients hq' with ⟨rfl,rfl⟩ | ⟨-,hold'⟩
      · cases hnewrun.symm.trans hsome'
        exact absurd hid (Nat.ne_of_lt ((h.clients hold).fresh run hsome))
      · exact h.apart hold hold' hsome hsome' hid
  case replayed =>
    intro m q answer hq hnorun hanswered
    rcases hclients hq with ⟨rfl,rfl⟩ | ⟨-,hq⟩
    · cases hnorun
    · obtain ⟨reply,hanswer,hrep⟩ := h.replayed hq hnorun hanswered
      refine ⟨reply,hanswer,hrep.mono ?_⟩
      exact fun m first run stored hfirst hsome hstored =>
        ⟨first,run,hstay hfirst hsome,rfl,hsome,hstored⟩

theorem settle_other {i : Nat} (hi : i≠id) :
    (i,record)∈settle t id result ↔ (i,record)∈t := by
  unfold settle
  dsimp only
  split
  · simp [storeResponse,hi]
  · unfold clearIdempotencyRecord
    split
    · simp [hi]
    · rfl

theorem settle_next : (settle t id result).next=t.next := by
  unfold settle
  dsimp only
  split
  · rfl
  · unfold clearIdempotencyRecord
    split
    · rfl
    · rfl

/-- The row of a run that has returned, when it was pending before. -/
theorem settle_own (hpending : ∀ record, (id,record)∈t ↔ record=recordOf key none) :
    (id,record)∈settle t id result ↔
      stored result≠none ∧ record=recordOf key (stored result) := by
  unfold settle stored
  dsimp only
  split
  · simp only [storeResponse,mem_modify,if_true,hpending]
    constructor
    · rintro ⟨old,rfl,rfl⟩
      exact ⟨by simp,rfl⟩
    · rintro ⟨-,rfl⟩
      exact ⟨_,rfl,rfl⟩
  · have hany : (t.entries.any fun e => e.1=id && e.2.status=.pending)=true := by
      refine List.any_eq_true.2 ⟨(id,recordOf key none),(hpending _).2 rfl,?_⟩
      simp [recordOf]
    rw [clearIdempotencyRecord,if_pos hany]
    simp

theorem stored_truthful (id : Nat) (result : ViewResult β) :
    ViewRun.Truthful
      { id, outcome := some (.returned result), stored := stored result } := by
  intro status body hstored
  refine ⟨result,rfl,?_⟩
  unfold stored at hstored
  dsimp only at hstored
  split at hstored
  · rename_i hcode
    cases hstored
    refine ⟨rfl,?_⟩
    simp only [storable,Bool.and_eq_true,decide_eq_true_eq] at hcode
    omega
  · cases hstored

theorem clientOk_idle (hcoherent : client.Coherent) (hrun : client.run=none)
    (hknown : ∀ status, client.stage=.rereading status →
      ∃ i record, (i,record)∈t ∧ record.key=client.request.key sha256 ∧
        record.status≠.pending) : ClientOk sha256 t client := by
  refine ⟨hcoherent,?_,?_,?_,hknown⟩
  all_goals
    intro run hsome
    rw [hrun] at hsome
    cases hsome

theorem Inv.lookup (h : Inv sha256 w) (hmem : (n,client)∈w.clients)
    (hrun : client.run=none) :
    Inv sha256 (w.move n { client with
      stage := afterLookup (getIdempotencyRecord w.records (client.request.key sha256)) }) := by
  cases hfound : getIdempotencyRecord w.records (client.request.key sha256) with
  | none =>
    refine h.restage hmem rfl rfl (clientOk_idle hrun hrun ?_) ?_
    · exact nofun
    · exact nofun
  | some record =>
    obtain ⟨i,hrow,hkey⟩ := getIdempotencyRecord_some hfound
    refine h.restage hmem rfl rfl (clientOk_idle trivial hrun ?_) ?_
    · exact nofun
    · intro answer _ hanswer
      cases hanswer
      exact ⟨_,rfl,hkey ▸ h.replays hrow⟩

/-- A request whose insert found a record that is no longer pending. -/
theorem Inv.found (h : Inv sha256 w) (hmem : (n,client)∈w.clients) (hrun : client.run=none)
    (hfound : getIdempotencyRecord w.records (client.request.key sha256)=some record)
    (hstatus : record.status≠.pending) (id : Nat) :
    Inv sha256 (w.move n (client.created id record.status)) := by
  obtain ⟨i,hrow,hkey⟩ := getIdempotencyRecord_some hfound
  have hcreated : client.created id record.status =
      { client with stage := .rereading record.status, run := none } := by
    simp [Client.created,afterCreate,hstatus]
  rw [hcreated]
  refine h.restage hmem rfl (by rw [hrun]) (clientOk_idle rfl rfl ?_) ?_
  · exact fun _ _ => ⟨i,record,hrow,hkey,hstatus⟩
  · exact nofun

theorem Inv.reread (h : Inv sha256 w) (hmem : (n,client)∈w.clients) (hrun : client.run=none)
    {status : RecordStatus} (hstage : client.stage=.rereading status) :
    Inv sha256 (w.move n { client with
      stage := afterReread (client.request.key sha256) status
        (getIdempotencyRecord w.records (client.request.key sha256)) }) := by
  refine h.restage hmem rfl rfl (clientOk_idle trivial hrun ?_) ?_
  · exact nofun
  · intro answer _ hanswer
    cases hanswer
    cases hfound : getIdempotencyRecord w.records (client.request.key sha256) with
    | none =>
      obtain ⟨i,record,hrow,hkey,-⟩ := (h.clients hmem).known status hstage
      exact absurd hkey (getIdempotencyRecord_none hfound hrow)
    | some record =>
      obtain ⟨i,hrow,hkey⟩ := getIdempotencyRecord_some hfound
      exact ⟨_,rfl,hkey ▸ h.replays hrow⟩

/-- A step of a client within its view body, or out of it into the clean-up. -/
theorem Inv.within (h : Inv sha256 w) (hmem : (n,client)∈w.clients) {stage : Stage β}
    {run' : ViewRun β} (hheld : client.stage.held=some run'.id) (hstored : run'.stored=none)
    (hstage : stage.held=some run'.id)
    (hcoherent : ({ client with stage, run := some run' } : Client β).Coherent) :
    Inv sha256 (w.move n { client with stage, run := some run' }) := by
  obtain ⟨run,hrun,hid,hnone⟩ := (h.clients hmem).coherent.run_of_held hheld
  have hrow := (h.held_row hmem hheld _).2 rfl
  refine h.restage hmem rfl (by simp [hrun,hid,hnone,hstored]) ⟨hcoherent,?_,?_,?_,?_⟩ ?_
  · intro run₁ hrun₁
    cases hrun₁
    intro status body hresponse
    rw [hstored] at hresponse
    cases hresponse
  · intro run₁ hrun₁
    cases hrun₁
    exact hid ▸ (h.clients hmem).fresh run hrun
  · intro run₁ hrun₁ _
    cases hrun₁
    rw [hstored]
    exact hrow
  · intro status hother
    obtain rfl : stage=.rereading status := hother
    cases hstage
  · exact nofun

theorem Inv.settled (h : Inv sha256 w) (hmem : (n,client)∈w.clients)
    (hheld : client.stage.held=some id) :
    Inv sha256 ({ w with records := settle w.records id result }.move n
      { client with
        stage := .answered (.result result)
        run := some { id, outcome := some (.returned result), stored := stored result } }) := by
  have hpending := h.held_row hmem hheld
  refine h.write hmem hheld settle_next (fun i record hi => settle_other hi) ?_ ?_
    (stored_truthful id result)
  · exact fun record hrow => ((settle_own hpending).1 hrow).2
  · exact fun hstored => (settle_own hpending).2 ⟨hstored,rfl⟩

theorem Inv.errorStored (h : Inv sha256 w) (hmem : (n,client)∈w.clients)
    (hheld : client.stage.held=some id) :
    Inv sha256 ({ w with records := storeError w.records id requestProcessingFailed }.move n
      { client with
        stage := .answered .raised
        run := client.run.map ViewRun.errorStored }) := by
  obtain ⟨run,hrun,rfl,-⟩ := (h.clients hmem).coherent.run_of_held hheld
  have hpending := h.held_row hmem hheld
  rw [hrun]
  refine h.write hmem (show client.stage.held=some run.errorStored.id from hheld) rfl ?_ ?_ ?_ ?_
  · intro i record hi
    have hne : i≠run.id := hi
    simp [storeError,hne]
  · intro record hrow
    obtain ⟨old,hold,rfl⟩ := mem_modify.1 hrow
    rw [(hpending old).1 hold]
    exact if_pos rfl
  · intro _
    exact mem_modify.2 ⟨_,(hpending _).2 rfl,if_pos rfl⟩
  · exact nofun

theorem step_inv {label : Label β} (h : Inv sha256 w) (hstep : Step sha256 w label w')
    (halone : InsertsAlone sha256 ⟨w,label,w'⟩) : Inv sha256 w' := by
  have hcoherent : ∀ {n client}, (n,client)∈w.clients → client.Coherent :=
    fun hmem => (h.clients hmem).coherent
  cases hstep with
  | arrive => exact h.arrive _
  | @lookup n client hmem hstage =>
    have hrun := hcoherent hmem
    rw [Client.Coherent,hstage] at hrun
    exact h.lookup hmem hrun
  | @create n client records id status hmem hstage hcreate =>
    have hrun := hcoherent hmem
    rw [Client.Coherent,hstage] at hrun
    rcases createIdempotencyRecord_cases hcreate with ⟨record,hfound,rfl,rfl⟩ |
      ⟨hnone,rfl,rfl,rfl⟩
    · exact h.found hmem hrun hfound (halone n client record rfl hmem hfound) id
    · exact h.inserted hmem hstage hnone
  | @reread n client status hmem hstage =>
    have hrun := hcoherent hmem
    rw [Client.Coherent,hstage] at hrun
    exact h.reread hmem hrun hstage
  | @view n client id outcome hmem hstage =>
    have hheld : client.stage.held=some id := by rw [hstage]; rfl
    cases outcome with
    | returned result => exact h.within hmem hheld rfl rfl rfl
    | raised => exact h.within hmem hheld rfl rfl ⟨_,rfl⟩
  | @settle n client id result hmem hstage => exact h.settled hmem (by rw [hstage]; rfl)
  | @settleFails n client id result hmem hstage =>
    have hheld : client.stage.held=some id := by rw [hstage]; rfl
    have hrun := hcoherent hmem
    rw [Client.Coherent,hstage] at hrun
    have hsame : Inv sha256 (w.move n { client with
        stage := .failing id
        run := some { id, outcome := some (.returned result) } }) :=
      h.within hmem hheld rfl rfl ⟨_,rfl⟩
    rw [← hrun] at hsame
    exact hsame
  | @storeError n client id hmem hstage => exact h.errorStored hmem (by rw [hstage]; rfl)
  | @crash n client hmem hwaiting =>
    have hok := h.clients hmem
    refine h.restage hmem rfl rfl ⟨trivial,hok.truthful,hok.fresh,?_,?_⟩ ?_
    · intro run hsome hwhy
      rcases hwhy with hnot | hstored
      · cases hnot
      · exact hok.present run hsome (.inr hstored)
    · exact nofun
    · exact nofun

theorem Inv.answeredOnce (h : Inv sha256 w) : AnsweredOnce sha256 w where
  once := by
    rintro n n' client client' id hmem hmem' ⟨run,hrun,hid,-⟩ ⟨run',hrun',hid',-⟩
    exact h.apart hmem hmem' hrun hrun' (hid.trans hid'.symm)
  single := by
    intro n n' client client' run run' stored stored' hmem hmem' hkey hrun hrun' hstored hstored'
    have hrow := (h.clients hmem).present run hrun (.inr (by simp [hstored]))
    have hrow' := (h.clients hmem').present run' hrun' (.inr (by simp [hstored']))
    exact h.apart hmem hmem' hrun hrun' (h.keys hrow hrow' (by simp [hkey]))
  faithful := by
    intro n client run status body hmem hrun hstored
    obtain ⟨result,hreturned,hparts,-⟩ := (h.clients hmem).truthful run hrun status body hstored
    exact ⟨result,hreturned,hparts⟩
  replayed hmem hrun hstage := h.replayed hmem hrun hstage

/-- In a run in which no insert meets a record in progress, equal requests are answered from one
run of the view body. -/
theorem identical_requests_answered_once {tr : List (Event (World β) (Label β))}
    (hr : Run (Step sha256) World.empty tr w) (halone : ∀ e ∈ tr, InsertsAlone sha256 e) :
    AnsweredOnce sha256 w := by
  have hinv : Inv sha256 w :=
    Run.invariant (I := fun _ w => Inv sha256 w) inv_empty
      (fun _ _ _ _ _ h hstep hone => step_inv h hstep hone) hr halone
  exact hinv.answeredOnce

def registerRequest : Request :=
  ⟨"POST".toList,"/api/proofs/register".toList,[],[123,125],"register".toList⟩

def registered (event : Nat) : ViewResult Nat := ⟨.json event,some 201⟩

def twoRequests (records : Records Nat) (a b : Stage Nat) (run run' : Option (ViewRun Nat)) :
    World Nat :=
  ⟨records,(Rows.empty.insert ⟨registerRequest,a,run⟩).insert ⟨registerRequest,b,run'⟩⟩

section TwoRequests

variable {records : Records Nat} {a b : Stage Nat} {run run' : Option (ViewRun Nat)}

theorem mem_twoRequests_zero :
    (0,⟨registerRequest,a,run⟩)∈(twoRequests records a b run run').clients :=
  List.Mem.head _

theorem mem_twoRequests_one :
    (1,⟨registerRequest,b,run'⟩)∈(twoRequests records a b run run').clients :=
  List.Mem.tail _ (List.Mem.head _)

end TwoRequests

def pendingRow (sha256 : List UInt8 → Text) : Records Nat :=
  Rows.empty.insert (recordOf (registerRequest.key sha256) none)

theorem create_pendingRow (sha256 : List UInt8 → Text) :
    createIdempotencyRecord (pendingRow sha256) (registerRequest.key sha256) =
      (pendingRow sha256,0,.pending) := by
  simp [createIdempotencyRecord,pendingRow,Rows.insert,Rows.empty,recordOf]

theorem get_settled_pendingRow (sha256 : List UInt8 → Text) :
    getIdempotencyRecord (settle (pendingRow sha256) 0 (registered 1))
      (registerRequest.key sha256) =
        some (recordOf (registerRequest.key sha256) (stored (registered 1))) := by
  simp [getIdempotencyRecord,settle,pendingRow,Rows.insert,Rows.empty,recordOf,storeResponse,
    Rows.modify,Rows.modifyAll,extractResponseParts,registered,storable,stored]

theorem Step.lookup_found (hmem : (n,client)∈w.clients) (hstage : client.stage=.looking)
    (hfound : getIdempotencyRecord w.records (client.request.key sha256)=some record) :
    Step sha256 w (.lookup n)
      (w.move n { client with stage := .answered (.reply (replayStored record)) }) := by
  have hstep : Step sha256 w _ _ := Step.lookup hmem hstage
  rw [hfound] at hstep
  exact hstep

/-- The state after a request was answered and an equal one came after it. -/
def oneAfterAnother (sha256 : List UInt8 → Text) : World Nat :=
  twoRequests (settle (pendingRow sha256) 0 (registered 1))
    (.answered (.result (registered 1))) (.answered (.reply ⟨201,.json 1⟩))
    (some ⟨0,some (.returned (registered 1)),some (.response 201 (some 1))⟩) none

theorem run_oneAfterAnother (sha256 : List UInt8 → Text) :
    ∃ tr, Run (Step sha256) World.empty tr (oneAfterAnother sha256) ∧
      ∀ e∈tr, InsertsAlone sha256 e := by
  have h₁ : Run (Step sha256) World.empty _
      (twoRequests Rows.empty .looking .looking none none) :=
    (Run.nil.snoc Step.arrive).snoc Step.arrive
  have h₂ : Run (Step sha256) World.empty _
      (twoRequests Rows.empty .creating .looking none none) :=
    h₁.snoc (Step.lookup mem_twoRequests_zero rfl)
  have h₃ : Run (Step sha256) World.empty _
      (twoRequests (pendingRow sha256) (.running 0) .looking (some { id := 0 }) none) :=
    h₂.snoc (Step.create mem_twoRequests_zero rfl rfl)
  have h₄ : Run (Step sha256) World.empty _
      (twoRequests (pendingRow sha256) (.storing 0 (registered 1)) .looking
        (some { id := 0, outcome := some (.returned (registered 1)) }) none) :=
    h₃.snoc (Step.view (.returned (registered 1)) mem_twoRequests_zero rfl)
  have h₅ : Run (Step sha256) World.empty _
      (twoRequests (settle (pendingRow sha256) 0 (registered 1))
        (.answered (.result (registered 1))) .looking
        (some ⟨0,some (.returned (registered 1)),some (.response 201 (some 1))⟩) none) :=
    h₄.snoc (Step.settle mem_twoRequests_zero rfl)
  have h₆ : Run (Step sha256) World.empty _ (oneAfterAnother sha256) :=
    h₅.snoc (Step.lookup_found mem_twoRequests_one rfl (get_settled_pendingRow sha256))
  refine ⟨_,h₆,?_⟩
  simp [InsertsAlone,getIdempotencyRecord,twoRequests,Rows.empty]

theorem second_request_replays :
    ∃ tr, Run (Step Sha256.hexdigest) World.empty tr (oneAfterAnother Sha256.hexdigest) ∧
      (∀ e ∈ tr, InsertsAlone Sha256.hexdigest e) ∧
      AnsweredOnce Sha256.hexdigest (oneAfterAnother Sha256.hexdigest) := by
  obtain ⟨tr,hr,halone⟩ := run_oneAfterAnother Sha256.hexdigest
  exact ⟨tr,hr,halone,identical_requests_answered_once hr halone⟩

/-- The state after two equal requests both looked before either inserted. -/
def raced (sha256 : List UInt8 → Text) : World Nat :=
  twoRequests (settle (settle (pendingRow sha256) 0 (registered 1)) 0 (registered 2))
    (.answered (.result (registered 1))) (.answered (.result (registered 2)))
    (some ⟨0,some (.returned (registered 1)),some (.response 201 (some 1))⟩)
    (some ⟨0,some (.returned (registered 2)),some (.response 201 (some 2))⟩)

theorem run_raced (sha256 : List UInt8 → Text) :
    ∃ tr, Run (Step sha256) World.empty tr (raced sha256) := by
  have h₁ : Run (Step sha256) World.empty _
      (twoRequests Rows.empty .looking .looking none none) :=
    (Run.nil.snoc Step.arrive).snoc Step.arrive
  have h₂ : Run (Step sha256) World.empty _
      (twoRequests Rows.empty .creating .looking none none) :=
    h₁.snoc (Step.lookup mem_twoRequests_zero rfl)
  have h₃ : Run (Step sha256) World.empty _
      (twoRequests Rows.empty .creating .creating none none) :=
    h₂.snoc (Step.lookup mem_twoRequests_one rfl)
  have h₄ : Run (Step sha256) World.empty _
      (twoRequests (pendingRow sha256) (.running 0) .creating (some { id := 0 }) none) :=
    h₃.snoc (Step.create mem_twoRequests_zero rfl rfl)
  -- the insert of the second request returns the first one's row, which is pending
  have h₅ : Run (Step sha256) World.empty _
      (twoRequests (pendingRow sha256) (.running 0) (.running 0) (some { id := 0 })
        (some { id := 0 })) :=
    h₄.snoc (Step.create mem_twoRequests_one rfl (create_pendingRow sha256))
  have h₆ : Run (Step sha256) World.empty _
      (twoRequests (pendingRow sha256) (.storing 0 (registered 1)) (.running 0)
        (some { id := 0, outcome := some (.returned (registered 1)) }) (some { id := 0 })) :=
    h₅.snoc (Step.view (.returned (registered 1)) mem_twoRequests_zero rfl)
  have h₇ : Run (Step sha256) World.empty _
      (twoRequests (pendingRow sha256) (.storing 0 (registered 1)) (.storing 0 (registered 2))
        (some { id := 0, outcome := some (.returned (registered 1)) })
        (some { id := 0, outcome := some (.returned (registered 2)) })) :=
    h₆.snoc (Step.view (.returned (registered 2)) mem_twoRequests_one rfl)
  have h₈ : Run (Step sha256) World.empty _
      (twoRequests (settle (pendingRow sha256) 0 (registered 1))
        (.answered (.result (registered 1))) (.storing 0 (registered 2))
        (some ⟨0,some (.returned (registered 1)),some (.response 201 (some 1))⟩)
        (some { id := 0, outcome := some (.returned (registered 2)) })) :=
    h₇.snoc (Step.settle mem_twoRequests_zero rfl)
  exact ⟨_,h₈.snoc (Step.settle mem_twoRequests_one rfl)⟩

theorem executed_registered (event : Nat) :
    Client.Executed ⟨registerRequest,.answered (.result (registered event)),
      some ⟨0,some (.returned (registered event)),some (.response 201 (some event))⟩⟩ 0 := by
  refine ⟨_,rfl,rfl,?_⟩
  intro result hresult
  cases hresult
  rfl

/-- Both requests run the view body, and the second response replaces the first. -/
theorem equal_requests_both_run :
    ∃ tr, Run (Step Sha256.hexdigest) World.empty tr (raced Sha256.hexdigest) ∧
      ¬ AnsweredOnce Sha256.hexdigest (raced Sha256.hexdigest) := by
  obtain ⟨tr,hr⟩ := run_raced Sha256.hexdigest
  refine ⟨tr,hr,fun h => ?_⟩
  cases h.once mem_twoRequests_zero mem_twoRequests_one (executed_registered 1)
    (executed_registered 2)

end Harpocrates.Backend.Idempotency
