import Harpocrates.Framework.Python
import Harpocrates.Framework.Rows
import Harpocrates.Framework.Run

namespace Harpocrates.Backend.Idempotency

open Framework Framework.Python

/-! The decorator that answers a repeated request from what was stored for the first one, where a
database is configured. Its transactions and the view body come one after another in any order that
the workers give. -/

inductive RecordStatus
  | pending | completed | failed
  deriving DecidableEq

/-- What a view's response is stored as: with its status, or bare as older releases stored it. -/
inductive ResponsePayload (β : Type)
  | wrapped (status : Int) (body : Option β)
  | bare (body : β)

structure ErrorPayload where
  error : String
  status : Option Int
  deriving DecidableEq

structure RequestKey where
  requestDigest : Text
  requestType : Text
  deriving DecidableEq

/-- A row of `idempotency_records`. No query reads `created_at` or `expires_at`. -/
structure Record (β : Type) where
  key : RequestKey
  status : RecordStatus
  responsePayload : Option (ResponsePayload β) := none
  errorPayload : Option ErrorPayload := none

variable {β : Type}

abbrev Records (β : Type) := Rows (Record β)

def getIdempotencyRecord (t : Records β) (key : RequestKey) : Option (Record β) :=
  (t.entries.find? fun e => e.2.key = key).map (·.2)

/-- The number and the status of the row under the key, which is inserted if there is none. -/
def createIdempotencyRecord (t : Records β) (key : RequestKey) :
    Records β × Nat × RecordStatus :=
  match t.entries.find? fun e => e.2.key = key with
  | none => (t.insert { key, status := .pending },t.next,.pending)
  | some (id,record) => (t,id,record.status)

def storeResponse (t : Records β) (id : Nat) (status : Int) (body : Option β) : Records β :=
  t.modify id fun record => { record with
    status := .completed
    responsePayload := some (.wrapped status body)
    errorPayload := none }

def storeError (t : Records β) (id : Nat) (error : ErrorPayload) : Records β :=
  t.modify id fun record => { record with
    status := .failed
    errorPayload := some error
    responsePayload := none }

def clearIdempotencyRecord (t : Records β) (id : Nat) : Records β :=
  if t.entries.any fun e => e.1 = id && e.2.status = .pending then t.delete [id] else t

structure Request where
  method : Text
  path : Text
  queryString : List UInt8
  body : List UInt8
  requestType : Text

def canonicalDigest (sha256 : List UInt8 → Text) (request : Request) : Text :=
  sha256 (encode request.method++[124]++encode request.path++[124]++request.queryString++[124]++
    request.body)

def Request.key (sha256 : List UInt8 → Text) (request : Request) : RequestKey :=
  ⟨canonicalDigest sha256 request,request.requestType⟩

inductive ViewData (β : Type)
  | response (json : Option β) (statusCode : Int)
  | json (value : β)
  | other

/-- What a view returns: its data, and the status where it returns a pair with a number. -/
structure ViewResult (β : Type) where
  data : ViewData β
  status : Option Int := none

def extractResponseParts (result : ViewResult β) : Option β × Int :=
  match result.data with
  | .response json statusCode => (json,result.status.getD statusCode)
  | .json value => (some value,result.status.getD 200)
  | .other => (none,result.status.getD 200)

inductive ReplyBody (β : Type)
  | empty
  | json (value : β)
  | object (fields : List (String × String))
  deriving DecidableEq

structure Reply (β : Type) where
  status : Int
  body : ReplyBody β
  deriving DecidableEq

def duplicateInProgress : Reply β := ⟨409,.object [("error","duplicate request in progress")]⟩

def replayStored (record : Record β) : Reply β :=
  match record.status with
  | .completed =>
    match record.responsePayload with
    | none => ⟨200,.object []⟩
    | some (.wrapped status body) =>
      ⟨if status = 0 then 200 else status,
        match body with
        | none => .empty
        | some value => .json value⟩
    | some (.bare body) => ⟨200,.json body⟩
  | .failed =>
    let error := record.errorPayload.getD ⟨"previous request failed",none⟩
    ⟨error.status.getD 500,.object [("error",error.error)]⟩
  | .pending => duplicateInProgress

inductive Answer (β : Type)
  | result (result : ViewResult β)
  | reply (reply : Reply β)
  | raised

/-- Where a request stands: before a transaction, in the view body, or at its end. -/
inductive Stage (β : Type)
  | looking
  | creating
  | rereading (status : RecordStatus)
  | running (id : Nat)
  | storing (id : Nat) (result : ViewResult β)
  | failing (id : Nat)
  | answered (answer : Answer β)
  | crashed

def afterLookup : Option (Record β) → Stage β
  | some record => .answered (.reply (replayStored record))
  | none => .creating

def afterCreate (id : Nat) (status : RecordStatus) : Stage β :=
  if status ≠ .pending then .rereading status else .running id

def afterReread (key : RequestKey) (status : RecordStatus) (found : Option (Record β)) : Stage β :=
  .answered (.reply (replayStored (found.getD { key, status })))

def storable (code : Int) : Bool := 200 ≤ code && code < 500

def requestProcessingFailed : ErrorPayload := ⟨"request processing failed",some 500⟩

def settle (t : Records β) (id : Nat) (result : ViewResult β) : Records β :=
  let (body,code) := extractResponseParts result
  if storable code then storeResponse t id code body else clearIdempotencyRecord t id

inductive Outcome (β : Type)
  | returned (result : ViewResult β)
  | raised

/-- What a run of the view body left in its record. -/
inductive Stored (β : Type)
  | response (status : Int) (body : Option β)
  | error

/-- A run of the view body: the record it ran under, how it ended and what was stored of it. -/
structure ViewRun (β : Type) where
  id : Nat
  outcome : Option (Outcome β) := none
  stored : Option (Stored β) := none

def ViewRun.errorStored (run : ViewRun β) : ViewRun β := { run with stored := some .error }

/-- A request, with its run as history: no transaction and no branch depends on it. -/
structure Client (β : Type) where
  request : Request
  stage : Stage β := .looking
  run : Option (ViewRun β) := none

structure World (β : Type) where
  records : Records β
  clients : Rows (Client β)

def World.empty : World β := ⟨Rows.empty,Rows.empty⟩

def World.move (w : World β) (n : Nat) (client : Client β) : World β :=
  { w with clients := w.clients.modify n fun _ => client }

def stored (result : ViewResult β) : Option (Stored β) :=
  let (body,code) := extractResponseParts result
  if storable code then some (.response code body) else none

inductive Label (β : Type)
  | arrive (request : Request)
  | lookup (n : Nat)
  | create (n : Nat)
  | reread (n : Nat)
  | view (n : Nat) (outcome : Outcome β)
  | settle (n : Nat)
  | settleFails (n : Nat)
  | storeError (n : Nat)
  | crash (n : Nat)

/-- A client that has created its record or has found it. -/
def Client.created (client : Client β) (id : Nat) (status : RecordStatus) : Client β :=
  { client with
    stage := afterCreate id status
    run := if status ≠ .pending then none else some { id } }

def Client.viewed (client : Client β) (id : Nat) : Outcome β → Client β
  | .returned result => { client with
      stage := .storing id result
      run := some { id, outcome := some (.returned result) } }
  | .raised => { client with
      stage := .failing id
      run := some { id, outcome := some .raised } }

inductive Step (sha256 : List UInt8 → Text) : World β → Label β → World β → Prop
  | arrive {w : World β} {request : Request} :
      Step sha256 w (.arrive request) { w with clients := w.clients.insert { request } }
  | lookup {w : World β} {n : Nat} {client : Client β} :
      (n,client) ∈ w.clients → client.stage = .looking →
      Step sha256 w (.lookup n) (w.move n { client with
        stage := afterLookup (getIdempotencyRecord w.records (client.request.key sha256)) })
  | create {w : World β} {n : Nat} {client : Client β} {records : Records β} {id : Nat}
      {status : RecordStatus} :
      (n,client) ∈ w.clients → client.stage = .creating →
      createIdempotencyRecord w.records (client.request.key sha256) = (records,id,status) →
      Step sha256 w (.create n) ({ w with records }.move n (client.created id status))
  | reread {w : World β} {n : Nat} {client : Client β} {status : RecordStatus} :
      (n,client) ∈ w.clients → client.stage = .rereading status →
      Step sha256 w (.reread n) (w.move n { client with
        stage := afterReread (client.request.key sha256) status
          (getIdempotencyRecord w.records (client.request.key sha256)) })
  | view {w : World β} {n : Nat} {client : Client β} {id : Nat} (outcome : Outcome β) :
      (n,client) ∈ w.clients → client.stage = .running id →
      Step sha256 w (.view n outcome) (w.move n (client.viewed id outcome))
  | settle {w : World β} {n : Nat} {client : Client β} {id : Nat} {result : ViewResult β} :
      (n,client) ∈ w.clients → client.stage = .storing id result →
      Step sha256 w (.settle n) ({ w with records := settle w.records id result }.move n
        { client with
          stage := .answered (.result result)
          run := some { id, outcome := some (.returned result), stored := stored result } })
  -- The transaction raises, which the wrapper takes for a failure of the view.
  | settleFails {w : World β} {n : Nat} {client : Client β} {id : Nat} {result : ViewResult β} :
      (n,client) ∈ w.clients → client.stage = .storing id result →
      Step sha256 w (.settleFails n) (w.move n { client with stage := .failing id })
  | storeError {w : World β} {n : Nat} {client : Client β} {id : Nat} :
      (n,client) ∈ w.clients → client.stage = .failing id →
      Step sha256 w (.storeError n)
        ({ w with records := storeError w.records id requestProcessingFailed }.move n
          { client with
            stage := .answered .raised
            run := client.run.map ViewRun.errorStored })
  | crash {w : World β} {n : Nat} {client : Client β} :
      (n,client) ∈ w.clients → (∀ answer, client.stage ≠ .answered answer) →
      Step sha256 w (.crash n) (w.move n { client with stage := .crashed })

end Harpocrates.Backend.Idempotency
