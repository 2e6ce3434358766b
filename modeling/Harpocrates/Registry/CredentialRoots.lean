import Harpocrates.Registry.Guards

namespace Harpocrates.Registry

open Framework Tx

def MAX_ROOTS_BACKFILL_BATCH : Nat := 25
def MAX_CREDENTIAL_ROOTS_PAGE : Nat := 25

/-- The stored record, or the record a legacy entry stands for. -/
def getCredentialRootRecordOpt (s : Storage) (root : Bytes32) : Option CredentialRootRecord :=
  match s (.CredentialRootV2 root) with
  | some record => some record
  | none =>
    match s (.CredentialRoot root) with
    | some v1 => some
        { metadataHash := v1.metadataHash
          status := if v1.active then STATUS_REGISTERED else STATUS_REVOKED
          issuedAt := v1.issuedAt
          expiresAt := 0 }
    | none => none

def getCredentialRootRecord (root : Bytes32) : M CredentialRootRecord := do
  expect (← Tx.gets (getCredentialRootRecordOpt · root)) .UnknownCredentialRoot

@[simp] theorem getCredentialRootRecord_ok (root : Bytes32) (s s' : Storage)
    (r : CredentialRootRecord) :
    getCredentialRootRecord root s=.ok (r,s') ↔
      getCredentialRootRecordOpt s root=some r ∧ s=s' := by
  simp [getCredentialRootRecord]

@[simp] theorem getCredentialRootRecord_writes (W : DataKey → Prop) (root : Bytes32) :
    Writes W (getCredentialRootRecord root) := by
  intro s u s' h
  simp_all

def requireActiveCredentialRoot (env : Env) (root : Bytes32) : M Unit := do
  let record ← getCredentialRootRecord root
  panicIf (record.status == STATUS_REVOKED) .RevokedCredentialRoot
  panicIf (record.status == STATUS_EXPIRED ||
    (record.expiresAt > 0 && env.timestamp ≥ record.expiresAt)) .ExpiredCredentialRoot

theorem requireActiveCredentialRoot_unchanged {env : Env} {root : Bytes32} {s s' : Storage}
    {u : Unit} (h : requireActiveCredentialRoot env root s=.ok (u,s')) : s=s' := by
  simp only [requireActiveCredentialRoot,bind_ok,getCredentialRootRecord_ok,
    failIf_ok] at h
  obtain ⟨_,_,⟨-,rfl⟩,_,_,⟨-,rfl⟩,-,rfl⟩ := h
  rfl

@[simp] theorem requireActiveCredentialRoot_writes (W : DataKey → Prop) (env : Env)
    (root : Bytes32) : Writes W (requireActiveCredentialRoot env root) := by
  intro s u s' h
  simp [requireActiveCredentialRoot_unchanged h]

/-- Give the root the next place of the enumeration index unless it has one; says whether
it got one. -/
def indexCredentialRoot (root : Bytes32) : M Bool := do
  if ← has (.CredentialRootIndexed root) then
    pure false
  else do
    let nextSeq := satAdd32 ((← load .CredentialRootSeq).getD 0) 1
    store (.CredentialRootIndex nextSeq) root
    store .CredentialRootSeq nextSeq
    store (.CredentialRootIndexed root) nextSeq
    pure true

@[simp] theorem indexCredentialRoot_writes (root : Bytes32) {fs : List Family}
    (h : [Family.CredentialRootIndex,.CredentialRootSeq,.CredentialRootIndexed] ⊆ fs) :
    Writes (In fs) (indexCredentialRoot root) := by
  obtain ⟨h1,h2,h3⟩ : Family.CredentialRootIndex∈fs ∧ Family.CredentialRootSeq∈fs ∧
      Family.CredentialRootIndexed∈fs := by simpa using h
  unfold indexCredentialRoot
  repeat' first
    | with_reducible refine Writes.bind ?_ fun _ => ?_
    | apply Writes.ite
    | simp [*]

/-- The roots waiting for the index; the older of the two queue keys is read only when the
newer is absent. -/
def backfillQueue (s : Storage) : Option (List Bytes32) :=
  match s .CredentialRootsBackfillQueue with
  | some queue => some queue
  | none => s .CredentialRootsBackfill

/-- Index at most one batch of the queued roots and remember how far the queue was read. -/
def backfillCredentialRootsStep : M Unit := do
  match ← Tx.gets backfillQueue with
  | none => pure ()
  | some queue => do
    let cursor := (← load .CredentialRootsBackfillCursor).getD 0
    let batch := (queue.drop cursor).take MAX_ROOTS_BACKFILL_BATCH
    Tx.forEach batch (fun root => do let _ ← indexCredentialRoot root)
    store .CredentialRootsBackfillCursor (cursor+batch.length)

@[simp] theorem backfillCredentialRootsStep_writes {fs : List Family}
    (h : [Family.CredentialRootIndex,.CredentialRootSeq,.CredentialRootIndexed] ⊆ fs)
    (hc : Family.CredentialRootsBackfillCursor∈fs) :
    Writes (In fs) backfillCredentialRootsStep := by
  unfold backfillCredentialRootsStep
  refine Writes.bind (by simp) fun queue => ?_
  cases queue with
  | none => simp
  | some queue =>
    refine Writes.bind (by simp) fun cursor => Writes.bind ?_ fun _ => ?_
    · exact Writes.forEach _ fun root _ =>
        Writes.bind (indexCredentialRoot_writes root h) fun _ => by simp
    · simp [hc]

def addCredentialRoot (env : Env) (admin : Address) (root metadataHash : Bytes32) : M Unit := do
  requireAdmin env admin
  store (.CredentialRootV2 root)
    { metadataHash, status := STATUS_REGISTERED, issuedAt := env.timestamp, expiresAt := 0 }
  let _ ← indexCredentialRoot root

def revokeCredentialRoot (env : Env) (admin : Address) (root : Bytes32) : M Unit := do
  requireAdmin env admin
  let record ← getCredentialRootRecord root
  store (.CredentialRootV2 root) { record with status := STATUS_REVOKED }

def expireCredentialRoot (env : Env) (admin : Address) (root : Bytes32) : M Unit := do
  requireAdmin env admin
  let record ← getCredentialRootRecord root
  store (.CredentialRootV2 root)
    { record with status := STATUS_EXPIRED, expiresAt := env.timestamp }

def stageCredentialRootsForBackfill (env : Env) (admin : Address) (roots : List Bytes32) :
    M Unit := do
  requireAdmin env admin
  let queue := (← load .CredentialRootsBackfillQueue).getD []
  store .CredentialRootsBackfillQueue (queue++roots)

/-- The view of one root. It reads the legacy key and decodes what it finds as a current record;
a legacy value does not decode, and the call traps. -/
def getCredentialRoot (root : Bytes32) : M (Option CredentialRootRecord) := do
  match ← load (.CredentialRoot root) with
  | none => pure none
  | some _ => trap

structure CredentialRootEntry where
  rootHash : Bytes32
  status : Nat
  deriving DecidableEq

structure CredentialRootPage where
  roots : List CredentialRootEntry
  nextCursor : Option Nat
  deriving DecidableEq

/-- The status a listing gives for a record. -/
def CredentialRootRecord.listedStatus (record : CredentialRootRecord) (now : Nat) : Nat :=
  if record.status = STATUS_EXPIRED ∨ (record.expiresAt > 0 ∧ now ≥ record.expiresAt) then
    STATUS_EXPIRED
  else record.status

/-- The entry of a listing for the root with a number, if there is one. -/
def credentialRootEntry (now : Nat) (s : Storage) (id : Nat) : Option CredentialRootEntry :=
  match s (.CredentialRootIndex id) with
  | none => none
  | some root =>
    match getCredentialRootRecordOpt s root with
    | none => none
    | some record => some { rootHash := root, status := record.listedStatus now }

/-- The scan of a listing from number `id` on, with the entries found so far. Past the largest
`u32` the number stays where it is, and the loop does not end. -/
def scanCredentialRoots (now limit totalSeq : Nat) (s : Storage) :
    (remaining id : Nat) → List CredentialRootEntry → Option CredentialRootPage
  | 0,_,roots => if totalSeq = u32Max then none else some { roots, nextCursor := none }
  | remaining+1,id,roots =>
    match credentialRootEntry now s id with
    | none => scanCredentialRoots now limit totalSeq s remaining (id+1) roots
    | some entry =>
      if (roots++[entry]).length = limit then
        some
          { roots := roots++[entry]
            nextCursor := if id < totalSeq then some (id+1) else none }
      else scanCredentialRoots now limit totalSeq s remaining (id+1) (roots++[entry])

def listCredentialRoots (env : Env) (cursor limit : Nat) : M CredentialRootPage := do
  let effectiveLimit :=
    if limit = 0 ∨ limit > MAX_CREDENTIAL_ROOTS_PAGE then MAX_CREDENTIAL_ROOTS_PAGE else limit
  let totalSeq := (← load .CredentialRootSeq).getD 0
  let id := if cursor = 0 then 1 else cursor
  Tx.unwrap
    (← Tx.gets fun s =>
      scanCredentialRoots env.timestamp effectiveLimit totalSeq s (totalSeq+1-id) id []) .trap

end Harpocrates.Registry
