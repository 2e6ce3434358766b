import Harpocrates.Registry.Guards

namespace Harpocrates.Registry

open Framework Tx

def MAX_OPEN_DISPUTES_PER_PROOF : Nat := 4
def MAX_OPEN_DISPUTES_PER_REPORTER : Nat := 5
def REPORTER_COOLDOWN_SECS : Nat := 86400
def RESPOND_DEADLINE_SECS : Nat := 604800
def RESOLVE_DEADLINE_SECS : Nat := 1209600

/-- The bytes of `harp_sup_rev`. -/
def SUPERSESSION_PREFIX : Bytes :=
  [0x68,0x61,0x72,0x70,0x5f,0x73,0x75,0x70,0x5f,0x72,0x65,0x76]

def supersessionReverseKey (sha256 : Bytes → Bytes32) (supersedingProofId : Bytes32) : Bytes32 :=
  sha256 (SUPERSESSION_PREFIX++supersedingProofId.1)

/-- Read a dispute record. A proof id under the key makes the host trap. -/
def getDisputeRecord (disputeId : Bytes32) : M DisputeRecord := do
  match ← load (.Dispute disputeId) with
  | none => panic .DisputeNotFound
  | some (.record r) => pure r
  | some (.proofId _) => trap

/-- Read an entry of the reverse index. A dispute record under the key makes the host
trap. -/
def getRecordedOriginal (sha256 : Bytes → Bytes32) (supersedingProofId : Bytes32) :
    M (Option Bytes32) := do
  match ← load (.Dispute (supersessionReverseKey sha256 supersedingProofId)) with
  | none => pure none
  | some (.proofId p) => pure (some p)
  | some (.record _) => trap

/-- Refuse an edge that is recorded already, and one whose reverse is. The index remembers
only the latest proof each superseding proof corrected. -/
def checkSupersessionCycle (sha256 : Bytes → Bytes32) (disputed superseding : Bytes32) :
    M Bool := do
  let recordedOriginal ← getRecordedOriginal sha256 superseding
  if recordedOriginal = some disputed then
    pure true
  else do
    let recordedSuperseder ← getRecordedOriginal sha256 disputed
    pure (recordedSuperseder == some superseding)

def recordSupersessionDirection (sha256 : Bytes → Bytes32) (disputed superseding : Bytes32) :
    M Unit :=
  store (.Dispute (supersessionReverseKey sha256 superseding)) (.proofId disputed)

def appendProofDispute (proofId disputeId : Bytes32) : M Unit := do
  let next ← add32 ((← load (.ProofDisputeSeq proofId)).getD 0) 1
  store (.ProofDispute proofId next) disputeId
  store (.ProofDisputeSeq proofId) next

def decrementOpenDisputeCount (proofId : Bytes32) : M Unit := do
  let newCount := (← load (.ProofOpenDisputeCount proofId)).getD 0-1
  if newCount = 0 then remove (.ProofOpenDisputeCount proofId)
  else store (.ProofOpenDisputeCount proofId) newCount

def decrementReporterOpenDisputeCount (reporter : Address) : M Unit := do
  let newCount := (← load (.ReporterOpenDisputeCount reporter)).getD 0-1
  if newCount = 0 then remove (.ReporterOpenDisputeCount reporter)
  else store (.ReporterOpenDisputeCount reporter) newCount

def openedRecord (env : Env) (reporter : Address) (reporterHash disputeId proofId : Bytes32)
    (reason : DisputeReason) (commitmentHash : Bytes32) : DisputeRecord :=
  { disputeId, proofId, reason, reporterHash, commitmentHash, reporter
    status := .Open
    openedAt := env.timestamp
    respondDeadline := satAdd64 env.timestamp RESPOND_DEADLINE_SECS
    resolveDeadline := 0
    responseCommitment := none
    resolvedAt := 0
    supersededBy := none }

/-- The reporter chooses the id; all that is asked of it is that nothing is stored under it
yet. -/
def openDispute (env : Env) (reporter : Address) (reporterHash disputeId proofId : Bytes32)
    (reason : DisputeReason) (commitmentHash : Bytes32) : M DisputeRecord := do
  requireAuth env reporter
  panicIf (!(← has (.Proof proofId))) .DisputeNotFound
  panicIf (← has (.Dispute disputeId)) .DuplicateProof
  let openCount := (← load (.ProofOpenDisputeCount proofId)).getD 0
  panicIf (openCount ≥ MAX_OPEN_DISPUTES_PER_PROOF) .TooManyOpenDisputes
  let reporterOpenCount := (← load (.ReporterOpenDisputeCount reporter)).getD 0
  panicIf (reporterOpenCount ≥ MAX_OPEN_DISPUTES_PER_REPORTER) .ReporterDisputesSaturated
  let lastOpen := (← load (.ReporterCooldown reporterHash)).getD 0
  panicIf (lastOpen > 0 && env.timestamp-lastOpen < REPORTER_COOLDOWN_SECS) .ReporterOnCooldown
  store (.ReporterCooldown reporterHash) env.timestamp
  let record := openedRecord env reporter reporterHash disputeId proofId reason commitmentHash
  store (.Dispute disputeId) (.record record)
  store (.ProofOpenDisputeCount proofId) (openCount+1)
  store (.ReporterOpenDisputeCount reporter) (reporterOpenCount+1)
  appendProofDispute proofId disputeId
  pure record

/-- The issuer of the proof answers, else its source, else nobody; the admin always may. -/
def mayRespond (responder admin : Address) (proof : ProofRecord) : Bool :=
  match proof.issuer,proof.source with
  | some issuer,_ => responder == issuer || responder == admin
  | _,some source => responder == source || responder == admin
  | _,_ => responder == admin

def respondDispute (env : Env) (responder : Address) (disputeId responseCommitment : Bytes32) :
    M DisputeRecord := do
  requireAuth env responder
  let record ← getDisputeRecord disputeId
  panicIf (record.status != .Open) .InvalidDisputeTransition
  panicIf (env.timestamp > record.respondDeadline) .DisputeWindowExpired
  let proof ← expect (← load (.Proof record.proofId)) .DisputeNotFound
  let admin ← expect (← load .Admin) .NotInitialized
  panicIf (!mayRespond responder admin proof) .UnauthorizedResponder
  let record :=
    { record with
      status := .Responded
      responseCommitment := some responseCommitment
      resolveDeadline := satAdd64 env.timestamp RESOLVE_DEADLINE_SECS }
  store (.Dispute disputeId) (.record record)
  pure record

/-- What resolution and dismissal have in common: the dispute takes its final state and no
longer counts as open. -/
def closeDispute (env : Env) (disputeId : Bytes32) (record : DisputeRecord)
    (status : DisputeStatus) : M DisputeRecord := do
  let record := { record with status, resolvedAt := env.timestamp }
  store (.Dispute disputeId) (.record record)
  decrementOpenDisputeCount record.proofId
  decrementReporterOpenDisputeCount record.reporter
  pure record

def resolveDispute (env : Env) (admin : Address) (disputeId : Bytes32) : M DisputeRecord := do
  requireAdmin env admin
  let record ← getDisputeRecord disputeId
  panicIf (record.status != .Responded) .InvalidDisputeTransition
  panicIf (env.timestamp > record.resolveDeadline) .DisputeWindowExpired
  closeDispute env disputeId record .Resolved

def isOpenStatus (status : DisputeStatus) : Bool :=
  status == .Open || status == .Responded

def dismissDispute (env : Env) (admin : Address) (disputeId : Bytes32) : M DisputeRecord := do
  requireAdmin env admin
  let record ← getDisputeRecord disputeId
  panicIf (!isOpenStatus record.status) .DisputeAlreadyClosed
  closeDispute env disputeId record .Dismissed

def supersedeDispute (env : Env) (admin : Address) (disputeId supersedingProofId : Bytes32) :
    M DisputeRecord := do
  requireAdmin env admin
  let record ← getDisputeRecord disputeId
  panicIf (!isOpenStatus record.status) .DisputeAlreadyClosed
  panicIf (!(← has (.Proof supersedingProofId))) .DisputeNotFound
  panicIf (supersedingProofId == record.proofId) .DisputeCyclicSupersession
  panicIf (← checkSupersessionCycle env.sha256 record.proofId supersedingProofId)
    .DisputeCyclicSupersession
  let record :=
    { record with
      status := .Superseded
      supersededBy := some supersedingProofId
      resolvedAt := env.timestamp }
  store (.Dispute disputeId) (.record record)
  recordSupersessionDirection env.sha256 record.proofId supersedingProofId
  decrementOpenDisputeCount record.proofId
  decrementReporterOpenDisputeCount record.reporter
  pure record

def getOpenDisputeCount (s : Storage) (proofId : Bytes32) : Nat :=
  (s (.ProofOpenDisputeCount proofId)).getD 0

def getReporterOpenDisputeCount (s : Storage) (reporter : Address) : Nat :=
  (s (.ReporterOpenDisputeCount reporter)).getD 0

variable {env : Env}

@[simp] theorem getDisputeRecord_ok (d : Bytes32) (s s' : Storage) (r : DisputeRecord) :
    getDisputeRecord d s=.ok (r,s') ↔ s (.Dispute d)=some (.record r) ∧ s=s' := by
  simp only [getDisputeRecord,bind_ok,get_ok]
  constructor
  · intro hyp
    obtain ⟨o,_,⟨ho,rfl⟩,h⟩ := hyp
    cases o with
    | none => simp at h
    | some v =>
      cases v with
      | record r' => simpa [ho] using h
      | proofId p => simp at h
  · intro hyp
    obtain ⟨h,rfl⟩ := hyp
    exact ⟨_,s,⟨h,rfl⟩,by simp⟩

@[simp] theorem getDisputeRecord_writes (W : DataKey → Prop) (d : Bytes32) :
    Writes W (getDisputeRecord d) := by
  intro s r s' h
  simp_all

theorem getRecordedOriginal_ok (sha256 : Bytes → Bytes32) (p : Bytes32) (s s' : Storage)
    (o : Option Bytes32) : getRecordedOriginal sha256 p s=.ok (o,s') ↔
      s (.Dispute (supersessionReverseKey sha256 p))=o.map .proofId ∧ s=s' := by
  simp only [getRecordedOriginal,bind_ok,get_ok]
  constructor
  · intro hyp
    obtain ⟨v,_,⟨hv,rfl⟩,h⟩ := hyp
    cases v with
    | none =>
      obtain ⟨rfl,rfl⟩ := (pure_ok ..).1 h
      exact ⟨hv,rfl⟩
    | some v =>
      cases v with
      | record r => simp at h
      | proofId q =>
        obtain ⟨rfl,rfl⟩ := (pure_ok ..).1 h
        exact ⟨hv,rfl⟩
  · intro hyp
    obtain ⟨h,rfl⟩ := hyp
    refine ⟨_,s,⟨h,rfl⟩,?_⟩
    cases o <;> simp

variable {s s' : Storage} {d : Bytes32} {x : DisputeRecord} {admin : Address}

/-- A passed cycle check has read two entries of the index, neither of them a dispute
record, and found neither the edge nor its reverse. -/
theorem checkSupersessionCycle_false {sha256 : Bytes → Bytes32} {disputed superseding : Bytes32}
    (h : checkSupersessionCycle sha256 disputed superseding s=.ok (false,s')) :
    s=s' ∧ ∃ o o', s (.Dispute (supersessionReverseKey sha256 superseding))=o.map .proofId ∧
      s (.Dispute (supersessionReverseKey sha256 disputed))=o'.map .proofId ∧
      o≠some disputed ∧ o'≠some superseding := by
  simp only [checkSupersessionCycle,bind_ok,getRecordedOriginal_ok,Tx.ite_apply] at h
  obtain ⟨o,_,⟨ho,rfl⟩,h⟩ := h
  split at h
  · simp at h
  · rename_i hne
    simp only [bind_ok,getRecordedOriginal_ok,pure_ok] at h
    obtain ⟨o',_,⟨ho',rfl⟩,hb,rfl⟩ := h
    exact ⟨rfl,o,o',ho,ho',hne,by simpa using hb⟩

theorem checkSupersessionCycle_writes (W : DataKey → Prop) (sha256 : Bytes → Bytes32)
    (disputed superseding : Bytes32) :
    Writes W (checkSupersessionCycle sha256 disputed superseding) := by
  have read : ∀ p, Writes W (getRecordedOriginal sha256 p) := by
    intro p s o s' h k _
    rw [((getRecordedOriginal_ok ..).1 h).2]
  unfold checkSupersessionCycle
  refine Writes.bind (read _) fun _ => Writes.ite (by simp) ?_
  exact Writes.bind (read _) fun _ => by simp

def counterFootprint : List Family := [.ProofOpenDisputeCount,.ReporterOpenDisputeCount]

theorem decrementOpenDisputeCount_writes (p : Bytes32) {fs : List Family}
    (h : counterFootprint ⊆ fs) : Writes (In fs) (decrementOpenDisputeCount p) := by
  have hp : Family.ProofOpenDisputeCount∈fs := h (by simp [counterFootprint])
  unfold decrementOpenDisputeCount
  exact Writes.bind (by simp) fun _ => Writes.ite (by simp [hp]) (by simp [hp])

theorem decrementReporterOpenDisputeCount_writes (a : Address) {fs : List Family}
    (h : counterFootprint ⊆ fs) : Writes (In fs) (decrementReporterOpenDisputeCount a) := by
  have hp : Family.ReporterOpenDisputeCount∈fs := h (by simp [counterFootprint])
  unfold decrementReporterOpenDisputeCount
  exact Writes.bind (by simp) fun _ => Writes.ite (by simp [hp]) (by simp [hp])

theorem closeDispute_writes (env : Env) (disputeId : Bytes32) (record : DisputeRecord)
    (status : DisputeStatus) : Writes (In (.Dispute::counterFootprint))
      (closeDispute env disputeId record status) := by
  unfold closeDispute
  repeat' first
    | with_reducible refine Writes.bind ?_ fun _ => ?_
    | exact decrementOpenDisputeCount_writes _ (by simp)
    | exact decrementReporterOpenDisputeCount_writes _ (by simp)
    | simp

/-- The storage after a dispute was opened, but for the list of disputes of the proof. -/
def openedStorage (env : Env) (reporter : Address) (reporterHash disputeId proofId : Bytes32)
    (reason : DisputeReason) (commitmentHash : Bytes32) (s : Storage) : Storage :=
  Store.set (Store.set (Store.set (Store.set s (.ReporterCooldown reporterHash) env.timestamp)
    (.Dispute disputeId)
    (.record (openedRecord env reporter reporterHash disputeId proofId reason commitmentHash)))
    (.ProofOpenDisputeCount proofId) (getOpenDisputeCount s proofId+1))
    (.ReporterOpenDisputeCount reporter) (getReporterOpenDisputeCount s reporter+1)

def cooledDown (s : Storage) (reporterHash : Bytes32) (now : Nat) : Prop :=
  ∀ last : Nat, s (.ReporterCooldown reporterHash) = some last → 0 < last →
    last+REPORTER_COOLDOWN_SECS ≤ now

theorem cooledDown_of_check {s : Storage} {h : Bytes32} {now : Nat}
    (hc : (decide ((s (.ReporterCooldown h)).getD 0 > 0) &&
      decide (now-(s (.ReporterCooldown h)).getD 0<REPORTER_COOLDOWN_SECS))=false) :
    cooledDown s h now := by
  intro last hlast hpos
  rw [hlast] at hc
  have hlate : ¬ now-last<REPORTER_COOLDOWN_SECS := by simpa [hpos] using hc
  have apart : ∀ a b c : Nat, 0<c → ¬ a-b<c → b+c≤a := by
    intro a b c hc hab
    omega
  exact apart now last _ (by decide) hlate

theorem openDispute_ok {reporter : Address} {h p c : Bytes32} {reason : DisputeReason}
    (hx : openDispute env reporter h d p reason c s=.ok (x,s')) :
    (s (.Proof p)).isSome=true ∧ s (.Dispute d)=none ∧
      getOpenDisputeCount s p<MAX_OPEN_DISPUTES_PER_PROOF ∧
      getReporterOpenDisputeCount s reporter<MAX_OPEN_DISPUTES_PER_REPORTER ∧
      cooledDown s h env.timestamp ∧
      appendProofDispute p d (openedStorage env reporter h d p reason c s)=.ok ((),s') := by
  simp only [openDispute,bind_ok,requireAuth_ok,has_ok,failIf_ok,get_ok,set_ok,
    pure_ok] at hx
  obtain ⟨_,_,⟨-,rfl⟩,_,_,⟨rfl,rfl⟩,_,_,⟨known,rfl⟩,hx⟩ := hx
  obtain ⟨_,_,⟨rfl,rfl⟩,_,_,⟨free,rfl⟩,hx⟩ := hx
  obtain ⟨_,_,⟨rfl,rfl⟩,_,_,⟨room,rfl⟩,hx⟩ := hx
  obtain ⟨_,_,⟨rfl,rfl⟩,_,_,⟨room',rfl⟩,hx⟩ := hx
  obtain ⟨_,_,⟨rfl,rfl⟩,_,_,⟨cool,rfl⟩,hx⟩ := hx
  obtain ⟨_,_,rfl,_,_,rfl,_,_,rfl,_,_,rfl,_,_,happ,-,rfl⟩ := hx
  exact ⟨by simpa using known,show s (.Dispute d)=none by simpa using free,
    Nat.lt_of_not_ge (of_decide_eq_false room),Nat.lt_of_not_ge (of_decide_eq_false room'),
    cooledDown_of_check cool,happ⟩

theorem respondDispute_ok {responder : Address} {c : Bytes32}
    (h : respondDispute env responder d c s=.ok (x,s')) :
    ∃ r, s (.Dispute d)=some (.record r) ∧ r.status=.Open ∧
      env.timestamp≤r.respondDeadline ∧ s'=Store.set s (.Dispute d) (.record
        { r with
          status := .Responded
          responseCommitment := some c
          resolveDeadline := satAdd64 env.timestamp RESOLVE_DEADLINE_SECS }) := by
  simp only [respondDispute,bind_ok,requireAuth_ok,getDisputeRecord_ok,failIf_ok,get_ok,
    unwrap_ok,set_ok,pure_ok] at h
  obtain ⟨_,_,⟨-,rfl⟩,r,_,⟨hr,rfl⟩,_,_,⟨status,rfl⟩,_,_,⟨inTime,rfl⟩,h⟩ := h
  obtain ⟨_,_,⟨-,rfl⟩,_,_,⟨-,rfl⟩,_,_,⟨-,rfl⟩,_,_,⟨-,rfl⟩,_,_,⟨-,rfl⟩,_,_,hset,-,hpost⟩ := h
  exact ⟨r,hr,by simpa using status,by simpa using inTime,(hset.trans hpost).symm⟩

theorem resolveDispute_ok (h : resolveDispute env admin d s=.ok (x,s')) :
    ∃ r, s (.Dispute d)=some (.record r) ∧ r.status=.Responded ∧
      env.timestamp≤r.resolveDeadline ∧ closeDispute env d r .Resolved s=.ok (x,s') := by
  simp only [resolveDispute,bind_ok,requireAdmin_ok,getDisputeRecord_ok,failIf_ok] at h
  obtain ⟨_,_,⟨-,-,rfl⟩,r,_,⟨hr,rfl⟩,_,_,⟨status,rfl⟩,_,_,⟨inTime,rfl⟩,h⟩ := h
  exact ⟨r,hr,by simpa using status,by simpa using inTime,h⟩

theorem dismissDispute_ok (h : dismissDispute env admin d s=.ok (x,s')) :
    ∃ r, s (.Dispute d)=some (.record r) ∧ isOpenStatus r.status=true ∧
      closeDispute env d r .Dismissed s=.ok (x,s') := by
  simp only [dismissDispute,bind_ok,requireAdmin_ok,getDisputeRecord_ok,failIf_ok] at h
  obtain ⟨_,_,⟨-,-,rfl⟩,r,_,⟨hr,rfl⟩,_,_,⟨status,rfl⟩,h⟩ := h
  exact ⟨r,hr,by simpa using status,h⟩

/-- A superseded dispute takes its final state and its proof enters the index, before the
counters go down. -/
def supersededStorage (env : Env) (d y : Bytes32) (r : DisputeRecord) (s : Storage) : Storage :=
  Store.set (Store.set s (.Dispute d) (.record
    { r with
      status := .Superseded
      supersededBy := some y
      resolvedAt := env.timestamp }))
    (.Dispute (supersessionReverseKey env.sha256 y)) (.proofId r.proofId)

theorem supersedeDispute_ok {y : Bytes32} (h : supersedeDispute env admin d y s=.ok (x,s')) :
    ∃ r, s (.Dispute d)=some (.record r) ∧ isOpenStatus r.status=true ∧
      (s (.Proof y)).isSome=true ∧ y≠r.proofId ∧
      checkSupersessionCycle env.sha256 r.proofId y s=.ok (false,s) ∧
      ∃ t, decrementOpenDisputeCount r.proofId (supersededStorage env d y r s)=.ok ((),t) ∧
        decrementReporterOpenDisputeCount r.reporter t=.ok ((),s') := by
  simp only [supersedeDispute,recordSupersessionDirection,bind_ok,requireAdmin_ok,
    getDisputeRecord_ok,has_ok,failIf_ok,set_ok,pure_ok] at h
  obtain ⟨_,_,⟨-,-,rfl⟩,r,_,⟨hr,rfl⟩,_,_,⟨status,rfl⟩,h⟩ := h
  obtain ⟨_,_,⟨rfl,rfl⟩,_,_,⟨known,rfl⟩,_,_,⟨self,rfl⟩,h⟩ := h
  obtain ⟨_,_,check,_,_,⟨rfl,rfl⟩,_,_,rfl,_,_,rfl,_,_,h1,_,_,h2,-,rfl⟩ := h
  obtain ⟨rfl,-⟩ := checkSupersessionCycle_false check
  exact ⟨r,hr,by simpa using status,by simpa using known,beq_eq_false_iff_ne.1 self,check,_,h1,h2⟩

end Harpocrates.Registry
