import Harpocrates.Registry.Guards

namespace Harpocrates.Registry

open Framework Tx

def MAX_HISTORY_ENTRIES_PER_PROOF : Nat := 256
def METADATA_ENVELOPE_V1 : Nat := 1
def METADATA_ENVELOPE_V2 : Nat := 2
def METADATA_ENVELOPE_VERSION_MAX : Nat := METADATA_ENVELOPE_V2
def METADATA_ENVELOPE_VERSION_DEFAULT : Nat := METADATA_ENVELOPE_V1

inductive ProofLifecycleAction
  | Registered | Verified | Revoked | Expired | Corrected | TtlUpdated
  deriving DecidableEq

def ProofLifecycleAction.code : ProofLifecycleAction → Nat
  | Registered => 1
  | Verified => 2
  | Revoked => 3
  | Expired => 4
  | Corrected => 5
  | TtlUpdated => 6

def computeExpiresAt (env : Env) (s : Storage) : Nat :=
  let ttl := (s .ProofTtl).getD 0
  if ttl = 0 then 0 else satAdd64 env.timestamp ttl

def requireUnique (proofId videoHash : Bytes32) : M Unit := do
  panicIf (← has (.Proof proofId)) .DuplicateProof
  panicIf (← has (.Video videoHash)) .DuplicateVideo

@[simp] theorem requireUnique_ok (p v : Bytes32) (s s' : Storage) (u : Unit) :
    requireUnique p v s=.ok (u,s') ↔ s (.Proof p)=none ∧ s (.Video v)=none ∧ s=s' := by
  simp only [requireUnique,bind_ok,has_ok,failIf_ok]
  constructor
  · intro hyp
    obtain ⟨_,_,⟨h1,rfl⟩,_,_,⟨rfl,rfl⟩,_,_,⟨h2,rfl⟩,rfl,rfl⟩ := hyp
    exact ⟨by simpa using h1,by simpa using h2,rfl⟩
  · intro hyp
    obtain ⟨h1,h2,rfl⟩ := hyp
    exact ⟨_,s,⟨rfl,rfl⟩,(),s,⟨by simp [h1],rfl⟩,_,s,⟨rfl,rfl⟩,by simp [h2],rfl⟩

@[simp] theorem requireUnique_writes (W : DataKey → Prop) (p v : Bytes32) :
    Writes W (requireUnique p v) := by
  intro s u s' h
  simp_all

def recordProofHistory (env : Env) (proofId : Bytes32) (action : Nat) (actor : Option Address)
    (reasonCode : Nat) : M Unit := do
  panicIf (action == 0 || action > 6) .InvalidHistoryAction
  panicIf (reasonCode > 255) .InvalidReasonCode
  let seq := (← load (.ProofHistorySeq proofId)).getD 0
  panicIf (seq ≥ MAX_HISTORY_ENTRIES_PER_PROOF) .HistorySaturated
  store (.ProofHistoryEntry proofId (seq+1))
    { action, timestamp := env.timestamp, actor, reasonCode }
  store (.ProofHistorySeq proofId) (seq+1)

variable {fs : List Family}

@[simp] theorem recordProofHistory_writes (env : Env) (p : Bytes32) (action : Nat)
    (actor : Option Address) (reasonCode : Nat)
    (h : [Family.ProofHistorySeq,.ProofHistoryEntry] ⊆ fs) :
    Writes (In fs) (recordProofHistory env p action actor reasonCode) := by
  obtain ⟨h1,h2⟩ : Family.ProofHistorySeq∈fs ∧ Family.ProofHistoryEntry∈fs := by
    simpa using h
  unfold recordProofHistory
  repeat' first | with_reducible refine Writes.bind ?_ fun _ => ?_ | simp [h1,h2]

/-- A registration without an explicit envelope gets one of the first version. -/
def stampDefaultMetadataEnvelope (env : Env) (proofId metadataHash : Bytes32) : M Unit := do
  if ← has (.MetadataEnvelope proofId) then
    pure ()
  else
    store (.MetadataEnvelope proofId)
      { proofId
        version := METADATA_ENVELOPE_VERSION_DEFAULT
        metadataHash := if metadataHash = zero32 then zero32 else metadataHash
        boundAt := env.timestamp }

@[simp] theorem stampDefaultMetadataEnvelope_writes (env : Env) (p m : Bytes32)
    (h : Family.MetadataEnvelope∈fs) :
    Writes (In fs) (stampDefaultMetadataEnvelope env p m) := by
  unfold stampDefaultMetadataEnvelope
  repeat' first
    | with_reducible refine Writes.bind ?_ fun _ => ?_
    | apply Writes.ite
    | simp [h]

/-- The one place where a registration enters the two indexes. -/
def saveRecord (env : Env) (proofId : Bytes32) (record : ProofRecord) (actor : Option Address) :
    M ProofRecord := do
  store (.Proof proofId) record
  store (.Video record.videoHash) proofId
  recordProofHistory env proofId ProofLifecycleAction.Registered.code actor record.tier
  stampDefaultMetadataEnvelope env proofId record.metadataHash
  pure record

def recordFootprint : List Family :=
  [.Proof,.Video,.ProofHistorySeq,.ProofHistoryEntry,.MetadataEnvelope]

theorem saveRecord_writes (env : Env) (p : Bytes32) (r : ProofRecord) (actor : Option Address)
    (h : recordFootprint ⊆ fs) : Writes (In fs) (saveRecord env p r actor) := by
  simp only [recordFootprint,List.cons_subset,List.nil_subset,and_true] at h
  obtain ⟨h1,h2,h3,h4,h5⟩ := h
  unfold saveRecord
  repeat' first | with_reducible refine Writes.bind ?_ fun _ => ?_ | simp [*]

/-- Apart from the history and the envelope of the new proof, saving a record changes the
two index entries and nothing else. -/
theorem saveRecord_ok {env : Env} {p : Bytes32} {r r' : ProofRecord} {actor : Option Address}
    {s s' : Storage} (h : saveRecord env p r actor s=.ok (r',s')) :
    r'=r ∧ ∀ k, ¬ In [.ProofHistorySeq,.ProofHistoryEntry,.MetadataEnvelope] k →
      s' k=(Store.set (Store.set s (.Proof p) r) (.Video r.videoHash) p) k := by
  simp only [saveRecord,bind_ok,set_ok,pure_ok] at h
  obtain ⟨_,_,rfl,_,_,rfl,_,t1,h1,_,t2,h2,rfl,rfl⟩ := h
  refine ⟨rfl,fun k hk => ?_⟩
  have e1 : t1 k = _ := recordProofHistory_writes env p _ actor r.tier (by simp) _ _ _ h1 k hk
  have e2 : t2 k=t1 k :=
    stampDefaultMetadataEnvelope_writes env p r.metadataHash (by simp) _ _ _ h2 k hk
  exact e2.trans e1

end Harpocrates.Registry
