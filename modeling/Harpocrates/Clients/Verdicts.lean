import Harpocrates.Clients.ProofManifest
import Harpocrates.Framework.Python
import Harpocrates.Registry.Lifecycle

namespace Harpocrates.Clients

open Framework Framework.Json Harpocrates.Registry

/-- A record as the clients decode it, with what their verdicts read. -/
structure ChainProofRecord where
  videoHash : Str
  metadataHash : Str
  tier : Nat
  status : Nat
  expiresAt : Option Nat

def hexStr (b : Bytes) : Str := (hex b).map .char

def ChainProofRecord.ofRecord (r : ProofRecord) : ChainProofRecord where
  videoHash := hexStr r.videoHash.val
  metadataHash := hexStr r.metadataHash.val
  tier := r.tier
  status := r.status
  expiresAt := some r.expiresAt

def fetchChainProof (s : Storage) (videoHash : Bytes32) : Option ChainProofRecord :=
  (getByVideo s videoHash).map .ofRecord

namespace Web

inductive VerificationOutcome
  | confirmed | metadataOnly | databaseOnly | revoked | malformed | unavailable
  deriving DecidableEq

structure VerificationResult (ε : Type) where
  outcome : VerificationOutcome
  message : String
  events : List ε
  chainProof : Option ChainProofRecord

def REVOKED_CHAIN_STATUS : Nat := 2

def hasMetadata : Option Json → Bool
  | some (.object entries) =>
    match entries.lookup (str "protocol") with
    | some (.string s) => s = str "harpocrates"
    | _ => false
  | _ => false

def classifyVerification {ε : Type} (metadata : Option Json) (events : List ε)
    (chainProof : Option ChainProofRecord) : VerificationResult ε :=
  if chainProof.map (·.status) = some REVOKED_CHAIN_STATUS then
    { outcome := .revoked
      message := "Revoked: the chain record for this artifact has been revoked. Do not trust it "++
        "as valid evidence."
      events := events
      chainProof := chainProof }
  else if hasMetadata metadata && 0 < events.length && chainProof.isSome then
    { outcome := .confirmed
      message := "Confirmed: embedded Harpocrates metadata is corroborated by database and "++
        "active chain records."
      events := events
      chainProof := chainProof }
  else if hasMetadata metadata then
    { outcome := .metadataOnly
      message := "Metadata only: embedded Harpocrates metadata lacks complete database and chain "++
        "confirmation. Treat this artifact as unconfirmed."
      events := events
      chainProof := chainProof }
  else if 0 < events.length then
    { outcome := .databaseOnly
      message := "Database record only: no valid embedded Harpocrates metadata or chain record "++
        "was found. Treat this artifact as unconfirmed."
      events := events
      chainProof := chainProof }
  else
    { outcome := .metadataOnly
      message := "No verification evidence found: metadata, database, and chain records did not "++
        "confirm this artifact. Treat it as unverified."
      events := events
      chainProof := chainProof }

theorem confirmed_iff {ε : Type} {metadata : Option Json} {events : List ε}
    {chainProof : Option ChainProofRecord} :
    (classifyVerification metadata events chainProof).outcome=.confirmed ↔
      hasMetadata metadata ∧ events≠[] ∧
        ∃ record, chainProof=some record ∧ record.status≠REVOKED_CHAIN_STATUS := by
  cases chainProof with
  | none =>
    unfold classifyVerification
    split_ifs with h1 h2 h3 h4
    all_goals simp_all
  | some record =>
    have hevents : 0<events.length ↔ events≠[] := List.length_pos_iff
    unfold classifyVerification
    split_ifs with h1 h2 h3 h4
    all_goals simp_all

end Web

namespace Cli

inductive VerificationResult
  | valid | expired | revoked | notFound | networkMismatch | contractMismatch | pending | failed
  | error
  deriving DecidableEq

inductive TransactionStatus
  | confirmed | pending | failed | missing
  deriving DecidableEq

structure TransactionVerification where
  status : TransactionStatus
  contractMatch : Option Bool := none

def computeResult (chainStatus : Option Nat) (txStatus : TransactionStatus) :
    VerificationResult :=
  match txStatus with
  | .missing => .notFound
  | .failed => .failed
  | .pending => .pending
  | .confirmed =>
    match chainStatus with
    | none => .notFound
    | some 1 => .valid
    | some 2 => .revoked
    | some 3 => .expired
    | some _ => .error

/-- Lower case, for the characters whose other case is ASCII. -/
def toLowerCase (s : Str) : Str :=
  s.map fun
    | .char c => .char (Python.lowerChar c)
    | p => p

def tierNumber : IdentityTier → Nat
  | .silent => 1
  | .source => 2
  | .seal => 3

def sameEvidence (manifest : ProofManifest) (record : ChainProofRecord) : Bool :=
  toLowerCase record.videoHash = toLowerCase manifest.videoHash &&
    toLowerCase record.metadataHash = toLowerCase manifest.metadataHash &&
    record.tier = tierNumber manifest.tier

def classifyVerification (manifest : ProofManifest) (transaction : TransactionVerification)
    (chainRecord : Option ChainProofRecord) (nowSeconds : Nat) : VerificationResult :=
  if transaction.contractMatch = some false then .contractMismatch
  else
    let result := computeResult (chainRecord.map (·.status)) transaction.status
    match chainRecord with
    | none => result
    | some record =>
      if !sameEvidence manifest record then .error
      else if result = .valid &&
          record.expiresAt.any fun expiresAt => 0 < expiresAt && expiresAt < nowSeconds then
        .expired
      else result

theorem computeResult_valid {chainStatus : Option Nat} {txStatus : TransactionStatus}
    (h : computeResult chainStatus txStatus=.valid) : chainStatus=some STATUS_REGISTERED := by
  unfold computeResult at h
  split at h
  · cases h
  · cases h
  · cases h
  · split at h
    · cases h
    · rfl
    · cases h
    · cases h
    · cases h

theorem valid_inversion {manifest : ProofManifest} {transaction : TransactionVerification}
    {chainRecord : Option ChainProofRecord} {nowSeconds : Nat}
    (h : classifyVerification manifest transaction chainRecord nowSeconds=.valid) :
    ∃ record, chainRecord=some record ∧ record.status=STATUS_REGISTERED ∧
      ∀ expiresAt, record.expiresAt=some expiresAt → ¬ (0<expiresAt ∧ expiresAt<nowSeconds)
    := by
  unfold classifyVerification at h
  split at h
  · cases h
  cases chainRecord with
  | none =>
    have hstatus := computeResult_valid h
    cases hstatus
  | some record =>
    simp only at h
    split at h
    · cases h
    split at h
    · cases h
    · rename_i hexpired
      refine ⟨record,rfl,Option.some.inj (computeResult_valid h),?_⟩
      intro expiresAt hat hover
      apply hexpired
      rw [h,hat]
      simpa using hover

end Cli

def Lapsed (record : ProofRecord) (now : Nat) : Prop :=
  record.status = STATUS_EXPIRED ∨ 0 < record.expiresAt ∧ record.expiresAt < now

variable {s : Storage}

variable {record : ProofRecord} {videoHash : Bytes32}

theorem status_valid_iff {proofId : Bytes32} {now : Nat} (h : s (.Proof proofId)=some record) :
    getProofStatus now s proofId=.Valid ↔
      record.status≠STATUS_REVOKED ∧ ¬ Lapsed record now := by
  unfold getProofStatus Lapsed
  simp only [h]
  split_ifs with h1 h2 h3
  all_goals simp_all

def CalledValid (s : Storage) (videoHash : Bytes32) (now : Nat) : Prop :=
  ∃ proofId, s (.Video videoHash) = some proofId ∧ getProofStatus now s proofId = .Valid

theorem getByVideo_some (h : getByVideo s videoHash=some record) :
    ∃ proofId, s (.Video videoHash)=some proofId ∧ s (.Proof proofId)=some record := by
  unfold getByVideo at h
  cases hvideo : s (.Video videoHash) with
  | none => simp only [hvideo] at h; cases h
  | some proofId =>
    simp only [hvideo] at h
    exact ⟨proofId,rfl,h⟩

theorem calledValid_iff {now : Nat} (h : getByVideo s videoHash=some record) :
    CalledValid s videoHash now ↔ record.status≠STATUS_REVOKED ∧ ¬ Lapsed record now := by
  obtain ⟨proofId,hvideo,hproof⟩ := getByVideo_some h
  rw [← status_valid_iff hproof]
  constructor
  · rintro ⟨other,hother,hstatus⟩
    rw [hvideo] at hother
    cases hother
    exact hstatus
  · intro hstatus
    exact ⟨proofId,hvideo,hstatus⟩

theorem fetchChainProof_some {r : ChainProofRecord} (h : fetchChainProof s videoHash=some r) :
    ∃ record, getByVideo s videoHash=some record ∧ r=.ofRecord record := by
  obtain ⟨record,hrecord,rfl⟩ := Option.map_eq_some_iff.1 h
  exact ⟨record,hrecord,rfl⟩

/-- The command line calls nothing valid that the registry does not; the web client's confirmation
is right exactly for the records that have not lapsed. -/
theorem client_verdicts_iff {ε : Type} (s : Storage) (videoHash : Bytes32) (now : Nat) :
    (∀ (manifest : ProofManifest) (transaction : Cli.TransactionVerification),
      Cli.classifyVerification manifest transaction (fetchChainProof s videoHash) now = .valid →
        CalledValid s videoHash now) ∧
      ∀ (metadata : Option Json) (events : List ε),
        (Web.classifyVerification metadata events (fetchChainProof s videoHash)).outcome =
            .confirmed →
          (CalledValid s videoHash now ↔
            ∀ record, getByVideo s videoHash = some record → ¬ Lapsed record now) := by
  constructor
  · intro manifest transaction hvalid
    obtain ⟨r,hr,hstatus,hexpires⟩ := Cli.valid_inversion hvalid
    obtain ⟨record,hrecord,rfl⟩ := fetchChainProof_some hr
    have hregistered : record.status=STATUS_REGISTERED := hstatus
    refine (calledValid_iff hrecord).2 ⟨by rw [hregistered]; decide,?_⟩
    rintro (hexpired | hover)
    · rw [hregistered] at hexpired
      exact absurd hexpired (by decide)
    · exact hexpires record.expiresAt rfl hover
  · intro metadata events hconfirmed
    obtain ⟨_,_,r,hr,hstatus⟩ := Web.confirmed_iff.1 hconfirmed
    obtain ⟨record,hrecord,rfl⟩ := fetchChainProof_some hr
    have hrevoked : record.status≠STATUS_REVOKED := hstatus
    rw [calledValid_iff hrecord]
    constructor
    · intro h other hother
      rw [hrecord] at hother
      cases hother
      exact h.2
    · intro h
      exact ⟨hrevoked,h record hrecord⟩

/-- A registry with one record, of the given status, that expires at time 100. -/
def oneRecord (status : Nat) : Storage :=
  Store.set (Store.set Store.empty (.Video zero32) zero32) (.Proof zero32)
    { videoHash := zero32
      metadataHash := zero32
      tier := 1
      status := status
      createdAt := 1
      expiresAt := 100
      source := none
      issuer := none
      nullifier := none
      batchSize := 0 }

def embedded : Option Json := some (.object [(str "protocol",.string (str "harpocrates"))])

theorem fetch_oneRecord (status : Nat) : fetchChainProof (oneRecord status) zero32 =
    some ⟨hexStr zero32.val,hexStr zero32.val,1,status,some 100⟩ := by
  simp [fetchChainProof,getByVideo,oneRecord,ChainProofRecord.ofRecord]

theorem confirms_oneRecord {status : Nat} (h : status≠Web.REVOKED_CHAIN_STATUS) :
    (Web.classifyVerification embedded [()] (fetchChainProof (oneRecord status) zero32)).outcome =
      .confirmed := by
  rw [fetch_oneRecord,Web.confirmed_iff]
  exact ⟨by decide,by simp,_,rfl,h⟩

theorem current_record_confirmed :
    (Web.classifyVerification embedded [()] (fetchChainProof (oneRecord 1) zero32)).outcome =
        .confirmed ∧ CalledValid (oneRecord 1) zero32 50 := by
  have hconfirmed := confirms_oneRecord (show 1≠Web.REVOKED_CHAIN_STATUS by decide)
  refine ⟨hconfirmed,
    ((client_verdicts_iff (oneRecord 1) zero32 50).2 embedded [()] hconfirmed).2 ?_⟩
  intro record hrecord
  have hstored : getByVideo (oneRecord 1) zero32=oneRecord 1 (.Proof zero32) := by
    simp [getByVideo,oneRecord]
  rw [hstored,oneRecord,Store.set_self] at hrecord
  cases hrecord
  simp [Lapsed,STATUS_EXPIRED]

/-- A record that is stored as expired, and one whose time is over, are confirmed by the web
client. -/
theorem lapsed_record_confirmed :
    (Web.classifyVerification embedded [()] (fetchChainProof (oneRecord 3) zero32)).outcome =
        .confirmed ∧
      getProofStatus 50 (oneRecord 3) zero32 = .Expired ∧
      (Web.classifyVerification embedded [()] (fetchChainProof (oneRecord 1) zero32)).outcome =
        .confirmed ∧
      getProofStatus 200 (oneRecord 1) zero32 = .Expired := by
  refine ⟨confirms_oneRecord (by decide),?_,confirms_oneRecord (by decide),?_⟩
  · simp [getProofStatus,oneRecord,STATUS_REVOKED,STATUS_EXPIRED]
  · simp [getProofStatus,oneRecord,STATUS_REVOKED,STATUS_EXPIRED]

end Harpocrates.Clients
