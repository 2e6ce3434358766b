import Harpocrates.Clients.Verdicts

namespace Harpocrates.Clients.Provenance

open Framework Framework.Json Harpocrates.Registry

/-! Where a manifest and a record of the registry differ, as the web client's provenance view and as
the command line see it. -/

def TIER_TO_NUMBER : IdentityTier → Nat
  | .silent => 0
  | .source => 1
  | .seal => 2

inductive MismatchField
  | videoHash | metadataHash | tier
  deriving DecidableEq

structure ProvenanceMismatch where
  field : MismatchField
  manifestValue : Str
  chainValue : Str
  deriving DecidableEq

def number (n : Nat) : Str := str (toString n)

def detectMismatches (manifest : ProofManifest) (chainProof : Option ChainProofRecord) :
    List ProvenanceMismatch :=
  match chainProof with
  | none => []
  | some record =>
    (if manifest.videoHash.val ≠ record.videoHash then
      [⟨.videoHash,manifest.videoHash,record.videoHash⟩] else [])++
    (if manifest.metadataHash.val ≠ record.metadataHash then
      [⟨.metadataHash,manifest.metadataHash,record.metadataHash⟩] else [])++
    (if TIER_TO_NUMBER manifest.tier ≠ record.tier then
      [⟨.tier,number (TIER_TO_NUMBER manifest.tier),number record.tier⟩] else [])

/-- The number under which the registry stores a tier. -/
def registryTier : IdentityTier → Nat
  | .silent => TIER_SILENT_WITNESS
  | .source => TIER_CONSISTENT_SOURCE
  | .seal => TIER_PUBLIC_SEAL

def SameHashes (manifest : ProofManifest) (record : ChainProofRecord) : Prop :=
  manifest.videoHash.val = record.videoHash ∧ manifest.metadataHash.val = record.metadataHash

def SameHashesUpToCase (manifest : ProofManifest) (record : ChainProofRecord) : Prop :=
  Cli.toLowerCase record.videoHash = Cli.toLowerCase manifest.videoHash ∧
    Cli.toLowerCase record.metadataHash = Cli.toLowerCase manifest.metadataHash

def TakenFrom (manifest : ProofManifest) (record : ChainProofRecord) : Prop :=
  SameHashes manifest record ∧ record.tier = registryTier manifest.tier

def ClientsAgree (manifest : ProofManifest) (record : ChainProofRecord) : Prop :=
  (detectMismatches manifest (some record) = [] ↔ Cli.sameEvidence manifest record) ∧
    (TakenFrom manifest record →
      detectMismatches manifest (some record) = [] ∧ Cli.sameEvidence manifest record)

variable {manifest : ProofManifest} {record : ChainProofRecord}

theorem registryTier_eq (tier : IdentityTier) : registryTier tier=TIER_TO_NUMBER tier+1 := by
  cases tier <;> rfl

theorem detectMismatches_nil : detectMismatches manifest (some record)=[] ↔
    SameHashes manifest record ∧ record.tier+1=registryTier manifest.tier := by
  rw [registryTier_eq]
  unfold detectMismatches SameHashes
  simp only [List.append_eq_nil_iff,ite_eq_right_iff,reduceCtorEq,imp_false,not_not]
  constructor
  · rintro ⟨hhashes,htier⟩
    exact ⟨hhashes,by rw [htier]⟩
  · rintro ⟨hhashes,htier⟩
    exact ⟨hhashes,(Nat.succ.inj htier).symm⟩

theorem sameEvidence_iff : Cli.sameEvidence manifest record ↔
    SameHashesUpToCase manifest record ∧ record.tier=registryTier manifest.tier := by
  have htier : Cli.tierNumber manifest.tier=registryTier manifest.tier := by
    cases manifest.tier <;> rfl
  simp [Cli.sameEvidence,SameHashesUpToCase,htier]

/-- The web client counts the tiers from zero and the registry from one: the two clients agree only
on records that neither of them takes for the manifest's. -/
theorem clients_agree_iff (manifest : ProofManifest) (record : ChainProofRecord) :
    ClientsAgree manifest record ↔
      ¬ (SameHashesUpToCase manifest record ∧ record.tier = registryTier manifest.tier) ∧
      ¬ (SameHashes manifest record ∧ record.tier+1 = registryTier manifest.tier) := by
  unfold ClientsAgree
  rw [detectMismatches_nil,sameEvidence_iff]
  constructor
  · rintro ⟨hiff,-⟩
    -- the tier cannot be both the registry's number and the one below it
    refine ⟨fun hcli => ?_,fun hweb => ?_⟩
    · have hweb := (hiff.2 hcli).2
      omega
    · have hcli := (hiff.1 hweb).2
      omega
  · rintro ⟨hcli,hweb⟩
    refine ⟨⟨fun h => absurd h hweb,fun h => absurd h hcli⟩,?_⟩
    rintro ⟨⟨hvideo,hmetadata⟩,htier⟩
    exact absurd ⟨⟨by rw [hvideo],by rw [hmetadata]⟩,htier⟩ hcli

def zeroHash : JoinedStr := JoinedStr.of (String.ofList (List.replicate 64 '0'))

def silentManifest : ProofManifest := createProofManifest
  { proofId := zeroHash
    tier := .silent
    network := .of "Test SDF Network ; September 2015"
    contractId := .of "C"
    transactionRef := zeroHash
    videoHash := zeroHash
    metadataHash := zeroHash
    sourceHash := zeroHash
    timestamp := .of "2026-01-01T00:00:00Z" }

def silentRecord : ChainProofRecord :=
  ⟨hexStr zero32.val,hexStr zero32.val,TIER_SILENT_WITNESS,STATUS_REGISTERED,some 0⟩

/-- The manifest of a stored silent proof passes on the command line, and the web client reports
its tier. -/
theorem silent_manifest_flagged : TakenFrom silentManifest silentRecord ∧
    Cli.sameEvidence silentManifest silentRecord ∧
    detectMismatches silentManifest (some silentRecord) = [⟨.tier,str "0",str "1"⟩] := by
  refine ⟨⟨⟨?_,?_⟩,rfl⟩,?_,?_⟩ <;> decide

end Harpocrates.Clients.Provenance
