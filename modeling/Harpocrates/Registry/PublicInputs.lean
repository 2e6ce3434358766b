import Harpocrates.Registry.Types

namespace Harpocrates.Registry

open Framework

def DOMAIN_PROTOCOL_FIELD : Bytes32 :=
  ⟨[0x26,0x1e,0x9f,0x6e,0x39,0xe3,0xc1,0xae,0x6a,0xca,0x9f,0x29,0xe8,0x4c,0x10,0xd5,
    0x9c,0x82,0xd5,0xf4,0xb4,0x0c,0x21,0xc1,0xb7,0xe3,0xc0,0x1a,0xd5,0x71,0xc2,0x01],rfl⟩

def DOMAIN_VERSION_FIELD : Bytes32 :=
  ⟨[0x0c,0x89,0xef,0xf4,0xec,0x8e,0x39,0xa0,0x1e,0x9f,0x19,0x54,0x7a,0x0c,0xc9,0xdd,
    0x7f,0xd2,0xa9,0x7d,0x79,0xba,0x4d,0x94,0xfd,0x32,0xe9,0x7a,0x1f,0x5a,0xc6,0x23],rfl⟩

def DOMAIN_NETWORK_FIELD : Bytes32 :=
  ⟨[0x2a,0x2c,0x3f,0x48,0xce,0x2e,0x3c,0x2f,0x1e,0x6c,0x89,0xb1,0x8d,0x64,0xb5,0xf5,
    0xc1,0xf8,0x8a,0x59,0xa0,0xd9,0xbc,0x82,0xcb,0x61,0xa1,0xe8,0xcb,0x77,0xa5,0x0f],rfl⟩

/-- Seven zero bytes followed by `HARPOCRATES_REVOCATION_V1`. -/
def REVOCATION_DOMAIN_SEPARATOR : Bytes32 :=
  ⟨[0x00,0x00,0x00,0x00,0x00,0x00,0x00,0x48,0x41,0x52,0x50,0x4f,0x43,0x52,0x41,0x54,
    0x45,0x53,0x5f,0x52,0x45,0x56,0x4f,0x43,0x41,0x54,0x49,0x4f,0x4e,0x5f,0x56,0x31],rfl⟩

def AGGREGATION_DOMAIN_SEPARATOR : Bytes32 := zero32

def SILENT_WITNESS_V1_INPUT_LEN : Nat := 160
def SILENT_WITNESS_BROWSER_V1_INPUT_LEN : Nat := 128
def SILENT_WITNESS_V2_BARE_INPUT_LEN : Nat := 224
def SILENT_WITNESS_V2_ENVELOPED_INPUT_LEN : Nat := 256
def CIRCUIT_VERSION_TRAILER_OFFSET : Nat := 224
def REVOCATION_PUBLIC_INPUTS_LEN : Nat := 128
def EXPECTED_CIRCUIT_VERSION : Nat := 2

def field (frame : Bytes) (offset : Nat) : Bytes32 := BytesN.read 32 frame offset

def videoHashAt (frame : Bytes) (offset : Nat) : Bytes32 :=
  (BytesN.read 16 frame (offset+16)).append (BytesN.read 16 frame (offset+48))

def expectedDomainTag (sha256 : Bytes → Bytes32) : Bytes32 :=
  sha256 (DOMAIN_PROTOCOL_FIELD.1++DOMAIN_VERSION_FIELD.1++DOMAIN_NETWORK_FIELD.1)

structure SilentWitnessInputs where
  videoHash : Bytes32
  credentialRoot : Bytes32
  nullifier : Bytes32
  domainTag : Bytes32

def parseSilentWitnessPublicInputs (publicInputs : Bytes) :
    Except RegistryError SilentWitnessInputs :=
  if publicInputs.length ≠ SILENT_WITNESS_V1_INPUT_LEN then
    .error .InvalidPublicInputs
  else
    .ok
      { videoHash := videoHashAt publicInputs 0
        credentialRoot := field publicInputs 64
        nullifier := field publicInputs 96
        domainTag := field publicInputs 128 }

structure BrowserSilentWitnessInputs where
  videoHash : Bytes32
  credentialRoot : Bytes32
  nullifier : Bytes32

def parseBrowserSilentWitnessPublicInputs (publicInputs : Bytes) :
    Except RegistryError BrowserSilentWitnessInputs :=
  if publicInputs.length ≠ SILENT_WITNESS_BROWSER_V1_INPUT_LEN then
    .error .InvalidPublicInputs
  else
    .ok
      { videoHash := videoHashAt publicInputs 0
        credentialRoot := field publicInputs 64
        nullifier := field publicInputs 96 }

/-- A `u32` in the low four bytes of a field; a field that does not fit reads as the
largest one. -/
def circuitVersionOf (f : Bytes32) : Nat :=
  if (f.1.take 28).all (· == 0) then beNat (f.1.drop 28) else 2^32-1

/-- A `u64` in the low eight bytes of a field; a field that does not fit reads as the
largest one. -/
def bytesToU64Be (f : Bytes32) : Nat :=
  if (f.1.take 24).all (· == 0) then beNat (f.1.drop 24) else 2^64-1

structure ScopedSilentWitnessInputs where
  videoHash : Bytes32
  credentialRoot : Bytes32
  nullifier : Bytes32
  verifierScope : Bytes32
  epoch : Nat
  domainTag : Bytes32

def parseScopedSilentWitnessPublicInputs (publicInputs : Bytes) :
    Except RegistryError ScopedSilentWitnessInputs :=
  if publicInputs.length ≠ SILENT_WITNESS_V2_ENVELOPED_INPUT_LEN then
    .error .InvalidPublicInputs
  else if circuitVersionOf (field publicInputs CIRCUIT_VERSION_TRAILER_OFFSET) ≠
      EXPECTED_CIRCUIT_VERSION then
    .error .CircuitVersionMismatch
  else
    .ok
      { videoHash := videoHashAt publicInputs 0
        credentialRoot := field publicInputs 64
        nullifier := field publicInputs 96
        verifierScope := field publicInputs 128
        epoch := bytesToU64Be (field publicInputs 160)
        domainTag := field publicInputs 192 }

structure RevocationPublicInputs where
  revocationRoot : Bytes32
  nullifier : Bytes32
  domainSeparator : Bytes32
  credentialRoot : Bytes32

def parseRevocationPublicInputs (publicInputs : Bytes) :
    Except RegistryError RevocationPublicInputs :=
  if publicInputs.length ≠ REVOCATION_PUBLIC_INPUTS_LEN then
    .error .InvalidPublicInputs
  else
    .ok
      { revocationRoot := field publicInputs 0
        nullifier := field publicInputs 32
        domainSeparator := field publicInputs 64
        credentialRoot := field publicInputs 96 }

structure AggregatedBatchElement where
  videoHash : Bytes32
  credentialRoot : Bytes32
  nullifier : Bytes32

structure AggregatedPublicInputs where
  domainSeparator : Bytes32
  elements : Nat → AggregatedBatchElement

/-- One separator and then 128 bytes for each element. Slots past the batch stay zero. -/
def parseAggregatedPublicInputs (publicInputs : Bytes) (batchSize : Nat) :
    Except RegistryError AggregatedPublicInputs :=
  if publicInputs.length ≠ 32+batchSize*128 then
    .error .InvalidPublicInputs
  else
    .ok
      { domainSeparator := field publicInputs 0
        elements := fun i =>
          if i < batchSize then
            { videoHash := videoHashAt publicInputs (32+i*128)
              credentialRoot := field publicInputs (32+i*128+64)
              nullifier := field publicInputs (32+i*128+96) }
          else
            { videoHash := zero32, credentialRoot := zero32, nullifier := zero32 } }

variable {publicInputs : Bytes}

theorem parseAggregatedPublicInputs_ok {batchSize : Nat} {parsed : AggregatedPublicInputs}
    (h : parseAggregatedPublicInputs publicInputs batchSize=.ok parsed) {i : Nat}
    (hi : i<batchSize) :
    parsed.elements i=⟨videoHashAt publicInputs (32+i*128),field publicInputs (32+i*128+64),
      field publicInputs (32+i*128+96)⟩ := by
  unfold parseAggregatedPublicInputs at h
  split at h
  · cases h
  · cases h
    exact if_pos hi

structure SelectiveDisclosureInputs where
  schemaHash : Bytes32
  issuerNamespace : Bytes32
  schemaVersion : Nat
  credentialRoot : Bytes32
  nullifier : Bytes32
  videoHashHi : Bytes32
  videoHashLo : Bytes32
  verifierDigest : Bytes32
  circuitVersion : Nat
  evidenceDigest : Bytes32
  predicateCommitment : Bytes32

/-- The low four bytes of a field; unlike `circuitVersionOf` it ignores the rest. -/
def u32FromBeBytes (f : Bytes32) : Nat := beNat (f.1.drop 28)

def parseSelectiveDisclosureInputs (publicInputs : Bytes) :
    Except RegistryError SelectiveDisclosureInputs :=
  if publicInputs.length ≠ 352 then
    .error .InvalidPublicInputs
  else
    .ok
      { schemaHash := field publicInputs 0
        issuerNamespace := field publicInputs 32
        schemaVersion := u32FromBeBytes (field publicInputs 64)
        credentialRoot := field publicInputs 96
        nullifier := field publicInputs 128
        videoHashHi := field publicInputs 160
        videoHashLo := field publicInputs 192
        verifierDigest := field publicInputs 224
        circuitVersion := u32FromBeBytes (field publicInputs 256)
        evidenceDigest := field publicInputs 288
        predicateCommitment := field publicInputs 320 }

theorem parseSilentWitnessPublicInputs_ok {parsed : SilentWitnessInputs}
    (h : parseSilentWitnessPublicInputs publicInputs=.ok parsed) :
    publicInputs.length=SILENT_WITNESS_V1_INPUT_LEN ∧
      parsed=⟨videoHashAt publicInputs 0,field publicInputs 64,field publicInputs 96,
        field publicInputs 128⟩ := by
  unfold parseSilentWitnessPublicInputs at h
  split at h
  · cases h
  · rename_i hlen
    exact ⟨not_not.1 hlen,(Except.ok.inj h).symm⟩

theorem parseBrowserSilentWitnessPublicInputs_ok {parsed : BrowserSilentWitnessInputs}
    (h : parseBrowserSilentWitnessPublicInputs publicInputs=.ok parsed) :
    publicInputs.length=SILENT_WITNESS_BROWSER_V1_INPUT_LEN ∧
      parsed=⟨videoHashAt publicInputs 0,field publicInputs 64,field publicInputs 96⟩ := by
  unfold parseBrowserSilentWitnessPublicInputs at h
  split at h
  · cases h
  · rename_i hlen
    exact ⟨not_not.1 hlen,(Except.ok.inj h).symm⟩

theorem parseScopedSilentWitnessPublicInputs_ok {parsed : ScopedSilentWitnessInputs}
    (h : parseScopedSilentWitnessPublicInputs publicInputs=.ok parsed) :
    publicInputs.length=SILENT_WITNESS_V2_ENVELOPED_INPUT_LEN ∧
      circuitVersionOf (field publicInputs CIRCUIT_VERSION_TRAILER_OFFSET) =
        EXPECTED_CIRCUIT_VERSION ∧
      parsed=⟨videoHashAt publicInputs 0,field publicInputs 64,field publicInputs 96,
        field publicInputs 128,bytesToU64Be (field publicInputs 160),field publicInputs 192⟩ := by
  unfold parseScopedSilentWitnessPublicInputs at h
  split at h
  · cases h
  · rename_i hlen
    split at h
    · cases h
    · rename_i hversion
      exact ⟨not_not.1 hlen,not_not.1 hversion,(Except.ok.inj h).symm⟩

theorem parseRevocationPublicInputs_ok {parsed : RevocationPublicInputs}
    (h : parseRevocationPublicInputs publicInputs=.ok parsed) :
    publicInputs.length=REVOCATION_PUBLIC_INPUTS_LEN ∧
      parsed=⟨field publicInputs 0,field publicInputs 32,field publicInputs 64,
        field publicInputs 96⟩ := by
  unfold parseRevocationPublicInputs at h
  split at h
  · cases h
  · rename_i hlen
    exact ⟨not_not.1 hlen,(Except.ok.inj h).symm⟩

theorem parseSelectiveDisclosureInputs_ok {parsed : SelectiveDisclosureInputs}
    (h : parseSelectiveDisclosureInputs publicInputs=.ok parsed) : publicInputs.length=352 ∧
      parsed=⟨field publicInputs 0,field publicInputs 32,
        u32FromBeBytes (field publicInputs 64),field publicInputs 96,field publicInputs 128,
        field publicInputs 160,field publicInputs 192,field publicInputs 224,
        u32FromBeBytes (field publicInputs 256),field publicInputs 288,
        field publicInputs 320⟩ := by
  unfold parseSelectiveDisclosureInputs at h
  split at h
  · cases h
  · rename_i hlen
    exact ⟨not_not.1 hlen,(Except.ok.inj h).symm⟩

def indexByte (index : Nat) : UInt8 := UInt8.ofNat (index%256)

/-- The id of a batch element: byte `j` of the batch id is combined with `j+1` times the
index. -/
def deriveElementProofId (batchId : Bytes32) (index : Nat) : Bytes32 :=
  ⟨batchId.1.mapIdx fun j b => b ^^^ (indexByte index*(UInt8.ofNat j+1)),by
    rw [List.length_mapIdx,batchId.2]⟩

/-- Elements of one batch have different ids, since the first byte takes the index itself. -/
theorem deriveElementProofId_inj (batchId : Bytes32) {i j : Nat} (hi : i<256) (hj : j<256)
    (h : deriveElementProofId batchId i=deriveElementProofId batchId j) : i=j := by
  obtain ⟨bytes,hlen⟩ := batchId
  obtain ⟨b,bs,rfl⟩ : ∃ b bs, bytes=b::bs := by
    cases bytes with
    | nil => simp at hlen
    | cons b bs => exact ⟨b,bs,rfl⟩
  have h0 : b ^^^ indexByte i=b ^^^ indexByte j := by
    have := congrArg (fun x => x.1.head?) h
    simpa [deriveElementProofId] using this
  have h1 : indexByte i=indexByte j := by
    have := congrArg (b ^^^ ·) h0
    simpa [← UInt8.xor_assoc] using this
  have h2 := congrArg UInt8.toNat h1
  simp only [indexByte,UInt8.toNat_ofNat'] at h2
  omega

end Harpocrates.Registry
