import Harpocrates.Circuits.Common
import Harpocrates.Registry.Refinement

namespace Harpocrates.Circuits.SilentWitness

open Framework Framework.Fallible Registry

def CURRENT_CIRCUIT_VERSION : Nat := 2

@[ext] structure PublicInputs (F : Type) where
  videoHashHi : F
  videoHashLo : F
  credentialRoot : F
  nullifier : F
  verifierScope : F
  epoch : F
  domainTag : F
  circuitVersion : F

/-- The inputs in the order in which the registry gets them. -/
def PublicInputs.frame {F : Type} (inputs : PublicInputs F) (toBytes : F → Bytes32) : Bytes :=
  [inputs.videoHashHi,inputs.videoHashLo,inputs.credentialRoot,inputs.nullifier,
    inputs.verifierScope,inputs.epoch,inputs.domainTag,inputs.circuitVersion].flatMap
      fun f => (toBytes f).1

section

variable {F : Type} [DecidableEq F] [NatCast F] (pedersenHash : List F → F)

def main (credentialSecret nullifierSecret : F) (inputs : PublicInputs F) :
    Except Failure Unit := do
  let scopeHash := pedersenHash [SCOPED_NULLIFIER_V1,inputs.verifierScope,inputs.epoch]
  let evidenceDigest := pedersenHash
    [DIGEST_ALGORITHM_SHA256,inputs.videoHashHi,inputs.videoHashLo,scopeHash]
  let derivedRoot := pedersenHash [credentialSecret]
  let derivedNullifier := pedersenHash [credentialSecret,nullifierSecret,evidenceDigest]
  assertThat (derivedRoot = inputs.credentialRoot) .malformed
  assertThat (derivedNullifier = inputs.nullifier) .malformed
  let expectedDomainTag := pedersenHash
    [DOMAIN_PROTOCOL_FIELD,DOMAIN_VERSION_FIELD,DOMAIN_NETWORK_FIELD]
  assertThat (inputs.domainTag = expectedDomainTag) .unsupported

variable {pedersenHash} {cs ns cs' ns' : F} {inputs inputs' : PublicInputs F}

theorem main_ok : main pedersenHash cs ns inputs=.ok () ↔
    pedersenHash [cs]=inputs.credentialRoot ∧
    computeScopedNullifier pedersenHash cs ns inputs.videoHashHi inputs.videoHashLo
      inputs.verifierScope inputs.epoch=inputs.nullifier ∧
    inputs.domainTag=expectedDomainTag pedersenHash := by
  rw [main,unit_bind_ok,unit_bind_ok,assertThat_ok,assertThat_ok,assertThat_ok]
  rfl

omit [DecidableEq F] in
/-- The nullifier determines the secrets and the evidence under it. -/
theorem computeScopedNullifier_inj (hfree : Function.Injective pedersenHash)
    {vhi vlo scope ep vhi' vlo' scope' ep' : F} :
    computeScopedNullifier pedersenHash cs ns vhi vlo scope ep =
      computeScopedNullifier pedersenHash cs' ns' vhi' vlo' scope' ep' ↔
    cs=cs' ∧ ns=ns' ∧ vhi=vhi' ∧ vlo=vlo' ∧ scope=scope' ∧ ep=ep' := by
  simp [computeScopedNullifier,hfree.eq_iff]

end

section

variable {F : Type} (inputs : PublicInputs F) (toBytes : F → Bytes32)

theorem length_frame : (inputs.frame toBytes).length=256 := by
  simp [PublicInputs.frame,(toBytes _).2]

theorem frameNullifier_frame :
    frameNullifier (inputs.frame toBytes)=toBytes inputs.nullifier := by
  have hsplit : inputs.frame toBytes =
      ([inputs.videoHashHi,inputs.videoHashLo,inputs.credentialRoot].flatMap
        fun f => (toBytes f).1)++((toBytes inputs.nullifier).1++
      ([inputs.verifierScope,inputs.epoch,inputs.domainTag,inputs.circuitVersion].flatMap
        fun f => (toBytes f).1)) := by
    simp [PublicInputs.frame]
  have hbefore : ([inputs.videoHashHi,inputs.videoHashLo,inputs.credentialRoot].flatMap
      fun f => (toBytes f).1).length=96 := by
    simp [(toBytes _).2]
  have hroom : 96+32≤(inputs.frame toBytes).length := by
    rw [length_frame]
    decide
  refine Subtype.ext ?_
  rw [frameNullifier,field,BytesN.read_val hroom,hsplit,List.drop_left' hbefore,
    List.take_left' (toBytes inputs.nullifier).2]

/-- A registration whose nullifier is consumed does not go through. -/
theorem consumed_refused {env : Env} {s : Storage} {a : Address} (ha : s .Verifier=some a)
    (hused : hasNullifier s a (toBytes inputs.nullifier)=true) (v m p : Bytes32)
    (proof : Bytes) (x : ProofRecord × Storage) :
    registerAnonymousVerified env v m p (inputs.frame toBytes) proof s≠.ok x := by
  obtain ⟨r,s'⟩ := x
  intro h
  obtain ⟨a',ha',-,-,hfresh,-⟩ := registerAnonymousVerified_ok h
  cases ha.symm.trans ha'
  have hlen : (inputs.frame toBytes).length≠SILENT_WITNESS_BROWSER_V1_INPUT_LEN := by
    rw [length_frame]
    decide
  rw [frameNullifier_frame] at hfresh
  rw [hfresh hlen] at hused
  cases hused

end

/-- Two accepted witnesses of one identity for the same evidence, scope and epoch have one
nullifier exactly when they use one nullifier secret; the registry then takes only one of them. -/
theorem one_nullifier_per_secret {F : Type} [DecidableEq F] [NatCast F] {pedersenHash : List F → F}
    (hfree : Function.Injective pedersenHash) {cs ns cs' ns' : F} {inputs inputs' : PublicInputs F}
    (h : main pedersenHash cs ns inputs = .ok ()) (h' : main pedersenHash cs' ns' inputs' = .ok ())
    (hroot : inputs.credentialRoot = inputs'.credentialRoot)
    (hhi : inputs.videoHashHi = inputs'.videoHashHi)
    (hlo : inputs.videoHashLo = inputs'.videoHashLo)
    (hscope : inputs.verifierScope = inputs'.verifierScope)
    (hepoch : inputs.epoch = inputs'.epoch) :
    (inputs.nullifier = inputs'.nullifier ↔ ns = ns') ∧
    (ns = ns' → ∀ (toBytes : F → Bytes32) (env : Env) (s : Storage) (a : Address)
      (v m p : Bytes32) (proof : Bytes) (x : ProofRecord × Storage), s .Verifier = some a →
      hasNullifier s a (toBytes inputs.nullifier) = true →
      registerAnonymousVerified env v m p (inputs'.frame toBytes) proof s ≠ .ok x) := by
  obtain ⟨hcs,hns,-⟩ := main_ok.1 h
  obtain ⟨hcs',hns',-⟩ := main_ok.1 h'
  have hsame : cs=cs' := (List.cons.inj (hfree (hcs.trans (hroot.trans hcs'.symm)))).1
  subst hsame
  have hiff : inputs.nullifier=inputs'.nullifier ↔ ns=ns' := by
    rw [← hns,← hns',computeScopedNullifier_inj hfree]
    simp [hhi,hlo,hscope,hepoch]
  refine ⟨hiff,fun heq toBytes env s a v m p proof x ha hused => ?_⟩
  rw [hiff.2 heq] at hused
  exact consumed_refused inputs' toBytes ha hused v m p proof x

/-- What the identity with secret 12345 presents for one piece of evidence. -/
def presented (nullifierSecret : Nat) : PublicInputs Nat where
  videoHashHi := 1
  videoHashLo := 2
  credentialRoot := freeHash [12345]
  nullifier := computeScopedNullifier freeHash 12345 nullifierSecret 1 2 0 0
  verifierScope := 0
  epoch := 0
  domainTag := expectedDomainTag freeHash
  circuitVersion := 2

theorem presented_ok (ns : Nat) : main freeHash 12345 ns (presented ns)=.ok () :=
  main_ok.2 ⟨rfl,rfl,rfl⟩

theorem one_nullifier_per_secret_presented :
    main freeHash 12345 67890 (presented 67890) = .ok () ∧
    main freeHash 12345 67890 { presented 67890 with circuitVersion := 1 } = .ok () ∧
    (presented 67890).nullifier =
      ({ presented 67890 with circuitVersion := 1 } : PublicInputs Nat).nullifier := by
  have h : main freeHash 12345 67890 { presented 67890 with circuitVersion := 1 }=.ok () :=
    main_ok.2 ⟨rfl,rfl,rfl⟩
  exact ⟨presented_ok 67890,h,(one_nullifier_per_secret freeHash_injective (presented_ok 67890) h
    rfl rfl rfl rfl rfl).1.2 rfl⟩

/-- One identity, one piece of evidence, two nullifiers. -/
theorem second_nullifier :
    main freeHash 12345 1 (presented 1) = .ok () ∧ main freeHash 12345 2 (presented 2) = .ok () ∧
    (presented 1).credentialRoot = (presented 2).credentialRoot ∧
    (presented 1).videoHashHi = (presented 2).videoHashHi ∧
    (presented 1).videoHashLo = (presented 2).videoHashLo ∧
    (presented 1).verifierScope = (presented 2).verifierScope ∧
    (presented 1).epoch = (presented 2).epoch ∧
    (presented 1).nullifier ≠ (presented 2).nullifier :=
  ⟨presented_ok 1,presented_ok 2,rfl,rfl,rfl,rfl,rfl,
    fun h => absurd ((computeScopedNullifier_inj freeHash_injective).1 h).2.1 (by decide)⟩

/-- What an accepted nullifier stands for, up to the circuit version: two accepted statements with
one nullifier are the same exactly when they name the same version. -/
theorem nullifier_binds_statement {F : Type} [DecidableEq F] [NatCast F]
    {pedersenHash : List F → F} (hfree : Function.Injective pedersenHash) {cs ns cs' ns' : F}
    {inputs inputs' : PublicInputs F} (h : main pedersenHash cs ns inputs = .ok ())
    (h' : main pedersenHash cs' ns' inputs' = .ok ())
    (hnullifier : inputs.nullifier = inputs'.nullifier) :
    inputs = inputs' ↔ inputs.circuitVersion = inputs'.circuitVersion := by
  obtain ⟨hroot,hnull,hdomain⟩ := main_ok.1 h
  obtain ⟨hroot',hnull',hdomain'⟩ := main_ok.1 h'
  have hsame := hnull.trans (hnullifier.trans hnull'.symm)
  obtain ⟨rfl,-,hhi,hlo,hscope,hepoch⟩ := (computeScopedNullifier_inj hfree).1 hsame
  constructor
  · intro heq
    rw [heq]
  · intro hversion
    refine PublicInputs.ext hhi hlo ?_ hnullifier hscope hepoch ?_ hversion
    · exact hroot.symm.trans hroot'
    · exact hdomain.trans hdomain'.symm

theorem nullifier_binds_statement_presented :
    ∃ inputs : PublicInputs Nat, main freeHash 12345 67890 inputs = .ok () ∧
      inputs.nullifier = (presented 67890).nullifier ∧ inputs = presented 67890 :=
  ⟨presented 67890,presented_ok 67890,rfl,(nullifier_binds_statement freeHash_injective
    (presented_ok 67890) (presented_ok 67890) rfl).2 rfl⟩

/-- The frame of the second circuit, relabelled to the first. -/
theorem relabelled_frame :
    main freeHash 12345 67890 (presented 67890) = .ok () ∧
    main freeHash 12345 67890 { presented 67890 with circuitVersion := 1 } = .ok () ∧
    ({ presented 67890 with circuitVersion := 1 } : PublicInputs Nat).nullifier =
      (presented 67890).nullifier ∧
    ({ presented 67890 with circuitVersion := 1 } : PublicInputs Nat) ≠ presented 67890 :=
  ⟨presented_ok 67890,main_ok.2 ⟨rfl,rfl,rfl⟩,rfl,
    fun h => absurd (congrArg PublicInputs.circuitVersion h) (by decide)⟩

end Harpocrates.Circuits.SilentWitness
