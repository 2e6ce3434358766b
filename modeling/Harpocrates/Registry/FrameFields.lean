import Harpocrates.Registry.Refinement

namespace Harpocrates.Registry

open Framework Tx Nat

variable {f : Bytes32} {s s' : Storage}

theorem bytesToU64Be_of_lt (h : beNat f.1<2^64) : bytesToU64Be f=beNat f.1 := by
  have hlt : beNat f.1<256^8 := h
  have hzero := (beNat_lt_iff (m := 24) f.2).1 hlt
  rw [bytesToU64Be,if_pos hzero,beNat_of_lt (m := 24) f.2 hlt]

theorem bytesToU64Be_of_le (h : 2^64≤beNat f.1) : bytesToU64Be f=2^64-1 := by
  have hle : ¬ beNat f.1<256^8 := not_lt.2 h
  have hnonzero := mt (beNat_lt_iff (m := 24) f.2).2 hle
  rw [bytesToU64Be,if_neg hnonzero]

theorem bytesToU64Be_eq_min (f : Bytes32) : bytesToU64Be f=min (beNat f.1) (2^64-1) := by
  rcases lt_or_ge (beNat f.1) (2^64) with hlt | hle
  · rw [bytesToU64Be_of_lt hlt,min_eq_left (by omega)]
  · rw [bytesToU64Be_of_le hle,min_eq_right (by omega)]

/-- The number read from a field is the one the field holds, unless a field that is too large is
read as the largest `u64`. -/
theorem bytesToU64Be_exact {n : Nat} (h : bytesToU64Be f=n) :
    beNat f.1=n ↔ ¬ (n=2^64-1 ∧ 2^64≤beNat f.1) := by
  rcases lt_or_ge (beNat f.1) (2^64) with hlt | hle
  · rw [bytesToU64Be_of_lt hlt] at h
    exact iff_of_true h (by omega)
  · rw [bytesToU64Be_of_le hle] at h
    exact iff_of_false (by omega) (by simpa [← h] using hle)

theorem u32FromBeBytes_eq_mod (f : Bytes32) : u32FromBeBytes f=beNat f.1%2^32 := by
  have hlen : (f.1.drop 28).length=4 := by simp [f.2]
  have hlt : beNat (f.1.drop 28)<256^4 := by
    rw [← hlen]
    exact beNat_lt _
  have hsplit : beNat f.1=beNat (f.1.take 28)*256^4+beNat (f.1.drop 28) := by
    rw [← hlen,← beNat_append,List.take_append_drop]
  rw [u32FromBeBytes,hsplit]
  omega

theorem u32FromBeBytes_exact (f : Bytes32) :
    beNat f.1=u32FromBeBytes f ↔ beNat f.1<2^32 := by
  rw [u32FromBeBytes_eq_mod]
  omega

theorem next_epoch {host : Host} {w w' : World} {l : Label} (hst : next host w l=w')
    (scope : Bytes32) :
    w'.store (.ScopeEpoch scope)=w.store (.ScopeEpoch scope) ∨
      getScopeEpochRaw w.store scope<getScopeEpochRaw w'.store scope := by
  obtain ⟨inv,c,-,-,hx⟩ | hk := next_store hst
  · cases c with
    | setScopeEpoch admin scope' epoch =>
      simp only [exec,setScopeEpoch,bind_ok,requireAdmin_ok,gets_ok,failIf_ok,
        set_ok] at hx
      obtain ⟨_,_,⟨-,-,rfl⟩,_,_,⟨rfl,rfl⟩,_,_,⟨hless,rfl⟩,hpost⟩ := hx
      rw [← hpost]
      by_cases hscope : scope=scope'
      · subst hscope
        refine .inr ?_
        simpa [getScopeEpochRaw] using Nat.lt_of_not_le (of_decide_eq_false hless)
      · exact .inl (by simp [hscope])
    | _ => exact .inl (exec_footprint hx (notMem_of_elem rfl))
  · exact .inl (hk _ (by simp))

theorem proceeds_epoch {host : Host} {w w' : World} {tr : Trace} (h : Proceeds host w tr w')
    (scope : Bytes32) : getScopeEpochRaw w.store scope≤getScopeEpochRaw w'.store scope := by
  refine Run.state_invariant (I := fun w' : World =>
    getScopeEpochRaw w.store scope≤getScopeEpochRaw w'.store scope) (le_refl _) ?_ h
  intro w₁ l w₂ hle hst
  rcases next_epoch hst scope with hkept | hless
  · simpa [getScopeEpochRaw,hkept] using hle
  · exact hle.trans hless.le

/-- A scoped registration goes through only for the epoch its frame names, except that a field
too large for an epoch passes for the last one. Epochs only ever grow. -/
theorem scoped_registration_epoch (env : Env) (s : Storage) (publicInputs : Bytes) :
    (∀ (v m p : Bytes32) (proof : Bytes) (r : ProofRecord) (s' : Storage),
      publicInputs.length = 256 →
      registerAnonymousVerified env v m p publicInputs proof s = .ok (r,s') →
      (beNat (field publicInputs 160).1 = getScopeEpochRaw s (field publicInputs 128) ↔
        ¬ (getScopeEpochRaw s (field publicInputs 128) = 2^64-1 ∧
          2^64 ≤ beNat (field publicInputs 160).1))) ∧
    ∀ (host : Host) (w w' : World) (tr : Trace) (scope : Bytes32), Proceeds host w tr w' →
      (∀ e ∈ tr, e.post.store (.ScopeEpoch scope) = e.pre.store (.ScopeEpoch scope) ∨
        getScopeEpochRaw e.pre.store scope < getScopeEpochRaw e.post.store scope) ∧
      getScopeEpochRaw w.store scope ≤ getScopeEpochRaw w'.store scope := by
  refine ⟨?_,?_⟩
  · intro v m p proof r s' hlen h
    obtain ⟨-,-,-,-,-,-,hepoch,-⟩ := registerAnonymousVerified_ok h
    exact bytesToU64Be_exact (hepoch hlen)
  · intro host w w' tr scope h
    refine ⟨fun e he => ?_,proceeds_epoch h scope⟩
    obtain ⟨_,_,-,-,hst,-⟩ := Run.event_split h he
    exact next_epoch hst scope

def lowByte (x : UInt8) : Bytes32 := (BytesN.replicate 31 0).append (BytesN.replicate 1 x)

def scopedFrame (epoch : Bytes32) : Bytes :=
  (fill 0).1.take 16++(fill 3).1.take 16++(fill 0).1.take 16++(fill 3).1.take 16++(fill 7).1++
    (fill 5).1++(fill 6).1++epoch.1++(expectedDomainTag Sha256.digest).1++(lowByte 2).1

def scopedCall (epoch : Bytes32) : Call :=
  .registerAnonymousVerified (fill 3) (fill 1) (fill 4) (scopedFrame epoch) [1]

/-- A registry whose scope 6 is at an epoch. -/
def atEpoch (epoch : Nat) : World :=
  (deploy [.call ⟨1⟩ (.init ⟨1⟩),.call ⟨1⟩ (.setVerifier ⟨1⟩ ⟨2⟩),
    .call ⟨1⟩ (.addCredentialRoot ⟨1⟩ (fill 7) (fill 1)),
    .call ⟨1⟩ (.setScopeEpoch ⟨1⟩ (fill 6) epoch)]).2

theorem scoped_registration_epoch_third :
    Succeeds stellarHost ((atEpoch 3).event stellarHost (.call ⟨1⟩ (scopedCall (lowByte 3))))
      (scopedCall (lowByte 3)) ∧
    beNat (field (scopedFrame (lowByte 3)) 160).1 =
      getScopeEpochRaw (atEpoch 3).store (field (scopedFrame (lowByte 3)) 128) := by
  have hx : Succeeds stellarHost
      ((atEpoch 3).event stellarHost (.call ⟨1⟩ (scopedCall (lowByte 3))))
      (scopedCall (lowByte 3)) := succeeds_event (by decide +kernel)
  refine ⟨hx,?_⟩
  obtain ⟨inv,-,h⟩ := hx
  obtain ⟨r,h⟩ := (discard_ok ..).1 h
  exact ((scoped_registration_epoch _ _ _).1 _ _ _ _ r _ (by decide +kernel) h).2
    (by decide +kernel)

/-- At the last epoch a field that is no epoch at all is accepted. -/
theorem scoped_registration_overflow :
    (scopedFrame (fill 1)).length = 256 ∧
    Succeeds stellarHost ((atEpoch (2^64-1)).event stellarHost (.call ⟨1⟩ (scopedCall (fill 1))))
      (scopedCall (fill 1)) ∧
    beNat (field (scopedFrame (fill 1)) 160).1 ≠
      getScopeEpochRaw (atEpoch (2^64-1)).store (field (scopedFrame (fill 1)) 128) :=
  ⟨by decide +kernel,succeeds_event (by decide +kernel),by decide +kernel⟩

def schemaVersionOf (s : Storage) (publicInputs : Bytes) : Option Nat :=
  (s (.Schema (field publicInputs 0))).map (·.version)

theorem verifySelectiveDisclosure_versions {env : Env} {publicInputs proof : Bytes} {u : Unit}
    (h : verifySelectiveDisclosure env publicInputs proof s=.ok (u,s')) :
    publicInputs.length=352 ∧
      schemaVersionOf s publicInputs=some (u32FromBeBytes (field publicInputs 64)) ∧
      u32FromBeBytes (field publicInputs 256)=CURRENT_SELECTIVE_DISCLOSURE_VERSION := by
  simp only [verifySelectiveDisclosure,getSchemaRecord,bind_ok,lift_ok,failIf_ok,
    get_ok,unwrap_ok] at h
  obtain ⟨parsed,_,⟨hparsed,rfl⟩,_,_,⟨hcircuit,rfl⟩,schema,_,⟨_,_,⟨rfl,rfl⟩,hschema,rfl⟩,h⟩ := h
  obtain ⟨_,_,⟨-,rfl⟩,_,_,⟨hversion,rfl⟩,-⟩ := h
  obtain ⟨hlen,rfl⟩ := parseSelectiveDisclosureInputs_ok hparsed
  refine ⟨hlen,?_,by simpa using hcircuit⟩
  have hv : schema.version=u32FromBeBytes (field publicInputs 64) := by simpa using hversion
  simp [schemaVersionOf,hschema,hv]

def VersionsFit (publicInputs : Bytes) : Prop :=
  beNat (field publicInputs 64).1 < 2^32 ∧ beNat (field publicInputs 256).1 < 2^32

def VersionsExact (s : Storage) (publicInputs : Bytes) : Prop :=
  schemaVersionOf s publicInputs = some (beNat (field publicInputs 64).1) ∧
    beNat (field publicInputs 256).1 = CURRENT_SELECTIVE_DISCLOSURE_VERSION

def SameButVersions (a b : Bytes) : Prop :=
  ∀ i < 11, i ≠ 2 → i ≠ 8 → field a (i*32) = field b (i*32)

theorem versionsExact_iff {env : Env} {publicInputs proof : Bytes} {u : Unit}
    (h : verifySelectiveDisclosure env publicInputs proof s=.ok (u,s')) :
    VersionsExact s publicInputs ↔ VersionsFit publicInputs := by
  obtain ⟨-,hschema,hcircuit⟩ := verifySelectiveDisclosure_versions h
  rw [VersionsExact,VersionsFit,hschema,← hcircuit,Option.some_inj,
    eq_comm (a := u32FromBeBytes _),u32FromBeBytes_exact,u32FromBeBytes_exact]

/-- A selective disclosure goes through with exact version fields only if they fit into the bytes
that are read of them; then no other frame with the same other fields goes through for that
version of the schema. -/
theorem selective_disclosure_versions {env : Env} {publicInputs proof : Bytes} {s s' : Storage}
    {u : Unit} (hlen : publicInputs.length = 352)
    (h : verifySelectiveDisclosure env publicInputs proof s = .ok (u,s')) :
    (VersionsExact s publicInputs ↔ VersionsFit publicInputs) ∧
    ∀ (env₂ : Env) (other proof₂ : Bytes) (t t' : Storage) (u₂ : Unit), other.length = 352 →
      verifySelectiveDisclosure env₂ other proof₂ t = .ok (u₂,t') →
      schemaVersionOf t other = schemaVersionOf s publicInputs →
      SameButVersions publicInputs other → VersionsFit publicInputs → VersionsFit other →
      publicInputs = other := by
  refine ⟨versionsExact_iff h,?_⟩
  intro env₂ other proof₂ t t' u₂ hlen₂ h₂ hversion hsame hfit hfit₂
  have hexact := (versionsExact_iff h).2 hfit
  have hexact₂ := (versionsExact_iff h₂).2 hfit₂
  refine BytesN.eq_of_read (n := 32) (k := 11) hlen hlen₂ fun i hi => ?_
  by_cases hi2 : i=2
  · subst hi2
    have hnum : beNat (field publicInputs 64).1=beNat (field other 64).1 :=
      Option.some.inj (hexact.1.symm.trans (hversion.symm.trans hexact₂.1))
    exact Subtype.ext (beNat_inj ((field publicInputs 64).2.trans (field other 64).2.symm) hnum)
  · by_cases hi8 : i=8
    · subst hi8
      have hnum : beNat (field publicInputs 256).1=beNat (field other 256).1 :=
        hexact.2.trans hexact₂.2.symm
      exact Subtype.ext
        (beNat_inj ((field publicInputs 256).2.trans (field other 256).2.symm) hnum)
    · exact hsame i hi hi2 hi8

def versionedFrame (schemaVersion : Bytes32) : Bytes :=
  (fill 9).1++(fill 8).1++schemaVersion.1++(fill 7).1++(fill 5).1++(fill 0).1++(fill 0).1++
    (fill 0).1++(lowByte 1).1++(fill 0).1++(fill 0).1

def disclosureCall (schemaVersion : Bytes32) : Call :=
  .verifySelectiveDisclosure (versionedFrame schemaVersion) [1]

def withSchema : World :=
  (deploy [.call ⟨1⟩ (.init ⟨1⟩),.call ⟨1⟩ (.setVerifier ⟨1⟩ ⟨2⟩),
    .call ⟨1⟩ (.addCredentialRoot ⟨1⟩ (fill 7) (fill 1)),
    .call ⟨1⟩ (.addSchema ⟨1⟩ (fill 9) (fill 8) 1 4)]).2

theorem selective_disclosure_versions_first :
    Succeeds stellarHost (withSchema.event stellarHost (.call ⟨1⟩ (disclosureCall (lowByte 1))))
      (disclosureCall (lowByte 1)) ∧
    VersionsExact withSchema.store (versionedFrame (lowByte 1)) := by
  have hx : Succeeds stellarHost
      (withSchema.event stellarHost (.call ⟨1⟩ (disclosureCall (lowByte 1))))
      (disclosureCall (lowByte 1)) := succeeds_event (by decide +kernel)
  refine ⟨hx,?_⟩
  obtain ⟨inv,-,h⟩ := hx
  have hfit : VersionsFit (versionedFrame (lowByte 1)) := ⟨by decide +kernel,by decide +kernel⟩
  exact (selective_disclosure_versions (by decide +kernel) h).1.2 hfit

/-- Version `1`, with the first of the bytes set that are not read. -/
def paddedVersion : Bytes32 := (BytesN.replicate 1 1).append
  ((BytesN.replicate 30 0).append (BytesN.replicate 1 1))

/-- Two frames that differ in the schema version alone are both accepted, and one of them does
not name the version of the schema. -/
theorem selective_disclosure_padded :
    (versionedFrame (lowByte 1)).length = 352 ∧ (versionedFrame paddedVersion).length = 352 ∧
    versionedFrame (lowByte 1) ≠ versionedFrame paddedVersion ∧
    SameButVersions (versionedFrame (lowByte 1)) (versionedFrame paddedVersion) ∧
    Succeeds stellarHost (withSchema.event stellarHost (.call ⟨1⟩ (disclosureCall (lowByte 1))))
      (disclosureCall (lowByte 1)) ∧
    Succeeds stellarHost (withSchema.event stellarHost (.call ⟨1⟩ (disclosureCall paddedVersion)))
      (disclosureCall paddedVersion) ∧
    ¬ VersionsExact withSchema.store (versionedFrame paddedVersion) := by
  have hsame : ∀ i<11, i≠2 → i≠8 → field (versionedFrame (lowByte 1)) (i*32) =
      field (versionedFrame paddedVersion) (i*32) := by decide +kernel
  have hversion : schemaVersionOf withSchema.store (versionedFrame paddedVersion) ≠
      some (beNat (field (versionedFrame paddedVersion) 64).1) := by decide +kernel
  exact ⟨by decide +kernel,by decide +kernel,by decide +kernel,hsame,
    succeeds_event (by decide +kernel),succeeds_event (by decide +kernel),
    fun hexact => hversion hexact.1⟩

end Harpocrates.Registry
