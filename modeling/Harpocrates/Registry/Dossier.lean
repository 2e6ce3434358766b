import Harpocrates.Registry.Calls

namespace Harpocrates.Registry

/-- What the registry keeps about one proof. -/
structure Dossier where
  record : ProofRecord
  history : List ProofHistoryEntry
  envelope : MetadataEnvelope

def ProofRecord.registration (r : ProofRecord) : Bytes32 × Nat × Nat × Nat × Option Address ×
    Option Address × Option Bytes32 × Nat :=
  (r.videoHash,r.tier,r.createdAt,r.expiresAt,r.source,r.issuer,r.nullifier,r.batchSize)

namespace Dossier

open List

def log (d : Dossier) (action : ProofLifecycleAction) (now : Nat) (actor : Option Address)
    (reasonCode : Nat) : Dossier :=
  { d with history := d.history++[⟨action.code,now,actor,reasonCode⟩] }

def withStatus (d : Dossier) (status : Nat) : Dossier :=
  { d with record := { d.record with status } }

def withMetadata (d : Dossier) (metadataHash : Bytes32) (now : Nat) : Dossier :=
  { d with
    record := { d.record with metadataHash }
    envelope := { d.envelope with metadataHash, boundAt := now } }

/-- What one call can do to the dossier of a proof, some of it several times over. -/
inductive Step (p : Bytes32) (now : Nat) (c : Call) : Option Dossier → Option Dossier → Prop
  | register (r : ProofRecord) (actor : Option Address) (status : r.status = STATUS_REGISTERED) :
      Step p now c none (some ⟨r,[⟨ProofLifecycleAction.Registered.code,now,actor,r.tier⟩],
        ⟨p,METADATA_ENVELOPE_VERSION_DEFAULT,r.metadataHash,now⟩⟩)
  | verify (d : Dossier) (actor : Option Address) (reasonCode : Nat)
      (room : d.history.length < MAX_HISTORY_ENTRIES_PER_PROOF) :
      Step p now c (some d) (some (d.log .Verified now actor reasonCode))
  | revoke (d : Dossier) (actor : Option Address) (reasonCode : Nat)
      (room : d.history.length < MAX_HISTORY_ENTRIES_PER_PROOF) :
      Step p now c (some d)
        (some ((d.withStatus STATUS_REVOKED).log .Revoked now actor reasonCode))
  | expire (d : Dossier) (actor : Option Address) (reasonCode : Nat)
      (room : d.history.length < MAX_HISTORY_ENTRIES_PER_PROOF)
      (live : d.record.status ≠ STATUS_REVOKED) :
      Step p now c (some d)
        (some ((d.withStatus STATUS_EXPIRED).log .Expired now actor reasonCode))
  | correct (d : Dossier) (admin : Address) (m : Bytes32) (reasonCode : Nat)
      (room : d.history.length < MAX_HISTORY_ENTRIES_PER_PROOF)
      (call : c = .correctProof admin p m reasonCode) :
      Step p now c (some d)
        (some ((d.withMetadata m now).log .Corrected now (some admin) reasonCode))
  | bind (d : Dossier) (version : Nat) (newer : d.envelope.version < version)
      (supported : version ≤ METADATA_ENVELOPE_VERSION_MAX) :
      Step p now c (some d)
        (some { d with envelope := ⟨p,version,d.record.metadataHash,now⟩ })

/-- The status a history stands for. -/
def statusOf (history : List ProofHistoryEntry) : Nat :=
  if history.any (·.action == ProofLifecycleAction.Revoked.code) then STATUS_REVOKED
  else if history.any (·.action == ProofLifecycleAction.Expired.code) then STATUS_EXPIRED
  else STATUS_REGISTERED

/-- A history of a proof of this tier, as it can be at this time. -/
structure Chronicle (tier now : Nat) (history : List ProofHistoryEntry) : Prop where
  first : ∃ e rest, history = e::rest ∧ e.action = ProofLifecycleAction.Registered.code ∧
    e.reasonCode = tier
  bounded : history.length ≤ MAX_HISTORY_ENTRIES_PER_PROOF
  ordered : history.Pairwise (·.timestamp ≤ ·.timestamp)
  past : ∀ e ∈ history, e.timestamp ≤ now

theorem Chronicle.start (tier now : Nat) (actor : Option Address) :
    Chronicle tier now [⟨ProofLifecycleAction.Registered.code,now,actor,tier⟩] where
  first := ⟨_,[],rfl,rfl,rfl⟩
  bounded := by simp [MAX_HISTORY_ENTRIES_PER_PROOF]
  ordered := by simp
  past := by simp

variable {now : Nat} {p : Bytes32} {d : Dossier} {c : Call} {o o' : Option Dossier}

theorem Chronicle.append {tier : Nat} {history : List ProofHistoryEntry} {e : ProofHistoryEntry}
    (h : Chronicle tier now history) (room : history.length<MAX_HISTORY_ENTRIES_PER_PROOF)
    (he : e.timestamp=now) :
    Chronicle tier now (history++[e]) where
  first := by
    obtain ⟨e₁,rest,rfl,h1,h2⟩ := h.first
    exact ⟨e₁,rest++[e],rfl,h1,h2⟩
  bounded := by
    rw [length_append,length_singleton]
    omega
  ordered := by
    refine pairwise_append.2 ⟨h.ordered,by simp,fun a ha b hb => ?_⟩
    obtain rfl : b=e := mem_singleton.1 hb
    rw [he]
    exact h.past a ha
  past := by
    intro a ha
    rcases mem_append.1 ha with ha | ha
    · exact h.past a ha
    · obtain rfl : a=e := mem_singleton.1 ha
      exact he.le

theorem Chronicle.mono {tier now' : Nat} {history : List ProofHistoryEntry}
    (h : Chronicle tier now history) (hle : now≤now') : Chronicle tier now' history :=
  { h with past := fun e he => (h.past e he).trans hle }

/-- The record says what the history says, and the envelope what the record says. -/
structure Sound (p : Bytes32) (now : Nat) (d : Dossier) : Prop where
  chronicle : Chronicle d.record.tier now d.history
  status : d.record.status = statusOf d.history
  owner : d.envelope.proofId = p
  hash : d.envelope.metadataHash = d.record.metadataHash
  version : METADATA_ENVELOPE_V1 ≤ d.envelope.version ∧
    d.envelope.version ≤ METADATA_ENVELOPE_VERSION_MAX

theorem Sound.mono {now' : Nat} (h : d.Sound p now) (hle : now≤now') : d.Sound p now' :=
  { h with chronicle := h.chronicle.mono hle }

theorem statusOf_append (history : List ProofHistoryEntry) (e : ProofHistoryEntry) :
    statusOf (history++[e]) =
      if e.action=ProofLifecycleAction.Revoked.code then STATUS_REVOKED
      else if e.action=ProofLifecycleAction.Expired.code ∧ statusOf history≠STATUS_REVOKED then
        STATUS_EXPIRED
      else statusOf history := by
  simp only [statusOf,any_append,any_cons,any_nil,Bool.or_false]
  by_cases hr : history.any (·.action == ProofLifecycleAction.Revoked.code) <;>
    by_cases he : history.any (·.action == ProofLifecycleAction.Expired.code) <;>
    by_cases h1 : e.action=ProofLifecycleAction.Revoked.code <;>
    by_cases h2 : e.action=ProofLifecycleAction.Expired.code <;>
    simp [hr,he,h1,h2,STATUS_REVOKED,STATUS_EXPIRED,STATUS_REGISTERED]

theorem Sound.log {action : ProofLifecycleAction} (h : d.Sound p now)
    (room : d.history.length<MAX_HISTORY_ENTRIES_PER_PROOF) (ha : action≠.Revoked)
    (ha' : action≠.Expired) (actor : Option Address) (reasonCode : Nat) :
    (d.log action now actor reasonCode).Sound p now := by
  refine ⟨h.chronicle.append room rfl,?_,h.owner,h.hash,h.version⟩
  have hstatus := h.status
  simp only [Dossier.log,statusOf_append]
  cases action <;> simp_all [ProofLifecycleAction.code]

theorem Sound.withMetadata (h : d.Sound p now) (m : Bytes32) : (d.withMetadata m now).Sound p now :=
  ⟨h.chronicle,h.status,h.owner,rfl,h.version⟩

theorem Step.sound (h : Step p now c o o') (ho : ∀ d, o=some d → d.Sound p now) :
    ∀ d, o'=some d → d.Sound p now := by
  intro d' hd'
  cases h with
  | register r actor status =>
    cases hd'
    have hv : METADATA_ENVELOPE_V1≤METADATA_ENVELOPE_VERSION_DEFAULT ∧
        METADATA_ENVELOPE_VERSION_DEFAULT≤METADATA_ENVELOPE_VERSION_MAX := by decide
    exact ⟨Chronicle.start r.tier now actor,status,rfl,rfl,hv⟩
  | verify d actor reasonCode room =>
    cases hd'
    exact (ho d rfl).log room (by simp) (by simp) actor reasonCode
  | revoke d actor reasonCode room =>
    cases hd'
    have hd := ho d rfl
    refine ⟨hd.chronicle.append room rfl,?_,hd.owner,hd.hash,hd.version⟩
    simp [Dossier.log,withStatus,statusOf_append]
  | expire d actor reasonCode room live =>
    cases hd'
    have hd := ho d rfl
    refine ⟨hd.chronicle.append room rfl,?_,hd.owner,hd.hash,hd.version⟩
    have hlive : statusOf d.history≠STATUS_REVOKED := hd.status ▸ live
    simp [Dossier.log,withStatus,statusOf_append,hlive,ProofLifecycleAction.code]
  | correct d admin m reasonCode room call =>
    cases hd'
    exact ((ho d rfl).withMetadata m).log room (by simp) (by simp) (some admin) reasonCode
  | bind d version newer supported =>
    cases hd'
    have hd := ho d rfl
    exact ⟨hd.chronicle,hd.status,rfl,rfl,hd.version.1.trans newer.le,supported⟩

def statusRank (status : Nat) : Nat :=
  if status = STATUS_REVOKED then 2 else if status = STATUS_EXPIRED then 1 else 0

/-- `d'` is what `d` can have become. -/
structure Grows (d d' : Dossier) : Prop where
  registration : d'.record.registration = d.record.registration
  status : statusRank d.record.status ≤ statusRank d'.record.status
  history : d.history <+: d'.history
  version : d.envelope.version ≤ d'.envelope.version

theorem Grows.refl (d : Dossier) : Grows d d :=
  ⟨rfl,le_refl _,prefix_refl _,le_refl _⟩

theorem Grows.trans {d₁ d₂ d₃ : Dossier} (h : Grows d₁ d₂) (h' : Grows d₂ d₃) : Grows d₁ d₃ :=
  ⟨h'.registration.trans h.registration,h.status.trans h'.status,h.history.trans h'.history,
    h.version.trans h'.version⟩

def Later (o o' : Option Dossier) : Prop := ∀ d, o = some d → ∃ d', o' = some d' ∧ Grows d d'

theorem Later.refl (o : Option Dossier) : Later o o := fun d hd => ⟨d,hd,Grows.refl d⟩

theorem Later.trans {o₁ o₂ o₃ : Option Dossier} (h : Later o₁ o₂) (h' : Later o₂ o₃) :
    Later o₁ o₃ := by
  intro d hd
  obtain ⟨d₂,hd₂,hg⟩ := h d hd
  obtain ⟨d₃,hd₃,hg'⟩ := h' d₂ hd₂
  exact ⟨d₃,hd₃,hg.trans hg'⟩

theorem statusRank_le (status : Nat) : statusRank status ≤ statusRank STATUS_REVOKED := by
  have htop : statusRank STATUS_REVOKED=2 := rfl
  rw [htop]
  unfold statusRank
  split_ifs <;> omega

theorem statusRank_le_expired {status : Nat} (h : status≠STATUS_REVOKED) :
    statusRank status ≤ statusRank STATUS_EXPIRED := by
  have hexpired : statusRank STATUS_EXPIRED=1 := rfl
  rw [hexpired]
  unfold statusRank
  split_ifs <;> omega

theorem Step.later (h : Step p now c o o') : Later o o' := by
  intro d hd
  cases h with
  | register r actor status => cases hd
  | verify d₀ actor reasonCode room =>
    cases hd
    exact ⟨_,rfl,rfl,le_refl _,prefix_append _ _,le_refl _⟩
  | revoke d₀ actor reasonCode room =>
    cases hd
    exact ⟨_,rfl,rfl,statusRank_le _,prefix_append _ _,le_refl _⟩
  | expire d₀ actor reasonCode room live =>
    cases hd
    exact ⟨_,rfl,rfl,statusRank_le_expired live,prefix_append _ _,le_refl _⟩
  | correct d₀ admin m reasonCode room call =>
    cases hd
    exact ⟨_,rfl,rfl,le_refl _,prefix_append _ _,le_refl _⟩
  | bind d₀ version newer supported =>
    cases hd
    exact ⟨_,rfl,rfl,le_refl _,prefix_refl _,newer.le⟩

/-- Only a correction of the proof changes its metadata hash. -/
theorem Step.metadataHash {d' : Dossier} (h : Step p now c o o') (hd : o=some d)
    (hd' : o'=some d') :
    d'.record.metadataHash=d.record.metadataHash ∨
      ∃ admin m reasonCode, c=.correctProof admin p m reasonCode := by
  cases h with
  | register r actor status => cases hd
  | verify d₀ actor reasonCode room =>
    cases hd
    cases hd'
    exact .inl rfl
  | revoke d₀ actor reasonCode room =>
    cases hd
    cases hd'
    exact .inl rfl
  | expire d₀ actor reasonCode room live =>
    cases hd
    cases hd'
    exact .inl rfl
  | correct d₀ admin m reasonCode room call => exact .inr ⟨admin,m,reasonCode,call⟩
  | bind d₀ version newer supported =>
    cases hd
    cases hd'
    exact .inl rfl

def Steps (p : Bytes32) (now : Nat) (c : Call) : Option Dossier → Option Dossier → Prop :=
  Relation.ReflTransGen (Step p now c)

theorem Steps.sound (h : Steps p now c o o') (ho : ∀ d, o=some d → d.Sound p now) :
    ∀ d, o'=some d → d.Sound p now := by
  induction h with
  | refl => exact ho
  | tail _ hstep ih => exact hstep.sound ih

theorem Steps.later (h : Steps p now c o o') : Later o o' := by
  induction h with
  | refl => exact Later.refl _
  | tail _ hstep ih => exact ih.trans hstep.later

theorem Steps.metadataHash {d' : Dossier} (h : Steps p now c o o') (hd : o=some d)
    (hd' : o'=some d') :
    d'.record.metadataHash=d.record.metadataHash ∨
      ∃ admin m reasonCode, c=.correctProof admin p m reasonCode := by
  induction h generalizing d' with
  | refl =>
    cases hd.symm.trans hd'
    exact .inl rfl
  | tail hsteps hstep ih =>
    obtain ⟨d₁,hd₁,-⟩ := Steps.later hsteps d hd
    rcases ih hd₁ with heq | hc
    · rcases hstep.metadataHash hd₁ hd' with heq' | hc
      · exact .inl (heq'.trans heq)
      · exact .inr hc
    · exact .inr hc

end Dossier

end Harpocrates.Registry
