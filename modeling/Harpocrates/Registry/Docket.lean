import Harpocrates.Framework.Counting
import Harpocrates.Registry.Disputes

namespace Harpocrates.Registry

open Framework Function

/-- What the reporter submitted and what was fixed at that moment. -/
def DisputeRecord.submission (r : DisputeRecord) : Bytes32 × Bytes32 × DisputeReason × Address ×
    Bytes32 × Bytes32 × Nat × Nat :=
  (r.disputeId,r.proofId,r.reason,r.reporter,r.reporterHash,r.commitmentHash,r.openedAt,
    r.respondDeadline)

/-- What can become of a dispute at this time; `stored` are the proofs in the registry. -/
inductive DisputeMove (now : Nat) (stored : Bytes32 → Prop) : DisputeRecord → DisputeRecord → Prop
  | respond (r : DisputeRecord) (c : Bytes32) (status : r.status = .Open)
      (inTime : now ≤ r.respondDeadline) :
      DisputeMove now stored r
        { r with
          status := .Responded
          responseCommitment := some c
          resolveDeadline := satAdd64 now RESOLVE_DEADLINE_SECS }
  | resolve (r : DisputeRecord) (status : r.status = .Responded)
      (inTime : now ≤ r.resolveDeadline) :
      DisputeMove now stored r { r with status := .Resolved, resolvedAt := now }
  | dismiss (r : DisputeRecord) (status : isOpenStatus r.status = true) :
      DisputeMove now stored r { r with status := .Dismissed, resolvedAt := now }
  | supersede (r : DisputeRecord) (y : Bytes32) (status : isOpenStatus r.status = true)
      (known : stored y) (other : y ≠ r.proofId) :
      DisputeMove now stored r
        { r with status := .Superseded, supersededBy := some y, resolvedAt := now }

def disputeTransitions : List (DisputeStatus × DisputeStatus) :=
  [(.Open,.Responded),(.Open,.Dismissed),(.Open,.Superseded),(.Responded,.Resolved),
    (.Responded,.Dismissed),(.Responded,.Superseded)]

theorem isOpenStatus_iff (status : DisputeStatus) :
    isOpenStatus status=true ↔ status=.Open ∨ status=.Responded := by
  simp [isOpenStatus]

namespace DisputeMove

variable {now : Nat} {stored : Bytes32 → Prop} {r r' : DisputeRecord}

theorem submission (h : DisputeMove now stored r r') : r'.submission=r.submission := by
  cases h <;> rfl

theorem transition (h : DisputeMove now stored r r') :
    (r.status,r'.status)∈disputeTransitions := by
  cases h with
  | respond c status inTime => simp [status,disputeTransitions]
  | resolve status inTime => simp [status,disputeTransitions]
  | dismiss status =>
    rcases (isOpenStatus_iff _).1 status with hs | hs <;> simp [hs,disputeTransitions]
  | supersede y status known other =>
    rcases (isOpenStatus_iff _).1 status with hs | hs <;> simp [hs,disputeTransitions]

theorem was_open (h : DisputeMove now stored r r') : isOpenStatus r.status=true := by
  cases h with
  | respond c status inTime => simp [status,isOpenStatus]
  | resolve status inTime => simp [status,isOpenStatus]
  | dismiss status => exact status
  | supersede y status known other => exact status

theorem responded (h : DisputeMove now stored r r') (hs : r'.status=.Responded) :
    r.status=.Open ∧ now≤r'.respondDeadline := by
  cases h with
  | respond c status inTime => exact ⟨status,inTime⟩
  | resolve status inTime => cases hs
  | dismiss status => cases hs
  | supersede y status known other => cases hs

theorem response (h : DisputeMove now stored r r') :
    r'.responseCommitment.isSome=true ↔
      r.responseCommitment.isSome=true ∨ r'.status=.Responded := by
  cases h <;> simp

end DisputeMove

/-- What every record of a dispute satisfies. -/
structure DisputeRecord.Sound (stored : Bytes32 → Prop) (r : DisputeRecord) : Prop where
  unanswered : r.status = .Open → r.responseCommitment = none
  answered : r.status = .Responded → r.responseCommitment.isSome = true
  inTime : r.status = .Resolved → r.resolvedAt ≤ r.resolveDeadline
  superseded : r.supersededBy.isSome = true ↔ r.status = .Superseded
  corrected : ∀ y, r.supersededBy = some y → stored y ∧ y ≠ r.proofId

theorem DisputeRecord.Sound.mono {stored stored' : Bytes32 → Prop} {r : DisputeRecord}
    (h : r.Sound stored) (hs : ∀ p, stored p → stored' p) : r.Sound stored' :=
  { h with corrected := fun y hy => ⟨hs y (h.corrected y hy).1,(h.corrected y hy).2⟩ }

theorem DisputeRecord.Sound.not_superseded {stored : Bytes32 → Prop} {r : DisputeRecord}
    (h : r.Sound stored) (hs : isOpenStatus r.status=true) : r.supersededBy=none := by
  rw [← Option.not_isSome_iff_eq_none,h.superseded]
  intro heq
  simp [heq,isOpenStatus] at hs

theorem DisputeMove.sound {now : Nat} {stored : Bytes32 → Prop} {r r' : DisputeRecord}
    (h : DisputeMove now stored r r') (hr : r.Sound stored) : r'.Sound stored := by
  have hnone := hr.not_superseded h.was_open
  cases h with
  | respond c status inTime => exact ⟨by simp,by simp,by simp,by simp [hnone],by simp [hnone]⟩
  | resolve status inTime =>
    exact ⟨by simp,by simp,fun _ => inTime,by simp [hnone],by simp [hnone]⟩
  | dismiss status => exact ⟨by simp,by simp,by simp,by simp [hnone],by simp [hnone]⟩
  | supersede y status known other =>
    refine ⟨by simp,by simp,by simp,by simp,?_⟩
    intro y' hy
    cases hy
    exact ⟨known,other⟩

@[ext] structure Docket where
  records : Bytes32 → Option DisputeRecord
  perProof : Bytes32 → Nat
  perReporter : Address → Nat

namespace Docket

def file (D : Docket) (r : DisputeRecord) : Docket where
  records := Function.update D.records r.disputeId (some r)
  perProof := Function.update D.perProof r.proofId (D.perProof r.proofId+1)
  perReporter := Function.update D.perReporter r.reporter (D.perReporter r.reporter+1)

def revise (D : Docket) (d : Bytes32) (r : DisputeRecord) : Docket :=
  { D with records := Function.update D.records d (some r) }

/-- The record is revised and no longer counts as open. -/
def close (D : Docket) (d : Bytes32) (r : DisputeRecord) : Docket where
  records := Function.update D.records d (some r)
  perProof := Function.update D.perProof r.proofId (D.perProof r.proofId-1)
  perReporter := Function.update D.perReporter r.reporter (D.perReporter r.reporter-1)

/-- What one call can do to the docket. -/
inductive Step (now : Nat) (stored : Bytes32 → Prop) (D : Docket) : Docket → Prop
  | keep : Step now stored D D
  | file (r : DisputeRecord) (free : D.records r.disputeId = none) (status : r.status = .Open)
      (unanswered : r.responseCommitment = none) (standing : r.supersededBy = none)
      (room : D.perProof r.proofId < MAX_OPEN_DISPUTES_PER_PROOF)
      (room' : D.perReporter r.reporter < MAX_OPEN_DISPUTES_PER_REPORTER) :
      Step now stored D (D.file r)
  | revise (d : Bytes32) (r r' : DisputeRecord) (pre : D.records d = some r)
      (move : DisputeMove now stored r r') (still : isOpenStatus r'.status = true) :
      Step now stored D (D.revise d r')
  | close (d : Bytes32) (r r' : DisputeRecord) (pre : D.records d = some r)
      (move : DisputeMove now stored r r') (closed : isOpenStatus r'.status = false) :
      Step now stored D (D.close d r')

/-- The counters are exact and within their bounds, and every record is sound. -/
structure Sound (stored : Bytes32 → Prop) (D : Docket) : Prop where
  perProof : CountsBy DisputeRecord.proofId (isOpenStatus ·.status = true) D.records D.perProof
  perReporter : CountsBy DisputeRecord.reporter (isOpenStatus ·.status = true) D.records
    D.perReporter
  boundProof : ∀ p, D.perProof p ≤ MAX_OPEN_DISPUTES_PER_PROOF
  boundReporter : ∀ a, D.perReporter a ≤ MAX_OPEN_DISPUTES_PER_REPORTER
  records : ∀ d r, D.records d = some r → r.Sound stored

theorem update_le {A : Type} [DecidableEq A] {counter : A → Nat} {bound n : Nat} {a : A}
    (h : ∀ a, counter a≤bound) (hn : n≤bound) :
    ∀ b, update counter a n b≤bound := by
  intro b
  by_cases hb : b=a
  · rw [hb,update_self]
    exact hn
  · rw [update_of_ne hb]
    exact h b

variable {d : Bytes32} {D D' : Docket}

theorem update_records {stored : Bytes32 → Prop} {records : Bytes32 → Option DisputeRecord}
    {r : DisputeRecord} (h : ∀ d r, records d=some r → r.Sound stored) (hr : r.Sound stored) :
    ∀ d' r', update records d (some r) d'=some r' → r'.Sound stored := by
  intro d' r' hr'
  by_cases hd : d'=d
  · rw [hd,update_self] at hr'
    cases hr'
    exact hr
  · rw [update_of_ne hd] at hr'
    exact h d' r' hr'

theorem Step.sound {now : Nat} {stored : Bytes32 → Prop} (h : Step now stored D D')
    (hD : D.Sound stored) : D'.Sound stored := by
  cases h with
  | keep => exact hD
  | file r free status unanswered standing room room' =>
    have hopen : isOpenStatus r.status=true := by simp [status,isOpenStatus]
    refine ⟨hD.perProof.add free hopen,hD.perReporter.add free hopen,update_le hD.boundProof room,
      update_le hD.boundReporter room',update_records hD.records ?_⟩
    exact ⟨fun _ => unanswered,by simp [status],by simp [status],by simp [status,standing],
      by simp [standing]⟩
  | revise d r r' pre move still =>
    have hproof : r'.proofId=r.proofId := congrArg (fun x => x.2.1) move.submission
    have hreporter : r'.reporter=r.reporter := congrArg (fun x => x.2.2.2.1) move.submission
    have hsame : isOpenStatus r'.status=true ↔ isOpenStatus r.status=true :=
      iff_of_true still move.was_open
    exact ⟨hD.perProof.keep pre hproof hsame,hD.perReporter.keep pre hreporter hsame,
      hD.boundProof,hD.boundReporter,update_records hD.records (move.sound (hD.records d r pre))⟩
  | close d r r' pre move closed =>
    have hproof : r'.proofId=r.proofId := congrArg (fun x => x.2.1) move.submission
    have hreporter : r'.reporter=r.reporter := congrArg (fun x => x.2.2.2.1) move.submission
    have hclosed : ¬ isOpenStatus r'.status=true := by simp [closed]
    have perProof := hD.perProof.drop pre move.was_open hproof hclosed
    have perReporter := hD.perReporter.drop pre move.was_open hreporter hclosed
    rw [← hproof] at perProof
    rw [← hreporter] at perReporter
    exact ⟨perProof,perReporter,update_le hD.boundProof ((Nat.sub_le _ _).trans (hD.boundProof _)),
      update_le hD.boundReporter ((Nat.sub_le _ _).trans (hD.boundReporter _)),
      update_records hD.records (move.sound (hD.records d r pre))⟩

theorem Sound.empty {stored : Bytes32 → Prop} :
    Sound stored ⟨fun _ => none,fun _ => 0,fun _ => 0⟩ :=
  ⟨fun _ => .empty,fun _ => .empty,fun _ => Nat.zero_le _,fun _ => Nat.zero_le _,
    fun d r hr => by cases hr⟩

theorem Sound.mono {stored stored' : Bytes32 → Prop} (h : D.Sound stored)
    (hs : ∀ p, stored p → stored' p) : D.Sound stored' :=
  { h with records := fun d r hr => (h.records d r hr).mono hs }

/-- A record is never removed, and it moves or stays as it is. -/
theorem Step.record {now : Nat} {stored : Bytes32 → Prop} {r : DisputeRecord}
    (h : Step now stored D D') (hr : D.records d=some r) :
    ∃ r', D'.records d=some r' ∧ (r'=r ∨ DisputeMove now stored r r') := by
  have revised : ∀ d₁ r₁ r₂, D.records d₁=some r₁ → DisputeMove now stored r₁ r₂ →
      ∃ r', update D.records d₁ (some r₂) d=some r' ∧
        (r'=r ∨ DisputeMove now stored r r') := by
    intro d₁ r₁ r₂ pre move
    by_cases hd : d=d₁
    · subst hd
      cases hr.symm.trans pre
      exact ⟨r₂,update_self ..,.inr move⟩
    · exact ⟨r,by rw [update_of_ne hd,hr],.inl rfl⟩
  cases h with
  | keep => exact ⟨r,hr,.inl rfl⟩
  | file r₀ free status unanswered standing room room' =>
    have hne : d≠r₀.disputeId := by
      intro heq
      rw [heq,free] at hr
      cases hr
    exact ⟨r,(update_of_ne hne ..).trans hr,.inl rfl⟩
  | revise d₁ r₁ r₂ pre move still => exact revised d₁ r₁ r₂ pre move
  | close d₁ r₁ r₂ pre move closed => exact revised d₁ r₁ r₂ pre move

/-- A record that was not there before is that of a dispute just opened. -/
theorem Step.new {now : Nat} {stored : Bytes32 → Prop} {r : DisputeRecord}
    (h : Step now stored D D') (hr : D.records d=none) (hr' : D'.records d=some r) :
    r.status=.Open ∧ r.responseCommitment=none := by
  have revised : ∀ d₁ r₁ r₂, D.records d₁=some r₁ →
      update D.records d₁ (some r₂) d=some r → False := by
    intro d₁ r₁ r₂ pre hnew
    have hne : d≠d₁ := by
      intro heq
      rw [heq,pre] at hr
      cases hr
    rw [update_of_ne hne,hr] at hnew
    cases hnew
  cases h with
  | keep =>
    rw [hr] at hr'
    cases hr'
  | file r₀ free status unanswered standing room room' =>
    by_cases hd : d=r₀.disputeId
    · have heq : some r₀=some r := by simpa [Docket.file,hd] using hr'
      cases heq
      exact ⟨status,unanswered⟩
    · have hnone : D.records d=some r := by simpa [Docket.file,hd] using hr'
      rw [hr] at hnone
      cases hnone
  | revise d₁ r₁ r₂ pre move still => exact (revised d₁ r₁ r₂ pre hr').elim
  | close d₁ r₁ r₂ pre move closed => exact (revised d₁ r₁ r₂ pre hr').elim

/-- A dispute carries a response when it did before or has just been answered. -/
theorem Step.answered {now : Nat} {stored : Bytes32 → Prop} (h : Step now stored D D') :
    (∃ r, D'.records d=some r ∧ r.responseCommitment.isSome=true) ↔
      (∃ r r', D.records d=some r ∧ D'.records d=some r' ∧ DisputeMove now stored r r' ∧
        r'.status=.Responded) ∨
      ∃ r, D.records d=some r ∧ r.responseCommitment.isSome=true := by
  cases hr : D.records d with
  | none =>
    refine iff_of_false ?_ (by simp)
    intro hyp
    obtain ⟨r',hr',hresponse⟩ := hyp
    rw [(h.new hr hr').2] at hresponse
    cases hresponse
  | some r =>
    obtain ⟨r',hr',rfl | hmove⟩ := h.record hr
    · have still : ¬ (DisputeMove now stored r' r' ∧ r'.status=.Responded) := by
        intro hyp
        have hopen := (hyp.1.responded hyp.2).1
        rw [hyp.2] at hopen
        cases hopen
      simp [hr',still]
    · simp [hr',hmove,hmove.response,or_comm]

end Docket

end Harpocrates.Registry
