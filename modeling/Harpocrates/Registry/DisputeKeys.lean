import Harpocrates.Framework.Locality
import Harpocrates.Registry.DocketRefinement

namespace Harpocrates.Registry

open Framework Function

def RecordAt (t : Bytes32 → Option DisputeValue) (d : Bytes32) : Prop :=
  ∃ r, t d = some (.record r) ∧ r.disputeId = d

variable {host : Host} {d : Bytes32} {e : Event World Label}

theorem Opens.recordAt (h : Opens host e d) : RecordAt (disputeTable e.post.store) d := by
  obtain ⟨_,_,_,_,_,inv,-,hx⟩ := h
  obtain ⟨_,hx⟩ := (discard_ok ..).1 hx
  obtain ⟨-,post⟩ := openDispute_table hx
  exact ⟨_,by rw [post,update_self],rfl⟩

/-- The record stays. The reverse index does not overwrite it: the entry is read before it is
written, and a record there traps. -/
theorem run_recordAt {start : Ledger} {tr : Trace} {w : World} (h : Reaches host start tr w)
    (he : e∈tr) (ho : Opens host e d) : RecordAt (disputeTable w.store) d := by
  obtain ⟨_,_,-,-,-,rest⟩ := Run.event_split h he
  obtain ⟨r,hr,hid⟩ := ho.recordAt
  obtain ⟨r',hr',hsub,-⟩ := proceeds_dispute rest hr
  exact ⟨r',hr',(congrArg Prod.fst hsub).trans hid⟩

/-- A record that a step leaves was there before, or the step opened the dispute. -/
theorem next_record {q : DisputeRecord} (hst : next host e.pre e.label=e.post)
    (hq : disputeTable e.post.store d=some (.record q)) :
    (∃ r, disputeTable e.pre.store d=some (.record r)) ∨ Opens host e d := by
  cases next_disputes hst with
  | keep post => exact .inl ⟨q,post ▸ hq⟩
  | new d' r post opens free id status =>
    by_cases hd : d=d'
    · exact .inr (hd ▸ opens)
    · rw [post,update_of_ne hd] at hq
      exact .inl ⟨q,hq⟩
  | update d' r r' post pre id status =>
    by_cases hd : d=d'
    · exact .inl ⟨r,hd ▸ pre⟩
    · rw [post,update_of_ne hd] at hq
      exact .inl ⟨q,hq⟩
  | supersede admin d' y r r' o o' post call pre id proof superseding self read read' no =>
    by_cases hd : d=d'
    · exact .inl ⟨r,hd ▸ pre⟩
    · by_cases hkey : d=supersessionReverseKey host.sha256 y
      · rw [post,hkey,update_self] at hq
        cases hq
      · rw [post,update_of_ne hkey,update_of_ne hd] at hq
        exact .inl ⟨q,hq⟩

/-- Every record in the table comes from the dispute opened under its key. -/
theorem record_opened {start : Ledger} {tr : Trace} {w : World} {r : DisputeRecord}
    (h : Reaches host start tr w) (hr : disputeTable w.store d=some (.record r)) :
    ∃ e∈tr, Opens host e d := by
  have none : ¬ ∃ r, disputeTable Store.empty d=some (.record r) := by
    intro hyp
    obtain ⟨r,hr⟩ := hyp
    cases hr
  obtain ⟨tr₁,e,tr₂,rfl,hpre,q,hq⟩ := Run.begins
    (P := fun w : World => ∃ r, disputeTable w.store d=some (.record r)) h none ⟨r,hr⟩
  have he : e∈tr₂++e::tr₁ := by simp
  exact ⟨e,he,(next_record (h.next_eq he) hq).resolve_left hpre⟩

theorem checkSupersessionCycle_isOk {sha256 : Bytes → Bytes32} {s : Storage}
    (h : ∀ p v, s (.Dispute (supersessionReverseKey sha256 p))=some v → ∃ q, v=.proofId q)
    (x y : Bytes32) : (checkSupersessionCycle sha256 x y s).isOk=true := by
  have read : ∀ p, ∃ o, getRecordedOriginal sha256 p s=.ok (o,s) := by
    intro p
    cases hv : s (.Dispute (supersessionReverseKey sha256 p)) with
    | none => exact ⟨none,(getRecordedOriginal_ok ..).2 ⟨hv,rfl⟩⟩
    | some v =>
      obtain ⟨q,rfl⟩ := h p v hv
      exact ⟨some q,(getRecordedOriginal_ok ..).2 ⟨hv,rfl⟩⟩
  obtain ⟨o,ho⟩ := read y
  obtain ⟨o',ho'⟩ := read x
  rw [checkSupersessionCycle,Tx.bind_of_ok ho,Tx.ite_apply]
  split
  · rfl
  · rw [Tx.bind_of_ok ho']
    rfl

/-- The id of every dispute that was opened still leads to its record. What the cycle check
reads are entries of the index, so that it never traps, exactly when no dispute was opened
under the hash that belongs to a proof. -/
theorem dispute_keys_apart_iff {host : Host} {start : Ledger} {tr : Trace} {w : World}
    (h : Reaches host start tr w) :
    (∀ e ∈ tr, ∀ d, Opens host e d →
      ∃ r, w.store (.Dispute d) = some (.record r) ∧ r.disputeId = d) ∧
    (((∀ p v, w.store (.Dispute (supersessionReverseKey host.sha256 p)) = some v →
        ∃ q, v = .proofId q) ∧
      ∀ x y, (checkSupersessionCycle host.sha256 x y w.store).isOk = true) ↔
      ∀ e ∈ tr, ∀ d, Opens host e d → ∀ p, d ≠ supersessionReverseKey host.sha256 p) := by
  refine ⟨fun e he d ho => run_recordAt h he ho,?_,?_⟩
  · intro hyp e he d ho p heq
    obtain ⟨typed,-⟩ := hyp
    subst heq
    obtain ⟨r,hr,-⟩ := run_recordAt h he ho
    obtain ⟨q,hq⟩ := typed p _ hr
    cases hq
  · intro apart
    have typed : ∀ p v, w.store (.Dispute (supersessionReverseKey host.sha256 p))=some v →
        ∃ q, v=.proofId q := by
      intro p v hv
      cases v with
      | record r =>
        obtain ⟨e,he,ho⟩ := record_opened h hv
        exact absurd rfl (apart e he _ ho p)
      | proofId q => exact ⟨q,rfl⟩
    exact ⟨typed,checkSupersessionCycle_isOk typed⟩

def proofsRegistered : List Label :=
  [.call ⟨1⟩ (.init ⟨1⟩),.call ⟨2⟩ (.registerSource ⟨2⟩ (fill 1) zero32 (fill 1)),
    .call ⟨2⟩ (.registerSource ⟨2⟩ (fill 2) zero32 (fill 2))]

def openStep : Event World Label := (deploy proofsRegistered).2.event stellarHost
  (.call ⟨4⟩ (.openDispute ⟨4⟩ (fill 11) (fill 21) (fill 1) .Other zero32))

theorem openStep_reaches :
    Reaches stellarHost genesis (openStep::(deploy proofsRegistered).1) openStep.post :=
  (deploy_reaches proofsRegistered).event _

theorem openStep_opens : Opens stellarHost openStep (fill 21) :=
  ⟨_,_,_,_,_,succeeds_event (by decide +kernel)⟩

def closeStep : Event World Label := openStep.post.event stellarHost (supersede 21 2)

theorem closeStep_reaches :
    Reaches stellarHost genesis (closeStep::openStep::(deploy proofsRegistered).1) closeStep.post :=
  openStep_reaches.event (supersede 21 2)

theorem dispute_keys_apart_iff_superseded :
    edgeOf closeStep.post (fill 21) = some (fill 1,fill 2) ∧
    ∃ r, closeStep.post.store (.Dispute (fill 21)) = some (.record r) ∧
      r.disputeId = fill 21 :=
  ⟨by decide +kernel,(dispute_keys_apart_iff closeStep_reaches).1 openStep
    (List.mem_cons_of_mem _ List.mem_cons_self) _ openStep_opens⟩

def squatStep : Event World Label := openStep.post.event stellarHost
  (.call ⟨9⟩ (.openDispute ⟨9⟩ (fill 19) (supersessionReverseKey Sha256.digest (fill 2)) (fill 1)
    .Other zero32))

def traps {α : Type} : Except Failure α → Bool
  | .error .trap => true
  | _ => false

/-- Afterwards proof 2 can no longer supersede anything: the call that went through before
now traps. -/
theorem dispute_key_squatted :
    (∃ tr, Reaches stellarHost genesis tr squatStep.post) ∧
    Opens stellarHost squatStep (supersessionReverseKey stellarHost.sha256 (fill 2)) ∧
    Succeeds stellarHost closeStep (.supersedeDispute ⟨1⟩ (fill 21) (fill 2)) ∧
    traps (exec (squatStep.post.env stellarHost (.signedBy ⟨1⟩))
      (.supersedeDispute ⟨1⟩ (fill 21) (fill 2)) squatStep.post.store) = true :=
  ⟨⟨_,openStep_reaches.event _⟩,⟨_,_,_,_,_,succeeds_event (by decide +kernel)⟩,
    succeeds_event (by decide +kernel),by decide +kernel⟩

end Harpocrates.Registry
