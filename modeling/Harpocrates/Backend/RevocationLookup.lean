import Harpocrates.Backend.System
import Harpocrates.Backend.VerifyBatch

namespace Harpocrates.Backend

open Framework Framework.Python List

def ProofEvent.Revoked (e : ProofEvent) : Prop :=
  e.eventType = .revoke ∨ e.txStatus = some .revoked

instance (e : ProofEvent) : Decidable e.Revoked := inferInstanceAs (Decidable (_ ∨ _))

/-- The proofs that an item is about: the one it names or, if it names none, those registered for
its video. Hashes are compared by value. -/
def IsAbout (t : ProofEvents) (item : Value) (proofId : Text) : Prop :=
  match (item.get "proofId".toList).text? with
  | some named => SameValue proofId named
  | none => ∃ videoHash i e v p, (item.get "videoHash".toList).text? = some videoHash ∧
      (i,e) ∈ t ∧ e.eventType = .register ∧ e.videoHash = some v ∧ SameValue v videoHash ∧
      e.proofId = some p ∧ SameValue p proofId

def RevokedEvidence (t : ProofEvents) (item : Value) : Prop :=
  ∃ i e proofId, (i,e) ∈ t ∧ e.Revoked ∧ e.proofId = some proofId ∧ IsAbout t item proofId

section

variable {service : Service} {w : World} {tr : Trace}

/-- Only the indexer writes revocations, and it does not know the video. -/
theorem revoked_row (hr : Run (step service) World.empty tr w) {i : Nat} {e : ProofEvent}
    (he : (i,e)∈w.events) :
    (e.txStatus=some .revoked → e.eventType=.revoke) ∧
      (e.eventType=.revoke → e.videoHash=none) := by
  refine row_rule (P := fun _ e => (e.txStatus=some .revoked → e.eventType=.revoke) ∧
    (e.eventType=.revoke → e.videoHash=none)) ?_ ?_ ?_ ?_ ?_ ?_ hr he
  · exact fun _ _ _ h => h
  · intro _ key fields hregister _ hstatus
    refine ⟨fun h => absurd h hstatus,fun h => ?_⟩
    cases h
  · intro _ media
    refine ⟨fun h => ?_,fun h => ?_⟩
    · cases h
    · cases hextracted : media.extracted <;> simp [MediaEvent.fields,hextracted] at h
  · intro _ _ _ raw default column decoded hdecoded
    refine ⟨fun h => ?_,fun _ => rfl⟩
    rcases classifyAndDecodeEvent_ok hdecoded with ⟨htype,-⟩ | ⟨-,-,hstatus⟩
    · exact htype
    · simp [indexedRow,DecodedLifecycleEvent.fields,hstatus] at h
  · intro _ _ _ call txHash status e _ _ _ _ hshape
    refine ⟨fun h => ?_,hshape.2⟩
    exact absurd (Option.some.inj h) status.2
  · exact fun _ e hold h => h

theorem not_revoked_of_video (hr : Run (step service) World.empty tr w) {i : Nat} {e : ProofEvent}
    (he : (i,e)∈w.events) {videoHash : Text} (hv : e.videoHash=some videoHash) :
    ¬ e.Revoked := by
  obtain ⟨hstatus,hvideo⟩ := revoked_row hr he
  have hnot : e.eventType≠.revoke := by
    intro htype
    rw [hvideo htype] at hv
    cases hv
  rintro (htype | hrevoked)
  · exact hnot htype
  · exact hnot (hstatus hrevoked)

end

section

variable {t : ProofEvents} {i : Nat} {e : ProofEvent} {item : Value} {index : Nat}

theorem mem_findProofEventsByVideo {videoHash : Text} {limit : Int} {cursorId : Option Nat}
    (h : (i,e)∈(findProofEventsByVideo t videoHash limit cursorId).1) :
    (i,e)∈t ∧ e.videoHash=some videoHash := by
  have hmatching : (i,e)∈t.entries.reverse.filter fun e =>
      e.2.videoHash=some videoHash && cursorId.all (e.1 < ·) := by
    unfold findProofEventsByVideo at h
    dsimp only at h
    split at h
    · exact mem_of_mem_take (mem_of_mem_take h)
    · exact mem_of_mem_take h
  simp only [mem_filter,mem_reverse,Rows.mem_entries,Bool.and_eq_true,
    decide_eq_true_eq] at hmatching
  exact ⟨hmatching.1,hmatching.2.1⟩

theorem mem_findProofEventsByProofId {proofId : Text} :
    (i,e)∈findProofEventsByProofId t proofId ↔ (i,e)∈t ∧ e.proofId=some proofId := by
  simp [findProofEventsByProofId]

theorem statusOf_eq_verified {events : List (Nat × ProofEvent)} :
    statusOf events=.verified ↔
      (∃ e∈events, e.2.txStatus=some .confirmed) ∧ ∀ e∈events, ¬ e.2.Revoked := by
  have hany : (events.any fun e => e.2.txStatus=some .revoked || e.2.eventType=.revoke)=true ↔
      ∃ e∈events, e.2.Revoked := by
    simp [ProofEvent.Revoked,or_comm]
  have hconfirmed : (events.any fun e => e.2.txStatus=some .confirmed)=true ↔
      ∃ e∈events, e.2.txStatus=some .confirmed := by
    simp
  unfold statusOf
  split
  · next hempty => simp [isEmpty_iff.1 hempty]
  split
  · next hrevoked =>
    obtain ⟨e,he,hr⟩ := hany.1 hrevoked
    exact ⟨by simp,fun ⟨_,hnone⟩ => absurd hr (hnone e he)⟩
  next hrevoked =>
  have hnone : ∀ e∈events, ¬ e.2.Revoked := fun e he hr => hrevoked (hany.2 ⟨e,he,hr⟩)
  split
  · next hfound => exact ⟨fun _ => ⟨hconfirmed.1 hfound,hnone⟩,fun _ => rfl⟩
  next hfound =>
  refine ⟨fun h => ?_,fun ⟨h,_⟩ => absurd (hconfirmed.2 h) hfound⟩
  split at h
  · cases h
  · cases h

/-- An item is looked up if it passes the checks; else there are no events for it. -/
theorem verifyItem_cases (t : ProofEvents) (index : Nat) (item : Value) :
    (verifyItem (.ok t) index item).status=.malformed ∧
        (verifyItem (.ok t) index item).events=[] ∨
      (verifyItem (.ok t) index item).events=lookupEvents t
          (item.get "videoHash".toList).text? (item.get "proofId".toList).text? ∧
        (verifyItem (.ok t) index item).status =
          statusOf (verifyItem (.ok t) index item).events := by
  unfold verifyItem
  split
  · dsimp only
    split
    · exact .inl ⟨rfl,rfl⟩
    split
    · exact .inl ⟨rfl,rfl⟩
    split
    · exact .inl ⟨rfl,rfl⟩
    · exact .inr ⟨rfl,rfl⟩
  · exact .inl ⟨rfl,rfl⟩

theorem verifyItem_eq_verified :
    (verifyItem (.ok t) index item).status=.verified ↔
      (∃ e∈(verifyItem (.ok t) index item).events, e.2.txStatus=some .confirmed) ∧
        ∀ e∈(verifyItem (.ok t) index item).events, ¬ e.2.Revoked := by
  rcases verifyItem_cases t index item with ⟨hstatus,hevents⟩ | ⟨-,hstatus⟩
  · simp [hstatus,hevents]
  · rw [hstatus,statusOf_eq_verified]

theorem mem_lookupEvents_video {videoHash : Text} {proofId : Option Text}
    (h : (i,e)∈lookupEvents t (some videoHash) proofId) :
    (i,e)∈t ∧ e.videoHash=some videoHash := by
  cases proofId with
  | none => exact mem_findProofEventsByVideo h
  | some proofId => exact mem_findProofEventsByVideo (mem_filter.1 h).1

theorem mem_of_mem_lookupEvents {videoHash proofId : Option Text}
    (h : (i,e)∈lookupEvents t videoHash proofId) : (i,e)∈t := by
  cases videoHash with
  | some videoHash => exact (mem_lookupEvents_video h).1
  | none =>
    cases proofId with
    | some proofId => exact (mem_findProofEventsByProofId.1 h).1
    | none => cases h

theorem mem_of_mem_verifyItem (h : (i,e)∈(verifyItem (.ok t) index item).events) :
    (i,e)∈t := by
  rcases verifyItem_cases t index item with ⟨-,hevents⟩ | ⟨hevents,-⟩
  · simp [hevents] at h
  · rw [hevents] at h
    exact mem_of_mem_lookupEvents h

end

/-- The revoked rows among the events of an item. A lookup by video finds none, and one by proof id
those with the same text. -/
theorem revoked_event_iff {service : Service} {w : World} {tr : Trace}
    (hr : Run (step service) World.empty tr w) {videoHash proofId : Option Text} :
    (∃ e∈lookupEvents w.events videoHash proofId, e.2.Revoked) ↔
      videoHash=none ∧ ∃ i e p, (i,e)∈w.events ∧ e.Revoked ∧ e.proofId=some p ∧
        proofId=some p := by
  cases videoHash with
  | some videoHash =>
    refine ⟨fun ⟨(i,e),he,hrevoked⟩ => ?_,fun h => by cases h.1⟩
    obtain ⟨hmem,hvideo⟩ := mem_lookupEvents_video he
    exact absurd hrevoked (not_revoked_of_video hr hmem hvideo)
  | none =>
    cases proofId with
    | none => simp [lookupEvents]
    | some proofId =>
      constructor
      · rintro ⟨⟨i,e⟩,he,hrevoked⟩
        obtain ⟨hmem,hproof⟩ := mem_findProofEventsByProofId.1 he
        exact ⟨rfl,i,e,proofId,hmem,hrevoked,hproof,rfl⟩
      · rintro ⟨-,i,e,p,hmem,hrevoked,hproof,hp⟩
        cases hp
        exact ⟨(i,e),mem_findProofEventsByProofId.2 ⟨hmem,hproof⟩,hrevoked⟩

/-- A registration with its proof id in upper case. -/
def shoutedRequest : RegisterRequest where
  payload := .dict [] [("videoHash".toList,repeated 'b'),("metadataHash".toList,repeated 'c'),
    ("proofId".toList,repeated 'A'),("tier".toList,.str "silent".toList),
    ("txHash".toList,repeated 'd')]

def settledEndpoint : Endpoint where
  rpcUrl := "horizon".toList
  transaction := .reply 200 (some { successful := .bool true, ledger := .int 5 })
  feeStats := .reply 200 (some (.int 9))

def revocationEvent : Value :=
  .dict [] [("txHash".toList,repeated 'e'),
    ("topic".toList,.list [] [.str "proof".toList,.str "revoke".toList,repeated 'a'])]

def revocationSteps : List Label :=
  [.arrive shoutedRequest 0,.store 0,
    .reconcile { txHash := repeated 'd', endpoints := [settledEndpoint] },
    .index revocationEvent none]

def revokedWorld : World := revocationSteps.foldl (next openService) World.empty

def confirmedRow : ProofEvent where
  eventType := .register
  videoHash := some (List.replicate 64 'b')
  metadataHash := some (List.replicate 64 'c')
  proofId := some (List.replicate 64 'A')
  tier := some "silent".toList
  txHash := some (List.replicate 64 'd')
  txStatus := some .confirmed
  retentionClass := some "default".toList
  expiresAt := some 2592000
  idempotencyKey := some (makeIdempotencyKey (List.replicate 64 'b') (List.replicate 64 'A')
    (some (List.replicate 64 'd')))

def revocationRow : ProofEvent where
  eventType := .revoke
  proofId := some (List.replicate 64 'a')
  txHash := some (List.replicate 64 'e')
  txStatus := some .revoked
  idempotencyKey := some ("indexer:".toList++List.replicate 64 'e'++":0".toList)
  eventIndex := some 0

def itemOf (fields : List (String × Char)) : Value :=
  .dict [] (fields.map fun field => (field.1.toList,repeated field.2))

theorem revokedWorld_rows :
    revokedWorld.events.entries=[(0,confirmedRow),(1,revocationRow)] ∧
      (verifyItem (.ok revokedWorld.events) 0 (itemOf [("videoHash",'b')])).status=.verified ∧
      (verifyItem (.ok revokedWorld.events) 0
        (itemOf [("videoHash",'b'),("proofId",'A')])).status=.verified ∧
      (verifyItem (.ok revokedWorld.events) 0 (itemOf [("proofId",'A')])).status=.verified := by
  decide +kernel

theorem sameValue_case :
    SameValue (List.replicate 64 'a') (List.replicate 64 'a') ∧
      SameValue (List.replicate 64 'a') (List.replicate 64 'A') ∧
      SameValue (List.replicate 64 'A') (List.replicate 64 'a') ∧
      SameValue (List.replicate 64 'b') (List.replicate 64 'b') := by
  decide +kernel

theorem confirmedRow_mem : (0,confirmedRow)∈revokedWorld.events := by
  rw [← Rows.mem_entries,revokedWorld_rows.1]
  exact mem_cons_self

theorem revocationRow_mem : (1,revocationRow)∈revokedWorld.events := by
  rw [← Rows.mem_entries,revokedWorld_rows.1]
  exact mem_cons_of_mem _ mem_cons_self

theorem revokedWorld_evidence {item : Value}
    (h : IsAbout revokedWorld.events item (List.replicate 64 'a')) :
    RevokedEvidence revokedWorld.events item :=
  ⟨1,revocationRow,_,revocationRow_mem,.inl rfl,rfl,h⟩

theorem lower_item_about :
    IsAbout revokedWorld.events (itemOf [("proofId",'a')]) (List.replicate 64 'a') := by
  exact sameValue_case.1

theorem upper_item_about :
    IsAbout revokedWorld.events (itemOf [("proofId",'A')]) (List.replicate 64 'a') := by
  exact sameValue_case.2.1

end Harpocrates.Backend
