import Harpocrates.Registry.Nullifiers

namespace Harpocrates.Registry

open Framework

def distinctVideos (_ : World) : Call → Bool
  | .registerBatchVerified _ _ _ _ videoHashes => decide videoHashes.Nodup
  | _ => true

theorem batchItems_videos (batchId : Bytes32) (parsed : AggregatedPublicInputs)
    (videoHashes : List Bytes32) :
    (batchItems batchId parsed videoHashes).map BatchItem.videoHash=videoHashes := by
  apply List.ext_getElem
  · simp [batchItems]
  · intro i h1 h2
    simp [batchItems]

theorem batchOf_videos_nodup (batchId : Bytes32) (publicInputs : Bytes)
    {videoHashes : List Bytes32} (h : videoHashes.Nodup) :
    ((batchOf batchId publicInputs videoHashes).map BatchItem.videoHash).Nodup := by
  unfold batchOf
  split
  · rwa [batchItems_videos]
  · exact List.nodup_nil

theorem ops_videos_nodup {w : World} {c : Call} (hc : distinctVideos w c=true) :
    ((Op.entries (c.ops w.store)).map (·.2.video)).Nodup := by
  obtain ⟨o,ho⟩ | ⟨b,m,publicInputs,proof,vs,rfl,hs⟩ := ops_entries w.store c
  · rw [ho]
    cases o <;> simp
  · rw [hs,List.map_map]
    exact batchOf_videos_nodup b publicInputs (of_decide_eq_true hc)

theorem book_indexed_of_reaches {host : Host} {start : Ledger} {tr : Trace} {w : World}
    (h : Reaches host start tr w) (hc : ∀ e∈tr, meets distinctVideos e=true) :
    Indexed Entry.video (book w.store).entry (book w.store).owner := by
  refine Run.invariant (I := fun _ w =>
    Indexed Entry.video (book w.store).entry (book w.store).owner) Indexed.empty ?_ h hc
  intro tr w l w' _ ih hst hce
  obtain ⟨inv,c,rfl,hr⟩ | hb := next_registers hst
  · rw [hr.refines]
    refine Book.indexed_applyAll ih (fun p e he => ?_) hr.ids (ops_videos_nodup hce)
    exact ⟨book_entry_none.2 (hr.fresh p e he).1,(hr.fresh p e he).2⟩
  · rwa [hb]

/-- Proofs and videos are inverse indexes of each other, no two proofs share a video, and a
lookup by video finds no record of another video, as long as no batch names a video twice. -/
theorem proof_video_indexed {host : Host} {start : Ledger} {tr : Trace} {w : World}
    (h : Reaches host start tr w) (hc : ∀ e ∈ tr, meets distinctVideos e = true) :
    Indexed ProofRecord.videoHash (fun p => w.store (.Proof p)) (fun v => w.store (.Video v)) ∧
      (∀ p q r r', w.store (.Proof p) = some r → w.store (.Proof q) = some r' →
        r.videoHash = r'.videoHash → p = q) ∧
      ∀ v r, getByVideo w.store v = some r → r.videoHash = v := by
  have inverse : Indexed ProofRecord.videoHash (fun p => w.store (.Proof p))
      (fun v => w.store (.Video v)) :=
    Indexed.of_map (f := ProofRecord.entry) (fun _ => rfl) (book_indexed_of_reaches h hc)
  refine ⟨inverse,fun p q r r' hp hq => inverse.attr_injective hp hq,?_⟩
  intro v r hr
  unfold getByVideo at hr
  split at hr
  · rename_i p hv
    exact inverse.lookup hv hr
  · cases hr

theorem proof_video_indexed_mixed_paths :
    (deploy mixedPaths).2.store (.Video (fill 12)) = some (deriveElementProofId (fill 21) 1) ∧
      Indexed ProofRecord.videoHash (fun p => (deploy mixedPaths).2.store (.Proof p))
        (fun v => (deploy mixedPaths).2.store (.Video v)) :=
  ⟨by decide +kernel,(proof_video_indexed (deploy_reaches mixedPaths) (by decide +kernel)).1⟩

def repeatedVideo : List Label := deployment ⟨1⟩ ⟨2⟩++[.call ⟨3⟩ (registerPair 21 10 7 10 8)]

/-- A batch that names one video twice stores two proofs of it, and only the second one is
in the index. -/
theorem batch_video_shared : ∃ tr w, Reaches stellarHost genesis tr w ∧
    (w.store (.Proof (deriveElementProofId (fill 21) 0))).map (·.videoHash) = some (fill 10) ∧
    (w.store (.Proof (deriveElementProofId (fill 21) 1))).map (·.videoHash) = some (fill 10) ∧
    w.store (.Video (fill 10)) = some (deriveElementProofId (fill 21) 1) ∧
    deriveElementProofId (fill 21) 0 ≠ deriveElementProofId (fill 21) 1 :=
  ⟨_,_,deploy_reaches repeatedVideo,by decide +kernel⟩

end Harpocrates.Registry
