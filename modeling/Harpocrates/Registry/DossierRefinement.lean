import Harpocrates.Framework.AppendLog
import Harpocrates.Registry.Dossier
import Harpocrates.Registry.Refinement

namespace Harpocrates.Registry

open Framework Tx Option

/-- The proof whose dossier a key belongs to. -/
def DataKey.dossier : DataKey → Option Bytes32
  | .Proof p => some p
  | .ProofHistorySeq p => some p
  | .ProofHistoryEntry p _ => some p
  | .MetadataEnvelope p => some p
  | _ => none

abbrev Outside (p : Bytes32) (k : DataKey) : Prop := k.dossier ≠ some p

/-- The storage holds this dossier of the proof, or nothing under its keys. -/
structure Tracks (s : Storage) (p : Bytes32) (o : Option Dossier) : Prop where
  record : s (.Proof p) = o.map Dossier.record
  history : LogOf (o.elim [] Dossier.history) (getProofHistoryCount s p)
    (fun i => s (.ProofHistoryEntry p i))
  envelope : s (.MetadataEnvelope p) = o.map Dossier.envelope

theorem Tracks.empty (p : Bytes32) : Tracks Store.empty p none where
  record := rfl
  history := LogOf.empty
  envelope := rfl

variable {o : Option Dossier} {m p q : Bytes32} {s s' : Storage} {k : DataKey} {d : Dossier}
  {u : Unit} {reasonCode : Nat} {actor : Option Address} {c : Call} {r : ProofRecord} {a : Address}
  {host : Host} {w : World}

theorem Tracks.congr (h : Tracks s p o) (hk : ∀ k : DataKey, k.dossier=some p → s' k=s k) :
    Tracks s' p o where
  record := (hk _ rfl).trans h.record
  history := by
    have hlog := h.history
    have hseq : getProofHistoryCount s' p=getProofHistoryCount s p := by
      rw [getProofHistoryCount,hk _ rfl,getProofHistoryCount]
    have hentry : (fun i => s' (.ProofHistoryEntry p i))=fun i => s (.ProofHistoryEntry p i) :=
      funext fun i => hk _ rfl
    rw [hseq,hentry]
    exact hlog
  envelope := (hk _ rfl).trans h.envelope

theorem Tracks.frame {α : Type} {m : M α} {a : α} (h : Tracks s p o)
    (hw : Writes (Outside p) m) (hm : m s=.ok (a,s')) : Tracks s' p o :=
  h.congr fun k hk => hw s a s' hm k (by simp [Outside,hk])

def dossierFamilies : List Family := [.Proof,.ProofHistorySeq,.ProofHistoryEntry,.MetadataEnvelope]

theorem family_of_dossier (h : k.dossier=some p) : k.family∈dossierFamilies := by
  cases k <;> simp_all [DataKey.dossier,dossierFamilies]

theorem Tracks.set_other (h : Tracks s p o) (v : k.Val) (hk : k.dossier≠some p) :
    Tracks (Store.set s k v) p o := by
  refine h.congr fun k' hk' => Store.set_of_ne _ _ ?_
  intro heq
  subst heq
  exact hk hk'

theorem Tracks.set_record (h : Tracks s p (some d)) (r : ProofRecord) :
    Tracks (Store.set s (.Proof p) r) p (some { d with record := r }) where
  record := by simp
  history := by simpa [getProofHistoryCount] using h.history
  envelope := by simpa using h.envelope

theorem Tracks.set_envelope (h : Tracks s p (some d)) (e : MetadataEnvelope) :
    Tracks (Store.set s (.MetadataEnvelope p) e) p (some { d with envelope := e }) where
  record := by simpa using h.record
  history := by simpa [getProofHistoryCount] using h.history
  envelope := by simp

variable {env : Env}

theorem recordProofHistory_ok {action : Nat}
    (h : recordProofHistory env p action actor reasonCode s=.ok (u,s')) :
    getProofHistoryCount s p<MAX_HISTORY_ENTRIES_PER_PROOF ∧
      s'=Store.set (Store.set s (.ProofHistoryEntry p (getProofHistoryCount s p+1))
        ⟨action,env.timestamp,actor,reasonCode⟩) (.ProofHistorySeq p)
          (getProofHistoryCount s p+1) := by
  simp only [recordProofHistory,bind_ok,failIf_ok,get_ok,set_ok] at h
  obtain ⟨_,_,⟨-,rfl⟩,_,_,⟨-,rfl⟩,_,_,⟨rfl,rfl⟩,_,_,⟨hroom,rfl⟩,_,_,rfl,rfl⟩ := h
  exact ⟨Nat.lt_of_not_ge (of_decide_eq_false hroom),rfl⟩

theorem LogOf.stored {l : List ProofHistoryEntry}
    (h : LogOf l (getProofHistoryCount s p) (fun i => s (.ProofHistoryEntry p i)))
    (e : ProofHistoryEntry) :
    let s' := Store.set (Store.set s (.ProofHistoryEntry p (getProofHistoryCount s p+1)) e)
      (.ProofHistorySeq p) (getProofHistoryCount s p+1)
    LogOf (l++[e]) (getProofHistoryCount s' p) (fun i => s' (.ProofHistoryEntry p i)) := by
  intro s'
  have hseq : getProofHistoryCount s' p=getProofHistoryCount s p+1 := by
    simp [s',getProofHistoryCount]
  rw [hseq]
  refine h.append_of (by simp [s']) fun i hi => ?_
  have hk : DataKey.ProofHistoryEntry p i ≠
      .ProofHistoryEntry p (getProofHistoryCount s p+1) := by simpa using hi
  simp [s',hk]

theorem Tracks.log {action : ProofLifecycleAction} (ht : Tracks s p (some d))
    (h : recordProofHistory env p action.code actor reasonCode s=.ok (u,s')) :
    d.history.length<MAX_HISTORY_ENTRIES_PER_PROOF ∧
      Tracks s' p (some (d.log action env.timestamp actor reasonCode)) := by
  obtain ⟨hroom,rfl⟩ := recordProofHistory_ok h
  have hlog := ht.history
  have hlength := hlog.length
  refine ⟨by simpa [hlength] using hroom,?_,LogOf.stored hlog _,?_⟩
  · simpa [Dossier.log] using ht.record
  · simpa [Dossier.log] using ht.envelope

def Follows (env : Env) (c : Call) (p : Bytes32) (s s' : Storage) : Prop :=
  ∀ o, Tracks s p o → ∃ o', Tracks s' p o' ∧ Dossier.Steps p env.timestamp c o o'

theorem Follows.trans {t : Storage} (h : Follows env c p s t) (h' : Follows env c p t s') :
    Follows env c p s s' := by
  intro o ho
  obtain ⟨o₁,ho₁,hsteps⟩ := h o ho
  obtain ⟨o₂,ho₂,hsteps'⟩ := h' o₁ ho₁
  exact ⟨o₂,ho₂,Relation.ReflTransGen.trans hsteps hsteps'⟩

theorem Follows.refl (env : Env) (c : Call) (p : Bytes32) (s : Storage) : Follows env c p s s :=
  fun o ho => ⟨o,ho,Relation.ReflTransGen.refl⟩

theorem Follows.of_same (hk : ∀ k : DataKey, k.dossier=some p → s' k=s k) :
    Follows env c p s s' :=
  fun o ho => ⟨o,ho.congr hk,Relation.ReflTransGen.refl⟩

theorem Follows.of_writes {α : Type} {m : M α} {a : α} (hw : Writes (Outside p) m)
    (hm : m s=.ok (a,s')) : Follows env c p s s' :=
  fun o ho => ⟨o,ho.frame hw hm,Relation.ReflTransGen.refl⟩

theorem Follows.set_other (v : k.Val) (hk : k.dossier≠some p) :
    Follows env c p s (Store.set s k v) :=
  fun o ho => ⟨o,ho.set_other v hk,Relation.ReflTransGen.refl⟩

theorem Follows.of_footprint {α : Type} {m : M α} {a : α} {fs : List Family}
    (hw : Writes (In fs) m) (hfs : ∀ f∈dossierFamilies, f∉fs) (hm : m s=.ok (a,s')) :
    Follows env c p s s' :=
  .of_same fun k hk => hw s a s' hm k (hfs _ (family_of_dossier hk))

theorem store_outside (v : k.Val) (hk : k.dossier≠some p) : Writes (Outside p) (store k v) :=
  Writes.set v hk

theorem recordProofHistory_outside (env : Env) (hq : q≠p) (action : Nat)
    (actor : Option Address) (reasonCode : Nat) :
    Writes (Outside p) (recordProofHistory env q action actor reasonCode) := by
  unfold recordProofHistory
  repeat' first
    | with_reducible refine Writes.bind ?_ fun _ => ?_
    | exact store_outside _ (by simp [DataKey.dossier,hq])
    | simp

theorem stampDefaultMetadataEnvelope_outside (env : Env) (hq : q≠p) (m : Bytes32) :
    Writes (Outside p) (stampDefaultMetadataEnvelope env q m) := by
  unfold stampDefaultMetadataEnvelope
  repeat' first
    | with_reducible refine Writes.bind ?_ fun _ => ?_
    | apply Writes.ite
    | exact store_outside _ (by simp [DataKey.dossier,hq])
    | simp

theorem saveRecord_outside (env : Env) (hq : q≠p) (r : ProofRecord) (actor : Option Address) :
    Writes (Outside p) (saveRecord env q r actor) := by
  unfold saveRecord
  repeat' first
    | with_reducible refine Writes.bind ?_ fun _ => ?_
    | exact recordProofHistory_outside env hq _ _ _
    | exact stampDefaultMetadataEnvelope_outside env hq _
    | exact store_outside _ (by simp [DataKey.dossier,hq])
    | simp

theorem saveRecord_tracks {r' : ProofRecord} (ht : Tracks s p none)
    (h : saveRecord env p r actor s=.ok (r',s')) :
    Tracks s' p (some ⟨r,[⟨ProofLifecycleAction.Registered.code,env.timestamp,actor,r.tier⟩],
      ⟨p,METADATA_ENVELOPE_VERSION_DEFAULT,r.metadataHash,env.timestamp⟩⟩) := by
  simp only [saveRecord,stampDefaultMetadataEnvelope,bind_ok,set_ok,pure_ok,has_ok,
    Tx.ite_apply] at h
  obtain ⟨_,_,rfl,_,_,rfl,_,t,hlog,_,_,⟨b,_,⟨hb,rfl⟩,hstamp⟩,rfl,rfl⟩ := h
  obtain ⟨-,rfl⟩ := recordProofHistory_ok hlog
  have henv := ht.envelope
  obtain rfl : b=false := by
    rw [← hb]
    simpa using congrArg Option.isSome henv
  obtain rfl := (set_ok ..).1 hstamp
  have hhash : (if r.metadataHash=zero32 then zero32 else r.metadataHash)=r.metadataHash := by
    split_ifs with hz
    · exact hz.symm
    · rfl
  have hlog : LogOf [] (getProofHistoryCount (Store.set (Store.set s (.Proof p) r)
      (.Video r.videoHash) p) p) (fun i => Store.set (Store.set s (.Proof p) r)
        (.Video r.videoHash) p (.ProofHistoryEntry p i)) := by
    simpa [getProofHistoryCount] using ht.history
  refine ⟨by simp,?_,by simp [hhash]⟩
  simpa [getProofHistoryCount] using LogOf.stored hlog
    ⟨ProofLifecycleAction.Registered.code,env.timestamp,actor,r.tier⟩

theorem Tracks.none_of_record (h : Tracks s p o) (hp : s (.Proof p)=none) : o=none := by
  have hrecord := h.record
  rw [hp] at hrecord
  exact map_eq_none_iff.1 hrecord.symm

theorem Tracks.some_of_record (h : Tracks s p o) (hp : s (.Proof p)=some r) :
    ∃ d, o=some d ∧ d.record=r := by
  have hrecord := h.record
  rw [hp] at hrecord
  exact map_eq_some_iff.1 hrecord.symm

theorem saveRecord_follows {r' : ProofRecord} (hr : r.status=STATUS_REGISTERED)
    (hq : s (.Proof q)=none) (h : saveRecord env q r actor s=.ok (r',s')) :
    Follows env c p s s' := by
  by_cases hpq : q=p
  · subst hpq
    intro o ho
    obtain rfl := ho.none_of_record hq
    exact ⟨_,saveRecord_tracks ho h,Relation.ReflTransGen.single (.register r actor hr)⟩
  · exact .of_writes (saveRecord_outside env hpq r actor) h

theorem saveWitness_follows {n v : Bytes32} (hq : s (.Proof q)=none)
    (h : saveWitness env a n v m q s=.ok (r,s')) : Follows env c p s s' := by
  simp only [saveWitness,bind_ok,set_ok,gets_ok] at h
  obtain ⟨_,_,rfl,_,_,⟨rfl,rfl⟩,h⟩ := h
  have hspend : Follows env c p s (Store.set s (.VerifierNullifier a n) true) :=
    .set_other _ (by simp [DataKey.dossier])
  exact hspend.trans (saveRecord_follows rfl (by simpa using hq) h)

/-- Persisting elements with different new ids opens a dossier for each. -/
theorem persistBatch_follows {expiresAt size : Nat} {items : List BatchItem}
    (hids : (items.map BatchItem.proofId).Nodup)
    (hnew : ∀ item∈items, s (.Proof item.proofId)=none)
    (h : forEach items (persistBatchItem env a m expiresAt size) s=.ok (u,s')) :
    Follows env c p s s' := by
  induction items generalizing s with
  | nil =>
    obtain ⟨-,rfl⟩ := (pure_ok ..).1 h
    exact Follows.refl env c p s
  | cons item items ih =>
    obtain ⟨hfirst,hids⟩ := List.nodup_cons.1 hids
    obtain ⟨_,t,hitem,h⟩ := (bind_ok ..).1 h
    simp only [persistBatchItem,bind_ok,set_ok,pure_ok] at hitem
    obtain ⟨_,_,rfl,_,_,hsave,-,rfl⟩ := hitem
    have hspend : Follows env c p s
        (Store.set s (.VerifierNullifier a item.element.nullifier) true) :=
      .set_other _ (by simp [DataKey.dossier])
    have hsaved := saveRecord_follows (c := c) (p := p) rfl
      (by simpa using hnew item (by simp)) hsave
    refine (hspend.trans hsaved).trans (ih hids (fun item' hmem => ?_) h)
    -- the rest of the batch has other ids, so its proofs are still new
    have hne : item'.proofId≠item.proofId := by
      intro heq
      exact hfirst (List.mem_map.2 ⟨item',hmem,heq⟩)
    have hkey : DataKey.Proof item'.proofId≠.Proof item.proofId := by simpa using hne
    rw [(saveRecord_ok hsave).2 _ (by simp)]
    simpa [hkey] using hnew item' (by simp [hmem])

theorem SavesNew.follows {subject actor : Address} {v : Bytes32} {record : Storage → ProofRecord}
    (h : SavesNew env subject actor q v record s s')
    (hr : ∀ t, (record t).status=STATUS_REGISTERED) : Follows env c p s s' := by
  obtain ⟨hq,-,t,r,hquota,hsave⟩ := h
  have hw : Writes (In [.IssuerQuotaUsage]) (chargeIssuerQuota env subject) :=
    chargeIssuerQuota_writes env subject (by simp)
  have hcharge : Follows env c p s t := .of_footprint hw (by decide) hquota
  have hq' : t (.Proof q)=none := (hw _ _ _ hquota _ (by simp)).trans hq
  exact hcharge.trans (saveRecord_follows (hr t) hq' hsave)

/-- The record is replaced and an entry is added to the history. -/
theorem rewrite_follows {c : Call} {p q : Bytes32} {r r' : ProofRecord}
    {action : ProofLifecycleAction} {actor : Option Address} {reasonCode : Nat} {s s' : Storage}
    {u : Unit} (hr : s (.Proof q)=some r)
    (hstep : ∀ d : Dossier, d.record=r → d.history.length<MAX_HISTORY_ENTRIES_PER_PROOF →
      Dossier.Step q env.timestamp c (some d)
        (some ({ d with record := r' }.log action env.timestamp actor reasonCode)))
    (h : recordProofHistory env q action.code actor reasonCode (Store.set s (.Proof q) r') =
      .ok (u,s')) : Follows env c p s s' := by
  by_cases hpq : q=p
  · subst hpq
    intro o ho
    obtain ⟨d,rfl,hd⟩ := ho.some_of_record hr
    obtain ⟨room,ht⟩ := (ho.set_record r').log h
    exact ⟨_,ht,Relation.ReflTransGen.single (hstep d hd room)⟩
  · have hset : Follows env c p s (Store.set s (.Proof q) r') :=
      .set_other _ (by simp [DataKey.dossier,hpq])
    exact hset.trans (.of_writes (recordProofHistory_outside env hpq _ _ _) h)

theorem revokeProofInternal_follows (h : revokeProofInternal env a q reasonCode s=.ok (u,s')) :
    Follows env c p s s' := by
  simp only [revokeProofInternal,bind_ok,getProofRecord_ok,set_ok] at h
  obtain ⟨r,_,⟨hr,rfl⟩,_,_,rfl,hlog⟩ := h
  refine rewrite_follows hr (fun d hd room => ?_) hlog
  subst hd
  exact .revoke d (some a) reasonCode room

theorem verifyProof_follows (h : verifyProof env a q reasonCode s=.ok (u,s')) :
    Follows env c p s s' := by
  simp only [verifyProof,bind_ok,requireAdmin_ok,getProofRecord_ok,failIf_ok] at h
  obtain ⟨_,_,⟨-,-,rfl⟩,r,_,⟨hr,rfl⟩,_,_,⟨-,rfl⟩,hlog⟩ := h
  by_cases hpq : q=p
  · subst hpq
    intro o ho
    obtain ⟨d,rfl,-⟩ := ho.some_of_record hr
    obtain ⟨room,ht⟩ := ho.log hlog
    exact ⟨_,ht,Relation.ReflTransGen.single (.verify d (some a) reasonCode room)⟩
  · exact .of_writes (recordProofHistory_outside env hpq _ _ _) hlog

theorem expireProof_follows (h : expireProof env a q reasonCode s=.ok (u,s')) :
    Follows env c p s s' := by
  simp only [expireProof,bind_ok,requireAdmin_ok,getProofRecord_ok,failIf_ok,
    set_ok] at h
  obtain ⟨_,_,⟨-,-,rfl⟩,r,_,⟨hr,rfl⟩,_,_,⟨hlive,rfl⟩,_,_,⟨-,rfl⟩,_,_,rfl,hlog⟩ := h
  refine rewrite_follows hr (fun d hd room => ?_) hlog
  subst hd
  exact .expire d (some a) reasonCode room (by simpa using hlive)

theorem correctProof_follows (h : correctProof env a q m reasonCode s=.ok (u,s')) :
    Follows env (.correctProof a q m reasonCode) p s s' := by
  by_cases hpq : q=p
  · subst hpq
    intro o ho
    simp only [correctProof,bind_ok,requireAdmin_ok,getProofRecord_ok,failIf_ok,set_ok,
      get_ok] at h
    obtain ⟨_,_,⟨-,-,rfl⟩,r,_,⟨hr,rfl⟩,_,_,⟨-,rfl⟩,_,_,rfl,e,_,⟨he,rfl⟩,h⟩ := h
    obtain ⟨d,rfl,rfl⟩ := ho.some_of_record hr
    have hrecord := ho.set_record { d.record with metadataHash := m }
    obtain rfl := he.symm.trans hrecord.envelope
    simp only [map_some,bind_ok,set_ok] at h
    obtain ⟨_,_,rfl,hlog⟩ := h
    obtain ⟨room,ht⟩ := (hrecord.set_envelope _).log hlog
    exact ⟨_,ht,Relation.ReflTransGen.single (.correct d a m reasonCode room rfl)⟩
  · refine .of_writes ?_ h
    unfold correctProof
    repeat' first
      | with_reducible refine Writes.bind ?_ fun _ => ?_
      | exact store_outside _ (by simp [DataKey.dossier,hpq])
      | exact recordProofHistory_outside env hpq _ _ _
      | split
      | simp

theorem bindMetadataEnvelope_follows {version : Nat} {e : MetadataEnvelope}
    (h : bindMetadataEnvelope env a q version m s=.ok (e,s')) : Follows env c p s s' := by
  by_cases hpq : q=p
  · subst hpq
    intro o ho
    simp only [bindMetadataEnvelope,requireMetadataEnvelopeActor,bind_ok,has_ok,
      getProofRecord_ok,requireAuth_ok,failIf_ok,get_ok,unwrap_ok,gets_ok] at h
    obtain ⟨_,_,⟨-,rfl⟩,_,_,⟨-,rfl⟩,r,_,⟨hr,rfl⟩,_,_,hactor,h⟩ := h
    obtain ⟨_,_,⟨-,rfl⟩,_,_,⟨-,rfl⟩,_,_,⟨-,rfl⟩,_,_,⟨-,rfl⟩,-,rfl⟩ := hactor
    obtain ⟨_,_,⟨hversion,rfl⟩,_,_,⟨-,rfl⟩,_,_,⟨hhash,rfl⟩,prev,_,⟨hprev,rfl⟩,h⟩ := h
    obtain ⟨d,rfl,rfl⟩ := ho.some_of_record hr
    obtain rfl := hprev.symm.trans ho.envelope
    obtain rfl : m=d.record.metadataHash := by simpa using hhash
    simp only [map_some,bind_ok,failIf_ok,Tx.ite_apply] at h
    obtain ⟨_,_,⟨hnot,rfl⟩,h⟩ := h
    split at h
    · obtain ⟨-,rfl⟩ := (pure_ok ..).1 h
      exact ⟨_,ho,Relation.ReflTransGen.refl⟩
    · rename_i hne
      simp only [bind_ok,failIf_ok,set_ok,pure_ok] at h
      obtain ⟨_,_,⟨hsame,rfl⟩,_,_,rfl,-,rfl⟩ := h
      have hnewer : d.envelope.version<version := by
        have hle : d.envelope.version≤version := by simpa using hnot
        refine lt_of_le_of_ne hle fun heq => ?_
        simp_all
      have hsupported : version≤METADATA_ENVELOPE_VERSION_MAX := by
        simpa using (Bool.or_eq_false_iff.1 hversion).2
      exact ⟨_,ho.set_envelope _,
        Relation.ReflTransGen.single (.bind d version hnewer hsupported)⟩
  · refine .of_writes ?_ h
    unfold bindMetadataEnvelope requireMetadataEnvelopeActor
    repeat' first
      | with_reducible refine Writes.bind ?_ fun _ => ?_
      | exact store_outside _ (by simp [DataKey.dossier,hpq])
      | split
      | simp

/-- Every call of the contract makes the dossiers take steps. -/
theorem exec_follows (h : exec env c s=.ok (u,s')) (p : Bytes32) : Follows env c p s s' := by
  cases c with
  | registerAnonymous =>
    obtain ⟨_,h⟩ := (discard_ok ..).1 h
    obtain ⟨a,-,hnew,-,-,-,h⟩ := registerAnonymous_ok h
    exact saveWitness_follows hnew h
  | registerAnonymousVerified =>
    obtain ⟨_,h⟩ := (discard_ok ..).1 h
    obtain ⟨a,-,hnew,-,-,-,-,h⟩ := registerAnonymousVerified_ok h
    exact saveWitness_follows hnew h
  | registerBatchVerified b =>
    obtain ⟨_,h⟩ := (discard_ok ..).1 h
    obtain ⟨a,parsed,-,hsize,-,hnew,h⟩ := registerBatchVerified_ok h
    have hids := batchItems_ids_nodup b parsed (hsize.trans (by decide))
    exact persistBatch_follows hids (fun item hi => (hnew item hi).1) h
  | registerSource =>
    obtain ⟨_,h⟩ := (discard_ok ..).1 h
    exact (registerSource_ok h).2.follows fun _ => rfl
  | registerSeal =>
    obtain ⟨_,h⟩ := (discard_ok ..).1 h
    exact (registerSeal_ok h).2.2.2.follows fun _ => rfl
  | registerSourceDelegated =>
    obtain ⟨_,h⟩ := (discard_ok ..).1 h
    obtain ⟨-,_,-,-,-,h⟩ := registerSourceDelegated_ok h
    exact h.follows fun _ => rfl
  | registerSealDelegated =>
    obtain ⟨_,h⟩ := (discard_ok ..).1 h
    obtain ⟨-,_,-,-,-,-,h⟩ := registerSealDelegated_ok h
    exact h.follows fun _ => rfl
  | revokeProof =>
    obtain ⟨_,_,hadmin,h⟩ := (bind_ok ..).1 h
    obtain ⟨-,-,rfl⟩ := (requireAdmin_ok ..).1 hadmin
    exact revokeProofInternal_follows h
  | revokeProofs admin ps reasonCode =>
    simp only [exec,revokeProofs,bind_ok,requireAdmin_ok,failIf_ok] at h
    obtain ⟨_,_,⟨-,-,rfl⟩,_,_,⟨-,rfl⟩,_,_,⟨-,rfl⟩,h⟩ := h
    exact forEach_invariant (P := fun t => Follows env _ p s t)
      (fun q _ t t' ht hq => ht.trans (revokeProofInternal_follows hq)) (Follows.refl env _ p s) h
  | verifyProof => exact verifyProof_follows h
  | expireProof => exact expireProof_follows h
  | correctProof => exact correctProof_follows h
  | bindMetadataEnvelope =>
    obtain ⟨_,h⟩ := (discard_ok ..).1 h
    exact bindMetadataEnvelope_follows h
  | _ => exact .of_footprint (exec_writes env _) (of_decide_eq_true rfl) h

/-- The dossier of the proof in this state, with all that holds of it. -/
structure DossierAt (w : World) (p : Bytes32) (o : Option Dossier) : Prop where
  tracks : Tracks w.store p o
  sound : ∀ d, o = some d → d.Sound p w.ledger.timestamp

/-- In a step, the dossier stays as it is or a call goes through and it takes steps of
that call. -/
theorem next_dossier {w' : World} {l : Label} (hst : next host w l=w') (ho : DossierAt w p o) :
    ∃ o', DossierAt w' p o' ∧ (o'=o ∨ ∃ inv c, l=.invoke inv c ∧
      exec (w.env host inv) c w.store=.ok ((),w'.store) ∧
      Dossier.Steps p w.ledger.timestamp c o o') := by
  obtain ⟨inv,c,hl,hledger,hx⟩ | hk := next_store hst
  · obtain ⟨o',ht,hsteps⟩ := exec_follows hx p o ho.tracks
    refine ⟨o',⟨ht,?_⟩,.inr ⟨inv,c,hl,hx,hsteps⟩⟩
    rw [hledger]
    exact hsteps.sound ho.sound
  · refine ⟨o,⟨ho.tracks.congr fun k hk' => hk k ?_,?_⟩,.inl rfl⟩
    · intro hf
      have hfam := family_of_dossier hk'
      rw [hf] at hfam
      exact absurd hfam (by decide)
    · exact fun d hd => (ho.sound d hd).mono (next_ledger hst)

theorem reaches_dossier {start : Ledger} {tr : Trace} (h : Reaches host start tr w) (p : Bytes32) :
    ∃ o, DossierAt w p o := by
  refine Run.state_invariant (I := fun w => ∃ o, DossierAt w p o) ?_ ?_ h
  · exact ⟨none,Tracks.empty p,fun d hd => by cases hd⟩
  · intro w l w' hyp hst
    obtain ⟨o,ho⟩ := hyp
    obtain ⟨o',ho',-⟩ := next_dossier hst ho
    exact ⟨o',ho'⟩

theorem proceeds_dossier {tr : Trace} {w' : World} (h : Proceeds host w tr w')
    (ho : DossierAt w p o) : ∃ o', DossierAt w' p o' ∧ Dossier.Later o o' := by
  refine Run.state_invariant (I := fun w => ∃ o', DossierAt w p o' ∧ Dossier.Later o o') ?_ ?_ h
  · exact ⟨o,ho,Dossier.Later.refl o⟩
  · intro w l w' hyp hst
    obtain ⟨o₁,ho₁,hlater⟩ := hyp
    obtain ⟨o₂,ho₂,rfl | ⟨inv,c,-,-,hsteps⟩⟩ := next_dossier hst ho₁
    · exact ⟨o₂,ho₂,hlater⟩
    · exact ⟨o₂,ho₂,hlater.trans hsteps.later⟩

end Harpocrates.Registry
