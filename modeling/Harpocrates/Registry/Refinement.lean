import Harpocrates.Registry.Book
import Harpocrates.Registry.System

namespace Harpocrates.Registry

open Framework Tx List

def ProofRecord.entry (r : ProofRecord) : Entry Bytes32 Bytes32 :=
  { video := r.videoHash, nullifier := r.nullifier, tier := r.tier }

/-- The book a storage stands for. -/
def book (s : Storage) : Book Address Bytes32 Bytes32 Bytes32 where
  entry p := (s (.Proof p)).map ProofRecord.entry
  owner v := s (.Video v)
  spent a n := (s (.VerifierNullifier a n)).isSome = true

abbrev RegistryOp := Op Address Bytes32 Bytes32 Bytes32

variable {s s' : Storage} {m n p v : Bytes32} {r : ProofRecord} {c : Call} {a : Address}
  {w : Nat × Nat} {u : Unit} {reason : Nat}

theorem book_congr (hp : ∀ p, s' (.Proof p)=s (.Proof p))
    (hv : ∀ v, s' (.Video v)=s (.Video v))
    (hn : ∀ a n, s' (.VerifierNullifier a n)=s (.VerifierNullifier a n)) : book s'=book s := by
  simp only [book,hp,hv,hn]

theorem book_of_writes {α : Type} {m : M α} {fs : List Family} {a : α} (hm : Writes (In fs) m)
    (hp : Family.Proof∉fs) (hv : Family.Video∉fs) (hn : Family.VerifierNullifier∉fs)
    (h : m s=.ok (a,s')) : book s'=book s :=
  book_congr (fun _ => hm _ _ _ h _ hp) (fun _ => hm _ _ _ h _ hv) (fun _ _ => hm _ _ _ h _ hn)

theorem book_entry_none : (book s).entry p=none ↔ s (.Proof p)=none := by
  simp [book]

theorem book_entry_some {e : Entry Bytes32 Bytes32} :
    (book s).entry p=some e ↔ ∃ r, s (.Proof p)=some r ∧ r.entry=e := by
  simp [book]

theorem book_store_nullifier (s : Storage) (a : Address) (n : Bytes32) :
    book (Store.set s (.VerifierNullifier a n) true)=(book s).apply (.spend a n) := by
  simp only [book,Book.apply,Book.mk.injEq]
  refine ⟨by simp,by simp,?_⟩
  funext a' n'
  by_cases h : a'=a ∧ n'=n
  · obtain ⟨rfl,rfl⟩ := h
    simp
  · have hk : DataKey.VerifierNullifier a' n'≠.VerifierNullifier a n := by
      simpa using h
    simp [hk,h]

theorem book_update_proof {r' : ProofRecord} (hr : s (.Proof p)=some r)
    (he : r'.entry=r.entry) : book (Store.set s (.Proof p) r')=book s := by
  simp only [book,Book.mk.injEq]
  refine ⟨?_,by simp,by simp⟩
  funext q
  by_cases h : q=p
  · subst h
    simp [hr,he]
  · have hk : DataKey.Proof q≠.Proof p := by simpa using h
    simp [hk]

variable {env : Env} {proof publicInputs : Bytes}

theorem saveRecord_book {r' : ProofRecord} {actor : Option Address}
    (h : saveRecord env p r actor s=.ok (r',s')) :
    book s'=(book s).apply (.record p r.entry) := by
  obtain ⟨-,hk⟩ := saveRecord_ok h
  simp only [book,Book.apply,Book.mk.injEq]
  refine ⟨?_,?_,?_⟩
  · funext q
    rw [hk _ (by simp)]
    by_cases hq : q=p
    · subst hq
      simp
    · have hne : DataKey.Proof q≠.Proof p := by simpa using hq
      simp [hne,hq]
  · funext v
    rw [hk _ (by simp)]
    by_cases hv : v=r.videoHash
    · subst hv
      simp [ProofRecord.entry]
    · have hne : DataKey.Video v≠.Video r.videoHash := by simpa using hv
      simp [ProofRecord.entry,hne,hv]
  · funext a n
    rw [hk _ (by simp)]
    simp

/-- A Tier 1 registration spends its nullifier under the active verifier. -/
def witnessOps (s : Storage) (p v n : Bytes32) : List RegistryOp :=
  match s .Verifier with
  | some a => [.spend a n,.record p ⟨v,some n,TIER_SILENT_WITNESS⟩]
  | none => []

def spendOps (s : Storage) (n : Bytes32) : List RegistryOp :=
  match s .Verifier with
  | some a => [.spend a n]
  | none => []

def frameNullifier (publicInputs : Bytes) : Bytes32 := field publicInputs 96

/-- The elements of a batch as its public inputs give them. -/
def batchOf (batchId : Bytes32) (publicInputs : Bytes) (videoHashes : List Bytes32) :
    List BatchItem :=
  match parseAggregatedPublicInputs publicInputs videoHashes.length with
  | .ok parsed => batchItems batchId parsed videoHashes
  | .error _ => []

def itemOps (s : Storage) (item : BatchItem) : List RegistryOp :=
  witnessOps s item.proofId item.videoHash item.element.nullifier

def Call.ops (s : Storage) : Call → List RegistryOp
  | .registerAnonymous v _ p n _ _ => witnessOps s p v n
  | .registerAnonymousVerified v _ p publicInputs _ =>
    witnessOps s p v (frameNullifier publicInputs)
  | .registerBatchVerified batchId _ publicInputs _ videoHashes =>
    (batchOf batchId publicInputs videoHashes).flatMap (itemOps s)
  | .registerSource _ v _ p => [.record p ⟨v,none,TIER_CONSISTENT_SOURCE⟩]
  | .registerSeal _ v _ p => [.record p ⟨v,none,TIER_PUBLIC_SEAL⟩]
  | .registerSourceDelegated _ _ v _ p => [.record p ⟨v,none,TIER_CONSISTENT_SOURCE⟩]
  | .registerSealDelegated _ _ v _ p => [.record p ⟨v,none,TIER_PUBLIC_SEAL⟩]
  | .checkNonRevocation publicInputs _ => spendOps s (field publicInputs 32)
  | .verifySelectiveDisclosure publicInputs _ => spendOps s (field publicInputs 128)
  | _ => []

/-- The one registration path that does not look whether the nullifier was consumed. -/
def Call.isBrowserWitness : Call → Bool
  | .registerAnonymousVerified _ _ _ publicInputs _ =>
    publicInputs.length == SILENT_WITNESS_BROWSER_V1_INPUT_LEN
  | _ => false

/-- What a call that went through did to the book, and what its checks guarantee about the
proofs it registered. -/
structure Registers (s : Storage) (c : Call) (s' : Storage) : Prop where
  refines : book s' = (book s).applyAll (c.ops s)
  fresh : ∀ p e, .record p e ∈ c.ops s → s (.Proof p) = none ∧ s (.Video e.video) = none
  ids : ((Op.entries (c.ops s)).map Prod.fst).Nodup
  spends : ∀ p e n a, .record p e ∈ c.ops s → e.nullifier = some n → s .Verifier = some a →
    .spend a n ∈ c.ops s
  unspent : c.isBrowserWitness = false → ∀ p e n a, .record p e ∈ c.ops s →
    e.nullifier = some n → s .Verifier = some a → hasNullifier s a n = false

theorem Registers.of_no_record (hr : book s'=(book s).applyAll (c.ops s))
    (hn : ∀ p e, .record p e∉c.ops s) :
    Registers s c s' where
  refines := hr
  fresh p e h := absurd h (hn p e)
  ids := by
    have : Op.entries (c.ops s)=[] :=
      eq_nil_iff_forall_not_mem.2 fun x hx => hn x.1 x.2 (Op.mem_entries.1 hx)
    simp [this]
  spends p e _ _ h := absurd h (hn p e)
  unspent _ p e _ _ h := absurd h (hn p e)

theorem Registers.of_witness (hops : c.ops s=witnessOps s p v n) (ha : s .Verifier=some a)
    (hr : book s'=(book s).applyAll (witnessOps s p v n)) (hp : s (.Proof p)=none)
    (hv : s (.Video v)=none) (hn : c.isBrowserWitness=false → hasNullifier s a n=false) :
    Registers s c s' := by
  have mem : ∀ q e, .record q e∈c.ops s ↔ q=p ∧ e=⟨v,some n,TIER_SILENT_WITNESS⟩ := by
    intro q e
    simp [hops,witnessOps,ha]
  refine ⟨by rw [hops]; exact hr,?_,by simp [hops,witnessOps,ha,Op.entries],?_,?_⟩
  · intro q e h
    obtain ⟨rfl,rfl⟩ := (mem q e).1 h
    exact ⟨hp,hv⟩
  · intro q e n' a' h hen ha'
    obtain ⟨rfl,rfl⟩ := (mem q e).1 h
    obtain rfl : n=n' := by simpa using hen
    simp [hops,witnessOps,ha']
  · intro hb q e n' a' h hen ha'
    obtain ⟨rfl,rfl⟩ := (mem q e).1 h
    obtain rfl : n=n' := by simpa using hen
    obtain rfl : a=a' := by simpa [ha] using ha'
    exact hn hb

theorem Registers.of_attributed {tier : Nat} (hops : c.ops s=[.record p ⟨v,none,tier⟩])
    (hr : book s'=(book s).apply (.record p ⟨v,none,tier⟩)) (hp : s (.Proof p)=none)
    (hv : s (.Video v)=none) : Registers s c s' := by
  have mem : ∀ q e, .record q e∈c.ops s ↔ q=p ∧ e=⟨v,none,tier⟩ := by
    intro q e
    simp [hops]
  refine ⟨by rw [hops]; exact hr,?_,by simp [hops,Op.entries],?_,?_⟩
  · intro q e h
    obtain ⟨rfl,rfl⟩ := (mem q e).1 h
    exact ⟨hp,hv⟩
  · intro q e n a h hen
    obtain ⟨rfl,rfl⟩ := (mem q e).1 h
    cases hen
  · intro _ q e n a h hen
    obtain ⟨rfl,rfl⟩ := (mem q e).1 h
    cases hen

theorem saveWitness_book (ha : s .Verifier=some a)
    (h : saveWitness env a n v m p s=.ok (r,s')) :
    book s'=(book s).applyAll (witnessOps s p v n) := by
  simp only [saveWitness,bind_ok,set_ok,gets_ok] at h
  obtain ⟨_,_,rfl,_,_,⟨rfl,rfl⟩,h⟩ := h
  rw [saveRecord_book h,book_store_nullifier]
  simp [witnessOps,ha,ProofRecord.entry,silentWitnessRecord]

def ChecksRoot (env : Env) (root : Bytes32) (s : Storage) : Prop :=
  ∃ x, requireActiveCredentialRoot env root s = .ok x

theorem registerAnonymous_ok {root : Bytes32}
    (h : registerAnonymous env v m p n root proof s=.ok (r,s')) :
    ∃ a, s .Verifier=some a ∧ s (.Proof p)=none ∧ s (.Video v)=none ∧
      hasNullifier s a n=false ∧ ChecksRoot env root s ∧
      saveWitness env a n v m p s=.ok (r,s') := by
  simp only [registerAnonymous,bind_ok,requireDomainUnpaused_ok,requireUnique_ok,
    getActiveVerifier_ok,gets_ok,failIf_ok] at h
  obtain ⟨_,_,⟨-,rfl⟩,_,_,⟨hp,hv,rfl⟩,a,_,⟨ha,rfl⟩,_,_,⟨hn,rfl⟩,_,_,⟨rfl,rfl⟩,_,_,⟨-,rfl⟩,_,_,
    hroot,h⟩ := h
  obtain rfl := requireActiveCredentialRoot_unchanged hroot
  exact ⟨a,ha,hp,hv,hn,⟨_,hroot⟩,h⟩

theorem registerAnonymous_registers {root : Bytes32}
    (h : registerAnonymous env v m p n root proof s=.ok (r,s')) :
    Registers s (.registerAnonymous v m p n root proof) s' := by
  obtain ⟨a,ha,hp,hv,hn,-,h⟩ := registerAnonymous_ok h
  exact .of_witness rfl ha (saveWitness_book ha h) hp hv (fun _ => hn)

theorem registerScopedWitness_ok
    (h : registerScopedWitness env ⟨s .Verifier,w⟩ v m p publicInputs proof s=.ok (r,s')) :
    ∃ a, s .Verifier=some a ∧ hasNullifier s a (frameNullifier publicInputs)=false ∧
      ChecksRoot env (field publicInputs 64) s ∧
      bytesToU64Be (field publicInputs 160)=getScopeEpochRaw s (field publicInputs 128) ∧
      saveWitness env a (frameNullifier publicInputs) v m p s=.ok (r,s') := by
  simp only [registerScopedWitness,bind_ok,lift_ok,gets_ok,unwrap_ok,
    failIf_ok] at h
  obtain ⟨parsed,_,⟨hparse,rfl⟩,_,_,⟨-,rfl⟩,_,_,⟨-,rfl⟩,_,_,hroot,_,_,⟨rfl,rfl⟩,_,_,
    ⟨hepoch,rfl⟩,a,_,⟨ha,rfl⟩,_,_,⟨hn,rfl⟩,_,_,⟨rfl,rfl⟩,_,_,hproof,h⟩ := h
  obtain rfl := requireActiveCredentialRoot_unchanged hroot
  obtain ⟨rfl,-⟩ := VerifierContext.requireVerifiedProof_unchanged hproof
  obtain ⟨-,-,rfl⟩ := parseScopedSilentWitnessPublicInputs_ok hparse
  rw [ha,VerifierContext.hasNullifier_some] at hn
  exact ⟨a,ha,hn,⟨_,hroot⟩,by simpa using hepoch,h⟩

theorem registerLegacyWitness_ok
    (h : registerLegacyWitness env ⟨s .Verifier,w⟩ v m p publicInputs proof s=.ok (r,s')) :
    ∃ a, s .Verifier=some a ∧ hasNullifier s a (frameNullifier publicInputs)=false ∧
      ChecksRoot env (field publicInputs 64) s ∧
      saveWitness env a (frameNullifier publicInputs) v m p s=.ok (r,s') := by
  simp only [registerLegacyWitness,bind_ok,lift_ok,gets_ok,unwrap_ok,
    failIf_ok] at h
  obtain ⟨parsed,_,⟨hparse,rfl⟩,_,_,⟨-,rfl⟩,_,_,⟨-,rfl⟩,_,_,hroot,a,_,⟨ha,rfl⟩,_,_,⟨hn,rfl⟩,_,_,
    ⟨rfl,rfl⟩,_,_,hproof,h⟩ := h
  obtain rfl := requireActiveCredentialRoot_unchanged hroot
  obtain ⟨rfl,-⟩ := VerifierContext.requireVerifiedProof_unchanged hproof
  obtain ⟨-,rfl⟩ := parseSilentWitnessPublicInputs_ok hparse
  rw [ha,VerifierContext.hasNullifier_some] at hn
  exact ⟨a,ha,hn,⟨_,hroot⟩,h⟩

theorem registerBrowserWitness_ok
    (h : registerBrowserWitness env v m p publicInputs proof s=.ok (r,s')) :
    ∃ a, s .Verifier=some a ∧ ChecksRoot env (field publicInputs 64) s ∧
      saveWitness env a (frameNullifier publicInputs) v m p s=.ok (r,s') := by
  simp only [registerBrowserWitness,bind_ok,lift_ok,getActiveVerifier_ok,
    failIf_ok] at h
  obtain ⟨parsed,_,⟨hparse,rfl⟩,_,_,⟨-,rfl⟩,_,_,hroot,a,_,⟨ha,rfl⟩,_,_,hproof,h⟩ := h
  obtain rfl := requireActiveCredentialRoot_unchanged hroot
  obtain rfl := requireVerifiedProof_unchanged hproof
  obtain ⟨-,rfl⟩ := parseBrowserSilentWitnessPublicInputs_ok hparse
  exact ⟨a,ha,⟨_,hroot⟩,h⟩

theorem registerAnonymousVerified_ok
    (h : registerAnonymousVerified env v m p publicInputs proof s=.ok (r,s')) :
    ∃ a, s .Verifier=some a ∧ s (.Proof p)=none ∧ s (.Video v)=none ∧
      (publicInputs.length≠SILENT_WITNESS_BROWSER_V1_INPUT_LEN →
        hasNullifier s a (frameNullifier publicInputs)=false) ∧
      ChecksRoot env (field publicInputs 64) s ∧
      (publicInputs.length=SILENT_WITNESS_V2_ENVELOPED_INPUT_LEN →
        bytesToU64Be (field publicInputs 160)=getScopeEpochRaw s (field publicInputs 128)) ∧
      saveWitness env a (frameNullifier publicInputs) v m p s=.ok (r,s') := by
  simp only [registerAnonymousVerified,bind_ok,VerifierContext.load_ok,
    requireDomainUnpaused_ok,requireUnique_ok,Tx.ite_apply] at h
  obtain ⟨_,_,⟨rfl,rfl⟩,_,_,⟨-,rfl⟩,_,_,⟨hp,hv,rfl⟩,h⟩ := h
  split at h
  · simp at h
  split at h
  · obtain ⟨a,ha,hn,hroot,hepoch,h⟩ := registerScopedWitness_ok h
    exact ⟨a,ha,hp,hv,fun _ => hn,hroot,fun _ => hepoch,h⟩
  rename_i hscoped
  split at h
  · obtain ⟨a,ha,hn,hroot,h⟩ := registerLegacyWitness_ok h
    exact ⟨a,ha,hp,hv,fun _ => hn,hroot,fun hlen => absurd hlen hscoped,h⟩
  split at h
  · rename_i hlen
    obtain ⟨a,ha,hroot,h⟩ := registerBrowserWitness_ok h
    exact ⟨a,ha,hp,hv,fun hne => absurd hlen hne,hroot,fun hlen => absurd hlen hscoped,h⟩
  · simp at h

theorem registerAnonymousVerified_registers
    (h : registerAnonymousVerified env v m p publicInputs proof s=.ok (r,s')) :
    Registers s (.registerAnonymousVerified v m p publicInputs proof) s' := by
  obtain ⟨a,ha,hp,hv,hn,-,-,h⟩ := registerAnonymousVerified_ok h
  refine .of_witness rfl ha (saveWitness_book ha h) hp hv (fun hb => hn ?_)
  simpa [Call.isBrowserWitness] using hb

theorem checkBatchItem_ok {root : Bytes32} {item : BatchItem} {t : Storage}
    (h : checkBatchItem ⟨some a,w⟩ root item s=.ok ((),t)) :
    s=t ∧ s (.Proof item.proofId)=none ∧ s (.Video item.videoHash)=none ∧
      hasNullifier s a item.element.nullifier=false := by
  simp only [checkBatchItem,bind_ok,has_ok,gets_ok,failIf_ok] at h
  obtain ⟨_,_,⟨-,rfl⟩,_,_,⟨-,rfl⟩,_,_,⟨hp,rfl⟩,_,_,⟨rfl,rfl⟩,_,_,⟨hv,rfl⟩,_,_,⟨rfl,rfl⟩,_,_,
    ⟨rfl,rfl⟩,hn,rfl⟩ := h
  exact ⟨rfl,by simpa using hp,by simpa using hv,hn⟩

theorem persistBatchItem_book {expiresAt size : Nat} {item : BatchItem} {t t' : Storage}
    (ha : s .Verifier=some a) (h : persistBatchItem env a m expiresAt size item t=.ok ((),t')) :
    book t'=(book t).applyAll (itemOps s item) := by
  simp only [persistBatchItem,bind_ok,set_ok,pure_ok] at h
  obtain ⟨_,_,rfl,_,_,h,-,rfl⟩ := h
  rw [saveRecord_book h,book_store_nullifier]
  simp [itemOps,witnessOps,ha,ProofRecord.entry,batchRecord,silentWitnessRecord]

theorem applyAll_flatMap {ι : Type} (b : Book Address Bytes32 Bytes32 Bytes32)
    (f : ι → List RegistryOp) (is : List ι) :
    b.applyAll (is.flatMap f)=is.foldl (fun b i => b.applyAll (f i)) b := by
  induction is generalizing b with
  | nil => rfl
  | cons i is ih => rw [flatMap_cons,Book.applyAll_append,ih,foldl_cons]

/-- What a batch element registers. -/
def BatchItem.entry (item : BatchItem) : Entry Bytes32 Bytes32 :=
  { video := item.videoHash
    nullifier := some item.element.nullifier
    tier := TIER_SILENT_WITNESS }

theorem entries_flatMap_itemOps (ha : s .Verifier=some a) (items : List BatchItem) :
    Op.entries (items.flatMap (itemOps s)) =
      items.map fun item => (item.proofId,item.entry) := by
  induction items with
  | nil => rfl
  | cons item items ih =>
    rw [flatMap_cons,Op.entries_append,ih]
    simp [itemOps,witnessOps,ha,Op.entries,BatchItem.entry]

theorem mem_flatMap_itemOps {items : List BatchItem} {e : Entry Bytes32 Bytes32}
    (ha : s .Verifier=some a) (h : .record p e∈items.flatMap (itemOps s)) :
    ∃ item∈items, item.proofId=p ∧ e=item.entry := by
  rw [← Op.mem_entries,entries_flatMap_itemOps ha,mem_map] at h
  obtain ⟨item,hi,he⟩ := h
  obtain ⟨h1,h2⟩ := Prod.mk.inj he
  exact ⟨item,hi,h1,h2.symm⟩

theorem batchItems_ids_nodup (batchId : Bytes32) (parsed : AggregatedPublicInputs)
    {videoHashes : List Bytes32} (h : videoHashes.length≤256) :
    ((batchItems batchId parsed videoHashes).map BatchItem.proofId).Nodup := by
  have e : (batchItems batchId parsed videoHashes).map BatchItem.proofId =
      (List.range videoHashes.length).map (deriveElementProofId batchId) := by
    apply ext_getElem
    · simp [batchItems]
    · intro i h1 h2
      simp [batchItems]
  rw [e]
  refine List.Nodup.map_on ?_ nodup_range
  intro i hi j hj hij
  have hi := mem_range.1 hi
  have hj := mem_range.1 hj
  exact deriveElementProofId_inj batchId (by omega) (by omega) hij

theorem registerBatchVerified_ok {b : Bytes32} {vs : List Bytes32} {rs : List ProofRecord}
    (h : registerBatchVerified env b m publicInputs proof vs s=.ok (rs,s')) :
    ∃ a parsed, s .Verifier=some a ∧ vs.length≤MAX_AGGREGATION_SIZE ∧
      parseAggregatedPublicInputs publicInputs vs.length=.ok parsed ∧
      (∀ item∈batchItems b parsed vs, s (.Proof item.proofId)=none ∧
        s (.Video item.videoHash)=none ∧ hasNullifier s a item.element.nullifier=false) ∧
      forEach (batchItems b parsed vs)
        (persistBatchItem env a m (computeExpiresAt env s) vs.length) s=.ok ((),s') := by
  simp only [registerBatchVerified,bind_ok,VerifierContext.load_ok,lift_ok,gets_ok,
    unwrap_ok,failIf_ok,pure_ok] at h
  obtain ⟨_,_,⟨rfl,rfl⟩,_,_,⟨hsize,rfl⟩,parsed,_,⟨hparse,rfl⟩,_,_,⟨-,rfl⟩,a,_,⟨ha,rfl⟩,h⟩ := h
  obtain ⟨_,_,hproof,_,_,hroot,_,_,⟨rfl,rfl⟩,_,_,hcheck,_,_,hpersist,-,rfl⟩ := h
  obtain ⟨rfl,-⟩ := VerifierContext.requireVerifiedProof_unchanged hproof
  obtain rfl := requireActiveCredentialRoot_unchanged hroot
  replace ha : s .Verifier=some a := ha
  rw [ha] at hcheck
  obtain ⟨rfl,hitems⟩ := forEach_check (fun item t => checkBatchItem_ok) hcheck
  exact ⟨a,parsed,ha,by simpa using (Bool.or_eq_false_iff.1 hsize).2,hparse,hitems,hpersist⟩

theorem registerBatchVerified_registers {b : Bytes32} {vs : List Bytes32} {rs : List ProofRecord}
    (h : registerBatchVerified env b m publicInputs proof vs s=.ok (rs,s')) :
    Registers s (.registerBatchVerified b m publicInputs proof vs) s' := by
  obtain ⟨a,parsed,ha,hsize,hparse,hitems,hpersist⟩ := registerBatchVerified_ok h
  have hops : Call.ops s (.registerBatchVerified b m publicInputs proof vs) =
      (batchItems b parsed vs).flatMap (itemOps s) := by
    simp [Call.ops,batchOf,hparse]
  have hlen : vs.length≤256 := hsize.trans (by decide)
  refine ⟨?_,?_,?_,?_,?_⟩
  · rw [hops,applyAll_flatMap]
    exact forEach_foldl book _ (fun item _ t t' h => persistBatchItem_book ha h) hpersist
  · rw [hops]
    intro p e h
    obtain ⟨item,hi,rfl,rfl⟩ := mem_flatMap_itemOps ha h
    exact ⟨(hitems item hi).1,(hitems item hi).2.1⟩
  · rw [hops,entries_flatMap_itemOps ha,map_map]
    exact batchItems_ids_nodup b parsed hlen
  · rw [hops]
    intro p e n a' h hn ha'
    obtain ⟨item,hi,rfl,rfl⟩ := mem_flatMap_itemOps ha h
    obtain rfl : item.element.nullifier=n := Option.some.inj hn
    exact mem_flatMap.2 ⟨item,hi,by simp [itemOps,witnessOps,ha']⟩
  · rw [hops]
    intro _ p e n a' h hn ha'
    obtain ⟨item,hi,rfl,rfl⟩ := mem_flatMap_itemOps ha h
    obtain rfl : item.element.nullifier=n := Option.some.inj hn
    obtain rfl : a=a' := by simpa [ha] using ha'
    exact (hitems item hi).2.2

theorem chargeIssuerQuota_frame (h : chargeIssuerQuota env a s=.ok (u,s')) :
    book s'=book s := by
  have hw : Writes (In [.IssuerQuotaUsage]) (chargeIssuerQuota env a) :=
    chargeIssuerQuota_writes env a (by simp)
  exact book_of_writes hw (by simp) (by simp) (by simp) h

theorem Registers.of_saved {subject actor : Address} {record : Storage → ProofRecord} {tier : Nat}
    (h : SavesNew env subject actor p v record s s') (hops : c.ops s=[.record p ⟨v,none,tier⟩])
    (hrecord : ∀ t, (record t).entry=⟨v,none,tier⟩) : Registers s c s' := by
  obtain ⟨hp,hv,t,r,hq,hsave⟩ := h
  refine .of_attributed hops ?_ hp hv
  rw [saveRecord_book hsave,chargeIssuerQuota_frame hq,hrecord]

theorem checkNonRevocation_ok (h : checkNonRevocation env publicInputs proof s=.ok (u,s')) :
    ∃ a, s .Verifier=some a ∧ ChecksRoot env (field publicInputs 96) s ∧
      Store.set s (.VerifierNullifier a (field publicInputs 32)) true=s' := by
  simp only [checkNonRevocation,bind_ok,lift_ok,get_ok,unwrap_ok,gets_ok,
    getActiveVerifier_ok,failIf_ok,set_ok] at h
  obtain ⟨parsed,_,⟨hparse,rfl⟩,_,_,⟨-,rfl⟩,_,_,⟨-,rfl⟩,_,_,⟨-,rfl⟩,_,_,⟨-,rfl⟩,_,_,⟨-,rfl⟩,_,_,
    hroot,a,_,⟨ha,rfl⟩,_,_,hproof,h⟩ := h
  obtain rfl := requireActiveCredentialRoot_unchanged hroot
  obtain rfl := requireVerifiedProof_unchanged hproof
  obtain ⟨-,rfl⟩ := parseRevocationPublicInputs_ok hparse
  exact ⟨a,ha,⟨_,hroot⟩,h⟩

theorem verifySelectiveDisclosure_ok
    (h : verifySelectiveDisclosure env publicInputs proof s=.ok (u,s')) :
    ∃ a, s .Verifier=some a ∧ ChecksRoot env (field publicInputs 96) s ∧
      Store.set s (.VerifierNullifier a (field publicInputs 128)) true=s' := by
  simp only [verifySelectiveDisclosure,getSchemaRecord,bind_ok,lift_ok,get_ok,
    unwrap_ok,getActiveVerifier_ok,failIf_ok,set_ok] at h
  obtain ⟨parsed,_,⟨hparse,rfl⟩,_,_,⟨-,rfl⟩,_,_,⟨_,_,⟨-,rfl⟩,-,rfl⟩,_,_,⟨-,rfl⟩,_,_,⟨-,rfl⟩,_,_,
    ⟨-,rfl⟩,_,_,hroot,a,_,⟨ha,rfl⟩,_,_,hproof,h⟩ := h
  obtain rfl := requireActiveCredentialRoot_unchanged hroot
  obtain rfl := requireVerifiedProof_unchanged hproof
  obtain ⟨-,rfl⟩ := parseSelectiveDisclosureInputs_ok hparse
  exact ⟨a,ha,⟨_,hroot⟩,h⟩

theorem Registers.of_spend (hops : c.ops s=spendOps s n) (ha : s .Verifier=some a)
    (h : Store.set s (.VerifierNullifier a n) true=s') : Registers s c s' := by
  refine .of_no_record ?_ ?_
  · rw [hops,← h,book_store_nullifier]
    simp [spendOps,ha]
  · simp [hops,spendOps,ha]

theorem recordProofHistory_book {action : Nat} {actor : Option Address}
    (h : recordProofHistory env p action actor reason s=.ok (u,s')) : book s'=book s := by
  have hw : Writes (In [.ProofHistorySeq,.ProofHistoryEntry])
      (recordProofHistory env p action actor reason) :=
    recordProofHistory_writes env p action actor reason (by simp)
  exact book_of_writes hw (by simp) (by simp) (by simp) h

theorem revokeProofInternal_book (h : revokeProofInternal env a p reason s=.ok (u,s')) :
    book s'=book s := by
  simp only [revokeProofInternal,bind_ok,getProofRecord_ok,set_ok] at h
  obtain ⟨r,_,⟨hr,rfl⟩,_,_,rfl,h⟩ := h
  exact (recordProofHistory_book h).trans (book_update_proof hr rfl)

theorem revokeProof_book (h : revokeProof env a p s=.ok (u,s')) : book s'=book s := by
  simp only [revokeProof,bind_ok,requireAdmin_ok] at h
  obtain ⟨_,_,⟨-,-,rfl⟩,h⟩ := h
  exact revokeProofInternal_book h

theorem revokeProofs_book {ps : List Bytes32} (h : revokeProofs env a ps reason s=.ok (u,s')) :
    book s'=book s := by
  simp only [revokeProofs,bind_ok,requireAdmin_ok,failIf_ok] at h
  obtain ⟨_,_,⟨-,-,rfl⟩,_,_,⟨-,rfl⟩,_,_,⟨-,rfl⟩,h⟩ := h
  exact forEach_invariant (P := fun t => book t=book s)
    (fun p _ t t' ht h => (revokeProofInternal_book h).trans ht) rfl h

theorem expireProof_book (h : expireProof env a p reason s=.ok (u,s')) : book s'=book s := by
  simp only [expireProof,bind_ok,requireAdmin_ok,getProofRecord_ok,failIf_ok,
    set_ok] at h
  obtain ⟨_,_,⟨-,-,rfl⟩,r,_,⟨hr,rfl⟩,_,_,⟨-,rfl⟩,_,_,⟨-,rfl⟩,_,_,rfl,h⟩ := h
  exact (recordProofHistory_book h).trans (book_update_proof hr rfl)

theorem correctProof_book (h : correctProof env a p m reason s=.ok (u,s')) :
    book s'=book s := by
  simp only [correctProof,bind_ok,requireAdmin_ok,getProofRecord_ok,failIf_ok,set_ok,
    get_ok] at h
  obtain ⟨_,_,⟨-,-,rfl⟩,r,_,⟨hr,rfl⟩,_,_,⟨-,rfl⟩,_,_,rfl,o,_,⟨-,rfl⟩,h⟩ := h
  cases o with
  | none => exact (recordProofHistory_book h).trans (book_update_proof hr rfl)
  | some envelope =>
    simp only [bind_ok,set_ok] at h
    obtain ⟨_,t,rfl,h⟩ := h
    have hm : book (Store.set s (.Proof p) { r with metadataHash := m })=book s :=
      book_update_proof hr rfl
    exact (recordProofHistory_book h).trans ((book_congr (by simp) (by simp) (by simp)).trans hm)

theorem Registers.of_quiet (hops : c.ops s=[]) (h : book s'=book s) : Registers s c s' :=
  .of_no_record (by simpa [hops] using h) (by simp [hops])

theorem ops_entries (s : Storage) (c : Call) :
    (∃ o : Option (Bytes32 × Entry Bytes32 Bytes32), Op.entries (c.ops s)=o.toList) ∨
      ∃ b m publicInputs proof vs, c=.registerBatchVerified b m publicInputs proof vs ∧
        Op.entries (c.ops s) =
          (batchOf b publicInputs vs).map fun item => (item.proofId,item.entry) := by
  have witness : ∀ p v n, ∃ o : Option (Bytes32 × Entry Bytes32 Bytes32),
      Op.entries (witnessOps s p v n)=o.toList := by
    intro p v n
    unfold witnessOps
    split
    · exact ⟨some _,rfl⟩
    · exact ⟨none,rfl⟩
  have spend : ∀ n, Op.entries (spendOps s n)=[] := by
    intro n
    unfold spendOps
    split <;> rfl
  cases c with
  | registerAnonymous => exact .inl (witness _ _ _)
  | registerAnonymousVerified => exact .inl (witness _ _ _)
  | registerBatchVerified b m publicInputs proof vs =>
    cases hv : s .Verifier with
    | none =>
      refine .inl ⟨none,?_⟩
      have : (batchOf b publicInputs vs).flatMap (itemOps s)=[] := by
        simp [flatMap_eq_nil_iff,itemOps,witnessOps,hv]
      simp [Call.ops,this,Op.entries]
    | some a => exact .inr ⟨b,m,publicInputs,proof,vs,rfl,entries_flatMap_itemOps hv _⟩
  | checkNonRevocation => exact .inl ⟨none,spend _⟩
  | verifySelectiveDisclosure => exact .inl ⟨none,spend _⟩
  | registerSource => exact .inl ⟨some _,rfl⟩
  | registerSeal => exact .inl ⟨some _,rfl⟩
  | registerSourceDelegated => exact .inl ⟨some _,rfl⟩
  | registerSealDelegated => exact .inl ⟨some _,rfl⟩
  | _ => exact .inl ⟨none,rfl⟩

/-- Every call of the contract does to the book what `Call.ops` says. -/
theorem exec_registers (h : exec env c s=.ok (u,s')) : Registers s c s' := by
  cases c with
  | registerAnonymous =>
    obtain ⟨_,h⟩ := (discard_ok ..).1 h
    exact registerAnonymous_registers h
  | registerAnonymousVerified =>
    obtain ⟨_,h⟩ := (discard_ok ..).1 h
    exact registerAnonymousVerified_registers h
  | registerBatchVerified =>
    obtain ⟨_,h⟩ := (discard_ok ..).1 h
    exact registerBatchVerified_registers h
  | registerSource =>
    obtain ⟨_,h⟩ := (discard_ok ..).1 h
    exact .of_saved (registerSource_ok h).2 rfl fun _ => rfl
  | registerSeal =>
    obtain ⟨_,h⟩ := (discard_ok ..).1 h
    exact .of_saved (registerSeal_ok h).2.2.2 rfl fun _ => rfl
  | registerSourceDelegated =>
    obtain ⟨_,h⟩ := (discard_ok ..).1 h
    obtain ⟨-,_,-,-,-,h⟩ := registerSourceDelegated_ok h
    exact .of_saved h rfl fun _ => rfl
  | registerSealDelegated =>
    obtain ⟨_,h⟩ := (discard_ok ..).1 h
    obtain ⟨-,_,-,-,-,-,h⟩ := registerSealDelegated_ok h
    exact .of_saved h rfl fun _ => rfl
  | checkNonRevocation =>
    obtain ⟨a,ha,-,h⟩ := checkNonRevocation_ok h
    exact .of_spend rfl ha h
  | verifySelectiveDisclosure =>
    obtain ⟨a,ha,-,h⟩ := verifySelectiveDisclosure_ok h
    exact .of_spend rfl ha h
  | revokeProof => exact .of_quiet rfl (revokeProof_book h)
  | revokeProofs => exact .of_quiet rfl (revokeProofs_book h)
  | expireProof => exact .of_quiet rfl (expireProof_book h)
  | correctProof => exact .of_quiet rfl (correctProof_book h)
  | _ =>
    exact .of_quiet rfl (book_of_writes (exec_writes env _) (notMem_of_elem rfl)
      (notMem_of_elem rfl) (notMem_of_elem rfl) h)

theorem next_registers {host : Host} {w w' : World} {l : Label} (h : next host w l=w') :
    (∃ inv c, l=.invoke inv c ∧ Registers w.store c w'.store) ∨
      book w'.store=book w.store := by
  obtain ⟨inv,c,hl,-,hx⟩ | hk := next_store h
  · exact .inl ⟨inv,c,hl,exec_registers hx⟩
  · exact .inr (book_congr (fun _ => hk _ (by simp)) (fun _ => hk _ (by simp))
      (fun _ _ => hk _ (by simp)))

end Harpocrates.Registry
