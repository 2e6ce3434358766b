import Harpocrates.Framework.Merkle
import Harpocrates.Registry.System

namespace Harpocrates.Registry

open Framework List Nat

def MAX_SOURCE_BATCH_PROOF_LEN : Nat := 32
def SOURCE_BATCH_LEAF_DOMAIN : UInt8 := 0x00
def SOURCE_BATCH_NODE_DOMAIN : UInt8 := 0x01

/-- The walk up the path, from step `i` on. -/
def sourceBatchWalk (sha256 : Bytes → Bytes32) (index : UInt32) :
    Nat → List Bytes32 → Bytes32 → Bytes32
  | _,[],current => current
  | i,sibling::rest,current =>
    let bit := (index.toNat >>> i) &&& 1
    let nodePreimage :=
      if bit = 0 then
        SOURCE_BATCH_NODE_DOMAIN::(current.1++sibling.1)
      else
        SOURCE_BATCH_NODE_DOMAIN::(sibling.1++current.1)
    sourceBatchWalk sha256 index (i+1) rest (sha256 nodePreimage)

/-- The root is an argument; whether it was registered is not asked. -/
def verifySourceBatchInclusion (env : Env) (root leaf : Bytes32) (proof : List Bytes32)
    (index : UInt32) : M Bool := do
  panicIf (proof.length > MAX_SOURCE_BATCH_PROOF_LEN) .InvalidInclusionProof
  panicIf (proof.length < 32 && index.toNat ≥ 2^proof.length) .InvalidInclusionProof
  let current := env.sha256 (SOURCE_BATCH_LEAF_DOMAIN::leaf.1)
  panicIf (sourceBatchWalk env.sha256 index 0 proof current != root) .InvalidInclusionProof
  pure true

def sourceBatchPreimage : Preimage Bytes32 Bytes32 → Bytes
  | .leaf leaf => SOURCE_BATCH_LEAF_DOMAIN::leaf.1
  | .node left right => SOURCE_BATCH_NODE_DOMAIN::(left.1++right.1)

def sourceBatchHash (sha256 : Bytes → Bytes32) (p : Preimage Bytes32 Bytes32) : Bytes32 :=
  sha256 (sourceBatchPreimage p)

structure ReferenceMerkleTree where
  leaves : List Bytes32
  levels : List (List Bytes32)

namespace ReferenceMerkleTree

def new (sha256 : Bytes → Bytes32) (leaves : List Bytes32) : Option ReferenceMerkleTree :=
  if leaves.isEmpty then none
  else some
    { leaves
      levels := Merkle.levelsFrom (sourceBatchHash sha256) leaves.length
        (leaves.map fun leaf => sourceBatchHash sha256 (.leaf leaf)) }

def root (tree : ReferenceMerkleTree) : Option Bytes32 :=
  tree.levels.getLast?.bind fun level => level[0]?

def proof (tree : ReferenceMerkleTree) (index : Nat) : Option (List Bytes32) :=
  Merkle.path tree.levels.dropLast index

end ReferenceMerkleTree

theorem sourceBatchPreimage_injective : Function.Injective sourceBatchPreimage := by
  intro p q h
  cases p with
  | leaf a =>
    cases q with
    | leaf b =>
      have hbytes : a.1=b.1 := tail_eq_of_cons_eq h
      rw [Subtype.ext hbytes]
    | node l r => exact absurd (head_eq_of_cons_eq h) (by decide)
  | node l r =>
    cases q with
    | leaf b => exact absurd (head_eq_of_cons_eq h) (by decide)
    | node l' r' =>
      have hbytes : l.1++r.1=l'.1++r'.1 := tail_eq_of_cons_eq h
      obtain ⟨hl,hr⟩ := append_inj hbytes (l.2.trans l'.2.symm)
      rw [Subtype.ext hl,Subtype.ext hr]

theorem sourceBatchWalk_eq (sha256 : Bytes → Bytes32) (index : UInt32) (i : Nat)
    (proof : List Bytes32) (current : Bytes32) :
    sourceBatchWalk sha256 index i proof current =
      Merkle.climb (sourceBatchHash sha256) (index.toNat/2^i) proof current := by
  induction proof generalizing i current with
  | nil => rfl
  | cons sibling rest ih =>
    have hstep : (if (index.toNat >>> i) &&& 1=0 then
          SOURCE_BATCH_NODE_DOMAIN::(current.1++sibling.1)
        else SOURCE_BATCH_NODE_DOMAIN::(sibling.1++current.1)) =
        sourceBatchPreimage (.above (index.toNat/2^i) current sibling) := by
      rw [Nat.and_one_is_mod,Nat.shiftRight_eq_div_pow,Preimage.above]
      split <;> rfl
    rw [sourceBatchWalk,Merkle.climb,hstep,ih,Nat.pow_succ,Nat.div_div_eq_div_mul]
    rfl

/-- What an accepted proof is: not too long, with an index in range, and leading to the root. -/
theorem verifySourceBatchInclusion_ok {env : Env} {root leaf : Bytes32} {proof : List Bytes32}
    {index : UInt32} {s s' : Storage} :
    verifySourceBatchInclusion env root leaf proof index s=.ok (true,s') ↔
      proof.length≤MAX_SOURCE_BATCH_PROOF_LEN ∧ index.toNat<2^proof.length ∧
      Merkle.climb (sourceBatchHash env.sha256) index.toNat proof
        (sourceBatchHash env.sha256 (.leaf leaf))=root ∧ s=s' := by
  have hwalk : sourceBatchWalk env.sha256 index 0 proof
      (env.sha256 (SOURCE_BATCH_LEAF_DOMAIN::leaf.1)) =
      Merkle.climb (sourceBatchHash env.sha256) index.toNat proof
        (sourceBatchHash env.sha256 (.leaf leaf)) := by
    rw [sourceBatchWalk_eq,Nat.pow_zero,Nat.div_one]
    rfl
  rw [← hwalk]
  simp only [verifySourceBatchInclusion,Tx.bind_ok,Tx.failIf_ok,Tx.pure_ok]
  constructor
  · intro h
    obtain ⟨_,_,⟨hlen,rfl⟩,_,_,⟨hindex,rfl⟩,_,_,⟨hroot,rfl⟩,-,rfl⟩ := h
    have hlen := Nat.le_of_not_lt (of_decide_eq_false hlen)
    refine ⟨hlen,?_,by simpa using hroot,rfl⟩
    rcases Nat.lt_or_ge proof.length 32 with hshort | hfull
    · simpa [hshort] using hindex
    · -- with 32 siblings every `u32` is in range
      rw [Nat.le_antisymm hlen hfull]
      exact index.toNat_lt
  · intro h
    obtain ⟨hlen,hindex,hroot,rfl⟩ := h
    exact ⟨(),s,⟨by simpa using hlen,rfl⟩,(),s,⟨by simp [hindex],rfl⟩,(),s,
      ⟨by simpa using hroot,rfl⟩,trivial,rfl⟩

def CollisionFree (sha256 : Bytes → Bytes32) (inputs : List Bytes) : Prop :=
  Set.InjOn sha256 {x | x ∈ inputs}

instance (sha256 : Bytes → Bytes32) (inputs : List Bytes) :
    Decidable (CollisionFree sha256 inputs) :=
  decidable_of_iff (∀ a ∈ inputs, ∀ b ∈ inputs, sha256 a = sha256 b → a = b)
    ⟨fun h a ha b hb => h a ha b hb,fun h _ ha _ hb => h ha hb⟩

/-- What the check of a proof hashes. -/
def openingInputs (sha256 : Bytes → Bytes32) (leaf : Bytes32) (proof : List Bytes32)
    (index : UInt32) : List Bytes :=
  (.leaf leaf::Merkle.trail (sourceBatchHash sha256) index.toNat proof
    (sourceBatchHash sha256 (.leaf leaf))).map sourceBatchPreimage

/-- What the tree over `2^d` leaves hashes. -/
def treeInputs (sha256 : Bytes → Bytes32) (d : Nat) (leaves : List Bytes32) : List Bytes :=
  (Merkle.inputs (sourceBatchHash sha256) d leaves).map sourceBatchPreimage

theorem CollisionFree.injOn {sha256 : Bytes → Bytes32} {ps : List (Preimage Bytes32 Bytes32)}
    (h : CollisionFree sha256 (ps.map sourceBatchPreimage)) :
    Set.InjOn (sourceBatchHash sha256) {p | p∈ps} := by
  intro p hp q hq heq
  exact sourceBatchPreimage_injective
    (h (mem_map_of_mem hp) (mem_map_of_mem hq) heq)

variable {d : Nat} {leaves : List Bytes32}

theorem fuel_le (hlen : leaves.length=2^d) : d≤leaves.length := by
  rw [hlen]
  exact Nat.lt_two_pow_self.le

theorem ReferenceMerkleTree.new_some (sha256 : Bytes → Bytes32) (hlen : leaves.length=2^d) :
    ∃ tree, new sha256 leaves=some tree ∧
      tree.levels=Merkle.levelsFrom (sourceBatchHash sha256) leaves.length
        (leaves.map fun leaf => sourceBatchHash sha256 (.leaf leaf)) ∧
      tree.root=Merkle.top (sourceBatchHash sha256) d
        (leaves.map fun leaf => sourceBatchHash sha256 (.leaf leaf)) := by
  have hne : leaves.isEmpty=false := by
    rw [isEmpty_eq_false_iff,← length_pos_iff,hlen]
    positivity
  refine ⟨_,by rw [new,hne]; rfl,rfl,?_⟩
  exact Merkle.top_eq _ (by rw [length_map,hlen]) (fuel_le hlen)

theorem reference_proof_accepted (env : Env) (hlen : leaves.length=2^d)
    (hd : d≤MAX_SOURCE_BATCH_PROOF_LEN) :
    ∃ tree root, ReferenceMerkleTree.new env.sha256 leaves=some tree ∧
      tree.root=some root ∧
      ∀ (index : UInt32) (leaf : Bytes32), leaves[index.toNat]? = some leaf →
        ∃ proof, tree.proof index.toNat=some proof ∧
          ∀ s, verifySourceBatchInclusion env root leaf proof index s=.ok (true,s) := by
  obtain ⟨tree,hnew,hlevels,hroot⟩ := ReferenceMerkleTree.new_some env.sha256 hlen
  have climbs : ∀ (i : Nat) (leaf : Bytes32), leaves[i]? = some leaf →
      ∃ proof, tree.proof i=some proof ∧ proof.length=d ∧ tree.root =
        some (Merkle.climb (sourceBatchHash env.sha256) i proof
          (sourceBatchHash env.sha256 (.leaf leaf))) := by
    intro i leaf hleaf
    rw [ReferenceMerkleTree.proof,hlevels,hroot]
    exact Merkle.path_climbs _ (by rw [length_map,hlen]) (fuel_le hlen)
      (by rw [List.getElem?_map,hleaf]; rfl)
  obtain ⟨first,hfirst⟩ : ∃ first, leaves[0]? = some first :=
    ⟨_,List.getElem?_eq_getElem (by rw [hlen]; positivity)⟩
  obtain ⟨_,-,-,htop⟩ := climbs 0 first hfirst
  refine ⟨tree,_,hnew,htop,fun index leaf hleaf => ?_⟩
  obtain ⟨proof,hproof,hplen,hclimb⟩ := climbs index.toNat leaf hleaf
  obtain ⟨hindex,-⟩ := List.getElem?_eq_some_iff.1 hleaf
  refine ⟨proof,hproof,fun s => verifySourceBatchInclusion_ok.2 ⟨hplen ▸ hd,?_,?_,rfl⟩⟩
  · rw [hplen,← hlen]
    exact hindex
  · exact Option.some.inj (hclimb.symm.trans htop)

/-- Two accepted proofs of one length for an index are the same. -/
theorem opening_determined {env : Env} {root leaf leaf' : Bytes32} {proof proof' : List Bytes32}
    {index : UInt32} {s s' t t' : Storage}
    (h : verifySourceBatchInclusion env root leaf proof index s=.ok (true,s'))
    (h' : verifySourceBatchInclusion env root leaf' proof' index t=.ok (true,t'))
    (hlen : proof.length=proof'.length)
    (hfree : CollisionFree env.sha256 (openingInputs env.sha256 leaf proof index++
      openingInputs env.sha256 leaf' proof' index)) : leaf=leaf' ∧ proof=proof' := by
  obtain ⟨-,-,hroot,-⟩ := verifySourceBatchInclusion_ok.1 h
  obtain ⟨-,-,hroot',-⟩ := verifySourceBatchInclusion_ok.1 h'
  rw [openingInputs,openingInputs,← map_append] at hfree
  have hS := hfree.injOn
  obtain ⟨hdigest,hproof⟩ := Merkle.climb_inj _ hS hlen (hroot.trans hroot'.symm)
    (fun p hp => by simp [hp]) (fun p hp => by simp [hp])
  exact ⟨Preimage.leaf.inj (hS (by simp) (by simp) hdigest),hproof⟩

/-- For the root of a full tree only the tree's own proofs are accepted. -/
theorem tree_opening {env : Env} {leaves : List Bytes32} {d : Nat} {tree : ReferenceMerkleTree}
    {root leaf : Bytes32} {proof : List Bytes32} {index : UInt32} {s s' : Storage}
    (hlen : leaves.length=2^d) (hnew : ReferenceMerkleTree.new env.sha256 leaves=some tree)
    (hroot : tree.root=some root)
    (h : verifySourceBatchInclusion env root leaf proof index s=.ok (true,s'))
    (hfree : CollisionFree env.sha256
      (treeInputs env.sha256 d leaves++openingInputs env.sha256 leaf proof index)) :
    leaves[index.toNat]? = some leaf ∧ tree.proof index.toNat=some proof := by
  obtain ⟨-,hindex,hclimb,-⟩ := verifySourceBatchInclusion_ok.1 h
  obtain ⟨tree',hnew',hlevels,htop⟩ := ReferenceMerkleTree.new_some env.sha256 hlen
  cases hnew'.symm.trans hnew
  rw [treeInputs,openingInputs,← map_append] at hfree
  rw [ReferenceMerkleTree.proof,hlevels]
  refine Merkle.opening_unique _ hfree.injOn hlen (fuel_le hlen) hindex ?_
    (fun p hp => mem_append_left _ hp) (fun p hp => mem_append_right _ hp)
  rw [← htop,hroot,hclimb]

/-- Inclusion in a source batch. The proofs of a full tree are accepted. Unless two inputs of the
hash collide, an item and its siblings are determined by the root, the index and the number of
siblings, and for the root of a full tree by the root and the index: only the leaf at the index
is accepted, with the tree's own proof. -/
theorem source_batch_inclusion (env : Env) :
    (∀ (leaves : List Bytes32) (d : Nat), leaves.length = 2^d →
      d ≤ MAX_SOURCE_BATCH_PROOF_LEN →
      ∃ tree root, ReferenceMerkleTree.new env.sha256 leaves = some tree ∧
        tree.root = some root ∧
        ∀ (index : UInt32) (leaf : Bytes32), leaves[index.toNat]? = some leaf →
          ∃ proof, tree.proof index.toNat = some proof ∧
            ∀ s, verifySourceBatchInclusion env root leaf proof index s = .ok (true,s)) ∧
    (∀ (root leaf leaf' : Bytes32) (proof proof' : List Bytes32) (index : UInt32)
      (s s' t t' : Storage),
      verifySourceBatchInclusion env root leaf proof index s = .ok (true,s') →
      verifySourceBatchInclusion env root leaf' proof' index t = .ok (true,t') →
      proof.length = proof'.length →
      CollisionFree env.sha256 (openingInputs env.sha256 leaf proof index++
        openingInputs env.sha256 leaf' proof' index) →
      leaf = leaf' ∧ proof = proof') ∧
    ∀ (leaves : List Bytes32) (d : Nat) (tree : ReferenceMerkleTree) (root leaf : Bytes32)
      (proof : List Bytes32) (index : UInt32) (s s' : Storage),
      leaves.length = 2^d → ReferenceMerkleTree.new env.sha256 leaves = some tree →
      tree.root = some root →
      verifySourceBatchInclusion env root leaf proof index s = .ok (true,s') →
      CollisionFree env.sha256
        (treeInputs env.sha256 d leaves++openingInputs env.sha256 leaf proof index) →
      leaves[index.toNat]? = some leaf ∧ tree.proof index.toNat = some proof :=
  ⟨fun _ _ => reference_proof_accepted env,
    fun _ _ _ _ _ _ _ _ _ _ => opening_determined,
    fun _ _ _ _ _ _ _ _ _ => tree_opening⟩

def leafDigest (leaf : Bytes32) : Bytes32 := sourceBatchHash Sha256.digest (.leaf leaf)
def nodeDigest (left right : Bytes32) : Bytes32 := sourceBatchHash Sha256.digest (.node left right)

def batchEnv : Env := World.env stellarHost ⟨genesis,Store.empty⟩ (.signedBy ⟨5⟩)

theorem pair_collisionFree : CollisionFree batchEnv.sha256
    (treeInputs batchEnv.sha256 1 [fill 1,fill 2]++
      openingInputs batchEnv.sha256 (fill 2) [leafDigest (fill 1)] 1) := by
  decide +kernel

theorem source_batch_inclusion_pair :
    ∃ tree root, ReferenceMerkleTree.new batchEnv.sha256 [fill 1,fill 2] = some tree ∧
      tree.root = some root ∧
      verifySourceBatchInclusion batchEnv root (fill 2) [leafDigest (fill 1)] 1 Store.empty =
        .ok (true,Store.empty) ∧
      tree.proof 1 = some [leafDigest (fill 1)] := by
  obtain ⟨complete,-,sound⟩ := source_batch_inclusion batchEnv
  obtain ⟨tree,root,hnew,hroot,haccept⟩ := complete [fill 1,fill 2] 1 rfl (by decide)
  obtain ⟨proof,hproof,haccept⟩ := haccept 1 (fill 2) rfl
  have hp : proof=[leafDigest (fill 1)] := by
    cases hnew
    exact (Option.some.inj hproof).symm
  subst hp
  exact ⟨tree,root,hnew,hroot,haccept Store.empty,
    (sound _ 1 tree root _ _ 1 _ _ rfl hnew hroot (haccept Store.empty) pair_collisionFree).2⟩

def forkLeft : Bytes32 := nodeDigest (fill 3) (leafDigest (fill 2))
def forkRoot : Bytes32 := nodeDigest forkLeft (leafDigest (fill 1))

def forkRegistry : World :=
  (deploy [.call ⟨5⟩ (.init ⟨5⟩),
    .call ⟨5⟩ (.registerSourceBatchRoot ⟨5⟩ forkRoot 3 (fill 9))]).2

theorem fork_collisionFree : CollisionFree batchEnv.sha256
    (openingInputs batchEnv.sha256 (fill 1) [forkLeft] 1++
      openingInputs batchEnv.sha256 (fill 2) [fill 3,leafDigest (fill 1)] 1) := by
  decide +kernel

def innerNode : Bytes32 := nodeDigest (leafDigest (fill 1)) (leafDigest (fill 1))

def nestedLeaves : List Bytes32 := [fill 1,fill 1,fill 1,innerNode]

theorem nested_collisionFree : CollisionFree batchEnv.sha256
    (treeInputs batchEnv.sha256 2 nestedLeaves++
      openingInputs batchEnv.sha256 innerNode [leafDigest (fill 1),innerNode] 3) := by
  decide +kernel

/-- For a registered root two items are accepted under one index, and an inner node of a full
tree is accepted as an item of it, though no two inputs of the hash collide. -/
theorem source_batch_fork :
    ((forkRegistry.store (.SourceBatch forkRoot)).isSome = true ∧
      verifySourceBatchInclusion batchEnv forkRoot (fill 1) [forkLeft] 1 forkRegistry.store =
        .ok (true,forkRegistry.store) ∧
      verifySourceBatchInclusion batchEnv forkRoot (fill 2) [fill 3,leafDigest (fill 1)] 1
        forkRegistry.store = .ok (true,forkRegistry.store) ∧
      fill 1 ≠ fill 2 ∧
      CollisionFree batchEnv.sha256 (openingInputs batchEnv.sha256 (fill 1) [forkLeft] 1++
        openingInputs batchEnv.sha256 (fill 2) [fill 3,leafDigest (fill 1)] 1)) ∧
    ∃ tree root proof, ReferenceMerkleTree.new batchEnv.sha256 nestedLeaves = some tree ∧
      tree.root = some root ∧ (tree.levels[1]?.bind fun level => level[0]?) = some innerNode ∧
      verifySourceBatchInclusion batchEnv root innerNode proof 3 forkRegistry.store =
        .ok (true,forkRegistry.store) ∧
      CollisionFree batchEnv.sha256 (treeInputs batchEnv.sha256 2 nestedLeaves++
        openingInputs batchEnv.sha256 innerNode proof 3) := by
  refine ⟨⟨by decide +kernel,?_,?_,by decide,fork_collisionFree⟩,?_⟩
  · exact verifySourceBatchInclusion_ok.2 ⟨by decide,by decide,rfl,rfl⟩
  · exact verifySourceBatchInclusion_ok.2 ⟨by decide,by decide,rfl,rfl⟩
  · have hlen : nestedLeaves.length=2^2 := rfl
    obtain ⟨tree,root,hnew,hroot,haccept⟩ := reference_proof_accepted batchEnv hlen (by decide)
    obtain ⟨proof,hproof,haccepted⟩ := haccept 3 innerNode rfl
    cases hnew
    obtain rfl : [leafDigest (fill 1),innerNode]=proof := Option.some.inj hproof
    exact ⟨_,root,_,rfl,hroot,rfl,haccepted _,nested_collisionFree⟩

end Harpocrates.Registry
