import Harpocrates.Circuits.Common
import Harpocrates.Framework.Merkle

namespace Harpocrates.Circuits.RevocationWitness

open Framework Framework.Fallible List Nat

def MIN_REVOCATION_WITNESS_DEPTH : Nat := 1
def MAX_REVOCATION_WITNESS_DEPTH : Nat := 16
def MAX_REVOCATION_LEAVES : Nat := 65536
def DEFAULT_REVOCATION_WITNESS_DEPTH : Nat := 3
def DEFAULT_REVOCATION_LEAVES : Nat := 8

def assertValidRevocationDepth (depth : Nat) : Except Failure Unit := do
  assertThat (depth ≥ MIN_REVOCATION_WITNESS_DEPTH) .depthUndersize
  assertThat (depth ≤ MAX_REVOCATION_WITNESS_DEPTH) .depthOversize

def assertValidRevocationLeafCount (leafCount : Nat) : Except Failure Unit := do
  assertThat (leafCount ≥ 2) .depthUndersize
  assertThat (leafCount ≤ MAX_REVOCATION_LEAVES) .depthOversize
  assertThat (leafCount &&& (leafCount-1) = 0) .depthNonPowerOfTwo

structure PublicInputs (F : Type) where
  revocationRoot : F
  nullifier : F
  domainSeparator : F
  credentialRoot : F

/-- A witness for any depth. The path has a direction and a sibling for each level, which are two
arrays of one length in the source. -/
structure Witness (F : Type) where
  credentialSecret : F
  nullifierSecret : F
  slots : List F
  path : List (F × F)
  slots_ne_nil : slots ≠ []

section

variable {F : Type} [DecidableEq F] [Zero F] [One F] (pedersenHash : List F → F)

/-- The loop over the levels. Those from the active depth on are skipped. -/
def walk (activeDepth : Nat) : Nat → List (F × F) → F → Except Failure F
  | _,[],current => .ok current
  | i,(idx,sibling)::rest,current =>
    if i < activeDepth then do
      assertThat (idx = 0 ∨ idx = 1) .malformed
      let left := if idx = 0 then current else sibling
      let right := if idx = 0 then sibling else current
      walk activeDepth (i+1) rest (pedersenHash [left,right])
    else walk activeDepth (i+1) rest current

def computeMerkleRootFromPath (leaf : F) (path : List (F × F)) (activeDepth : Nat) :
    Except Failure F := do
  assertValidRevocationDepth activeDepth
  assertThat (activeDepth ≤ path.length) .depthOversize
  assertThat (path.length ≤ MAX_REVOCATION_WITNESS_DEPTH) .depthOversize
  walk pedersenHash activeDepth 0 path leaf

def verifyNonRevocationAtDepth (w : Witness F) (activeDepth : Nat) (inputs : PublicInputs F) :
    Except Failure Unit := do
  assertValidRevocationDepth activeDepth
  assertThat (pedersenHash [w.credentialSecret] = inputs.credentialRoot) .malformed
  assertThat (pedersenHash [w.credentialSecret,w.nullifierSecret] = inputs.nullifier) .malformed
  forM w.slots fun slot => assertThat (inputs.credentialRoot ≠ slot) .revoked
  let computedRoot ← computeMerkleRootFromPath pedersenHash (w.slots.head w.slots_ne_nil) w.path
    activeDepth
  assertThat (computedRoot = inputs.revocationRoot) .malformed
  assertThat (inputs.domainSeparator ≠ 0) .domainMismatch

def compute8LeafMerkleRoot (leaf0 leaf1 leaf2 leaf3 leaf4 leaf5 leaf6 leaf7 : F) :
    Except Failure F := do
  assertValidRevocationDepth DEFAULT_REVOCATION_WITNESS_DEPTH
  assertValidRevocationLeafCount DEFAULT_REVOCATION_LEAVES
  let node01 := pedersenHash [leaf0,leaf1]
  let node23 := pedersenHash [leaf2,leaf3]
  let node45 := pedersenHash [leaf4,leaf5]
  let node67 := pedersenHash [leaf6,leaf7]
  let node0123 := pedersenHash [node01,node23]
  let node4567 := pedersenHash [node45,node67]
  pure (pedersenHash [node0123,node4567])

def main (credentialSecret nullifierSecret leaf0 leaf1 leaf2 leaf3 leaf4 leaf5 leaf6 leaf7 : F)
    (inputs : PublicInputs F) : Except Failure Unit := do
  assertThat (pedersenHash [credentialSecret] = inputs.credentialRoot) .malformed
  assertThat (pedersenHash [credentialSecret,nullifierSecret] = inputs.nullifier) .malformed
  let computedRoot ← compute8LeafMerkleRoot pedersenHash leaf0 leaf1 leaf2 leaf3 leaf4 leaf5 leaf6
    leaf7
  assertThat (computedRoot = inputs.revocationRoot) .malformed
  forM [leaf0,leaf1,leaf2,leaf3,leaf4,leaf5,leaf6,leaf7] fun leaf =>
    assertThat (inputs.credentialRoot ≠ leaf) .revoked

end

section

variable {F : Type} (pedersenHash : List F → F)

def nodeHash : Preimage Empty F → F
  | .node left right => pedersenHash [left,right]

theorem nodeHash_injective (hfree : Function.Injective pedersenHash) :
    Function.Injective (nodeHash pedersenHash) := by
  intro p q h
  cases p with
  | leaf a => cases a
  | node l r =>
    cases q with
    | leaf a => cases a
    | node l' r' =>
      obtain ⟨rfl,hr⟩ := List.cons.inj (hfree h)
      obtain ⟨rfl,-⟩ := List.cons.inj hr
      rfl

variable [Zero F] [One F]

def pathFrom : Nat → List F → List (F × F)
  | _,[] => []
  | i,sibling::rest => (if i%2 = 0 then 0 else 1,sibling)::pathFrom (i/2) rest

theorem map_snd_pathFrom (i : Nat) (siblings : List F) :
    (pathFrom i siblings).map Prod.snd=siblings := by
  induction siblings generalizing i with
  | nil => rfl
  | cons s rest ih => rw [pathFrom,map_cons,ih]

theorem length_pathFrom (i : Nat) (siblings : List F) :
    (pathFrom i siblings).length=siblings.length := by
  rw [← length_map (f := Prod.snd),map_snd_pathFrom]

theorem pathFrom_directions (i : Nat) (siblings : List F) :
    ∀ p∈pathFrom i siblings, p.1=0 ∨ p.1=1 := by
  induction siblings generalizing i with
  | nil => simp [pathFrom]
  | cons s rest ih =>
    rw [pathFrom,forall_mem_cons]
    refine ⟨?_,ih (i/2)⟩
    by_cases heven : i%2=0
    · simp [heven]
    · simp [heven]

end

section

variable {F : Type} [DecidableEq F] [Zero F]

def position : List (F × F) → Nat
  | [] => 0
  | (idx,_)::rest => (if idx = 0 then 0 else 1)+2*position rest

theorem position_lt (path : List (F × F)) : position path<2^path.length := by
  induction path with
  | nil => simp [position]
  | cons p rest ih =>
    rw [position,length_cons,pow_succ]
    split <;> omega

theorem position_pathFrom [One F] [NeZero (1 : F)] {i : Nat} {siblings : List F}
    (h : i<2^siblings.length) : position (pathFrom i siblings)=i := by
  induction siblings generalizing i with
  | nil =>
    rw [length_nil] at h
    exact (lt_one_iff.1 h).symm
  | cons s rest ih =>
    rw [length_cons,pow_succ] at h
    rw [pathFrom,position,ih (by omega)]
    by_cases heven : i%2=0
    · simp only [heven,if_true]
      omega
    · simp only [heven,if_false,one_ne_zero]
      omega

end

section

variable {F : Type} [DecidableEq F] [Zero F] [One F] (pedersenHash : List F → F)

variable {d : Nat}

theorem walk_inactive {i : Nat} (h : d ≤ i) (path : List (F × F)) (current : F) :
    walk pedersenHash d i path current=.ok current := by
  induction path generalizing i with
  | nil => rfl
  | cons p rest ih =>
    rw [walk,if_neg (not_lt.2 h),ih (le_succ_of_le h)]

theorem walk_ok {n i : Nat} {path : List (F × F)} {leaf root : F} (hn : n≤path.length) :
    walk pedersenHash (i+n) i path leaf=.ok root ↔
      (∀ p∈path.take n, p.1=0 ∨ p.1=1) ∧
      Merkle.climb (nodeHash pedersenHash) (position (path.take n))
        ((path.take n).map Prod.snd) leaf=root := by
  induction n generalizing i path leaf with
  | zero =>
    rw [add_zero,walk_inactive pedersenHash (le_refl i)]
    simp [Merkle.climb]
  | succ n ih =>
    obtain ⟨⟨idx,sibling⟩,rest,rfl⟩ :=
      exists_cons_of_length_pos (lt_of_lt_of_le n.succ_pos hn)
    have hrest : n≤rest.length := le_of_succ_le_succ hn
    have habove : ∀ k, Preimage.above ((if idx=0 then 0 else 1)+2*k) leaf sibling =
        (.node (if idx=0 then leaf else sibling) (if idx=0 then sibling else leaf) :
          Preimage Empty F) := by
      intro k
      by_cases hidx : idx=0
      · simp [Preimage.above,hidx]
      · simp [Preimage.above,hidx]
    have hhalf : ∀ k, ((if idx=0 then 0 else 1)+2*k)/2=k := by
      intro k
      split <;> omega
    have hshift : i+(n+1)=i+1+n := by omega
    rw [walk,if_pos (by omega),unit_bind_ok,assertThat_ok,hshift,ih hrest]
    simp only [take_succ_cons,forall_mem_cons,map_cons,position,Merkle.climb,
      habove,hhalf,nodeHash,and_assoc]

theorem assertValidRevocationDepth_ok : assertValidRevocationDepth d=.ok () ↔ 1≤d ∧ d≤16 := by
  rw [assertValidRevocationDepth,unit_bind_ok,assertThat_ok,assertThat_ok]
  rfl

theorem computeMerkleRootFromPath_ok {leaf root : F} {path : List (F × F)} :
    computeMerkleRootFromPath pedersenHash leaf path d=.ok root ↔
      (1≤d ∧ d≤16) ∧ (d≤path.length ∧ path.length≤16) ∧
      (∀ p∈path.take d, p.1=0 ∨ p.1=1) ∧
      Merkle.climb (nodeHash pedersenHash) (position (path.take d))
        ((path.take d).map Prod.snd) leaf=root := by
  rw [computeMerkleRootFromPath,unit_bind_ok,unit_bind_ok,unit_bind_ok,
    assertValidRevocationDepth_ok,assertThat_ok,assertThat_ok,MAX_REVOCATION_WITNESS_DEPTH,
    and_assoc (b := path.length≤16)]
  refine and_congr_right fun _ => and_congr_right fun hroom => and_congr_right fun _ => ?_
  have hwalk : walk pedersenHash (0+d) 0 path leaf=.ok root ↔ _ := walk_ok pedersenHash hroom
  rwa [zero_add] at hwalk

/-- What an accepted witness has shown: the slots do not hold the credential, and the first of
them is the start of a way up to the root. -/
structure Shown (w : Witness F) (d : Nat) (inputs : PublicInputs F) : Prop where
  depth : 1 ≤ d ∧ d ≤ 16
  credential : pedersenHash [w.credentialSecret] = inputs.credentialRoot
  nullifier : pedersenHash [w.credentialSecret,w.nullifierSecret] = inputs.nullifier
  slots : ∀ slot ∈ w.slots, inputs.credentialRoot ≠ slot
  room : d ≤ w.path.length ∧ w.path.length ≤ 16
  directions : ∀ p ∈ w.path.take d, p.1 = 0 ∨ p.1 = 1
  root : Merkle.climb (nodeHash pedersenHash) (position (w.path.take d))
    ((w.path.take d).map Prod.snd) (w.slots.head w.slots_ne_nil) = inputs.revocationRoot
  domain : inputs.domainSeparator ≠ 0

variable {inputs : PublicInputs F}

theorem verify_ok {w : Witness F} : verifyNonRevocationAtDepth pedersenHash w d inputs=.ok () ↔
      Shown pedersenHash w d inputs := by
  rw [verifyNonRevocationAtDepth,unit_bind_ok,unit_bind_ok,unit_bind_ok,unit_bind_ok,
    assertValidRevocationDepth_ok,assertThat_ok,assertThat_ok,forM_assertThat,bind_ok]
  simp only [unit_bind_ok,assertThat_ok,computeMerkleRootFromPath_ok]
  constructor
  · intro h
    obtain ⟨hd,hcredential,hnullifier,hslots,root,⟨-,hroom,hdirections,hclimb⟩,hroot,hdomain⟩ := h
    exact ⟨hd,hcredential,hnullifier,hslots,hroom,hdirections,hclimb.trans hroot,hdomain⟩
  · intro h
    exact ⟨h.depth,h.credential,h.nullifier,h.slots,_,⟨h.depth,h.room,h.directions,h.root⟩,rfl,
      h.domain⟩

theorem Shown.head_mem (hfree : Function.Injective pedersenHash) {w : Witness F}
    (h : Shown pedersenHash w d inputs) {leaves : List F} (hleaves : leaves.length=2^d)
    (hroot : Merkle.top (nodeHash pedersenHash) d leaves=some inputs.revocationRoot) :
    w.slots.head w.slots_ne_nil∈leaves := by
  have hlen : (w.path.take d).length=d := by
    rw [length_take]
    exact min_eq_left h.room.1
  have hposition : position (w.path.take d)<2^d := by
    have hlt := position_lt (w.path.take d)
    rwa [hlen] at hlt
  have hnodes : Set.InjOn (nodeHash pedersenHash) Set.univ :=
    (nodeHash_injective pedersenHash hfree).injOn
  have hsiblings : ((w.path.take d).map Prod.snd).length=d := by rw [length_map,hlen]
  obtain ⟨hleaf,-⟩ := Merkle.climb_path _ hnodes hleaves (le_refl d) hposition hsiblings
    (by rw [hroot,h.root]) (fun _ _ => Set.mem_univ _) (fun _ _ => Set.mem_univ _)
  exact mem_of_getElem? hleaf

/-- From any leaf there is a path that is accepted for a credential outside the slots. -/
theorem shown_of_head_mem [NeZero (1 : F)] (hmin : 1≤d) (hmax : d≤16) {leaves : List F}
    (hleaves : leaves.length=2^d) {root : F}
    (hroot : Merkle.top (nodeHash pedersenHash) d leaves=some root) {slots : List F}
    (hslots : slots≠[]) (hhead : slots.head hslots∈leaves) {secret : F}
    (hsecret : pedersenHash [secret]∉slots) :
    ∃ w : Witness F, w.slots=slots ∧ Shown pedersenHash w d
      ⟨root,pedersenHash [secret,0],1,pedersenHash [secret]⟩ := by
  obtain ⟨i,hi⟩ := List.getElem?_of_mem hhead
  obtain ⟨hbound,-⟩ := List.getElem?_eq_some_iff.1 hi
  obtain ⟨siblings,-,hlen,htop⟩ :=
    Merkle.path_climbs (nodeHash pedersenHash) hleaves (le_refl d) hi
  have hposition : i<2^siblings.length := by rwa [hlen,← hleaves]
  have htake : (pathFrom i siblings).take d=pathFrom i siblings := by
    refine take_of_length_le ?_
    rw [length_pathFrom,hlen]
  refine ⟨⟨secret,0,slots,pathFrom i siblings,hslots⟩,rfl,⟨hmin,hmax⟩,rfl,rfl,?_,?_,?_,?_,?_⟩
  · intro slot hslot heq
    subst heq
    exact hsecret hslot
  · rw [length_pathFrom,hlen]
    exact ⟨le_refl d,hmax⟩
  · rw [htake]
    exact pathFrom_directions i siblings
  · rw [htake,position_pathFrom hposition,map_snd_pathFrom]
    exact Option.some.inj (htop.symm.trans hroot)
  · exact one_ne_zero

/-- Non-revocation is proved by exactly those slots that start at no leaf at all, or that hold
every leaf that is a credential. -/
theorem non_revocation_sound [NeZero (1 : F)] (hfree : Function.Injective pedersenHash) {d : Nat}
    (hmin : 1 ≤ d) (hmax : d ≤ 16) {leaves : List F} (hleaves : leaves.length = 2^d) {root : F}
    (hroot : Merkle.top (nodeHash pedersenHash) d leaves = some root) {slots : List F}
    (hslots : slots ≠ []) :
    (∀ (w : Witness F) (inputs : PublicInputs F), w.slots = slots →
      inputs.revocationRoot = root →
      verifyNonRevocationAtDepth pedersenHash w d inputs = .ok () →
      inputs.credentialRoot ∉ leaves) ↔
    slots.head hslots ∉ leaves ∨
      ∀ leaf ∈ leaves, (∃ secret, pedersenHash [secret] = leaf) → leaf ∈ slots := by
  constructor
  · intro hsound
    by_cases hhead : slots.head hslots∈leaves
    · refine .inr fun leaf hleaf hsecret => ?_
      obtain ⟨secret,rfl⟩ := hsecret
      by_contra hmissing
      obtain ⟨w,hw,hshown⟩ :=
        shown_of_head_mem pedersenHash hmin hmax hleaves hroot hslots hhead hmissing
      exact hsound w _ hw rfl ((verify_ok pedersenHash).2 hshown) hleaf
    · exact .inl hhead
  · intro h w inputs hw hr hverify
    subst hw
    subst hr
    have hshown := (verify_ok pedersenHash).1 hverify
    rcases h with hout | hall
    · exact absurd (hshown.head_mem pedersenHash hfree hleaves hroot) hout
    · intro hmem
      exact hshown.slots _ (hall _ hmem ⟨_,hshown.credential⟩) rfl

end

theorem compute8LeafMerkleRoot_ok {F : Type} (pedersenHash : List F → F)
    {l0 l1 l2 l3 l4 l5 l6 l7 root : F} :
    compute8LeafMerkleRoot pedersenHash l0 l1 l2 l3 l4 l5 l6 l7=.ok root ↔
      Merkle.top (nodeHash pedersenHash) 3 [l0,l1,l2,l3,l4,l5,l6,l7]=some root :=
  ⟨fun h => congrArg some (Except.ok.inj h),fun h => congrArg Except.ok (Option.some.inj h)⟩

/-- The circuit for eight leaves takes all of them from the tree, and accepts a credential that
is none of them. -/
theorem main_accepts_iff {F : Type} [DecidableEq F] (pedersenHash : List F → F)
    (hfree : Function.Injective pedersenHash) {cs ns l0 l1 l2 l3 l4 l5 l6 l7 : F}
    {inputs : PublicInputs F} {leaves : List F} (hleaves : leaves.length = 8)
    (hroot : Merkle.top (nodeHash pedersenHash) 3 leaves = some inputs.revocationRoot) :
    main pedersenHash cs ns l0 l1 l2 l3 l4 l5 l6 l7 inputs = .ok () ↔
      pedersenHash [cs] = inputs.credentialRoot ∧ pedersenHash [cs,ns] = inputs.nullifier ∧
      [l0,l1,l2,l3,l4,l5,l6,l7] = leaves ∧ inputs.credentialRoot ∉ leaves := by
  rw [main,unit_bind_ok,unit_bind_ok,bind_ok,assertThat_ok,assertThat_ok]
  simp only [unit_bind_ok,assertThat_ok,forM_assertThat,compute8LeafMerkleRoot_ok]
  refine and_congr_right fun _ => and_congr_right fun _ => ⟨?_,?_⟩
  · rintro ⟨root,htop,rfl,hall⟩
    obtain rfl := Merkle.top_inj _ (nodeHash_injective pedersenHash hfree) hleaves rfl
      (hroot.trans htop.symm)
    exact ⟨rfl,fun hmem => hall _ hmem rfl⟩
  · rintro ⟨rfl,hout⟩
    exact ⟨_,hroot,rfl,fun leaf hleaf heq => hout (heq ▸ hleaf)⟩

theorem main_accepts_iff_unrevoked :
    ∃ inputs, main freeHash 333 7 0 1 2 3 4 5 6 7 inputs = .ok () ∧
      inputs.credentialRoot ∉ [0,1,2,3,4,5,6,7] := by
  obtain ⟨root,hroot⟩ : ∃ root, Merkle.top (nodeHash freeHash) 3 [0,1,2,3,4,5,6,7]=some root :=
    ⟨_,rfl⟩
  have hout : freeHash [333]∉[0,1,2,3,4,5,6,7] := by decide +kernel
  exact ⟨⟨root,freeHash [333,7],1,freeHash [333]⟩,
    (main_accepts_iff freeHash freeHash_injective rfl hroot).2 ⟨rfl,rfl,rfl,hout⟩,hout⟩

def twoLeaves (a b : Nat) : List Nat := [freeHash [a],freeHash [b]]

def twoRoot (a b : Nat) : Nat := freeHash (twoLeaves a b)

theorem non_revocation_sound_both_slots :
    verifyNonRevocationAtDepth freeHash
      ⟨333,7,twoLeaves 111 222,[(0,freeHash [222])],by simp [twoLeaves]⟩ 1
      ⟨twoRoot 111 222,freeHash [333,7],1,freeHash [333]⟩ = .ok () ∧
    freeHash [333] ∉ twoLeaves 111 222 := by
  have h : verifyNonRevocationAtDepth freeHash
      ⟨333,7,twoLeaves 111 222,[(0,freeHash [222])],by simp [twoLeaves]⟩ 1
      ⟨twoRoot 111 222,freeHash [333,7],1,freeHash [333]⟩=.ok () := by decide +kernel
  have htree : (twoLeaves 111 222).length=2^1 := rfl
  have hslots : twoLeaves 111 222≠[] := by simp [twoLeaves]
  exact ⟨h,(non_revocation_sound freeHash freeHash_injective (le_refl 1) (by decide) htree rfl
    hslots).2 (.inr fun _ hleaf _ => hleaf) _ _ rfl rfl h⟩

/-- A revoked credential, proved not to be revoked with the other leaf as the only slot. -/
theorem revoked_credential_accepted :
    Merkle.top (nodeHash freeHash) 1 (twoLeaves 111 222) = some (twoRoot 111 222) ∧
    verifyNonRevocationAtDepth freeHash
      ⟨222,7,[freeHash [111]],[(0,freeHash [222])],by simp⟩ 1
      ⟨twoRoot 111 222,freeHash [222,7],1,freeHash [222]⟩ = .ok () ∧
    freeHash [222] ∈ twoLeaves 111 222 :=
  ⟨rfl,by decide +kernel,by simp [twoLeaves]⟩

end Harpocrates.Circuits.RevocationWitness
