import Mathlib.Data.Set.Function
import Mathlib.Tactic

namespace Framework

/-! Binary hash trees over any leaves and digests. A leaf and a node are hashed as different
inputs, so that what a digest can stand for depends on its input alone. -/

inductive Preimage (α D : Type)
  | leaf (a : α)
  | node (left right : D)

def Preimage.above {α D : Type} (index : Nat) (current sibling : D) : Preimage α D :=
  if index%2 = 0 then .node current sibling else .node sibling current

namespace Merkle

open List Nat

variable {α D : Type} (H : Preimage α D → D)

def climb : Nat → List D → D → D
  | _,[],current => current
  | i,sibling::rest,current => climb (i/2) rest (H (.above i current sibling))

/-- What is hashed on the way up. -/
def trail : Nat → List D → D → List (Preimage α D)
  | _,[],_ => []
  | i,sibling::rest,current =>
    .above i current sibling::trail (i/2) rest (H (.above i current sibling))

def pairs : List D → List (Preimage α D)
  | a::b::rest => .node a b::pairs rest
  | _ => []

def pairUp (level : List D) : List D := (pairs level).map H

/-- The levels of a tree, from the lowest up to the first with at most one digest. -/
def levelsFrom : Nat → List D → List (List D)
  | 0,level => [level]
  | n+1,level =>
    if level.length > 1 then level::levelsFrom n (pairUp H level) else [level]

/-- The neighbours along the way up from an index. -/
def path : List (List D) → Nat → Option (List D)
  | [],_ => some []
  | level::rest,i =>
    match level[i ^^^ 1]?,path rest (i/2) with
    | some sibling,some siblings => some (sibling::siblings)
    | _,_ => none

def top : Nat → List D → Option D
  | 0,level => level[0]?
  | d+1,level => top d (pairUp H level)

def nodes : Nat → List D → List (Preimage α D)
  | 0,_ => []
  | d+1,level => pairs level++nodes d (pairUp H level)

variable {d i n : Nat}

variable {c : D} {ss level : List D} {S : Set (Preimage α D)}

theorem above_inj {c' s s' : D} (h : (.above i c s : Preimage α D)=.above i c' s') :
    c=c' ∧ s=s' := by
  unfold Preimage.above at h
  split at h
  · cases h
    exact ⟨rfl,rfl⟩
  · cases h
    exact ⟨rfl,rfl⟩

theorem above_node (i : Nat) (c s : D) :
    ∃ l r, (.above i c s : Preimage α D)=.node l r := by
  unfold Preimage.above
  split
  · exact ⟨_,_,rfl⟩
  · exact ⟨_,_,rfl⟩

theorem climb_append (i : Nat) (ss ts : List D) (c : D) :
    climb H i (ss++ts) c=climb H (i/2^ss.length) ts (climb H i ss c) := by
  induction ss generalizing i c with
  | nil => simp [climb]
  | cons s ss ih =>
    rw [List.cons_append,climb,ih,climb,List.length_cons,Nat.pow_succ',Nat.div_div_eq_div_mul]

theorem trail_append (i : Nat) (ss ts : List D) (c : D) :
    trail H i (ss++ts) c =
      trail H i ss c++trail H (i/2^ss.length) ts (climb H i ss c) := by
  induction ss generalizing i c with
  | nil => simp [trail,climb]
  | cons s ss ih =>
    rw [List.cons_append,trail,ih,trail,climb,List.length_cons,Nat.pow_succ',
      Nat.div_div_eq_div_mul,List.cons_append]

theorem climb_node (h : ss≠[]) :
    ∃ l r, .node l r∈trail H i ss c ∧ climb H i ss c=H (.node l r) := by
  induction ss generalizing i c with
  | nil => exact absurd rfl h
  | cons s ss ih =>
    cases ss with
    | nil =>
      obtain ⟨l,r,habove⟩ := above_node (α := α) i c s
      exact ⟨l,r,by simp [trail,habove],by simp [climb,habove]⟩
    | cons t ts =>
      obtain ⟨l,r,hmem,heq⟩ := ih (i := i/2) (c := H (.above i c s)) (by simp)
      exact ⟨l,r,mem_cons_of_mem _ hmem,heq⟩

/-- Two ways of one length to the same digest are the same, unless two inputs collide. -/
theorem climb_inj (hS : Set.InjOn H S) {ts : List D} {c' : D} (hlen : ss.length=ts.length)
    (h : climb H i ss c=climb H i ts c') (hs : ∀ p∈trail H i ss c, p∈S)
    (ht : ∀ p∈trail H i ts c', p∈S) : c=c' ∧ ss=ts := by
  induction ss generalizing i ts c c' with
  | nil =>
    obtain rfl := length_eq_zero_iff.1 hlen.symm
    exact ⟨h,rfl⟩
  | cons s ss ih =>
    obtain ⟨t,ts,rfl⟩ := exists_cons_of_length_eq_add_one hlen.symm
    simp only [trail,forall_mem_cons] at hs ht
    obtain ⟨hdigest,rfl⟩ := ih (Nat.succ.inj hlen) h hs.2 ht.2
    obtain ⟨rfl,rfl⟩ := above_inj (hS hs.1 ht.1 hdigest)
    exact ⟨rfl,rfl⟩

theorem length_pairs (level : List D) :
    (pairs level : List (Preimage α D)).length=level.length/2 := by
  induction level using pairs.induct with
  | case1 a b rest ih =>
    rw [pairs,length_cons,ih,length_cons,length_cons]
    omega
  | case2 level h =>
    match level with
    | [] => simp [pairs]
    | [a] => simp [pairs]
    | a::b::rest => exact absurd rfl (h a b rest)

theorem getElem_pairs {a b : D} (ha : level[2*i]? = some a) (hb : level[2*i+1]? = some b) :
    (pairs level : List (Preimage α D))[i]? = some (.node a b) := by
  induction level using pairs.induct generalizing i with
  | case1 x y rest ih =>
    cases i with
    | zero => simp_all [pairs]
    | succ i =>
      rw [mul_succ] at ha hb
      exact ih ha hb
  | case2 level h =>
    match level with
    | [] => simp at ha
    | [x] => simp at hb
    | x::y::rest => exact absurd rfl (h x y rest)

theorem mem_pairs_node {p : Preimage α D} (h : p∈pairs level) : ∃ l r, p=.node l r := by
  induction level using pairs.induct with
  | case1 a b rest ih =>
    rcases mem_cons.1 h with rfl | h
    · exact ⟨a,b,rfl⟩
    · exact ih h
  | case2 level hne =>
    match level with
    | [] => cases h
    | [a] => cases h
    | a::b::rest => exact absurd rfl (hne a b rest)

theorem length_pairUp (h : level.length=2^(d+1)) : (pairUp H level).length=2^d := by
  rw [pairUp,List.length_map,length_pairs,h,Nat.pow_succ,Nat.mul_div_cancel _ (by decide)]

theorem xor_one (i : Nat) : i ^^^ 1=if i%2=0 then i+1 else i-1 := by
  have hdiv : (i ^^^ 1)/2=i/2 := by simp [xor_div_two]
  have hmod : (i ^^^ 1)%2=(i+1)%2 := by
    have := xor_mod_two_eq_one (a := i) (b := 1)
    omega
  split <;> omega

/-- A digest of a full level has a neighbour, and the digest above is theirs. -/
theorem neighbour (hlen : level.length=2^(d+1)) (hi : i<2^(d+1)) :
    ∃ c s, level[i]? = some c ∧ level[i ^^^ 1]? = some s ∧
      (pairs level : List (Preimage α D))[i/2]? = some (.above i c s) := by
  have hpow : 2^(d+1)=2*2^d := pow_succ'
  have hleft : 2*(i/2)<level.length := by omega
  have hright : 2*(i/2)+1<level.length := by omega
  have hpair := getElem_pairs (α := α) (List.getElem?_eq_getElem hleft)
    (List.getElem?_eq_getElem hright)
  rw [xor_one]
  by_cases heven : i%2=0
  · have hi' : i=2*(i/2) := by omega
    refine ⟨level[2*(i/2)],level[2*(i/2)+1],?_,?_,?_⟩
    · rw [← List.getElem?_eq_getElem hleft,← hi']
    · rw [if_pos heven,← List.getElem?_eq_getElem hright,← hi']
    · rw [hpair,Preimage.above,if_pos heven]
  · have hi' : i=2*(i/2)+1 := by omega
    refine ⟨level[2*(i/2)+1],level[2*(i/2)],?_,?_,?_⟩
    · rw [← List.getElem?_eq_getElem hright,← hi']
    · rw [if_neg heven,← List.getElem?_eq_getElem hleft]
      congr 1
      omega
    · rw [hpair,Preimage.above,if_neg heven]

theorem levelsFrom_ne_nil (n : Nat) (level : List D) : levelsFrom H n level≠[] := by
  cases n with
  | zero => simp [levelsFrom]
  | succ n =>
    rw [levelsFrom]
    split <;> simp

theorem levelsFrom_succ (hlen : level.length=2^(d+1)) (hn : d+1≤n) :
    ∃ m, d ≤ m ∧ levelsFrom H n level=level::levelsFrom H m (pairUp H level) := by
  obtain ⟨m,rfl⟩ : ∃ m, n=m+1 := ⟨n-1,by omega⟩
  have hmany : level.length > 1 := by
    rw [hlen]
    exact Nat.one_lt_two_pow (Nat.succ_ne_zero d)
  exact ⟨m,by omega,by rw [levelsFrom,if_pos hmany]⟩

theorem levelsFrom_one (hlen : level.length=1) : levelsFrom H n level=[level] := by
  cases n with
  | zero => rfl
  | succ n => simp [levelsFrom,hlen]

theorem top_eq (hlen : level.length=2^d) (hn : d≤n) :
    ((levelsFrom H n level).getLast?.bind fun last => last[0]?)=top H d level := by
  induction d generalizing n level with
  | zero => simp [levelsFrom_one H hlen,top]
  | succ d ih =>
    obtain ⟨m,hm,hlevels⟩ := levelsFrom_succ H hlen hn
    rw [hlevels,List.getLast?_cons_of_ne_nil (levelsFrom_ne_nil H m _),top,
      ih (length_pairUp H hlen) hm]

/-- The neighbours of a digest of a full level lead up to the top. -/
theorem path_climbs (hlen : level.length=2^d) (hn : d≤n) (hc : level[i]? = some c) :
    ∃ ss, path (levelsFrom H n level).dropLast i=some ss ∧ ss.length=d ∧
      top H d level=some (climb H i ss c) := by
  induction d generalizing n level i c with
  | zero =>
    refine ⟨[],by simp [levelsFrom_one H hlen,path],rfl,?_⟩
    obtain ⟨hi,-⟩ := List.getElem?_eq_some_iff.1 hc
    obtain rfl : i=0 := by omega
    exact hc
  | succ d ih =>
    obtain ⟨m,hm,hlevels⟩ := levelsFrom_succ H hlen hn
    obtain ⟨hi,-⟩ := List.getElem?_eq_some_iff.1 hc
    obtain ⟨c',s,hc',hs,hpair⟩ := neighbour (α := α) hlen (hlen ▸ hi)
    obtain rfl := Option.some.inj (hc'.symm.trans hc)
    have habove : (pairUp H level)[i/2]? = some (H (.above i c' s)) := by
      rw [pairUp,List.getElem?_map,hpair]
      rfl
    obtain ⟨ss,hpath,hsslen,htop⟩ := ih (length_pairUp H hlen) hm habove
    refine ⟨s::ss,?_,by rw [length_cons,hsslen],htop⟩
    rw [hlevels,dropLast_cons_of_ne_nil (levelsFrom_ne_nil H m _),path,hs,hpath]

/-- A way up as long as the tree is high that leads to the top starts at the digest of its index
and takes the neighbours, unless two inputs collide. -/
theorem climb_path (hS : Set.InjOn H S) (hlen : level.length=2^d) (hn : d≤n) (hi : i<2^d)
    (hss : ss.length=d) (htop : top H d level=some (climb H i ss c))
    (hnodes : ∀ p∈nodes H d level, p∈S) (htrail : ∀ p∈trail H i ss c, p∈S) :
    level[i]? = some c ∧ path (levelsFrom H n level).dropLast i=some ss := by
  induction d generalizing n level i ss c with
  | zero =>
    obtain rfl := length_eq_zero_iff.1 hss
    obtain rfl : i=0 := by omega
    exact ⟨htop,by simp [levelsFrom_one H hlen,path]⟩
  | succ d ih =>
    obtain ⟨t,ts,rfl⟩ := exists_cons_of_length_eq_add_one hss
    obtain ⟨m,hm,hlevels⟩ := levelsFrom_succ H hlen hn
    obtain ⟨c',s,hc',hs,hpair⟩ := neighbour (α := α) hlen hi
    simp only [trail,forall_mem_cons] at htrail
    simp only [nodes,forall_mem_append] at hnodes
    have hhalf : i/2<2^d := by
      rw [pow_succ'] at hi
      omega
    obtain ⟨habove,hpath⟩ := ih (length_pairUp H hlen) hm hhalf (Nat.succ.inj hss) htop hnodes.2
      htrail.2
    rw [pairUp,List.getElem?_map,hpair] at habove
    have hsame := hS (hnodes.1 _ (mem_of_getElem? hpair)) htrail.1 (Option.some.inj habove)
    obtain ⟨rfl,rfl⟩ := above_inj hsame
    refine ⟨hc',?_⟩
    rw [hlevels,dropLast_cons_of_ne_nil (levelsFrom_ne_nil H m _),path,hs,hpath]

theorem pairs_inj {level' : List D} (hlen : level.length=2*n) (hlen' : level'.length=2*n)
    (h : (pairs level : List (Preimage α D))=pairs level') : level=level' := by
  induction n generalizing level level' with
  | zero => rw [length_eq_zero_iff.1 hlen,length_eq_zero_iff.1 hlen']
  | succ n ih =>
    match level,level' with
    | a::b::rest,a'::b'::rest' =>
      simp only [length_cons] at hlen hlen'
      obtain ⟨hnode,hrest⟩ := List.cons.inj h
      cases hnode
      rw [ih (by omega) (by omega) hrest]

/-- Full levels with one top are the same, if no inputs collide at all. -/
theorem top_inj (hH : Function.Injective H) {level' : List D} (hlen : level.length=2^d)
    (hlen' : level'.length=2^d) (h : top H d level=top H d level') : level=level' := by
  induction d generalizing level level' with
  | zero =>
    obtain ⟨a,rfl⟩ := length_eq_one_iff.1 hlen
    obtain ⟨b,rfl⟩ := length_eq_one_iff.1 hlen'
    exact congrArg (fun x => [x]) (Option.some.inj h)
  | succ d ih =>
    have hup := ih (length_pairUp H hlen) (length_pairUp H hlen') h
    rw [pow_succ'] at hlen hlen'
    exact pairs_inj hlen hlen' (map_injective_iff.2 hH hup)

/-- A way up that is too short for the tree starts at the digest of a node. -/
theorem short_climb (hS : Set.InjOn H S) (hlen : level.length=2^d) (hi : i<2^ss.length)
    (hss : ss.length<d) (htop : top H d level=some (climb H i ss c))
    (hnodes : ∀ p∈nodes H d level, p∈S) (htrail : ∀ p∈trail H i ss c, p∈S) :
    ∃ l r, .node l r∈nodes H d level ∧ c=H (.node l r) := by
  induction d generalizing level with
  | zero => omega
  | succ d ih =>
    have hup := length_pairUp H hlen
    simp only [nodes,forall_mem_append] at hnodes
    rcases lt_or_ge ss.length d with hless | hge
    · obtain ⟨l,r,hmem,hc⟩ := ih hup hless htop hnodes.2
      exact ⟨l,r,mem_append_right _ hmem,hc⟩
    · have hd : ss.length=d := by omega
      obtain ⟨hc,-⟩ := climb_path H hS hup (le_refl d) (hd ▸ hi) hd htop hnodes.2 htrail
      rw [pairUp,List.getElem?_map,Option.map_eq_some_iff] at hc
      obtain ⟨p,hp,hc⟩ := hc
      have hmem := mem_of_getElem? hp
      obtain ⟨l,r,rfl⟩ := mem_pairs_node hmem
      exact ⟨l,r,mem_append_left _ hmem,hc.symm⟩

/-- A way up that is too long for the tree passes the digest of a node where the tree has the
lowest level. -/
theorem long_climb (hS : Set.InjOn H S) (hlen : level.length=2^d) (hi : i<2^ss.length)
    (hss : d<ss.length) (htop : top H d level=some (climb H i ss c))
    (hnodes : ∀ p∈nodes H d level, p∈S) (htrail : ∀ p∈trail H i ss c, p∈S) :
    ∃ l r, .node l r∈trail H i ss c ∧ H (.node l r)∈level := by
  obtain ⟨low,high,rfl,hlow⟩ : ∃ low high, ss=low++high ∧ low.length=ss.length-d :=
    ⟨ss.take (ss.length-d),ss.drop (ss.length-d),(take_append_drop _ _).symm,by simp⟩
  rw [length_append] at hi hss hlow
  have hhigh : high.length=d := by omega
  rw [climb_append] at htop
  rw [trail_append,forall_mem_append] at htrail
  have hindex : i/2^low.length<2^d := by
    rw [div_lt_iff_lt_mul (by positivity),← pow_add,← hhigh,add_comm]
    exact hi
  obtain ⟨hc,-⟩ := climb_path H hS hlen (le_refl d) hindex hhigh htop hnodes htrail.2
  have hsome : low≠[] := by
    intro hnil
    subst hnil
    simp only [length_nil] at hlow hss
    omega
  obtain ⟨l,r,hmem,heq⟩ := climb_node H (i := i) (c := c) hsome
  refine ⟨l,r,?_,heq ▸ mem_of_getElem? hc⟩
  rw [trail_append]
  exact mem_append_left _ hmem

/-- The inputs of a tree of leaves that is `d` levels high. -/
def inputs (d : Nat) (leaves : List α) : List (Preimage α D) :=
  leaves.map .leaf++nodes H d (leaves.map fun a => H (.leaf a))

/-- Whatever way from a leaf up to the top of a tree is the tree's own, unless two inputs
collide. -/
theorem opening_unique (hS : Set.InjOn H S) {leaves : List α} {a : α} (hlen : leaves.length=2^d)
    (hn : d≤n) (hi : i<2^ss.length)
    (htop : top H d (leaves.map fun a => H (.leaf a))=some (climb H i ss (H (.leaf a))))
    (hinputs : ∀ p∈inputs H d leaves, p∈S)
    (hopening : ∀ p∈.leaf a::trail H i ss (H (.leaf a)), p∈S) : leaves[i]? = some a ∧
      path (levelsFrom H n (leaves.map fun a => H (.leaf a))).dropLast i=some ss := by
  rw [inputs,forall_mem_append] at hinputs
  rw [forall_mem_cons] at hopening
  have hlevel : (leaves.map fun a => H (.leaf a)).length=2^d := by rw [length_map,hlen]
  rcases lt_trichotomy ss.length d with hless | heq | hmore
  · obtain ⟨l,r,hmem,hc⟩ := short_climb H hS hlevel hi hless htop hinputs.2 hopening.2
    cases hS hopening.1 (hinputs.2 _ hmem) hc
  · obtain ⟨hc,hpath⟩ := climb_path H hS hlevel hn (heq ▸ hi) heq htop hinputs.2 hopening.2
    rw [List.getElem?_map,Option.map_eq_some_iff] at hc
    obtain ⟨b,hb,hdigest⟩ := hc
    have hleaf := hinputs.1 (.leaf b) (mem_map_of_mem (mem_of_getElem? hb))
    obtain rfl := Preimage.leaf.inj (hS hleaf hopening.1 hdigest)
    exact ⟨hb,hpath⟩
  · obtain ⟨l,r,hmem,hlowest⟩ := long_climb H hS hlevel hi hmore htop hinputs.2 hopening.2
    obtain ⟨b,hb,hdigest⟩ := mem_map.1 hlowest
    have hleaf := hinputs.1 (.leaf b) (mem_map_of_mem hb)
    cases hS hleaf (hopening.2 _ hmem) hdigest

end Merkle

end Framework
