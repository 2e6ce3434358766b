import Mathlib.Data.List.Perm.Subperm
import Mathlib.Logic.Relation
import Harpocrates.Framework.Python
import Mathlib.Tactic.IntervalCases

namespace Harpocrates.Clients.Lineage

open Framework Relation List Option

abbrev Digest := List Char

inductive ProofStatus
  | valid | revoked | expired | disputed | missing
  deriving DecidableEq

structure LineageRecord where
  parentProofIds : List Digest
  operationType : String

/-- What the registry answers. A query for a status that throws gives none. -/
structure LineageFetcher where
  getLineage : Digest → Except String (Option LineageRecord)
  getProofStatus : Digest → Option ProofStatus

/-- Bounds on the walk; without one it is not bounded. -/
structure Options where
  maxDepth : Option Int := some 4
  maxFanout : Option Int := some 4

inductive NodeType
  | derivative | original

inductive LineageNode
  | mk (digest : Digest) (type : NodeType) (status : Option ProofStatus)
    (operationType : Option String) (depth : Nat) (parents : List LineageNode)
    (error : Option String)

/-- What is counted during the walk. -/
structure Tally where
  revokedCount : Nat := 0
  expiredCount : Nat := 0
  disputedCount : Nat := 0
  missingCount : Nat := 0
  cycleDetected : Bool := false

def Tally.count (tally : Tally) : ProofStatus → Tally
  | .valid => tally
  | .revoked => { tally with revokedCount := tally.revokedCount+1 }
  | .expired => { tally with expiredCount := tally.expiredCount+1 }
  | .disputed => { tally with disputedCount := tally.disputedCount+1 }
  | .missing => { tally with missingCount := tally.missingCount+1 }

def exceeds (n : Nat) (bound : Option Int) : Bool := bound.any fun b => b < (n : Int)

def showBound (bound : Option Int) : String := (bound.map toString).getD "Infinity"

def errorNode (digest : Digest) (depth : Nat) (error : String)
    (operationType : Option String := none) : LineageNode :=
  .mk digest .derivative none operationType depth [] (some error)

/-- The parents one after the other, each counted on top of the ones before. -/
def walkParents (walk : Digest → Tally → Option (LineageNode × Tally)) :
    List Digest → Tally → Option (List LineageNode × Tally)
  | [],tally => some ([],tally)
  | parent::parents,tally =>
    match walk parent tally with
    | none => none
    | some (node,tally) => (walkParents walk parents tally).map fun r => (node::r.1,r.2)

variable (fetcher : LineageFetcher) (options : Options)

def walk : Nat → Digest → Nat → List Digest → Tally → Option (LineageNode × Tally)
  | 0,_,_,_,_ => none
  | fuel+1,currentDigest,currentDepth,ancestorPath,tally =>
    let digest := Python.lower currentDigest
    if digest ∈ ancestorPath then
      some (errorNode digest currentDepth "cycle detected",{ tally with cycleDetected := true })
    else if exceeds currentDepth options.maxDepth then
      some (errorNode digest currentDepth
        ("depth bound exceeded (> "++showBound options.maxDepth++")"),tally)
    else
      match fetcher.getLineage digest with
      | .error message =>
        some (errorNode digest currentDepth ("failed to query lineage: "++message),tally)
      | .ok none =>
        let status := (fetcher.getProofStatus digest).getD .missing
        some (.mk digest .original (some status) none currentDepth [] none,tally.count status)
      | .ok (some lineage) =>
        let parents := lineage.parentProofIds
        if exceeds parents.length options.maxFanout then
          some (errorNode digest currentDepth ("fan-out bound exceeded ("++
            toString parents.length++" > "++showBound options.maxFanout++")")
            (some lineage.operationType),tally)
        else
          (walkParents
            (fun parent => walk fuel parent (currentDepth+1) (digest::ancestorPath)) parents
            tally).map fun r =>
              (.mk digest .derivative none (some lineage.operationType) currentDepth r.1 none,r.2)

mutual

def hasError : LineageNode → Bool
  | .mk _ _ status _ _ parents error =>
    error.isSome || status.any (· ≠ .valid) || anyError parents

def anyError : List LineageNode → Bool
  | [] => false
  | node::nodes => hasError node || anyError nodes

end

structure LineageTreeResult where
  root : LineageNode
  success : Bool
  failureReason : Option String
  tally : Tally

def Tally.clear (tally : Tally) : Bool :=
  !tally.cycleDetected && tally.revokedCount = 0 && tally.expiredCount = 0 &&
    tally.disputedCount = 0 && tally.missingCount = 0

def reasons (tally : Tally) (failed : Bool) : List String :=
  let counted := (if tally.cycleDetected then ["cycle detected in lineage graph"] else [])++
    (if 0 < tally.revokedCount then [toString tally.revokedCount++" ancestor(s) revoked"] else [])++
    (if 0 < tally.expiredCount then [toString tally.expiredCount++" ancestor(s) expired"] else [])++
    (if 0 < tally.disputedCount then [toString tally.disputedCount++" ancestor(s) disputed"]
      else [])++
    (if 0 < tally.missingCount then
      [toString tally.missingCount++" ancestor(s) missing or unregistered"] else [])
  if failed && counted.isEmpty then ["lineage tree contains errors or bound violations"]
  else counted

def treeResult (root : LineageNode) (tally : Tally) : LineageTreeResult where
  root := root
  success := !hasError root && tally.clear
  failureReason :=
    if !hasError root && tally.clear then none
    else some ("; ".intercalate (reasons tally (hasError root)))
  tally := tally

def verifyLineageTree (fuel : Nat) (outputDigest : Digest) : Option LineageTreeResult :=
  (walk fetcher options fuel (Python.lower outputDigest) 0 [] {}).map fun r =>
    treeResult r.1 r.2

def IsDerivative (digest : Digest) : Prop :=
  ∃ lineage, fetcher.getLineage digest = .ok (some lineage)

def Parent (digest parent : Digest) : Prop :=
  ∃ lineage, fetcher.getLineage digest = .ok (some lineage) ∧
    ∃ p ∈ lineage.parentProofIds, parent = Python.lower p

def statusOf (digest : Digest) : ProofStatus := (fetcher.getProofStatus digest).getD .missing

def Bad (status : ProofStatus) : Prop := status = .revoked ∨ status = .expired ∨ status = .disputed

/-- What success is to mean for a root. -/
structure Sound (root : Digest) : Prop where
  standing : ∀ d, ReflTransGen (Parent fetcher) root d → ¬ Bad (statusOf fetcher d)
  ends : ∀ d, ReflTransGen (Parent fetcher) root d → (∀ p, ¬ Parent fetcher d p) →
    fetcher.getLineage d = .ok none ∧ statusOf fetcher d = .valid
  acyclic : ∀ d, ReflTransGen (Parent fetcher) root d → ¬ TransGen (Parent fetcher) d d

def DerivativesStand (root : Digest) : Prop :=
  ∀ d, ReflTransGen (Parent fetcher) root d → IsDerivative fetcher d →
    ¬ Bad (statusOf fetcher d) ∧ ∃ p, Parent fetcher d p

def Finite (known : List Digest) : Prop :=
  ∀ digest lineage, fetcher.getLineage digest = .ok (some lineage) → digest ∈ known

inductive Explored : List Digest → Digest → Prop
  | original {path : List Digest} {d : Digest} : d ∉ path → fetcher.getLineage d = .ok none →
      statusOf fetcher d = .valid → Explored path d
  | derivative {path : List Digest} {d : Digest} {lineage : LineageRecord} : d ∉ path →
      fetcher.getLineage d = .ok (some lineage) →
      (∀ p ∈ lineage.parentProofIds, Explored (d::path) (Python.lower p)) → Explored path d

variable {fetcher options} {fuel depth : Nat} {d root : Digest} {path known : List Digest}
  {tally tally' : Tally} {node : LineageNode}

theorem errorNode_hasError {error : String} {operationType : Option String} :
    hasError (errorNode d depth error operationType)=true := by
  simp [errorNode,hasError]

variable {parents : List Digest}

theorem walkParents_each {walk : Digest → Tally → Option (LineageNode × Tally)}
    {nodes : List LineageNode} (h : walkParents walk parents tally=some (nodes,tally'))
    (hclean : anyError nodes=false) :
    ∀ p∈parents, ∃ before node after, walk p before=some (node,after) ∧
      hasError node=false := by
  induction parents generalizing tally nodes with
  | nil => simp
  | cons parent parents ih =>
    rw [walkParents] at h
    cases hwalk : walk parent tally with
    | none => simp only [hwalk] at h; cases h
    | some r =>
      obtain ⟨first,between⟩ := r
      simp only [hwalk] at h
      obtain ⟨⟨rest,after⟩,hrest,heq⟩ := map_eq_some_iff.1 h
      cases heq
      simp only [anyError,Bool.or_eq_false_iff] at hclean
      intro p hp
      rcases mem_cons.1 hp with rfl | hp
      · exact ⟨tally,first,between,hwalk,hclean.1⟩
      · exact ih hrest hclean.2 p hp

theorem explored_of_walk (h : walk fetcher options fuel d depth path tally=some (node,tally'))
    (hclean : hasError node=false) : Explored fetcher path (Python.lower d) := by
  induction fuel generalizing d depth path tally node tally' with
  | zero => cases h
  | succ fuel ih =>
    rw [walk] at h
    simp only at h
    split at h
    · cases h
      rw [errorNode_hasError] at hclean
      cases hclean
    rename_i hpath
    split at h
    · cases h
      rw [errorNode_hasError] at hclean
      cases hclean
    split at h
    · cases h
      rw [errorNode_hasError] at hclean
      cases hclean
    · rename_i hlineage
      cases h
      refine .original hpath hlineage ?_
      simpa [hasError,anyError,statusOf] using hclean
    · rename_i lineage hlineage
      split at h
      · cases h
        rw [errorNode_hasError] at hclean
        cases hclean
      · obtain ⟨⟨nodes,after⟩,hparents,heq⟩ := map_eq_some_iff.1 h
        cases heq
        have hnodes : anyError nodes=false := by simpa [hasError] using hclean
        refine .derivative hpath hlineage fun p hp => ?_
        obtain ⟨before,node,after,hwalk,hnode⟩ := walkParents_each hparents hnodes p hp
        exact ih hwalk hnode

theorem Explored.notMem (h : Explored fetcher path d) : d∉path := by
  cases h with
  | original hpath _ _ => exact hpath
  | derivative hpath _ _ => exact hpath

theorem Explored.parent {p : Digest} (h : Explored fetcher path d) (hp : Parent fetcher d p) :
    Explored fetcher (d::path) p := by
  obtain ⟨lineage,hlineage,q,hq,rfl⟩ := hp
  cases h with
  | original _ hnone _ =>
    rw [hnone] at hlineage
    cases hlineage
  | derivative _ hsome hparents =>
    rw [hsome] at hlineage
    cases Except.ok.inj hlineage
    exact hparents q hq

theorem Explored.reach {x : Digest} (h : Explored fetcher path d)
    (hreach : ReflTransGen (Parent fetcher) d x) :
    ∃ path', path ⊆ path' ∧ Explored fetcher path' x := by
  induction hreach with
  | refl => exact ⟨path,fun _ hy => hy,h⟩
  | tail _ hp ih =>
    obtain ⟨path',hsub,hexplored⟩ := ih
    exact ⟨_,fun y hy => mem_cons_of_mem _ (hsub hy),hexplored.parent hp⟩

theorem Explored.acyclic (h : Explored fetcher path d) : ¬ TransGen (Parent fetcher) d d := by
  intro hcycle
  obtain ⟨p,hp,hback⟩ := TransGen.head'_iff.1 hcycle
  obtain ⟨path',hsub,hexplored⟩ := (h.parent hp).reach hback
  exact hexplored.notMem (hsub mem_cons_self)

theorem Explored.cases_status (h : Explored fetcher path d) :
    IsDerivative fetcher d ∨ fetcher.getLineage d=.ok none ∧ statusOf fetcher d=.valid := by
  cases h with
  | original _ hnone hstatus => exact .inr ⟨hnone,hstatus⟩
  | derivative _ hsome _ => exact .inl ⟨_,hsome⟩

/-- Of a root that was explored, only what holds of its derivatives is still open. -/
theorem Explored.sound_iff (h : Explored fetcher [] root) :
    Sound fetcher root ↔ DerivativesStand fetcher root := by
  constructor
  · intro hsound d hreach hderivative
    refine ⟨hsound.standing d hreach,?_⟩
    by_contra hnone
    obtain ⟨lineage,hlineage⟩ := hderivative
    have hend := hsound.ends d hreach fun p hp => hnone ⟨p,hp⟩
    rw [hlineage] at hend
    cases hend.1
  · intro hstand
    refine ⟨fun d hreach => ?_,fun d hreach hend => ?_,fun d hreach => ?_⟩
    · obtain ⟨_,_,hexplored⟩ := h.reach hreach
      rcases hexplored.cases_status with hderivative | ⟨_,hvalid⟩
      · exact (hstand d hreach hderivative).1
      · rw [hvalid]
        rintro (hbad | hbad | hbad)
        all_goals cases hbad
    · obtain ⟨_,_,hexplored⟩ := h.reach hreach
      rcases hexplored.cases_status with hderivative | horiginal
      · obtain ⟨p,hp⟩ := (hstand d hreach hderivative).2
        exact absurd hp (hend p)
      · exact horiginal
    · obtain ⟨_,_,hexplored⟩ := h.reach hreach
      exact hexplored.acyclic

theorem walkParents_some {walk : Digest → Tally → Option (LineageNode × Tally)}
    (h : ∀ p tally, (walk p tally).isSome) (parents : List Digest) (tally : Tally) :
    (walkParents walk parents tally).isSome := by
  induction parents generalizing tally with
  | nil => rfl
  | cons parent parents ih =>
    rw [walkParents]
    obtain ⟨⟨node,after⟩,hwalk⟩ := isSome_iff_exists.1 (h parent tally)
    simp only [hwalk,isSome_map]
    exact ih after

theorem walk_some (hfinite : Finite fetcher known) (hnodup : path.Nodup) (hsub : path ⊆ known)
    (hfuel : known.length<fuel+path.length) :
    (walk fetcher options fuel d depth path tally).isSome := by
  induction fuel generalizing d depth path tally with
  | zero =>
    have hlength := (subperm_of_subset hnodup hsub).length_le
    omega
  | succ fuel ih =>
    rw [walk]
    simp only
    split
    · rfl
    rename_i hpath
    split
    · rfl
    split
    · rfl
    · rfl
    · rename_i lineage hlineage
      split
      · rfl
      · rw [isSome_map]
        apply walkParents_some
        intro p tally
        apply ih (nodup_cons.2 ⟨hpath,hnodup⟩)
        · exact cons_subset.2 ⟨hfinite _ _ hlineage,hsub⟩
        · rw [length_cons]
          omega

theorem walkParents_mono {walk walk' : Digest → Tally → Option (LineageNode × Tally)}
    (h : ∀ p tally r, walk p tally=some r → walk' p tally=some r)
    {r : List LineageNode × Tally} (hr : walkParents walk parents tally=some r) :
    walkParents walk' parents tally=some r := by
  induction parents generalizing tally r with
  | nil => exact hr
  | cons parent parents ih =>
    rw [walkParents] at hr ⊢
    cases hwalk : walk parent tally with
    | none => simp only [hwalk] at hr; cases hr
    | some s =>
      simp only [hwalk] at hr
      simp only [h parent tally s hwalk]
      obtain ⟨rest,hrest,rfl⟩ := map_eq_some_iff.1 hr
      rw [ih hrest]
      rfl

theorem walk_succ {r : LineageNode × Tally}
    (h : walk fetcher options fuel d depth path tally=some r) :
    walk fetcher options (fuel+1) d depth path tally=some r := by
  induction fuel generalizing d depth path tally r with
  | zero => cases h
  | succ fuel ih =>
    rw [walk] at h ⊢
    simp only at h ⊢
    split
    · rename_i hpath
      rwa [if_pos hpath] at h
    rename_i hpath
    rw [if_neg hpath] at h
    split
    · rename_i hdepth
      rwa [if_pos hdepth] at h
    rename_i hdepth
    rw [if_neg hdepth] at h
    cases hlineage : fetcher.getLineage (Python.lower d) with
    | error message => simpa only [hlineage] using h
    | ok found =>
      cases found with
      | none => simpa only [hlineage] using h
      | some lineage =>
        simp only [hlineage] at h ⊢
        split
        · rename_i hfanout
          rwa [if_pos hfanout] at h
        · rename_i hfanout
          rw [if_neg hfanout] at h
          obtain ⟨nodes,hnodes,rfl⟩ := map_eq_some_iff.1 h
          rw [walkParents_mono (fun p tally r hr => ih hr) hnodes]
          rfl

theorem walk_le {fuel' : Nat} {r : LineageNode × Tally} (hle : fuel≤fuel')
    (h : walk fetcher options fuel d depth path tally=some r) :
    walk fetcher options fuel' d depth path tally=some r := by
  induction hle with
  | refl => exact h
  | step _ ih => exact walk_succ ih

theorem lowerChar_range {c : Char} (h : 65≤c.toNat ∧ c.toNat≤90) :
    Python.lowerChar (Python.lowerChar c)=Python.lowerChar c := by
  obtain ⟨hlow,hhigh⟩ := h
  have hc : c=Char.ofNat c.toNat := (Char.ofNat_toNat c).symm
  generalize c.toNat=n at hc hlow hhigh
  subst hc
  interval_cases n
  all_goals decide

theorem lower_lower (d : Digest) : Python.lower (Python.lower d)=Python.lower d := by
  have hchar (c : Char) : Python.lowerChar (Python.lowerChar c)=Python.lowerChar c := by
    by_cases hrange : 65≤c.toNat ∧ c.toNat≤90
    · exact lowerChar_range hrange
    · by_cases hkelvin : c.toNat=0x212A
      · rw [Python.lowerChar.eq_1 c,if_pos hkelvin]
        decide
      · have hsame : Python.lowerChar c=c := by
          rw [Python.lowerChar,if_neg hkelvin]
          exact dif_neg hrange
        rw [hsame,hsame]
  simp only [Python.lower,List.map_map,Function.comp_def,hchar]

/-- On a finite lineage graph the verification ends, with one result however much fuel there is.
Where it reports success, that is sound exactly if the derivatives stand; that the originals are
valid and nothing is its own ancestor then holds in any case. -/
theorem lineage_success_sound_iff (fetcher : LineageFetcher) (options : Options)
    (known : List Digest) (hfinite : Finite fetcher known) (outputDigest : Digest) :
    ∃ result, (∀ fuel > known.length,
        verifyLineageTree fetcher options fuel outputDigest = some result) ∧
      (result.success →
        (Sound fetcher (Python.lower outputDigest) ↔
          DerivativesStand fetcher (Python.lower outputDigest))) := by
  have hsome :
      (walk fetcher options (known.length+1) (Python.lower outputDigest) 0 [] {}).isSome :=
    walk_some hfinite nodup_nil (nil_subset _) (by simp)
  obtain ⟨⟨node,tally⟩,hwalk⟩ := isSome_iff_exists.1 hsome
  refine ⟨treeResult node tally,fun fuel hfuel => ?_,fun hsuccess => ?_⟩
  · rw [verifyLineageTree,walk_le hfuel hwalk,map_some]
  · have hclean : hasError node=false := by
      simp only [treeResult,Bool.and_eq_true,Bool.not_eq_true'] at hsuccess
      exact hsuccess.1
    have hexplored := explored_of_walk hwalk hclean
    rw [lower_lower] at hexplored
    exact hexplored.sound_iff

/-- One derivative, with the given parents and status; every other digest is an original and
valid. -/
def oneDerivative (parents : List Digest) (status : ProofStatus) : LineageFetcher where
  getLineage digest :=
    .ok (if digest = ['d'] then some ⟨parents,"redact"⟩ else none)
  getProofStatus digest := some (if digest = ['d'] then status else .valid)

theorem oneDerivative_iff {status : ProofStatus} {digest : Digest} :
    IsDerivative (oneDerivative parents status) digest ↔ digest=['d'] := by
  unfold IsDerivative oneDerivative
  by_cases h : digest=['d']
  · simp [h]
  · simp [h]

theorem redacted_copy_sound :
    ((verifyLineageTree (oneDerivative [['o']] .valid) {} 2 ['d']).map (·.success)) = some true ∧
      Sound (oneDerivative [['o']] .valid) ['d'] := by
  have hfinite : Finite (oneDerivative [['o']] .valid) [['d']] := by
    intro digest lineage hlineage
    rw [oneDerivative_iff.1 ⟨lineage,hlineage⟩]
    exact mem_cons_self
  have hsuccess : (verifyLineageTree (oneDerivative [['o']] .valid) {} 2 ['d']).map (·.success) =
      some true := by decide
  obtain ⟨result,hverify,hsound⟩ :=
    lineage_success_sound_iff (oneDerivative [['o']] .valid) {} [['d']] hfinite ['d']
  refine ⟨hsuccess,(hsound ?_).2 ?_⟩
  · rw [hverify 2 (by decide)] at hsuccess
    exact Option.some.inj hsuccess
  · intro digest _ hderivative
    obtain rfl := oneDerivative_iff.1 hderivative
    refine ⟨?_,['o'],⟨[['o']],"redact"⟩,rfl,['o'],mem_cons_self,by decide⟩
    rintro (hbad | hbad | hbad)
    all_goals revert hbad; decide

/-- A root that is revoked, and one that has a lineage record without parents, are reported as
successes. -/
theorem revoked_derivative_passes :
    (verifyLineageTree (oneDerivative [['o']] .revoked) {} 2 ['d']).map (·.success) = some true ∧
      statusOf (oneDerivative [['o']] .revoked) ['d'] = .revoked ∧
      (verifyLineageTree (oneDerivative [] .valid) {} 2 ['d']).map (·.success) = some true ∧
      IsDerivative (oneDerivative [] .valid) ['d'] := by
  refine ⟨by decide,by decide,by decide,oneDerivative_iff.2 rfl⟩

end Harpocrates.Clients.Lineage
