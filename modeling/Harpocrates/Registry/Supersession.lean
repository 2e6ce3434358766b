import Harpocrates.Registry.System

namespace Harpocrates.Registry

open Framework Function

/-- The values under the dispute keys: records of disputes and, under the hashes of proof ids,
the entries of the reverse index. -/
def disputeTable (s : Storage) : Bytes32 → Option DisputeValue := fun d => s (.Dispute d)

theorem disputeTable_set (s : Storage) (d : Bytes32) (v : DisputeValue) :
    disputeTable (Store.set s (.Dispute d) v)=update (disputeTable s) d (some v) := by
  funext d'
  by_cases hd : d'=d
  · subst hd
    simp [disputeTable]
  · have hk : DataKey.Dispute d'≠.Dispute d := by simpa using hd
    simp [disputeTable,hk,hd]

theorem disputeTable_set_other (s : Storage) {k : DataKey} (v : k.Val)
    (hk : k.family≠.Dispute) : disputeTable (Store.set s k v)=disputeTable s := by
  funext d
  refine Store.set_of_ne _ _ ?_
  intro heq
  subst heq
  exact hk rfl

variable {s s' : Storage} {d p y : Bytes32} {r x : DisputeRecord} {host : Host}
  {e : Event World Label} {t : Bytes32 → Option DisputeValue}

theorem disputeTable_writes {α : Type} {m : M α} {fs : List Family} {a : α}
    (hm : Tx.Writes (In fs) m) (hf : Family.Dispute∉fs) (h : m s=.ok (a,s')) :
    disputeTable s'=disputeTable s :=
  funext fun _ => hm s a s' h _ hf

def Opens (host : Host) (e : Event World Label) (d : Bytes32) : Prop :=
  ∃ reporter reporterHash proofId reason commitmentHash,
    Succeeds host e (.openDispute reporter reporterHash d proofId reason commitmentHash)

/-- What a step can do to the table. -/
inductive DisputeStep (host : Host) (e : Event World Label) : Prop
  | keep (post : disputeTable e.post.store = disputeTable e.pre.store)
  | new (d : Bytes32) (r : DisputeRecord)
      (post : disputeTable e.post.store =
        Function.update (disputeTable e.pre.store) d (some (.record r)))
      (opens : Opens host e d) (free : disputeTable e.pre.store d = none) (id : r.disputeId = d)
      (status : r.status = .Open)
  | update (d : Bytes32) (r r' : DisputeRecord)
      (post : disputeTable e.post.store =
        Function.update (disputeTable e.pre.store) d (some (.record r')))
      (pre : disputeTable e.pre.store d = some (.record r)) (id : r'.disputeId = r.disputeId)
      (status : r'.status ≠ .Superseded)
  | supersede (admin : Address) (d y : Bytes32) (r r' : DisputeRecord) (o o' : Option Bytes32)
      (post : disputeTable e.post.store =
        Function.update (Function.update (disputeTable e.pre.store) d (some (.record r')))
          (supersessionReverseKey host.sha256 y) (some (.proofId r.proofId)))
      (call : Succeeds host e (.supersedeDispute admin d y))
      (pre : disputeTable e.pre.store d = some (.record r)) (id : r'.disputeId = r.disputeId)
      (proof : r'.proofId = r.proofId) (superseding : r'.supersededBy = some y)
      (self : y ≠ r.proofId)
      (read : disputeTable e.pre.store (supersessionReverseKey host.sha256 y) = o.map .proofId)
      (read' : disputeTable e.pre.store (supersessionReverseKey host.sha256 r.proofId) =
        o'.map .proofId)
      (no : o' ≠ some y)

theorem appendProofDispute_writes (p d : Bytes32) :
    Tx.Writes (In [.ProofDispute,.ProofDisputeSeq]) (appendProofDispute p d) := by
  unfold appendProofDispute
  repeat' first | with_reducible refine Tx.Writes.bind ?_ fun _ => ?_ | simp

theorem openDispute_table {env : Env} {reporter : Address} {h c : Bytes32}
    {reason : DisputeReason} (hx : openDispute env reporter h d p reason c s=.ok (x,s')) :
    disputeTable s d=none ∧ disputeTable s'=update (disputeTable s) d
      (some (.record (openedRecord env reporter h d p reason c))) := by
  obtain ⟨-,free,-,-,-,happ⟩ := openDispute_ok hx
  refine ⟨free,?_⟩
  rw [disputeTable_writes (appendProofDispute_writes p d) (by simp) happ,openedStorage,
    disputeTable_set_other _ _ (by simp),disputeTable_set_other _ _ (by simp),disputeTable_set,
    disputeTable_set_other _ _ (by simp)]

theorem counters_table {a : Address} {t : Storage} {u v : Unit}
    (h : decrementOpenDisputeCount p s=.ok (u,t))
    (h' : decrementReporterOpenDisputeCount a t=.ok (v,s')) : disputeTable s'=disputeTable s :=
  (disputeTable_writes (decrementReporterOpenDisputeCount_writes a (List.Subset.refl _))
    (by simp [counterFootprint]) h').trans
    (disputeTable_writes (decrementOpenDisputeCount_writes p (List.Subset.refl _))
      (by simp [counterFootprint]) h)

theorem closeDispute_table {env : Env} {status : DisputeStatus}
    (h : closeDispute env d r status s=.ok (x,s')) :
    disputeTable s'=update (disputeTable s) d
      (some (.record { r with status, resolvedAt := env.timestamp })) := by
  simp only [closeDispute,Tx.bind_ok,Tx.set_ok,Tx.pure_ok] at h
  obtain ⟨_,_,rfl,_,_,h1,_,_,h2,-,rfl⟩ := h
  rw [counters_table h1 h2,disputeTable_set]

theorem supersedeDispute_table {env : Env} {admin : Address}
    (h : supersedeDispute env admin d y s=.ok (x,s')) :
    ∃ (r : DisputeRecord) (o o' : Option Bytes32), disputeTable s d=some (.record r) ∧
      y≠r.proofId ∧
      disputeTable s (supersessionReverseKey env.sha256 y)=o.map .proofId ∧
      disputeTable s (supersessionReverseKey env.sha256 r.proofId)=o'.map .proofId ∧
      o'≠some y ∧ disputeTable s' =
        update (update (disputeTable s) d (some (.record
          { r with
            status := .Superseded
            supersededBy := some y
            resolvedAt := env.timestamp })))
          (supersessionReverseKey env.sha256 y) (some (.proofId r.proofId)) := by
  obtain ⟨r,hr,-,-,self,check,t,h1,h2⟩ := supersedeDispute_ok h
  obtain ⟨-,o,o',ho,ho',-,hno⟩ := checkSupersessionCycle_false check
  refine ⟨r,o,o',hr,self,ho,ho',hno,?_⟩
  rw [counters_table h1 h2,supersededStorage,disputeTable_set,disputeTable_set]

theorem exec_disputes {inv : Invocation} {c : Call} (hl : e.label=.invoke inv c)
    (h : exec (e.pre.env host inv) c e.pre.store=.ok ((),e.post.store)) : DisputeStep host e := by
  cases c with
  | openDispute reporter reporterHash d proofId reason commitmentHash =>
    have hs : Opens host e d := ⟨_,_,_,_,_,inv,hl,h⟩
    obtain ⟨_,h⟩ := (discard_ok ..).1 h
    obtain ⟨free,post⟩ := openDispute_table h
    exact .new d _ post hs free rfl rfl
  | respondDispute responder d commitment =>
    obtain ⟨_,h⟩ := (discard_ok ..).1 h
    obtain ⟨r,hr,-,-,hpost⟩ := respondDispute_ok h
    have post := (congrArg disputeTable hpost).trans (disputeTable_set ..)
    exact .update d r _ post hr rfl (by simp)
  | resolveDispute admin d =>
    obtain ⟨_,h⟩ := (discard_ok ..).1 h
    obtain ⟨r,hr,-,-,h⟩ := resolveDispute_ok h
    exact .update d r _ (closeDispute_table h) hr rfl (by simp)
  | dismissDispute admin d =>
    obtain ⟨_,h⟩ := (discard_ok ..).1 h
    obtain ⟨r,hr,-,h⟩ := dismissDispute_ok h
    exact .update d r _ (closeDispute_table h) hr rfl (by simp)
  | supersedeDispute admin d y =>
    have hs : Succeeds host e (.supersedeDispute admin d y) := ⟨inv,hl,h⟩
    obtain ⟨_,h⟩ := (discard_ok ..).1 h
    obtain ⟨r,o,o',hr,self,ho,ho',hno,post⟩ := supersedeDispute_table h
    exact .supersede admin d y r _ o o' post hs hr rfl rfl rfl self ho ho' hno
  | _ =>
    exact .keep (disputeTable_writes (exec_writes _ _) (notMem_of_elem rfl) h)

theorem next_disputes (hst : next host e.pre e.label=e.post) : DisputeStep host e := by
  obtain ⟨inv,c,hl,-,hx⟩ | hk := next_store hst
  · exact exec_disputes hl hx
  · exact .keep (funext fun _ => hk _ (by simp))

/-- A dispute about `x` was closed in favour of `y`. -/
def Supersedes (t : Bytes32 → Option DisputeValue) (x y : Bytes32) : Prop :=
  ∃ d r, t d = some (.record r) ∧ r.status = .Superseded ∧ r.proofId = x ∧
    r.supersededBy = some y

theorem supersedes_update_record {x : Bytes32}
    (h : Supersedes (update t d (some (.record r))) x y) :
    Supersedes t x y ∨ r.status=.Superseded ∧ r.proofId=x ∧ r.supersededBy=some y := by
  obtain ⟨d',r',hr,hedge⟩ := h
  by_cases hd : d'=d
  · rw [hd,update_self] at hr
    cases hr
    exact .inr hedge
  · rw [update_of_ne hd] at hr
    exact .inl ⟨d',r',hr,hedge⟩

theorem supersedes_update_proofId {k x : Bytes32}
    (h : Supersedes (update t k (some (.proofId p))) x y) : Supersedes t x y := by
  obtain ⟨d',r',hr,hedge⟩ := h
  by_cases hd : d'=k
  · rw [hd,update_self] at hr
    cases hr
  · rw [update_of_ne hd] at hr
    exact ⟨d',r',hr,hedge⟩

/-- The reverse index knows every edge, and no edge runs both ways. -/
structure EdgesIndexed (sha256 : Bytes → Bytes32) (t : Bytes32 → Option DisputeValue) : Prop where
  indexed : ∀ x y, Supersedes t x y → t (supersessionReverseKey sha256 y) = some (.proofId x)
  oneWay : ∀ x y, Supersedes t x y → ¬ Supersedes t y x

theorem EdgesIndexed.record {sha256 : Bytes → Bytes32} (h : EdgesIndexed sha256 t)
    (hd : ∀ p, t d≠some (.proofId p)) (hr : r.status≠.Superseded) :
    EdgesIndexed sha256 (update t d (some (.record r))) := by
  have old : ∀ x y, Supersedes (update t d (some (.record r))) x y →
      Supersedes t x y := fun x y hxy =>
    (supersedes_update_record hxy).resolve_right fun hedge => hr hedge.1
  refine ⟨fun x y hxy => ?_,fun x y hxy hyx => h.oneWay x y (old x y hxy) (old y x hyx)⟩
  have hi := h.indexed x y (old x y hxy)
  rw [update_of_ne,hi]
  intro heq
  exact hd x (heq ▸ hi)

/-- A new edge whose reverse is not in the index, from a proof that is not in it either. -/
theorem EdgesIndexed.edge {sha256 : Bytes → Bytes32} {r' : DisputeRecord}
    (h : EdgesIndexed sha256 t) (hd : t d=some (.record r)) (hproof : r'.proofId=r.proofId)
    (hsup : r'.supersededBy=some y) (hself : y≠r.proofId)
    (hfirst : t (supersessionReverseKey sha256 y)=none)
    (hno : t (supersessionReverseKey sha256 r.proofId)≠some (.proofId y)) :
    EdgesIndexed sha256 (update (update t d (some (.record r')))
      (supersessionReverseKey sha256 y) (some (.proofId r.proofId))) := by
  have edges : ∀ a b, Supersedes (update (update t d (some (.record r')))
      (supersessionReverseKey sha256 y) (some (.proofId r.proofId))) a b →
      Supersedes t a b ∨ r.proofId=a ∧ y=b := by
    intro a b hab
    refine (supersedes_update_record (supersedes_update_proofId hab)).imp id ?_
    intro hyp
    obtain ⟨-,ha,hb⟩ := hyp
    exact ⟨hproof.symm.trans ha,Option.some.inj (hsup.symm.trans hb)⟩
  constructor
  · intro a b hab
    obtain hab | ⟨rfl,rfl⟩ := edges a b hab
    · have hi := h.indexed a b hab
      rw [update_of_ne,update_of_ne,hi]
      · intro heq
        rw [heq,hd] at hi
        cases hi
      · intro heq
        rw [heq,hfirst] at hi
        cases hi
    · exact update_self ..
  · intro a b hab hba
    obtain hab | ⟨rfl,rfl⟩ := edges a b hab
    · obtain hba | ⟨rfl,rfl⟩ := edges b a hba
      · exact h.oneWay a b hab hba
      · exact hno (h.indexed _ _ hab)
    · obtain hba | ⟨heq,-⟩ := edges _ _ hba
      · exact hno (h.indexed _ _ hba)
      · exact hself heq.symm

/-- The superseding proof has not superseded another one. -/
def supersedesFirst (host : Host) (w : World) (c : Call) : Bool :=
  match c with
  | .supersedeDispute _ _ y =>
    (w.store (.Dispute (supersessionReverseKey host.sha256 y))).isNone
  | _ => true

theorem next_edges (hst : next host e.pre e.label=e.post)
    (hc : meets (supersedesFirst host) e=true)
    (h : EdgesIndexed host.sha256 (disputeTable e.pre.store)) :
    EdgesIndexed host.sha256 (disputeTable e.post.store) := by
  cases next_disputes hst with
  | keep post => exact post ▸ h
  | new d r post opens free id status =>
    rw [post]
    exact h.record (by simp [free]) (by simp [status])
  | update d r r' post pre id status =>
    rw [post]
    exact h.record (by simp [pre]) status
  | supersede admin d y r r' o o' post call pre id proof superseding self read read' no =>
    obtain ⟨inv,hl,-⟩ := call
    simp only [meets,hl,supersedesFirst,Option.isNone_iff_eq_none] at hc
    rw [post]
    refine h.edge pre proof superseding self hc ?_
    rw [read']
    cases o' with
    | none => simp
    | some q => simpa using no

theorem reaches_edges {start : Ledger} {tr : Trace} {w : World} (h : Reaches host start tr w)
    (hc : ∀ e∈tr, meets (supersedesFirst host) e=true) :
    EdgesIndexed host.sha256 (disputeTable w.store) := by
  refine Run.invariant (I := fun _ w => EdgesIndexed host.sha256 (disputeTable w.store)) ?_ ?_ h hc
  · have none : ∀ x y, ¬ Supersedes (disputeTable Store.empty) x y := by
      intro x y hyp
      obtain ⟨d,r,hr,-⟩ := hyp
      cases hr
    exact ⟨fun x y hxy => absurd hxy (none x y),fun x y hxy => absurd hxy (none x y)⟩
  · intro tr w l w' _ hw hst hc
    exact next_edges (e := ⟨w,l,w'⟩) hst hc hw

/-- As long as no proof supersedes two others, no two proofs supersede each other. -/
theorem supersession_no_two_cycle {host : Host} {start : Ledger} {tr : Trace} {w : World}
    (h : Reaches host start tr w) (hc : ∀ e ∈ tr, meets (supersedesFirst host) e = true)
    (x y : Bytes32) :
    ¬ (Supersedes (disputeTable w.store) x y ∧ Supersedes (disputeTable w.store) y x) := by
  intro hyp
  obtain ⟨hxy,hyx⟩ := hyp
  exact (reaches_edges h hc).oneWay x y hxy hyx

/-- Proofs 1, 2 and 3 are registered, and dispute `20+i` is about proof `i`. -/
def disputesOpen : List Label :=
  [.call ⟨1⟩ (.init ⟨1⟩),
    .call ⟨2⟩ (.registerSource ⟨2⟩ (fill 1) zero32 (fill 1)),
    .call ⟨2⟩ (.registerSource ⟨2⟩ (fill 2) zero32 (fill 2)),
    .call ⟨2⟩ (.registerSource ⟨2⟩ (fill 3) zero32 (fill 3)),
    .call ⟨4⟩ (.openDispute ⟨4⟩ (fill 11) (fill 21) (fill 1) .Other zero32),
    .call ⟨4⟩ (.openDispute ⟨4⟩ (fill 12) (fill 22) (fill 2) .Other zero32),
    .call ⟨4⟩ (.openDispute ⟨4⟩ (fill 13) (fill 23) (fill 3) .Other zero32)]

def supersede (d y : UInt8) : Label := .call ⟨1⟩ (.supersedeDispute ⟨1⟩ (fill d) (fill y))

def chain : List Label := disputesOpen++[supersede 21 2,supersede 22 3]

/-- The edge stored in a dispute. -/
def edgeOf (w : World) (d : Bytes32) : Option (Bytes32 × Bytes32) :=
  match w.store (.Dispute d) with
  | some (.record r) => if r.status = .Superseded then r.supersededBy.map (r.proofId,·) else none
  | _ => none

theorem supersedes_of_edgeOf {w : World} {x : Bytes32} (h : edgeOf w d=some (x,y)) :
    Supersedes (disputeTable w.store) x y := by
  unfold edgeOf at h
  split at h
  · rename_i r hr
    split at h
    · rename_i hs
      obtain ⟨y',hy,hxy⟩ := Option.map_eq_some_iff.1 h
      cases hxy
      exact ⟨d,r,hr,hs,rfl,hy⟩
    · cases h
  · cases h

theorem supersession_no_two_cycle_chain :
    Supersedes (disputeTable (deploy chain).2.store) (fill 1) (fill 2) ∧
    ¬ Supersedes (disputeTable (deploy chain).2.store) (fill 2) (fill 1) := by
  have run : edgeOf (deploy chain).2 (fill 21)=some (fill 1,fill 2) ∧
      ∀ e∈(deploy chain).1, meets (supersedesFirst stellarHost) e=true := by decide +kernel
  have hedge := supersedes_of_edgeOf run.1
  refine ⟨hedge,fun hback => ?_⟩
  exact supersession_no_two_cycle (deploy_reaches chain) run.2 _ _ ⟨hedge,hback⟩

/-- Proof 2 supersedes proof 1 and then proof 3; the index forgets the first of the two, and
proof 2 is superseded by proof 1. -/
def cycle : List Label := disputesOpen++[supersede 21 2,supersede 23 2,supersede 22 1]

theorem supersession_two_cycle : ∃ tr, Reaches stellarHost genesis tr (deploy cycle).2 ∧
    Supersedes (disputeTable (deploy cycle).2.store) (fill 1) (fill 2) ∧
    Supersedes (disputeTable (deploy cycle).2.store) (fill 2) (fill 1) := by
  have edges : edgeOf (deploy cycle).2 (fill 21)=some (fill 1,fill 2) ∧
      edgeOf (deploy cycle).2 (fill 22)=some (fill 2,fill 1) := by decide +kernel
  exact ⟨_,deploy_reaches cycle,supersedes_of_edgeOf edges.1,supersedes_of_edgeOf edges.2⟩

end Harpocrates.Registry
