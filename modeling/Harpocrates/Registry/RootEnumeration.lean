import Harpocrates.Framework.AppendLog
import Harpocrates.Framework.Paging
import Harpocrates.Registry.System

namespace Harpocrates.Registry

open Framework Tx List Option Nat

def getCredentialRootCount (s : Storage) : Nat := (s .CredentialRootSeq).getD 0

def RootIndex (s : Storage) (roots : List Bytes32) : Prop :=
  Enumerates roots (getCredentialRootCount s) (fun i => s (.CredentialRootIndex i))
    fun root => s (.CredentialRootIndexed root)

def Indexed (s : Storage) : Prop :=
  getCredentialRootCount s < u32Max → ∃ roots, RootIndex s roots

theorem Indexed.congr {s s' : Storage} (h : Indexed s)
    (hseq : s' .CredentialRootSeq=s .CredentialRootSeq)
    (hindex : ∀ i, s' (.CredentialRootIndex i)=s (.CredentialRootIndex i))
    (hindexed : ∀ root, s' (.CredentialRootIndexed root)=s (.CredentialRootIndexed root)) :
    Indexed s' := by
  simpa [Indexed,RootIndex,getCredentialRootCount,hseq,hindex,hindexed] using h

theorem writes_indexed {α : Type} {m : M α} (fs : List Family) (hw : Writes (In fs) m)
    (hfs : Family.CredentialRootSeq∉fs ∧ Family.CredentialRootIndex∉fs ∧
      Family.CredentialRootIndexed∉fs) : Preserves Indexed m :=
  .of_writes hw fun _ _ hsame h =>
    h.congr (hsame _ hfs.1) (fun _ => hsame _ hfs.2.1) fun _ => hsame _ hfs.2.2

def numbered (s : Storage) (root : Bytes32) (n : Nat) : Storage :=
  Store.set (Store.set (Store.set s (.CredentialRootIndex n) root) .CredentialRootSeq n)
    (.CredentialRootIndexed root) n

theorem indexCredentialRoot_ok {root : Bytes32} {s s' : Storage} {b : Bool}
    (h : indexCredentialRoot root s=.ok (b,s')) :
    s'=s ∨ s (.CredentialRootIndexed root)=none ∧
      s'=numbered s root (satAdd32 (getCredentialRootCount s) 1) := by
  rw [indexCredentialRoot] at h
  obtain ⟨known,_,hknown,h⟩ := (bind_ok ..).1 h
  obtain ⟨hknown,rfl⟩ := (has_ok ..).1 hknown
  cases known with
  | true =>
    obtain ⟨-,rfl⟩ := (pure_ok ..).1 h
    exact .inl rfl
  | false =>
    simp only [Bool.false_eq_true,if_false,bind_ok,get_ok,set_ok,pure_ok] at h
    obtain ⟨_,_,⟨rfl,rfl⟩,_,_,rfl,_,_,rfl,_,_,rfl,-,rfl⟩ := h
    exact .inr ⟨by simpa using hknown,rfl⟩

theorem indexCredentialRoot_indexed (root : Bytes32) :
    Preserves Indexed (indexCredentialRoot root) := by
  intro s b s' hs h
  rcases indexCredentialRoot_ok h with rfl | ⟨hfree,rfl⟩
  · exact hs
  · intro hfew
    have hcount : getCredentialRootCount
        (numbered s root (satAdd32 (getCredentialRootCount s) 1)) =
          satAdd32 (getCredentialRootCount s) 1 := by
      simp [getCredentialRootCount,numbered]
    rw [hcount,satAdd32] at hfew
    have hnext : satAdd32 (getCredentialRootCount s) 1=getCredentialRootCount s+1 := by
      rw [satAdd32]
      omega
    obtain ⟨roots,hroots⟩ := hs (by omega)
    refine ⟨roots++[root],?_⟩
    rw [RootIndex,hcount,hnext]
    exact hroots.append_of hfree (by simp [numbered]) (fun i hi => by simp [numbered,hi])
      (by simp [numbered]) fun a ha => by simp [numbered,ha]

theorem backfillCredentialRootsStep_indexed :
    Preserves Indexed backfillCredentialRootsStep := by
  unfold backfillCredentialRootsStep
  refine .bind (writes_indexed [] (by simp) (by decide)) fun queue => ?_
  cases queue with
  | none => exact writes_indexed [] (by simp) (by decide)
  | some queue =>
    refine .bind (writes_indexed [] (by simp) (by decide)) fun cursor => .bind ?_ fun _ => ?_
    · exact .forEach _ fun root => .bind (indexCredentialRoot_indexed root) fun _ =>
        writes_indexed [] (by simp) (by decide)
    · exact writes_indexed [.CredentialRootsBackfillCursor] (by simp) (by decide)

theorem upgradeStorage_indexed (env : Env) (admin : Address) :
    Preserves Indexed (upgradeStorage env admin) := by
  have hwrites : ∀ {α : Type} {m : M α}, Writes (In [.SchemaVersion]) m →
      Preserves Indexed m := fun hw => writes_indexed _ hw (by decide)
  have hraise (version : Nat) : Preserves Indexed
      (do store .SchemaVersion version; backfillCredentialRootsStep : M Unit) :=
    .bind (hwrites (by simp)) fun _ => backfillCredentialRootsStep_indexed
  unfold upgradeStorage
  refine .bind (hwrites (by simp)) fun _ => .bind (hwrites (by simp)) fun _ =>
    .bind (hwrites (by simp)) fun had => .bind (hwrites (by simp)) fun _ => .ite ?_ ?_
  · exact .bind (hwrites (by simp)) fun _ => .ite (hraise _) backfillCredentialRootsStep_indexed
  · exact .ite (hraise _) backfillCredentialRootsStep_indexed

theorem addCredentialRoot_indexed (env : Env) (admin : Address) (root m : Bytes32) :
    Preserves Indexed (addCredentialRoot env admin root m) := by
  unfold addCredentialRoot
  refine .bind (writes_indexed [] (by simp) (by decide)) fun _ => .bind ?_ fun _ =>
    .bind (indexCredentialRoot_indexed root) fun _ => ?_
  · exact writes_indexed [.CredentialRootV2] (by simp) (by decide)
  · exact writes_indexed [] (by simp) (by decide)

theorem next_indexed {host : Host} {w w' : World} {l : Label} (hst : next host w l=w')
    (hw : Indexed w.store) : Indexed w'.store := by
  obtain ⟨inv,c,-,-,hx⟩ | hsame := next_store hst
  · cases c with
    | addCredentialRoot admin root m => exact addCredentialRoot_indexed _ _ _ _ _ _ _ hw hx
    | upgradeStorage admin => exact upgradeStorage_indexed _ _ _ _ _ hw hx
    | _ =>
      exact hw.congr (exec_footprint hx (notMem_of_elem rfl))
        (fun _ => exec_footprint hx (notMem_of_elem rfl))
        fun _ => exec_footprint hx (notMem_of_elem rfl)
  · exact hw.congr (hsame _ (by simp)) (fun _ => hsame _ (by simp)) fun _ => hsame _ (by simp)

theorem reaches_indexed {host : Host} {start : Ledger} {tr : Trace} {w : World}
    (hr : Reaches host start tr w) : Indexed w.store := by
  refine Run.state_invariant (I := fun w : World => Indexed w.store) ?_
    (fun _ _ _ hi hst => next_indexed hst hi) hr
  intro _
  exact ⟨[],Enumerates.empty⟩

def listedRoot (now : Nat) (s : Storage) (root : Bytes32) : Option CredentialRootEntry :=
  (getCredentialRootRecordOpt s root).map fun record =>
    { rootHash := root, status := record.listedStatus now }

def rootsPage (env : Env) (s : Storage) (cursor limit : Nat) :
    Option (List CredentialRootEntry × Option Nat) :=
  (listCredentialRoots env cursor limit s).toOption.map fun page =>
    (page.1.roots,page.1.nextCursor)

section

variable {now : Nat} {s : Storage} {roots : List Bytes32}

theorem credentialRootEntry_eq {id : Nat} {root : Bytes32}
    (h : s (.CredentialRootIndex id)=some root) :
    credentialRootEntry now s id=listedRoot now s root := by
  simp only [credentialRootEntry,h,listedRoot]
  cases getCredentialRootRecordOpt s root with
  | none => rfl
  | some record => rfl

def listedFrom (now : Nat) (s : Storage) (roots : List Bytes32) (id : Nat) :
    List CredentialRootEntry :=
  (roots.drop (id-1)).filterMap (listedRoot now s)

theorem listedFrom_end {id : Nat} (h : roots.length < id) : listedFrom now s roots id=[] := by
  rw [listedFrom,drop_eq_nil_of_le (by omega),filterMap_nil]

/-- The scan finds what is left, up to the limit, and stops at a number that exists. -/
theorem scanCredentialRoots_eq (h : RootIndex s roots) (hfew : roots.length<u32Max)
    {limit remaining id : Nat} (found : List CredentialRootEntry) (hid : 0 < id)
    (hremaining : remaining=roots.length+1-id) (hroom : found.length<limit) :
    ∃ items next, scanCredentialRoots now limit roots.length s remaining id found =
        some ⟨found++items,next⟩ ∧
      listedFrom now s roots id=items++next.elim [] (listedFrom now s roots) ∧
      ∀ c∈next, id<c ∧ c≤roots.length := by
  induction remaining generalizing id found with
  | zero =>
    refine ⟨[],none,?_,?_,by simp⟩
    · rw [scanCredentialRoots,if_neg (by omega),List.append_nil]
    · rw [listedFrom_end (by omega),Option.elim_none,List.append_nil]
  | succ remaining ih =>
    have hlt : id-1<roots.length := by omega
    have hroot : s (.CredentialRootIndex id)=some roots[id-1] := by
      have hentry := h.succ (id-1)
      rw [Nat.sub_add_cancel hid,List.getElem?_eq_getElem hlt] at hentry
      exact hentry
    have hlisted : listedFrom now s roots id =
        (listedRoot now s roots[id-1]).toList++listedFrom now s roots (id+1) := by
      rw [listedFrom,List.drop_eq_getElem_cons hlt,List.filterMap_cons,Nat.sub_add_cancel hid]
      cases listedRoot now s roots[id-1] with
      | none => rfl
      | some entry => rfl
    rw [scanCredentialRoots,credentialRootEntry_eq hroot,hlisted]
    cases listedRoot now s roots[id-1] with
    | none =>
      obtain ⟨items,next,hscan,hrest,hnext⟩ := ih found (Nat.succ_pos id) (by omega) hroom
      refine ⟨items,next,hscan,by simpa using hrest,fun c hc => ?_⟩
      have hbound := hnext c hc
      omega
    | some entry =>
      by_cases hfull : (found++[entry]).length=limit
      · by_cases hmore : id<roots.length
        · refine ⟨[entry],some (id+1),?_,rfl,by simpa using hmore⟩
          simp only [if_pos hfull,if_pos hmore]
        · refine ⟨[entry],none,?_,?_,by simp⟩
          · simp only [if_pos hfull,if_neg hmore]
          · rw [listedFrom_end (by omega)]
            rfl
      · rw [List.length_append,List.length_singleton] at hfull
        have hroom' : (found++[entry]).length<limit := by
          rw [List.length_append,List.length_singleton]
          omega
        obtain ⟨items,next,hscan,hrest,hnext⟩ :=
          ih (found++[entry]) (Nat.succ_pos id) (by omega) hroom'
        refine ⟨entry::items,next,?_,by simp [hrest],fun c hc => ?_⟩
        · simp only [List.length_append,List.length_singleton,if_neg hfull,hscan,
            List.append_assoc,List.singleton_append]
        · have hbound := hnext c hc
          omega

theorem rootsPage_eq (h : RootIndex s roots) (hfew : roots.length<u32Max) (env : Env)
    (cursor limit : Nat) : ∃ items next, rootsPage env s cursor limit=some (items,next) ∧
      listedFrom env.timestamp s roots cursor =
        items++next.elim [] (listedFrom env.timestamp s roots) ∧
      ∀ c∈next, cursor<c ∧ 1<c ∧ c≤roots.length := by
  have hcount : (s .CredentialRootSeq).getD 0=roots.length := h.length
  have hlimit : 0 < if limit=0 ∨ limit > MAX_CREDENTIAL_ROOTS_PAGE
      then MAX_CREDENTIAL_ROOTS_PAGE else limit := by
    rw [MAX_CREDENTIAL_ROOTS_PAGE]
    split <;> omega
  have hfirst : 0 < if cursor=0 then 1 else cursor := by
    split <;> omega
  have hsame : (if cursor=0 then 1 else cursor)-1=cursor-1 := by
    split <;> omega
  obtain ⟨items,next,hscan,hrest,hnext⟩ := scanCredentialRoots_eq h hfew [] hfirst rfl hlimit
  refine ⟨items,next,?_,?_,fun c hc => ?_⟩
  · have hlist : listCredentialRoots env cursor limit s=.ok (⟨items,next⟩,s) := by
      simp only [listCredentialRoots,bind_ok,get_ok,gets_ok,unwrap_ok]
      refine ⟨_,s,⟨rfl,rfl⟩,_,s,⟨rfl,rfl⟩,?_,rfl⟩
      rw [hcount]
      exact hscan
    rw [rootsPage,hlist]
    rfl
  · rw [listedFrom,hsame] at hrest
    exact hrest
  · have hbound := hnext c hc
    split at hbound <;> omega

/-- The listing loses and repeats nothing, whatever the limits are. -/
theorem rootsPage_pager (h : RootIndex s roots) (hfew : roots.length<u32Max) (env : Env) :
    Pager (fun _ => True) (fun _ => True) (listedFrom env.timestamp s roots)
      (fun cursor => roots.length-(cursor-1)) (rootsPage env s) where
  page := by
    intro cursor limit _ _
    obtain ⟨items,next,hpage,hrest,hnext⟩ := rootsPage_eq h hfew env cursor limit
    refine ⟨items,next,hpage,hrest,fun c hc => ⟨trivial,?_⟩⟩
    have hbound := hnext c hc
    omega
  done := by
    intro cursor _ hleft
    rw [listedFrom,drop_eq_nil_of_le (by omega),filterMap_nil]

theorem listedRoot_hashes (l : List Bytes32) :
    (l.filterMap (listedRoot now s)).map CredentialRootEntry.rootHash =
      l.filter fun root => (getCredentialRootRecordOpt s root).isSome := by
  induction l with
  | nil => rfl
  | cons root l ih =>
    cases hroot : getCredentialRootRecordOpt s root with
    | none =>
      have hnone : listedRoot now s root=none := by rw [listedRoot,hroot,map_none]
      simp [hnone,hroot,ih]
    | some record =>
      have hsome : listedRoot now s root=some ⟨root,record.listedStatus now⟩ := by
        rw [listedRoot,hroot,map_some]
      simp [hsome,hroot,ih]

end

/-- The numbers go from one to the counter, each has one root and each indexed root one number;
and the listing, read from its start with any limits, comes to its end and has every root with a
record once, in the order of the numbers. -/
theorem credential_roots_enumerated {host : Host} {start : Ledger} {tr : Trace} {w : World}
    (hr : Reaches host start tr w) (hfew : getCredentialRootCount w.store < u32Max) :
    (∀ i, (w.store (.CredentialRootIndex i)).isSome = true ↔
      1 ≤ i ∧ i ≤ getCredentialRootCount w.store) ∧
    (∀ root i, w.store (.CredentialRootIndexed root) = some i ↔
      w.store (.CredentialRootIndex i) = some root) ∧
    ∃ roots, RootIndex w.store roots ∧ roots.Nodup ∧
      ∀ (env : Env) (limits : List Nat), limits ≠ [] → roots.length ≤ limits.length →
        ∃ entries, walk (rootsPage env w.store) limits 0 = some (entries,none) ∧
          entries.map CredentialRootEntry.rootHash =
            roots.filter fun root => (getCredentialRootRecordOpt w.store root).isSome := by
  obtain ⟨roots,hroots⟩ := reaches_indexed hr hfew
  have hlen : roots.length<u32Max := hroots.length ▸ hfew
  refine ⟨hroots.isSome_iff,hroots.inverse,roots,hroots,hroots.nodup,fun env limits hne hle => ?_⟩
  refine ⟨roots.filterMap (listedRoot env.timestamp w.store),?_,listedRoot_hashes roots⟩
  refine (rootsPage_pager hroots hlen env).walk_finishes ?_ trivial (fun _ _ => trivial) hne hle
  intro cursor limit items cursor' hpage
  obtain ⟨_,next,hpage',-,hnext⟩ := rootsPage_eq hroots hlen env cursor limit
  obtain rfl : some cursor'=next := (Prod.mk.inj (Option.some.inj (hpage.symm.trans hpage'))).2
  have hbound := hnext cursor' rfl
  omega

/-- Two roots with a record, and one from the backfill queue that has none. -/
def rootsIndexed : List Label :=
  [.call ⟨1⟩ (.init ⟨1⟩),.call ⟨1⟩ (.addCredentialRoot ⟨1⟩ (fill 1) zero32),
    .call ⟨1⟩ (.stageCredentialRootsForBackfill ⟨1⟩ [fill 2,fill 1]),
    .call ⟨1⟩ (.upgradeStorage ⟨1⟩),.call ⟨1⟩ (.addCredentialRoot ⟨1⟩ (fill 3) zero32)]

/-- Read one root at a time, the listing skips the root without a record. -/
theorem credential_roots_enumerated_after_backfill :
    getCredentialRootCount (deploy rootsIndexed).2.store = 3 ∧
    ∃ roots, RootIndex (deploy rootsIndexed).2.store roots ∧ roots.Nodup ∧
      (roots.filter fun root =>
        (getCredentialRootRecordOpt (deploy rootsIndexed).2.store root).isSome) =
        [fill 1,fill 3] := by
  have hcount : getCredentialRootCount (deploy rootsIndexed).2.store=3 := by decide +kernel
  obtain ⟨-,-,roots,hroots,hnodup,hlist⟩ :=
    credential_roots_enumerated (deploy_reaches rootsIndexed) (by rw [hcount]; decide)
  have hlen : roots.length≤3 := le_of_eq (hroots.length.symm.trans hcount)
  obtain ⟨entries,hwalk,hhashes⟩ := hlist ((deploy rootsIndexed).2.env stellarHost (.signedBy ⟨1⟩))
    [1,1,1] (by simp) hlen
  have hread : walk (rootsPage ((deploy rootsIndexed).2.env stellarHost (.signedBy ⟨1⟩))
      (deploy rootsIndexed).2.store) [1,1,1] 0 =
      some ([⟨fill 1,STATUS_REGISTERED⟩,⟨fill 3,STATUS_REGISTERED⟩],none) := by decide +kernel
  rw [hread,some_inj] at hwalk
  refine ⟨hcount,roots,hroots,hnodup,?_⟩
  rw [← hhashes,← (Prod.mk.inj hwalk).1]
  rfl

end Harpocrates.Registry
