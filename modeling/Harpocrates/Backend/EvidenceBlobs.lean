import Mathlib.Data.Finset.Basic
import Harpocrates.Framework.Dict
import Harpocrates.Framework.Python
import Harpocrates.Framework.Run

namespace Harpocrates.Backend.EvidenceBlobs

open Framework Framework.Python List

/-! Encrypted evidence files, the references of tenants to them and the collector. Keys and sizes
are written with a row and decide nothing. -/

/-- The storage paths of the blobs, oldest first, and the reference counts of tenants and blobs. -/
structure Db where
  blobs : List (Text × Text) := []
  refs : List ((Text × Text) × Nat) := []

def MAX_INTEGER : Nat := 2147483647

def recordBlob (db : Db) (contentHash storagePath : Text) : Db :=
  match db.blobs.lookup contentHash with
  | some _ => db
  | none => { db with blobs := Dict.set db.blobs contentHash storagePath }

/-- None where the statement raises: there is no such blob, or the counter overflows. -/
def recordTenantRef (db : Db) (tenantId contentHash : Text) : Option Db :=
  match db.refs.lookup (tenantId,contentHash) with
  | some refCount =>
    if refCount < MAX_INTEGER then
      some { db with refs := Dict.set db.refs (tenantId,contentHash) (refCount+1) }
    else none
  | none =>
    if (db.blobs.lookup contentHash).isSome then
      some { db with refs := Dict.set db.refs (tenantId,contentHash) 1 }
    else none

def removeTenantRef (db : Db) (tenantId contentHash : Text) : Db × Bool :=
  match db.refs.lookup (tenantId,contentHash) with
  | none => (db,false)
  | some refCount =>
    if 1 < refCount then
      ({ db with refs := Dict.set db.refs (tenantId,contentHash) (refCount-1) },true)
    else ({ db with refs := Dict.remove db.refs [(tenantId,contentHash)] },true)

def referenced (db : Db) (contentHash : Text) : Bool :=
  db.refs.any fun r => r.1.2 = contentHash && 0 < r.2

def unreferencedBlobs (db : Db) (limit : Int) : List (Text × Text) :=
  if limit < 1 then [] else (db.blobs.filter fun b => !referenced db b.1).take limit.toNat

def deleteBlob (db : Db) (contentHash : Text) : Db where
  blobs := Dict.remove db.blobs [contentHash]
  refs := db.refs.filter fun r => r.1.2 ≠ contentHash

/-- The database as a transaction sees it, and the files. -/
structure World where
  db : Db := {}
  files : Finset Text := ∅

/-- One round of the collector. `failing` are the paths whose deletion raises an OSError. -/
def collectBlob (failing : Text → Bool) (w : World) (row : Text × Text) : World :=
  if row.2 = [] then { w with db := deleteBlob w.db row.1 }
  else if failing row.2 then w
  else ⟨deleteBlob w.db row.1,w.files.erase row.2⟩

def collectAll (failing : Text → Bool) (w : World) (rows : List (Text × Text)) : World :=
  rows.foldl (collectBlob failing) w

/-- How a transaction ends. The collector is aborted when it has gone through some of its rows. -/
inductive Fate
  | committed
  | aborted (rounds : Nat)

inductive Label
  /-- A file is stored under the path, and the blob is recorded. -/
  | recordBlob (contentHash storagePath : Text) (committed : Bool)
  | recordTenantRef (tenantId contentHash : Text) (committed : Bool)
  | removeTenantRef (tenantId contentHash : Text) (committed : Bool)
  | collect (limit : Int) (failing : Text → Bool) (fate : Fate)

/-- What a transaction that is aborted did to files stays. -/
def perform (w : World) : Label → World
  | .recordBlob contentHash storagePath committed =>
    ⟨if committed then recordBlob w.db contentHash storagePath else w.db,
      insert storagePath w.files⟩
  | .recordTenantRef tenantId contentHash committed =>
    match recordTenantRef w.db tenantId contentHash with
    | some db => if committed then { w with db } else w
    | none => w
  | .removeTenantRef tenantId contentHash committed =>
    if committed then { w with db := (removeTenantRef w.db tenantId contentHash).1 } else w
  | .collect limit failing .committed => collectAll failing w (unreferencedBlobs w.db limit)
  | .collect limit failing (.aborted rounds) =>
    { w with files := (collectAll failing w ((unreferencedBlobs w.db limit).take rounds)).files }

def Step (w : World) (l : Label) (w' : World) : Prop := w' = perform w l

def refCount (db : Db) (t h : Text) : Nat := (db.refs.lookup (t,h)).getD 0

/-- The event records a reference of the tenant. -/
def records (t h : Text) (e : Event World Label) : Bool :=
  match e.label with
  | .recordTenantRef t' h' true => t' = t && h' = h && (recordTenantRef e.pre.db t h).isSome
  | _ => false

/-- The event removes a reference of the tenant. -/
def removes (t h : Text) (e : Event World Label) : Bool :=
  match e.label with
  | .removeTenantRef t' h' true => t' = t && h' = h && (removeTenantRef e.pre.db t h).2
  | _ => false

def Positive (db : Db) : Prop := ∀ r ∈ db.refs, 0 < r.2

variable {w w' : World} {db db' : Db} {l : Label} {t h t' h' path : Text}
  {failing : Text → Bool} {rows : List (Text × Text)} {tr : List (Event World Label)}

theorem lookup_pos {c : Nat} (hpos : Positive db) (hc : db.refs.lookup (t,h)=some c) : 0<c :=
  hpos _ (Dict.mem_of_lookup hc)

theorem positive_set {c : Nat} (hpos : Positive db) (hc : 0<c) :
    Positive { db with refs := Dict.set db.refs (t,h) c } := by
  intro r hr
  rcases Dict.mem_set hr with rfl | hold
  · exact hc
  · exact hpos r hold

theorem refCount_set {c : Nat} : refCount { db with refs := Dict.set db.refs (t',h') c } t h =
    if t'=t ∧ h'=h then c else refCount db t h := by
  unfold refCount
  rw [Dict.lookup_set]
  by_cases hkey : t'=t ∧ h'=h
  · rw [if_pos hkey,if_pos (by rw [hkey.1,hkey.2])]
    rfl
  · rw [if_neg hkey,if_neg]
    intro heq
    obtain ⟨ht,hh⟩ := Prod.mk.inj heq
    exact hkey ⟨ht.symm,hh.symm⟩

theorem refCount_remove : refCount { db with refs := Dict.remove db.refs [(t',h')] } t h =
    if t'=t ∧ h'=h then 0 else refCount db t h := by
  unfold refCount
  rw [Dict.lookup_remove]
  simp only [mem_singleton,Prod.mk.injEq]
  by_cases hkey : t'=t ∧ h'=h
  · rw [if_pos hkey,if_pos ⟨hkey.1.symm,hkey.2.symm⟩]
    rfl
  · rw [if_neg hkey,if_neg fun heq => hkey ⟨heq.1.symm,heq.2.symm⟩]

theorem recordTenantRef_some (hpos : Positive db) (hsome : recordTenantRef db t' h'=some db') :
    Positive db' ∧ db'.blobs=db.blobs ∧
      ∀ t h, refCount db' t h=refCount db t h+if t'=t ∧ h'=h then 1 else 0 := by
  have hset : db'={ db with refs := Dict.set db.refs (t',h') (refCount db t' h'+1) } := by
    unfold recordTenantRef at hsome
    unfold refCount
    split at hsome
    · rename_i c hc
      split_ifs at hsome
      rw [hc]
      exact (Option.some.inj hsome).symm
    · rename_i hc
      split_ifs at hsome
      rw [hc]
      exact (Option.some.inj hsome).symm
  rw [hset]
  refine ⟨positive_set hpos (Nat.succ_pos _),rfl,fun t h => ?_⟩
  rw [refCount_set]
  split_ifs with hkey
  · rw [hkey.1,hkey.2]
  · rfl

theorem removeTenantRef_db (t' h' : Text) (hpos : Positive db) :
    Positive (removeTenantRef db t' h').1 ∧ (removeTenantRef db t' h').1.blobs=db.blobs ∧
      ∀ t h, refCount (removeTenantRef db t' h').1 t h =
        refCount db t h-if t'=t ∧ h'=h then 1 else 0 := by
  unfold removeTenantRef
  split
  · rename_i hnone
    refine ⟨hpos,rfl,fun t h => ?_⟩
    split_ifs with hkey
    · have hzero : refCount db t h=0 := by rw [refCount,← hkey.1,← hkey.2,hnone]; rfl
      show refCount db t h = _
      omega
    · rfl
  · rename_i c hc
    have hsame : ∀ t h, t'=t ∧ h'=h → refCount db t h=c := by
      rintro _ _ ⟨rfl,rfl⟩
      rw [refCount,hc]
      rfl
    split_ifs with hmany
    · refine ⟨positive_set hpos (by omega),rfl,fun t h => ?_⟩
      rw [refCount_set]
      split_ifs with hkey
      · rw [hsame t h hkey]
      · rfl
    · refine ⟨fun r hr => hpos r (mem_filter.1 hr).1,rfl,fun t h => ?_⟩
      rw [refCount_remove]
      split_ifs with hkey
      · have hone := hsame t h hkey
        omega
      · rfl

theorem removeTenantRef_found (hpos : Positive db) :
    (removeTenantRef db t h).2=true ↔ 0<refCount db t h := by
  unfold removeTenantRef refCount
  cases hlookup : db.refs.lookup (t,h) with
  | none => simp
  | some c =>
    have hc : 0<(some c).getD 0 := lookup_pos hpos hlookup
    dsimp only
    split_ifs
    all_goals exact ⟨fun _ => hc,fun _ => rfl⟩

theorem unreferenced_of_mem (hpos : Positive db) {limit : Int} {row : Text × Text}
    (hrow : row∈unreferencedBlobs db limit) :
    row∈db.blobs ∧ ∀ r∈db.refs, r.1.2≠row.1 := by
  unfold unreferencedBlobs at hrow
  split_ifs at hrow
  · cases hrow
  · obtain ⟨hmem,hfree⟩ := mem_filter.1 (mem_of_mem_take hrow)
    refine ⟨hmem,fun r hr heq => ?_⟩
    have hreferenced : referenced db row.1=true :=
      any_eq_true.2 ⟨r,hr,by simp [heq,hpos r hr]⟩
    rw [hreferenced] at hfree
    cases hfree

theorem deleteBlob_refs (hfree : ∀ r∈db.refs, r.1.2≠h) : (deleteBlob db h).refs=db.refs := by
  refine filter_eq_self.2 fun r hr => ?_
  simpa using hfree r hr

theorem collectBlob_refs (failing : Text → Bool) {row : Text × Text}
    (hfree : ∀ r∈w.db.refs, r.1.2≠row.1) : (collectBlob failing w row).db.refs=w.db.refs := by
  unfold collectBlob
  split_ifs
  · exact deleteBlob_refs hfree
  · rfl
  · exact deleteBlob_refs hfree

theorem collectAll_refs (hfree : ∀ row∈rows, ∀ r∈w.db.refs, r.1.2≠row.1) :
    (collectAll failing w rows).db.refs=w.db.refs := by
  induction rows generalizing w with
  | nil => rfl
  | cons row rows ih =>
    have hrow := collectBlob_refs failing (hfree row mem_cons_self)
    have hrest := ih (w := collectBlob failing w row) ?_
    · exact hrest.trans hrow
    · intro row' hrow' r hr
      rw [hrow] at hr
      exact hfree row' (mem_cons_of_mem _ hrow') r hr

theorem perform_collect_refs (hpos : Positive w.db) {limit : Int} {fate : Fate} :
    (perform w (.collect limit failing fate)).db.refs=w.db.refs := by
  cases fate with
  | aborted rounds => rfl
  | committed => exact collectAll_refs fun row hrow => (unreferenced_of_mem hpos hrow).2

theorem positive_of_refs (hpos : Positive db) (hrefs : db'.refs=db.refs) : Positive db' :=
  fun r hr => hpos r (hrefs ▸ hr)

theorem refCount_of_refs (hrefs : db'.refs=db.refs) : refCount db' t h=refCount db t h := by
  unfold refCount
  rw [hrefs]

theorem toNat_all {p q : Prop} [Decidable p] [Decidable q] (b : Bool) :
    (p && q && b).toNat=if p ∧ q ∧ b then 1 else 0 := by
  by_cases hall : p ∧ q ∧ b
  · rw [if_pos hall]
    simp [hall]
  · have hfalse : (p && q && b)=false := by simpa using hall
    rw [if_neg hall,hfalse]
    rfl

theorem records_ref : (records t h ⟨w,.recordTenantRef t' h' true,w'⟩).toNat =
    if t'=t ∧ h'=h ∧ (recordTenantRef w.db t h).isSome then 1 else 0 := toNat_all _

theorem removes_ref : (removes t h ⟨w,.removeTenantRef t' h' true,w'⟩).toNat =
    if t'=t ∧ h'=h ∧ (removeTenantRef w.db t h).2 then 1 else 0 := toNat_all _

theorem recordTenantRef_step (hpos : Positive w.db)
    (hst : Step w (.recordTenantRef t' h' true) w') :
    Positive w'.db ∧ ∀ t h, refCount w'.db t h=refCount w.db t h+
      if t'=t ∧ h'=h ∧ (recordTenantRef w.db t h).isSome then 1 else 0 := by
  obtain rfl := hst
  unfold perform
  dsimp only
  split
  · rename_i db hsome
    obtain ⟨hpos',-,hcount⟩ := recordTenantRef_some hpos hsome
    refine ⟨hpos',fun t h => ?_⟩
    rw [if_pos rfl,hcount]
    by_cases hkey : t'=t ∧ h'=h
    · have hfound : (recordTenantRef w.db t h).isSome := by rw [← hkey.1,← hkey.2,hsome]; rfl
      rw [if_pos hkey,if_pos ⟨hkey.1,hkey.2,hfound⟩]
    · rw [if_neg hkey,if_neg fun hall => hkey ⟨hall.1,hall.2.1⟩]
  · rename_i hnone
    refine ⟨hpos,fun t h => ?_⟩
    rw [if_neg]
    · rfl
    · rintro ⟨rfl,rfl,hfound⟩
      rw [hnone] at hfound
      cases hfound

theorem perform_recordBlob_refs {contentHash storagePath : Text} {committed : Bool} :
    (perform w (.recordBlob contentHash storagePath committed)).db.refs=w.db.refs := by
  show (if committed then recordBlob w.db contentHash storagePath else w.db).refs = _
  split_ifs
  · unfold recordBlob
    split
    · rfl
    · rfl
  · rfl

theorem removeTenantRef_step (hpos : Positive w.db)
    (hst : Step w (.removeTenantRef t' h' true) w') : Positive w'.db ∧ ∀ t h,
      (refCount w'.db t h+if t'=t ∧ h'=h ∧ (removeTenantRef w.db t h).2 then 1 else 0) =
        refCount w.db t h := by
  obtain rfl := hst
  obtain ⟨hpos',-,hcount⟩ := removeTenantRef_db t' h' hpos
  refine ⟨hpos',fun t h => ?_⟩
  have hafter := hcount t h
  have hfound := removeTenantRef_found (t := t) (h := h) hpos
  show refCount (removeTenantRef w.db t' h').1 t h+_=refCount w.db t h
  by_cases hkey : t'=t ∧ h'=h
  · rw [if_pos hkey] at hafter
    by_cases hlt : 0<refCount w.db t h
    · rw [if_pos ⟨hkey.1,hkey.2,hfound.2 hlt⟩]
      omega
    · rw [if_neg fun hall => hlt (hfound.1 hall.2.2)]
      omega
  · rw [if_neg hkey] at hafter
    rw [if_neg fun hall => hkey ⟨hall.1,hall.2.1⟩]
    omega

/-- The counters after a step, and what the step recorded and removed. -/
theorem refCount_step (hpos : Positive w.db) (hst : Step w l w') :
    Positive w'.db ∧ ∀ t h, refCount w'.db t h+(removes t h ⟨w,l,w'⟩).toNat =
      refCount w.db t h+(records t h ⟨w,l,w'⟩).toNat := by
  obtain rfl := hst
  cases l with
  | recordBlob contentHash storagePath committed =>
    have hrefs : (perform w (.recordBlob contentHash storagePath committed)).db.refs =
        w.db.refs := perform_recordBlob_refs
    exact ⟨positive_of_refs hpos hrefs,fun t h => by rw [refCount_of_refs hrefs]; rfl⟩
  | recordTenantRef t' h' committed =>
    cases committed with
    | false =>
      have hsame : perform w (.recordTenantRef t' h' false)=w := by
        unfold perform
        dsimp only
        split
        · rfl
        · rfl
      rw [hsame]
      exact ⟨hpos,fun t h => rfl⟩
    | true =>
      obtain ⟨hpos',hcount⟩ := @recordTenantRef_step w _ t' h' hpos rfl
      refine ⟨hpos',fun t h => ?_⟩
      rw [records_ref,hcount t h]
      rfl
  | removeTenantRef t' h' committed =>
    cases committed with
    | false => exact ⟨hpos,fun t h => rfl⟩
    | true =>
      obtain ⟨hpos',hcount⟩ := @removeTenantRef_step w _ t' h' hpos rfl
      refine ⟨hpos',fun t h => ?_⟩
      rw [removes_ref,hcount t h]
      rfl
  | collect limit failing fate =>
    have hrefs : (perform w (.collect limit failing fate)).db.refs=w.db.refs :=
      perform_collect_refs hpos
    exact ⟨positive_of_refs hpos hrefs,fun t h => by rw [refCount_of_refs hrefs]; rfl⟩

theorem refCount_run (hrun : Run Step {} tr w) : Positive w.db ∧ ∀ t h,
    refCount w.db t h+tr.countP (removes t h)=tr.countP (records t h) := by
  refine Run.invariant (C := fun _ => True) (I := fun tr w => Positive w.db ∧ ∀ t h,
    refCount w.db t h+tr.countP (removes t h)=tr.countP (records t h)) ?_ ?_ hrun
    (fun _ _ => trivial)
  · exact ⟨forall_mem_nil _,fun t h => rfl⟩
  · intro tr w l w' _ hi hst _
    obtain ⟨hpos,hcount⟩ := refCount_step hi.1 hst
    refine ⟨hpos,fun t h => ?_⟩
    have hbefore := hi.2 t h
    have hstep := hcount t h
    have hcountP : ∀ p : Event World Label → Bool,
        (⟨w,l,w'⟩::tr).countP p=tr.countP p+(p ⟨w,l,w'⟩).toNat := by
      intro p
      rw [countP_cons]
      cases p ⟨w,l,w'⟩
      · rfl
      · rfl
    rw [hcountP,hcountP]
    omega

theorem ref_present_iff (hpos : Positive db) :
    (db.refs.lookup (t,h)).isSome ↔ 0<refCount db t h := by
  unfold refCount
  cases hlookup : db.refs.lookup (t,h) with
  | none => simp
  | some c =>
    have hc := lookup_pos hpos hlookup
    exact ⟨fun _ => hc,fun _ => rfl⟩

def Deletes (failing : Text → Bool) (files : Finset Text) (row : Text × Text) : Prop :=
  row.2 ≠ [] ∧ failing row.2 = false ∧ row.2 ∈ files

/-- Blobs are recorded under paths of their own, and a collector that has deleted a file is not
aborted. -/
def Careful (e : Event World Label) : Prop :=
  match e.label with
  | .recordBlob contentHash storagePath _ =>
    ∀ b ∈ e.pre.db.blobs, b.2 = storagePath → storagePath ≠ [] → b.1 = contentHash
  | .collect limit failing (.aborted rounds) =>
    ∀ row ∈ (unreferencedBlobs e.pre.db limit).take rounds, ¬ Deletes failing e.pre.files row
  | _ => True

/-- Every blob has its file, and no two have the same. -/
structure Stored (w : World) : Prop where
  file : ∀ b ∈ w.db.blobs, b.2 ∈ w.files
  own : ∀ b ∈ w.db.blobs, ∀ b' ∈ w.db.blobs, b.2 = b'.2 → b'.2 ≠ [] → b.1 = b'.1

theorem Stored.of_blobs (hi : Stored w) (hblobs : w'.db.blobs ⊆ w.db.blobs)
    (hfiles : w.files ⊆ w'.files) : Stored w' :=
  ⟨fun b hb => hfiles (hi.file b (hblobs hb)),
    fun b hb b' hb' => hi.own b (hblobs hb) b' (hblobs hb')⟩

theorem Stored.of_eq (hi : Stored w) (hblobs : w'.db.blobs=w.db.blobs)
    (hfiles : w'.files=w.files) : Stored w' := by
  apply hi.of_blobs
  · rw [hblobs]
    exact List.Subset.refl _
  · rw [hfiles]

theorem deleteBlob_blobs {b : Text × Text} :
    b∈(deleteBlob db h).blobs ↔ b∈db.blobs ∧ b.1≠h := by
  simp [deleteBlob,Dict.remove]

/-- A round takes away a row together with the file that is its own. -/
theorem stored_collectBlob (failing : Text → Bool) {row : Text × Text} (hi : Stored w)
    (hown : ∀ b∈w.db.blobs, b.2=row.2 → row.2≠[] → b.1=row.1) :
    Stored (collectBlob failing w row) ∧ (collectBlob failing w row).db.blobs ⊆ w.db.blobs := by
  have hsubset : (deleteBlob w.db row.1).blobs ⊆ w.db.blobs :=
    fun b hb => (deleteBlob_blobs.1 hb).1
  unfold collectBlob
  split_ifs with hempty hfails
  · exact ⟨hi.of_blobs hsubset (Finset.Subset.refl _),hsubset⟩
  · exact ⟨hi,List.Subset.refl _⟩
  · refine ⟨⟨fun b hb => ?_,fun b hb b' hb' => hi.own b (hsubset hb) b' (hsubset hb')⟩,hsubset⟩
    obtain ⟨hmem,hne⟩ := deleteBlob_blobs.1 hb
    have hpath : b.2≠row.2 := fun heq => hne (hown b hmem heq hempty)
    exact Finset.mem_erase.2 ⟨hpath,hi.file b hmem⟩

theorem stored_collectAll (hi : Stored w)
    (hown : ∀ row∈rows, ∀ b∈w.db.blobs, b.2=row.2 → row.2≠[] → b.1=row.1) :
    Stored (collectAll failing w rows) := by
  induction rows generalizing w with
  | nil => exact hi
  | cons row rows ih =>
    obtain ⟨hstored,hsubset⟩ := stored_collectBlob failing hi (hown row mem_cons_self)
    apply ih hstored
    intro row' hrow' b hb
    exact hown row' (mem_cons_of_mem _ hrow') b (hsubset hb)

theorem files_collectAll (hrows : ∀ row∈rows, ¬ Deletes failing w.files row) :
    (collectAll failing w rows).files=w.files := by
  induction rows generalizing w with
  | nil => rfl
  | cons row rows ih =>
    have hrow : (collectBlob failing w row).files=w.files := by
      unfold collectBlob
      split_ifs with hempty hfails
      · rfl
      · rfl
      · apply Finset.erase_eq_of_notMem
        intro hmem
        exact hrows row mem_cons_self ⟨hempty,by simpa using hfails,hmem⟩
    have hrest := ih (w := collectBlob failing w row) ?_
    · exact hrest.trans hrow
    · rw [hrow]
      exact fun row' hrow' => hrows row' (mem_cons_of_mem _ hrow')

theorem stored_recordBlob (hi : Stored w)
    (hown : ∀ b∈w.db.blobs, b.2=path → path≠[] → b.1=h) :
    Stored ⟨recordBlob w.db h path,insert path w.files⟩ := by
  have hfiles : w.files ⊆ insert path w.files := Finset.subset_insert _ _
  unfold recordBlob
  split
  · exact hi.of_blobs (List.Subset.refl _) hfiles
  · constructor
    · intro b hb
      rcases Dict.mem_set hb with rfl | hold
      · exact Finset.mem_insert_self _ _
      · exact hfiles (hi.file b hold)
    · intro b hb b' hb' hpath hne
      rcases Dict.mem_set hb with rfl | hold
      · rcases Dict.mem_set hb' with rfl | hold'
        · rfl
        · have hpath' : path=b'.2 := hpath
          exact (hown b' hold' hpath'.symm (hpath' ▸ hne)).symm
      · rcases Dict.mem_set hb' with rfl | hold'
        · exact hown b hold hpath hne
        · exact hi.own b hold b' hold' hpath hne

theorem stored_recordTenantRef (hpos : Positive w.db) (hi : Stored w) (committed : Bool) :
    Stored (perform w (.recordTenantRef t h committed)) := by
  unfold perform
  dsimp only
  split
  · rename_i db hsome
    split_ifs
    · exact hi.of_eq (recordTenantRef_some hpos hsome).2.1 rfl
    · exact hi
  · exact hi

theorem stored_removeTenantRef (hpos : Positive w.db) (hi : Stored w) (committed : Bool) :
    Stored (perform w (.removeTenantRef t h committed)) := by
  unfold perform
  dsimp only
  split_ifs
  · exact hi.of_eq (removeTenantRef_db t h hpos).2.1 rfl
  · exact hi

theorem stored_step (hpos : Positive w.db) (hi : Stored w) (hst : Step w l w')
    (hcareful : Careful ⟨w,l,w'⟩) : Stored w' := by
  obtain rfl := hst
  cases l with
  | recordBlob h path committed =>
    cases committed with
    | true => exact stored_recordBlob hi hcareful
    | false => exact hi.of_blobs (List.Subset.refl _) (Finset.subset_insert path w.files)
  | recordTenantRef t h committed => exact stored_recordTenantRef hpos hi committed
  | removeTenantRef t h committed => exact stored_removeTenantRef hpos hi committed
  | collect limit failing fate =>
    cases fate with
    | committed =>
      apply stored_collectAll hi
      intro row hrow b hb hpath hne
      exact hi.own b hb row (unreferenced_of_mem hpos hrow).1 hpath hne
    | aborted rounds => exact hi.of_eq rfl (files_collectAll hcareful)

/-- Counters are right in every run. Where blobs have paths of their own and no collector is
aborted that has deleted a file, blobs that are referenced have their files. -/
theorem referenced_blobs_keep_files (hrun : Run Step {} tr w) :
    (∀ t h, refCount w.db t h+tr.countP (removes t h) = tr.countP (records t h) ∧
      ((w.db.refs.lookup (t,h)).isSome ↔ tr.countP (removes t h) < tr.countP (records t h))) ∧
    ((∀ e ∈ tr, Careful e) → ∀ t h path, (h,path) ∈ w.db.blobs →
      (w.db.refs.lookup (t,h)).isSome → path ∈ w.files) := by
  obtain ⟨hpos,hcount⟩ := refCount_run hrun
  refine ⟨fun t h => ⟨hcount t h,?_⟩,fun hcareful t h path hblob _ => ?_⟩
  · have hrun := hcount t h
    rw [ref_present_iff hpos]
    omega
  · have hstored := Run.throughout (I := fun w => Positive w.db ∧ Stored w) ?_ ?_ hrun hcareful
    · exact hstored.2.2.file (h,path) hblob
    · exact ⟨forall_mem_nil _,forall_mem_nil _,forall_mem_nil _⟩
    · intro w l w' hi hst hc
      exact ⟨(refCount_step hi.1 hst).1,stored_step hi.1 hi.2 hst hc⟩

def sampleHash : Text := ['h']

def samplePath : Text := ['f']

def sampleTenant : Text := ['t']

def sampleBlob : World := perform {} (.recordBlob sampleHash samplePath true)

def sampleRef : Label := .recordTenantRef sampleTenant sampleHash true

def sampleCollected (fate : Fate) : Label := .collect 100 (fun _ => false) fate

/-- A reference keeps the file from the collector. -/
theorem collected_after_ref : samplePath ∈
    (perform (perform sampleBlob sampleRef) (sampleCollected .committed)).files := by
  have hrun : Run Step {} _ (perform (perform sampleBlob sampleRef) (sampleCollected .committed)) :=
    ((Run.nil.snoc (l := .recordBlob sampleHash samplePath true) rfl).snoc
      (l := sampleRef) rfl).snoc (l := sampleCollected .committed) rfl
  refine (referenced_blobs_keep_files hrun).2 ?_ sampleTenant sampleHash samplePath
    (by decide) (by decide)
  simp only [forall_mem_cons]
  exact ⟨trivial,trivial,forall_mem_nil _,forall_mem_nil _⟩

/-- The collector deletes the file and is aborted; the blob is referenced afterwards. -/
theorem aborted_collector_loses_file : ∃ tr w, Run Step {} tr w ∧
    (sampleHash,samplePath) ∈ w.db.blobs ∧ (w.db.refs.lookup (sampleTenant,sampleHash)).isSome ∧
      samplePath ∉ w.files := by
  have hrun : Run Step {} _
      (perform (perform sampleBlob (sampleCollected (.aborted 1))) sampleRef) :=
    ((Run.nil.snoc (l := .recordBlob sampleHash samplePath true) rfl).snoc
      (l := sampleCollected (.aborted 1)) rfl).snoc (l := sampleRef) rfl
  refine ⟨_,_,hrun,?_,?_,?_⟩
  · decide
  · decide
  · decide

end Harpocrates.Backend.EvidenceBlobs
