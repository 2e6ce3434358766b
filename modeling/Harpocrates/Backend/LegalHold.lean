import Harpocrates.Backend.System

namespace Harpocrates.Backend

open Framework Framework.Python Rows List

def dueBefore (t : ProofEvents) (now : Int) (i : Nat) : Nat :=
  t.entries.countP fun e => e.2.expired now && e.1 < i

variable {t : ProofEvents}

/-- A purge deletes the rows that are due and that come soon enough. -/
theorem purged_iff {i : Nat} {e : ProofEvent} (he : (i,e)∈t) (now batchSize : Int) :
    (i,e)∉(purgeExpiredEvents t now batchSize).1 ↔
      e.expired now=true ∧ dueBefore t now i<purgeSize batchSize := by
  have hdeleted : (i,e)∉(purgeExpiredEvents t now batchSize).1 ↔
      (i,e)∈expiredBatch t now batchSize := by
    simp only [purgeExpiredEvents,mem_delete,not_and,not_not,mem_map]
    constructor
    · intro h
      obtain ⟨⟨i',e'⟩,hbatch,rfl⟩ := h he
      have hmem : (i',e')∈t := (mem_filter.1 (mem_of_mem_take hbatch)).1
      rwa [← row_unique he hmem] at hbatch
    · exact fun h _ => ⟨(i,e),h,rfl⟩
  rw [hdeleted]
  constructor
  · intro h
    have hfilter := mem_of_mem_take h
    have hcount := (mem_take_iff (t.ordered.filter _) hfilter).1 h
    refine ⟨by simpa using (mem_filter.1 hfilter).2,?_⟩
    rw [filter_filter,← countP_eq_length_filter] at hcount
    simpa only [dueBefore,Bool.and_comm] using hcount
  · rintro ⟨hexpired,hcount⟩
    have hfilter : (i,e)∈t.entries.filter fun e => e.2.expired now :=
      mem_filter.2 ⟨he,hexpired⟩
    refine (mem_take_iff (t.ordered.filter _) hfilter).2 ?_
    rw [filter_filter,← countP_eq_length_filter]
    simpa only [dueBefore,Bool.and_comm] using hcount

section

variable {service : Service} {w w' : World} {tr : Trace} {proofId : Text} {n : Nat}

/-- The rows of a proof that are on hold are those numbered below `n`. -/
def HeldBelow (proofId : Text) (n : Nat) (w : World) : Prop :=
  n ≤ w.events.next ∧ ∀ i e, (i,e) ∈ w.events → e.proofId = some proofId →
    (e.legalHold = true ↔ i < n)

theorem heldBelow_setLegalHold (w : World) :
    HeldBelow proofId w.events.next (next service w (.setLegalHold proofId true)) := by
  refine ⟨Nat.le_refl _,fun i e he hproof => ?_⟩
  obtain ⟨e',he',rfl⟩ := mem_update.1 he
  have hproof' : e'.proofId=some proofId :=
    (ProofEvent.rewritten_hold proofId true e').proofId.symm.trans hproof
  simp [ProofEvent.hold,hproof',lt_next he']

theorem HeldBelow.step {label : Label} (h : HeldBelow proofId n w)
    (hst : Backend.step service w label w')
    (hlabel : ∀ hold, label≠.setLegalHold proofId hold) : HeldBelow proofId n w' := by
  obtain ⟨hn,hheld⟩ := h
  have hwrite := step_write hst
  refine ⟨Nat.le_trans hn hwrite.next_le,fun i e he hproof => ?_⟩
  rcases hwrite.shape with hsame | ⟨row,hfree,hadded⟩ | ⟨f,hf,hkeep,hset⟩ |
    ⟨now,batchSize,-,hpurged⟩
  · rw [hsame] at he
    exact hheld i e he hproof
  · rw [hadded] at he
    rcases mem_insert.1 he with he | ⟨rfl,rfl⟩
    · exact hheld i e he hproof
    · simp only [hfree,Bool.false_eq_true,false_iff]
      omega
  · rw [hset] at he
    obtain ⟨e',he',rfl⟩ := mem_update.1 he
    have hproof' : e'.proofId=some proofId := (hf e').proofId.symm.trans hproof
    rcases hkeep e' with hsame | ⟨other,hold,hother,hmine⟩
    · rw [hsame]
      exact hheld i e' he' hproof'
    · obtain rfl : other=proofId := Option.some.inj (hmine.symm.trans hproof')
      exact absurd hother (hlabel hold)
  · rw [hpurged] at he
    exact hheld i e (mem_delete.1 he).1 hproof

theorem HeldBelow.run (h : HeldBelow proofId n w) (hr : Run (Backend.step service) w tr w')
    (htr : ∀ ev∈tr, ∀ hold, ev.label≠.setLegalHold proofId hold) : HeldBelow proofId n w' := by
  induction hr with
  | nil => exact h
  | snoc _ hst ih =>
    exact (ih fun ev hev => htr ev (mem_cons_of_mem _ hev)).step hst
      (htr _ mem_cons_self)

end

/-- While a proof is on hold, a purge deletes exactly those of its rows that were stored after the
hold was placed, are expired and come early enough in the batch. -/
theorem held_proof_purged_iff {service : Service} {w : World} {tr₁ tr₂ : Trace}
    {ev : Event World Label} (hr : Run (step service) World.empty (tr₂++ev::tr₁) w)
    {proofId : Text} (hhold : ev.label = .setLegalHold proofId true)
    (hlast : ∀ ev' ∈ tr₂, ∀ hold, ev'.label ≠ .setLegalHold proofId hold) {i : Nat}
    {e : ProofEvent} (he : (i,e) ∈ w.events) (hproof : e.proofId = some proofId)
    (now batchSize : Int) :
    (i,e) ∉ (next service w (.purge now batchSize)).events ↔
      ev.pre.events.next ≤ i ∧ (∃ expiresAt, e.expiresAt = some expiresAt ∧ expiresAt ≤ now) ∧
        dueBefore w.events now i < purgeSize batchSize := by
  obtain ⟨-,hst,hrest⟩ := hr.split
  have hheld : HeldBelow proofId ev.pre.events.next ev.post := by
    rw [← hst,hhold]
    exact heldBelow_setLegalHold ev.pre
  have hrow := (hheld.run hrest hlast).2 i e he hproof
  change (i,e)∉(purgeExpiredEvents w.events now batchSize).1 ↔ _
  rw [purged_iff he,← and_assoc]
  refine and_congr_left fun _ => ?_
  have hfree : e.legalHold=false ↔ ev.pre.events.next ≤ i := by
    rw [← Bool.not_eq_true,hrow,Nat.not_lt]
  unfold ProofEvent.expired
  cases hexpires : e.expiresAt with
  | none => simp
  | some expiresAt => simp [hfree,and_comm]

structure RetentionWorker where
  batchSize : Int
  positive : 1 ≤ batchSize
  dryRun : Bool := false

theorem purgeExpiredEvents_shrinks {now batchSize : Int}
    (h : (purgeExpiredEvents t now batchSize).2≠[]) :
    (purgeExpiredEvents t now batchSize).1.entries.length<t.entries.length := by
  obtain ⟨e,he⟩ : ∃ e, e∈expiredBatch t now batchSize := by
    refine exists_mem_of_ne_nil _ fun hnil => h ?_
    simp [purgeExpiredEvents,hnil]
  refine length_filter_lt_length_iff_exists.2 ⟨e,?_,?_⟩
  · exact (mem_filter.1 (mem_of_mem_take he)).1
  · simp only [decide_not,Bool.not_eq_true',decide_eq_false_iff_not,not_not]
    exact mem_map.2 ⟨e,he,rfl⟩

/-- The rounds of a pass, each at its own time, until a round is not full. -/
def RetentionWorker.rounds (worker : RetentionWorker) (clock : Nat → Int) (round : Nat)
    (t : ProofEvents) : ProofEvents :=
  if h : (purgeExpiredEvents t (clock round) worker.batchSize).2.length < worker.batchSize then
    (purgeExpiredEvents t (clock round) worker.batchSize).1
  else
    worker.rounds clock (round+1) (purgeExpiredEvents t (clock round) worker.batchSize).1
  termination_by t.entries.length
  decreasing_by
    refine purgeExpiredEvents_shrinks fun hnil => h ?_
    rw [hnil]
    have hpositive := worker.positive
    simp
    omega

def RetentionWorker.purge (worker : RetentionWorker) (clock : Nat → Int) (t : ProofEvents) :
    ProofEvents :=
  if worker.dryRun then t else worker.rounds clock 0 t

def heldProof : Text := List.replicate 64 'a'

def mediaEvent : MediaEvent where
  extracted := false
  videoHash := List.replicate 64 'b'
  proofId := some heldProof
  expiresAt := some 10

def mediaRow : ProofEvent := { mediaEvent.fields with }

def firstWorld : World := next openService World.empty (.record mediaEvent)
def heldWorld : World := next openService firstWorld (.setLegalHold heldProof true)
def lateWorld : World := next openService heldWorld (.record mediaEvent)

def holdEvent : Event World Label := ⟨firstWorld,.setLegalHold heldProof true,heldWorld⟩
def lateEvent : Event World Label := ⟨heldWorld,.record mediaEvent,lateWorld⟩

theorem lateWorld_run : Run (step openService) World.empty
    ([lateEvent]++holdEvent::[⟨World.empty,.record mediaEvent,firstWorld⟩]) lateWorld :=
  ((Run.nil.snoc rfl).snoc rfl).snoc rfl

theorem lateEvent_no_hold :
    ∀ ev∈[lateEvent],∀ hold, ev.label≠.setLegalHold heldProof hold := by
  intro ev hev hold
  obtain rfl := mem_singleton.1 hev
  exact nofun

theorem lateWorld_rows :
    (0,{ mediaRow with legalHold := true })∈lateWorld.events ∧ (1,mediaRow)∈lateWorld.events ∧
      (1,mediaRow)∉(next openService lateWorld (.purge 10 100)).events := by
  decide +kernel

theorem held_proof_purged_early :
    (0,{ mediaRow with legalHold := true }) ∈ lateWorld.events ∧
      (0,{ mediaRow with legalHold := true }) ∈
        (next openService lateWorld (.purge 10 100)).events :=
  ⟨lateWorld_rows.1,not_not.1 fun h => absurd ((held_proof_purged_iff lateWorld_run rfl
    lateEvent_no_hold lateWorld_rows.1 rfl 10 100).1 h).1 (by decide)⟩

/-- A row of a proof on hold is purged, because it was stored after the hold was placed. -/
theorem held_proof_purged_late :
    ∃ tr₁ ev tr₂ w e, Run (step openService) World.empty (tr₂++ev::tr₁) w ∧
      ev.label = .setLegalHold heldProof true ∧
      (∀ ev' ∈ tr₂, ∀ hold, ev'.label ≠ .setLegalHold heldProof hold) ∧
      e.proofId = some heldProof ∧ (1,e) ∈ w.events ∧
      (1,e) ∉ (next openService w (.purge 10 100)).events :=
  ⟨_,_,_,_,mediaRow,lateWorld_run,rfl,lateEvent_no_hold,rfl,lateWorld_rows.2⟩

theorem purged_entries (t : ProofEvents) (now batchSize : Int) :
    (purgeExpiredEvents t now batchSize).1.entries=t.entries.filter fun e =>
      !(e.2.expired now && dueBefore t now e.1 < purgeSize batchSize) := by
  refine filter_congr fun e he => ?_
  have hpurged := purged_iff (i := e.1) (e := e.2) he now batchSize
  have hmem : (e.1,e.2)∈t := he
  rw [purgeExpiredEvents,mem_delete,and_iff_right hmem] at hpurged
  rw [Bool.eq_iff_iff,decide_eq_true_iff,Bool.not_eq_true',← Bool.not_eq_true,← not_iff_not]
  simpa using hpurged

theorem ProofEvent.expired_later {e : ProofEvent} {now later : Int} (hle : now≤later)
    (h : e.expired now=true) : e.expired later=true := by
  unfold ProofEvent.expired at h ⊢
  cases hexpires : e.expiresAt with
  | none => simp [hexpires] at h
  | some expiresAt =>
    simp only [hexpires,Bool.and_eq_true,decide_eq_true_eq] at h ⊢
    exact ⟨h.1.trans hle,h.2⟩

theorem RetentionWorker.rounds_exact (worker : RetentionWorker)
    (hsize : worker.batchSize≤RETENTION_BATCH_MAX_SIZE) {clock : Nat → Int}
    (hclock : Monotone clock) (round : Nat) (t : ProofEvents) :
    ∃ last, round≤last ∧ (worker.rounds clock round t).entries =
      t.entries.filter (!·.2.expired (clock last)) := by
  induction round,t using RetentionWorker.rounds.induct worker clock with
  | case1 round t h =>
    rw [RetentionWorker.rounds,dif_pos h,purged_entries]
    refine ⟨round,le_refl _,filter_congr fun e _ => ?_⟩
    -- A round that is not full has deleted every row that was due.
    have hcount : dueBefore t (clock round) e.1 ≤
        (t.entries.filter (·.2.expired (clock round))).length := by
      rw [← countP_eq_length_filter]
      exact countP_mono_left fun x _ hx => (Bool.and_eq_true_iff.1 hx).1
    have hdue : dueBefore t (clock round) e.1<purgeSize worker.batchSize := by
      have hpositive := worker.positive
      simp only [purgeExpiredEvents,expiredBatch,length_map,length_take] at h
      simp only [purgeSize,RETENTION_BATCH_MAX_SIZE] at h hsize ⊢
      omega
    simp [hdue]
  | case2 round t h ih =>
    rw [RetentionWorker.rounds,dif_neg h]
    obtain ⟨last,hlast,ih⟩ := ih
    refine ⟨last,by omega,?_⟩
    rw [ih,purged_entries,filter_filter]
    refine filter_congr fun e _ => ?_
    cases hexpired : e.2.expired (clock round) with
    | false => simp
    | true => simp [ProofEvent.expired_later (hclock (by omega : round≤last)) hexpired]

end Harpocrates.Backend
