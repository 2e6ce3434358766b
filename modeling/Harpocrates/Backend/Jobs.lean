import Harpocrates.Framework.Python
import Harpocrates.Framework.Rows
import Harpocrates.Framework.Run

namespace Harpocrates.Backend.Jobs

open Framework Framework.Python Rows List Nat

/-! The queue of jobs in memory, the API that fills it and the threads that work it off. Payloads,
progress, heartbeats and times change neither the status of a job nor its result. -/

inductive JobStatus
  | pending | running | completed | failed | cancelled
  deriving DecidableEq

def JobStatus.final : JobStatus → Prop
  | completed => True
  | failed => True
  | cancelled => True
  | _ => False

structure Job (β : Type) where
  jobType : Text
  status : JobStatus := .pending
  result : Option β := none
  error : Option Text := none
  workerId : Option Text := none

variable {β : Type}

abbrev JobTable (β : Type) := Rows (Job β)

def JobTable.empty : JobTable β := ⟨[],1,List.Pairwise.nil,List.forall_mem_nil _⟩

def enqueueJob (jobs : JobTable β) (jobType : Text) : JobTable β := jobs.insert { jobType }

def cancelJob (jobs : JobTable β) (id : Nat) : JobTable β × Bool :=
  match jobs.row id with
  | none => (jobs,false)
  | some job =>
    if job.status = .pending then
      (jobs.modify id fun job => { job with status := .cancelled },true)
    else (jobs,false)

/-- The number of the next pending job of one of the types, which is running then. -/
def leaseJob (jobs : JobTable β) (workerId : Text) (jobTypes : List Text) :
    JobTable β × Option Nat :=
  match jobs.entries.find? fun e => e.2.status = .pending && jobTypes.contains e.2.jobType with
  | none => (jobs,none)
  | some (id,_) =>
    (jobs.modify id fun job => { job with status := .running, workerId := some workerId },some id)

def completeJob (jobs : JobTable β) (id : Nat) (result : β) : JobTable β :=
  jobs.modify id fun job => { job with status := .completed, result := some result }

def failJob (jobs : JobTable β) (id : Nat) (error : Text) (isFatal : Bool) : JobTable β :=
  jobs.modify id fun job =>
    if isFatal then { job with error := some error, status := .failed }
    else { job with error := some error, status := .pending, workerId := none }

inductive Stage
  | running
  /-- It has completed or failed the job and waits for its heartbeat to stop. -/
  | reported
  | ended
  deriving DecidableEq

/-- A thread that works on a job, one for each lease. `released` says that the worker's loop has
given the job back. -/
structure WorkThread where
  jobId : Nat
  stage : Stage := .running
  released : Bool := false
  deriving DecidableEq

structure World (β : Type) where
  jobs : JobTable β
  threads : Rows WorkThread

def World.start : World β := ⟨JobTable.empty,Rows.empty⟩

def World.move (w : World β) (n : Nat) (thread : WorkThread) : World β :=
  { w with threads := w.threads.modify n fun _ => thread }

inductive Label (β : Type)
  | enqueue (jobType : Text)
  | cancel (id : Nat)
  | lease (workerId : Text) (jobTypes : List Text)
  | complete (n : Nat) (result : β)
  | fail (n : Nat) (error : Text) (isFatal : Bool)
  | finish (n : Nat)
  | release (n : Nat)

def releaseError : Text := "Worker shutdown grace period exceeded".toList

inductive Step : World β → Label β → World β → Prop
  | enqueue {w : World β} {jobType : Text} :
      Step w (.enqueue jobType) { w with jobs := enqueueJob w.jobs jobType }
  | cancel {w : World β} {id : Nat} :
      Step w (.cancel id) { w with jobs := (cancelJob w.jobs id).1 }
  | lease {w : World β} {workerId : Text} {jobTypes : List Text} {jobs : JobTable β} {id : Nat} :
      leaseJob w.jobs workerId jobTypes = (jobs,some id) →
      Step w (.lease workerId jobTypes) ⟨jobs,w.threads.insert { jobId := id }⟩
  | complete {w : World β} {n : Nat} {thread : WorkThread} {result : β} :
      (n,thread) ∈ w.threads → thread.stage = .running →
      Step w (.complete n result) ({ w with jobs := completeJob w.jobs thread.jobId result }.move n
        { thread with stage := .reported })
  | fail {w : World β} {n : Nat} {thread : WorkThread} {error : Text} {isFatal : Bool} :
      (n,thread) ∈ w.threads → thread.stage = .running →
      Step w (.fail n error isFatal)
        ({ w with jobs := failJob w.jobs thread.jobId error isFatal }.move n
          { thread with stage := .reported })
  | finish {w : World β} {n : Nat} {thread : WorkThread} :
      (n,thread) ∈ w.threads → thread.stage = .reported →
      Step w (.finish n) (w.move n { thread with stage := .ended })
  -- The thread is alive when the grace period is over, and may go on.
  | release {w : World β} {n : Nat} {thread : WorkThread} :
      (n,thread) ∈ w.threads → thread.stage ≠ .ended → thread.released = false →
      Step w (.release n) ({ w with jobs := failJob w.jobs thread.jobId releaseError false }.move n
        { thread with released := true })

/-- The job is running, and no later thread was started for it. -/
def HoldsLease (w : World β) (n id : Nat) : Prop :=
  (∃ thread, (n,thread) ∈ w.threads ∧ thread.jobId = id) ∧
    (∀ m thread, (m,thread) ∈ w.threads → thread.jobId = id → m ≤ n) ∧
      ∃ job, (id,job) ∈ w.jobs ∧ job.status = .running

/-- A thread ends its lease once: it does not report on a job that was released, and what it has
reported on is not released. -/
def EndsOnce (e : Event (World β) (Label β)) : Prop :=
  ∀ n thread, (n,thread) ∈ e.pre.threads →
    match e.label with
    | .complete m _ => m = n → thread.released = false
    | .fail m _ _ => m = n → thread.released = false
    | .release m => m = n → thread.stage = .running
    | _ => True

def WorkThread.Active (thread : WorkThread) : Prop :=
  thread.stage = .running ∧ thread.released = false

/-- The threads that have not ended their lease hold it. -/
structure Exclusive (w : World β) : Prop where
  holds : ∀ n thread, (n,thread) ∈ w.threads → thread.Active → HoldsLease w n thread.jobId
  known : ∀ n thread, (n,thread) ∈ w.threads → thread.jobId < w.jobs.next

variable {w w' : World β} {l : Label β} {n m id : Nat} {thread moved : WorkThread} {job : Job β}
  {f : Job β → Job β}

theorem HoldsLease.frame (h : HoldsLease w n id)
    (hself : ∃ thread, (n,thread)∈w'.threads ∧ thread.jobId=id)
    (hthreads : ∀ m thread, (m,thread)∈w'.threads → thread.jobId=id →
      ∃ old, (m,old)∈w.threads ∧ old.jobId=id)
    (hjobs : ∀ job, (id,job)∈w.jobs → (id,job)∈w'.jobs) : HoldsLease w' n id := by
  obtain ⟨-,hlatest,job,hjob,hrunning⟩ := h
  refine ⟨hself,fun m thread hmem hid => ?_,job,hjobs job hjob,hrunning⟩
  obtain ⟨old,hold,hid'⟩ := hthreads m thread hmem hid
  exact hlatest m old hold hid'

theorem HoldsLease.unique (h : HoldsLease w n id) (h' : HoldsLease w m id) : n=m := by
  obtain ⟨⟨thread,hmem,hid⟩,hlatest,-⟩ := h
  obtain ⟨⟨thread',hmem',hid'⟩,hlatest',-⟩ := h'
  have hle := hlatest m thread' hmem' hid'
  have hge := hlatest' n thread hmem hid
  omega

theorem HoldsLease.running (h : HoldsLease w n id) (hjob : (id,job)∈w.jobs) :
    job.status=.running := by
  obtain ⟨-,-,job',hjob',hrunning⟩ := h
  rw [row_unique hjob hjob']
  exact hrunning

variable {jobs : JobTable β}

theorem mem_modify_of_ne (hne : id≠n) (h : (id,job)∈jobs) :
    (id,job)∈jobs.modify n f := mem_modify.2 ⟨job,h,if_neg hne⟩

theorem moved_threads (hmem : (n,thread)∈w.threads) (hsame : moved.jobId=thread.jobId) :
    (∀ m old, (m,old)∈w.threads →
      ∃ new, (m,new)∈(w.move n moved).threads ∧ new.jobId=old.jobId) ∧
    ∀ m new, (m,new)∈(w.move n moved).threads →
      ∃ old, (m,old)∈w.threads ∧ old.jobId=new.jobId ∧ (m≠n → old=new) := by
  constructor
  · intro m old hold
    by_cases hm : m=n
    · subst hm
      have hrow := row_unique hold hmem
      exact ⟨moved,(mem_modify_const hmem).2 (.inl ⟨rfl,rfl⟩),by rw [hsame,hrow]⟩
    · exact ⟨old,(mem_modify_const hmem).2 (.inr ⟨hm,hold⟩),rfl⟩
  · intro m new hnew
    rcases (mem_modify_const hmem).1 hnew with ⟨rfl,rfl⟩ | ⟨hm,hold⟩
    · exact ⟨thread,hmem,hsame.symm,fun hne => absurd rfl hne⟩
    · exact ⟨new,hold,rfl,fun _ => rfl⟩

/-- A step by which a thread leaves its lease, or stays without one. -/
theorem exclusive_move (hi : Exclusive w) (hmem : (n,thread)∈w.threads)
    (hsame : moved.jobId=thread.jobId) (hmoved : ¬ moved.Active)
    (hnext : jobs.next=w.jobs.next)
    (hjobs : ∀ m id, m≠n → HoldsLease w m id → ∀ job, (id,job)∈w.jobs → (id,job)∈jobs) :
    Exclusive ({ w with jobs }.move n moved) := by
  obtain ⟨hto,hfrom⟩ := moved_threads (w := { w with jobs }) hmem hsame
  constructor
  · intro m new hnew hactive
    have hm : m≠n := by
      rintro rfl
      have hrow : new=moved := by
        rcases (mem_modify_const hmem).1 hnew with ⟨-,heq⟩ | ⟨hne,-⟩
        · exact heq
        · exact absurd rfl hne
      exact hmoved (hrow ▸ hactive)
    obtain ⟨old,hold,-,heq⟩ := hfrom m new hnew
    obtain rfl := heq hm
    have hholds := hi.holds m old hold hactive
    refine hholds.frame ⟨old,hnew,rfl⟩ (fun m' new' hnew' hid => ?_) (hjobs m _ hm hholds)
    obtain ⟨old',hold',hid',-⟩ := hfrom m' new' hnew'
    exact ⟨old',hold',hid'.trans hid⟩
  · intro m new hnew
    obtain ⟨old,hold,hid,-⟩ := hfrom m new hnew
    show new.jobId<jobs.next
    rw [hnext,← hid]
    exact hi.known m old hold

theorem exclusive_end (hi : Exclusive w) (hmem : (n,thread)∈w.threads) (hactive : thread.Active)
    (hsame : moved.jobId=thread.jobId) (hmoved : ¬ moved.Active) :
    Exclusive ({ w with jobs := w.jobs.modify thread.jobId f }.move n moved) := by
  apply exclusive_move hi hmem hsame hmoved
  · rfl
  · intro m id hm hholds job hjob
    apply mem_modify_of_ne _ hjob
    rintro rfl
    exact hm (hholds.unique (hi.holds n thread hmem hactive))

theorem leaseJob_some {workerId : Text} {jobTypes : List Text}
    (h : leaseJob w.jobs workerId jobTypes=(jobs,some id)) :
    (∃ job, (id,job)∈w.jobs ∧ job.status=.pending) ∧ jobs=w.jobs.modify id
      fun job => { job with status := .running, workerId := some workerId } := by
  unfold leaseJob at h
  split at h
  · cases h
  · rename_i id' job hfind
    obtain ⟨rfl,hid⟩ := Prod.mk.inj h
    cases hid
    have hpending := List.find?_some hfind
    simp only [Bool.and_eq_true,decide_eq_true_eq] at hpending
    exact ⟨⟨job,mem_of_find?_eq_some hfind,hpending.1⟩,rfl⟩

theorem cancelJob_eq : (cancelJob w.jobs id).1=w.jobs ∨
    (∃ job, (id,job)∈w.jobs ∧ job.status=.pending) ∧
      (cancelJob w.jobs id).1=w.jobs.modify id fun job => { job with status := .cancelled } := by
  unfold cancelJob
  split
  · exact .inl rfl
  · rename_i job hrow
    split_ifs with hpending
    · exact .inr ⟨⟨job,row_eq_some.1 hrow,hpending⟩,rfl⟩
    · exact .inl rfl

theorem HoldsLease.ne_pending {id' : Nat} (h : HoldsLease w n id')
    (hpending : ∃ job, (id,job)∈w.jobs ∧ job.status=.pending) : id'≠id := by
  rintro rfl
  obtain ⟨job,hjob,hstatus⟩ := hpending
  rw [h.running hjob] at hstatus
  cases hstatus

theorem exclusive_jobs (hi : Exclusive w) (hnext : w.jobs.next≤jobs.next)
    (hjobs : ∀ m id, HoldsLease w m id → ∀ job, (id,job)∈w.jobs → (id,job)∈jobs) :
    Exclusive { w with jobs } := by
  constructor
  · intro m thread hmem hactive
    have hholds := hi.holds m thread hmem hactive
    exact hholds.frame ⟨thread,hmem,rfl⟩ (fun m' thread' hmem' hid => ⟨thread',hmem',hid⟩)
      (hjobs m _ hholds)
  · intro m thread hmem
    exact (hi.known m thread hmem).trans_le hnext

theorem exclusive_lease (hi : Exclusive w) {workerId : Text} {jobTypes : List Text}
    (h : leaseJob w.jobs workerId jobTypes=(jobs,some id)) :
    Exclusive (⟨jobs,w.threads.insert { jobId := id }⟩ : World β) := by
  obtain ⟨hpending,rfl⟩ := leaseJob_some h
  have hleased := hpending
  obtain ⟨job,hjob,-⟩ := hleased
  constructor
  · intro m thread hmem hactive
    rcases mem_insert.1 hmem with hold | ⟨rfl,rfl⟩
    · have hholds := hi.holds m thread hold hactive
      have hne := hholds.ne_pending hpending
      refine hholds.frame ⟨thread,hmem,rfl⟩ (fun m' thread' hmem' hid => ?_)
        (fun job hjob => mem_modify_of_ne hne hjob)
      rcases mem_insert.1 hmem' with hold' | ⟨-,rfl⟩
      · exact ⟨thread',hold',hid⟩
      · exact absurd hid.symm hne
    · refine ⟨⟨_,hmem,rfl⟩,fun m' thread' hmem' _ => ?_,_,mem_modify.2 ⟨job,hjob,rfl⟩,?_⟩
      · rcases mem_insert.1 hmem' with hold' | ⟨rfl,-⟩
        · exact le_of_lt (lt_next hold')
        · exact le_refl _
      · simp
  · intro m thread hmem
    show thread.jobId<w.jobs.next
    rcases mem_insert.1 hmem with hold | ⟨-,rfl⟩
    · exact hi.known m thread hold
    · exact lt_next hjob

theorem exclusive_step (hi : Exclusive w) (hst : Step w l w') (hc : EndsOnce ⟨w,l,w'⟩) :
    Exclusive w' := by
  cases hst with
  | enqueue =>
    apply exclusive_jobs hi
    · exact le_succ _
    · exact fun m id hholds job hjob => mem_insert.2 (.inl hjob)
  | cancel =>
    rcases cancelJob_eq (w := w) with heq | ⟨hpending,heq⟩
    · rw [heq]
      exact hi
    · rw [heq]
      apply exclusive_jobs hi
      · exact le_refl _
      · exact fun m id hholds job hjob => mem_modify_of_ne (hholds.ne_pending hpending) hjob
  | lease hlease => exact exclusive_lease hi hlease
  | complete hmem hstage =>
    have hactive : WorkThread.Active _ := ⟨hstage,hc _ _ hmem rfl⟩
    exact exclusive_end hi hmem hactive rfl fun h => Stage.noConfusion h.1
  | fail hmem hstage =>
    have hactive : WorkThread.Active _ := ⟨hstage,hc _ _ hmem rfl⟩
    exact exclusive_end hi hmem hactive rfl fun h => Stage.noConfusion h.1
  | @finish n thread hmem hstage =>
    have hsame : { thread with stage := .ended }.jobId=thread.jobId := rfl
    exact exclusive_move hi hmem hsame (fun h => Stage.noConfusion h.1) rfl
      fun _ _ _ _ _ hjob => hjob
  | release hmem halive hreleased =>
    have hactive : WorkThread.Active _ := ⟨hc _ _ hmem rfl,hreleased⟩
    exact exclusive_end hi hmem hactive rfl fun h => Bool.noConfusion h.2

/-- What becomes of a job: it is in the queue before, or is worked on by the thread that holds its
lease, which alone gives it a result. -/
inductive Change (w : World β) (l : Label β) (id : Nat) : Job β → Job β → Prop
  | kept {job : Job β} : Change w l id job job
  | queued {job job' : Job β} : job.status = .pending → job'.result = job.result →
      Change w l id job job'
  | worked {job job' : Job β} {n : Nat} : HoldsLease w n id → job.status = .running →
      (job'.result = job.result ∨ ∃ result, l = .complete n result ∧ job'.result = some result) →
      Change w l id job job'

theorem change_modify {id' : Nat} (hjob : (id,job)∈w.jobs)
    (h : id=id' → Change w l id job (f job)) :
    ∃ job', (id,job')∈w.jobs.modify id' f ∧ Change w l id job job' := by
  refine ⟨_,mem_modify.2 ⟨job,hjob,rfl⟩,?_⟩
  split_ifs with hid
  · exact h hid
  · exact .kept

theorem step_change (hi : Exclusive w) (hst : Step w l w') (hc : EndsOnce ⟨w,l,w'⟩)
    (hjob : (id,job)∈w.jobs) : ∃ job', (id,job')∈w'.jobs ∧ Change w l id job job' := by
  have hpending : ∀ id', (∃ job, (id',job)∈w.jobs ∧ job.status=.pending) → id=id' →
      job.status=.pending := by
    rintro _ ⟨job',hjob',hstatus⟩ rfl
    rw [row_unique hjob hjob']
    exact hstatus
  cases hst with
  | enqueue => exact ⟨job,mem_insert.2 (.inl hjob),.kept⟩
  | cancel =>
    rcases cancelJob_eq (w := w) with heq | ⟨hqueued,heq⟩
    · rw [heq]
      exact ⟨job,hjob,.kept⟩
    · rw [heq]
      exact change_modify hjob fun hid => .queued (hpending _ hqueued hid) rfl
  | lease hlease =>
    obtain ⟨hqueued,rfl⟩ := leaseJob_some hlease
    exact change_modify hjob fun hid => .queued (hpending _ hqueued hid) rfl
  | @complete n thread result hmem hstage =>
    have hholds := hi.holds n thread hmem ⟨hstage,hc n thread hmem rfl⟩
    refine change_modify hjob ?_
    rintro rfl
    exact .worked hholds (hholds.running hjob) (.inr ⟨result,rfl,rfl⟩)
  | @fail n thread error isFatal hmem hstage =>
    have hholds := hi.holds n thread hmem ⟨hstage,hc n thread hmem rfl⟩
    refine change_modify hjob ?_
    rintro rfl
    refine .worked hholds (hholds.running hjob) (.inl ?_)
    cases isFatal with
    | true => rfl
    | false => rfl
  | finish => exact ⟨job,hjob,.kept⟩
  | @release n thread hmem halive hreleased =>
    have hholds := hi.holds n thread hmem ⟨hc n thread hmem rfl,hreleased⟩
    refine change_modify hjob ?_
    rintro rfl
    exact .worked hholds (hholds.running hjob) (.inl rfl)

theorem step_new (hst : Step w l w') (hjob : (id,job)∈w'.jobs)
    (hnew : ∀ old, (id,old)∉w.jobs) : job.result=none := by
  have hmodify : ∀ id' f, (id,job)∈w.jobs.modify id' f → job.result=none := by
    intro id' f h
    obtain ⟨old,hold,-⟩ := mem_modify.1 h
    exact absurd hold (hnew old)
  cases hst with
  | enqueue =>
    rcases mem_insert.1 hjob with hold | ⟨-,rfl⟩
    · exact absurd hold (hnew job)
    · rfl
  | cancel =>
    rcases cancelJob_eq (w := w) with heq | ⟨-,heq⟩
    · exact absurd (heq ▸ hjob) (hnew job)
    · exact hmodify _ _ (heq ▸ hjob)
  | lease hlease =>
    obtain ⟨-,rfl⟩ := leaseJob_some hlease
    exact hmodify _ _ hjob
  | finish => exact absurd hjob (hnew job)
  | _ => exact hmodify _ _ hjob

theorem exclusive_start : Exclusive (World.start : World β) :=
  ⟨fun _ _ hmem => absurd hmem not_mem_empty,fun _ _ hmem => absurd hmem not_mem_empty⟩

variable {tr : List (Event (World β) (Label β))}

def sampleQueued : World Nat := ⟨enqueueJob JobTable.empty ['e'],Rows.empty⟩

def sampleLease (w : World Nat) : World Nat :=
  ⟨(leaseJob w.jobs ['w'] [['e']]).1,w.threads.insert { jobId := 1 }⟩

def sampleComplete (w : World Nat) (released : Bool) : World Nat :=
  { w with jobs := completeJob w.jobs 1 7 }.move 0 ⟨1,.reported,released⟩

def sampleRelease (w : World Nat) : World Nat :=
  { w with jobs := failJob w.jobs 1 releaseError false }.move 0 ⟨1,.running,true⟩

def sampleCancel (w : World Nat) : World Nat := { w with jobs := (cancelJob w.jobs 1).1 }

def sampleDone : Job Nat := ⟨['e'],.completed,some 7,none,some ['w']⟩

theorem step_sampleEnqueue : Step World.start (.enqueue ['e']) sampleQueued := Step.enqueue

theorem step_sampleLease :
    Step sampleQueued (.lease ['w'] [['e']]) (sampleLease sampleQueued) := Step.lease rfl

theorem mem_sampleLease : (0,⟨1,.running,false⟩)∈(sampleLease sampleQueued).threads :=
  row_eq_some.1 rfl

theorem step_sampleComplete : Step (sampleLease sampleQueued) (.complete 0 7)
    (sampleComplete (sampleLease sampleQueued) false) := Step.complete mem_sampleLease rfl

theorem step_sampleRelease : Step (sampleLease sampleQueued) (.release 0)
    (sampleRelease (sampleLease sampleQueued)) :=
  Step.release mem_sampleLease Stage.noConfusion rfl

theorem step_sampleCancel (w : World Nat) : Step w (.cancel 1) (sampleCancel w) := Step.cancel

end Harpocrates.Backend.Jobs
