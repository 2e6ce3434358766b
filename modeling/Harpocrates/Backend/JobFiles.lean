import Harpocrates.Backend.Jobs
import Harpocrates.Framework.Numerals

namespace Harpocrates.Backend.JobFiles

open Framework Framework.Python Framework.Numerals Rows Jobs

/-! The sweep of the files of old jobs. It takes a job's age from the times that the changes of its
status leave behind. -/

structure StampedJob where
  jobType : Text
  status : JobStatus := .pending
  createdAt : Int
  completedAt : Option Int := none
  failedAt : Option Int := none

abbrev StampedJobs := Rows StampedJob

inductive Change
  | enqueue (jobType : Text)
  | cancel (id : Nat)
  | lease (jobTypes : List Text)
  | complete (id : Nat)
  | fail (id : Nat) (isFatal : Bool)

/-- A change that is made at the given time. -/
def change (jobs : StampedJobs) (now : Int) : Change → StampedJobs
  | .enqueue jobType => jobs.insert { jobType, createdAt := now }
  | .cancel id => jobs.modify id fun job =>
    if job.status = .pending then { job with status := .cancelled } else job
  | .lease jobTypes =>
    match jobs.entries.find? fun e => e.2.status = .pending && jobTypes.contains e.2.jobType with
    | none => jobs
    | some (id,_) => jobs.modify id fun job => { job with status := .running }
  | .complete id => jobs.modify id fun job =>
    { job with status := .completed, completedAt := some now }
  | .fail id isFatal => jobs.modify id fun job =>
    { job with failedAt := some now, status := if isFatal then .failed else .pending }

abbrev History := List (Int × Change)

def after (history : History) : StampedJobs :=
  history.foldl (fun jobs e => change jobs e.1 e.2) ⟨[],1,List.Pairwise.nil,List.forall_mem_nil _⟩

def StampedJob.stamp (job : StampedJob) : Int :=
  (job.completedAt.or job.failedAt).getD job.createdAt

structure StoredFile where
  name : Text
  mtime : Int
  deriving DecidableEq

def jobInputPath (id : Nat) : Text := "job_".toList++Nat.toDigits 10 id++"_input".toList

def jobOutputPath (id : Nat) : Text := "job_".toList++Nat.toDigits 10 id++"_output".toList

/-- `.*$` -/
def endsLine (s : Text) : Bool :=
  s.dropWhile (· ≠ '\n') = [] || s.dropWhile (· ≠ '\n') = ['\n']

def isFileSuffix (s : Text) : Bool :=
  s.isEmpty || s.take 6 = "_input".toList && endsLine (s.drop 6) ||
    s.take 7 = "_output".toList && endsLine (s.drop 7)

/-- The group of `^job_([^_]+)(?:_(?:input|output).*)?$`. -/
def rawId (name : Text) : Option Text :=
  let raw := (name.drop 4).takeWhile (· ≠ '_')
  if name.take 4 = "job_".toList && !raw.isEmpty &&
    isFileSuffix ((name.drop 4).dropWhile (· ≠ '_')) then some raw else none

/-- The characters that `isdigit` accepts. -/
structure Digits where
  isDigit : Char → Bool
  isDigit_ascii : ∀ c, c.isDigit → isDigit c = true

variable (digits : Digits) (jobs : StampedJobs) (ttl now : Int)

/-- Whether the sweep deletes a file; none where the number in its name cannot be read. -/
def sweeps (file : StoredFile) : Option Bool :=
  match rawId file.name with
  | none => some (ttl ≤ now-file.mtime)
  | some raw =>
    if !raw.all digits.isDigit then some (ttl ≤ now-file.mtime)
    else
      match parseInt 10 raw with
      | none => none
      | some id =>
        match jobs.row id.toNat with
        | none => some (ttl ≤ now-file.mtime)
        | some job =>
          some ([.completed,.failed,.cancelled].contains job.status && ttl ≤ now-job.stamp)

/-- The files that are deleted. -/
def sweepJobFiles : List StoredFile → List StoredFile
  | [] => []
  | file::files =>
    match sweeps digits jobs ttl now file with
    | none => []
    | some true => file::sweepJobFiles files
    | some false => sweepJobFiles files

def Belongs (file : StoredFile) (id : Nat) : Prop :=
  file.name = jobInputPath id ∨ file.name = jobOutputPath id

/-- The job had the status at every change after the given time. -/
def HeldSince (history : History) (id : Nat) (status : JobStatus) (since : Int) : Prop :=
  ∀ before e later, history = before++e::later → since < e.1 →
    ∃ job, (id,job) ∈ after before ∧ job.status = status

/-- The change puts no job into a final status without a stamp that is looked at first. -/
def Stamps (jobs : StampedJobs) : Change → Prop
  | .cancel id => ∀ job, (id,job) ∈ jobs → job.status ≠ .pending
  | .fail id isFatal => isFatal = true → ∀ job, (id,job) ∈ jobs → job.completedAt = none
  | _ => True

variable {digits jobs ttl now} {file : StoredFile} {files : List StoredFile} {id : Nat}
  {job : StampedJob} {history : History}

theorem rawId_path {suffix : Text} (h : isFileSuffix ('_' :: suffix)=true) :
    rawId ("job_".toList++Nat.toDigits 10 id++ '_' :: suffix)=some (Nat.toDigits 10 id) := by
  have hdigits : ∀ c∈Nat.toDigits 10 id, decide (c ≠ '_')=true := by
    intro c hc
    have hdigit := Nat.isDigit_of_mem_toDigits (by decide) (by decide) hc
    rw [decide_eq_true_eq]
    rintro rfl
    cases hdigit
  have hrest : ("job_".toList++Nat.toDigits 10 id++ '_' :: suffix).drop 4 =
      Nat.toDigits 10 id++ '_' :: suffix := by
    simp
  unfold rawId
  rw [hrest,List.takeWhile_append_of_pos hdigits,List.dropWhile_append_of_pos hdigits]
  simp [h]

theorem sweeps_known (hbelongs : Belongs file id) (hjob : (id,job)∈jobs)
    (h : sweeps digits jobs ttl now file=some true) :
    job.status.final ∧ job.stamp≤now-ttl := by
  have hraw : rawId file.name=some (Nat.toDigits 10 id) := by
    rcases hbelongs with hname | hname
    all_goals
      rw [hname]
      exact rawId_path (by decide)
  have hdigits : (Nat.toDigits 10 id).all digits.isDigit=true :=
    List.all_eq_true.2 fun c hc =>
      digits.isDigit_ascii c (Nat.isDigit_of_mem_toDigits (by decide) (by decide) hc)
  simp only [sweeps,hraw,hdigits,Bool.not_true,Bool.false_eq_true,if_false,
    parseInt_toDigits_eq] at h
  split at h
  · cases h
  · rename_i number hnumber
    split at hnumber
    · cases hnumber
    · cases hnumber
      rw [Int.toNat_natCast,row_eq_some.2 hjob] at h
      simp only [Option.some.injEq,Bool.and_eq_true,decide_eq_true_eq] at h
      refine ⟨?_,by omega⟩
      cases hstatus : job.status with
      | completed | failed | cancelled => trivial
      | pending | running => simp [hstatus] at h

/-- A change gives a job a final status and an earlier stamp only where it stamps nothing. -/
theorem change_final {c : Change} (hs : Stamps jobs c) (hjob : (id,job)∈change jobs now c)
    (hfinal : job.status.final) (hstamp : job.stamp<now) : (id,job)∈jobs := by
  cases c with
  | enqueue jobType =>
    rcases mem_insert.1 hjob with hold | ⟨-,rfl⟩
    · exact hold
    · cases hfinal
  | cancel n =>
    obtain ⟨old,hold,rfl⟩ := mem_modify.1 hjob
    split
    · rename_i hid
      subst hid
      rw [if_neg (hs old hold)]
      exact hold
    · exact hold
  | lease jobTypes =>
    dsimp only [change] at hjob
    split at hjob
    · exact hjob
    · obtain ⟨old,hold,rfl⟩ := mem_modify.1 hjob
      split at hfinal
      · cases hfinal
      · rename_i hne
        rw [if_neg hne]
        exact hold
  | complete n =>
    obtain ⟨old,hold,rfl⟩ := mem_modify.1 hjob
    split at hstamp
    · exact absurd hstamp (Int.lt_irrefl now)
    · rename_i hne
      rw [if_neg hne]
      exact hold
  | fail n isFatal =>
    obtain ⟨old,hold,rfl⟩ := mem_modify.1 hjob
    split at hstamp
    · rename_i hid
      subst hid
      rw [if_pos rfl] at hfinal
      cases isFatal with
      | true =>
        rw [StampedJob.stamp,hs rfl old hold] at hstamp
        exact absurd hstamp (Int.lt_irrefl now)
      | false => cases hfinal
    · rename_i hne
      rw [if_neg hne]
      exact hold

theorem after_concat (history : History) (e : Int × Change) :
    after (history++[e])=change (after history) e.1 e.2 := by
  rw [after,List.foldl_append]
  rfl

theorem held {since : Int} (htimes : history.Pairwise fun a b => a.1≤b.1)
    (hstamps : ∀ before e later, history=before++e::later → since<e.1 →
      Stamps (after before) e.2)
    (hjob : (id,job)∈after history) (hfinal : job.status.final) (hstamp : job.stamp ≤ since) :
    HeldSince history id job.status since := by
  induction history using List.reverseRecOn with
  | nil => cases hjob
  | append_singleton history last ih =>
    have hback (hrecent : since<last.1) : (id,job)∈after history :=
      change_final (hstamps history last [] rfl hrecent) (after_concat history last ▸ hjob) hfinal
        (by omega)
    intro before e later hsplit hlate
    rcases List.eq_nil_or_concat later with rfl | ⟨later,final,rfl⟩
    · obtain ⟨rfl,hlast⟩ := List.append_inj' hsplit rfl
      cases hlast
      exact ⟨job,hback hlate,rfl⟩
    · rw [List.concat_eq_append,← List.cons_append,← List.append_assoc] at hsplit
      obtain ⟨rfl,hlast⟩ := List.append_inj' hsplit rfl
      cases hlast
      obtain ⟨hbefore,-,hle⟩ := List.pairwise_append.1 htimes
      have hrecent : since<last.1 := lt_of_lt_of_le hlate (hle e (by simp) last (by simp))
      refine ih hbefore (fun before e later hsplit => ?_) (hback hrecent) before e later rfl hlate
      exact hstamps before e (later++[last]) (by rw [hsplit]; simp)

theorem mem_sweepJobFiles (h : file∈sweepJobFiles digits jobs ttl now files) :
    sweeps digits jobs ttl now file=some true := by
  induction files with
  | nil => cases h
  | cons first files ih =>
    rw [sweepJobFiles] at h
    split at h
    · cases h
    · rcases List.mem_cons.1 h with rfl | hmem
      · assumption
      · exact ih hmem
    · exact ih h

/-- A job whose file is swept has been in its final status for the retention period, if in that
time no pending job was cancelled and no job failed for good that had completed before. -/
theorem sweep_respects_retention (htimes : history.Pairwise fun a b => a.1 ≤ b.1)
    (hstamps : ∀ before e later, history = before++e::later → now-ttl < e.1 →
      Stamps (after before) e.2)
    (h : file ∈ sweepJobFiles digits (after history) ttl now files) (hbelongs : Belongs file id)
    (hjob : (id,job) ∈ after history) :
    job.status.final ∧ HeldSince history id job.status (now-ttl) := by
  obtain ⟨hfinal,hstamp⟩ := sweeps_known hbelongs hjob (mem_sweepJobFiles h)
  exact ⟨hfinal,held htimes hstamps hjob hfinal hstamp⟩

def asciiDigits : Digits := ⟨Char.isDigit,fun _ h => h⟩

theorem completed_job_swept :
    let history : History := [(0,.enqueue []),(0,.complete 1)]
    ⟨jobInputPath 1,0⟩∈sweepJobFiles asciiDigits (after history) 5 10 [⟨jobInputPath 1,0⟩] ∧
      HeldSince history 1 .completed 5 := by
  have hswept : ⟨jobInputPath 1,0⟩∈sweepJobFiles asciiDigits
      (after [(0,.enqueue []),(0,.complete 1)]) 5 10 [⟨jobInputPath 1,0⟩] := by
    decide +kernel
  have hjob : (1,(⟨[],.completed,0,some 0,none⟩ : StampedJob)) ∈
      after [(0,.enqueue []),(0,.complete 1)] :=
    List.Mem.head _
  refine ⟨hswept,(sweep_respects_retention (by simp) ?_ hswept (.inl rfl) hjob).2⟩
  intro before e later hsplit hlate
  have hmem : e∈[(0,Change.enqueue []),(0,.complete 1)] := by
    rw [hsplit]
    simp
  simp only [List.mem_cons,List.not_mem_nil,or_false] at hmem
  rcases hmem with rfl | rfl
  all_goals cases hlate

/-- A job that waited for nine seconds before it was cancelled is swept a second later. -/
theorem cancelled_job_swept :
    let history : History := [(0,.enqueue []),(9,.cancel 1)]
    ⟨jobInputPath 1,0⟩∈sweepJobFiles asciiDigits (after history) 5 10 [⟨jobInputPath 1,0⟩] ∧
      ¬ HeldSince history 1 .cancelled 5 := by
  refine ⟨by decide +kernel,fun h => ?_⟩
  obtain ⟨job,hjob,hstatus⟩ := h [(0,.enqueue [])] (9,.cancel 1) [] rfl (by decide)
  cases List.mem_singleton.1 hjob
  cases hstatus

end Harpocrates.Backend.JobFiles
