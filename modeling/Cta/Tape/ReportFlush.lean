import Cta.Scheduler.ArchiveMount
import Mathlib.Data.List.Nodup

/-! The report packer's flush: what becomes of each job of the batch. -/
namespace Cta.Tape.ReportFlush
open Cta.Scheduler.ArchiveMount

structure JobQueue where
  jobs : List ArchiveJob
  nodup : jobs.Nodup

structure Flushed where
  successfulArchiveJobs : List ArchiveJob
  skippedFiles : List Nat
  catalogue : Option (List TapeItemWritten)
  transferred : List ArchiveJob
  failTransfer : List ArchiveJob
  failReport : List ArchiveJob
  thrown : Option Thrown
  deriving DecidableEq, Repr

def execute (c : Calls) (errorHappened : Bool) (successfulArchiveJobs : List ArchiveJob)
    (skippedFiles : List Nat) : Flushed :=
  if errorHappened then ⟨successfulArchiveJobs, skippedFiles, none, [], [], [], none⟩
  else if successfulArchiveJobs = [] ∧ skippedFiles = [] then ⟨[], [], none, [], [], [], none⟩
  else
    let r := reportJobsBatchTransferred c successfulArchiveJobs skippedFiles
    let f : Flushed :=
      ⟨r.successfulArchiveJobs, r.skippedFiles, r.catalogue, r.transferred, [], [], r.thrown⟩
    match r.thrown with
    | some (.failedReportCatalogueUpdate _) =>
      { f with failTransfer := r.failedToReportArchiveJobs }
    | some (.failedReportMoveToQueue _) => { f with failReport := r.failedToReportArchiveJobs }
    | none => f

/-- The one outcome of a job: recorded and passed on, or failed once, as the catalogue was or was
not updated. -/
structure Outcome (f : Flushed) (job : ArchiveJob) (failTransfer failReport : Nat) : Prop where
  failTransfer : f.failTransfer.count job = failTransfer
  failReport : f.failReport.count job = failReport

def OneOutcome (f : Flushed) (job : ArchiveJob) : Prop :=
  match f.catalogue with
  | none => Outcome f job 1 0 ∧ job ∉ f.transferred
  | some items =>
    (TapeItemWritten.file job ∈ items ∧ job ∈ f.transferred ∧ Outcome f job 0 0) ∨
      (job ∉ f.transferred ∧ Outcome f job 0 1)

def Meets (f : Flushed) (jobs : List ArchiveJob) : Prop :=
  f.successfulArchiveJobs = [] ∧ ∀ job ∈ jobs, OneOutcome f job

/-- No job but the last one fails its validation, and that with a CTA exception; nor is
`NoSuchObject` thrown by the catalogue or the scheduler database, and if the latter fails it has
dropped no job before; and a batch that is recorded has no number twice. -/
def Condition (c : Calls) (jobs : List ArchiveJob) : Prop :=
  match unvalidated c jobs with
  | job :: rest => c.validate job ≠ some .stdException ∧ rest = []
  | [] =>
    match c.filesWrittenToTape with
    | some f => f = .noSuchObject → jobs = []
    | none =>
      match c.setJobBatchTransferred with
      | some f => (f = .noSuchObject → jobs = []) ∧ ∀ job ∈ jobs, c.erased job = false
      | none => (jobs.map ArchiveJob.fSeq).Nodup

variable {c : Calls} {jobs : List ArchiveJob} {skipped : List Nat}

theorem validated_append (c : Calls) (jobs : List ArchiveJob) :
    validated c jobs ++ unvalidated c jobs = jobs := List.takeWhile_append_dropWhile

theorem validated_of_unvalidated_nil (h : unvalidated c jobs = []) : validated c jobs = jobs := by
  have := validated_append c jobs
  rwa [h, List.append_nil] at this

theorem execute_of_ne_nil (h : jobs ≠ []) :
    execute c false jobs skipped =
      let r := reportJobsBatchTransferred c jobs skipped
      let f : Flushed :=
        ⟨r.successfulArchiveJobs, r.skippedFiles, r.catalogue, r.transferred, [], [], r.thrown⟩
      match r.thrown with
      | some (.failedReportCatalogueUpdate _) =>
      { f with failTransfer := r.failedToReportArchiveJobs }
      | some (.failedReportMoveToQueue _) => { f with failReport := r.failedToReportArchiveJobs }
      | none => f := by
  simp [execute, h]

theorem meets_nil : Meets (execute c false [] skipped) [] := by
  refine ⟨?_, by simp⟩
  unfold execute reportJobsBatchTransferred caught
  cases skipped with
  | nil => rfl
  | cons fSeq skipped =>
    cases c.filesWrittenToTape with
    | some f => cases f <;> rfl
    | none =>
      cases c.setJobBatchTransferred with
      | some f => cases f <;> rfl
      | none => rfl

theorem condition_nil : Condition c [] := by
  unfold Condition unvalidated
  simp only [List.dropWhile_nil]
  cases c.filesWrittenToTape with
  | some f => exact fun _ => trivial
  | none =>
    cases c.setJobBatchTransferred with
    | some f => exact ⟨fun _ => trivial, by simp⟩
    | none => simp

theorem meets_iff_of_unvalidated {job : ArchiveJob} {rest : List ArchiveJob} (hnodup : jobs.Nodup)
    (h : unvalidated c jobs = job :: rest) :
    Meets (execute c false jobs skipped) jobs ↔ Condition c jobs := by
  have hsplit : validated c jobs ++ job :: rest = jobs := h ▸ validated_append c jobs
  have hmem : job ∈ jobs := by
    rw [← hsplit]
    simp
  have hne : jobs ≠ [] := List.ne_nil_of_mem hmem
  rw [execute_of_ne_nil hne]
  simp only [Condition, h]
  by_cases hstd : c.validate job = some .stdException
  · -- nothing is failed, and this job is in no container any more
    simp only [reportJobsBatchTransferred, h, hstd, throwReport, Bool.false_eq_true, if_false,
      ne_eq, not_true, false_and, iff_false]
    intro hmeets
    have hcount := (hmeets.2 job hmem).1.failTransfer
    simp at hcount
  · have hreport : reportJobsBatchTransferred c jobs skipped = ⟨rest, skipped, none, [],
        job :: validated c jobs, some (throwReport false exceptionMessage)⟩ := by
      unfold reportJobsBatchTransferred
      simp only [h]
    simp only [hreport, throwReport, Bool.false_eq_true, if_false, ne_eq, hstd, not_false_eq_true,
      true_and]
    constructor
    · exact fun hmeets => hmeets.1
    · intro hrest
      refine ⟨hrest, fun j hj => ?_⟩
      subst hrest
      have hperm : (job :: validated c jobs).Perm jobs := by
        conv => rhs; rw [← hsplit]
        exact (List.perm_append_singleton job (validated c jobs)).symm
      have hcount : (job :: validated c jobs).count j = 1 := by
        rw [hperm.count_eq]
        exact List.count_eq_one_of_mem hnodup hj
      exact ⟨⟨hcount, rfl⟩, List.not_mem_nil⟩

theorem meets_iff_of_validated (hne : jobs ≠ []) (hnodup : jobs.Nodup)
    (h : unvalidated c jobs = []) :
    Meets (execute c false jobs skipped) jobs ↔ Condition c jobs := by
  obtain ⟨job, hmem⟩ := List.exists_mem_of_ne_nil jobs hne
  have hvalid := validated_of_unvalidated_nil h
  have hone : ∀ j ∈ jobs, jobs.count j = 1 := fun j hj => List.count_eq_one_of_mem hnodup hj
  rw [execute_of_ne_nil hne]
  simp only [Condition, h, reportJobsBatchTransferred, hvalid]
  cases hcat : c.filesWrittenToTape with
  | some f =>
    cases f with
    | noSuchObject =>
      simp only [caught, forall_const, hne, iff_false]
      intro hmeets
      have hcount := (hmeets.2 job hmem).1.failTransfer
      simp at hcount
    | exception =>
      simp only [caught, throwReport, Option.isSome_none, Bool.false_eq_true, if_false,
        reduceCtorEq, false_implies, iff_true]
      exact ⟨rfl, fun j hj => ⟨⟨hone j hj, rfl⟩, List.not_mem_nil⟩⟩
    | stdException =>
      simp only [caught, throwReport, Option.isSome_none, Bool.false_eq_true, if_false,
        reduceCtorEq, false_implies, iff_true]
      exact ⟨rfl, fun j hj => ⟨⟨hone j hj, rfl⟩, List.not_mem_nil⟩⟩
  | none =>
    simp only
    cases htr : c.setJobBatchTransferred with
    | none =>
      simp only
      rw [← forall_mem_tapeItemsWritten hnodup skipped]
      constructor
      · intro hmeets j hj
        cases hmeets.2 j hj with
        | inl hin => exact hin.1
        | inr hout => exact absurd hj hout.1
      · exact fun hin => ⟨rfl, fun j hj => .inl ⟨hin j hj, hj, ⟨rfl, rfl⟩⟩⟩
    | some f =>
      have hfail : ∀ j ∈ jobs, c.erased j = false →
          (jobs.filter fun job => !c.erased job).count j = 1 := by
        intro j hj he
        rw [List.count_filter (by simp [he])]
        exact hone j hj
      have herased : ∀ j, (jobs.filter fun job => !c.erased job).count j = 1 →
          c.erased j = false := by
        intro j hcount
        have hin : j ∈ jobs.filter fun job => !c.erased job :=
          List.count_pos_iff.mp (by omega)
        simpa using (List.mem_filter.mp hin).2
      cases f with
      | noSuchObject =>
        simp only [caught, forall_const, hne, false_and, iff_false]
        intro hmeets
        cases hmeets.2 job hmem with
        | inl hin => exact List.not_mem_nil hin.2.1
        | inr hout =>
          have hcount := hout.2.failReport
          simp at hcount
      | exception =>
        simp only [caught, throwReport, Option.isSome_some, if_true, reduceCtorEq, false_implies,
          true_and]
        constructor
        · intro hmeets j hj
          cases hmeets.2 j hj with
          | inl hin => exact absurd hin.2.1 List.not_mem_nil
          | inr hout => exact herased j hout.2.failReport
        · exact fun hkept => ⟨rfl, fun j hj => .inr ⟨List.not_mem_nil, ⟨rfl,
            hfail j hj (hkept j hj)⟩⟩⟩
      | stdException =>
        simp only [caught, throwReport, Option.isSome_some, if_true, reduceCtorEq, false_implies,
          true_and]
        constructor
        · intro hmeets j hj
          cases hmeets.2 j hj with
          | inl hin => exact absurd hin.2.1 List.not_mem_nil
          | inr hout => exact herased j hout.2.failReport
        · exact fun hkept => ⟨rfl, fun j hj => .inr ⟨List.not_mem_nil, ⟨rfl,
            hfail j hj (hkept j hj)⟩⟩⟩

/-- A flush without an earlier error gives each job of the batch one outcome exactly under the
condition. -/
theorem execute_meets_iff (c : Calls) (q : JobQueue) (skipped : List Nat) :
    Meets (execute c false q.jobs skipped) q.jobs ↔ Condition c q.jobs := by
  by_cases hne : q.jobs = []
  · rw [hne]
    exact ⟨fun _ => condition_nil, fun _ => meets_nil⟩
  · cases h : unvalidated c q.jobs with
    | nil => exact meets_iff_of_validated hne q.nodup h
    | cons job rest => exact meets_iff_of_unvalidated q.nodup h

theorem reportJobsBatchTransferred_left {job : ArchiveJob}
    (h : job ∈ (reportJobsBatchTransferred c jobs skipped).successfulArchiveJobs) : job ∈ jobs := by
  have hrest : ∀ {j rest}, unvalidated c jobs = j :: rest → job ∈ rest → job ∈ jobs := by
    intro j rest hu hin
    have hmem : job ∈ unvalidated c jobs := by
      rw [hu]
      exact List.mem_cons_of_mem j hin
    rw [← validated_append c jobs]
    exact List.mem_append_right _ hmem
  have hcaught : ∀ f updated js, (caught f updated js).successfulArchiveJobs = [] := by
    intro f updated js
    cases f <;> rfl
  unfold reportJobsBatchTransferred at h
  split at h
  · next j rest hu =>
    split at h
    · exact hrest hu h
    · exact hrest hu h
  · split at h
    · simp [hcaught] at h
    · split at h
      · simp [hcaught] at h
      · simp at h

theorem execute_left {errorHappened : Bool} {job : ArchiveJob}
    (h : job ∈ (execute c errorHappened jobs skipped).successfulArchiveJobs) : job ∈ jobs := by
  unfold execute at h
  split at h
  · exact h
  · split at h
    · simp at h
    · simp only at h
      split at h
      · exact reportJobsBatchTransferred_left h
      · exact reportJobsBatchTransferred_left h
      · exact reportJobsBatchTransferred_left h

def twoJobs : JobQueue := ⟨[⟨1, 1, 5⟩, ⟨2, 2, 5⟩], by decide⟩

def firstInvalid : Calls where
  validate job := if job.archiveFileID = 1 then some .exception else none
  filesWrittenToTape := none
  setJobBatchTransferred := none
  erased _ := false

theorem second_left_behind :
    (execute firstInvalid false twoJobs.jobs []).successfulArchiveJobs = [⟨2, 2, 5⟩] ∧
      ¬Meets (execute firstInvalid false twoJobs.jobs []) twoJobs.jobs := by
  have hleft : (execute firstInvalid false twoJobs.jobs []).successfulArchiveJobs =
    [⟨2, 2, 5⟩] := by
    decide
  refine ⟨hleft, fun h => ?_⟩
  have := h.1
  rw [hleft] at this
  cases this

end Cta.Tape.ReportFlush
