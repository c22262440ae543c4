import Cta.Lib.Retries
import Cta.ObjectStore.GarbageCollector

/-! How often the reports of archive and retrieve requests are retried, over any history of
failures. -/
namespace Cta.ObjectStore.ReportRetries
open Cta.Lib.Runs Cta.Lib.Retries Cta.ObjectStore.GarbageCollector

structure Job (Status : Type) where
  copyNb : Nat
  status : Status
  totalReportRetries : UInt32
  maxReportRetries : UInt32
  reportFailureLogs : List String
  deriving DecidableEq, Repr

inductive NextStep where
  | enqueueForReportForUser
  | storeInFailedJobsContainer
  deriving DecidableEq, Repr

structure EnqueueingNextStep (Status : Type) where
  nextStatus : Status
  nextStep : NextStep
  deriving DecidableEq, Repr

inductive Failure where
  | noSuchJob
  deriving DecidableEq, Repr

variable {Status : Type}

def Job.addFailure (failureReason : String) (j : Job Status) : Job Status :=
  { j with
    totalReportRetries := j.totalReportRetries + 1
    reportFailureLogs := j.reportFailureLogs ++ [failureReason] }

/-- The loop over the jobs returns with the first one, whether it is the one of the copy or not. -/
def addReportFailure (failed : Status) (jobs : List (Job Status)) (copyNumber : Nat)
    (failureReason : String) :
    Except Failure (List (Job Status) × EnqueueingNextStep Status) :=
  match jobs with
  | [] => .error .noSuchJob
  | first :: rest =>
    let j := if first.copyNb = copyNumber then first.addFailure failureReason else first
    .ok (j :: rest,
      if j.maxReportRetries ≤ j.totalReportRetries then ⟨failed, .storeInFailedJobsContainer⟩
      else ⟨j.status, .enqueueForReportForUser⟩)

def ArchiveRequest.addReportFailure :
    List (Job ArchiveJobStatus) → Nat → String →
      Except Failure (List (Job ArchiveJobStatus) × EnqueueingNextStep ArchiveJobStatus) :=
  ReportRetries.addReportFailure .failed

def RetrieveRequest.addReportFailure :
    List (Job RetrieveJobStatus) → Nat → String →
      Except Failure (List (Job RetrieveJobStatus) × EnqueueingNextStep RetrieveJobStatus) :=
  ReportRetries.addReportFailure .failed

structure ReportFailure where
  copyNumber : Nat
  failureReason : String
  deriving DecidableEq, Repr

def recorder (add : List (Job Status) → Nat → String →
    Except Failure (List (Job Status) × EnqueueingNextStep Status)) :
    Recorder (List (Job Status)) (Job Status) ReportFailure (EnqueueingNextStep Status) Failure where
  jobs r := r
  copyNb := Job.copyNb
  total := Job.totalReportRetries
  max := Job.maxReportRetries
  failedCopy := ReportFailure.copyNumber
  record jobs f := add jobs f.copyNumber f.failureReason
  noSuchJob := .noSuchJob
  givesUp next := next.nextStep = .storeInFailedJobsContainer

def archiveReports := recorder ArchiveRequest.addReportFailure
def retrieveReports := recorder RetrieveRequest.addReportFailure

variable {failed : Status} {first : Job Status} {rest : List (Job Status)} {copyNumber : Nat}
  {failureReason : String}

theorem addReportFailure_first (hcopy : first.copyNb = copyNumber) :
    ∃ next, addReportFailure failed (first :: rest) copyNumber failureReason =
        .ok (first.addFailure failureReason :: rest, next) ∧
      (first.maxReportRetries ≤ first.totalReportRetries + 1 →
        next.nextStep = .storeInFailedJobsContainer) := by
  unfold addReportFailure
  simp only [hcopy, if_true]
  refine ⟨_, rfl, fun hmax => ?_⟩
  rw [if_pos (show (first.addFailure failureReason).maxReportRetries ≤
    (first.addFailure failureReason).totalReportRetries from hmax)]

theorem addReportFailure_other (hcopy : first.copyNb ≠ copyNumber) :
    ∃ next, addReportFailure failed (first :: rest) copyNumber failureReason =
      .ok (first :: rest, next) := by
  unfold addReportFailure
  simp only [hcopy, if_false]
  exact ⟨_, rfl⟩

theorem firstOnly (failed : Status) : (recorder (addReportFailure failed)).FirstOnly where
  empty r f hjobs := by
    cases hjobs
    rfl
  first r f j rest hjobs hcopy := by
    cases hjobs
    obtain ⟨next, hadd, hmax⟩ := addReportFailure_first hcopy
    exact ⟨_, next, _, hadd, rfl, rfl, rfl, hmax⟩
  other r f j rest hjobs hcopy := by
    cases hjobs
    exact .inr (addReportFailure_other hcopy)

/-- Along a history of an archive or of a retrieve request, every failed report is accounted for
if and only if each is one of the first job, or the request has no job. -/
theorem report_failures_accounted_iff (archiveJobs : List (Job ArchiveJobStatus))
    (retrieveJobs : List (Job RetrieveJobStatus)) (failures : List ReportFailure) :
    (AllSteps archiveReports.add archiveReports.Accounted ⟨archiveJobs, []⟩ failures ↔
        AllSteps archiveReports.add archiveReports.OfFirstJob ⟨archiveJobs, []⟩ failures) ∧
      (AllSteps retrieveReports.add retrieveReports.Accounted ⟨retrieveJobs, []⟩ failures ↔
        AllSteps retrieveReports.add retrieveReports.OfFirstJob ⟨retrieveJobs, []⟩ failures) :=
  ⟨(firstOnly _).accounted_iff archiveJobs failures,
    (firstOnly _).accounted_iff retrieveJobs failures⟩

def twoCopies (status : Status) : List (Job Status) :=
  [1, 2].map fun copyNb => {
    copyNb
    status
    totalReportRetries := 0
    maxReportRetries := 1
    reportFailureLogs := [] }

/-- The report of the second copy fails, is not counted and is tried again. -/
theorem second_report_not_accounted :
    (¬∀ jobs failures,
        AllSteps archiveReports.add archiveReports.Accounted ⟨jobs, []⟩ failures) ∧
      ¬∀ jobs failures,
        AllSteps retrieveReports.add retrieveReports.Accounted ⟨jobs, []⟩ failures := by
  constructor
  · intro h
    have hfirst := ((firstOnly _).accounted_iff (twoCopies .toReportToUserForTransfer)
      [⟨2, ""⟩]).mp (h _ _)
    exact absurd (hfirst.1 _ rfl).1 (by decide)
  · intro h
    have hfirst := ((firstOnly _).accounted_iff (twoCopies .toReportToUserForFailure)
      [⟨2, ""⟩]).mp (h _ _)
    exact absurd (hfirst.1 _ rfl).1 (by decide)

end Cta.ObjectStore.ReportRetries
