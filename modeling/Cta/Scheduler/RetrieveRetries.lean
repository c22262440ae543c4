import Cta.Lib.Retries
import Cta.Scheduler.RetrieveFailure

/-! How often the copies of a retrieve request are retried, over any history of failures. -/
namespace Cta.Scheduler.RetrieveRetries
open Cta.Lib.Runs Cta.Lib.Retries Cta.Scheduler.RetrieveFailure

structure TransferFailure where
  copyNumber : Nat
  mountId : Nat
  failureReason : String
  deriving DecidableEq, Repr

def transferFailures :
    Recorder RetrieveRequest RetrieveJob TransferFailure EnqueueingNextStep Failure where
  jobs := RetrieveRequest.jobs
  copyNb := RetrieveJob.copyNb
  total := RetrieveJob.totalRetries
  max := RetrieveJob.maxTotalRetries
  failedCopy := TransferFailure.copyNumber
  record r f := r.addTransferFailure f.copyNumber f.mountId f.failureReason
  noSuchJob := .noSuchJob
  givesUp next := next.nextStatus ≠ .toTransfer

variable {r : RetrieveRequest} {first : RetrieveJob} {rest : List RetrieveJob} {copyNumber : Nat}

theorem determineNextStep_not_toTransfer {next : EnqueueingNextStep}
    (h : r.determineNextStep copyNumber = .ok next) : next.nextStatus ≠ .toTransfer := by
  unfold RetrieveRequest.determineNextStep at h
  split at h
  · cases h
    cases r.isRepack <;> nofun
  · cases h

theorem addTransferFailure_first (mountId : Nat) (failureReason : String)
    (hjobs : r.jobs = first :: rest)
    (hcopy : first.copyNb = copyNumber) :
    ∃ next, r.addTransferFailure copyNumber mountId failureReason = .ok
        ({ r with jobs := first.addFailure mountId failureReason :: rest }, next) ∧
      (first.maxTotalRetries ≤ first.totalRetries + 1 → next.nextStatus ≠ .toTransfer) := by
  obtain ⟨next, hnext⟩ : ∃ next, RetrieveRequest.determineNextStep
      { r with jobs := first.addFailure mountId failureReason :: rest } copyNumber = .ok next := by
    unfold RetrieveRequest.determineNextStep
    rw [if_pos (by simp [RetrieveJob.addFailure, hcopy])]
    exact ⟨_, rfl⟩
  have hnot := determineNextStep_not_toTransfer hnext
  unfold RetrieveRequest.addTransferFailure
  rw [hjobs]
  simp only [hcopy, if_true, hnext]
  split
  · exact ⟨next, rfl, fun _ => hnot⟩
  · split
    · next hfew => exact ⟨_, rfl, fun hmany => absurd hfew (UInt32.not_lt.mpr hmany)⟩
    · exact ⟨next, rfl, fun _ => hnot⟩

theorem addTransferFailure_other (mountId : Nat) (failureReason : String)
    (hjobs : r.jobs = first :: rest)
    (hcopy : first.copyNb ≠ copyNumber) :
    r.addTransferFailure copyNumber mountId failureReason = .error .exception ∨
      ∃ next, r.addTransferFailure copyNumber mountId failureReason = .ok (r, next) := by
  obtain ⟨jobs, verify, repack, address, force, files⟩ := r
  cases hjobs
  unfold RetrieveRequest.addTransferFailure RetrieveRequest.determineNextStep
  simp only [hcopy, if_false]
  repeat' split
  all_goals first
    | exact .inl rfl
    | exact .inr ⟨_, rfl⟩

theorem firstOnly : transferFailures.FirstOnly where
  empty r f hjobs := by
    unfold transferFailures RetrieveRequest.addTransferFailure
    simp only [show r.jobs = [] from hjobs]
  first r f j rest hjobs hcopy := by
    obtain ⟨next, hadd, hmax⟩ :=
      addTransferFailure_first f.mountId f.failureReason hjobs hcopy
    exact ⟨_, next, _, hadd, rfl, rfl, rfl, hmax⟩
  other r f j rest hjobs hcopy := by
    cases addTransferFailure_other f.mountId f.failureReason hjobs hcopy with
    | inl herror => exact .inl ⟨_, herror, nofun⟩
    | inr hok => exact .inr hok

/-- Along a history of a request, every failed transfer is accounted for if and only if each is
one of the first job, or the request has no job. -/
theorem transfer_failures_accounted_iff (r : RetrieveRequest) (failures : List TransferFailure) :
    AllSteps transferFailures.add transferFailures.Accounted ⟨r, []⟩ failures ↔
      AllSteps transferFailures.add transferFailures.OfFirstJob ⟨r, []⟩ failures :=
  firstOnly.accounted_iff r failures

def twoCopies : RetrieveRequest where
  jobs := [1, 2].map fun copyNb => {
    copyNb
    maxTotalRetries := 1
    maxRetriesWithinMount := 1
    retriesWithinMount := 0
    totalRetries := 0
    lastMountWithFailure := 0
    failureLogs := []
    status := .toTransfer }
  isVerifyOnly := false
  isRepack := false
  repackRequestAddress := ""
  forceDisabledTape := false
  tapeFiles := []

/-- The second copy fails, is not counted and goes back to be transferred. -/
theorem second_copy_not_accounted :
    ¬∀ r failures, AllSteps transferFailures.add transferFailures.Accounted ⟨r, []⟩ failures := by
  intro h
  have hfirst := (firstOnly.accounted_iff twoCopies [⟨2, 7, ""⟩]).mp (h _ _)
  exact absurd (hfirst.1 _ rfl).1 (by decide)

end Cta.Scheduler.RetrieveRetries
