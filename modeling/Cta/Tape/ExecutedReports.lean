import Cta.Tape.DeliveredFiles
import Mathlib.Data.List.Induction
import Mathlib.Data.List.TakeWhile

/-! The report packer of a migration session, once it has executed all reports. -/
namespace Cta.Tape.RecoverableError
open Cta.Scheduler.ArchiveMount (ArchiveJob Calls)
open Cta.Tape.DataPipeline Cta.Tape.TapeWrite Cta.Tape.MigrationReportPacker
open Cta.Tape.TapeWriteSingleThread (Thresholds TapeFlush sessionEvents goodFlush)
variable {t : TapeWriteTask} {s : WriteSession} {failing : Bool}
variable {c : Thresholds} {reports more : List Report} {job : ArchiveJob}

def okCalls : Calls := ⟨fun _ => none, none, none, fun _ => false⟩

/-- No call fails: every job is valid, and the catalogue and the scheduler database take the
batch. -/
structure CallsOk (calls : Calls) : Prop where
  validate : ∀ job, calls.validate job = none
  filesWrittenToTape : calls.filesWrittenToTape = none
  setJobBatchTransferred : calls.setJobBatchTransferred = none

theorem flush_ok {calls : Calls} (h : CallsOk calls) (errorHappened : Bool) (jobs : List ArchiveJob)
    (skipped : List Nat) :
    ReportFlush.execute calls errorHappened jobs skipped =
      ReportFlush.execute okCalls errorHappened jobs skipped := by
  obtain ⟨validate, hfiles, hjobs⟩ := h
  obtain ⟨v, f, j, e⟩ := calls
  obtain rfl : v = fun _ => none := funext validate
  subst hfiles hjobs
  rfl

theorem execute_ok {calls : Calls} (h : CallsOk calls) (p : Packer) (r : Report) :
    p.execute calls false r = p.execute okCalls false r := by
  cases r with
  | flush => simp only [Packer.execute, Packer.report, Packer.flush, flush_ok h]
  | _ => rfl

def packerOf (reports : List Report) : Packer :=
  reports.foldl (fun p r => p.execute okCalls false r) .start

theorem packerOf_append (reports more : List Report) :
    packerOf (reports ++ more) =
      more.foldl (fun p r => p.execute okCalls false r) (packerOf reports) :=
  List.foldl_append

theorem packerOf_concat (reports : List Report) (r : Report) :
    packerOf (reports ++ [r]) = (packerOf reports).execute okCalls false r :=
  packerOf_append reports [r]

theorem execute_executed (p : Packer) (calls : Calls) (throws : Bool) (r : Report) :
    (p.execute calls throws r).executed = p.executed + 1 := by
  unfold Packer.execute
  split
  · cases r <;> rfl
  · rfl

theorem packerOf_executed (reports : List Report) :
    (packerOf reports).executed = reports.length := by
  induction reports using List.reverseRecOn with
  | nil => rfl
  | append_singleton reports r ih =>
    rw [packerOf_concat, execute_executed, ih, List.length_append]
    rfl

theorem packerOf_ok (reports : List Report) :
    FlushedFiles.PackerOk reports (packerOf reports) := by
  induction reports using List.reverseRecOn with
  | nil => exact .start
  | append_singleton reports r ih =>
    rw [packerOf_concat]
    refine (ih.append [r]).execute ?_ okCalls false
    rw [packerOf_executed, List.getElem?_append_right (Nat.le_refl _), Nat.sub_self]
    rfl

theorem execute_grows (p : Packer) (r : Report) :
    p.handed <+: (p.execute okCalls false r).handed ∧
      p.failed <+: (p.execute okCalls false r).failed := by
  unfold Packer.execute
  split
  · cases r with
    | skipped job m => exact ⟨List.prefix_rfl, List.prefix_append _ _⟩
    | error job m => exact ⟨List.prefix_rfl, List.prefix_append _ _⟩
    | flush => exact ⟨List.prefix_append _ _, List.prefix_rfl⟩
    | _ => exact ⟨List.prefix_rfl, List.prefix_rfl⟩
  · exact ⟨List.prefix_rfl, List.prefix_rfl⟩

theorem packerOf_grows (reports more : List Report) :
    (packerOf reports).handed <+: (packerOf (reports ++ more)).handed ∧
      (packerOf reports).failed <+: (packerOf (reports ++ more)).failed := by
  rw [packerOf_append]
  generalize packerOf reports = p
  induction more generalizing p with
  | nil => exact ⟨List.prefix_rfl, List.prefix_rfl⟩
  | cons r more ih =>
    have hfirst := execute_grows p r
    have hrest := ih (p.execute okCalls false r)
    exact ⟨hfirst.1.trans hrest.1, hfirst.2.trans hrest.2⟩

theorem execute_errorHappened {p : Packer} (h : p.errorHappened = true) (r : Report) :
    (p.execute okCalls false r).errorHappened = true ∧
      (p.execute okCalls false r).handed = p.handed := by
  unfold Packer.execute
  split
  · cases r <;> simp [Packer.report, Packer.flush, h]
  · exact ⟨h, rfl⟩

theorem packerOf_errorHappened (h : (packerOf reports).errorHappened = true) (more : List Report) :
    (packerOf (reports ++ more)).handed = (packerOf reports).handed := by
  rw [packerOf_append]
  generalize packerOf reports = p at h
  induction more generalizing p with
  | nil => rfl
  | cons r more ih =>
    obtain ⟨herror, hsame⟩ := execute_errorHappened h r
    exact (ih _ herror).trans hsame

def about : Report → Option ArchiveJob
  | .successful job | .skipped job _ | .error job _ => some job
  | _ => none

theorem about_of_failed (h : job ∈ (packerOf reports).failed) :
    ∃ r ∈ reports, about r = some job := by
  induction reports using List.reverseRecOn with
  | nil => simp [packerOf, Packer.start] at h
  | append_singleton reports r ih =>
    rw [packerOf_concat] at h
    have hcases : job ∈ (packerOf reports).failed ∨ about r = some job := by
      unfold Packer.execute at h
      split at h
      · cases r with
        | skipped j m => simpa [Packer.report, about, eq_comm] using h
        | error j m => simpa [Packer.report, about, eq_comm] using h
        | _ => exact .inl h
      · exact .inl h
    cases hcases with
    | inl h =>
      obtain ⟨r', hr', habout⟩ := ih h
      exact ⟨r', List.mem_append_left _ hr', habout⟩
    | inr h => exact ⟨r, by simp, h⟩

/-- The packer's thread goes on and no error was reported. -/
def Active (reports : List Report) : Prop :=
  (packerOf reports).continues = true ∧ (packerOf reports).errorHappened = false

theorem flush_thrown (jobs : List ArchiveJob) (skipped : List Nat) :
    (ReportFlush.execute okCalls false jobs skipped).thrown = none := by
  have hvalid : Cta.Scheduler.ArchiveMount.unvalidated okCalls jobs = [] := by
    unfold Cta.Scheduler.ArchiveMount.unvalidated
    rw [List.dropWhile_eq_nil_iff]
    exact fun _ _ => rfl
  unfold ReportFlush.execute
  simp only [Bool.false_eq_true, if_false]
  split
  · rfl
  · unfold Cta.Scheduler.ArchiveMount.reportJobsBatchTransferred
    simp only [hvalid]
    rfl

theorem Active.concat (h : Active reports) {r : Report} (hr : ∀ job m, r ≠ .error job m)
    (hend : r ≠ .endofSession ∧ ∀ m n, r ≠ .endofSessionWithErrors m n) :
    Active (reports ++ [r]) := by
  unfold Active
  rw [packerOf_concat]
  unfold Packer.execute
  rw [if_pos h.1]
  cases r with
  | error job m => exact absurd rfl (hr job m)
  | endofSession => exact absurd rfl hend.1
  | endofSessionWithErrors m n => exact absurd rfl (hend.2 m n)
  | flush =>
    have hthrown := flush_thrown (packerOf reports).successfulArchiveJobs
      (packerOf reports).skippedFiles
    simp [Packer.report, Packer.flush, h.1, h.2, hthrown]
  | _ => simpa [Packer.report, Active] using h

/-- A successful file was handed over at the first flush that was reported behind it. -/
def AtNextFlush (reports : List Report) (p : Packer) (job : ArchiveJob) : Prop :=
  ∃ a b d, reports = a ++ .successful job :: (b ++ .flush :: d) ∧ .flush ∉ b ∧
    (job, a.length + 1 + b.length) ∈ p.handed

/-- A successful file, reported once, that waits for the next flush. -/
def Waits (reports : List Report) (job : ArchiveJob) : Prop :=
  ∃ a b, reports = a ++ .successful job :: b ∧ .successful job ∉ a ∧ .flush ∉ b ∧
    job ∈ (packerOf reports).successfulArchiveJobs

theorem AtNextFlush.append (h : AtNextFlush reports (packerOf reports) job) (more : List Report) :
    AtNextFlush (reports ++ more) (packerOf (reports ++ more)) job := by
  obtain ⟨a, b, d, hr, hb, hin⟩ := h
  refine ⟨a, b, d ++ more, by simp [hr], hb, ?_⟩
  exact (packerOf_grows reports more).1.subset hin

theorem Waits.concat (h : Waits reports job) (hactive : Active reports) {r : Report}
    (hr : r ≠ .flush) : Waits (reports ++ [r]) job := by
  obtain ⟨a, b, he, ha, hb, hin⟩ := h
  refine ⟨a, b ++ [r], by simp [he], ha, ?_, ?_⟩
  · simp [hb, hr.symm]
  · rw [packerOf_concat]
    unfold Packer.execute
    rw [if_pos hactive.1]
    cases r with
    | successful j => exact List.mem_append_left _ hin
    | flush => exact absurd rfl hr
    | _ => exact hin

theorem waits_successful (hactive : Active reports) (hnew : .successful job ∉ reports) :
    Waits (reports ++ [.successful job]) job := by
  refine ⟨reports, [], rfl, hnew, by simp, ?_⟩
  rw [packerOf_concat]
  unfold Packer.execute
  rw [if_pos hactive.1]
  simp [Packer.report]

theorem Waits.flush (h : Waits reports job) (hactive : Active reports) :
    AtNextFlush (reports ++ [.flush]) (packerOf (reports ++ [.flush])) job := by
  obtain ⟨a, b, he, -, hb, hin⟩ := h
  refine ⟨a, b, [], by simp [he], hb, ?_⟩
  have hlength : a.length + 1 + b.length = reports.length := by
    rw [he]
    simp
    omega
  rw [packerOf_concat, hlength, ← packerOf_executed reports]
  unfold Packer.execute
  rw [if_pos hactive.1]
  simp only [Packer.report, Packer.flush, hactive.2, Bool.false_eq_true, if_false]
  refine List.mem_append_right _ ?_
  exact List.mem_map.mpr ⟨job, hin, rfl⟩

theorem Waits.not_handed (h : Waits reports job) (n : Nat) :
    (job, n) ∉ (packerOf reports).handed := by
  intro hin
  obtain ⟨a, b, he, ha, hb, -⟩ := h
  obtain ⟨hflush, hbefore, -⟩ := (packerOf_ok reports).handed _ hin
  simp only at hflush hbefore
  rw [he] at hflush hbefore
  cases Nat.lt_trichotomy n a.length with
  | inl hlt =>
    rw [List.take_append_of_le_length (Nat.le_of_lt hlt)] at hbefore
    exact ha (List.mem_of_mem_take hbefore)
  | inr hge =>
    cases hge with
    | inl heq =>
      rw [heq, List.getElem?_append_right (Nat.le_refl _), Nat.sub_self] at hflush
      cases hflush
    | inr hgt =>
      obtain ⟨k, rfl⟩ : ∃ k, n = a.length + (k + 1) := ⟨n - a.length - 1, by omega⟩
      rw [List.getElem?_append_right (by omega), Nat.add_sub_cancel_left] at hflush
      exact hb (List.mem_of_getElem? hflush)

end Cta.Tape.RecoverableError
