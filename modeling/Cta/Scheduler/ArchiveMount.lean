import Mathlib.Data.List.Basic

/-! Reporting a batch of archive jobs to the catalogue and to the scheduler database. -/
namespace Cta.Scheduler.ArchiveMount

structure ArchiveJob where
  archiveFileID : Nat
  fSeq : Nat
  fileSize : Nat
  deriving DecidableEq, Repr

/-- What a call throws: a plain CTA exception, `NoSuchObject`, which is one too, or a standard
exception. -/
inductive Failure where
  | exception
  | noSuchObject
  | stdException
  deriving DecidableEq, Repr

/-- What is recorded in the catalogue: a file, or a skipped one. -/
inductive TapeItemWritten where
  | file (job : ArchiveJob)
  | skipped (fSeq : Nat)
  deriving DecidableEq, Repr

def TapeItemWritten.fSeq : TapeItemWritten → Nat
  | .file job => job.fSeq
  | .skipped fSeq => fSeq

/-- What the calls made for a batch do. `erased` are the jobs that `setJobBatchTransferred` takes
out of its list because their requests are gone. -/
structure Calls where
  validate : ArchiveJob → Option Failure
  filesWrittenToTape : Option Failure
  setJobBatchTransferred : Option Failure
  erased : ArchiveJob → Bool

inductive Thrown where
  | failedReportMoveToQueue (message : String)
  | failedReportCatalogueUpdate (message : String)
  deriving DecidableEq, Repr

/-- The queues afterwards, what the catalogue recorded, the jobs passed on without an error and
those that failed to be reported. -/
structure Report where
  successfulArchiveJobs : List ArchiveJob
  skippedFiles : List Nat
  catalogue : Option (List TapeItemWritten)
  transferred : List ArchiveJob
  failedToReportArchiveJobs : List ArchiveJob
  thrown : Option Thrown
  deriving DecidableEq, Repr

def emplace (items : List TapeItemWritten) (item : TapeItemWritten) : List TapeItemWritten :=
  if items.any (·.fSeq = item.fSeq) then items else items ++ [item]

def validated (c : Calls) (jobs : List ArchiveJob) : List ArchiveJob :=
  jobs.takeWhile fun job => c.validate job = none

def unvalidated (c : Calls) (jobs : List ArchiveJob) : List ArchiveJob :=
  jobs.dropWhile fun job => c.validate job = none

def tapeItemsWritten (jobs : List ArchiveJob) (skippedFiles : List Nat) : List TapeItemWritten :=
  (skippedFiles.map .skipped).foldl emplace ((jobs.map .file).foldl emplace [])

def throwReport (catalogue_updated : Bool) (message : String) : Thrown :=
  if catalogue_updated then .failedReportMoveToQueue message
  else .failedReportCatalogueUpdate message

def exceptionMessage : String := "In ArchiveMount::reportJobsBatchWritten(): got an exception"
def stdExceptionMessage : String :=
  "In ArchiveMount::reportJobsBatchWritten(): got an standard exception"

def caught (f : Failure) (updated : Option (List TapeItemWritten))
    (validatedSuccessfulDBArchiveJobs : List ArchiveJob) : Report :=
  let r : Report := ⟨[], [], updated, [], [], none⟩
  match f with
  | .noSuchObject => r
  | .exception =>
    { r with failedToReportArchiveJobs := validatedSuccessfulDBArchiveJobs
             thrown := some (throwReport updated.isSome exceptionMessage) }
  | .stdException =>
    { r with failedToReportArchiveJobs := validatedSuccessfulDBArchiveJobs
             thrown := some (throwReport updated.isSome stdExceptionMessage) }

def reportJobsBatchTransferred (c : Calls) (successfulArchiveJobs : List ArchiveJob)
    (skippedFiles : List Nat) : Report :=
  let jobs := validated c successfulArchiveJobs
  match unvalidated c successfulArchiveJobs with
  | job :: rest =>
    match c.validate job with
    | some .stdException =>
      ⟨rest, skippedFiles, none, [], [], some (throwReport false stdExceptionMessage)⟩
    | _ =>
      -- thrown again as a plain exception; the jobs that were validated come behind this one
      ⟨rest, skippedFiles, none, [], job :: jobs, some (throwReport false exceptionMessage)⟩
  | [] =>
    let items := tapeItemsWritten jobs skippedFiles
    match c.filesWrittenToTape with
    | some f => caught f none jobs
    | none =>
      match c.setJobBatchTransferred with
      | some f => caught f (some items) (jobs.filter fun job => !c.erased job)
      | none => ⟨[], [], some items, jobs, [], none⟩

theorem mem_emplace {items : List TapeItemWritten} {x y : TapeItemWritten}
    (h : x ∈ emplace items y) : x ∈ items ∨ x = y := by
  unfold emplace at h
  split at h
  · exact .inl h
  · simpa using h

theorem mem_emplace_of_mem {items : List TapeItemWritten} {x : TapeItemWritten}
    (y : TapeItemWritten)
    (h : x ∈ items) : x ∈ emplace items y := by
  unfold emplace
  split
  · exact h
  · exact List.mem_append_left _ h

theorem mem_foldl_emplace {ys items : List TapeItemWritten} {x : TapeItemWritten}
    (h : x ∈ ys.foldl emplace items) : x ∈ items ∨ x ∈ ys := by
  induction ys generalizing items with
  | nil => exact .inl h
  | cons y ys ih =>
    cases ih h with
    | inl h =>
      cases mem_emplace h with
      | inl h => exact .inl h
      | inr h => exact .inr (h ▸ List.mem_cons_self)
    | inr h => exact .inr (List.mem_cons_of_mem y h)

theorem mem_foldl_emplace_of_mem {ys items : List TapeItemWritten} {x : TapeItemWritten}
    (h : x ∈ items) : x ∈ ys.foldl emplace items := by
  induction ys generalizing items with
  | nil => exact h
  | cons y ys ih => exact ih (mem_emplace_of_mem y h)

theorem forall_mem_foldl_emplace {jobs : List ArchiveJob} {items : List TapeItemWritten}
    (hjobs : jobs.Nodup) (hitems : ∀ job ∈ jobs, .file job ∉ items) :
    (∀ job ∈ jobs, .file job ∈ (jobs.map .file).foldl emplace items) ↔
      (jobs.map ArchiveJob.fSeq).Nodup ∧ ∀ job ∈ jobs, ∀ x ∈ items, x.fSeq ≠ job.fSeq := by
  induction jobs generalizing items with
  | nil => simp
  | cons job jobs ih =>
    obtain ⟨hnot, hjobs⟩ := List.nodup_cons.mp hjobs
    by_cases hany : items.any (·.fSeq = job.fSeq) = true
    · -- the number is taken
      have hsame : emplace items (.file job) = items := if_pos hany
      constructor
      · intro h
        have hin := h job List.mem_cons_self
        rw [List.map_cons, List.foldl_cons, hsame] at hin
        cases mem_foldl_emplace hin with
        | inl hin => exact absurd hin (hitems job List.mem_cons_self)
        | inr hin => exact absurd (by simpa using hin) hnot
      · intro h
        obtain ⟨x, hx, he⟩ := List.any_eq_true.mp hany
        exact absurd (of_decide_eq_true he) (h.2 job List.mem_cons_self x hx)
    · have hnew : emplace items (.file job) = items ++ [.file job] := if_neg hany
      have hfree : ∀ x ∈ items, x.fSeq ≠ job.fSeq := by simpa using hany
      have hitems' : ∀ job' ∈ jobs, TapeItemWritten.file job' ∉ items ++ [.file job] := by
        intro job' hmem hin
        cases List.mem_append.mp hin with
        | inl hin => exact hitems job' (List.mem_cons_of_mem job hmem) hin
        | inr hin =>
          have : job' = job := by simpa using hin
          exact hnot (this ▸ hmem)
      have hself : TapeItemWritten.file job ∈
          (jobs.map .file).foldl emplace (items ++ [.file job]) :=
        mem_foldl_emplace_of_mem (by simp)
      have hih := ih hjobs hitems'
      rw [List.map_cons, List.foldl_cons, hnew]
      constructor
      · intro h
        obtain ⟨hnodup, hne⟩ := hih.mp fun job' hmem => h job' (List.mem_cons_of_mem job hmem)
        constructor
        · refine List.nodup_cons.mpr ⟨?_, hnodup⟩
          intro hin
          obtain ⟨job', hmem, he⟩ := List.mem_map.mp hin
          exact hne job' hmem (.file job) (by simp) he.symm
        · intro job' hmem x hx
          cases List.mem_cons.mp hmem with
          | inl he => exact he ▸ hfree x hx
          | inr hmem => exact hne job' hmem x (List.mem_append_left _ hx)
      · intro h job' hmem
        obtain ⟨hnotin, hnodup⟩ := List.nodup_cons.mp h.1
        cases List.mem_cons.mp hmem with
        | inl he => exact he ▸ hself
        | inr hmem =>
          refine hih.mpr ⟨hnodup, ?_⟩ job' hmem
          intro job'' hmem'' x hx
          cases List.mem_append.mp hx with
          | inl hx => exact h.2 job'' (List.mem_cons_of_mem job hmem'') x hx
          | inr hx =>
            have hxe : x = .file job := by simpa using hx
            subst hxe
            intro he
            exact hnotin (List.mem_map.mpr ⟨job'', hmem'', he.symm⟩)

theorem forall_mem_tapeItemsWritten {jobs : List ArchiveJob} (hjobs : jobs.Nodup)
    (skippedFiles : List Nat) :
    (∀ job ∈ jobs, .file job ∈ tapeItemsWritten jobs skippedFiles) ↔
      (jobs.map ArchiveJob.fSeq).Nodup := by
  have hfile : ∀ job, TapeItemWritten.file job ∈ tapeItemsWritten jobs skippedFiles ↔
      .file job ∈ (jobs.map .file).foldl emplace [] := by
    intro job
    constructor
    · intro h
      cases mem_foldl_emplace h with
      | inl h => exact h
      | inr h => simp at h
    · exact mem_foldl_emplace_of_mem
  have hnil : ∀ job ∈ jobs, TapeItemWritten.file job ∉ ([] : List TapeItemWritten) := by simp
  have h := forall_mem_foldl_emplace hjobs hnil
  simpa [hfile] using h

end Cta.Scheduler.ArchiveMount
