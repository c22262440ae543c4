import Cta.Tape.ExecutedReports

/-! The beginning of a migration session, where no file failed behind its first block. -/
namespace Cta.Tape.RecoverableError
open Cta.Scheduler.ArchiveMount (ArchiveJob Calls)
open Cta.Tape.DataPipeline Cta.Tape.TapeWrite Cta.Tape.MigrationReportPacker
open Cta.Tape.TapeWriteSingleThread (Thresholds TapeFlush sessionEvents goodFlush)
variable {t : TapeWriteTask} {s : WriteSession} {failing : Bool}
variable {c : Thresholds} {reports more : List Report} {job : ArchiveJob}
variable {last : Int} {tasks : List TapeWriteTask} {th : TapeWriteSingleThread.State}

def flushDue (c : Thresholds) (waiting : List TapeWriteTask) : Bool :=
  c.filesBeforeFlush ≤ waiting.length ∨
    c.bytesBeforeFlush ≤ (waiting.map (·.archiveJob.fileSize)).sum

def sinceFlush (c : Thresholds) (tasks : List TapeWriteTask) : List TapeWriteTask :=
  tasks.foldl (fun waiting t => if flushDue c (waiting ++ [t]) then [] else waiting ++ [t]) []

theorem sinceFlush_concat (c : Thresholds) (tasks : List TapeWriteTask) (t : TapeWriteTask) :
    sinceFlush c (tasks ++ [t]) =
      if flushDue c (sinceFlush c tasks ++ [t]) then [] else sinceFlush c tasks ++ [t] := by
  unfold sinceFlush
  rw [List.foldl_append]
  rfl

/-- A file was written with the number that follows the one of the file before. -/
def WrittenNext (last : Int) (ops : List TapeOp) (t : TapeWriteTask) (file : List TapeOp) : Prop :=
  ∃ a b, ops = a ++ file ++ b ∧ toInt t.archiveJob.fSeq = last + trailers a + 1

theorem WrittenNext.append {ops file : List TapeOp} (h : WrittenNext last ops t file)
    (more : List TapeOp) : WrittenNext last (ops ++ more) t file := by
  obtain ⟨a, b, hops, hn⟩ := h
  exact ⟨a, b ++ more, by simp [hops], hn⟩

/-- The thread after these files, and the packer once it has executed all reports. `waiting` are
the files since the last flush. -/
structure PrefixOk (waiting : List TapeWriteTask) (last : Int) (tasks : List TapeWriteTask)
    (th : TapeWriteSingleThread.State) : Prop where
  phase : th.phase = .running
  session : th.session = ⟨last + tasks.length, false, false⟩
  files : th.files = waiting.length
  bytes : th.bytes = (waiting.map (·.archiveJob.fileSize)).sum
  active : Active th.reports
  trailers : trailers th.ops = tasks.length
  numbers : ∀ r ∈ th.reports, ∀ job, about r = some job → toInt job.fSeq ≤ last + tasks.length
  placeheld : ∀ t ∈ tasks, placeheld t = true →
    WrittenNext last th.ops t (placeholderOps t) ∧ t.archiveJob ∈ (packerOf th.reports).failed
  written : ∀ t ∈ tasks, RecoverableError.placeheld t = false →
    WrittenNext last th.ops t (fileOps t) ∧
      (t.archiveJob ∈ waiting.map (·.archiveJob) → Waits th.reports t.archiveJob) ∧
      (t.archiveJob ∉ waiting.map (·.archiveJob) →
        AtNextFlush th.reports (packerOf th.reports) t.archiveJob)

theorem PrefixOk.start (last : Int) :
    PrefixOk [] last [] (TapeWriteSingleThread.State.start ⟨last, false, false⟩ none) where
  phase := rfl
  session := by simp [TapeWriteSingleThread.State.start]
  files := rfl
  bytes := rfl
  active := ⟨rfl, rfl⟩
  trailers := rfl
  numbers := by simp [TapeWriteSingleThread.State.start]
  placeheld := fun _ ht => nomatch ht
  written := fun _ ht => nomatch ht

theorem PrefixOk.flush {waiting : List TapeWriteTask} (h : PrefixOk waiting last tasks th) :
    PrefixOk [] last tasks { th with files := 0, bytes := 0, ops := th.ops ++ [TapeOp.flush]
                                     reports := th.reports ++ [Report.flush] } where
  phase := h.phase
  session := h.session
  files := rfl
  bytes := rfl
  active := h.active.concat (by simp) (by simp)
  trailers := by
    rw [trailers_append, h.trailers]
    rfl
  numbers r hr job habout := by
    cases List.mem_append.mp hr with
    | inl hr => exact h.numbers r hr job habout
    | inr hr =>
      rw [List.mem_singleton.mp hr] at habout
      cases habout
  placeheld t ht hheld := by
    obtain ⟨hwritten, hfailed⟩ := h.placeheld t ht hheld
    exact ⟨hwritten.append _, (packerOf_grows th.reports [.flush]).2.subset hfailed⟩
  written t ht hheld := by
    obtain ⟨hwritten, hwaits, hflushed⟩ := h.written t ht hheld
    refine ⟨hwritten.append _, by simp, fun _ => ?_⟩
    by_cases hin : t.archiveJob ∈ waiting.map (·.archiveJob)
    · exact (hwaits hin).flush h.active
    · exact (hflushed hin).append [.flush]

/-- The thread behind a task that did not throw and, if a threshold was reached, a flush. -/
theorem countTask_ok (c : Thresholds) (s : TapeWriteSingleThread.State) (t : TapeWriteTask)
    (waiting : List TapeWriteTask) (hf : s.files = waiting.length)
    (hb : s.bytes = (waiting.map (·.archiveJob.fileSize)).sum) :
    s.countTask c t goodFlush =
      if flushDue c (waiting ++ [t]) = true then
        { s with files := 0, bytes := 0, ops := s.ops ++ [TapeOp.flush]
                 reports := s.reports ++ [Report.flush] }
      else { s with files := s.files + 1, bytes := s.bytes + t.archiveJob.fileSize } := by
  have hdue : flushDue c (waiting ++ [t]) = true ↔ c.filesBeforeFlush ≤ s.files + 1 ∨
      c.bytesBeforeFlush ≤ s.bytes + t.archiveJob.fileSize := by
    simp [flushDue, hf, hb]
  unfold TapeWriteSingleThread.State.countTask
  simp only [hdue]
  split <;> rfl

theorem trailers_file (t : TapeWriteTask) :
    TapeWrite.trailers (fileOps t) = 1 ∧
      TapeWrite.trailers (placeholderOps t) = 1 := by
  refine ⟨?_, rfl⟩
  unfold fileOps TapeWrite.trailers
  rw [List.countP_cons, List.countP_append, List.countP_map]
  simp

theorem PrefixOk.file {waiting : List TapeWriteTask} (h : PrefixOk waiting last tasks th)
    (hbefore : ∀ u ∈ tasks, toInt u.archiveJob.fSeq ≤ last + tasks.length)
    (hnumber : toInt t.archiveJob.fSeq = last + tasks.length + 1) {x : Executed}
    (hsession : x.session = { th.session with lastWrittenFSeq := toInt t.archiveJob.fSeq })
    (hx : if RecoverableError.placeheld t = true then
        x.ops = placeholderOps t ∧ ∃ m, x.reports = [.skipped t.archiveJob m]
      else x.ops = fileOps t ∧ x.reports = [.successful t.archiveJob]) :
    PrefixOk (waiting ++ [t]) last (tasks ++ [t]) { th.absorb x with
      files := th.files + 1, bytes := th.bytes + t.archiveJob.fileSize } := by
  obtain ⟨r, hr, habout, hne⟩ : ∃ r, x.reports = [r] ∧ about r = some t.archiveJob ∧
      ∀ job m, r ≠ .error job m := by
    split at hx
    · obtain ⟨m, hm⟩ := hx.2
      exact ⟨_, hm, rfl, by simp⟩
    · exact ⟨_, hx.2, rfl, by simp⟩
  have hends : r ≠ .endofSession ∧ ∀ m n, r ≠ .endofSessionWithErrors m n := by
    refine ⟨?_, fun m n => ?_⟩ <;> (rintro rfl; cases habout)
  have hnotFlush : r ≠ .flush := by
    rintro rfl
    cases habout
  have hreports : (th.absorb x).reports = th.reports ++ [r] := by
    simp [TapeWriteSingleThread.State.absorb, hr]
  have hops : (th.absorb x).ops = th.ops ++ x.ops := rfl
  have hlength : ((tasks ++ [t]).length : Int) = tasks.length + 1 := by simp
  have hother : ∀ u ∈ tasks, u.archiveJob ≠ t.archiveJob := by
    intro u hu hjob
    have := hbefore u hu
    rw [hjob] at this
    omega
  have hnext : WrittenNext last (th.ops ++ x.ops) t x.ops :=
    ⟨th.ops, [], by simp, by rw [h.trailers]; exact hnumber⟩
  constructor
  · exact h.phase
  · change x.session = _
    rw [hsession, h.session, hlength, hnumber, Int.add_assoc]
  · simp [h.files]
  · simp [h.bytes]
  · rw [hreports]
    exact h.active.concat hne hends
  · rw [hops, trailers_append, h.trailers, List.length_append]
    split at hx
    · rw [hx.1, (trailers_file t).2]
      rfl
    · rw [hx.1, (trailers_file t).1]
      rfl
  · intro r' hr' job hjob
    rw [hreports] at hr'
    cases List.mem_append.mp hr' with
    | inl hr' =>
      have := h.numbers r' hr' job hjob
      omega
    | inr hr' =>
      rw [List.mem_singleton.mp hr', habout] at hjob
      cases hjob
      omega
  · intro u hu hheld
    rw [hreports, hops]
    cases List.mem_append.mp hu with
    | inl hu =>
      obtain ⟨hwritten, hfailed⟩ := h.placeheld u hu hheld
      exact ⟨hwritten.append _, (packerOf_grows th.reports [r]).2.subset hfailed⟩
    | inr hu =>
      obtain rfl := List.mem_singleton.mp hu
      rw [if_pos hheld] at hx
      obtain ⟨hfile, m, hm⟩ := hx
      rw [hfile] at hnext ⊢
      refine ⟨hnext, ?_⟩
      obtain rfl : r = .skipped u.archiveJob m := by simpa [hr] using hm
      rw [packerOf_concat]
      unfold Packer.execute
      rw [if_pos h.active.1]
      simp [Packer.report]
  · intro u hu hheld
    rw [hreports, hops]
    cases List.mem_append.mp hu with
    | inl hu =>
      obtain ⟨hwritten, hwaits, hflushed⟩ := h.written u hu hheld
      refine ⟨hwritten.append _, fun hin => ?_, fun hout => ?_⟩
      · have hin : u.archiveJob ∈ waiting.map (·.archiveJob) := by
          simpa [hother u hu] using hin
        exact (hwaits hin).concat h.active hnotFlush
      · have hout : u.archiveJob ∉ waiting.map (·.archiveJob) := by
          intro hin
          exact hout (by simp_all)
        exact (hflushed hout).append [r]
    | inr hu =>
      obtain rfl := List.mem_singleton.mp hu
      rw [hheld] at hx
      simp only [Bool.false_eq_true, if_false] at hx
      rw [hx.1] at hnext ⊢
      refine ⟨hnext, fun _ => ?_, fun hout => absurd (by simp) hout⟩
      obtain rfl : r = .successful u.archiveJob := by simpa [hr] using hx.2
      refine waits_successful h.active fun hin => ?_
      have := h.numbers _ hin _ rfl
      omega

/-- In the session nothing fails but blocks on the disk side, and the files have consecutive
numbers. -/
structure OnlyDiskFails (last : Int) (tasks : List TapeWriteTask) : Prop where
  drive : ∀ t ∈ tasks, DriveOk t
  numbers : ∀ before t after, tasks = before ++ t :: after →
    toInt t.archiveJob.fSeq = last + before.length + 1
  delivered : ∀ before t after, tasks = before ++ t :: after →
    Delivered (before.any failedLater) t t.blocks 0

theorem OnlyDiskFails.append {more : List TapeWriteTask} (h : OnlyDiskFails last (tasks ++ more)) :
    OnlyDiskFails last tasks where
  drive t ht := h.drive t (List.mem_append_left _ ht)
  numbers before t after he := h.numbers before t (after ++ more) (by simp [he])
  delivered before t after he := h.delivered before t (after ++ more) (by simp [he])

theorem OnlyDiskFails.number_le (h : OnlyDiskFails last tasks) :
    ∀ t ∈ tasks, toInt t.archiveJob.fSeq ≤ last + tasks.length := by
  intro t ht
  obtain ⟨before, after, he⟩ := List.append_of_mem ht
  have hnumber := h.numbers before t after he
  rw [he, List.length_append, List.length_cons]
  push_cast
  omega

def taskEvents (tasks : List TapeWriteTask) : List TapeWriteSingleThread.Event :=
  tasks.map fun t => .task t goodFlush

def events (tasks : List TapeWriteTask) : List TapeWriteSingleThread.Event :=
  sessionEvents (tasks.map fun t => (t, goodFlush)) goodFlush

theorem events_eq (tasks : List TapeWriteTask) :
    events tasks = taskEvents tasks ++ [.endMarker goodFlush] := by
  simp [events, sessionEvents, taskEvents]

theorem events_append (before tasks : List TapeWriteTask) :
    events (before ++ tasks) = taskEvents before ++ events tasks := by
  simp [events_eq, taskEvents]

theorem events_cons (t : TapeWriteTask) (tasks : List TapeWriteTask) :
    events (t :: tasks) = .task t goodFlush :: events tasks := rfl

theorem PrefixOk.accepted {waiting : List TapeWriteTask} (h : PrefixOk waiting last tasks th)
    (hnumber : toInt t.archiveJob.fSeq = last + tasks.length + 1) :
    Accepted t th.session ∧ th.session.corrupted = false ∧ th.session.locked = false := by
  unfold Accepted
  rw [h.session]
  exact ⟨hnumber, rfl, rfl⟩

theorem PrefixOk.count (h : PrefixOk (sinceFlush c tasks) last tasks th)
    (hbefore : ∀ u ∈ tasks, toInt u.archiveJob.fSeq ≤ last + tasks.length)
    (hnumber : toInt t.archiveJob.fSeq = last + tasks.length + 1) {x : Executed}
    (hthrown : x.thrown = none)
    (hsession : x.session = { th.session with lastWrittenFSeq := toInt t.archiveJob.fSeq })
    (hx : if RecoverableError.placeheld t = true then
        x.ops = placeholderOps t ∧ ∃ m, x.reports = [.skipped t.archiveJob m]
      else x.ops = fileOps t ∧ x.reports = [.successful t.archiveJob]) :
    PrefixOk (sinceFlush c (tasks ++ [t])) last (tasks ++ [t]) (th.runTask c t goodFlush x) := by
  have hfile := h.file hbefore hnumber hsession hx
  unfold TapeWriteSingleThread.State.runTask
  rw [hthrown]
  simp only
  rw [countTask_ok c (th.absorb x) t (sinceFlush c tasks) h.files h.bytes, sinceFlush_concat]
  split
  · exact hfile.flush
  · exact hfile

theorem next_running (hphase : th.phase = .running) (t : TapeWriteTask) (f : TapeFlush) :
    TapeWriteSingleThread.next c th (.task t f) =
      th.runTask c t f (execute t th.session th.errorFlag) := by
  simp only [TapeWriteSingleThread.next, hphase]

theorem PrefixOk.task (hdisk : OnlyDiskFails last (tasks ++ [t]))
    (h : PrefixOk (sinceFlush c tasks) last tasks th)
    (hbefore : ∀ u ∈ tasks, failedLater u = false) (hlater : failedLater t = false) :
    PrefixOk (sinceFlush c (tasks ++ [t])) last (tasks ++ [t])
      (TapeWriteSingleThread.next c th (.task t goodFlush)) := by
  have hnumber := hdisk.numbers tasks t [] rfl
  have hb : Delivered false t t.blocks 0 := by
    have hany : tasks.any failedLater = false := by simpa using hbefore
    have := hdisk.delivered tasks t [] rfl
    rwa [hany] at this
  obtain ⟨hacc, hclean⟩ := h.accepted hnumber
  have hx := execute_delivered (hdisk.drive t (by simp)) hb hclean hacc th.errorFlag
  rw [next_running h.phase]
  generalize execute t th.session th.errorFlag = x at hx
  rw [hlater] at hx
  simp only [Bool.false_eq_true, if_false] at hx
  exact h.count hdisk.append.number_le hnumber hx.1 hx.2.1 hx.2.2

theorem prefix_run (c : Thresholds) (hdisk : OnlyDiskFails last tasks)
    (hlater : ∀ t ∈ tasks, failedLater t = false) :
    PrefixOk (sinceFlush c tasks) last tasks ((taskEvents tasks).foldl
      (TapeWriteSingleThread.next c) (TapeWriteSingleThread.State.start ⟨last, false, false⟩ none)) := by
  induction tasks using List.reverseRecOn with
  | nil => exact .start last
  | append_singleton tasks t ih =>
    have hbefore : ∀ u ∈ tasks, failedLater u = false := fun u hu => hlater u (by simp [hu])
    have hfront := ih hdisk.append hbefore
    simp only [taskEvents, List.map_append, List.foldl_append] at hfront ⊢
    exact hfront.task hdisk hbefore (hlater t (by simp))

end Cta.Tape.RecoverableError
