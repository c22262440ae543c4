import Cta.Tape.MigrationReportPacker
import Mathlib.Tactic.Ring

/-! Files are reported as archived only behind a flush of the drive. -/
namespace Cta.Tape.FlushedFiles
open Cta.Scheduler.ArchiveMount (ArchiveJob Calls)
open Cta.Tape.DataPipeline Cta.Tape.TapeWrite Cta.Tape.MigrationReportPacker
open Cta.Tape.TapeWriteSingleThread (Thresholds TapeFlush)

variable {last last' : Int} {tasks : List TapeWriteTask} {ops : List TapeOp}
  {reports : List Report}

/-- The file of a job was written completely between `before` and `after`, with the number that
follows the one of the file before. -/
structure WrittenAt (last : Int) (tasks : List TapeWriteTask) (job : ArchiveJob)
    (before file after : List TapeOp) : Prop where
  number : toInt job.fSeq = last + trailers before + 1
  file : ∃ t ∈ tasks, t.archiveJob = job ∧ Complete t ∧ file = fileOps t

/-- What was reported so far is on tape; and what was reported before a flush was reported is
followed by a flush of the drive. -/
structure ThreadOk (last : Int) (tasks : List TapeWriteTask) (lastWritten : Int)
    (ops : List TapeOp) (reports : List Report) : Prop where
  lastWritten : lastWritten = last + trailers ops
  written : ∀ job, .successful job ∈ reports → ∃ a file b, ops = a ++ file ++ b ∧
    WrittenAt last tasks job a file b
  flushed : ∀ n, reports[n]? = some .flush → ∀ job, .successful job ∈ reports.take n →
    ∃ a file b c, ops = a ++ file ++ (b ++ .flush :: c) ∧
      WrittenAt last tasks job a file (b ++ .flush :: c)
  numbered : ∀ a job b, ops = a ++ .trailer job :: b → toInt job.fSeq = last + trailers a + 1

theorem ThreadOk.start : ThreadOk last tasks last [] [] where
  lastWritten := by simp [trailers]
  written := by simp
  flushed := by simp
  numbered := by simp

theorem WrittenAt.mono {tasks' : List TapeWriteTask} (h : ∀ t ∈ tasks, t ∈ tasks')
    {job : ArchiveJob} {a file b b' : List TapeOp} (hw : WrittenAt last tasks job a file b) :
    WrittenAt last tasks' job a file b' where
  number := hw.number
  file := by
    obtain ⟨t, ht, rest⟩ := hw.file
    exact ⟨t, h t ht, rest⟩

theorem ThreadOk.mono {tasks' : List TapeWriteTask} (h : ThreadOk last tasks last' ops reports)
    (ht : ∀ t ∈ tasks, t ∈ tasks') : ThreadOk last tasks' last' ops reports where
  lastWritten := h.lastWritten
  written job hj := by
    obtain ⟨a, file, b, he, hw⟩ := h.written job hj
    exact ⟨a, file, b, he, hw.mono ht⟩
  flushed n hn job hj := by
    obtain ⟨a, file, b, c, he, hw⟩ := h.flushed n hn job hj
    exact ⟨a, file, b, c, he, hw.mono ht⟩
  numbered := h.numbered

theorem ThreadOk.addReports (h : ThreadOk last tasks last' ops reports) {more : List Report}
    (hs : ∀ job, .successful job ∉ more) (hf : .flush ∉ more) :
    ThreadOk last tasks last' ops (reports ++ more) where
  lastWritten := h.lastWritten
  written job hj := by
    cases List.mem_append.mp hj with
    | inl hj => exact h.written job hj
    | inr hj => exact absurd hj (hs job)
  flushed n hn job hj := by
    cases Nat.lt_or_ge n reports.length with
    | inl hlt =>
      rw [List.getElem?_append_left hlt] at hn
      rw [List.take_append_of_le_length (Nat.le_of_lt hlt)] at hj
      exact h.flushed n hn job hj
    | inr hge =>
      rw [List.getElem?_append_right hge] at hn
      exact absurd (List.mem_of_getElem? hn) hf
  numbered := h.numbered

theorem ThreadOk.driveFlush (h : ThreadOk last tasks last' ops reports) :
    ThreadOk last tasks last' (ops ++ [.flush]) reports where
  lastWritten := by
    rw [h.lastWritten, trailers_append]
    simp [trailers]
  written job hj := by
    obtain ⟨a, file, b, he, hw⟩ := h.written job hj
    exact ⟨a, file, b ++ [.flush], by simp [he], hw.mono fun _ ht => ht⟩
  flushed n hn job hj := by
    obtain ⟨a, file, b, c, he, hw⟩ := h.flushed n hn job hj
    exact ⟨a, file, b, c ++ [.flush], by simp [he], hw.mono fun _ ht => ht⟩
  numbered a job b he := by
    cases List.eq_nil_or_concat b with
    | inl hb =>
      subst hb
      have := (List.append_inj' he rfl).2
      simp at this
    | inr hb =>
      obtain ⟨b', x, rfl⟩ := hb
      have he : ops ++ [.flush] = (a ++ .trailer job :: b') ++ [x] := by simp [he]
      exact h.numbered a job b' (List.append_inj' he rfl).1

theorem ThreadOk.reportFlush (h : ThreadOk last tasks last' ops reports) :
    ThreadOk last tasks last' (ops ++ [.flush]) (reports ++ [.flush]) where
  lastWritten := h.driveFlush.lastWritten
  written job hj := by
    have hj : .successful job ∈ reports := by simpa using hj
    exact h.driveFlush.written job hj
  flushed n hn job hj := by
    cases Nat.lt_trichotomy n reports.length with
    | inl hlt =>
      rw [List.getElem?_append_left hlt] at hn
      rw [List.take_append_of_le_length (Nat.le_of_lt hlt)] at hj
      exact h.driveFlush.flushed n hn job hj
    | inr hge =>
      have hle : reports.length ≤ n := by omega
      have hj : .successful job ∈ reports := by
        have := List.mem_of_mem_take hj
        simpa using this
      obtain ⟨a, file, b, he, hw⟩ := h.written job hj
      exact ⟨a, file, b, [], by simp [he], hw.mono fun _ ht => ht⟩
  numbered := h.driveFlush.numbered

theorem ThreadOk.execute {s : WriteSession} {t : TapeWriteTask} (ht : t ∈ tasks)
    (h : ThreadOk last tasks s.lastWrittenFSeq ops reports) (errorFlag : Bool) :
    ThreadOk last tasks (execute t s errorFlag).session.lastWrittenFSeq
      (ops ++ (execute t s errorFlag).ops) (reports ++ (execute t s errorFlag).reports) := by
  obtain ⟨hlast, hnoflush, hsuccess⟩ := execute_spec t s errorFlag
  generalize hx : TapeWrite.execute t s errorFlag = x at *
  refine ⟨?_, ?_, ?_, ?_⟩
  · rw [hlast, h.lastWritten, trailers_append]
    push_cast
    ring
  · intro job hj
    cases List.mem_append.mp hj with
    | inl hj =>
      obtain ⟨a, file, b, he, hw⟩ := h.written job hj
      exact ⟨a, file, b ++ x.ops, by simp [he], hw.mono fun _ ht => ht⟩
    | inr hj =>
      obtain ⟨hjob, hacc, hcomplete, hops⟩ := hsuccess job hj
      refine ⟨ops, fileOps t, [], by simp [hops], ?_, t, ht, hjob.symm, hcomplete, rfl⟩
      rw [hjob, ← h.lastWritten]
      exact hacc
  · intro n hn job hj
    cases Nat.lt_or_ge n reports.length with
    | inl hlt =>
      rw [List.getElem?_append_left hlt] at hn
      rw [List.take_append_of_le_length (Nat.le_of_lt hlt)] at hj
      obtain ⟨a, file, b, c, he, hw⟩ := h.flushed n hn job hj
      exact ⟨a, file, b, c ++ x.ops, by simp [he], hw.mono fun _ ht => ht⟩
    | inr hge =>
      rw [List.getElem?_append_right hge] at hn
      exact absurd (List.mem_of_getElem? hn) hnoflush
  · intro a job b he
    cases List.append_eq_append_iff.mp he with
    | inl hin =>
      -- the trailer is in what the task wrote
      obtain ⟨a', ha, hb⟩ := hin
      rw [← hx] at hb
      obtain ⟨hjob, hacc, hzero⟩ := execute_trailer hb
      rw [ha, trailers_append, hzero, hjob, Nat.add_zero, ← h.lastWritten]
      exact hacc
    | inr hin =>
      obtain ⟨a', ha, hb⟩ := hin
      cases a' with
      | nil =>
        rw [List.nil_append, ← hx] at hb
        obtain ⟨hjob, hacc, -⟩ := execute_trailer (a := []) hb.symm
        rw [List.append_nil] at ha
        rw [← ha, hjob, ← h.lastWritten]
        exact hacc
      | cons y a' =>
        obtain ⟨rfl, -⟩ := List.cons.inj hb
        exact h.numbered a job a' ha

variable {c : Thresholds} {s : TapeWriteSingleThread.State}

def Sound (last : Int) (tasks : List TapeWriteTask) (s : TapeWriteSingleThread.State) : Prop :=
  ThreadOk last tasks s.session.lastWrittenFSeq s.ops s.reports

theorem Sound.fail (h : Sound last tasks s) (f : Failure) : Sound last tasks (s.fail f) := by
  refine h.addReports (fun job hj => ?_) (fun hj => ?_)
  · split at hj <;> simp at hj
  · split at hj <;> simp at hj

theorem Sound.tapeFlush (h : Sound last tasks s) (f : TapeFlush)
    {g : TapeWriteSingleThread.State → TapeWriteSingleThread.State}
    (hg : ∀ s, Sound last tasks s → Sound last tasks (g s)) :
    Sound last tasks (s.tapeFlush f g) := by
  unfold TapeWriteSingleThread.State.tapeFlush
  cases f.flush with
  | some e => exact h.fail e
  | none =>
    cases f.getCompression with
    | some e =>
      have hdrive : Sound last tasks { s with ops := s.ops ++ [TapeOp.flush] } := h.driveFlush
      exact hdrive.fail e
    | none =>
      have hreport : Sound last tasks { s with
          ops := s.ops ++ [TapeOp.flush], reports := s.reports ++ [Report.flush] } := h.reportFlush
      cases f.clearCompressionStats with
      | some e => exact hreport.fail e
      | none => exact hg _ hreport

theorem Sound.failTask (h : Sound last tasks s) (e : Failure) (t : TapeWriteTask) (done : Bool) :
    Sound last tasks (s.failTask e t done) :=
  h.fail e

theorem Sound.countTask (h : Sound last tasks s) (t : TapeWriteTask) (f : TapeFlush) :
    Sound last tasks (s.countTask c t f) := by
  have hcount : Sound last tasks
      { s with files := s.files + 1, bytes := s.bytes + t.archiveJob.fileSize } := h
  simp only [TapeWriteSingleThread.State.countTask]
  split
  · exact hcount.tapeFlush f fun _ h => h
  · exact hcount

theorem Sound.runTask (t : TapeWriteTask) (f : TapeFlush) (x : Executed)
    (hx : ThreadOk last tasks x.session.lastWrittenFSeq (s.ops ++ x.ops)
      (s.reports ++ x.reports)) : Sound last tasks (s.runTask c t f x) := by
  have habsorb : Sound last tasks (s.absorb x) := hx
  unfold TapeWriteSingleThread.State.runTask
  cases x.thrown with
  | some e => exact habsorb.failTask e t x.finished
  | none => exact habsorb.countTask t f

theorem Sound.next {t : TapeWriteTask} (h : Sound last tasks s) (f : TapeFlush)
    (ht : t ∈ tasks) : Sound last tasks (TapeWriteSingleThread.next c s (.task t f)) := by
  unfold TapeWriteSingleThread.next
  cases s.phase with
  | running => exact Sound.runTask t f _ (ThreadOk.execute ht h s.errorFlag)
  | draining e => exact h
  | ended => exact h

theorem Sound.endMarker (h : Sound last tasks s) (f : TapeFlush) :
    Sound last tasks (TapeWriteSingleThread.next c s (.endMarker f)) := by
  unfold TapeWriteSingleThread.next
  cases s.phase with
  | running =>
    refine h.tapeFlush f fun s h => ?_
    exact h.addReports (by simp) (by simp)
  | draining e => exact h.addReports (by simp) (by simp)
  | ended => exact h

variable {p : Packer}

def NoError (reports : List Report) : Prop := ∀ job m, .error job m ∉ reports

/-- What the packer knows comes from the reports it executed. -/
structure PackerOk (reports : List Report) (p : Packer) : Prop where
  executed : p.executed ≤ reports.length
  queue : ∀ job ∈ p.successfulArchiveJobs, .successful job ∈ reports.take p.executed
  noError : p.continues = true → p.errorHappened = false → NoError (reports.take p.executed)
  handed : ∀ x ∈ p.handed, reports[x.2]? = some .flush ∧ .successful x.1 ∈ reports.take x.2 ∧
    NoError (reports.take x.2)

theorem PackerOk.start : PackerOk reports .start where
  executed := Nat.zero_le _
  queue := nofun
  noError _ _ job m := by simp [Packer.start]
  handed := nofun

theorem PackerOk.append (h : PackerOk reports p) (more : List Report) :
    PackerOk (reports ++ more) p where
  executed := by
    have := h.executed
    simp
    omega
  queue job hj := by
    rw [List.take_append_of_le_length h.executed]
    exact h.queue job hj
  noError hc he := by
    rw [List.take_append_of_le_length h.executed]
    exact h.noError hc he
  handed x hx := by
    obtain ⟨hf, hs, he⟩ := h.handed x hx
    have hlt := (List.getElem?_eq_some_iff.mp hf).1
    rw [List.getElem?_append_left hlt, List.take_append_of_le_length (Nat.le_of_lt hlt)]
    exact ⟨hf, hs, he⟩

theorem PackerOk.end_ (h : PackerOk reports p) :
    PackerOk reports { p with continues := false } where
  executed := h.executed
  queue := h.queue
  noError := nofun
  handed := h.handed

theorem take_succ_of {n : Nat} {r : Report} (h : reports[n]? = some r) :
    reports.take (n + 1) = reports.take n ++ [r] := by
  rw [List.take_add_one, h]
  rfl

theorem PackerOk.execute (h : PackerOk reports p) {r : Report} (hr : reports[p.executed]? = some r)
    (c : Calls) (throws : Bool) : PackerOk reports (p.execute c throws r) := by
  have hlt : p.executed < reports.length := (List.getElem?_eq_some_iff.mp hr).1
  have htake := take_succ_of hr
  have hold : ∀ {x}, x ∈ reports.take p.executed → x ∈ reports.take (p.executed + 1) := by
    intro x hx
    rw [htake]
    exact List.mem_append_left _ hx
  unfold Packer.execute
  cases hc : p.continues with
  | false =>
    refine ⟨hlt, fun job hj => hold (h.queue job hj), ?_, h.handed⟩
    intro hcont
    exact absurd hcont (by simp)
  | true =>
    have hnoError : p.errorHappened = false → (∀ job m, r ≠ .error job m) →
        NoError (reports.take (p.executed + 1)) := by
      intro he hne job m hin
      rw [htake] at hin
      cases List.mem_append.mp hin with
      | inl hin => exact h.noError hc he job m hin
      | inr hin => exact hne job m (List.mem_singleton.mp hin).symm
    rw [if_pos rfl]
    cases r with
    | successful job =>
      refine ⟨hlt, fun j hj => ?_, fun _ he => hnoError he (by simp), h.handed⟩
      cases List.mem_append.mp hj with
      | inl hj => exact hold (h.queue j hj)
      | inr hj =>
        have hj : j = job := by simpa using hj
        rw [hj]
        change _ ∈ reports.take (p.executed + 1)
        rw [htake]
        simp
    | skipped job m =>
      exact ⟨hlt, fun j hj => hold (h.queue j hj), fun _ he => hnoError he (by simp), h.handed⟩
    | error job m =>
      exact ⟨hlt, fun j hj => hold (h.queue j hj), fun _ he => (nomatch he), h.handed⟩
    | tapeFull =>
      exact ⟨hlt, fun j hj => hold (h.queue j hj), fun _ he => hnoError he (by simp), h.handed⟩
    | endofSession =>
      exact ⟨hlt, fun j hj => hold (h.queue j hj), fun _ he => hnoError he (by simp), h.handed⟩
    | endofSessionWithErrors m code =>
      exact ⟨hlt, fun j hj => hold (h.queue j hj), fun _ he => hnoError he (by simp), h.handed⟩
    | flush =>
      refine ⟨hlt, fun j hj => hold (h.queue j (ReportFlush.execute_left hj)),
        fun _ he => hnoError he (by simp), fun x hx => ?_⟩
      cases List.mem_append.mp hx with
      | inl hx => exact h.handed x hx
      | inr hx =>
        -- the batch is handed over where no error was executed
        cases he : p.errorHappened with
        | true => simp [he] at hx
        | false =>
          rw [he] at hx
          obtain ⟨job, hj, rfl⟩ := List.mem_map.mp hx
          exact ⟨hr, h.queue job hj, h.noError hc he⟩

theorem tapeFlush_reports (f : TapeFlush)
    {g : TapeWriteSingleThread.State → TapeWriteSingleThread.State}
    (hg : ∀ s, s.reports <+: (g s).reports) : s.reports <+: (s.tapeFlush f g).reports := by
  unfold TapeWriteSingleThread.State.tapeFlush
  cases f.flush with
  | some e => exact List.prefix_append _ _
  | none =>
    cases f.getCompression with
    | some e => exact List.prefix_append _ _
    | none =>
      have hreport : s.reports <+: s.reports ++ [Report.flush] := List.prefix_append _ _
      cases f.clearCompressionStats with
      | some e => exact hreport.trans (List.prefix_append _ _)
      | none =>
        exact hreport.trans (hg { s with
          ops := s.ops ++ [TapeOp.flush], reports := s.reports ++ [Report.flush] })

theorem runTask_reports (t : TapeWriteTask) (f : TapeFlush) (x : Executed) :
    s.reports <+: (s.runTask c t f x).reports := by
  have habsorb : s.reports <+: (s.absorb x).reports := List.prefix_append _ _
  unfold TapeWriteSingleThread.State.runTask
  cases x.thrown with
  | some e => exact habsorb.trans (List.prefix_append _ _)
  | none =>
    refine habsorb.trans ?_
    simp only [TapeWriteSingleThread.State.countTask]
    split
    · have hflush := tapeFlush_reports (s := { s.absorb x with
          files := (s.absorb x).files + 1
          bytes := (s.absorb x).bytes + t.archiveJob.fileSize }) f
        (g := fun s => { s with files := 0, bytes := 0 }) fun _ => List.prefix_rfl
      exact hflush
    · exact List.prefix_rfl

theorem next_reports (e : TapeWriteSingleThread.Event) :
    s.reports <+: (TapeWriteSingleThread.next c s e).reports := by
  unfold TapeWriteSingleThread.next
  cases e with
  | task t f =>
    cases s.phase with
    | running => exact runTask_reports t f _
    | draining e => exact List.prefix_rfl
    | ended => exact List.prefix_rfl
  | endMarker f =>
    cases s.phase with
    | running => exact tapeFlush_reports f fun _ => List.prefix_append _ _
    | draining e => exact List.prefix_append _ _
    | ended => exact List.prefix_rfl

def poppedTasks : Event → List TapeWriteTask
  | .tape (.task t _) => [t]
  | _ => []

theorem run_step {s : State} {e : Event} (ht : ∀ t ∈ poppedTasks e, t ∈ tasks)
    (hs : Sound last tasks s.thread) (hp : PackerOk s.thread.reports s.packer) :
    Sound last tasks (next c s e).thread ∧
      PackerOk (next c s e).thread.reports (next c s e).packer := by
  cases e with
  | tape e =>
    obtain ⟨more, hmore⟩ := next_reports (c := c) (s := s.thread) e
    refine ⟨?_, ?_⟩
    · cases e with
      | task t f => exact hs.next f (ht t (by simp [poppedTasks]))
      | endMarker f => exact Sound.endMarker (c := c) hs f
    · have := hp.append more
      rwa [hmore] at this
  | report calls throws =>
    unfold MigrationReportPacker.next
    cases hr : s.thread.reports[s.packer.executed]? with
    | none => exact ⟨hs, hp⟩
    | some r => exact ⟨hs, hp.execute hr calls throws⟩
  | synchronousEnd => exact ⟨hs, hp.end_⟩

theorem run_spec (es : List Event) {s : State} (ht : ∀ t ∈ es.flatMap poppedTasks, t ∈ tasks)
    (hs : Sound last tasks s.thread) (hp : PackerOk s.thread.reports s.packer) :
    Sound last tasks (es.foldl (next c) s).thread ∧
      PackerOk (es.foldl (next c) s).thread.reports (es.foldl (next c) s).packer := by
  induction es generalizing s with
  | nil => exact ⟨hs, hp⟩
  | cons e es ih =>
    have hfirst : ∀ t ∈ poppedTasks e, t ∈ tasks := fun t h =>
      ht t (List.mem_append_left _ h)
    obtain ⟨hs', hp'⟩ := run_step (c := c) hfirst hs hp
    exact ih (fun t h => ht t (List.mem_append_right _ h)) hs' hp'

theorem start_ok (session : WriteSession) (mount : Option Failure) :
    Sound session.lastWrittenFSeq tasks (State.start session mount).thread ∧
      PackerOk (State.start session mount).thread.reports (State.start session mount).packer := by
  refine ⟨?_, .start⟩
  cases mount with
  | none => exact ThreadOk.start
  | some f => exact Sound.fail (s := ⟨.running, session, false, 0, 0, [], [], [], []⟩) ThreadOk.start f

/-- A trailer is found again by the number of trailers before it. -/
theorem trailer_unique {a a' b b' : List TapeOp} {job : ArchiveJob}
    (h : a ++ .trailer job :: b = a' ++ .trailer job :: b') (hn : trailers a = trailers a') :
    b = b' := by
  have hlonger : ∀ {p q z : List TapeOp}, trailers p = trailers q →
      q = p ++ .trailer job :: z → False := by
    intro p q z hp hq
    rw [hq, trailers_append] at hp
    simp [trailers] at hp
  cases List.append_eq_append_iff.mp h with
  | inl h =>
    obtain ⟨z, ha, hb⟩ := h
    cases z with
    | nil => simpa using hb
    | cons y z =>
      obtain ⟨rfl, -⟩ := List.cons.inj hb
      exact (hlonger hn ha).elim
  | inr h =>
    obtain ⟨z, ha, hb⟩ := h
    cases z with
    | nil => simpa using hb.symm
    | cons y z =>
      obtain ⟨rfl, -⟩ := List.cons.inj hb
      exact (hlonger hn.symm ha).elim

/-- In every run a job is handed over as successful only behind its complete file and a flush
that followed, with no error reported before that flush; a file that no flush follows is not. -/
theorem archived_only_flushed (c : Thresholds) (session : WriteSession) (mount : Option Failure)
    (es : List Event) :
    let run := es.foldl (next c) (State.start session mount)
    (∀ x ∈ run.packer.handed,
      (∃ a file b d, run.thread.ops = a ++ file ++ (b ++ .flush :: d) ∧
        WrittenAt session.lastWrittenFSeq (es.flatMap poppedTasks) x.1 a file (b ++ .flush :: d)) ∧
      run.thread.reports[x.2]? = some .flush ∧ .successful x.1 ∈ run.thread.reports.take x.2 ∧
        NoError (run.thread.reports.take x.2)) ∧
      ∀ t a b, run.thread.ops = a ++ fileOps t ++ b → .flush ∉ b →
        ∀ n, (t.archiveJob, n) ∉ run.packer.handed := by
  intro run
  obtain ⟨hstart, hpacker⟩ := start_ok session mount
  obtain ⟨hs, hp⟩ := run_spec (c := c) es (fun _ h => h) hstart hpacker
  have hs : ThreadOk session.lastWrittenFSeq (es.flatMap poppedTasks)
    run.thread.session.lastWrittenFSeq run.thread.ops run.thread.reports := hs
  have hp : PackerOk run.thread.reports run.packer := hp
  have hflushed : ∀ x ∈ run.packer.handed, ∃ a file b d,
      run.thread.ops = a ++ file ++ (b ++ .flush :: d) ∧
        WrittenAt session.lastWrittenFSeq (es.flatMap poppedTasks) x.1 a file
          (b ++ .flush :: d) := by
    intro x hx
    obtain ⟨hf, hj, -⟩ := hp.handed x hx
    exact hs.flushed x.2 hf x.1 hj
  refine ⟨fun x hx => ⟨hflushed x hx, hp.handed x hx⟩, ?_⟩
  intro t a b hops hnot n hx
  obtain ⟨a', file, b', d, hops', hw⟩ := hflushed _ hx
  obtain ⟨t', -, hjob, -, rfl⟩ := hw.file
  have hsplit : run.thread.ops =
      (a ++ .header t.archiveJob :: t.blocks.map .data) ++ .trailer t.archiveJob :: b := by
    simp [hops, fileOps]
  have hsplit' : run.thread.ops = (a' ++ .header t'.archiveJob :: t'.blocks.map .data) ++
      .trailer t.archiveJob :: (b' ++ .flush :: d) := by
    simp [hops', fileOps, hjob]
  have hn := hs.numbered _ _ _ hsplit
  have hn' := hs.numbered _ _ _ hsplit'
  have hb := trailer_unique (hsplit.symm.trans hsplit') (by omega)
  exact hnot (hb ▸ by simp)

end Cta.Tape.FlushedFiles
