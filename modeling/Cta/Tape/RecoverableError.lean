import Cta.Tape.SessionPrefix

/-! What a block that the disk side could not fill does to the rest of a migration session. -/
namespace Cta.Tape.RecoverableError
open Cta.Scheduler.ArchiveMount (ArchiveJob Calls)
open Cta.Tape.DataPipeline Cta.Tape.TapeWrite Cta.Tape.MigrationReportPacker
open Cta.Tape.TapeWriteSingleThread (Thresholds TapeFlush sessionEvents goodFlush)
variable {t : TapeWriteTask} {s : WriteSession} {failing : Bool}
variable {c : Thresholds} {reports more : List Report} {job : ArchiveJob}
variable {last : Int} {tasks : List TapeWriteTask} {th : TapeWriteSingleThread.State}

theorem countTask_grows (c : Thresholds) (s : TapeWriteSingleThread.State) (t : TapeWriteTask) :
    (s.countTask c t goodFlush).phase = s.phase ∧
      (s.countTask c t goodFlush).session = s.session ∧
      (∃ more, (s.countTask c t goodFlush).reports = s.reports ++ more ∧
        ∀ r ∈ more, about r = none) ∧
      ∃ more, (s.countTask c t goodFlush).ops = s.ops ++ more := by
  unfold TapeWriteSingleThread.State.countTask
  simp only
  split
  · exact ⟨rfl, rfl, ⟨[.flush], rfl, by simp [about]⟩, [.flush], rfl⟩
  · exact ⟨rfl, rfl, ⟨[], by simp, by simp⟩, [], by simp⟩

/-- Behind a file that failed later than at its first block the number of the session has stayed
where it was, and the error was reported. -/
theorem PrefixOk.failed {waiting : List TapeWriteTask} (h : PrefixOk waiting last tasks th)
    {x : Executed} (hthrown : x.thrown = none)
    (hsession : x.session = { th.session with corrupted := true }) {m : String}
    (hreports : x.reports = [.error t.archiveJob m]) (c : Thresholds) :
    (th.runTask c t goodFlush x).phase = .running ∧
      (th.runTask c t goodFlush x).session.lastWrittenFSeq = last + tasks.length ∧
      (∃ more, (th.runTask c t goodFlush x).reports =
        th.reports ++ .error t.archiveJob m :: more ∧ ∀ r ∈ more, about r = none) ∧
      ∃ more, (th.runTask c t goodFlush x).ops = th.ops ++ more := by
  unfold TapeWriteSingleThread.State.runTask
  rw [hthrown]
  obtain ⟨hphase, hs, ⟨more, hr, hmore⟩, ops, hops⟩ := countTask_grows c (th.absorb x) t
  refine ⟨hphase.trans h.phase, ?_, ⟨more, ?_, hmore⟩, x.ops ++ ops, ?_⟩
  · simp only [hs]
    simp [TapeWriteSingleThread.State.absorb, hsession, h.session]
  · simp only [hr]
    simp [TapeWriteSingleThread.State.absorb, hreports]
  · simp only [hops]
    simp [TapeWriteSingleThread.State.absorb]

theorem endMarker_running (hphase : th.phase = .running) :
    (TapeWriteSingleThread.next c th (.endMarker goodFlush)).reports =
        th.reports ++ [.flush, .endofSession] ∧
      (TapeWriteSingleThread.next c th (.endMarker goodFlush)).ops = th.ops ++ [.flush] := by
  simp only [TapeWriteSingleThread.next, hphase]
  simp [TapeWriteSingleThread.State.tapeFlush, goodFlush]

theorem draining_reports {f : Failure} (hphase : th.phase = .draining f)
    (tasks : List TapeWriteTask) :
    ∃ r, ((events tasks).foldl (TapeWriteSingleThread.next c) th).reports = th.reports ++ [r] ∧
      about r = none := by
  induction tasks generalizing th with
  | nil =>
    refine ⟨.endofSessionWithErrors (TapeWriteSingleThread.endErrorMessage f)
      (TapeWriteSingleThread.endErrorCode f), ?_, rfl⟩
    rw [events_eq]
    simp only [taskEvents, List.map_nil, List.nil_append, List.foldl_cons, List.foldl_nil,
      TapeWriteSingleThread.next, hphase]
  | cons t tasks ih =>
    have hnext : TapeWriteSingleThread.next c th (.task t goodFlush) =
        { th with released := th.released ++ t.blocks } := by
      simp only [TapeWriteSingleThread.next, hphase]
    have hfirst : (TapeWriteSingleThread.next c th (.task t goodFlush)).phase = .draining f := by
      rw [hnext]
      exact hphase
    obtain ⟨r, hr, habout⟩ := ih hfirst
    refine ⟨r, ?_, habout⟩
    rw [hnext] at hr
    rw [events_cons, List.foldl_cons, hnext]
    exact hr

theorem refused_reports (hphase : th.phase = .running) (hrefused : ¬Accepted t th.session)
    (tasks : List TapeWriteTask) :
    ∃ r, ((events (t :: tasks)).foldl (TapeWriteSingleThread.next c) th).reports =
      th.reports ++ [r] ∧ about r = none := by
  have hnext := next_running (c := c) hphase t goodFlush
  rw [execute_refused th.errorFlag hrefused] at hnext
  generalize hfailure : Failure.exception
    "In WriteSession::validateNextFSeq: wrong fSeq sequence" = f at hnext
  have hfull : f ≠ .errnum ENOSPC := by
    rw [← hfailure]
    simp
  generalize hth : TapeWriteSingleThread.next c th (.task t goodFlush) = th' at hnext
  have hphase' : th'.phase = .draining f := by
    rw [hnext]
    rfl
  have hreports : th'.reports = th.reports := by
    rw [hnext]
    simp [TapeWriteSingleThread.State.runTask, TapeWriteSingleThread.State.failTask,
      TapeWriteSingleThread.State.fail, TapeWriteSingleThread.State.absorb, hfull]
  obtain ⟨r, hr, habout⟩ := draining_reports (c := c) hphase' tasks
  refine ⟨r, ?_, habout⟩
  rw [hreports] at hr
  rw [events_cons, List.foldl_cons, hth]
  exact hr

def tapeEvents : Event → List TapeWriteSingleThread.Event
  | .tape e => [e]
  | _ => []

/-- The two threads run to the end in some order, nobody else ends the packer and no call of it
fails. -/
structure Undisturbed (c : Thresholds) (last : Int) (tasks : List TapeWriteTask)
    (es : List Event) : Prop where
  tape : es.flatMap tapeEvents = events tasks
  calls : ∀ calls throws, .report calls throws ∈ es → CallsOk calls ∧ throws = false
  alone : .synchronousEnd ∉ es
  executed : (es.foldl (next c) (State.start ⟨last, false, false⟩ none)).packer.executed =
    (es.foldl (next c) (State.start ⟨last, false, false⟩ none)).thread.reports.length

/-- The file was put on tape with the next number, and handed over at the next flush; or if it has
no block, a placeholder was, and it was reported. -/
def Served (last : Int) (run : State) (t : TapeWriteTask) : Prop :=
  if placeheld t = true then
    WrittenNext last run.thread.ops t (placeholderOps t) ∧ t.archiveJob ∈ run.packer.failed
  else
    WrittenNext last run.thread.ops t (fileOps t) ∧
      AtNextFlush run.thread.reports run.packer t.archiveJob

/-- Each file with a failed block is reported, and the migration proceeds behind it. -/
def Proceeds (last : Int) (run : State) (tasks : List TapeWriteTask) : Prop :=
  ∀ before t after, tasks = before ++ t :: after → hasFailed t = true →
    t.archiveJob ∈ run.packer.failed ∧
      ∀ u ∈ after, hasFailed u = false → Served last run u

/-- A file with a failed block behind its first one is the last file, and no file that comes after
another one with a failed block waits for a flush then. -/
def Condition (c : Thresholds) (tasks : List TapeWriteTask) : Prop :=
  ∀ before t after, tasks = before ++ t :: after → failedLater t = true →
    after = [] ∧ ∀ before' u after', before = before' ++ u :: after' → hasFailed u = true →
      ∀ v ∈ after', hasFailed v = false → placeheld v = false →
        v.archiveJob ∉ (sinceFlush c before).map (·.archiveJob)

theorem run_thread (es : List Event) (s : State) :
    (es.foldl (next c) s).thread =
      (es.flatMap tapeEvents).foldl (TapeWriteSingleThread.next c) s.thread := by
  induction es generalizing s with
  | nil => rfl
  | cons e es ih =>
    rw [List.foldl_cons, ih, List.flatMap_cons, List.foldl_append]
    cases e with
    | tape e => rfl
    | report calls throws =>
      simp only [next, tapeEvents, List.foldl_nil]
      cases s.thread.reports[s.packer.executed]? <;> rfl
    | synchronousEnd => rfl

theorem run_packer (es : List Event) {s : State}
    (hcalls : ∀ calls throws, .report calls throws ∈ es → CallsOk calls ∧ throws = false)
    (halone : .synchronousEnd ∉ es) (hle : s.packer.executed ≤ s.thread.reports.length)
    (hs : s.packer = packerOf (s.thread.reports.take s.packer.executed)) :
    (es.foldl (next c) s).packer = packerOf ((es.foldl (next c) s).thread.reports.take
      (es.foldl (next c) s).packer.executed) := by
  induction es generalizing s with
  | nil => exact hs
  | cons e es ih =>
    have hcalls' : ∀ calls throws, .report calls throws ∈ es → CallsOk calls ∧ throws = false :=
      fun calls throws h => hcalls calls throws (List.mem_cons_of_mem e h)
    have halone' : .synchronousEnd ∉ es := fun h => halone (List.mem_cons_of_mem e h)
    rw [List.foldl_cons]
    cases e with
    | synchronousEnd => exact absurd List.mem_cons_self halone
    | tape e =>
      obtain ⟨more, hmore⟩ := FlushedFiles.next_reports (c := c) (s := s.thread) e
      refine ih hcalls' halone' ?_ ?_
      · simp only [next, ← hmore, List.length_append]
        omega
      · simp only [next, ← hmore]
        rw [List.take_append_of_le_length hle]
        exact hs
    | report calls throws =>
      obtain ⟨hok, rfl⟩ := hcalls calls throws List.mem_cons_self
      cases hr : s.thread.reports[s.packer.executed]? with
      | none =>
        refine ih hcalls' halone' ?_ ?_
        · simp only [next, hr]
          exact hle
        · simp only [next, hr]
          exact hs
      | some r =>
        have hlt := (List.getElem?_eq_some_iff.mp hr).1
        refine ih hcalls' halone' ?_ ?_
        · simp only [next, hr, execute_executed]
          exact hlt
        · simp only [next, hr, execute_executed]
          rw [FlushedFiles.take_succ_of hr, packerOf_concat, execute_ok hok, ← hs]

theorem Undisturbed.run {es : List Event} (h : Undisturbed c last tasks es) :
    es.foldl (next c) (State.start ⟨last, false, false⟩ none) =
      let thread := (events tasks).foldl (TapeWriteSingleThread.next c)
        (TapeWriteSingleThread.State.start ⟨last, false, false⟩ none)
      ⟨thread, packerOf thread.reports⟩ := by
  have hthread := run_thread (c := c) es (State.start ⟨last, false, false⟩ none)
  have hpacker := run_packer (c := c) (s := State.start ⟨last, false, false⟩ none) es h.calls
    h.alone (Nat.zero_le _) rfl
  rw [h.executed, List.take_length] at hpacker
  rw [h.tape] at hthread
  generalize es.foldl (next c) (State.start ⟨last, false, false⟩ none) = run at hthread hpacker
  obtain ⟨thread, packer⟩ := run
  simp only at hthread hpacker
  rw [hpacker, hthread]
  rfl

theorem Served.append {ops moreOps : List TapeOp} {final : TapeWriteSingleThread.State}
    (hops : final.ops = ops ++ moreOps) (hreports : final.reports = reports ++ more)
    (h : if placeheld t = true then
        WrittenNext last ops t (placeholderOps t) ∧ t.archiveJob ∈ (packerOf reports).failed
      else WrittenNext last ops t (fileOps t) ∧
        AtNextFlush reports (packerOf reports) t.archiveJob) :
    Served last ⟨final, packerOf final.reports⟩ t := by
  unfold Served
  simp only [hops, hreports]
  split
  · next hheld =>
    rw [if_pos hheld] at h
    exact ⟨h.1.append _, (packerOf_grows reports more).2.subset h.2⟩
  · next hheld =>
    rw [if_neg hheld] at h
    exact ⟨h.1.append _, h.2.append more⟩

theorem PrefixOk.end_served {waiting : List TapeWriteTask} (h : PrefixOk waiting last tasks th)
    {final : TapeWriteSingleThread.State} (hreports : final.reports =
      th.reports ++ [.flush, .endofSession]) (hops : final.ops = th.ops ++ [.flush]) :
    ∀ t ∈ tasks, Served last ⟨final, packerOf final.reports⟩ t := by
  intro t ht
  have hflush := h.flush
  have hops' : final.ops = (th.ops ++ [.flush]) ++ [] := by simp [hops]
  have hreports' : final.reports = (th.reports ++ [.flush]) ++ [.endofSession] := by
    simp [hreports]
  refine Served.append hops' hreports' ?_
  split
  · next hheld => exact hflush.placeheld t ht hheld
  · next hheld =>
    obtain ⟨hwritten, -, hflushed⟩ := hflush.written t ht (by simpa using hheld)
    exact ⟨hwritten, hflushed (by simp)⟩

theorem first_failedLater (tasks : List TapeWriteTask) :
    (∀ t ∈ tasks, failedLater t = false) ∨ ∃ before t after, tasks = before ++ t :: after ∧
      failedLater t = true ∧ ∀ u ∈ before, failedLater u = false := by
  induction tasks with
  | nil => exact .inl (by simp)
  | cons t tasks ih =>
    cases hlater : failedLater t with
    | true => exact .inr ⟨[], t, tasks, rfl, hlater, by simp⟩
    | false =>
      cases ih with
      | inl ih => exact .inl (List.forall_mem_cons.mpr ⟨hlater, ih⟩)
      | inr ih =>
        obtain ⟨before, u, after, rfl, hu, hbefore⟩ := ih
        exact .inr ⟨t :: before, u, after, rfl, hu, List.forall_mem_cons.mpr ⟨hlater, hbefore⟩⟩

theorem placeheld_of (hfailed : hasFailed t = true) (hlater : failedLater t = false) :
    placeheld t = true := by
  simpa [failedLater, hfailed] using hlater

theorem proceeds_of_none (hdisk : OnlyDiskFails last tasks)
    (hlater : ∀ t ∈ tasks, failedLater t = false) {final : TapeWriteSingleThread.State}
    (hfinal : final = (events tasks).foldl (TapeWriteSingleThread.next c)
      (TapeWriteSingleThread.State.start ⟨last, false, false⟩ none)) :
    Proceeds last ⟨final, packerOf final.reports⟩ tasks := by
  have hfront := prefix_run c hdisk hlater
  rw [events_eq, List.foldl_append, List.foldl_cons, List.foldl_nil] at hfinal
  obtain ⟨hreports, hops⟩ := endMarker_running (c := c) hfront.phase
  rw [← hfinal] at hreports hops
  have hserved := hfront.end_served hreports hops
  intro before t after htasks hfailed
  subst htasks
  refine ⟨?_, fun u hu _ => hserved u (by simp [hu])⟩
  have ht := hserved t (by simp)
  unfold Served at ht
  rw [if_pos (placeheld_of hfailed (hlater t (by simp)))] at ht
  exact ht.2

theorem failed_run {before after : List TapeWriteTask}
    (hdisk : OnlyDiskFails last (before ++ t :: after)) (hlater : failedLater t = true)
    (hbefore : ∀ u ∈ before, failedLater u = false)
    (h : PrefixOk (sinceFlush c before) last before th) :
    (TapeWriteSingleThread.next c th (.task t goodFlush)).phase = .running ∧
      (TapeWriteSingleThread.next c th (.task t goodFlush)).session.lastWrittenFSeq =
        last + before.length ∧
      (∃ m more, (TapeWriteSingleThread.next c th (.task t goodFlush)).reports =
        th.reports ++ .error t.archiveJob m :: more ∧ ∀ r ∈ more, about r = none) ∧
      ∃ more, (TapeWriteSingleThread.next c th (.task t goodFlush)).ops = th.ops ++ more := by
  have hb : Delivered false t t.blocks 0 := by
    have hany : before.any failedLater = false := by simpa using hbefore
    have := hdisk.delivered before t after rfl
    rwa [hany] at this
  obtain ⟨hacc, hclean⟩ := h.accepted (hdisk.numbers before t after rfl)
  have hx := execute_delivered (hdisk.drive t (by simp)) hb hclean hacc th.errorFlag
  rw [next_running h.phase]
  generalize execute t th.session th.errorFlag = x at hx
  rw [hlater] at hx
  obtain ⟨hthrown, hsession, m, hm⟩ := hx
  obtain ⟨hphase, hnumber, ⟨more, hreports, hmore⟩, hops⟩ := h.failed hthrown hsession hm c
  exact ⟨hphase, hnumber, ⟨m, more, hreports, hmore⟩, hops⟩

theorem packerOf_error (hactive : Active reports) (job : ArchiveJob) (m : String)
    (more : List Report) :
    job ∈ (packerOf (reports ++ .error job m :: more)).failed ∧
      (packerOf (reports ++ .error job m :: more)).handed = (packerOf reports).handed := by
  have herror : packerOf (reports ++ [.error job m]) =
      (packerOf reports).execute okCalls false (.error job m) := packerOf_concat _ _
  have hexecute : (packerOf reports).execute okCalls false (.error job m) =
      { packerOf reports with
        errorHappened := true, failed := (packerOf reports).failed ++ [job]
        executed := (packerOf reports).executed + 1 } := by
    unfold Packer.execute
    rw [if_pos hactive.1]
    simp [Packer.report]
  have hsplit : reports ++ .error job m :: more = (reports ++ [.error job m]) ++ more := by simp
  rw [hsplit]
  refine ⟨(packerOf_grows _ more).2.subset ?_, ?_⟩
  · rw [herror, hexecute]
    simp
  · rw [packerOf_errorHappened (by rw [herror, hexecute]) more, herror, hexecute]

theorem proceeds_of_last {before : List TapeWriteTask}
    (hdisk : OnlyDiskFails last (before ++ [t])) (hlater : failedLater t = true)
    (hbefore : ∀ u ∈ before, failedLater u = false) {final : TapeWriteSingleThread.State}
    (hfinal : final = (events (before ++ [t])).foldl (TapeWriteSingleThread.next c)
      (TapeWriteSingleThread.State.start ⟨last, false, false⟩ none)) :
    Proceeds last ⟨final, packerOf final.reports⟩ (before ++ [t]) ↔
      ∀ before' u after', before = before' ++ u :: after' → hasFailed u = true →
        ∀ v ∈ after', hasFailed v = false → placeheld v = false →
          v.archiveJob ∉ (sinceFlush c before).map (·.archiveJob) := by
  have hfront := prefix_run c hdisk.append hbefore
  rw [events_append, List.foldl_append] at hfinal
  change final = TapeWriteSingleThread.next c (TapeWriteSingleThread.next c
    ((taskEvents before).foldl _ _) (.task t goodFlush)) (.endMarker goodFlush) at hfinal
  generalize (taskEvents before).foldl (TapeWriteSingleThread.next c)
    (TapeWriteSingleThread.State.start ⟨last, false, false⟩ none) = th at hfront hfinal
  obtain ⟨hphase, -, ⟨m, more, hreports, hmore⟩, moreOps, hops⟩ :=
    failed_run hdisk hlater hbefore hfront
  obtain ⟨hreports', hops'⟩ := endMarker_running (c := c) hphase
  rw [← hfinal, hreports] at hreports'
  rw [← hfinal, hops] at hops'
  have hreports' : final.reports =
      th.reports ++ .error t.archiveJob m :: (more ++ [.flush, .endofSession]) := by
    simp [hreports']
  have hops' : final.ops = th.ops ++ (moreOps ++ [.flush]) := by simp [hops']
  obtain ⟨hfailed, hhanded⟩ := packerOf_error hfront.active t.archiveJob m
    (more ++ [.flush, .endofSession])
  have hheld : ∀ u ∈ before, placeheld u = true →
      Served last ⟨final, packerOf final.reports⟩ u := by
    intro u hu hheld
    refine Served.append hops' hreports' ?_
    rw [if_pos hheld]
    exact hfront.placeheld u hu hheld
  constructor
  · intro hproceeds before' u after' he hu v hv hvfailed hvheld hwaits
    have hin : v ∈ before := by simp [he, hv]
    have hserved := (hproceeds before' u (after' ++ [t]) (by simp [he]) hu).2 v (by simp [hv])
      hvfailed
    unfold Served at hserved
    rw [if_neg (by simp [hvheld])] at hserved
    obtain ⟨-, a, b, d, -, -, hhand⟩ := hserved
    simp only [hreports', hhanded] at hhand
    exact ((hfront.written v hin hvheld).2.1 hwaits).not_handed _ hhand
  · intro hcond before' u after' he hu
    cases List.eq_nil_or_concat after' with
    | inl hnil =>
      subst hnil
      obtain ⟨rfl, hut⟩ := List.append_inj' he rfl
      obtain rfl : t = u := by simpa using hut
      refine ⟨?_, by simp⟩
      simp only [hreports']
      exact hfailed
    | inr hconcat =>
      obtain ⟨after'', y, rfl⟩ := hconcat
      have he : before ++ [t] = (before' ++ u :: after'') ++ [y] := by simp [he]
      obtain ⟨hbe, hty⟩ := List.append_inj' he rfl
      obtain rfl : t = y := by simpa using hty
      have hin : u ∈ before := by simp [hbe]
      have huheld := placeheld_of hu (hbefore u hin)
      refine ⟨?_, fun v hv hvfailed => ?_⟩
      · have hserved := hheld u hin huheld
        unfold Served at hserved
        rw [if_pos huheld] at hserved
        exact hserved.2
      · have hv : v ∈ after'' := by
          cases List.mem_append.mp (List.concat_eq_append ▸ hv) with
          | inl hv => exact hv
          | inr hv =>
            obtain rfl := List.mem_singleton.mp hv
            simp [failedLater, hvfailed] at hlater
        have hin : v ∈ before := by simp [hbe, hv]
        cases hvheld : placeheld v with
        | true => exact hheld v hin hvheld
        | false =>
          obtain ⟨hwritten, -, hflushed⟩ := hfront.written v hin hvheld
          refine Served.append hops' hreports' ?_
          rw [if_neg (by simp [hvheld])]
          exact ⟨hwritten, hflushed (hcond before' u after'' hbe hu v hv hvfailed hvheld)⟩

theorem not_proceeds {before after : List TapeWriteTask} {u : TapeWriteTask}
    (hdisk : OnlyDiskFails last (before ++ t :: u :: after)) (hlater : failedLater t = true)
    (hbefore : ∀ u ∈ before, failedLater u = false) {final : TapeWriteSingleThread.State}
    (hfinal : final = (events (before ++ t :: u :: after)).foldl (TapeWriteSingleThread.next c)
      (TapeWriteSingleThread.State.start ⟨last, false, false⟩ none)) :
    ¬Proceeds last ⟨final, packerOf final.reports⟩ (before ++ t :: u :: after) := by
  have hfront := prefix_run c hdisk.append hbefore
  rw [events_append, List.foldl_append, events_cons, List.foldl_cons] at hfinal
  generalize (taskEvents before).foldl (TapeWriteSingleThread.next c)
    (TapeWriteSingleThread.State.start ⟨last, false, false⟩ none) = th at hfront hfinal
  obtain ⟨hphase, hnumber, ⟨m, more, hreports, hmore⟩, -⟩ :=
    failed_run hdisk hlater hbefore hfront
  generalize TapeWriteSingleThread.next c th (.task t goodFlush) = th' at *
  have hnt := hdisk.numbers before t (u :: after) rfl
  have hnu := hdisk.numbers (before ++ [t]) u after (by simp)
  rw [List.length_append, List.length_singleton] at hnu
  push_cast at hnu
  have hrefused : ¬Accepted u th'.session := by
    unfold Accepted
    rw [hnumber]
    omega
  obtain ⟨r, hr, habout⟩ := refused_reports (c := c) hphase hrefused after
  rw [← hfinal, hreports] at hr
  -- no report is about the refused file
  have hnone : ∀ r' ∈ final.reports, about r' ≠ some u.archiveJob := by
    intro r' hr' hu
    rw [hr, List.append_assoc, List.mem_append] at hr'
    cases hr' with
    | inl hr' =>
      have := hfront.numbers r' hr' _ hu
      omega
    | inr hr' =>
      have hr' : r' = .error t.archiveJob m ∨ r' ∈ more ∨ r' = r := by simpa using hr'
      cases hr' with
      | inl hr' =>
        rw [hr'] at hu
        have hjob : t.archiveJob = u.archiveJob := by simpa [about] using hu
        rw [hjob] at hnt
        omega
      | inr hr' =>
        cases hr' with
        | inl hr' => simp [hmore r' hr'] at hu
        | inr hr' => simp [hr', habout] at hu
  have hnotFailed : u.archiveJob ∉ (packerOf final.reports).failed := by
    intro hin
    obtain ⟨r', hr', hu⟩ := about_of_failed hin
    exact hnone r' hr' hu
  intro hproceeds
  cases hufailed : hasFailed u with
  | true =>
    exact hnotFailed (hproceeds (before ++ [t]) u after (by simp) hufailed).1
  | false =>
    have htfailed : hasFailed t = true := by
      unfold failedLater at hlater
      simp_all
    have hserved := (hproceeds before t (u :: after) rfl htfailed).2 u (by simp) hufailed
    unfold Served at hserved
    split at hserved
    · exact hnotFailed hserved.2
    · obtain ⟨-, a, b, d, hreported, -, -⟩ := hserved
      have hreported : final.reports = a ++ .successful u.archiveJob :: (b ++ .flush :: d) :=
        hreported
      exact hnone (.successful u.archiveJob) (by simp [hreported]) rfl

/-- A migration proceeds behind files with failed blocks, exactly if each of them failed at its
first block, or is the last file while no file behind another one waits for its flush. -/
theorem proceeds_iff (c : Thresholds) (last : Int) (tasks : List TapeWriteTask) (es : List Event)
    (hdisk : OnlyDiskFails last tasks) (hes : Undisturbed c last tasks es) :
    Proceeds last (es.foldl (next c) (State.start ⟨last, false, false⟩ none)) tasks ↔
      Condition c tasks := by
  rw [hes.run]
  simp only
  generalize hfinal : (events tasks).foldl (TapeWriteSingleThread.next c)
    (TapeWriteSingleThread.State.start ⟨last, false, false⟩ none) = final
  cases first_failedLater tasks with
  | inl hnone =>
    refine ⟨fun _ => ?_, fun _ => proceeds_of_none hdisk hnone hfinal.symm⟩
    intro before t after htasks hlater
    have := hnone t (by simp [htasks])
    simp [hlater] at this
  | inr hfirst =>
    obtain ⟨before, t, after, rfl, hlater, hbefore⟩ := hfirst
    cases after with
    | cons u after =>
      refine ⟨fun h => absurd h (not_proceeds hdisk hlater hbefore hfinal.symm), fun h => ?_⟩
      exact absurd (h before t (u :: after) rfl hlater).1 (by simp)
    | nil =>
      rw [proceeds_of_last hdisk hlater hbefore hfinal.symm]
      refine ⟨fun h => ?_, fun h => (h before t [] rfl hlater).2⟩
      intro before' t' after' he hlater'
      cases List.eq_nil_or_concat after' with
      | inl hnil =>
        subst hnil
        obtain ⟨rfl, -⟩ := List.append_inj' he rfl
        exact ⟨rfl, h⟩
      | inr hconcat =>
        obtain ⟨after'', y, rfl⟩ := hconcat
        have he : before ++ [t] = (before' ++ t' :: after'') ++ [y] := by simp [he]
        have hin : t' ∈ before := by simp [(List.append_inj' he rfl).1]
        have := hbefore t' hin
        simp [hlater'] at this

def block (fileid fileBlock : Nat) : MemBlock :=
  { MemBlock.fresh fileBlock with payloadSize := 4, fileid := fileid, fileBlock := fileBlock }

def file (archiveFileID fSeq : Nat) (blocks : List MemBlock) : TapeWriteTask where
  archiveJob := ⟨archiveFileID, fSeq, 4 * blocks.length⟩
  blockCount := blocks.length
  blocks := blocks
  header := none
  writeData := fun _ => none
  writeBlank := none
  trailer := none
  complete := by simp

def firstFails : TapeWriteTask := file 1 1 [(block 1 0).markAsFailed "Input/output error" 666]

def secondFails : TapeWriteTask :=
  file 1 1 [block 1 0, (block 1 1).markAsFailed "Input/output error" 666]

def following : TapeWriteTask := file 2 2 [block 2 0]

def sequential (tasks : List TapeWriteTask) (n : Nat) : List Event :=
  (events tasks).map .tape ++ List.replicate n (.report okCalls false)

theorem sequential_undisturbed {c : Thresholds} {last : Int} {tasks : List TapeWriteTask} {n : Nat}
    (h : ((sequential tasks n).foldl (next c) (State.start ⟨last, false, false⟩ none)).packer.executed =
      ((sequential tasks n).foldl (next c)
        (State.start ⟨last, false, false⟩ none)).thread.reports.length) :
    Undisturbed c last tasks (sequential tasks n) where
  tape := by
    have hmap : ∀ es : List TapeWriteSingleThread.Event,
        (es.map Event.tape).flatMap tapeEvents = es := by
      intro es
      induction es with
      | nil => rfl
      | cons e es ih => simp [tapeEvents, ih]
    have hnone : (List.replicate n (Event.report okCalls false)).flatMap tapeEvents = [] := by
      simp [tapeEvents]
    rw [sequential, List.flatMap_append, hmap, hnone, List.append_nil]
  calls calls throws hin := by
    obtain ⟨-, rfl, rfl⟩ : n ≠ 0 ∧ calls = okCalls ∧ throws = false := by
      simpa [sequential] using hin
    exact ⟨⟨fun _ => rfl, rfl, rfl⟩, rfl⟩
  alone := by simp [sequential]
  executed := h

theorem onlyDiskFails_pair {t u : TapeWriteTask} {last : Int} (ht : DriveOk t) (hu : DriveOk u)
    (hnt : toInt t.archiveJob.fSeq = last + 1) (hnu : toInt u.archiveJob.fSeq = last + 2)
    (hbt : Delivered false t t.blocks 0) (hbu : Delivered (failedLater t) u u.blocks 0) :
    OnlyDiskFails last [t, u] := by
  have hsplit : ∀ before v after, [t, u] = before ++ v :: after →
      (before = [] ∧ v = t) ∨ (before = [t] ∧ v = u) := by
    intro before v after h
    match before with
    | [] => exact .inl ⟨rfl, (List.cons.inj h).1.symm⟩
    | [x] =>
      obtain ⟨hx, h⟩ := List.cons.inj h
      exact .inr ⟨by simp [← hx], (List.cons.inj h).1.symm⟩
    | x :: y :: before =>
      have := congrArg List.length h
      simp at this
  refine ⟨by simp [ht, hu], fun before v after h => ?_, fun before v after h => ?_⟩
  · cases hsplit before v after h with
    | inl h => rw [h.1, h.2, hnt, List.length_nil, Nat.cast_zero, Int.add_zero]
    | inr h =>
      rw [h.1, h.2, hnu, List.length_singleton]
      omega
  · cases hsplit before v after h with
    | inl h =>
      rw [h.1, h.2]
      exact hbt
    | inr h =>
      rw [h.1, h.2]
      simpa using hbu

theorem file_driveOk {archiveFileID fSeq : Nat} (h : archiveFileID ≠ 0) (h' : 1 ≤ fSeq)
    (blocks : List MemBlock) : DriveOk (file archiveFileID fSeq blocks) :=
  ⟨h, h', rfl, fun _ => rfl, rfl, rfl⟩

theorem following_delivered (failing : Bool) : Delivered failing following following.blocks 0 :=
  .inr (.inr ⟨by decide, by decide, trivial⟩)

theorem proceeds_behind_first : Proceeds 0 ((sequential [firstFails, following] 4).foldl
    (next ⟨10, 100⟩) (State.start ⟨0, false, false⟩ none)) [firstFails, following] := by
  have hdisk : OnlyDiskFails 0 [firstFails, following] :=
    onlyDiskFails_pair (file_driveOk (by decide) (by decide) _)
      (file_driveOk (by decide) (by decide) _) (by decide) (by decide) (.inl (by decide))
      (following_delivered _)
  refine (proceeds_iff ⟨10, 100⟩ 0 [firstFails, following] _ hdisk
    (sequential_undisturbed (by decide +kernel))).mpr fun before t after h hlater => ?_
  have ht : t ∈ [firstFails, following] := by simp [h]
  have hnone : ∀ u ∈ [firstFails, following], failedLater u = false := by decide
  rw [hnone t ht] at hlater
  cases hlater

theorem stops_behind_second :
    OnlyDiskFails 0 [secondFails, following] ∧
      Undisturbed ⟨10, 100⟩ 0 [secondFails, following] (sequential [secondFails, following] 2) ∧
      ¬Proceeds 0 ((sequential [secondFails, following] 2).foldl (next ⟨10, 100⟩)
        (State.start ⟨0, false, false⟩ none)) [secondFails, following] := by
  have hdisk : OnlyDiskFails 0 [secondFails, following] :=
    onlyDiskFails_pair (file_driveOk (by decide) (by decide) _)
      (file_driveOk (by decide) (by decide) _) (by decide) (by decide)
      (.inr (.inr ⟨by decide, by decide, .inl (by decide)⟩)) (following_delivered _)
  have hes : Undisturbed ⟨10, 100⟩ 0 [secondFails, following]
      (sequential [secondFails, following] 2) := sequential_undisturbed (by decide +kernel)
  refine ⟨hdisk, hes, ?_⟩
  rw [hes.run]
  have hdisk' : OnlyDiskFails 0 ([] ++ secondFails :: following :: []) := hdisk
  exact not_proceeds hdisk' (by decide) (by simp) rfl

end Cta.Tape.RecoverableError
