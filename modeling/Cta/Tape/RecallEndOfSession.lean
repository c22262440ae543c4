import Cta.Lib.Runs
import Mathlib.Data.List.Induction

/-! The end of a recall session: the tape thread and the last disk thread each set a flag, look
at both and report the end to the report packer, which tells the mount. -/
namespace Cta.Tape.RecallEndOfSession
open Cta.Lib.Runs

inductive Report where
  | driveStatus
  | successful
  | error
  | endOfSession
  | endOfSessionWithErrors
  deriving DecidableEq, Repr

def Report.goingToEnd : Report → Bool
  | .endOfSession | .endOfSessionWithErrors => true
  | _ => false

def Report.ofJob : Report → Bool
  | .successful | .error => true
  | _ => false

/-- Where a side is: at work, before its flag is set, behind that (the tape thread tells the mount
before it looks at the flags), about to report the end, or through. -/
inductive Stage where
  | working
  | settingDone
  | completing
  | testing
  | reporting
  | finished
  deriving DecidableEq, Repr

/-- Where the thread of the report packer is: in its loop, behind the first end report, behind the
last flush, about to tell the mount, or through. -/
inductive Packer where
  | popping
  | flushing
  | testingDisk
  | completing
  | finished
  deriving DecidableEq, Repr

structure Mount where
  sessionRunning : Bool
  diskRunning : Bool
  tapeRunning : Bool
  deriving DecidableEq, Repr

def Mount.tapeComplete (m : Mount) : Mount :=
  { m with tapeRunning := false, sessionRunning := m.sessionRunning && m.diskRunning }

def Mount.diskComplete (m : Mount) : Mount :=
  { m with diskRunning := false, sessionRunning := m.sessionRunning && m.tapeRunning }

/-- Disk threads are told apart only by whether they are still in their loop: `nbActiveThread` of
them are, and `disk` is where the one is that brought the counter to zero. `pushed` are all reports
ever pushed. -/
structure State where
  nbActiveThread : Nat
  disk : Stage
  tape : Stage
  diskThreadComplete : Bool
  tapeThreadComplete : Bool
  failedWriteCount : Nat
  watchdogError : Bool
  pushed : List Report
  popped : Nat
  packer : Packer
  mount : Mount
  deriving DecidableEq, Repr

def State.start (nbThreads : Nat) : State :=
  ⟨nbThreads, .working, .working, false, false, 0, false, [], 0, .popping, ⟨true, true, true⟩⟩

inductive Event where
  | execute (report : Option Report) (success : Bool)
  | exit
  | setDiskDone
  | diskTest
  | diskReport
  | reportDriveStatus
  | error
  | exitLoop
  | setTapeDone
  | setTapeComplete
  | tapeTest
  | tapeReport
  | pop
  | flush (success : Bool)
  | isDiskDone
  | setDiskComplete
  deriving DecidableEq, Repr

def State.push (s : State) (r : Report) : State := { s with pushed := s.pushed ++ [r] }

def State.allThreadsDone (s : State) : Bool := s.tapeThreadComplete && s.diskThreadComplete

def next (s : State) : Event → Option State
  -- DiskWriteWorkerThread::run
  | .execute report success =>
    if 0 < s.nbActiveThread ∧ report.all Report.ofJob then
      some { s with pushed := s.pushed ++ report.toList
                    failedWriteCount := s.failedWriteCount + if success then 0 else 1 }
    else none
  | .exit =>
    match s.nbActiveThread with
    | 0 => none
    | 1 => some { s with nbActiveThread := 0, disk := .settingDone }
    | n + 2 => some { s with nbActiveThread := n + 1 }
  | .setDiskDone =>
    if s.disk = .settingDone then some { s with disk := .testing, diskThreadComplete := true }
    else none
  | .diskTest =>
    if s.disk = .testing then
      some { s with disk := if s.allThreadsDone then .reporting else .finished }
    else none
  | .diskReport =>
    if s.disk = .reporting then
      some ({ s with disk := .finished }.push
        (if s.failedWriteCount = 0 then .endOfSession else .endOfSessionWithErrors))
    else none
  -- TapeReadSingleThread::run, with a task loop that ends normally or by an exception
  | .reportDriveStatus => if s.tape = .working then some (s.push .driveStatus) else none
  | .error => some { s with watchdogError := true }
  | .exitLoop => if s.tape = .working then some { s with tape := .settingDone } else none
  | .setTapeDone =>
    if s.tape = .settingDone then some { s with tape := .completing, tapeThreadComplete := true }
    else none
  | .setTapeComplete =>
    if s.tape = .completing then some { s with tape := .testing, mount := s.mount.tapeComplete }
    else none
  | .tapeTest =>
    if s.tape = .testing then
      some { s with tape := if s.allThreadsDone then .reporting else .finished }
    else none
  | .tapeReport =>
    if s.tape = .reporting then
      some ({ s with tape := .finished }.push
        (if s.watchdogError then .endOfSessionWithErrors else .endOfSession))
    else none
  -- RecallReportPacker::WorkerThread::run
  | .pop =>
    if s.packer = .popping then
      s.pushed[s.popped]?.map fun r =>
        { s with popped := s.popped + 1, packer := if r.goingToEnd then .flushing else .popping }
    else none
  | .flush success =>
    if s.packer = .flushing then
      some { s with packer := if success then .testingDisk else .finished }
    else none
  | .isDiskDone =>
    if s.packer = .testingDisk then
      some { s with packer := if s.diskThreadComplete then .completing else .finished }
    else none
  | .setDiskComplete =>
    if s.packer = .completing then
      some { s with packer := .finished, mount := s.mount.diskComplete }
    else none

def step (s : State) (e : Event) : State := (next s e).getD s

def State.endReports (s : State) : Nat := s.pushed.countP Report.goingToEnd

/-- One report of the end, the last one about the session's jobs, and a mount that is running until
both sides are complete. -/
structure Good (s : State) : Prop where
  atMostOnce : s.endReports ≤ 1
  once : s.disk = .finished → s.tape = .finished → s.endReports = 1
  nothingAfter : ∀ before e after, s.pushed = before ++ e :: after → e.goingToEnd = true →
    ∀ r ∈ after, r.ofJob = false
  told : s.mount.sessionRunning = false → s.mount.diskRunning = false ∧ s.mount.tapeRunning = false

def Apart (s : State) : Event → Prop
  | .setDiskDone => s.tape ≠ .completing ∧ s.tape ≠ .testing
  | .setTapeDone => s.disk ≠ .testing
  | _ => True

section
variable {l : List Report} {r : Report}

def NothingAfter (l : List Report) : Prop :=
  ∀ before e after, l = before ++ e :: after → e.goingToEnd = true → ∀ r ∈ after, r.ofJob = false

theorem nothingAfter_append (h : NothingAfter l)
    (hr : r.ofJob = true → l.countP Report.goingToEnd = 0) : NothingAfter (l ++ [r]) := by
  intro before e after he hend x hx
  cases after using List.reverseRecOn with
  | nil => simp at hx
  | append_singleton after y =>
    have he' : l ++ [r] = (before ++ e :: after) ++ [y] := by simpa using he
    obtain ⟨rfl, hy⟩ := List.append_inj' he' rfl
    obtain rfl : r = y := by simpa using hy
    cases List.mem_append.mp hx with
    | inl hx => exact h before e after rfl hend x hx
    | inr hx =>
      obtain rfl : x = r := by simpa using hx
      by_contra hjob
      have hzero := List.countP_eq_zero.mp (hr (by simpa using hjob))
      exact hzero e (by simp) hend

theorem nothingAfter_append_toList {report : Option Report} (h : NothingAfter l)
    (hzero : l.countP Report.goingToEnd = 0) : NothingAfter (l ++ report.toList) := by
  cases report with
  | none => simpa using h
  | some r => exact nothingAfter_append h fun _ => hzero

theorem countP_append_toList {report : Option Report} (h : report.all Report.ofJob = true) :
    (l ++ report.toList).countP Report.goingToEnd = l.countP Report.goingToEnd := by
  cases report with
  | none => simp
  | some r =>
    cases r with
    | successful => simp [Report.goingToEnd]
    | error => simp [Report.goingToEnd]
    | driveStatus => simp [Report.ofJob] at h
    | endOfSession => simp [Report.ofJob] at h
    | endOfSessionWithErrors => simp [Report.ofJob] at h

end

structure Inv (s : State) : Prop where
  active : 0 < s.nbActiveThread → s.disk = .working
  diskStage : s.disk ≠ .completing
  diskFlag : s.diskThreadComplete = true ↔
    s.disk = .testing ∨ s.disk = .reporting ∨ s.disk = .finished
  tapeFlag : s.tapeThreadComplete = true ↔
    s.tape = .completing ∨ s.tape = .testing ∨ s.tape = .reporting ∨ s.tape = .finished
  apart : s.disk = .testing → s.tape = .working ∨ s.tape = .settingDone ∨ s.tape = .finished
  diskReports : s.disk = .reporting → s.tape = .finished
  tapeReports : s.tape = .reporting → s.disk = .finished
  ends : s.endReports = if s.disk = .finished ∧ s.tape = .finished then 1 else 0
  nothingAfter : NothingAfter s.pushed
  told : s.mount.sessionRunning = false → s.mount.diskRunning = false ∧ s.mount.tapeRunning = false

theorem Inv.good {s : State} (h : Inv s) : Good s where
  atMostOnce := by
    rw [h.ends]
    split <;> simp
  once hd ht := by simp [h.ends, hd, ht]
  nothingAfter := h.nothingAfter
  told := h.told

theorem Inv.start (n : Nat) : Inv (.start n) where
  active _ := rfl
  diskStage := nofun
  diskFlag := by simp [State.start]
  tapeFlag := by simp [State.start]
  apart := nofun
  diskReports := nofun
  tapeReports := nofun
  ends := rfl
  nothingAfter := by
    intro before e after h
    simp [State.start] at h
  told := by simp [State.start]

theorem told_tapeComplete {m : Mount}
    (h : m.sessionRunning = false → m.diskRunning = false ∧ m.tapeRunning = false) :
    m.tapeComplete.sessionRunning = false →
      m.tapeComplete.diskRunning = false ∧ m.tapeComplete.tapeRunning = false := by
  intro hm
  cases (Bool.and_eq_false_iff).mp hm with
  | inl hs => exact ⟨(h hs).1, rfl⟩
  | inr hd => exact ⟨hd, rfl⟩

theorem told_diskComplete {m : Mount}
    (h : m.sessionRunning = false → m.diskRunning = false ∧ m.tapeRunning = false) :
    m.diskComplete.sessionRunning = false →
      m.diskComplete.diskRunning = false ∧ m.diskComplete.tapeRunning = false := by
  intro hm
  cases (Bool.and_eq_false_iff).mp hm with
  | inl hs => exact ⟨rfl, (h hs).2⟩
  | inr ht => exact ⟨rfl, ht⟩

section
variable {s : State}

theorem Inv.notActive (h : Inv s) (hd : s.disk ≠ .working) : ¬0 < s.nbActiveThread :=
  fun ha => hd (h.active ha)

theorem Inv.endReports_eq_zero (h : Inv s) (hopen : s.disk ≠ .finished ∨ s.tape ≠ .finished) :
    s.endReports = 0 := by
  rw [h.ends, if_neg]
  exact fun ⟨hd, ht⟩ => hopen.elim (· hd) (· ht)

theorem endReports_push_end {r : Report} (hr : r.goingToEnd = true) :
    (s.push r).endReports = s.endReports + 1 := by
  simp [State.endReports, State.push, hr]

theorem Inv.execute (h : Inv s) {report : Option Report} (success : Bool)
    (ha : 0 < s.nbActiveThread) (hr : report.all Report.ofJob = true) :
    Inv { s with pushed := s.pushed ++ report.toList
                 failedWriteCount := s.failedWriteCount + if success then 0 else 1 } := by
  have hzero : s.endReports = 0 := h.endReports_eq_zero (.inl (by simp [h.active ha]))
  refine ⟨h.active, h.diskStage, h.diskFlag, h.tapeFlag, h.apart, h.diskReports, h.tapeReports, ?_,
    nothingAfter_append_toList h.nothingAfter hzero, h.told⟩
  rw [State.endReports, countP_append_toList hr]
  exact h.ends

theorem Inv.exit_last (h : Inv s) (ha : s.nbActiveThread = 1) :
    Inv { s with nbActiveThread := 0, disk := .settingDone } := by
  have hw := h.active (by omega)
  refine ⟨by simp, by simp, by simpa [hw] using h.diskFlag, h.tapeFlag, by simp, by simp, ?_, ?_,
    h.nothingAfter, h.told⟩
  · intro ht
    exact absurd (h.tapeReports ht) (by simp [hw])
  · simpa [State.endReports, hw] using h.ends

theorem Inv.exit_other (h : Inv s) {n : Nat} (ha : s.nbActiveThread = n + 2) :
    Inv { s with nbActiveThread := n + 1 } :=
  ⟨fun _ => h.active (by omega), h.diskStage, h.diskFlag, h.tapeFlag, h.apart, h.diskReports,
    h.tapeReports, h.ends, h.nothingAfter, h.told⟩

theorem Inv.setDiskDone (h : Inv s) (hd : s.disk = .settingDone)
    (hapart : s.tape ≠ .completing ∧ s.tape ≠ .testing) :
    Inv { s with disk := .testing, diskThreadComplete := true } := by
  refine ⟨?_, by simp, by simp, h.tapeFlag, ?_, by simp, ?_, ?_, h.nothingAfter, h.told⟩
  · exact fun ha => absurd ha (h.notActive (by simp [hd]))
  · intro _
    cases ht : s.tape with
    | working => exact Or.inl rfl
    | settingDone => exact Or.inr (Or.inl rfl)
    | completing => exact absurd ht hapart.1
    | testing => exact absurd ht hapart.2
    | reporting => exact absurd (h.tapeReports ht) (by simp [hd])
    | finished => exact Or.inr (Or.inr rfl)
  · intro ht
    exact absurd (h.tapeReports ht) (by simp [hd])
  · simpa [State.endReports, hd] using h.ends

theorem Inv.allThreadsDone_disk (h : Inv s) (hd : s.disk = .testing) :
    s.allThreadsDone = true ↔ s.tape = .finished := by
  have hdisk : s.diskThreadComplete = true := h.diskFlag.mpr (Or.inl hd)
  rw [State.allThreadsDone, hdisk, Bool.and_true, h.tapeFlag]
  rcases h.apart hd with ht | ht | ht <;> simp [ht]

theorem Inv.diskTest (h : Inv s) (hd : s.disk = .testing) :
    Inv { s with disk := if s.allThreadsDone then .reporting else .finished } := by
  have hno := h.notActive (by simp [hd])
  by_cases hf : s.tape = .finished
  · rw [if_pos ((h.allThreadsDone_disk hd).mpr hf)]
    refine ⟨fun ha => absurd ha hno, by simp, ?_, h.tapeFlag, by simp, fun _ => hf, ?_, ?_,
      h.nothingAfter, h.told⟩
    · simpa [hd] using h.diskFlag
    · simp [hf]
    · simpa [State.endReports, hd] using h.ends
  · rw [if_neg (mt (h.allThreadsDone_disk hd).mp hf)]
    refine ⟨fun ha => absurd ha hno, by simp, ?_, h.tapeFlag, by simp, by simp, fun _ => rfl, ?_,
      h.nothingAfter, h.told⟩
    · simpa [hd] using h.diskFlag
    · simpa [State.endReports, hd, hf] using h.ends

theorem Inv.diskReport (h : Inv s) (hd : s.disk = .reporting) {r : Report}
    (hr : r.goingToEnd = true) : Inv ({ s with disk := .finished }.push r) := by
  have hzero : s.endReports = 0 := h.endReports_eq_zero (.inl (by simp [hd]))
  refine ⟨fun ha => absurd ha (h.notActive (by simp [hd])), by simp [State.push],
    by simpa [hd, State.push] using h.diskFlag, h.tapeFlag, by simp [State.push],
    by simp [State.push], fun _ => rfl, ?_, nothingAfter_append h.nothingAfter fun _ => hzero,
    h.told⟩
  rw [endReports_push_end hr, if_pos ⟨rfl, h.diskReports hd⟩]
  exact congrArg (· + 1) hzero

theorem Inv.reportDriveStatus (h : Inv s) : Inv (s.push .driveStatus) := by
  have hsame : (s.push .driveStatus).endReports = s.endReports := by
    simp [State.endReports, State.push, Report.goingToEnd]
  exact ⟨h.active, h.diskStage, h.diskFlag, h.tapeFlag, h.apart, h.diskReports, h.tapeReports,
    hsame.trans h.ends, nothingAfter_append h.nothingAfter (by simp [Report.ofJob]), h.told⟩

theorem Inv.exitLoop (h : Inv s) (ht : s.tape = .working) :
    Inv { s with tape := .settingDone } := by
  refine ⟨h.active, h.diskStage, h.diskFlag, by simpa [ht] using h.tapeFlag,
    fun _ => Or.inr (Or.inl rfl), ?_, by simp, ?_, h.nothingAfter, h.told⟩
  · intro hd
    exact absurd (h.diskReports hd) (by simp [ht])
  · simpa [State.endReports, ht] using h.ends

theorem Inv.setTapeDone (h : Inv s) (ht : s.tape = .settingDone) (hapart : s.disk ≠ .testing) :
    Inv { s with tape := .completing, tapeThreadComplete := true } := by
  refine ⟨h.active, h.diskStage, h.diskFlag, by simp, fun hd => absurd hd hapart, ?_, by simp, ?_,
    h.nothingAfter, h.told⟩
  · intro hd
    exact absurd (h.diskReports hd) (by simp [ht])
  · simpa [State.endReports, ht] using h.ends

theorem Inv.setTapeComplete (h : Inv s) (ht : s.tape = .completing) :
    Inv { s with tape := .testing, mount := s.mount.tapeComplete } := by
  refine ⟨h.active, h.diskStage, h.diskFlag, by simpa [ht] using h.tapeFlag, ?_, ?_, by simp, ?_,
    h.nothingAfter, told_tapeComplete h.told⟩
  · intro hd
    have := h.apart hd
    simp [ht] at this
  · intro hd
    exact absurd (h.diskReports hd) (by simp [ht])
  · simpa [State.endReports, ht] using h.ends

theorem Inv.allThreadsDone_tape (h : Inv s) (ht : s.tape = .testing) :
    s.allThreadsDone = true ↔ s.disk = .finished := by
  have htape : s.tapeThreadComplete = true := h.tapeFlag.mpr (by simp [ht])
  have hnot₁ : s.disk ≠ .testing := fun hd => by simpa [ht] using h.apart hd
  have hnot₂ : s.disk ≠ .reporting := fun hd => by simpa [ht] using h.diskReports hd
  rw [State.allThreadsDone, htape, Bool.true_and, h.diskFlag]
  simp [hnot₁, hnot₂]

theorem Inv.tapeTest (h : Inv s) (ht : s.tape = .testing) :
    Inv { s with tape := if s.allThreadsDone then .reporting else .finished } := by
  by_cases hf : s.disk = .finished
  · rw [if_pos ((h.allThreadsDone_tape ht).mpr hf)]
    refine ⟨h.active, h.diskStage, h.diskFlag, by simpa [ht] using h.tapeFlag, ?_, ?_,
      fun _ => hf, ?_, h.nothingAfter, h.told⟩
    · simp [hf]
    · simp [hf]
    · simpa [State.endReports, ht] using h.ends
  · rw [if_neg (mt (h.allThreadsDone_tape ht).mp hf)]
    refine ⟨h.active, h.diskStage, h.diskFlag, by simpa [ht] using h.tapeFlag,
      fun _ => Or.inr (Or.inr rfl), fun _ => rfl, by simp, ?_, h.nothingAfter, h.told⟩
    simpa [State.endReports, ht, hf] using h.ends

theorem Inv.tapeReport (h : Inv s) (ht : s.tape = .reporting) {r : Report}
    (hr : r.goingToEnd = true) : Inv ({ s with tape := .finished }.push r) := by
  have hzero : s.endReports = 0 := h.endReports_eq_zero (.inr (by simp [ht]))
  refine ⟨h.active, h.diskStage, h.diskFlag, by simpa [ht, State.push] using h.tapeFlag,
    fun _ => Or.inr (Or.inr rfl), fun _ => rfl, by simp [State.push], ?_,
    nothingAfter_append h.nothingAfter fun _ => hzero, h.told⟩
  rw [endReports_push_end hr, if_pos ⟨h.tapeReports ht, rfl⟩]
  exact congrArg (· + 1) hzero

/-- A step of the packer leaves both sides and the reports as they are. -/
theorem Inv.packer (h : Inv s) (popped : Nat) (packer : Packer) {mount : Mount}
    (htold : mount.sessionRunning = false →
      mount.diskRunning = false ∧ mount.tapeRunning = false) :
    Inv { s with popped := popped, packer := packer, mount := mount } :=
  ⟨h.active, h.diskStage, h.diskFlag, h.tapeFlag, h.apart, h.diskReports, h.tapeReports, h.ends,
    h.nothingAfter, htold⟩

end

theorem Inv.step {s u : State} {e : Event} (h : Inv s) (hp : Apart s e) (hn : next s e = some u) :
    Inv u := by
  cases e with
  | execute report success =>
    obtain ⟨hg, hn⟩ := Option.ite_none_right_eq_some.mp hn
    cases hn
    exact h.execute success hg.1 hg.2
  | exit =>
    simp only [next] at hn
    split at hn
    · cases hn
    · next ha =>
      cases hn
      exact h.exit_last ha
    · next n ha =>
      cases hn
      exact h.exit_other ha
  | setDiskDone =>
    obtain ⟨hd, hn⟩ := Option.ite_none_right_eq_some.mp hn
    cases hn
    exact h.setDiskDone hd hp
  | diskTest =>
    obtain ⟨hd, hn⟩ := Option.ite_none_right_eq_some.mp hn
    cases hn
    exact h.diskTest hd
  | diskReport =>
    obtain ⟨hd, hn⟩ := Option.ite_none_right_eq_some.mp hn
    cases hn
    exact h.diskReport hd (by split <;> rfl)
  | reportDriveStatus =>
    obtain ⟨-, hn⟩ := Option.ite_none_right_eq_some.mp hn
    cases hn
    exact h.reportDriveStatus
  | error =>
    cases hn
    exact ⟨h.active, h.diskStage, h.diskFlag, h.tapeFlag, h.apart, h.diskReports, h.tapeReports,
      h.ends, h.nothingAfter, h.told⟩
  | exitLoop =>
    obtain ⟨ht, hn⟩ := Option.ite_none_right_eq_some.mp hn
    cases hn
    exact h.exitLoop ht
  | setTapeDone =>
    obtain ⟨ht, hn⟩ := Option.ite_none_right_eq_some.mp hn
    cases hn
    exact h.setTapeDone ht hp
  | setTapeComplete =>
    obtain ⟨ht, hn⟩ := Option.ite_none_right_eq_some.mp hn
    cases hn
    exact h.setTapeComplete ht
  | tapeTest =>
    obtain ⟨ht, hn⟩ := Option.ite_none_right_eq_some.mp hn
    cases hn
    exact h.tapeTest ht
  | tapeReport =>
    obtain ⟨ht, hn⟩ := Option.ite_none_right_eq_some.mp hn
    cases hn
    exact h.tapeReport ht (by split <;> rfl)
  | pop =>
    obtain ⟨-, hn⟩ := Option.ite_none_right_eq_some.mp hn
    obtain ⟨r, -, rfl⟩ := Option.map_eq_some_iff.mp hn
    exact h.packer _ _ h.told
  | flush success =>
    obtain ⟨-, hn⟩ := Option.ite_none_right_eq_some.mp hn
    cases hn
    exact h.packer _ _ h.told
  | isDiskDone =>
    obtain ⟨-, hn⟩ := Option.ite_none_right_eq_some.mp hn
    cases hn
    exact h.packer _ _ h.told
  | setDiskComplete =>
    obtain ⟨-, hn⟩ := Option.ite_none_right_eq_some.mp hn
    cases hn
    exact h.packer _ _ (told_diskComplete h.told)

/-- Any number of disk threads, and any order of steps in which the two sides keep apart. -/
theorem end_reported_once {nbThreads : Nat} {es : List Event}
    (h : AllSteps step Apart (.start nbThreads) es) :
    AllStates step Good (.start nbThreads) es := by
  refine h.allStates (I := Inv) (fun s e hs hp => ?_) (fun s hs => hs.good) (.start nbThreads)
  cases hn : next s e with
  | none => simpa [RecallEndOfSession.step, hn] using hs
  | some u =>
    simp only [RecallEndOfSession.step, hn, Option.getD_some]
    exact hs.step hp hn

theorem end_reported_once_disk_first :
    AllStates step Good (.start 1)
      [.execute (some .successful) true, .exit, .setDiskDone, .diskTest, .exitLoop, .setTapeDone,
        .setTapeComplete, .tapeTest, .tapeReport, .pop, .pop, .flush true, .isDiskDone,
        .setDiskComplete] :=
  end_reported_once ⟨trivial, trivial, ⟨nofun, nofun⟩, trivial, trivial, nofun, trivial, trivial,
    trivial, trivial, trivial, trivial, trivial, trivial, trivial⟩

theorem end_reported_twice :
    ¬ ∀ (nbThreads : Nat) (es : List Event), AllStates step Good (.start nbThreads) es := by
  intro h
  have hlast := (h 1 [.exit, .exitLoop, .setTapeDone, .setDiskDone, .setTapeComplete, .tapeTest,
    .diskTest, .tapeReport, .diskReport]).last.atMostOnce
  exact absurd hlast (by decide)

end Cta.Tape.RecallEndOfSession
