import Cta.Tape.TapeWrite
import Cta.Lib.Runs

/-! The tape thread of a migration session, one step for each task or end marker it pops. -/
namespace Cta.Tape.TapeWriteSingleThread
open Cta.Tape.DataPipeline Cta.Tape.TapeWrite Cta.Lib.Runs
open Cta.Scheduler.ArchiveMount (ArchiveJob)

/-- In the loop of `run`, in the loop of its handler behind a failure, or returned. -/
inductive Phase where
  | running
  | draining (f : Failure)
  | ended
  deriving DecidableEq, Repr

/-- The calls of `tapeFlush`. Only the first one makes what is written safe. -/
structure TapeFlush where
  flush : Option Failure
  getCompression : Option Failure
  clearCompressionStats : Option Failure
  deriving DecidableEq, Repr

structure Thresholds where
  filesBeforeFlush : Nat
  bytesBeforeFlush : Nat
  deriving DecidableEq, Repr

/-- The thread, with all it did so far: on tape, to the memory manager and to the report packer.
`unfinished` are the jobs of tasks that were destroyed before their pipelines were finished. -/
structure State where
  phase : Phase
  session : WriteSession
  errorFlag : Bool
  files : Nat
  bytes : Nat
  ops : List TapeOp
  released : List MemBlock
  reports : List Report
  unfinished : List ArchiveJob
  deriving DecidableEq

inductive Event where
  | task (t : TapeWriteTask) (f : TapeFlush)
  | endMarker (f : TapeFlush)

def State.fail (s : State) (f : Failure) : State :=
  { s with phase := .draining f
           errorFlag := true
           reports := s.reports ++ if f = .errnum ENOSPC then [.tapeFull] else [] }

def State.tapeFlush (s : State) (f : TapeFlush) (onSuccess : State → State) : State :=
  match f.flush with
  | some e => s.fail e
  | none =>
    let s := { s with ops := s.ops ++ [TapeOp.flush] }
    match f.getCompression with
    | some e => s.fail e
    | none =>
      let s := { s with reports := s.reports ++ [Report.flush] }
      match f.clearCompressionStats with
      | some e => s.fail e
      | none => onSuccess s

def endErrorMessage (f : Failure) : String :=
  if f = .errnum ENOSPC then "End of migration due to tape full" else f.message

def endErrorCode (f : Failure) : Int := if f = .errnum ENOSPC then ENOSPC else 666

def State.absorb (s : State) (x : Executed) : State :=
  { s with session := x.session
           errorFlag := x.errorFlag
           ops := s.ops ++ x.ops
           released := s.released ++ x.released
           reports := s.reports ++ x.reports }

def State.failTask (s : State) (e : Failure) (t : TapeWriteTask) (finished : Bool) : State :=
  { s.fail e with unfinished := s.unfinished ++ if finished then [] else [t.archiveJob] }

def State.countTask (c : Thresholds) (s : State) (t : TapeWriteTask) (f : TapeFlush) : State :=
  let s := { s with files := s.files + 1, bytes := s.bytes + t.archiveJob.fileSize }
  if c.filesBeforeFlush ≤ s.files ∨ c.bytesBeforeFlush ≤ s.bytes then
    s.tapeFlush f fun s => { s with files := 0, bytes := 0 }
  else s

def State.runTask (c : Thresholds) (s : State) (t : TapeWriteTask) (f : TapeFlush)
    (x : Executed) : State :=
  match x.thrown with
  | some e => (s.absorb x).failTask e t x.finished
  | none => (s.absorb x).countTask c t f

def next (c : Thresholds) (s : State) : Event → State
  | .task t f =>
    match s.phase with
    | .running => s.runTask c t f (execute t s.session s.errorFlag)
    | .draining _ => { s with released := s.released ++ t.blocks }
    | .ended => s
  | .endMarker f =>
    match s.phase with
    | .running =>
      s.tapeFlush f fun s => { s with phase := .ended, reports := s.reports ++ [.endofSession] }
    | .draining e =>
      { s with phase := .ended
               reports := s.reports ++ [.endofSessionWithErrors (endErrorMessage e) (endErrorCode e)] }
    | .ended => s

/-- The thread where the loop begins, or the handler if the tape could not be got ready. -/
def State.start (session : WriteSession) : Option Failure → State
  | none => ⟨.running, session, false, 0, 0, [], [], [], []⟩
  | some f => (⟨.running, session, false, 0, 0, [], [], [], []⟩ : State).fail f

/-- A task is taken up in the loop only where its number is the next one, or it has no block. -/
def Proper (s : State) : Event → Prop
  | .task t _ => s.phase = .running → Accepted t s.session ∨ t.blocks = []
  | .endMarker _ => True

def Event.blocks : Event → List MemBlock
  | .task t _ => t.blocks
  | .endMarker _ => []

variable {c : Thresholds} {s : State}

@[simp] theorem fail_released (f : Failure) : (s.fail f).released = s.released := rfl
@[simp] theorem fail_unfinished (f : Failure) : (s.fail f).unfinished = s.unfinished := rfl

theorem tapeFlush_released (f : TapeFlush) {g : State → State}
    (hr : ∀ s, (g s).released = s.released) (hu : ∀ s, (g s).unfinished = s.unfinished) :
    (s.tapeFlush f g).released = s.released ∧ (s.tapeFlush f g).unfinished = s.unfinished := by
  unfold State.tapeFlush
  cases f.flush with
  | some e => exact ⟨rfl, rfl⟩
  | none =>
    cases f.getCompression with
    | some e => exact ⟨rfl, rfl⟩
    | none =>
      cases f.clearCompressionStats with
      | some e => exact ⟨rfl, rfl⟩
      | none => exact ⟨hr _, hu _⟩

theorem countTask_released (t : TapeWriteTask) (f : TapeFlush) :
    (s.countTask c t f).released = s.released ∧ (s.countTask c t f).unfinished = s.unfinished := by
  simp only [State.countTask]
  split
  · exact tapeFlush_released f (fun _ => rfl) (fun _ => rfl)
  · exact ⟨rfl, rfl⟩

def Lost (x : Executed) : Prop := x.thrown ≠ none ∧ x.finished = false

theorem runTask_released (t : TapeWriteTask) (f : TapeFlush) (x : Executed) :
    (s.runTask c t f x).released = s.released ++ x.released ∧
      ((s.runTask c t f x).unfinished = s.unfinished ∧ ¬Lost x ∨
        (s.runTask c t f x).unfinished = s.unfinished ++ [t.archiveJob] ∧ Lost x) := by
  unfold Lost State.runTask
  cases x.thrown with
  | some e =>
    cases x.finished with
    | true => exact ⟨rfl, .inl ⟨List.append_nil _, by simp⟩⟩
    | false => exact ⟨rfl, .inr ⟨rfl, by simp⟩⟩
  | none =>
    have h := countTask_released (c := c) (s := s.absorb x) t f
    exact ⟨h.1, .inl ⟨h.2, fun hl => hl.1 rfl⟩⟩

theorem endMarker_released (f : TapeFlush) :
    (next c s (.endMarker f)).released = s.released ∧
      (next c s (.endMarker f)).unfinished = s.unfinished := by
  unfold next
  cases s.phase with
  | running => exact tapeFlush_released f (fun _ => rfl) (fun _ => rfl)
  | draining e => exact ⟨rfl, rfl⟩
  | ended => exact ⟨rfl, rfl⟩

theorem next_released (e : Event) (h : s.phase ≠ .ended) :
    (Proper s e → (next c s e).released = s.released ++ e.blocks ∧
      (next c s e).unfinished = s.unfinished) ∧
      (¬Proper s e → (next c s e).unfinished ≠ []) ∧
      ∃ more, (next c s e).unfinished = s.unfinished ++ more := by
  cases e with
  | endMarker f =>
    have hsame := endMarker_released (c := c) (s := s) f
    refine ⟨fun _ => ⟨by simpa [Event.blocks] using hsame.1, hsame.2⟩,
      fun hp => absurd trivial hp, [], by simpa using hsame.2⟩
  | task t f =>
    cases hphase : s.phase with
    | ended => exact absurd hphase h
    | draining e =>
      have hnext : next c s (.task t f) = { s with released := s.released ++ t.blocks } := by
        simp only [next, hphase]
      rw [hnext]
      have hproper : Proper s (.task t f) := by
        intro hr
        rw [hphase] at hr
        cases hr
      exact ⟨fun _ => ⟨rfl, rfl⟩, fun hp => absurd hproper hp, [], by simp⟩
    | running =>
      have hnext : next c s (.task t f) =
          s.runTask c t f (execute t s.session s.errorFlag) := by
        simp only [next, hphase]
      generalize hx : execute t s.session s.errorFlag = x at hnext
      obtain ⟨hr, hu⟩ := runTask_released (c := c) (s := s) t f x
      rw [hnext]
      by_cases hacc : Accepted t s.session
      · obtain ⟨hall, hfin⟩ := execute_released s.errorFlag hacc
        rw [hx] at hall hfin
        have hkept : ¬Lost x := by
          intro hl
          have := hl.2
          rw [hfin] at this
          cases this
        have hsame : (s.runTask c t f x).unfinished = s.unfinished := by
          cases hu with
          | inl hu => exact hu.1
          | inr hu => exact absurd hu.2 hkept
        refine ⟨fun _ => ⟨by rw [hr, hall]; rfl, hsame⟩, ?_, [], by simpa using hsame⟩
        exact fun hp => absurd (fun _ => .inl hacc) hp
      · rw [execute_refused s.errorFlag hacc] at hx
        have hlost : Lost x ↔ t.blocks ≠ [] := by
          have hlen := t.complete
          rw [← hx]
          simp only [Lost, ne_eq, reduceCtorEq, not_false_eq_true, true_and, finished,
            decide_eq_false_iff_not]
          rw [← List.length_eq_zero_iff]
          omega
        cases hu with
        | inl hu =>
          have hnil : t.blocks = [] := by
            by_contra hne
            exact hu.2 (hlost.mpr hne)
          refine ⟨fun _ => ⟨?_, hu.1⟩, ?_, [], by simpa using hu.1⟩
          · rw [hr, ← hx]
            simp [Event.blocks, hnil]
          · exact fun hp => absurd (fun _ => .inr hnil) hp
        | inr hu =>
          have hne := hlost.mp hu.2
          refine ⟨fun hp => ?_, fun _ => by simp [hu.1], _, hu.1⟩
          cases hp hphase with
          | inl hp => exact absurd hp hacc
          | inr hp => exact absurd hp hne

theorem tapeFlush_phase (f : TapeFlush) {g : State → State} (hs : s.phase ≠ .ended)
    (hg : ∀ s, s.phase ≠ .ended → (g s).phase ≠ .ended) : (s.tapeFlush f g).phase ≠ .ended := by
  unfold State.tapeFlush
  cases f.flush with
  | some e => simp [State.fail]
  | none =>
    cases f.getCompression with
    | some e => simp [State.fail]
    | none =>
      cases f.clearCompressionStats with
      | some e => simp [State.fail]
      | none => exact hg _ hs

theorem runTask_phase (t : TapeWriteTask) (f : TapeFlush) (x : Executed) (hs : s.phase ≠ .ended) :
    (s.runTask c t f x).phase ≠ .ended := by
  unfold State.runTask
  cases x.thrown with
  | some e => simp [State.failTask, State.fail]
  | none =>
    simp only [State.countTask]
    split
    · exact tapeFlush_phase f hs fun _ h => h
    · exact hs

theorem next_task_phase (t : TapeWriteTask) (f : TapeFlush) (h : s.phase ≠ .ended) :
    (next c s (.task t f)).phase ≠ .ended := by
  cases hphase : s.phase with
  | ended => exact absurd hphase h
  | draining e =>
    simp only [next, hphase]
    simp
  | running =>
    simp only [next, hphase]
    exact runTask_phase t f _ h

def sessionEvents (tasks : List (TapeWriteTask × TapeFlush)) (last : TapeFlush) : List Event :=
  tasks.map (fun p => .task p.1 p.2) ++ [.endMarker last]

theorem unfinished_grows (es : List Event) (hs : s.unfinished ≠ []) :
    (es.foldl (next c) s).unfinished ≠ [] := by
  induction es generalizing s with
  | nil => exact hs
  | cons e es ih =>
    refine ih ?_
    by_cases hphase : s.phase = .ended
    · have hsame : next c s e = s := by
        cases e <;> simp only [next, hphase]
      rwa [hsame]
    · obtain ⟨more, hmore⟩ := (next_released (c := c) e hphase).2.2
      rw [hmore]
      simp [hs]

theorem released_iff (tasks : List (TapeWriteTask × TapeFlush)) (last : TapeFlush)
    (hs : s.phase ≠ .ended) (hu : s.unfinished = []) :
    ((sessionEvents tasks last).foldl (next c) s).released =
          s.released ++ tasks.flatMap (·.1.blocks) ∧
        ((sessionEvents tasks last).foldl (next c) s).unfinished = [] ↔
      AllSteps (next c) Proper s (sessionEvents tasks last) := by
  induction tasks generalizing s with
  | nil =>
    have h := endMarker_released (c := c) (s := s) last
    simp [sessionEvents, AllSteps, Proper, h.1, h.2, hu]
  | cons p tasks ih =>
    obtain ⟨hproper, hlost, -⟩ := next_released (c := c) (.task p.1 p.2) hs
    have hphase := next_task_phase (c := c) p.1 p.2 hs
    have hcons : sessionEvents (p :: tasks) last = .task p.1 p.2 :: sessionEvents tasks last := rfl
    rw [hcons, List.foldl_cons]
    by_cases hp : Proper s (.task p.1 p.2)
    · obtain ⟨hr, hu'⟩ := hproper hp
      have hih := ih hphase (hu'.trans hu)
      rw [hr, List.append_assoc] at hih
      rw [List.flatMap_cons]
      exact hih.trans ⟨fun h => ⟨hp, h⟩, fun h => h.2⟩
    · constructor
      · intro h
        exact absurd h.2 (unfinished_grows _ (hlost hp))
      · intro h
        exact absurd h.1 hp

theorem start_spec (session : WriteSession) (f : Option Failure) :
    (State.start session f).phase ≠ .ended ∧ (State.start session f).released = [] ∧
      (State.start session f).unfinished = [] := by
  cases f with
  | none => simp [State.start]
  | some e => simp [State.start, State.fail]

/-- Over a whole session every block comes back once, and no task is destroyed before its pipeline
is finished, exactly if each task that is taken up in the loop has the next number or no block. -/
theorem blocks_released_iff (c : Thresholds) (session : WriteSession) (mount : Option Failure)
    (tasks : List (TapeWriteTask × TapeFlush)) (last : TapeFlush) :
    let run := (sessionEvents tasks last).foldl (next c) (State.start session mount)
    run.released = tasks.flatMap (·.1.blocks) ∧ run.unfinished = [] ↔
      AllSteps (next c) Proper (State.start session mount) (sessionEvents tasks last) := by
  obtain ⟨hphase, hr, hu⟩ := start_spec session mount
  have h := released_iff (c := c) tasks last hphase hu
  rw [hr] at h
  exact h

theorem session_ends (c : Thresholds) (session : WriteSession) (mount : Option Failure)
    (tasks : List (TapeWriteTask × TapeFlush)) (last : TapeFlush)
    (hlast : last.flush = none ∧ last.getCompression = none ∧ last.clearCompressionStats = none) :
    ((sessionEvents tasks last).foldl (next c) (State.start session mount)).phase = .ended := by
  obtain ⟨h1, h2, h3⟩ := hlast
  have hend : ∀ s : State, (next c s (.endMarker last)).phase = .ended := by
    intro s
    unfold next
    cases hphase : s.phase with
    | running => simp [State.tapeFlush, h1, h2, h3]
    | draining e => rfl
    | ended => exact hphase
  simp only [sessionEvents, List.foldl_append]
  exact hend _

def goodFlush : TapeFlush := ⟨none, none, none⟩

def thirdFile : TapeWriteTask where
  archiveJob := ⟨1, 3, 4⟩
  blockCount := 1
  blocks := [{ MemBlock.fresh 0 with payloadSize := 4, fileid := 1, fileBlock := 0 }]
  header := none
  writeData := fun _ => none
  writeBlank := none
  trailer := none
  complete := rfl

theorem outOfSequence_loses_block :
    let run := (sessionEvents [(thirdFile, goodFlush)] goodFlush).foldl (next ⟨10, 100⟩)
      (State.start ⟨0, false, false⟩ none)
    run.phase = .ended ∧ run.released = [] ∧ run.unfinished = [⟨1, 3, 4⟩] ∧
      ¬(run.released = [(thirdFile, goodFlush)].flatMap (·.1.blocks) ∧ run.unfinished = []) := by
  decide +kernel

end Cta.Tape.TapeWriteSingleThread
