import Cta.Tape.ReportFlush
import Cta.Tape.TapeWriteSingleThread

/-! The report packer of a migration session beside the tape thread that feeds it. -/
namespace Cta.Tape.MigrationReportPacker
open Cta.Scheduler.ArchiveMount (ArchiveJob Calls)
open Cta.Tape.TapeWrite (Report TapeOp)
open Cta.Tape.TapeWriteSingleThread (Thresholds)
open Cta.Lib.Runs

/-- The packer and its thread. `handed` are the jobs that were handed to
`reportJobsBatchTransferred` as successful, each with the number of reports executed before, and
`failed` those for which `transferFailed` was called. -/
structure Packer where
  continues : Bool
  errorHappened : Bool
  successfulArchiveJobs : List ArchiveJob
  skippedFiles : List Nat
  executed : Nat
  handed : List (ArchiveJob × Nat)
  failed : List ArchiveJob
  deriving DecidableEq, Repr

def Packer.start : Packer := ⟨true, false, [], [], 0, [], []⟩

def Packer.flush (p : Packer) (c : Calls) : Packer :=
  let f := ReportFlush.execute c p.errorHappened p.successfulArchiveJobs p.skippedFiles
  { p with
    continues := p.continues && f.thrown.isNone
    successfulArchiveJobs := f.successfulArchiveJobs
    skippedFiles := f.skippedFiles
    handed := p.handed ++ if p.errorHappened then []
      else p.successfulArchiveJobs.map fun job => (job, p.executed) }

def Packer.report (p : Packer) (c : Calls) : Report → Packer
  | .successful job => { p with successfulArchiveJobs := p.successfulArchiveJobs ++ [job] }
  | .skipped job _ =>
    { p with failed := p.failed ++ [job], skippedFiles := p.skippedFiles ++ [job.fSeq] }
  | .error job _ => { p with errorHappened := true, failed := p.failed ++ [job] }
  | .tapeFull => p
  | .flush => p.flush c
  | .endofSession => { p with continues := false }
  | .endofSessionWithErrors _ _ => { p with continues := false }

/-- A report is executed, and may end the thread with an exception of its own; behind the end of
the thread reports are only drained. -/
def Packer.execute (p : Packer) (c : Calls) (throws : Bool) (r : Report) : Packer :=
  if p.continues then
    let p := p.report c r
    { p with continues := p.continues && !throws, executed := p.executed + 1 }
  else { p with executed := p.executed + 1 }

structure State where
  thread : TapeWriteSingleThread.State
  packer : Packer

inductive Event where
  | tape (e : TapeWriteSingleThread.Event)
  | report (c : Calls) (throws : Bool)
  /-- `synchronousReportEndWithErrors`, by another thread. -/
  | synchronousEnd

def next (c : Thresholds) (s : State) : Event → State
  | .tape e => { s with thread := TapeWriteSingleThread.next c s.thread e }
  | .report calls throws =>
    match s.thread.reports[s.packer.executed]? with
    | some r => { s with packer := s.packer.execute calls throws r }
    | none => s
  | .synchronousEnd => { s with packer := { s.packer with continues := false } }

def State.start (session : TapeWrite.WriteSession) (mount : Option TapeWrite.Failure) :
    State := ⟨TapeWriteSingleThread.State.start session mount, .start⟩

end Cta.Tape.MigrationReportPacker
