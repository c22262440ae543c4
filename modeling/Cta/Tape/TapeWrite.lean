import Cta.Tape.DataPipeline
import Cta.Scheduler.ArchiveMount

/-! The tape side of the migration of one file. -/
namespace Cta.Tape.TapeWrite
open Cta.Tape.DataPipeline
open Cta.Scheduler.ArchiveMount (ArchiveJob)

inductive Failure where
  | errnum (errorNumber : Int)
  | exception (message : String)
  deriving DecidableEq, Repr

def ENOSPC : Int := 28

structure WriteSession where
  lastWrittenFSeq : Int
  corrupted : Bool
  locked : Bool
  deriving DecidableEq, Repr

/-- A task with the blocks that the disk side pushes, as many as its pipeline needs, and what the
drive does to each of the writes: of the header, of the payload of a block, of a placeholder and of
the trailer. -/
structure TapeWriteTask where
  archiveJob : ArchiveJob
  blockCount : Int
  blocks : List MemBlock
  header : Option Failure
  writeData : Nat → Option Failure
  writeBlank : Option Failure
  trailer : Option Failure
  complete : blocks.length = blockCount.toNat

inductive TapeOp where
  | header (job : ArchiveJob)
  | data (mb : MemBlock)
  | placeholder
  | trailer (job : ArchiveJob)
  | flush
  deriving DecidableEq, Repr

inductive Report where
  | successful (job : ArchiveJob)
  | skipped (job : ArchiveJob) (failure : String)
  | error (job : ArchiveJob) (failure : String)
  | tapeFull
  | flush
  | endofSession
  | endofSessionWithErrors (message : String) (errorCode : Int)
  deriving DecidableEq, Repr

inductive Ending where
  | completed
  | skip (message : String)
  | recoverable (message : String)
  | failed (f : Failure)
  deriving DecidableEq, Repr

/-- What was done before it ended: the calls that did not fail and the blocks that were popped. -/
structure Written where
  ops : List TapeOp
  popped : List MemBlock
  ending : Ending
  deriving DecidableEq, Repr

variable (t : TapeWriteTask)

def sessionCorrupted : Failure := .exception "SessionCorrupted"
def sessionAlreadyInUse : Failure := .exception "SessionAlreadyInUse"
def zeroFileWritten : Failure := .exception "ZeroFileWritten"

def checkErrors (mb : MemBlock) (memBlockId : Nat) : Option Ending :=
  if (t.archiveJob.archiveFileID : Int) ≠ mb.fileid ∨ (memBlockId : Int) ≠ mb.fileBlock ∨
      mb.isFailed = true ∨ mb.isCanceled = true then
    match mb.context with
    | some (.failed errorMsg _) => some (.recoverable errorMsg)
    | some .cancelled => some (.failed (.exception "Received a block marked as cancelled"))
    | _ => some (.failed (.exception "Mismatch between expected and received file id or blockid"))
  else none

def writePlaceholder (message : String) (popped : List MemBlock) : Written :=
  match t.writeBlank with
  | some f => ⟨[], popped, .failed f⟩
  | none =>
    match t.trailer with
    | some f => ⟨[.placeholder], popped, .failed f⟩
    | none => ⟨[.placeholder, .trailer t.archiveJob], popped, .skip message⟩

def MemBlock.errorMsg (mb : MemBlock) : String :=
  match mb.context with
  | some (.failed errorMsg _) => errorMsg
  | _ => ""

def writeTrailer (firstBlock nonzeroFileWritten : Bool) : Written :=
  if firstBlock then
    writePlaceholder t
      "In TapeWriteTask::execute(): inserted a placeholder for zero length file." []
  else if nonzeroFileWritten then
    match t.trailer with
    | some f => ⟨[], [], .failed f⟩
    | none => ⟨[.trailer t.archiveJob], [], .completed⟩
  else ⟨[], [], .failed zeroFileWritten⟩

def writeBlocks : List MemBlock → (memBlockId : Nat) → (firstBlock nonzeroFileWritten : Bool) →
    Written
  | [], _, firstBlock, nonzeroFileWritten => writeTrailer t firstBlock nonzeroFileWritten
  | mb :: blocks, memBlockId, firstBlock, nonzeroFileWritten =>
    if firstBlock && mb.isFailed then
      writePlaceholder t (MemBlock.errorMsg mb) [mb]
    else
      match checkErrors t mb memBlockId with
      | some e => ⟨[], [mb], e⟩
      | none =>
        match t.writeData memBlockId with
        | some f => ⟨[], [mb], .failed f⟩
        | none =>
          let w := writeBlocks blocks (memBlockId + 1) false
            (nonzeroFileWritten || 0 < mb.payloadSize)
          ⟨.data mb :: w.ops, mb :: w.popped, w.ending⟩

/-- The constructor of the file writer, or what it throws, and the session it leaves. -/
def openFileWriter (s : WriteSession) : WriteSession × Option Failure :=
  if t.archiveJob.archiveFileID = 0 ∨ t.archiveJob.fSeq < 1 then
    (s, some (.exception "Unexpected fileId in FileWriter::FileWriter"))
  else if s.corrupted then (s, some sessionCorrupted)
  else if s.locked then (s, some sessionAlreadyInUse)
  else ({ s with locked := true }, t.header)

/-- The body of the `try`, with the session after the file writer was destroyed. -/
def writeFile (s : WriteSession) : WriteSession × Written :=
  match openFileWriter t s with
  | (s, some f) => (s, ⟨[], [], .failed f⟩)
  | (s, none) =>
    let w := writeBlocks t t.blocks 0 true false
    let closed : Bool :=
      match w.ending with
      | .completed | .skip _ => true
      | _ => false
    ({ s with corrupted := s.corrupted || !closed, locked := false },
      { w with ops := .header t.archiveJob :: w.ops })

structure Executed where
  session : WriteSession
  errorFlag : Bool
  ops : List TapeOp
  /-- Blocks given back to the memory manager. -/
  released : List MemBlock
  /-- Whether the pipeline is finished. -/
  finished : Bool
  reports : List Report
  thrown : Option Failure
  deriving DecidableEq

def Failure.message : Failure → String
  | .errnum n => "Errnum " ++ toString n
  | .exception m => m

/-- `circulateMemBlocks` gives back whatever was not popped, and waits for it. -/
def execute (s : WriteSession) (errorFlag : Bool) : Executed :=
  if toInt t.archiveJob.fSeq ≠ s.lastWrittenFSeq + 1 then
    -- thrown before the `try`
    ⟨s, errorFlag, [], [], finished t.blockCount 0, [],
      some (.exception "In WriteSession::validateNextFSeq: wrong fSeq sequence")⟩
  else
    let (s, w) := writeFile t s
    let released := w.popped ++ t.blocks.drop w.popped.length
    let finished := finished t.blockCount released.length
    let reported : WriteSession := { s with lastWrittenFSeq := toInt t.archiveJob.fSeq }
    match w.ending with
    | .completed =>
      ⟨reported, errorFlag, w.ops, released, finished, [.successful t.archiveJob], none⟩
    | .skip m =>
      ⟨reported, errorFlag, w.ops, released, finished, [.skipped t.archiveJob m], none⟩
    | .recoverable m => ⟨s, true, w.ops, released, finished, [.error t.archiveJob m], none⟩
    | .failed f =>
      let reports :=
        if f = .errnum ENOSPC then [.tapeFull] else [Report.error t.archiveJob f.message]
      ⟨s, true, w.ops, released, finished, reports, some f⟩

variable {t}

theorem writeBlocks_popped (blocks : List MemBlock) (memBlockId : Nat) (first nonzero : Bool) :
    ∃ n, (writeBlocks t blocks memBlockId first nonzero).popped = blocks.take n := by
  have hplaceholder : ∀ m p, (writePlaceholder t m p).popped = p := by
    intro m p
    unfold writePlaceholder
    split
    · rfl
    · split <;> rfl
  induction blocks generalizing memBlockId first nonzero with
  | nil =>
    refine ⟨0, ?_⟩
    unfold writeBlocks writeTrailer
    split
    · exact hplaceholder _ _
    · split
      · split <;> rfl
      · rfl
  | cons mb blocks ih =>
    unfold writeBlocks
    split
    · exact ⟨1, by simp [hplaceholder]⟩
    · split
      · exact ⟨1, by simp⟩
      · split
        · exact ⟨1, by simp⟩
        · obtain ⟨n, hn⟩ := ih (memBlockId + 1) false (nonzero || 0 < mb.payloadSize)
          exact ⟨n + 1, by simp [hn]⟩

theorem writeFile_popped (s : WriteSession) : ∃ n, (writeFile t s).2.popped = t.blocks.take n := by
  unfold writeFile
  split
  · exact ⟨0, rfl⟩
  · exact writeBlocks_popped t.blocks 0 true false

def Accepted (t : TapeWriteTask) (s : WriteSession) : Prop :=
  toInt t.archiveJob.fSeq = s.lastWrittenFSeq + 1

instance (s : WriteSession) : Decidable (Accepted t s) :=
  inferInstanceAs (Decidable (_ = _))

theorem released_eq (s : WriteSession) :
    (writeFile t s).2.popped ++ t.blocks.drop (writeFile t s).2.popped.length = t.blocks := by
  obtain ⟨n, hn⟩ := writeFile_popped (t := t) s
  rw [hn, List.length_take]
  cases Nat.le_total n t.blocks.length with
  | inl h => rw [Nat.min_eq_left h, List.take_append_drop]
  | inr h =>
    rw [Nat.min_eq_right h, List.take_of_length_le h, List.drop_length, List.append_nil]

theorem execute_released {s : WriteSession} (errorFlag : Bool) (h : Accepted t s) :
    (execute t s errorFlag).released = t.blocks ∧ (execute t s errorFlag).finished = true := by
  have hne : ¬toInt t.archiveJob.fSeq ≠ s.lastWrittenFSeq + 1 := fun hne => hne h
  have hfinished : finished t.blockCount t.blocks.length = true := by
    have := t.complete
    simp only [finished, decide_eq_true_eq]
    omega
  unfold execute
  simp only [if_neg hne, released_eq, hfinished]
  cases (writeFile t s).2.ending <;> exact ⟨rfl, rfl⟩

theorem execute_refused {s : WriteSession} (errorFlag : Bool) (h : ¬Accepted t s) :
    execute t s errorFlag = ⟨s, errorFlag, [], [], finished t.blockCount 0, [],
      some (.exception "In WriteSession::validateNextFSeq: wrong fSeq sequence")⟩ :=
  if_pos h

def trailers (ops : List TapeOp) : Nat :=
  ops.countP fun
    | .trailer _ => true
    | _ => false

theorem trailers_append (a b : List TapeOp) : trailers (a ++ b) = trailers a + trailers b :=
  List.countP_append

def fileOps (t : TapeWriteTask) : List TapeOp :=
  .header t.archiveJob :: (t.blocks.map .data ++ [.trailer t.archiveJob])

/-- There is a block, and each one is of the file, in its place and neither failed nor
cancelled. -/
def BlocksOk (t : TapeWriteTask) : List MemBlock → Nat → Prop
  | [], _ => True
  | mb :: blocks, memBlockId =>
    checkErrors t mb memBlockId = none ∧ BlocksOk t blocks (memBlockId + 1)

def Ending.closed : Ending → Bool
  | .completed | .skip _ => true
  | _ => false

theorem checkErrors_spec {mb : MemBlock} {memBlockId : Nat} {e : Ending}
    (h : checkErrors t mb memBlockId = some e) : e.closed = false := by
  unfold checkErrors at h
  split at h
  · split at h <;> cases h <;> rfl
  · cases h

theorem writePlaceholder_spec (m : String) (popped : List MemBlock) :
    (writePlaceholder t m popped).ending ≠ .completed ∧
      trailers (writePlaceholder t m popped).ops =
        if (writePlaceholder t m popped).ending.closed = true then 1 else 0 := by
  unfold writePlaceholder
  cases t.writeBlank with
  | some f => exact ⟨by simp, rfl⟩
  | none =>
    cases t.trailer with
    | some f => exact ⟨by simp, rfl⟩
    | none => exact ⟨by simp, rfl⟩

theorem writeBlocks_spec (blocks : List MemBlock) (memBlockId : Nat) (first nonzero : Bool) :
    trailers (writeBlocks t blocks memBlockId first nonzero).ops =
        (if (writeBlocks t blocks memBlockId first nonzero).ending.closed = true then 1 else 0) ∧
      ((writeBlocks t blocks memBlockId first nonzero).ending = .completed →
        (first = true → blocks ≠ []) ∧ BlocksOk t blocks memBlockId ∧
          (writeBlocks t blocks memBlockId first nonzero).ops =
            blocks.map .data ++ [.trailer t.archiveJob]) := by
  induction blocks generalizing memBlockId first nonzero with
  | nil =>
    unfold writeBlocks writeTrailer
    cases first with
    | true =>
      obtain ⟨hne, htrailers⟩ := writePlaceholder_spec (t := t)
        "In TapeWriteTask::execute(): inserted a placeholder for zero length file." []
      exact ⟨htrailers, fun h => absurd h hne⟩
    | false =>
      cases nonzero with
      | false => exact ⟨rfl, nofun⟩
      | true =>
        cases t.trailer with
        | some f => exact ⟨rfl, nofun⟩
        | none => exact ⟨rfl, fun _ => ⟨nofun, trivial, rfl⟩⟩
  | cons mb blocks ih =>
    unfold writeBlocks
    split
    · obtain ⟨hne, htrailers⟩ := writePlaceholder_spec (t := t) (MemBlock.errorMsg mb) [mb]
      exact ⟨htrailers, fun h => absurd h hne⟩
    · cases hcheck : checkErrors t mb memBlockId with
      | some e =>
        have he := checkErrors_spec hcheck
        refine ⟨by simp [he, trailers], fun h => ?_⟩
        rw [show e = .completed from h] at he
        cases he
      | none =>
        cases hdata : t.writeData memBlockId with
        | some f => exact ⟨rfl, nofun⟩
        | none =>
          obtain ⟨htrailers, hdone⟩ := ih (memBlockId + 1) false (nonzero || 0 < mb.payloadSize)
          refine ⟨?_, fun h => ?_⟩
          · rw [← htrailers]
            simp [trailers]
          · obtain ⟨-, hok, hops⟩ := hdone h
            exact ⟨fun _ => by simp, ⟨hcheck, hok⟩, by simp [hops]⟩

structure Complete (t : TapeWriteTask) : Prop where
  nonempty : t.blocks ≠ []
  blocks : BlocksOk t t.blocks 0

theorem writeFile_spec (s : WriteSession) :
    trailers (writeFile t s).2.ops =
        (if (writeFile t s).2.ending.closed = true then 1 else 0) ∧
      (writeFile t s).1.lastWrittenFSeq = s.lastWrittenFSeq ∧
      ((writeFile t s).2.ending = .completed →
        Complete t ∧ (writeFile t s).2.ops = fileOps t) := by
  have hopen : (openFileWriter t s).1.lastWrittenFSeq = s.lastWrittenFSeq := by
    unfold openFileWriter
    split
    · rfl
    · split
      · rfl
      · split <;> rfl
  unfold writeFile
  split
  · next s' f h =>
    rw [h] at hopen
    exact ⟨rfl, hopen, nofun⟩
  · next s' h =>
    rw [h] at hopen
    obtain ⟨htrailers, hdone⟩ := writeBlocks_spec (t := t) t.blocks 0 true false
    refine ⟨by rw [← htrailers]; simp [trailers], hopen, fun hend => ?_⟩
    obtain ⟨hne, hok, hops⟩ := hdone hend
    exact ⟨⟨hne rfl, hok⟩, by simp [fileOps, hops]⟩

/-- What `execute` does to the tape and to the session, and what it reports. A file is reported as
successful only if it is complete, with the next number. -/
theorem execute_spec (t : TapeWriteTask) (s : WriteSession) (errorFlag : Bool) :
    (execute t s errorFlag).session.lastWrittenFSeq =
        s.lastWrittenFSeq + trailers (execute t s errorFlag).ops ∧
      .flush ∉ (execute t s errorFlag).reports ∧
      ∀ job, .successful job ∈ (execute t s errorFlag).reports →
        job = t.archiveJob ∧ Accepted t s ∧ Complete t ∧
          (execute t s errorFlag).ops = fileOps t := by
  by_cases hacc : Accepted t s
  · have hne : ¬toInt t.archiveJob.fSeq ≠ s.lastWrittenFSeq + 1 := fun hne => hne hacc
    have hacc' : toInt t.archiveJob.fSeq = s.lastWrittenFSeq + 1 := hacc
    obtain ⟨htrailers, hlast, hdone⟩ := writeFile_spec (t := t) s
    unfold execute
    simp only [if_neg hne]
    cases hend : (writeFile t s).2.ending with
    | completed =>
      rw [hend] at htrailers hdone
      obtain ⟨hcomplete, hops⟩ := hdone rfl
      refine ⟨by simp [htrailers, Ending.closed, hacc'], by simp, fun job hjob => ?_⟩
      have hjob : job = t.archiveJob := by simpa using hjob
      exact ⟨hjob, hacc, hcomplete, hops⟩
    | skip m =>
      rw [hend] at htrailers
      exact ⟨by simp [htrailers, Ending.closed, hacc'], by simp, by simp⟩
    | recoverable m =>
      rw [hend] at htrailers
      exact ⟨by simp [htrailers, Ending.closed, hlast], by simp, by simp⟩
    | failed f =>
      rw [hend] at htrailers
      refine ⟨by simp [htrailers, Ending.closed, hlast], ?_, fun job hjob => ?_⟩
      · simp only
        split <;> simp
      · simp only at hjob
        split at hjob <;> simp at hjob
  · rw [execute_refused errorFlag hacc]
    exact ⟨by simp [trailers], by simp, by simp⟩

theorem writePlaceholder_trailer {m : String} {popped : List MemBlock} {job : ArchiveJob}
    (h : .trailer job ∈ (writePlaceholder t m popped).ops) : job = t.archiveJob := by
  unfold writePlaceholder at h
  split at h
  · simp at h
  · split at h
    · simp at h
    · simpa using h

theorem writeBlocks_trailer {blocks : List MemBlock} {memBlockId : Nat} {first nonzero : Bool}
    {job : ArchiveJob} (h : .trailer job ∈ (writeBlocks t blocks memBlockId first nonzero).ops) :
    job = t.archiveJob := by
  induction blocks generalizing memBlockId first nonzero with
  | nil =>
    unfold writeBlocks writeTrailer at h
    split at h
    · exact writePlaceholder_trailer h
    · split at h
      · split at h
        · simp at h
        · simpa using h
      · simp at h
  | cons mb blocks ih =>
    unfold writeBlocks at h
    split at h
    · exact writePlaceholder_trailer h
    · split at h
      · simp at h
      · split at h
        · simp at h
        · exact ih (by simpa using h)

theorem writeFile_trailer {s : WriteSession} {job : ArchiveJob}
    (h : .trailer job ∈ (writeFile t s).2.ops) : job = t.archiveJob := by
  unfold writeFile at h
  split at h
  · simp at h
  · exact writeBlocks_trailer (by simpa using h)

theorem execute_trailer {s : WriteSession} {errorFlag : Bool} {a b : List TapeOp} {job : ArchiveJob}
    (h : (execute t s errorFlag).ops = a ++ .trailer job :: b) :
    job = t.archiveJob ∧ Accepted t s ∧ trailers a = 0 := by
  by_cases hacc : Accepted t s
  · have hne : ¬toInt t.archiveJob.fSeq ≠ s.lastWrittenFSeq + 1 := fun hne => hne hacc
    have hops : (execute t s errorFlag).ops = (writeFile t s).2.ops := by
      unfold execute
      simp only [if_neg hne]
      cases (writeFile t s).2.ending <;> rfl
    rw [hops] at h
    have hmem : TapeOp.trailer job ∈ (writeFile t s).2.ops := by
      rw [h]
      simp
    have hcount := (writeFile_spec (t := t) s).1
    rw [h, trailers_append] at hcount
    have hone : trailers (.trailer job :: b) = trailers b + 1 := by simp [trailers]
    refine ⟨writeFile_trailer hmem, hacc, ?_⟩
    split at hcount <;> omega
  · rw [execute_refused errorFlag hacc] at h
    cases a <;> cases h

end Cta.Tape.TapeWrite
