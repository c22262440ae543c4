import Cta.Tape.DiskRead
import Cta.Tape.FlushedFiles

/-! Files as the disk side delivers them, up to a block that it could not fill, and what their
tape write tasks make of them. -/
namespace Cta.Tape.RecoverableError
open Cta.Scheduler.ArchiveMount (ArchiveJob Calls)
open Cta.Tape.DataPipeline Cta.Tape.TapeWrite Cta.Tape.MigrationReportPacker
open Cta.Tape.TapeWriteSingleThread (Thresholds TapeFlush sessionEvents goodFlush)

/-- Blocks as the disk side delivers them: each one filled and in its place, up to one that failed.
Where a file failed before (`failing`), the disk side may give up and cancel the blocks instead. -/
def Delivered (failing : Bool) (t : TapeWriteTask) : List MemBlock → Nat → Prop
  | [], _ => True
  | mb :: blocks, memBlockId =>
    mb.isFailed = true ∨ (failing = true ∧ mb.isCanceled = true) ∨
      (checkErrors t mb memBlockId = none ∧ 0 < mb.payloadSize ∧
        Delivered failing t blocks (memBlockId + 1))

def hasFailed (t : TapeWriteTask) : Bool := t.blocks.any (·.isFailed)

def placeheld (t : TapeWriteTask) : Bool :=
  match t.blocks with
  | [] => true
  | mb :: _ => mb.isFailed

def failedLater (t : TapeWriteTask) : Bool := hasFailed t && !placeheld t

structure DriveOk (t : TapeWriteTask) : Prop where
  archiveFileID : t.archiveJob.archiveFileID ≠ 0
  fSeq : 1 ≤ t.archiveJob.fSeq
  header : t.header = none
  writeData : ∀ n, t.writeData n = none
  writeBlank : t.writeBlank = none
  trailer : t.trailer = none

def placeholderOps (t : TapeWriteTask) : List TapeOp :=
  [.header t.archiveJob, .placeholder, .trailer t.archiveJob]

variable {t : TapeWriteTask} {s : WriteSession} {failing : Bool}

theorem isFailed_context {mb : MemBlock} (h : mb.isFailed = true) :
    ∃ m n, mb.context = some (.failed m n) := by
  unfold MemBlock.isFailed at h
  split at h
  · next m n hc => exact ⟨m, n, hc⟩
  · cases h

theorem checkErrors_failed {mb : MemBlock} (h : mb.isFailed = true) (memBlockId : Nat) :
    ∃ m, checkErrors t mb memBlockId = some (.recoverable m) := by
  obtain ⟨m, n, hc⟩ := isFailed_context h
  exact ⟨m, by simp [checkErrors, h, hc]⟩

theorem writePlaceholder_ok (hd : DriveOk t) (m : String) (popped : List MemBlock) :
    writePlaceholder t m popped =
      ⟨[.placeholder, .trailer t.archiveJob], popped, .skip m⟩ := by
  simp [writePlaceholder, hd.writeBlank, hd.trailer]

theorem writeBlocks_delivered (hd : DriveOk t) (blocks : List MemBlock) (memBlockId : Nat)
    (hb : Delivered false t blocks memBlockId) :
    if blocks.any (·.isFailed) = true then
      ∃ m, (writeBlocks t blocks memBlockId false true).ending = .recoverable m
    else
      (writeBlocks t blocks memBlockId false true).ending = .completed ∧
        (writeBlocks t blocks memBlockId false true).ops =
          blocks.map .data ++ [.trailer t.archiveJob] := by
  induction blocks generalizing memBlockId with
  | nil => simp [writeBlocks, writeTrailer, hd.trailer]
  | cons mb blocks ih =>
    rw [writeBlocks]
    simp only [Bool.false_and, Bool.false_eq_true, if_false, List.any_cons, Bool.true_or]
    cases hfailed : mb.isFailed with
    | true =>
      obtain ⟨m, hm⟩ := checkErrors_failed (t := t) hfailed memBlockId
      simp [hm]
    | false =>
      have hrest : checkErrors t mb memBlockId = none ∧ 0 < mb.payloadSize ∧
          Delivered false t blocks (memBlockId + 1) := by
        simpa [Delivered, hfailed] using hb
      obtain ⟨hcheck, -, hrest⟩ := hrest
      have hih := ih (memBlockId + 1) hrest
      simp only [Bool.false_or, hcheck, hd.writeData]
      split
      · next hany =>
        rw [if_pos hany] at hih
        exact hih
      · next hany =>
        rw [if_neg hany] at hih
        exact ⟨hih.1, by simp [hih.2]⟩

theorem writeFile_delivered (hd : DriveOk t) (hb : Delivered false t t.blocks 0)
    (hs : s.corrupted = false ∧ s.locked = false) :
    if failedLater t = true then
      (writeFile t s).1 = { s with corrupted := true } ∧
        ∃ m, (writeFile t s).2.ending = .recoverable m
    else
      (writeFile t s).1 = s ∧
        if placeheld t = true then
          (∃ m, (writeFile t s).2.ending = .skip m) ∧ (writeFile t s).2.ops = placeholderOps t
        else (writeFile t s).2.ending = .completed ∧ (writeFile t s).2.ops = fileOps t := by
  have hopen : openFileWriter t s = ({ s with locked := true }, none) := by
    have hid := hd.archiveFileID
    have hseq := hd.fSeq
    have hnot : ¬(t.archiveJob.archiveFileID = 0 ∨ t.archiveJob.fSeq < 1) := by omega
    unfold openFileWriter
    rw [if_neg hnot]
    simp [hs.1, hs.2, hd.header]
  have hsame : ∀ b, ({ s with corrupted := s.corrupted || b, locked := false } : WriteSession) =
      { s with corrupted := b } := by
    intro b
    simp [hs.1, hs.2]
  have hback : ({ s with corrupted := false } : WriteSession) = s := by
    rw [← hs.1]
  simp only [writeFile, hopen]
  cases hblocks : t.blocks with
  | nil =>
    have hlater : failedLater t = false := by simp [failedLater, hasFailed, hblocks]
    have hheld : placeheld t = true := by simp [placeheld, hblocks]
    simp only [hlater, hheld, writeBlocks, writeTrailer, writePlaceholder_ok hd, if_true,
      Bool.false_eq_true, if_false]
    exact ⟨(hsame _).trans hback, ⟨_, rfl⟩, rfl⟩
  | cons mb blocks =>
    cases hfailed : mb.isFailed with
    | true =>
      have hheld : placeheld t = true := by simp [placeheld, hblocks, hfailed]
      have hlater : failedLater t = false := by simp [failedLater, hheld]
      simp only [hlater, hheld, writeBlocks, hfailed, Bool.and_self, writePlaceholder_ok hd,
        if_true, Bool.false_eq_true, if_false]
      exact ⟨(hsame _).trans hback, ⟨_, rfl⟩, rfl⟩
    | false =>
      have hheld : placeheld t = false := by simp [placeheld, hblocks, hfailed]
      have hlater : failedLater t = blocks.any (·.isFailed) := by
        simp [failedLater, hasFailed, hheld, hblocks, hfailed]
      rw [hblocks] at hb
      have hrest : checkErrors t mb 0 = none ∧ 0 < mb.payloadSize ∧
          Delivered false t blocks 1 := by
        simpa [Delivered, hfailed] using hb
      obtain ⟨hcheck, hsize, hrest⟩ := hrest
      have hpayload : decide (0 < mb.payloadSize) = true := decide_eq_true hsize
      have hwritten := writeBlocks_delivered hd blocks 1 hrest
      simp only [hlater, hheld, writeBlocks, hfailed, Bool.and_false, hcheck, hd.writeData,
        Bool.false_or, hpayload, Bool.false_eq_true, if_false, Nat.zero_add]
      split
      · next hany =>
        rw [if_pos hany] at hwritten
        obtain ⟨m, hm⟩ := hwritten
        simp only [hm]
        exact ⟨hsame _, m, rfl⟩
      · next hany =>
        rw [if_neg hany] at hwritten
        simp only [hwritten.1, hwritten.2]
        exact ⟨(hsame _).trans hback, by simp, by simp [fileOps, hblocks]⟩

/-- A file with a failed block is reported and, if that is the first one, counted: the session goes
on behind a placeholder. If it is a later one the write session is corrupted, its number stays
where it is, but nothing is thrown. -/
theorem execute_delivered (hd : DriveOk t) (hb : Delivered false t t.blocks 0)
    (hs : s.corrupted = false ∧ s.locked = false) (hacc : Accepted t s) (errorFlag : Bool) :
    (execute t s errorFlag).thrown = none ∧
      if failedLater t = true then
        (execute t s errorFlag).session = { s with corrupted := true } ∧
          ∃ m, (execute t s errorFlag).reports = [.error t.archiveJob m]
      else
        (execute t s errorFlag).session = { s with lastWrittenFSeq := toInt t.archiveJob.fSeq } ∧
          if placeheld t = true then
            (execute t s errorFlag).ops = placeholderOps t ∧
              ∃ m, (execute t s errorFlag).reports = [.skipped t.archiveJob m]
          else
            (execute t s errorFlag).ops = fileOps t ∧
              (execute t s errorFlag).reports = [.successful t.archiveJob] := by
  have hne : ¬toInt t.archiveJob.fSeq ≠ s.lastWrittenFSeq + 1 := fun hne => hne hacc
  have hfile := writeFile_delivered hd hb hs
  unfold execute
  simp only [if_neg hne]
  generalize writeFile t s = w at hfile
  obtain ⟨s', w⟩ := w
  cases hlater : failedLater t with
  | true =>
    obtain ⟨rfl, m, hm⟩ : s' = { s with corrupted := true } ∧ ∃ m, w.ending = .recoverable m := by
      simpa [hlater] using hfile
    simp [hm]
  | false =>
    cases hheld : placeheld t with
    | true =>
      obtain ⟨rfl, ⟨m, hm⟩, hops⟩ : s' = s ∧ (∃ m, w.ending = .skip m) ∧
          w.ops = placeholderOps t := by simpa [hlater, hheld] using hfile
      simp [hm, hops]
    | false =>
      obtain ⟨rfl, hm, hops⟩ : s' = s ∧ w.ending = .completed ∧ w.ops = fileOps t := by
        simpa [hlater, hheld] using hfile
      simp [hm, hops]

section
variable {d : DiskRead.DiskReadTask}

end

end Cta.Tape.RecoverableError
