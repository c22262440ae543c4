import Mathlib.Data.List.Count
import Cta.TapeFile.Writing

/-! Where the files are on a tape. -/
namespace Cta.TapeFile.Layout
open Cta.Lib.FixedWidth
open Cta.TapeFile.Structures Cta.TapeFile.Drive Cta.TapeFile.LabelSession Cta.TapeFile.Writing
open Cta.Tape.DataPipeline (toInt)
open Cta.Tape.DriveGeneric (LbpToUse)

/-- A file that was written, and the block id that its writer recorded. -/
structure RecordedFile where
  file : FileToWrite
  setup : Setup
  blockId : Nat
  deriving DecidableEq

structure WellFormed (f : FileToWrite) : Prop where
  id_pos : f.archiveFileID ≠ 0
  id_lt : f.archiveFileID < 2 ^ 64
  size_pos : 0 < f.blockSize
  size_lt : f.blockSize < 2 ^ 31
  blocks_ne : f.blocks ≠ []
  blocks_fit : ∀ b ∈ f.blocks, b ≠ [] ∧ b.length ≤ f.blockSize

section
variable (vid : Text) (setup : Setup) (fSeq : Nat) (f : FileToWrite)

def header : List Object := [
  labelBlock (HDR1.fill f.opened (FileWriter.fileId ⟨f.archiveFileID, fSeq⟩) vid (toInt fSeq))
    (by decide),
  labelBlock (HDR2.fill (toInt f.blockSize) setup.compression) (by decide),
  labelBlock (UHL1.fill (toInt fSeq) (toInt f.blockSize) setup.siteName setup.hostName
    setup.deviceInfo) (by decide)]

/-- Nothing is recorded of an empty block. -/
def blockObject (t : Text) : List Object := if h : t = [] then [] else [.block ⟨t, true, h⟩]

def data : List Object := f.blocks.flatMap blockObject

def trailer : List Object := [
  labelBlock (EOF1.fill f.closed (FileWriter.fileId ⟨f.archiveFileID, fSeq⟩) vid (toInt fSeq)
    (toInt (data f).length)) (by decide),
  labelBlock (EOF2.fill (toInt f.blockSize) setup.compression) (by decide),
  labelBlock (UTL1.fill (toInt fSeq) (toInt f.blockSize) setup.siteName setup.hostName
    setup.deviceInfo) (by decide)]

def body : List Object := header vid setup fSeq f ++ .fileMark :: data f

def fileObjects : List Object :=
  body vid setup fSeq f ++ .fileMark :: trailer vid setup fSeq f ++ [.fileMark]

end

/-- Files with consecutive numbers, from this one on. -/
def filesObjects (vid : Text) : Nat → List RecordedFile → List Object
  | _, [] => []
  | fSeq, r :: rs => fileObjects vid r.setup fSeq r.file ++ filesObjects vid (fSeq + 1) rs

variable {vid : Text} {fSeq : Nat} {f : FileToWrite} {setup : Setup}

def marks (os : List Object) : Nat := os.count .fileMark

@[simp]
theorem marks_nil : marks [] = 0 := rfl

@[simp]
theorem marks_block (b : Block) (os : List Object) : marks (.block b :: os) = marks os := by
  simp [marks]

@[simp]
theorem marks_fileMark (os : List Object) : marks (.fileMark :: os) = marks os + 1 := by
  simp [marks]

@[simp]
theorem marks_append (os os' : List Object) : marks (os ++ os') = marks os + marks os' :=
  List.count_append

@[simp]
theorem marks_reverse (os : List Object) : marks os.reverse = marks os := List.count_reverse

theorem marks_blockObject (t : Text) : marks (blockObject t) = 0 := by
  unfold blockObject
  split
  · rfl
  · rfl

theorem marks_data : marks (data f) = 0 := by
  unfold data
  induction f.blocks with
  | nil => rfl
  | cons b blocks ih => rw [List.flatMap_cons, marks_append, marks_blockObject, ih]

theorem marks_header : marks (header vid setup fSeq f) = 0 := by simp [header, labelBlock]

theorem marks_trailer : marks (trailer vid setup fSeq f) = 0 := by simp [trailer, labelBlock]

theorem marks_body : marks (body vid setup fSeq f) = 1 := by
  simp [body, marks_header, marks_data]

theorem marks_fileObjects : marks (fileObjects vid setup fSeq f) = 3 := by
  simp [fileObjects, marks_body, marks_trailer]

theorem filesObjects_append (n : Nat) (rs rs' : List RecordedFile) :
    filesObjects vid n (rs ++ rs') =
      filesObjects vid n rs ++ filesObjects vid (n + rs.length) rs' := by
  induction rs generalizing n with
  | nil => rfl
  | cons r rs ih =>
    rw [List.cons_append, filesObjects, ih, filesObjects, List.append_assoc, List.length_cons]
    congr 3
    omega

theorem marks_filesObjects (n : Nat) (rs : List RecordedFile) :
    marks (filesObjects vid n rs) = 3 * rs.length := by
  induction rs generalizing n with
  | nil => rfl
  | cons r rs ih =>
    rw [filesObjects, marks_append, marks_fileObjects, ih, List.length_cons]
    omega

theorem length_filesObjects_ge (vid : Text) (n : Nat) (rs : List RecordedFile) :
    9 * rs.length ≤ (filesObjects vid n rs).length := by
  induction rs generalizing n with
  | nil => exact Nat.zero_le _
  | cons r rs ih =>
    have hrest := ih (n + 1)
    have hfile : 9 ≤ (fileObjects vid r.setup n r.file).length := by
      simp [fileObjects, body, header, trailer]
    rw [filesObjects, List.length_append, List.length_cons]
    omega

/-- Spacing stops behind the file mark that the count leads to. -/
theorem spaceFileMarks_run (passed next os : List Object) :
    spaceFileMarks (marks os + 1) (os ++ .fileMark :: next) passed =
      some (next, .fileMark :: os.reverse ++ passed) := by
  induction os generalizing passed with
  | nil => simp [spaceFileMarks]
  | cons o os ih =>
    cases o with
    | block b =>
      rw [marks_block, List.cons_append, spaceFileMarks, ih]
      simp
    | fileMark =>
      rw [marks_fileMark, List.cons_append, spaceFileMarks, ih]
      simp

theorem spaceFileMarksForward_run (before next os : List Object) (l : LbpToUse) {n : Nat}
    (hn : n = marks os + 1) :
    spaceFileMarksForward n ⟨before, os ++ .fileMark :: next, l, []⟩ =
      .ok () ⟨.fileMark :: os.reverse ++ before, next, l, []⟩ := by
  subst hn
  unfold spaceFileMarksForward
  rw [if_neg (Nat.succ_ne_zero _), attempt_run, spaceFileMarks_run]

theorem spaceFileMarksBackwards_run (before next os : List Object) (l : LbpToUse) {n : Nat}
    (hn : n = marks os + 1) :
    spaceFileMarksBackwards n ⟨os ++ .fileMark :: before, next, l, []⟩ =
      .ok () ⟨before, .fileMark :: os.reverse ++ next, l, []⟩ := by
  subst hn
  unfold spaceFileMarksBackwards
  rw [if_neg (Nat.succ_ne_zero _), attempt_run, spaceFileMarks_run]

end Cta.TapeFile.Layout
