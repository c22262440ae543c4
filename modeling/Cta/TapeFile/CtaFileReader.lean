import Cta.TapeFile.LabelSession

/-! Sessions that read files from tape. -/
namespace Cta.TapeFile.CtaFileReader
open Cta.Lib.FixedWidth Cta.Lib.Numerals Cta.Lib.Triples
open Cta.TapeFile.Structures Cta.TapeFile.HeaderChecker Cta.TapeFile.Drive
open Cta.TapeFile.LabelSession
open Cta.Tape.DriveGeneric (LbpToUse)

inductive PartOfFile where
  | header
  | headerProcessing
  | payload
  | trailer
  deriving DecidableEq, Repr

structure ReadSession where
  drive : TapeDrive
  vid : Text
  useLbp : Bool
  corrupted : Bool
  locked : Bool
  fseq : Nat
  currentFilePart : PartOfFile
  detectedLbp : Bool
  deriving DecidableEq

namespace ReadSession

def enable (useLbp : Bool) : DriveM Unit :=
  if useLbp then enableCRC32CLogicalBlockProtectionReadOnly else disableLogicalBlockProtection

def construct (vid : Text) (useLbp : Bool) (drive : TapeDrive) :
    EStateM.Result Failure TapeDrive ReadSession :=
  match openTape "ReadSession" (enable useLbp) vid drive with
  | .error e drive => .error e drive
  | .ok detectedLbp drive => .ok ⟨drive, vid, useLbp, false, false, 1, .header, detectedLbp⟩ drive

def lock (s : ReadSession) : Except Failure ReadSession :=
  if s.locked then .error .sessionAlreadyInUse
  else if s.corrupted then .error .sessionCorrupted
  else .ok { s with locked := true }

def release (s : ReadSession) : ReadSession :=
  { s with corrupted := s.corrupted || !s.locked, locked := false }

end ReadSession

inductive PositioningMethod where
  | byBlock
  | byFSeq
  | other
  deriving DecidableEq, Repr

structure RetrieveJob where
  archiveFileID : Nat
  fSeq : Nat
  blockId : Nat
  positioningMethod : PositioningMethod
  deriving DecidableEq, Repr

structure FileReader where
  session : ReadSession
  currentBlockSize : Nat
  positionCommandCode : PositioningMethod
  deriving DecidableEq

namespace FileReader

abbrev ReaderM := EStateM Failure FileReader

def construct (job : RetrieveJob) (s : ReadSession) : Except Failure FileReader :=
  if s.corrupted then .error .sessionCorrupted
  else
    match s.lock with
    | .error e => .error e
    | .ok s => .ok ⟨s, 0, job.positioningMethod⟩

def destroy (r : FileReader) : ReadSession :=
  let s := r.session
  let unfinished := r.positionCommandCode = .byFSeq ∧ s.currentFilePart ≠ .header
  { s with corrupted := s.corrupted || unfinished }.release

def onDrive {α : Type} (x : DriveM α) : ReaderM α :=
  onPart (·.session.drive) (fun drive r => { r with session := { r.session with drive } }) x

def setCorrupted (r : FileReader) : FileReader :=
  { r with session := { r.session with corrupted := true } }

def setCurrentFilePart (currentFilePart : PartOfFile) : ReaderM Unit :=
  modify fun r => { r with session := { r.session with currentFilePart } }

def setCurrentFseq (fseq : Nat) : ReaderM Unit :=
  modify fun r => { r with session := { r.session with fseq := fseq % 2 ^ 32 } }

def setBlockSize (uhl1 : UHL1UTL1) : ReaderM Unit := do
  let size := (atol uhl1.actualBlockSize % 2 ^ 64).toNat
  modify fun r => { r with currentBlockSize := size }
  throwIf (size < 1) (.tapeFormatError
    "[FileReader::setBlockSize] - Invalid block size in uhl1 detected")

def checkHeaders (job : RetrieveJob) : ReaderM Unit := do
  setCurrentFseq job.fSeq
  let hdr1 ← onDrive (readLabel HDR1EOF1.widths "[FileReader::position] - Reading HDR1")
  let hdr2 ← onDrive (readLabel HDR2EOF2.widths "[FileReader::position] - Reading HDR2")
  let uhl1 ← onDrive (readLabel UHL1UTL1.widths "[FileReader::position] - Reading UHL1")
  onDrive (readFileMark "[FileReader::position] - Reading file mark at the end of file header")
  -- the head is at the beginning of the file, if it was where it should be
  setCurrentFilePart .payload
  verified ((HDR1.verify hdr1).or ((HDR2.verify hdr2).or (UHL1.verify uhl1)))
  let r ← get
  verified (checkHDR1 hdr1 job.archiveFileID r.session.vid)
  verified (checkUHL1 uhl1 job.fSeq)
  setBlockSize uhl1

def moveToFirstHeaderBlock : DriveM Unit := do
  rewind
  let vol1 ← readLabel VOL1.widths "[FileReader::position] - Reading VOL1"
  verified (VOL1.verify vol1)

/-- Three file marks for each file, and one more to get before the file mark that precedes the
header. The number of file marks has 32 bits. -/
def moveReaderByFSeqDelta (fSeq_delta : Int) : DriveM Unit :=
  if fSeq_delta = 0 then pure ()
  else if 0 < fSeq_delta then spaceFileMarksForward (fSeq_delta.natAbs % 2 ^ 32 * 3 % 2 ^ 32)
  else do
    spaceFileMarksBackwards ((fSeq_delta.natAbs % 2 ^ 32 * 3 + 1) % 2 ^ 32)
    readFileMark
      "[FileReader::position] Reading file mark right before the header of the file we want to read"

def toInt64 (n : Nat) : Int := ((n : Int) + 2 ^ 63) % 2 ^ 64 - 2 ^ 63

def corruptIf (c : Prop) [Decidable c] (e : Failure) : ReaderM Unit :=
  if c then do
    modify setCorrupted
    throw e
  else pure ()

def positionByFseq (job : RetrieveJob) : ReaderM Unit := do
  let r ← get
  corruptIf (r.session.currentFilePart ≠ .header) .sessionCorrupted
  -- a failure from here on is discovered by the next call
  setCurrentFilePart .headerProcessing
  throwIf (job.fSeq < 1) (.invalidArgument
    ("Unexpected fileId in FileReader::position with fSeq expected >=1, got: " ++
      toString job.fSeq ++ ")"))
  let fSeq_delta := toInt64 job.fSeq - r.session.fseq
  onDrive (if job.fSeq = 1 then moveToFirstHeaderBlock else moveReaderByFSeqDelta fSeq_delta)
  checkHeaders job

/-- The first file has block id 0, and is behind the label of the volume. -/
def useBlockID (job : RetrieveJob) : DriveM Unit :=
  positionToLogicalObject ((if job.blockId ≠ 0 then job.blockId else 1) % 2 ^ 32)

def positionByBlockID (job : RetrieveJob) : ReaderM Unit := do
  setCurrentFilePart .headerProcessing
  onDrive (useBlockID job)
  checkHeaders job

def position (job : RetrieveJob) : ReaderM Unit := do
  let r ← get
  match r.positionCommandCode with
  | .byBlock => positionByBlockID job
  | .byFSeq => positionByFseq job
  | .other => throw .unsupportedPositioningMode

def checkTrailers : ReaderM Unit := do
  setCurrentFilePart .trailer
  let eof1 ← onDrive (readLabel HDR1EOF1.widths "[FileReader::read] - Reading HDR1")
  let eof2 ← onDrive (readLabel HDR2EOF2.widths "[FileReader::read] - Reading HDR2")
  let utl1 ← onDrive (readLabel UHL1UTL1.widths "[FileReader::read] - Reading UTL1")
  onDrive (readFileMark "[FileReader::read] - Reading file mark at the end of file trailer")
  -- on to the header of the next file, whatever the trailer says
  let r ← get
  setCurrentFseq (r.session.fseq + 1)
  setCurrentFilePart .header
  verified ((EOF1.verify eof1).or ((EOF2.verify eof2).or (UTL1.verify utl1)))

def readNextDataBlock (size : Nat) : ReaderM Text := do
  let r ← get
  throwIf (size ≠ r.currentBlockSize) .wrongBlockSize
  let data ← onDrive (readBlock size)
  if data = [] then do
    checkTrailers
    throw .endOfFile
  else pure data

end FileReader

/-- The blocks that a caller got, the exception that ended it, if any, and the session after it. -/
structure Outcome where
  blocks : List Text
  thrown : Option Failure
  session : ReadSession
  deriving DecidableEq

/-- The blocks that are read until there is an exception or no more of them are wanted. Each time
the caller asks for a size, which may depend on the block size of the file. -/
def readBlocks : List (Nat → Nat) → FileReader → Outcome
  | [], r => ⟨[], none, r.destroy⟩
  | size :: sizes, r =>
    match FileReader.readNextDataBlock (size r.currentBlockSize) r with
    | .error e r => ⟨[], some e, r.destroy⟩
    | .ok data r =>
      let rest := readBlocks sizes r
      { rest with blocks := data :: rest.blocks }

/-- One file is recalled. The reader does not outlive an exception. -/
def recallFile (job : RetrieveJob) (sizes : List (Nat → Nat)) (s : ReadSession) : Outcome :=
  match FileReader.construct job s with
  | .error e => ⟨[], some e, s⟩
  | .ok r =>
    match FileReader.position job r with
    | .error e r => ⟨[], some e, r.destroy⟩
    | .ok _ r => readBlocks sizes r

def recalls : List (RetrieveJob × List (Nat → Nat)) → ReadSession → List Outcome
  | [], _ => []
  | (job, sizes) :: rest, s =>
    let outcome := recallFile job sizes s
    outcome :: recalls rest outcome.session

end Cta.TapeFile.CtaFileReader
