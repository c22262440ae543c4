import Cta.TapeFile.LabelSession

/-! Sessions that write files to tape. -/
namespace Cta.TapeFile.Writing
open Cta.Lib.FixedWidth Cta.Lib.Numerals Cta.Lib.Triples
open Cta.TapeFile.Structures Cta.TapeFile.HeaderChecker Cta.TapeFile.Drive
open Cta.TapeFile.LabelSession
open Cta.Tape.DataPipeline (toInt toInt_of_lt)
open Cta.Tape.DriveGeneric (LbpToUse)

structure WriteSession where
  drive : TapeDrive
  vid : Text
  compressionEnabled : Bool
  useLbp : Bool
  corrupted : Bool
  locked : Bool
  detectedLbp : Bool
  lastWrittenFSeq : Nat
  siteName : Text
  hostName : Text
  deviceInfo : DeviceInfo
  deriving DecidableEq

/-- What a session is given, by its caller, its host and its drive. -/
structure Setup where
  compression : Bool
  useLbp : Bool
  siteName : Text
  hostName : Text
  deviceInfo : DeviceInfo
  deriving DecidableEq

namespace WriteSession

def onDrive {α : Type} (x : DriveM α) : EStateM Failure WriteSession α :=
  onPart drive (fun drive s => { s with drive }) x

/-- The trailer of the last file. The number of file marks has 32 bits. -/
def checkLastTrailer (last_fSeq : Nat) : DriveM Unit := do
  spaceFileMarksForward ((last_fSeq * 3 - 1) % 2 ^ 32)
  let eof1 ← readLabel HDR1EOF1.widths "[WriteSession::WriteSession] - Reading EOF1"
  let eof2 ← readLabel HDR2EOF2.widths "[WriteSession::WriteSession] - Reading EOF2"
  let utl1 ← readLabel UHL1UTL1.widths "[WriteSession::WriteSession] - Reading UTL1"
  readFileMark "[WriteSession::WriteSession] - Reading file mark at the end of file trailer"
  verified ((EOF1.verify eof1).or ((EOF2.verify eof2).or (UTL1.verify utl1)))
  verified (checkUTL1 utl1 last_fSeq)

def enable (useLbp : Bool) : DriveM Unit :=
  if useLbp then enableCRC32CLogicalBlockProtectionReadWrite
  else throw (.exception ("[WriteSession::WriteSession()] - Tape is labeled with crc32c logical " ++
    "block protection but tapserverd started without LBP support"))

def checkTape (vid : Text) (last_fSeq : Nat) (useLbp : Bool) : DriveM Bool := do
  let detectedLbp ← openTape "WriteSession" (enable useLbp) vid
  (if 0 < last_fSeq then checkLastTrailer last_fSeq else pure ())
  pure detectedLbp

def construct (vid : Text) (last_fSeq : Nat) (setup : Setup) (drive : TapeDrive) :
    EStateM.Result Failure TapeDrive WriteSession :=
  match checkTape vid last_fSeq setup.useLbp drive with
  | .error e drive => .error e drive
  | .ok detectedLbp drive => .ok {
      drive, vid, detectedLbp
      compressionEnabled := setup.compression
      useLbp := setup.useLbp
      corrupted := false
      locked := false
      lastWrittenFSeq := last_fSeq
      siteName := setup.siteName
      hostName := setup.hostName
      deviceInfo := setup.deviceInfo } drive

def lock : EStateM Failure WriteSession Unit := do
  let s ← get
  throwIf s.locked .sessionAlreadyInUse
  throwIf s.corrupted .sessionCorrupted
  set { s with locked := true }

def release (s : WriteSession) : WriteSession :=
  { s with corrupted := s.corrupted || !s.locked, locked := false }

end WriteSession

structure ArchiveJob where
  archiveFileID : Nat
  fSeq : Nat
  deriving DecidableEq, Repr

structure FileWriter where
  session : WriteSession
  currentBlockSize : Nat
  fileToMigrate : ArchiveJob
  isOpen : Bool
  nonzeroFileWritten : Bool
  numberOfBlocks : Nat
  blockId : Nat
  deriving DecidableEq

namespace FileWriter

def fileId (job : ArchiveJob) : Text := (numeral 16 job.archiveFileID).map Char.toUpper

def writeLabels : List Text → DriveM Unit
  | [] => writeImmediateFileMarks 1
  | t :: ts => do
    writeBlock t
    writeLabels ts

section
variable (s : WriteSession) (job : ArchiveJob) (blockSize : Nat) (time : LocalTime)

def hdr1 : HDR1EOF1 := HDR1.fill time (fileId job) s.vid (toInt job.fSeq)
def hdr2 : HDR2EOF2 := HDR2.fill (toInt blockSize) s.compressionEnabled
def uhl1 : UHL1UTL1 :=
  UHL1.fill (toInt job.fSeq) (toInt blockSize) s.siteName s.hostName s.deviceInfo
def eof1 (numberOfBlocks : Nat) : HDR1EOF1 :=
  EOF1.fill time (fileId job) s.vid (toInt job.fSeq) (toInt numberOfBlocks)
def eof2 : HDR2EOF2 := EOF2.fill (toInt blockSize) s.compressionEnabled
def utl1 : UHL1UTL1 :=
  UTL1.fill (toInt job.fSeq) (toInt blockSize) s.siteName s.hostName s.deviceInfo

end

/-- What the constructor does to the session. Its value is the block id of the file. -/
def openFile (job : ArchiveJob) (blockSize : Nat) (time : LocalTime) :
    EStateM Failure WriteSession Nat := do
  throwIf (job.archiveFileID = 0 ∨ job.fSeq < 1) (.invalidArgument
    ("Unexpected fileId in FileWriter::FileWriter (expected != 0, got: " ++
      toString job.archiveFileID ++ ") or fSeq (expected >=1, got: " ++ toString job.fSeq ++ ")"))
  let s ← get
  throwIf s.corrupted .sessionCorrupted
  WriteSession.lock
  let blockId ← (if job.fSeq = 1 then pure 0 else WriteSession.onDrive getPositionInfo)
  WriteSession.onDrive (writeLabels
    [(hdr1 s job time).pack, (hdr2 s blockSize).pack, (uhl1 s job blockSize).pack])
  pure blockId

def construct (job : ArchiveJob) (blockSize : Nat) (time : LocalTime) (s : WriteSession) :
    EStateM.Result Failure WriteSession FileWriter :=
  match openFile job blockSize time s with
  | .error e s => .error e s
  | .ok blockId s => .ok ⟨s, blockSize, job, true, false, 0, blockId⟩ s

def onDrive {α : Type} (x : DriveM α) : EStateM Failure FileWriter α :=
  onPart session (fun session w => { w with session }) (WriteSession.onDrive x)

def write (data : Text) : EStateM Failure FileWriter Unit := do
  onDrive (writeBlock data)
  modify fun w =>
    if 0 < data.length then
      { w with nonzeroFileWritten := true, numberOfBlocks := w.numberOfBlocks + 1 }
    else w

def setCorrupted (w : FileWriter) : FileWriter :=
  { w with session := { w.session with corrupted := true } }

def corruptIf (c : Prop) [Decidable c] (e : Failure) : EStateM Failure FileWriter Unit :=
  if c then do
    modify setCorrupted
    throw e
  else pure ()

def close (time : LocalTime) : EStateM Failure FileWriter Unit := do
  let w ← get
  corruptIf (!w.isOpen) .fileClosedTwice
  corruptIf (!w.nonzeroFileWritten) .zeroFileWritten
  onDrive (writeImmediateFileMarks 1)
  onDrive (writeLabels [(eof1 w.session w.fileToMigrate time w.numberOfBlocks).pack,
    (eof2 w.session w.currentBlockSize).pack,
    (utl1 w.session w.fileToMigrate w.currentBlockSize).pack])
  modify fun w => { w with isOpen := false }

def destroy (w : FileWriter) : WriteSession :=
  (if w.isOpen then w.setCorrupted else w).session.release

def writeAll : List Text → EStateM Failure FileWriter Unit
  | [] => pure ()
  | data :: blocks => do
    write data
    writeAll blocks

end FileWriter

/-- A file with the blocks that are written of it, and when it is opened and closed. -/
structure FileToWrite where
  archiveFileID : Nat
  blockSize : Nat
  blocks : List Text
  opened : LocalTime
  closed : LocalTime
  deriving DecidableEq

/-- A file is written and closed. The value is its block id. -/
def writeFile (fSeq : Nat) (f : FileToWrite) : EStateM Failure WriteSession Nat := fun s =>
  match FileWriter.construct ⟨f.archiveFileID, fSeq⟩ f.blockSize f.opened s with
  | .error e s => .error e s
  | .ok w _ =>
    let body : EStateM Failure FileWriter Unit := do
      FileWriter.writeAll f.blocks
      FileWriter.close f.closed
    match body w with
    | .error e w => .error e w.destroy
    | .ok _ w => .ok w.blockId w.destroy

def writeFiles : Nat → List FileToWrite → EStateM Failure WriteSession (List Nat)
  | _, [] => pure []
  | fSeq, f :: fs => do
    let blockId ← writeFile fSeq f
    let blockIds ← writeFiles (fSeq + 1) fs
    pure (blockId :: blockIds)

end Cta.TapeFile.Writing
