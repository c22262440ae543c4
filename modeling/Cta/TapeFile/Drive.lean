import Cta.Lib.Triples
import Cta.Tape.DriveGeneric
import Cta.TapeFile.Structures

/-! A tape in a drive: records and file marks, and the place of the head between them. -/
namespace Cta.TapeFile.Drive
open Cta.Tape.DriveGeneric (LbpToUse)
open Cta.Lib.FixedWidth Cta.Lib.Triples Cta.TapeFile.Structures

inductive Failure where
  | tapeFormatError (what : String)
  | endOfFile
  | sessionAlreadyInUse
  | sessionCorrupted
  | fileClosedTwice
  | zeroFileWritten
  | unsupportedPositioningMode
  | wrongBlockSize
  | invalidArgument (what : String)
  | unexpectedSize (context : String)
  | notAFileMark (context : String)
  | errnum (what : String)
  | exception (what : String)
  deriving DecidableEq, Repr

/-- A block as the host wrote it. There is no such thing as a zero length block. `intact` is
whether its checksum matches. -/
structure Block where
  data : Text
  intact : Bool
  nonempty : data ≠ []
  deriving DecidableEq

inductive Object where
  | block (b : Block)
  | fileMark
  deriving DecidableEq

/-- A drive with its tape, cut where the head is: what is before it, the nearest first, and what
comes next. `faults` are calls to come: one that fails and leaves the head somewhere, or one that
does not. -/
structure TapeDrive where
  before : List Object
  next : List Object
  lbpToUse : LbpToUse
  faults : List (Option Nat)
  deriving DecidableEq

abbrev DriveM := EStateM Failure TapeDrive

namespace TapeDrive

def objects (d : TapeDrive) : List Object := d.before.reverse ++ d.next

def moveTo (n : Nat) (d : TapeDrive) : TapeDrive :=
  { d with before := (d.objects.take n).reverse, next := d.objects.drop n }

def pass (d : TapeDrive) : TapeDrive :=
  match d.next with
  | o :: next => { d with before := o :: d.before, next }
  | [] => d

def append (written : List Object) (d : TapeDrive) : TapeDrive :=
  { d with before := written.reverse ++ d.before, next := [] }

end TapeDrive

def attempt {α : Type} (what : String) (call : TapeDrive → EStateM.Result Failure TapeDrive α) :
    DriveM α := fun d =>
  match d.faults with
  | some n :: faults => .error (.errnum what) ({ d with faults }.moveTo n)
  | none :: faults => call { d with faults }
  | [] => call d

def rewind : DriveM Unit :=
  attempt "Failed ST ioctl (MTREW) in DriveGeneric::rewind" fun d => .ok () (d.moveTo 0)

def isTapeBlank : DriveM Bool := fun d =>
  match d.faults with
  | some n :: faults => .ok false ({ d with faults }.moveTo n)
  | none :: faults => .ok (d.objects = []) ({ d with faults }.moveTo 0)
  | [] => .ok (d.objects = []) (d.moveTo 0)

def setLogicalBlockProtection (lbpToUse : LbpToUse) : DriveM Unit := fun d =>
  attempt "Failed SG_IO ioctl" (fun d => .ok () d) { d with lbpToUse }

def enableCRC32CLogicalBlockProtectionReadOnly : DriveM Unit :=
  setLogicalBlockProtection .crc32cReadOnly

def enableCRC32CLogicalBlockProtectionReadWrite : DriveM Unit :=
  setLogicalBlockProtection .crc32cReadWrite

def disableLogicalBlockProtection : DriveM Unit := setLogicalBlockProtection .disabled

/-- What `count` file marks lie behind, and what is passed on the way, the last one first. -/
def spaceFileMarks : Nat → List Object → List Object → Option (List Object × List Object)
  | 0, next, passed => some (next, passed)
  | _ + 1, [], _ => none
  | count + 1, .fileMark :: next, passed => spaceFileMarks count next (.fileMark :: passed)
  | count + 1, .block b :: next, passed => spaceFileMarks (count + 1) next (.block b :: passed)

def spaceFileMarksForward (count : Nat) : DriveM Unit :=
  let what := "Failed ST ioctl (MTFSF) in DriveGeneric::spaceFileMarksForward"
  if count = 0 then pure ()
  else attempt what fun d =>
    match spaceFileMarks count d.next d.before with
    | some (next, before) => .ok () { d with before, next }
    | none => .error (.errnum what) (d.moveTo d.objects.length)

/-- The head stops before the last of the file marks, or at the beginning of the tape. -/
def spaceFileMarksBackwards (count : Nat) : DriveM Unit :=
  let what := "Failed ST ioctl (MTBSF) in DriveGeneric::spaceFileMarksBackwards"
  if count = 0 then pure ()
  else attempt what fun d =>
    match spaceFileMarks count d.before d.next with
    | some (before, next) => .ok () { d with before, next }
    | none => .error (.errnum what) (d.moveTo 0)

def positionToLogicalObject (blockId : Nat) : DriveM Unit :=
  attempt "SCSI error in positionToLogicalObject:" fun d =>
    if blockId ≤ d.objects.length then .ok () (d.moveTo blockId)
    else .error (.exception "SCSI error in positionToLogicalObject:") (d.moveTo d.objects.length)

def getPositionInfo : DriveM Nat :=
  attempt "Failed SG_IO ioctl in DriveGeneric::getPositionInfo" fun d =>
    if d.before.length < 2 ^ 32 then .ok d.before.length d
    else .error (.exception "An overflow has occurred in getPostitionInfo") d

def writeBlock (data : Text) : DriveM Unit := fun d =>
  if d.lbpToUse = .crc32cReadOnly then
    .error (.exception "In DriveGeneric::writeBlock: trying to write a block in CRC-readonly mode") d
  else
    attempt "Failed ST write in DriveGeneric::writeBlock" (fun d =>
      if h : data = [] then .ok () d else .ok () (d.append [.block ⟨data, true, h⟩])) d

def writeFileMarks (what : String) (count : Nat) : DriveM Unit :=
  attempt what fun d => .ok () (d.append (List.replicate count .fileMark))

def writeSyncFileMarks (count : Nat) : DriveM Unit :=
  writeFileMarks "Failed ST ioctl (MTWEOF) in DriveGeneric::writeSyncFileMarks" count

def writeImmediateFileMarks (count : Nat) : DriveM Unit :=
  writeFileMarks "Failed ST ioctl (MTWEOFI) in DriveGeneric::writeImmediateFileMarks" count

def readBlock (count : Nat) : DriveM Text :=
  let what := "In DriveGeneric::readBlock: Failed ST read"
  attempt what fun d =>
    match d.next with
    | [] => .error (.errnum what) d
    | .fileMark :: _ => .ok [] d.pass
    | .block b :: _ =>
      if count < b.data.length then .error (.errnum what) d.pass
      else if d.lbpToUse ≠ .disabled ∧ !b.intact then
        .error (.exception "In DriveGeneric::readBlock: Failed checksum verification") d.pass
      else .ok b.data d.pass

/-- The caller's memory afterwards, which is untouched where the checksum does not match. -/
def readExactBlock (memory : Text) (context : String) :
    DriveM { t : Text // t.length = memory.length } :=
  let what := context ++ ": Failed ST read in DriveGeneric::readExactBlock"
  attempt what fun d =>
    match d.next with
    | [] => .error (.errnum what) d
    | .fileMark :: _ => .error (.unexpectedSize context) d.pass
    | .block b :: _ =>
      if memory.length < b.data.length then .error (.errnum what) d.pass
      else if h : b.data.length = memory.length then
        if d.lbpToUse ≠ .disabled ∧ !b.intact then .ok ⟨memory, rfl⟩ d.pass
        else .ok ⟨b.data, h⟩ d.pass
      else .error (.unexpectedSize context) d.pass

def readFileMark (context : String) : DriveM Unit :=
  let what := context ++ ": Failed ST read in DriveGeneric::readFileMark"
  attempt what fun d =>
    match d.next with
    | [] => .error (.errnum what) d
    | .fileMark :: _ => .ok () d.pass
    | .block b :: _ =>
      if b.data.length ≤ 4 then .error (.notAFileMark context) d.pass
      else .error (.errnum what) d.pass

end Cta.TapeFile.Drive
