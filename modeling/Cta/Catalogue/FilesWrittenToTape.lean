import Cta.Catalogue.Tables
import Mathlib.Algebra.Ring.Nat

/-! Recording the items written to a tape, in the three database backends. -/
namespace Cta.Catalogue
open Cta.Lib.Transactions

structure TapeItemWritten where
  vid : String
  fSeq : Nat
  tapeDrive : String
  deriving DecidableEq, Repr

structure TapeFileWritten extends TapeItemWritten where
  archiveFileId : Nat
  diskInstance : String
  diskFileId : String
  diskFileOwnerUid : Nat
  diskFileGid : Nat
  size : Nat
  checksumBlob : ChecksumBlob
  storageClassName : String
  blockId : Nat
  copyNb : Nat
  deriving DecidableEq, Repr

/-- An element of the set of events: a file, or a placeholder that only takes up an fSeq. -/
inductive Event
  | item (e : TapeItemWritten)
  | file (e : TapeFileWritten)
  deriving DecidableEq, Repr

def Event.toItem : Event → TapeItemWritten
  | item e => e
  | file e => e.toTapeItemWritten

def Event.file? : Event → Option TapeFileWritten
  | item _ => none
  | file e => some e

abbrev Event.vid (e : Event) : String := e.toItem.vid

abbrev Event.fSeq (e : Event) : Nat := e.toItem.fSeq

def fileEvents (events : List Event) : List TapeFileWritten := events.filterMap Event.file?

namespace TapeFileWritten

def archiveFileRow (f : TapeFileWritten) : ArchiveFileRow :=
  { archiveFileId := f.archiveFileId
    diskInstance := f.diskInstance
    diskFileId := f.diskFileId
    diskFileOwnerUid := f.diskFileOwnerUid
    diskFileGid := f.diskFileGid
    size := f.size
    checksumBlob := f.checksumBlob
    storageClassName := f.storageClassName }

def tapeFileRow (f : TapeFileWritten) : TapeFileRow :=
  { vid := f.vid
    fSeq := f.fSeq
    blockId := f.blockId
    fileSize := f.size
    copyNb := f.copyNb
    archiveFileId := f.archiveFileId }

def fileContext (f : TapeFileWritten) : String :=
  "archiveFileId=" ++ toString f.archiveFileId ++ ", diskInstanceName=" ++ f.diskInstance ++
    ", diskFileId=" ++ f.diskFileId

end TapeFileWritten

def checkFieldsAreSet (failure : String) (unset : List (Bool × String)) : Except Error Unit :=
  match unset.find? (·.1) with
  | some field => .error (.exception (failure ++ field.2))
  | none => .ok ⟨⟩

theorem checkFieldsAreSet_eq_ok {failure : String} {unset : List (Bool × String)} :
    checkFieldsAreSet failure unset = .ok ⟨⟩ ↔ ∀ field ∈ unset, field.1 = false := by
  unfold checkFieldsAreSet
  cases h : unset.find? (·.1) with
  | none => simpa using h
  | some field =>
    have hmem := List.mem_of_find?_eq_some h
    have hset := List.find?_some h
    simp only [reduceCtorEq, false_iff]
    exact fun hall => by simp [hall field hmem] at hset

def TapeItemWritten.unset (e : TapeItemWritten) : List (Bool × String) :=
  [(e.vid == "", "vid is an empty string"),
   (e.fSeq == 0, "fSeq is 0"),
   (e.tapeDrive == "", "tapeDrive is an empty string")]

def checkTapeItemWrittenFieldsAreSet (callingFunc : String) (e : TapeItemWritten) :
    Except Error Unit :=
  checkFieldsAreSet (callingFunc ++ " failed: TapeItemWrittenEvent is invalid: ") e.unset

def TapeFileWritten.unset (e : TapeFileWritten) : List (Bool × String) :=
  [(e.diskInstance == "", "diskInstance is an empty string"),
   (e.diskFileId == "", "diskFileId is an empty string"),
   (e.diskFileOwnerUid == 0, "diskFileOwnerUid is 0"),
   (e.size == 0, "size is 0"),
   (e.checksumBlob.isEmpty, "checksumBlob is an empty string"),
   (e.storageClassName == "", "storageClassName is an empty string"),
   (e.vid == "", "vid is an empty string"),
   (e.fSeq == 0, "fSeq is 0"),
   (e.blockId == 0 && e.fSeq != 1, "blockId is 0 and fSeq is not 1"),
   (e.copyNb == 0, "copyNb is 0"),
   (e.tapeDrive == "", "tapeDrive is an empty string")]

def checkTapeFileWrittenFieldsAreSet (callingFunc : String) (e : TapeFileWritten) :
    Except Error Unit :=
  checkFieldsAreSet (callingFunc ++ " failed: TapeFileWrittenEvent is invalid: ") e.unset

def ByteArrayToHex (bytes : List UInt8) : String :=
  if bytes.isEmpty then "0"
  else String.join (bytes.reverse.map fun b =>
    String.ofList [Nat.digitChar (b.toNat / 16), Nat.digitChar (b.toNat % 16)])

def ChecksumBlob.validateEach : ChecksumBlob → ChecksumBlob → Except Error Unit
  | (type, value) :: expected, (type', value') :: actual =>
    if type ≠ type' then
      .error (.checksumTypeMismatch
        ("Checksum type expected=" ++ type.name ++ " actual=" ++ type'.name))
    else if value ≠ value' then
      .error (.checksumValueMismatch
        ("Checksum value expected=0x" ++ ByteArrayToHex value ++ " actual=0x" ++
          ByteArrayToHex value'))
    else validateEach expected actual
  | _, _ => .ok ⟨⟩

def ChecksumBlob.validate (expected actual : ChecksumBlob) : Except Error Unit :=
  if expected.length ≠ actual.length then
    .error (.checksumBlobSizeMismatch ("Checksum blob size does not match. expected=" ++
      toString expected.length ++ " actual=" ++ toString actual.length))
  else expected.validateEach actual

theorem ChecksumBlob.validate_eq_ok {expected actual : ChecksumBlob} :
    expected.validate actual = .ok ⟨⟩ ↔ expected = actual := by
  unfold validate
  by_cases hlength : expected.length = actual.length
  · rw [if_neg (not_not.mpr hlength)]
    induction expected generalizing actual with
    | nil =>
      have hnil := List.length_eq_zero_iff.mp hlength.symm
      simp [validateEach, hnil]
    | cons c cs ih =>
      cases actual with
      | nil => cases hlength
      | cons d ds =>
        obtain ⟨type, value⟩ := c
        obtain ⟨type', value'⟩ := d
        have htail : cs.length = ds.length := Nat.succ.inj hlength
        by_cases htype : type = type'
        · by_cases hvalue : value = value'
          · simp [validateEach, htype, hvalue, ih htail]
          · simp [validateEach, htype, hvalue]
        · simp [validateEach, htype]
  · rw [if_pos hlength]
    simp only [reduceCtorEq, false_iff]
    exact fun h => hlength (congrArg List.length h)

section
variable (vid : String) (actual : Event → Nat) (checkFile : TapeFileWritten → Except Error Unit)

def checkEvent (expectedFSeq : Nat) (e : Event) : Except Error Unit := do
  checkTapeItemWrittenFieldsAreSet "filesWrittenToTape" e.toItem
  if e.vid ≠ vid then
    throw (.exception ("VID mismatch: expected=" ++ vid ++ " actual=" ++ e.vid))
  if expectedFSeq ≠ e.fSeq then
    throw (.tapeFseqMismatch ("FSeq mismatch for tape " ++ vid ++ ": expected=" ++
      toString expectedFSeq ++ " actual=" ++ toString (actual e)))
  match e with
  | .item _ => pure ⟨⟩
  | .file f => checkFile f

def checkEvents : Nat → List Event → Except Error Unit
  | _, [] => pure ⟨⟩
  | expectedFSeq, e :: es => do
    checkEvent vid actual checkFile expectedFSeq e
    checkEvents (expectedFSeq + 1) es

end

def updateTapeAfter (first : Event) (rest : List Event) : Program Unit :=
  let last := ((first :: rest).getLast (List.cons_ne_nil first rest)).toItem
  let files := fileEvents (first :: rest)
  updateTape last.vid last.fSeq (files.map (·.size)).sum files.length last.tapeDrive

def Tables.insertOldCopies (c : Tables) (old : List TapeFileRow) : Tables :=
  old.foldl (Tables.insertFileInFileRecycleLog none getRepackReasonLog) c

/-- Copies the tape files that the new ones replace to the recycle log, and returns them. -/
def insertOldCopiesOfFilesIfAnyOnFileRecycleLog (inserted : List TapeFileRow) :
    Program (List TapeFileRow) :=
  exec fun c =>
    let old := inserted.flatMap c.oldCopies
    .ok (old, c.insertOldCopies old)

def Tables.deleteTapeFiles (c : Tables) (old : List TapeFileRow) : Tables :=
  old.foldl (fun c t => c.deleteTapeFile t.place) c

/-- The new tape files take the place of the old copies of the same files. -/
def insertTapeFiles (inserted : List TapeFileRow) : Program Unit := do
  let recycled ← insertOldCopiesOfFilesIfAnyOnFileRecycleLog inserted
  forEach insertTapeFileRow inserted
  modify (·.deleteTapeFiles recycled)

def isPrimaryKeyError : Error → Bool
  | .primaryKeyError _ => true
  | _ => false

/-- Also what makes one row of a batch fail without failing the batch. -/
def isUniqueConstraintError : Error → Bool
  | .primaryKeyError _ => true
  | .uniqueError _ => true
  | _ => false

/-- `SELECT … FROM STORAGE_CLASS WHERE STORAGE_CLASS_NAME = …`: nothing to insert without it. -/
def forStorageClass (f : TapeFileWritten) (insert : Program Unit) : Program Unit := fun c =>
  if f.storageClassName ∈ c.storageClasses then insert c else .ok ⟨⟩ c

/-- The archive files of a batch by identifier; the join may not yield one of them twice. -/
def sizesAndChecksums (found : List ArchiveFileRow) :
    List ArchiveFileRow → Except Error (List ArchiveFileRow)
  | [] => .ok found
  | r :: rs =>
    if r.archiveFileId ∈ found.map (·.archiveFileId) then
      .error (.exception ("Found duplicate archive file identifier in batch of files written to " ++
        "tape: archiveFileId=" ++ toString r.archiveFileId))
    else sizesAndChecksums (found ++ [r]) rs

def selectArchiveFileSizesAndChecksums (files : List TapeFileWritten) :
    Program (List ArchiveFileRow) := fun c =>
  ofResult (sizesAndChecksums [] (files.filterMap fun f => c.archiveFile? f.archiveFileId)) c

def checkSizeAndChecksum (f : TapeFileWritten) (r : ArchiveFileRow) : Except Error Unit :=
  if r.size ≠ f.size then
    .error (.fileSizeMismatch ("File size mismatch: expected=" ++ toString r.size ++ ", actual=" ++
      toString f.size ++ ": " ++ f.fileContext))
  else r.checksumBlob.validate f.checksumBlob

def checkFound (missing : String) (f : TapeFileWritten) :
    Option ArchiveFileRow → Except Error Unit
  | none => .error (.exception missing)
  | some r => checkSizeAndChecksum f r

def verifyArchiveFiles (files : List TapeFileWritten) : Program Unit := do
  let rows ← selectArchiveFileSizesAndChecksums files
  forEach (fun f => ofResult (checkFound
    ("Failed to find archive file entry in the catalogue: " ++ f.fileContext) f
    (rows.find? (·.archiveFileId == f.archiveFileId)))) files

section
variable (insertArchiveFile : TapeFileWritten → Program Unit) (atCommit : Program Unit)

def recordBatch (files : List TapeFileWritten) : Program Unit := do
  forEach insertArchiveFile files
  verifyArchiveFiles files
  insertTapeFiles (files.map (·.tapeFileRow))
  atCommit

def recordEvents (first : Event) (rest : List Event) : Program Unit := do
  let lastFSeq ← selectTapeForUpdateAndGetLastFSeq first.vid
  ofResult (checkEvents first.vid (·.fSeq) (checkTapeFileWrittenFieldsAreSet "filesWrittenToTape")
    (lastFSeq + 1) (first :: rest))
  updateTapeAfter first rest
  if (fileEvents (first :: rest)).isEmpty then pure ⟨⟩
  else recordBatch insertArchiveFile atCommit (fileEvents (first :: rest))

def bulkFilesWrittenToTape : List Event → Program Unit
  | [] => pure ⟨⟩
  | first :: rest => do
    ofResult (checkTapeItemWrittenFieldsAreSet "filesWrittenToTape" first.toItem)
    transaction (recordEvents insertArchiveFile atCommit first rest)

end

namespace PostgresCatalogue

/-- `INSERT … ON CONFLICT (ARCHIVE_FILE_ID) DO NOTHING`, with the constraint on disk files
deferred. -/
def insertArchiveFile (f : TapeFileWritten) : Program Unit :=
  forStorageClass f (ignoring isPrimaryKeyError (insertArchiveFileRow true f.archiveFileRow))

def commit : Program Unit := exec fun c =>
  if (c.archiveFiles.map (·.diskFile)).Nodup then .ok (⟨⟩, c)
  else .error (.uniqueError "ARCHIVE_FILE")

def filesWrittenToTape : List Event → Program Unit :=
  bulkFilesWrittenToTape insertArchiveFile commit

end PostgresCatalogue

namespace OracleCatalogue

/-- A row of the array of inserts; unique constraint errors are put up with. -/
def insertArchiveFile (f : TapeFileWritten) : Program Unit :=
  forStorageClass f (ignoring isUniqueConstraintError (insertArchiveFileRow false f.archiveFileRow))

def filesWrittenToTape : List Event → Program Unit :=
  bulkFilesWrittenToTape insertArchiveFile (pure ⟨⟩)

end OracleCatalogue

def RdbmsCatalogue.insertArchiveFile (r : ArchiveFileRow) : Program Unit := fun c =>
  if r.storageClassName ∈ c.storageClasses then insertArchiveFileRow false r c
  else .error (.userError ("Storage class " ++ r.diskInstance ++ ":" ++ r.storageClassName ++
    " does not exist")) c

namespace SqliteCatalogue

def insertTapeFile (r : TapeFileRow) : Program Unit := insertTapeFiles [r]

def fileWrittenToTape (f : TapeFileWritten) : Program Unit := do
  ofResult (checkTapeFileWrittenFieldsAreSet "fileWrittenToTape" f)
  ignoring isPrimaryKeyError (RdbmsCatalogue.insertArchiveFile f.archiveFileRow)
  let c ← get
  ofResult (checkFound ("Failed to find archive file row: archiveFileId=" ++
    toString f.archiveFileId) f (c.archiveFile? f.archiveFileId))
  insertTapeFile f.tapeFileRow

def filesWrittenToTape : List Event → Program Unit
  | [] => pure ⟨⟩
  | first :: rest => do
    ofResult (checkTapeItemWrittenFieldsAreSet "filesWrittenToTape" first.toItem)
    let lastFSeq ← getTapeLastFSeq first.vid
    ofResult (checkEvents first.vid (fun _ => first.fSeq) (fun _ => pure ⟨⟩) (lastFSeq + 1)
      (first :: rest))
    updateTapeAfter first rest
    forEach fileWrittenToTape (fileEvents (first :: rest))

end SqliteCatalogue

end Cta.Catalogue
