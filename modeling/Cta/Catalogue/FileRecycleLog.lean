import Cta.Catalogue.BackendAgreement

/-! Taking tape files off the catalogue into the recycle log, and restoring them. -/
namespace Cta.Catalogue
open Cta.Lib.Transactions

structure ArchiveFile where
  archiveFileID : Nat
  diskInstance : String
  diskFilePath : String
  tapeFiles : List TapeFileRow
  deriving DecidableEq, Repr

structure DeleteArchiveRequest where
  archiveFileID : Nat
  requester : String
  diskInstance : String
  diskFilePath : String
  archiveFile : Option ArchiveFile
  deriving DecidableEq, Repr

namespace Tables

def tapeFilesOf (c : Tables) (archiveFileId : Nat) : List TapeFileRow :=
  c.tapeFiles.filter (·.archiveFileId == archiveFileId)

def getArchiveFileById (c : Tables) (id : Nat) : Option ArchiveFile :=
  match c.archiveFile? id, c.tapeFilesOf id with
  | some a, t :: ts =>
    some { archiveFileID := id, diskInstance := a.diskInstance, diskFilePath := ""
           tapeFiles := t :: ts }
  | _, _ => none

/-- One entry of the recycle log for each tape file of a file that was read before. -/
def copyToFileRecycleLog (c : Tables) (file : ArchiveFile) (diskFilePath reasonLog : String) :
    Tables :=
  (file.tapeFiles.map fun t => { t with archiveFileId := file.archiveFileID }).foldl
    (insertFileInFileRecycleLog (some diskFilePath) reasonLog) c

/-- `DELETE FROM TAPE_FILE` and `DELETE FROM ARCHIVE_FILE WHERE ARCHIVE_FILE_ID = …`. -/
def deleteArchiveFile (c : Tables) (archiveFileId : Nat) : Tables :=
  { c with
    tapeFiles := c.tapeFiles.filter (·.archiveFileId != archiveFileId)
    archiveFiles := c.archiveFiles.filter (·.archiveFileId != archiveFileId) }

def deleteTapeFileCopyFromRecycleBin (c : Tables) (r : FileRecycleLogRow) : Tables :=
  { c with fileRecycleLog := c.fileRecycleLog.filter fun s =>
      !(s.archiveFile.archiveFileId == r.archiveFile.archiveFileId && s.vid == r.vid &&
        s.fSeq == r.fSeq && s.copyNb == r.copyNb &&
        s.archiveFile.diskInstance == r.archiveFile.diskInstance) }

end Tables

def inTransaction (fails : Bool) (x : Program Unit) : Program Unit :=
  transaction (do
    x
    check (!fails) (.exception "SQL statement failed"))

theorem inTransaction_error {fails : Bool} {x : Program Unit} {c d : Tables} {e : Error}
    (h : inTransaction fails x c = .error e d) : d = c := transaction_error h

theorem inTransaction_ok {fails : Bool} {x : Program Unit} {c d : Tables}
    (h : inTransaction fails x c = .ok ⟨⟩ d) : x c = .ok ⟨⟩ d := by
  obtain ⟨⟨⟩, u, hx, hcheck⟩ := bind_eq_ok.mp (transaction_eq_ok.mp h)
  obtain ⟨-, rfl⟩ := check_eq_ok.mp hcheck
  exact hx

def checkDeleteRequestConsistency (request : DeleteArchiveRequest) (file : ArchiveFile) :
    Except Error Unit :=
  let failure := "Failed to move archive file with ID " ++ toString request.archiveFileID
  let thrown := fun reason => Except.error (.userError (failure ++
    " to the file-recycle-log. errorMessage=" ++ failure ++ " to the recycle-bin because " ++
    reason))
  if request.diskInstance ≠ file.diskInstance then
    thrown ("the disk instance of the request does not match that of the archived file: " ++
      "archiveFileId=" ++ toString file.archiveFileID ++ " requestDiskInstance=" ++
      request.diskInstance ++ " archiveFileDiskInstance=" ++ file.diskInstance)
  else if request.diskFilePath = "" then
    thrown "the disk file path has not been provided."
  else .ok ⟨⟩

def getDeletionReasonLog (deleterName diskInstanceName : String) : String :=
  "File deleted by " ++ deleterName ++ " from the " ++ diskInstanceName ++ " instance"

def copyArchiveFileToFileRecyleLogAndDelete (request : DeleteArchiveRequest) (file : ArchiveFile) :
    Program Unit :=
  modify fun c =>
    (c.copyToFileRecycleLog file request.diskFilePath
      (getDeletionReasonLog request.requester request.diskInstance)).deleteArchiveFile
        request.archiveFileID

def moveArchiveFileToRecycleLog (fails : Bool) (request : DeleteArchiveRequest) : Program Unit :=
  match request.archiveFile with
  | none => pure ⟨⟩
  | some file => do
    ofResult (checkDeleteRequestConsistency request file)
    inTransaction fails (copyArchiveFileToFileRecyleLogAndDelete request file)

def copyTapeFileToFileRecyleLogAndDelete (file : ArchiveFile) (reason : String) : Program Unit :=
  modify fun c => (c.copyToFileRecycleLog file file.diskFilePath
    ("(Deleted using cta-admin tf rm) " ++ reason)).deleteTapeFiles file.tapeFiles

def deleteTapeFileCopy (fails : Bool) (file : ArchiveFile) (reason : String) : Program Unit :=
  inTransaction fails (copyTapeFileToFileRecyleLogAndDelete file reason)

inductive RestoreFailure
  | beforeInsertion | afterInsertion
  deriving DecidableEq, Repr

def restoreArchiveFileInRecycleLog (r : FileRecycleLogRow) (newFid : String) : Program Unit :=
  RdbmsCatalogue.insertArchiveFile { r.archiveFile with diskFileId := newFid }

def FileRecycleLogRow.tapeFileRow (r : FileRecycleLogRow) : TapeFileRow :=
  { vid := r.vid
    fSeq := r.fSeq
    blockId := r.blockId
    fileSize := r.archiveFile.size
    copyNb := r.copyNb
    archiveFileId := r.archiveFile.archiveFileId }

/-- The archive file to restore a copy of: it is restored as well if it is not found. -/
def restoreArchiveFileIfNeeded (r : FileRecycleLogRow) (newFid : String) : Program Unit := fun c =>
  match c.getArchiveFileById r.archiveFile.archiveFileId with
  | none => restoreArchiveFileInRecycleLog r newFid c
  | some file =>
    if file.tapeFiles.any (·.copyNb == r.copyNb) then
      .error (.userError ("Cannot restore file copy with archiveFileId " ++
        toString r.archiveFile.archiveFileId ++ " and copy_nb " ++ toString r.copyNb ++
        " because a tapefile with same archiveFileId and copy_nb already exists")) c
    else .ok ⟨⟩ c

/-- `insertTapeFile` commits what comes before it; the entry of the recycle log is deleted after
that commit. -/
def restoreFileCopy (fails : Option RestoreFailure) (r : FileRecycleLogRow) (newFid : String) :
    Program Unit := do
  inTransaction (fails == some .beforeInsertion) (do
    restoreArchiveFileIfNeeded r newFid
    insertTapeFiles [r.tapeFileRow])
  inTransaction (fails == some .afterInsertion) (modify (·.deleteTapeFileCopyFromRecycleBin r))

def theEntry (entries : List FileRecycleLogRow) : Except Error FileRecycleLogRow :=
  match entries with
  | [] => .error (.userError "No file in the recycle bin matches the parameters passed")
  | [r] => .ok r
  | _ => .error (.userError "More than one recycle bin file matches the parameters passed")

def restoreEntryInRecycleLog (fails : Option RestoreFailure)
    (searchCriteria : FileRecycleLogRow → Bool) (newFid : String) : Program Unit := do
  let c ← get
  let r ← ofResult (theEntry (c.fileRecycleLog.filter searchCriteria))
  restoreFileCopy fails r newFid

end Cta.Catalogue
