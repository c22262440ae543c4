import Cta.Lib.Transactions

/-! The tables of the catalogue that record written files, and the statements that change them.
A table is a list of rows; the order of the rows carries no meaning. -/
namespace Cta.Catalogue
open Cta.Lib.Transactions

inductive Error
  | exception (message : String)
  | userError (message : String)
  | tapeFseqMismatch (message : String)
  | fileSizeMismatch (message : String)
  | checksumBlobSizeMismatch (message : String)
  | checksumTypeMismatch (message : String)
  | checksumValueMismatch (message : String)
  | primaryKeyError (table : String)
  | uniqueError (table : String)
  | constraintError (table : String)
  | lostDatabaseConnection (message : String)
  deriving DecidableEq, Repr

inductive ChecksumType
  | NONE | ADLER32 | CRC32 | CRC32C | MD5 | SHA1
  deriving DecidableEq, Repr

def ChecksumType.name : ChecksumType → String
  | NONE => "NONE"
  | ADLER32 => "ADLER32"
  | CRC32 => "CRC32"
  | CRC32C => "CRC32C"
  | MD5 => "MD5"
  | SHA1 => "SHA1"

abbrev ChecksumBlob := List (ChecksumType × List UInt8)

structure ArchiveFileRow where
  archiveFileId : Nat
  diskInstance : String
  diskFileId : String
  diskFileOwnerUid : Nat
  diskFileGid : Nat
  size : Nat
  checksumBlob : ChecksumBlob
  storageClassName : String
  deriving DecidableEq, Repr

structure TapeFileRow where
  vid : String
  fSeq : Nat
  blockId : Nat
  fileSize : Nat
  copyNb : Nat
  archiveFileId : Nat
  deriving DecidableEq, Repr

structure TapeRow where
  vid : String
  lastFSeq : Nat
  dataInBytes : Nat
  masterDataInBytes : Nat
  nbMasterFiles : Nat
  lastWriteDrive : Option String
  deriving DecidableEq, Repr

/-- A tape file that was taken off the tape files, with what its archive file was then. -/
structure FileRecycleLogRow where
  vid : String
  fSeq : Nat
  blockId : Nat
  copyNb : Nat
  archiveFile : ArchiveFileRow
  diskFileIdWhenDeleted : String
  diskFilePath : Option String
  reasonLog : String
  deriving DecidableEq, Repr

structure Tables where
  storageClasses : List String
  diskInstances : List String
  tapes : List TapeRow
  archiveFiles : List ArchiveFileRow
  tapeFiles : List TapeFileRow
  fileRecycleLog : List FileRecycleLogRow
  deriving DecidableEq, Repr

def ArchiveFileRow.diskFile (r : ArchiveFileRow) : String × String := (r.diskInstance, r.diskFileId)

def TapeFileRow.place (r : TapeFileRow) : String × Nat := (r.vid, r.fSeq)

def TapeFileRow.block (r : TapeFileRow) : String × Nat := (r.vid, r.blockId)

def FileRecycleLogRow.place (r : FileRecycleLogRow) : String × Nat := (r.vid, r.fSeq)

abbrev Program (α : Type) := EStateM Error Tables α

namespace Tables

def tape? (c : Tables) (vid : String) : Option TapeRow := c.tapes.find? (·.vid == vid)

def archiveFile? (c : Tables) (archiveFileId : Nat) : Option ArchiveFileRow :=
  c.archiveFiles.find? (·.archiveFileId == archiveFileId)

/-- The constraints of the schema on the recorded files. -/
structure Consistent (c : Tables) : Prop where
  archiveFileIds : (c.archiveFiles.map (·.archiveFileId)).Nodup
  diskFiles : (c.archiveFiles.map (·.diskFile)).Nodup
  places : (c.tapeFiles.map (·.place)).Nodup
  blocks : (c.tapeFiles.map (·.block)).Nodup
  archived : ∀ t ∈ c.tapeFiles, ∃ a ∈ c.archiveFiles, a.archiveFileId = t.archiveFileId

theorem archiveFile?_some {c : Tables} {i : Nat} {r : ArchiveFileRow}
    (h : c.archiveFile? i = some r) : r ∈ c.archiveFiles ∧ r.archiveFileId = i :=
  ⟨List.mem_of_find?_eq_some h, by simpa using List.find?_some h⟩

theorem archiveFile?_none {c : Tables} {i : Nat} :
    c.archiveFile? i = none ↔ ∀ r ∈ c.archiveFiles, r.archiveFileId ≠ i := by
  simp [archiveFile?]

theorem tape?_some {c : Tables} {vid : String} {r : TapeRow} (h : c.tape? vid = some r) :
    r ∈ c.tapes ∧ r.vid = vid :=
  ⟨List.mem_of_find?_eq_some h, by simpa using List.find?_some h⟩

end Tables

/-- `SELECT LAST_FSEQ FROM TAPE`, with what is thrown without such a row. -/
def selectLastFSeq (vid missing : String) : Program Nat := exec fun c =>
  match c.tape? vid with
  | some tape => .ok (tape.lastFSeq, c)
  | none => .error (.exception missing)

def selectTapeForUpdateAndGetLastFSeq (vid : String) : Program Nat :=
  selectLastFSeq vid ("The tape with VID " ++ vid ++ " does not exist")

def getTapeLastFSeq (vid : String) : Program Nat :=
  selectLastFSeq vid ("No such tape with vid=" ++ vid)

theorem selectLastFSeq_eq_ok {vid missing : String} {c d : Tables} {n : Nat} :
    selectLastFSeq vid missing c = .ok n d ↔ ∃ tape, c.tape? vid = some tape ∧
      n = tape.lastFSeq ∧ d = c := by
  unfold selectLastFSeq
  rw [exec_eq_ok]
  cases h : c.tape? vid with
  | none => simp
  | some tape => simp [eq_comm]

def TapeRow.written (t : TapeRow) (lastFSeq bytes files : Nat) (tapeDrive : String) : TapeRow :=
  { t with
    lastFSeq := lastFSeq
    dataInBytes := t.dataInBytes + bytes
    masterDataInBytes := t.masterDataInBytes + bytes
    nbMasterFiles := t.nbMasterFiles + files
    lastWriteDrive := some tapeDrive }

def Tables.updateTape (c : Tables) (vid : String) (lastFSeq bytes files : Nat)
    (tapeDrive : String) : Tables :=
  { c with tapes := c.tapes.map fun t =>
      if t.vid = vid then t.written lastFSeq bytes files tapeDrive else t }

def updateTape (vid : String) (lastFSeq bytes files : Nat) (tapeDrive : String) : Program Unit :=
  modify (·.updateTape vid lastFSeq bytes files tapeDrive)

namespace Tables
variable {c : Tables} {vid tapeDrive : String} {lastFSeq bytes files : Nat}

@[simp] theorem updateTape_archiveFiles :
    (c.updateTape vid lastFSeq bytes files tapeDrive).archiveFiles = c.archiveFiles := rfl

@[simp] theorem updateTape_tapeFiles :
    (c.updateTape vid lastFSeq bytes files tapeDrive).tapeFiles = c.tapeFiles := rfl

@[simp] theorem updateTape_fileRecycleLog :
    (c.updateTape vid lastFSeq bytes files tapeDrive).fileRecycleLog = c.fileRecycleLog := rfl

@[simp] theorem updateTape_storageClasses :
    (c.updateTape vid lastFSeq bytes files tapeDrive).storageClasses = c.storageClasses := rfl

@[simp] theorem updateTape_diskInstances :
    (c.updateTape vid lastFSeq bytes files tapeDrive).diskInstances = c.diskInstances := rfl

@[simp] theorem updateTape_archiveFile? {i : Nat} :
    (c.updateTape vid lastFSeq bytes files tapeDrive).archiveFile? i = c.archiveFile? i := rfl

theorem tape?_updateTape {tape : TapeRow} (h : c.tape? vid = some tape) :
    (c.updateTape vid lastFSeq bytes files tapeDrive).tape? vid =
      some (tape.written lastFSeq bytes files tapeDrive) := by
  unfold tape? at h ⊢
  rw [updateTape, List.find?_map]
  have hsame : ((fun t : TapeRow => t.vid == vid) ∘ fun t : TapeRow =>
      if t.vid = vid then t.written lastFSeq bytes files tapeDrive else t) =
      fun t : TapeRow => t.vid == vid := by
    funext t
    by_cases ht : t.vid = vid <;> simp [ht, TapeRow.written]
  rw [hsame, h]
  simp [(tape?_some h).2]

theorem tape?_updateTape_of_ne {other : String} (h : other ≠ vid) :
    (c.updateTape vid lastFSeq bytes files tapeDrive).tape? other = c.tape? other := by
  unfold tape?
  rw [updateTape, List.find?_map]
  have hsame : ((fun t : TapeRow => t.vid == other) ∘ fun t : TapeRow =>
      if t.vid = vid then t.written lastFSeq bytes files tapeDrive else t) =
      fun t : TapeRow => t.vid == other := by
    funext t
    by_cases ht : t.vid = vid <;> simp [ht, TapeRow.written]
  rw [hsame]
  cases hfind : c.tapes.find? (·.vid == other) with
  | none => rfl
  | some t =>
    have ht : t.vid = other := by simpa using List.find?_some hfind
    simp [ht, h]

end Tables

def Tables.insertArchiveFile (c : Tables) (r : ArchiveFileRow) : Tables :=
  { c with archiveFiles := c.archiveFiles ++ [r] }

/-- `INSERT INTO ARCHIVE_FILE`. The constraint on disk files may be deferred to the commit. -/
def insertArchiveFileRow (deferred : Bool) (r : ArchiveFileRow) : Program Unit := exec fun c =>
  if (c.archiveFile? r.archiveFileId).isSome then
    .error (.primaryKeyError "ARCHIVE_FILE")
  else if deferred = false ∧ r.diskFile ∈ c.archiveFiles.map (·.diskFile) then
    .error (.uniqueError "ARCHIVE_FILE")
  else if r.diskInstance ∉ c.diskInstances then
    .error (.constraintError "ARCHIVE_FILE")
  else
    .ok (⟨⟩, c.insertArchiveFile r)

theorem insertArchiveFileRow_eq_ok {deferred : Bool} {r : ArchiveFileRow} {c d : Tables} :
    insertArchiveFileRow deferred r c = .ok ⟨⟩ d ↔
      (c.archiveFile? r.archiveFileId = none ∧
        (deferred = false → r.diskFile ∉ c.archiveFiles.map (·.diskFile)) ∧
        r.diskInstance ∈ c.diskInstances) ∧ d = c.insertArchiveFile r := by
  unfold insertArchiveFileRow
  rw [exec_eq_ok]
  by_cases hid : (c.archiveFile? r.archiveFileId).isSome
  · have hne : c.archiveFile? r.archiveFileId ≠ none := by
      intro hnone
      rw [hnone] at hid
      cases hid
    simp [hid, hne]
  · have hnone : c.archiveFile? r.archiveFileId = none := by simpa using hid
    rw [if_neg hid]
    by_cases hdisk : deferred = false ∧ r.diskFile ∈ c.archiveFiles.map (·.diskFile)
    · rw [if_pos hdisk]
      constructor
      · rintro ⟨⟩
      · rintro ⟨⟨-, hfree, -⟩, -⟩
        exact absurd hdisk.2 (hfree hdisk.1)
    · rw [if_neg hdisk]
      have hfree := not_and.mp hdisk
      by_cases hinst : r.diskInstance ∈ c.diskInstances
      · simp only [hinst, not_true_eq_false, if_false, Except.ok.injEq, Prod.mk.injEq, true_and,
          and_true, hnone]
        exact ⟨fun h => ⟨hfree, h.symm⟩, fun h => h.2.symm⟩
      · simp [hinst]

theorem insertArchiveFileRow_of_some {deferred : Bool} {r a : ArchiveFileRow} {c : Tables}
    (h : c.archiveFile? r.archiveFileId = some a) :
    insertArchiveFileRow deferred r c = .error (.primaryKeyError "ARCHIVE_FILE") c := by
  simp [insertArchiveFileRow, exec, h]

/-- Whatever else is wrong with a row, a key that is taken is reported first. -/
theorem insertArchiveFileRow_error {deferred : Bool} {r : ArchiveFileRow} {c d : Tables}
    {e : Error} (h : insertArchiveFileRow deferred r c = .error e d) : d = c ∧
      (c.archiveFile? r.archiveFileId = none →
        e = .uniqueError "ARCHIVE_FILE" ∨ e = .constraintError "ARCHIVE_FILE") := by
  unfold insertArchiveFileRow exec at h
  by_cases hid : (c.archiveFile? r.archiveFileId).isSome
  · simp only [hid, if_true] at h
    cases h
    refine ⟨rfl, fun hnone => ?_⟩
    rw [hnone] at hid
    cases hid
  · simp only [hid, Bool.false_eq_true, if_false] at h
    by_cases hdisk : deferred = false ∧ r.diskFile ∈ c.archiveFiles.map (·.diskFile)
    · simp only [hdisk, and_self, if_true] at h
      cases h
      exact ⟨rfl, fun _ => .inl rfl⟩
    · simp only [hdisk, if_false] at h
      by_cases hinst : r.diskInstance ∉ c.diskInstances
      · simp only [hinst, not_false_eq_true, if_true] at h
        cases h
        exact ⟨rfl, fun _ => .inr rfl⟩
      · simp only [hinst, if_false] at h
        cases h

def Tables.insertTapeFile (c : Tables) (r : TapeFileRow) : Tables :=
  { c with tapeFiles := c.tapeFiles ++ [r] }

def insertTapeFileRow (r : TapeFileRow) : Program Unit := exec fun c =>
  if (c.tapeFiles.map (·.place)).contains r.place then
    .error (.primaryKeyError "TAPE_FILE")
  else if (c.tapeFiles.map (·.block)).contains r.block then
    .error (.uniqueError "TAPE_FILE")
  else if c.tape? r.vid = none ∨ c.archiveFile? r.archiveFileId = none ∨ r.copyNb = 0 then
    .error (.constraintError "TAPE_FILE")
  else
    .ok (⟨⟩, c.insertTapeFile r)

theorem insertTapeFileRow_eq_ok {r : TapeFileRow} {c d : Tables} :
    insertTapeFileRow r c = .ok ⟨⟩ d ↔
      (r.place ∉ c.tapeFiles.map (·.place) ∧ r.block ∉ c.tapeFiles.map (·.block) ∧
        c.tape? r.vid ≠ none ∧ c.archiveFile? r.archiveFileId ≠ none ∧ r.copyNb ≠ 0) ∧
      d = c.insertTapeFile r := by
  unfold insertTapeFileRow
  rw [exec_eq_ok]
  simp only [List.contains_iff_mem]
  by_cases hplace : r.place ∈ c.tapeFiles.map (·.place)
  · simp [hplace]
  by_cases hblock : r.block ∈ c.tapeFiles.map (·.block)
  · simp [hplace, hblock]
  rw [if_neg hplace, if_neg hblock]
  by_cases hkeys : c.tape? r.vid = none ∨ c.archiveFile? r.archiveFileId = none ∨ r.copyNb = 0
  · rw [if_pos hkeys]
    constructor
    · rintro ⟨⟩
    · rintro ⟨⟨-, -, htape, hfile, hcopy⟩, -⟩
      exact absurd hkeys (by simp [htape, hfile, hcopy])
  · rw [if_neg hkeys]
    have hall : c.tape? r.vid ≠ none ∧ c.archiveFile? r.archiveFileId ≠ none ∧ r.copyNb ≠ 0 := by
      simpa only [not_or] using hkeys
    constructor
    · rintro ⟨⟩
      exact ⟨⟨hplace, hblock, hall⟩, rfl⟩
    · rintro ⟨-, rfl⟩
      rfl

/-- `DELETE FROM TAPE_FILE WHERE VID = … AND FSEQ = …`. -/
def Tables.deleteTapeFile (c : Tables) (place : String × Nat) : Tables :=
  { c with tapeFiles := c.tapeFiles.filter (·.place != place) }

def getRepackReasonLog : String := "REPACK"

def TapeFileRow.recycled (t : TapeFileRow) (diskFilePath : Option String) (reasonLog : String)
    (a : ArchiveFileRow) : FileRecycleLogRow :=
  { vid := t.vid
    fSeq := t.fSeq
    blockId := t.blockId
    copyNb := t.copyNb
    archiveFile := a
    diskFileIdWhenDeleted := a.diskFileId
    diskFilePath := diskFilePath
    reasonLog := reasonLog }

/-- `INSERT INTO FILE_RECYCLE_LOG … SELECT … FROM ARCHIVE_FILE`: without the archive file there is
no row to insert. -/
def Tables.insertFileInFileRecycleLog (diskFilePath : Option String) (reasonLog : String)
    (c : Tables) (t : TapeFileRow) : Tables :=
  { c with fileRecycleLog := c.fileRecycleLog ++
      ((c.archiveFile? t.archiveFileId).map (t.recycled diskFilePath reasonLog)).toList }

/-- The other tape files of the archive file with this copy number. -/
def Tables.oldCopies (c : Tables) (r : TapeFileRow) : List TapeFileRow :=
  c.tapeFiles.filter fun t =>
    t.archiveFileId == r.archiveFileId && t.copyNb == r.copyNb && t.place != r.place

theorem Tables.mem_oldCopies {c : Tables} {r t : TapeFileRow} :
    t ∈ c.oldCopies r ↔ t ∈ c.tapeFiles ∧ t.archiveFileId = r.archiveFileId ∧
      t.copyNb = r.copyNb ∧ t.place ≠ r.place := by
  simp [oldCopies, and_assoc]

end Cta.Catalogue
