import Cta.Repack.SubrequestCreation
import Mathlib.Data.Finset.Image

/-! Expansion of a repack request: the sub-requests of the files of a tape and the totals, which
are unsigned 64-bit counters. -/
namespace Cta.Repack
open Cta.ObjectStore (sub64)

inductive RepackType where
  | moveAndAddCopies
  | addCopiesOnly
  | moveOnly
  deriving DecidableEq, Repr

def RepackType.moves : RepackType → Bool
  | .moveAndAddCopies | .moveOnly => true
  | .addCopiesOnly => false

def RepackType.adds : RepackType → Bool
  | .moveAndAddCopies | .addCopiesOnly => true
  | .moveOnly => false

/-- Largest value of an fSeq, which stands for none. -/
def maxFSeq : Nat := 2^64 - 1

structure ArchiveFile (vid : String) where
  archiveFileID : Nat
  storageClass : String
  fileSize : Nat
  tapeFiles : List TapeFile
  onTape : ∃ tc ∈ tapeFiles, tc.vid = vid
  fSeq_lt : ∀ tc ∈ tapeFiles, tc.fSeq < maxFSeq
  copyNb_lt : ∀ tc ∈ tapeFiles, tc.copyNb < 2^8
  oneEach : (tapeFiles.map TapeFile.copyNb).Nodup

/-- The repack request, the numbers of copies of the storage classes, the copy numbers that have
an archive route, and which files are in the repack buffer with their right size. -/
structure ExpandContext where
  vid : String
  type : RepackType
  noRecall : Bool := false
  storageClasses : String → Option Nat
  archiveRoutes : String → Finset Nat
  inRepackBuffer : Nat → Nat → Bool
  nbCopies_lt : ∀ name nbCopies, storageClasses name = some nbCopies → nbCopies < 2^64
  copyNb_lt : ∀ name, ∀ copyNb ∈ archiveRoutes name, copyNb < 2^8

inductive ExpandRepackRequestException where
  | noStorageClass (archiveFileID : Nat)
  | noArchiveRoute (archiveFileID copyNb : Nat)
  | missingArchiveRoutes
  deriving DecidableEq, Repr

instance : Add TotalStatsFiles where
  add t d :=
    { totalFilesToArchive := t.totalFilesToArchive + d.totalFilesToArchive
      totalBytesToArchive := t.totalBytesToArchive + d.totalBytesToArchive
      totalFilesToRetrieve := t.totalFilesToRetrieve + d.totalFilesToRetrieve
      totalBytesToRetrieve := t.totalBytesToRetrieve + d.totalBytesToRetrieve
      userProvidedFiles := t.userProvidedFiles + d.userProvidedFiles }

def TotalStatsFiles.wrap (t : TotalStatsFiles) : TotalStatsFiles where
  totalFilesToArchive := t.totalFilesToArchive % 2^64
  totalBytesToArchive := t.totalBytesToArchive % 2^64
  totalFilesToRetrieve := t.totalFilesToRetrieve % 2^64
  totalBytesToRetrieve := t.totalBytesToRetrieve % 2^64
  userProvidedFiles := t.userProvidedFiles % 2^64

structure FilePlan where
  totals : TotalStatsFiles
  copyNbsToRearchive : Finset Nat := ∅
  fSeq : Nat := maxFSeq
  deriving DecidableEq

section
variable (vid : String) (routes : Finset Nat)

def moveCopies (archiveFileID fileSize : Nat) :
    List TapeFile → FilePlan → Except ExpandRepackRequestException FilePlan
  | [], p => .ok p
  | tc :: tcs, p =>
    if tc.vid = vid then
      if tc.copyNb ∉ routes then .error (.noArchiveRoute archiveFileID tc.copyNb)
      else moveCopies archiveFileID fileSize tcs
        { totals := (p.totals +
            { totalFilesToArchive := 1, totalBytesToArchive := fileSize }).wrap
          copyNbsToRearchive := insert tc.copyNb p.copyNbsToRearchive
          fSeq := tc.fSeq }
    else moveCopies archiveFileID fileSize tcs p

def addCopiesFSeq (type : RepackType) : List TapeFile → Nat → Nat
  | [], fSeq => fSeq
  | tc :: tcs, fSeq =>
    if tc.vid = vid ∧ type = .addCopiesOnly then
      addCopiesFSeq type tcs (if fSeq = maxFSeq then tc.fSeq else max tc.fSeq fSeq)
    else addCopiesFSeq type tcs fSeq

/-- Every route whose copy does not exist yet gives a new copy, however many are missing. -/
def addCopies (type : RepackType) (fileSize filesToArchive : Nat) (tapeFiles : List TapeFile)
    (p : FilePlan) : FilePlan where
  totals := (p.totals +
    { totalFilesToArchive := filesToArchive
      totalBytesToArchive := filesToArchive * fileSize % 2^64 }).wrap
  copyNbsToRearchive :=
    p.copyNbsToRearchive ∪ routes \ (tapeFiles.map TapeFile.copyNb).toFinset
  fSeq := addCopiesFSeq vid type tapeFiles p.fSeq

end

variable {ctx : ExpandContext}

def ExpandContext.finishFile (ctx : ExpandContext) (f : ArchiveFile ctx.vid) (p : FilePlan) :
    TotalStatsFiles × Option RetrieveSubrequest :=
  let createArchiveSubrequest := ctx.inRepackBuffer p.fSeq f.fileSize
  if ¬ createArchiveSubrequest ∧ p.fSeq = maxFSeq then
    ({ p.totals with
        totalBytesToRetrieve := sub64 p.totals.totalBytesToRetrieve f.fileSize
        totalFilesToRetrieve := sub64 p.totals.totalFilesToRetrieve 1 }, none)
  else
    ((p.totals + if createArchiveSubrequest then { userProvidedFiles := 1 }
        else { totalBytesToRetrieve := f.fileSize, totalFilesToRetrieve := 1 }).wrap,
      some
        { fSeq := p.fSeq
          fileSize := f.fileSize
          copyNbsToRearchive := p.copyNbsToRearchive
          hasUserProvidedFile := createArchiveSubrequest
          storageClass := f.storageClass
          tapeFiles := f.tapeFiles })

def ExpandContext.moveFile (ctx : ExpandContext) (totals : TotalStatsFiles)
    (f : ArchiveFile ctx.vid) : Except ExpandRepackRequestException FilePlan :=
  if ctx.type.moves then
    moveCopies ctx.vid (ctx.archiveRoutes f.storageClass) f.archiveFileID f.fileSize f.tapeFiles
      { totals }
  else .ok { totals }

def ExpandContext.addToFile (ctx : ExpandContext) (nbCopies : Nat) (f : ArchiveFile ctx.vid)
    (p : FilePlan) :
    Except ExpandRepackRequestException (TotalStatsFiles × Option RetrieveSubrequest) :=
  if ctx.type.adds then
    let filesToArchive := sub64 nbCopies f.tapeFiles.length
    if 0 < filesToArchive then
      let p := addCopies ctx.vid (ctx.archiveRoutes f.storageClass) ctx.type f.fileSize
        filesToArchive f.tapeFiles p
      if p.copyNbsToRearchive.card < filesToArchive then .error .missingArchiveRoutes
      else .ok (ctx.finishFile f p)
    else if ctx.type = .addCopiesOnly then .ok (p.totals, none)
    else .ok (ctx.finishFile f p)
  else .ok (ctx.finishFile f p)

def ExpandContext.expandFile (ctx : ExpandContext) (totals : TotalStatsFiles)
    (f : ArchiveFile ctx.vid) :
    Except ExpandRepackRequestException (TotalStatsFiles × Option RetrieveSubrequest) :=
  match ctx.storageClasses f.storageClass with
  | none => .error (.noStorageClass f.archiveFileID)
  | some nbCopies => (ctx.moveFile totals f).bind (ctx.addToFile nbCopies f)

def ExpandContext.expandFiles (ctx : ExpandContext) :
    TotalStatsFiles → List (ArchiveFile ctx.vid) →
      Except ExpandRepackRequestException (TotalStatsFiles × List RetrieveSubrequest)
  | totals, [] => .ok (totals, [])
  | totals, f :: fs => do
    let (totals, retrieveSubrequest) ← ctx.expandFile totals f
    let (totals, retrieveSubrequests) ← ctx.expandFiles totals fs
    .ok (totals, retrieveSubrequest.toList ++ retrieveSubrequests)

def ExpandContext.toExpand (ctx : ExpandContext) (inDirectory : ArchiveFile ctx.vid → Bool)
    (archiveFiles : List (ArchiveFile ctx.vid)) : List (ArchiveFile ctx.vid) :=
  if ctx.noRecall then archiveFiles.filter inDirectory else archiveFiles

def ExpandContext.expandRepackRequest (ctx : ExpandContext)
    (inDirectory : ArchiveFile ctx.vid → Bool) (totals : TotalStatsFiles)
    (archiveFiles : List (ArchiveFile ctx.vid)) :
    Except ExpandRepackRequestException (TotalStatsFiles × List RetrieveSubrequest) :=
  ctx.expandFiles totals (ctx.toExpand inDirectory archiveFiles)

end Cta.Repack
