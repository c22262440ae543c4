import Cta.ObjectStore.Base
import Mathlib.Data.Finset.Card
import Mathlib.Logic.Function.Basic

/-! The repack request: its table of sub-requests, its counters and the four reports that
update them. -/
namespace Cta.Repack
open Cta.ObjectStore (Address)

inductive RepackStatus where
  | pending
  | toExpand
  | starting
  | running
  | complete
  | failed
  deriving DecidableEq, Repr

/-- Entry of the table of sub-requests, which is read and written as a map from fSeq. -/
structure SubRequestPointer where
  address : Address
  retrieveAccounted : Bool := false
  archiveCopyNbsAccounted : Finset Nat := ∅
  subrequestDeleted : Bool := false
  deriving DecidableEq

structure RepackDestinationInfo where
  vid : String
  files : Nat := 0
  bytes : Nat := 0
  deriving DecidableEq, Repr

structure RepackRequest where
  status : RepackStatus := .pending
  isExpandStarted : Bool := false
  isExpandFinished : Bool := false
  totalFilesToRetrieve : Nat := 0
  totalBytesToRetrieve : Nat := 0
  totalFilesToArchive : Nat := 0
  totalBytesToArchive : Nat := 0
  userProvidedFiles : Nat := 0
  retrievedFiles : Nat := 0
  retrievedBytes : Nat := 0
  archivedFiles : Nat := 0
  archivedBytes : Nat := 0
  failedToRetrieveFiles : Nat := 0
  failedToRetrieveBytes : Nat := 0
  failedToCreateArchiveReq : Nat := 0
  failedToArchiveFiles : Nat := 0
  failedToArchiveBytes : Nat := 0
  destinationInfos : List RepackDestinationInfo := []
  subrequests : Nat → Option SubRequestPointer := fun _ => none

/-- All the sub-requests that are known of are done, as far as the counters tell. -/
def RepackRequest.ReachedEnd (r : RepackRequest) : Prop :=
  r.totalFilesToRetrieve ≤ r.retrievedFiles + r.failedToRetrieveFiles ∧
    r.totalFilesToArchive ≤ r.archivedFiles + r.failedToArchiveFiles + r.failedToCreateArchiveReq

instance (r : RepackRequest) : Decidable r.ReachedEnd := inferInstanceAs (Decidable (_ ∧ _))

def RepackRequest.newStatus (r : RepackRequest) : RepackStatus :=
  if r.isExpandStarted then
    if r.isExpandFinished ∧ r.ReachedEnd then
      if r.failedToRetrieveFiles ≠ 0 ∨ r.failedToArchiveFiles ≠ 0 then .failed else .complete
    else if r.retrievedFiles ≠ 0 ∨ r.failedToRetrieveFiles ≠ 0 ∨ r.archivedFiles ≠ 0 ∨
        r.failedToArchiveFiles ≠ 0 then .running
    else .starting
  else r.status

def RepackRequest.setStatus (r : RepackRequest) : RepackRequest := { r with status := r.newStatus }

def RepackRequest.setPointer (r : RepackRequest) (fSeq : Nat) (p : SubRequestPointer) :
    RepackRequest :=
  { r with subrequests := Function.update r.subrequests fSeq (some p) }

/-- Add a file to the information about its destination tape. -/
def updateRepackDestinationInfos (fileSize : Nat) (destinationVid : String) :
    List RepackDestinationInfo → List RepackDestinationInfo
  | [] => [⟨destinationVid, 1, fileSize⟩]
  | i :: is =>
    if i.vid = destinationVid then
      { i with files := i.files + 1, bytes := i.bytes + fileSize } :: is
    else i :: updateRepackDestinationInfos fileSize destinationVid is

structure SubrequestStatistics where
  fSeq : Nat
  files : Nat := 1
  bytes : Nat
  copyNb : Nat := 0
  subrequestDeleted : Bool := false
  hasUserProvidedFile : Bool := false
  destinationVid : String := ""
  deriving DecidableEq, Repr

inductive ReportError where
  | unknownFSeq
  | noSuchObject
  deriving DecidableEq, Repr

inductive ReportKind where
  | retrieveSuccesses
  | retrieveFailures
  | archiveSuccesses
  | archiveFailures
  deriving DecidableEq, Repr

/-- What a report does to a request and to the entry of the sub-request. -/
abbrev Account := RepackRequest → SubRequestPointer → SubrequestStatistics →
  Except ReportError (Option (RepackRequest × SubRequestPointer))

def accountRetrieveSuccess : Account := fun r p s =>
  if p.retrieveAccounted then .ok none
  else .ok (some (
    if s.hasUserProvidedFile then r
    else { r with
      retrievedBytes := r.retrievedBytes + s.bytes
      retrievedFiles := r.retrievedFiles + s.files },
    { p with retrieveAccounted := true }))

def accountRetrieveFailure : Account := fun r p s =>
  if p.retrieveAccounted then .ok none
  else .ok (some ({ r with
      failedToRetrieveBytes := r.failedToRetrieveBytes + s.bytes
      failedToRetrieveFiles := r.failedToRetrieveFiles + s.files },
    { p with retrieveAccounted := true }))

/-- The size of the file comes from the archive request, which has to be there. -/
def accountArchiveSuccess (archiveFileSize : Address → Option Nat) : Account := fun r p s =>
  if s.copyNb ∈ p.archiveCopyNbsAccounted then .ok none
  else match archiveFileSize p.address with
    | none => .error .noSuchObject
    | some fileSize => .ok (some ({ r with
        destinationInfos :=
          updateRepackDestinationInfos fileSize s.destinationVid r.destinationInfos
        archivedBytes := r.archivedBytes + s.bytes
        archivedFiles := r.archivedFiles + s.files },
      { p with
        archiveCopyNbsAccounted := insert s.copyNb p.archiveCopyNbsAccounted
        subrequestDeleted := s.subrequestDeleted }))

def accountArchiveFailure : Account := fun r p s =>
  if s.copyNb ∈ p.archiveCopyNbsAccounted then .ok none
  else .ok (some ({ r with
      failedToArchiveBytes := r.failedToArchiveBytes + s.bytes
      failedToArchiveFiles := r.failedToArchiveFiles + s.files },
    { p with
      archiveCopyNbsAccounted := insert s.copyNb p.archiveCopyNbsAccounted
      subrequestDeleted := true }))

/-- The loop over the statistics, with whether there was an update. -/
def accountAll (account : Account) :
    RepackRequest → List SubrequestStatistics → Except ReportError (RepackRequest × Bool)
  | r, [] => .ok (r, false)
  | r, s :: ss =>
    match r.subrequests s.fSeq with
    | none => .error .unknownFSeq
    | some p =>
      match account r p s with
      | .error e => .error e
      | .ok none => accountAll account r ss
      | .ok (some (r', p')) =>
        (accountAll account (r'.setPointer s.fSeq p') ss).map fun q => (q.1, true)

def reportWith (account : Account) (r : RepackRequest) (ss : List SubrequestStatistics) :
    Except ReportError RepackRequest :=
  (accountAll account r ss).map fun q => if q.2 then q.1.setStatus else q.1

def reportRetriveSuccesses := reportWith accountRetrieveSuccess

def reportRetriveFailures := reportWith accountRetrieveFailure

def reportArchiveSuccesses (archiveFileSize : Address → Option Nat) :=
  reportWith (accountArchiveSuccess archiveFileSize)

def reportArchiveFailures := reportWith accountArchiveFailure

def report (archiveFileSize : Address → Option Nat) :
    ReportKind → RepackRequest → List SubrequestStatistics → Except ReportError RepackRequest
  | .retrieveSuccesses => reportRetriveSuccesses
  | .retrieveFailures => reportRetriveFailures
  | .archiveSuccesses => reportArchiveSuccesses archiveFileSize
  | .archiveFailures => reportArchiveFailures

def reportSubRequestsForDeletion : RepackRequest → List Nat → Except ReportError RepackRequest
  | r, [] => .ok r
  | r, f :: fs =>
    match r.subrequests f with
    | none => .error .unknownFSeq
    | some p =>
      reportSubRequestsForDeletion (r.setPointer f { p with subrequestDeleted := true }) fs

def reportArchiveCreationFailures (r : RepackRequest) (nbFailedToCreateArchiveRequests : Nat) :
    RepackRequest :=
  { r with
    failedToCreateArchiveReq := r.failedToCreateArchiveReq + nbFailedToCreateArchiveRequests }

structure Subrequest where
  fSeq : Nat
  fileSize : Nat
  copyNbsToRearchive : Finset Nat
  hasUserProvidedFile : Bool := false
  deriving DecidableEq

def reportRetrieveCreationFailures (r : RepackRequest) (notCreated : List Subrequest) :
    RepackRequest :=
  (reportArchiveCreationFailures
    { r with
      failedToRetrieveBytes := r.failedToRetrieveBytes + (notCreated.map Subrequest.fileSize).sum
      failedToRetrieveFiles := r.failedToRetrieveFiles + notCreated.length }
    (notCreated.map (·.copyNbsToRearchive.card)).sum).setStatus

@[ext] structure TotalStatsFiles where
  totalFilesToArchive : Nat := 0
  totalBytesToArchive : Nat := 0
  totalFilesToRetrieve : Nat := 0
  totalBytesToRetrieve : Nat := 0
  userProvidedFiles : Nat := 0
  deriving DecidableEq, Repr

def RepackRequest.getTotalStatsFile (r : RepackRequest) : TotalStatsFiles where
  totalFilesToArchive := r.totalFilesToArchive
  totalBytesToArchive := r.totalBytesToArchive
  totalFilesToRetrieve := r.totalFilesToRetrieve
  totalBytesToRetrieve := r.totalBytesToRetrieve
  userProvidedFiles := r.userProvidedFiles

def RepackRequest.setTotalStats (r : RepackRequest) (t : TotalStatsFiles) : RepackRequest :=
  { r with
    totalFilesToRetrieve := t.totalFilesToRetrieve
    totalFilesToArchive := t.totalFilesToArchive
    totalBytesToArchive := t.totalBytesToArchive
    totalBytesToRetrieve := t.totalBytesToRetrieve
    userProvidedFiles := t.userProvidedFiles }

def RepackRequest.getOrPrepareSubrequestInfo (r : RepackRequest) (fSeqs : List Nat)
    (nextId : Nat → Address) : RepackRequest :=
  { r with
    subrequests := fun f =>
      match r.subrequests f with
      | some p => some p
      | none => if f ∈ fSeqs then some { address := nextId f } else none }

def RepackRequest.setExpandStartedAndChangeStatus (r : RepackRequest) : RepackRequest :=
  { r with isExpandStarted := true }.setStatus

def RepackRequest.expandDone (r : RepackRequest) : RepackRequest :=
  { r with isExpandFinished := true }.setStatus

end Cta.Repack
