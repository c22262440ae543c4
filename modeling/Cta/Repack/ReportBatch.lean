import Cta.Lib.Commits
import Cta.ObjectStore.JobOwners
import Cta.Repack.RepackRequest
import Mathlib.Data.Finset.Sort

/-! Batches of popped sub-requests and what reporting them does to the repack request. -/
namespace Cta.Repack
open Cta.ObjectStore (Address ArchiveJobStatus)

/-- A popped archive job, with the statuses of the jobs of its request as they were on pop. The
status map is in the order of the copy numbers. -/
structure ArchiveSubrequestInfo where
  archiveFileID : Nat
  fSeq : Nat
  fileSize : Nat
  archivedCopyNb : Nat
  archiveJobsStatusMap : List (Nat × ArchiveJobStatus)
  destinationVid : String := ""
  deriving DecidableEq, Repr

def Unfinished (status : ArchiveJobStatus) : Prop := status ≠ .complete ∧ status ≠ .failed

instance (status : ArchiveJobStatus) : Decidable (Unfinished status) :=
  inferInstanceAs (Decidable (_ ∧ _))

def siblingFinished (archivedCopyNb : Nat) : List (Nat × ArchiveJobStatus) → Bool
  | [] => false
  | j :: js =>
    if j.1 ≠ archivedCopyNb then
      if Unfinished j.2 then false else true
    else siblingFinished archivedCopyNb js

def prepareReport (subrequestList : List ArchiveSubrequestInfo) : List SubrequestStatistics :=
  subrequestList.map fun sri =>
    { fSeq := sri.fSeq
      bytes := sri.fileSize
      copyNb := sri.archivedCopyNb
      destinationVid := sri.destinationVid
      subrequestDeleted := siblingFinished sri.archivedCopyNb sri.archiveJobsStatusMap }

/-- The four kinds of batches. Of a batch of retrieved files some may fail to be turned into
archive requests. -/
inductive ReportBatch where
  | retrieveSuccesses (subrequestList failedSubrequests : List Subrequest)
  | retrieveFailures (subrequestList : List Subrequest)
  | archiveSuccesses (subrequestList : List ArchiveSubrequestInfo)
  | archiveFailures (subrequestList : List ArchiveSubrequestInfo)

def retrieveStatistics (subrequestList : List Subrequest) : List SubrequestStatistics :=
  subrequestList.map fun rr =>
    { fSeq := rr.fSeq, bytes := rr.fileSize, hasUserProvidedFile := rr.hasUserProvidedFile }

def failedArchiveStatistics (failedSubrequests : List Subrequest) : List SubrequestStatistics :=
  failedSubrequests.flatMap fun rr =>
    (rr.copyNbsToRearchive.sort (· ≤ ·)).map fun copyNb =>
      { fSeq := rr.fSeq, bytes := rr.fileSize, copyNb }

def retrieveFailureStatistics (subrequestList : List Subrequest) : List SubrequestStatistics :=
  subrequestList.map fun rr => { fSeq := rr.fSeq, bytes := rr.fileSize }

def ReportBatch.commits (archiveFileSize : Address → Option Nat) :
    ReportBatch → List (RepackRequest → Except ReportError RepackRequest)
  | .retrieveSuccesses subrequestList failedSubrequests =>
    (reportRetriveSuccesses · (retrieveStatistics subrequestList)) ::
      if failedSubrequests.isEmpty then []
      else [(reportArchiveFailures · (failedArchiveStatistics failedSubrequests))]
  | .retrieveFailures subrequestList =>
    [fun r => do
      let r ← reportSubRequestsForDeletion r (subrequestList.map Subrequest.fSeq)
      let r := reportArchiveCreationFailures r
        (subrequestList.map (·.copyNbsToRearchive.card)).sum
      reportRetriveFailures r (retrieveFailureStatistics subrequestList)]
  | .archiveSuccesses subrequestList =>
    [(reportArchiveSuccesses archiveFileSize · (prepareReport subrequestList))]
  | .archiveFailures subrequestList => [(reportArchiveFailures · (prepareReport subrequestList))]

end Cta.Repack
