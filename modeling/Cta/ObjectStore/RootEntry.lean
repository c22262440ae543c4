import Cta.Lib.Sequence
import Cta.ObjectStore.GarbageCollector
import Mathlib.Logic.Function.Basic

/-! The root entry: the references to the archive and retrieve queues of every type. -/
namespace Cta.ObjectStore.RootEntry
open Cta.Lib.Sequence
open GarbageCollector (JobQueueType)

inductive QueueKind where
  | archive
  | retrieve
  deriving DecidableEq, Repr

/-- The name is the tape pool of an archive queue, the vid of a retrieve queue. -/
structure QueuePointer where
  address : Address
  name : String
  deriving DecidableEq, Repr

structure Registers where
  driveregisterpointer : Option Address := none
  agentregisterintent : String := ""
  agentregisterpointer : Option Address := none
  schedulerlockpointer : Option Address := none
  deriving DecidableEq, Repr

structure Payload extends Registers where
  archiveQueueToTransferForUserPointers : List QueuePointer := []
  archiveQueueToReportForUserPointers : List QueuePointer := []
  archiveQueueFailedPointers : List QueuePointer := []
  archiveQueueToTransferForRepackPointers : List QueuePointer := []
  archiveQueueToReportToRepackForSuccessPointers : List QueuePointer := []
  archiveQueueToReportToRepackForFailurePointers : List QueuePointer := []
  retrieveQueueToTransferForUserPointers : List QueuePointer := []
  retrieveQueueToReportForUserPointers : List QueuePointer := []
  retrieveQueueFailedPointers : List QueuePointer := []
  retrieveQueueToReportToRepackForSuccessPointers : List QueuePointer := []
  retrieveQueueToReportToRepackForFailurePointers : List QueuePointer := []
  retrieveQueueToTransferForRepackPointers : List QueuePointer := []
  deriving DecidableEq, Repr

namespace Payload

def archiveQueuePointers (r : Payload) : JobQueueType → List QueuePointer
  | .jobsToTransferForUser => r.archiveQueueToTransferForUserPointers
  | .jobsToReportToUser => r.archiveQueueToReportForUserPointers
  | .failedJobs => r.archiveQueueFailedPointers
  | .jobsToTransferForRepack => r.archiveQueueToTransferForRepackPointers
  | .jobsToReportToRepackForSuccess => r.archiveQueueToReportToRepackForSuccessPointers
  | .jobsToReportToRepackForFailure => r.archiveQueueToReportToRepackForFailurePointers

def mutableArchiveQueuePointers (r : Payload) (f : List QueuePointer → List QueuePointer) :
    JobQueueType → Payload
  | .jobsToTransferForUser => { r with
      archiveQueueToTransferForUserPointers := f r.archiveQueueToTransferForUserPointers }
  | .jobsToReportToUser => { r with
      archiveQueueToReportForUserPointers := f r.archiveQueueToReportForUserPointers }
  | .failedJobs => { r with archiveQueueFailedPointers := f r.archiveQueueFailedPointers }
  | .jobsToTransferForRepack => { r with
      archiveQueueToTransferForRepackPointers := f r.archiveQueueToTransferForRepackPointers }
  | .jobsToReportToRepackForSuccess => { r with
      archiveQueueToReportToRepackForSuccessPointers :=
        f r.archiveQueueToReportToRepackForSuccessPointers }
  | .jobsToReportToRepackForFailure => { r with
      archiveQueueToReportToRepackForFailurePointers :=
        f r.archiveQueueToReportToRepackForFailurePointers }

def retrieveQueuePointers (r : Payload) : JobQueueType → List QueuePointer
  | .jobsToTransferForUser => r.retrieveQueueToTransferForUserPointers
  | .jobsToReportToUser => r.retrieveQueueToReportForUserPointers
  | .failedJobs => r.retrieveQueueFailedPointers
  | .jobsToReportToRepackForSuccess => r.retrieveQueueToReportToRepackForSuccessPointers
  | .jobsToReportToRepackForFailure => r.retrieveQueueToReportToRepackForFailurePointers
  | .jobsToTransferForRepack => r.retrieveQueueToTransferForRepackPointers

def mutableRetrieveQueuePointers (r : Payload) (f : List QueuePointer → List QueuePointer) :
    JobQueueType → Payload
  | .jobsToTransferForUser => { r with
      retrieveQueueToTransferForUserPointers := f r.retrieveQueueToTransferForUserPointers }
  | .jobsToReportToUser => { r with
      retrieveQueueToReportForUserPointers := f r.retrieveQueueToReportForUserPointers }
  | .failedJobs => { r with retrieveQueueFailedPointers := f r.retrieveQueueFailedPointers }
  | .jobsToReportToRepackForSuccess => { r with
      retrieveQueueToReportToRepackForSuccessPointers :=
        f r.retrieveQueueToReportToRepackForSuccessPointers }
  | .jobsToReportToRepackForFailure => { r with
      retrieveQueueToReportToRepackForFailurePointers :=
        f r.retrieveQueueToReportToRepackForFailurePointers }
  | .jobsToTransferForRepack => { r with
      retrieveQueueToTransferForRepackPointers := f r.retrieveQueueToTransferForRepackPointers }

def pointers (r : Payload) : QueueKind → JobQueueType → List QueuePointer
  | .archive => r.archiveQueuePointers
  | .retrieve => r.retrieveQueuePointers

def mutablePointers (r : Payload) (f : List QueuePointer → List QueuePointer) :
    QueueKind → JobQueueType → Payload
  | .archive => r.mutableArchiveQueuePointers f
  | .retrieve => r.mutableRetrieveQueuePointers f

def set (address : Option Address) : Bool := address.any (· ≠ "")

def isEmpty (r : Payload) : Bool :=
  if set r.driveregisterpointer then false
  else if r.agentregisterintent ≠ "" then false
  else if set r.agentregisterpointer then false
  else if set r.schedulerlockpointer then false
  else if [JobQueueType.jobsToTransferForUser, .jobsToReportToUser, .failedJobs].any fun qt =>
      !(r.archiveQueuePointers qt).isEmpty then false
  else if [JobQueueType.jobsToTransferForUser, .jobsToReportToUser, .failedJobs,
      .jobsToReportToRepackForSuccess].any fun qt => !(r.retrieveQueuePointers qt).isEmpty then
    false
  else true

end Payload

def findElement (field : List QueuePointer) (name : String) : Option QueuePointer :=
  field.find? (·.name = name)

def removeOccurences (field : List QueuePointer) (name : String) : List QueuePointer :=
  swapOutAll (·.name = name) field.length field

structure QueueObject where
  kind : QueueKind
  name : String
  isEmpty : Bool
  deriving DecidableEq, Repr

/-- The root entry, until it is removed, and the queue objects by address. -/
structure State where
  root : Option Payload
  objects : Address → Option QueueObject

inductive Failure where
  | noSuchObject
  | backend
  | noSuchQueue
  | wrongQueue
  | queueNotEmpty
  | notEmpty
  deriving DecidableEq, Repr

def queueNameHeader : QueueKind → JobQueueType → String
  | .archive, .jobsToTransferForUser => "ArchiveQueueToTransferForUser"
  | .archive, .jobsToReportToRepackForFailure => "ArchiveQueueToReportToRepackForSuccess"
  | .archive, .jobsToReportToRepackForSuccess => "ArchiveQueueToReportToRepackForSuccess"
  | .archive, .jobsToReportToUser => "ArchiveQueueToReportForUser"
  | .archive, .failedJobs => "ArchiveQueueFailed"
  | .archive, .jobsToTransferForRepack => "ArchiveQueueToTransferForRepack"
  | .retrieve, .jobsToTransferForUser => "RetrieveQueueToTransferForUser"
  | .retrieve, .jobsToReportToUser => "RetrieveQueueToReportForUser"
  | .retrieve, .failedJobs => "RetrieveQueueFailed"
  | .retrieve, .jobsToReportToRepackForSuccess => "RetrieveQueueToReportToRepackForSuccess"
  | .retrieve, .jobsToReportToRepackForFailure => "RetrieveQueueToReportToRepackForFailure"
  | .retrieve, .jobsToTransferForRepack => "RetrieveQueueToTransferForRepack"

structure Outcome where
  lockFails : Bool := false
  removeFails : Bool := false
  commitFails : Bool := false
  insertFails : Bool := false
  deriving DecidableEq, Repr

/-- The root entry is locked and fetched for each call. A change that is not committed is lost. -/
def addOrGetQueueAndCommit (k : QueueKind) (name : String) (nextId : String → Address)
    (queueType : JobQueueType) (o : Outcome) (s : State) : Except Failure Address × State :=
  match s.root with
  | none => (.error .noSuchObject, s)
  | some root =>
    match findElement (root.pointers k queueType) name with
    | some pointer => (.ok pointer.address, s)
    | none =>
      let address := nextId (queueNameHeader k queueType ++ "-" ++ name)
      if o.commitFails then (.error .backend, s)
      else
        -- The pointer is committed before the queue is inserted.
        let s := { s with
          root := some (root.mutablePointers (· ++ [⟨address, name⟩]) k queueType) }
        if o.insertFails || (s.objects address).isSome then (.error .backend, s)
        else (.ok address, { s with
          objects := Function.update s.objects address (some ⟨k, name, true⟩) })

def addOrGetArchiveQueueAndCommit := addOrGetQueueAndCommit .archive

def addOrGetRetrieveQueueAndCommit := addOrGetQueueAndCommit .retrieve

def deleteFromRootEntry (k : QueueKind) (name : String) (queueType : JobQueueType) (o : Outcome)
    (root : Payload) (s : State) : Except Failure Unit × State :=
  if o.commitFails then (.error .backend, s)
  else (.ok (), { s with
    root := some (root.mutablePointers (removeOccurences · name) k queueType) })

/-- A queue that cannot be locked or fetched and exists is an error, one that is gone is not. -/
def removeQueueAndCommit (k : QueueKind) (name : String) (queueType : JobQueueType) (o : Outcome)
    (s : State) : Except Failure Unit × State :=
  match s.root with
  | none => (.error .noSuchObject, s)
  | some root =>
    match findElement (root.pointers k queueType) name with
    | none => (.error .noSuchQueue, s)
    | some pointer =>
      match s.objects pointer.address with
      | none => deleteFromRootEntry k name queueType o root s
      | some queue =>
        if o.lockFails || queue.kind ≠ k then (.error .backend, s)
        else if queue.name ≠ name then (.error .wrongQueue, s)
        else if !queue.isEmpty then (.error .queueNotEmpty, s)
        else if o.removeFails then (.error .backend, s)
        else deleteFromRootEntry k name queueType o root { s with
          objects := Function.update s.objects pointer.address none }

def removeArchiveQueueAndCommit := removeQueueAndCommit .archive

def removeRetrieveQueueAndCommit := removeQueueAndCommit .retrieve

def removeIfEmpty (o : Outcome) (s : State) : Except Failure Unit × State :=
  match s.root with
  | none => (.error .noSuchObject, s)
  | some root =>
    if !root.isEmpty then (.error .notEmpty, s)
    else if o.removeFails then (.error .backend, s)
    else (.ok (), { s with root := none })

end Cta.ObjectStore.RootEntry
