import Cta.Lib.Transactions
import Cta.ObjectStore.ArchiveQueue
import Cta.ObjectStore.RetrieveQueueShard
import Cta.ObjectStore.RootEntry
import Cta.Repack.RepackRequest
import Mathlib.Data.Finset.Erase

/-! `garbageCollect` of the objects that move or delete work. Every operation on the object store may
fail. A queue is there if the root entry refers to it and it exists. -/
namespace Cta.ObjectStore.IndividualCollection
open Cta.Lib.Transactions
open GarbageCollector (RetrieveJobStatus JobQueueType QueueId getQueueType)
open RootEntry (queueNameHeader)
open Repack (RepackStatus)

inductive Failure where
  | exception
  | noSuchObject
  | wrongPreviousOwner
  | noTapeAvailableForRetrieve
  | jobNotQueueable
  | notEmpty
  | stdException
  deriving DecidableEq, Repr

structure ArchiveJob where
  copyNb : Nat
  tapePool : String
  owner : Address
  status : ArchiveJobStatus
  deriving DecidableEq, Repr

structure ArchiveRequest where
  jobs : List ArchiveJob
  archiveFileID : Nat
  fileSize : UInt64
  mountPolicy : MountPolicy
  entryLogTime : Int64
  repackRequestAddress : String
  deriving DecidableEq, Repr

structure TapeFile where
  vid : String
  copyNb : Nat
  fSeq : Nat
  deriving DecidableEq, Repr

structure RetrieveJob extends GarbageCollector.RetrieveJob where
  failureLogs : List String
  deriving DecidableEq, Repr

structure RetrieveRequest where
  owner : Address
  jobs : List RetrieveJob
  tapeFiles : List TapeFile
  activeCopyNb : Nat
  fileSize : UInt64
  mountPolicy : MountPolicy
  entryLogTime : Int64
  activity : Option String
  diskSystemName : Option String
  repackRequestAddress : String
  forceDisabledTape : Bool
  deriving DecidableEq, Repr

structure RepackRequest where
  owner : Address
  status : RepackStatus
  isExpandFinished : Bool
  moveMode : Bool
  addCopiesMode : Bool
  deriving DecidableEq, Repr

structure Agent where
  owner : Address
  deriving DecidableEq, Repr

structure ArchiveQueue where
  owner : Address
  archiveQueueShards : List Address
  deriving DecidableEq, Repr

inductive Object where
  | archiveRequest (request : ArchiveRequest)
  | retrieveRequest (request : RetrieveRequest)
  | repackRequest (request : RepackRequest)
  | agent (agent : Agent)
  | archiveQueue (queue : ArchiveQueue)
  deriving DecidableEq, Repr

inductive RepackQueueType where
  | pending
  | toExpand
  deriving DecidableEq, Repr

structure JobQueue (Element : Type) where
  address : Address
  elements : List Element
  deriving DecidableEq, Repr

structure Queues where
  archiveQueues : List (QueueId × JobQueue ArchiveQueue.JobToAdd) := []
  retrieveQueues : List (QueueId × JobQueue RetrieveQueue.JobToAdd) := []
  repackQueues : List (RepackQueueType × JobQueue Address) := []
  deriving DecidableEq, Repr

structure AgentRegister where
  address : Address
  agents : List Address
  untrackedAgents : List Address
  deriving DecidableEq, Repr

/-- The object to collect, with its address, and what its collection may change. The ownership list
is that of the agent that collects. -/
structure Store where
  address : Address
  object : Option Object
  queues : Queues
  rootEntry : Address
  agentRegister : AgentRegister
  ownership : Finset Address
  operations : Nat := 0
  logs : List String := []
  deriving DecidableEq

/-- Which operations fail, counted from the first one, and what the other components answer. -/
structure Surroundings where
  fails : Nat → Option Failure
  selectBestRetrieveQueue : Finset String → Bool → Except Failure String
  nextId : String → Address
  time : Int64
  localTimeAndHost : String

abbrev Program := EStateM Failure Store

section
variable (e : Surroundings)

def attempt : Program Unit := fun s =>
  match e.fails s.operations with
  | none => .ok () { s with operations := s.operations + 1 }
  | some failure => .error failure { s with operations := s.operations + 1 }

def commit (o : Object) : Program Unit := do
  attempt e
  modify fun s => { s with object := some o }

def log (message : String) : Program Unit := modify fun s => { s with logs := s.logs ++ [message] }

structure QueueKind (Key Element : Type) where
  queues : Queues → List (Key × JobQueue Element)
  mutableQueues : (List (Key × JobQueue Element) → List (Key × JobQueue Element)) → Queues → Queues
  nameHeader : Key → String
  address : Element → Address
  queues_mutableQueues : ∀ f qs, queues (mutableQueues f qs) = f (queues qs)

def archive : QueueKind QueueId ArchiveQueue.JobToAdd where
  queues qs := qs.archiveQueues
  mutableQueues f qs := { qs with archiveQueues := f qs.archiveQueues }
  nameHeader id := queueNameHeader .archive id.2 ++ "-" ++ id.1
  address j := j.archiveRequestAddress
  queues_mutableQueues _ _ := rfl

def retrieve : QueueKind QueueId RetrieveQueue.JobToAdd where
  queues qs := qs.retrieveQueues
  mutableQueues f qs := { qs with retrieveQueues := f qs.retrieveQueues }
  nameHeader id := queueNameHeader .retrieve id.2 ++ "-" ++ id.1
  address j := j.retrieveRequestAddress
  queues_mutableQueues _ _ := rfl

def repack : QueueKind RepackQueueType Address where
  queues qs := qs.repackQueues
  mutableQueues f qs := { qs with repackQueues := f qs.repackQueues }
  nameHeader
    | .pending => "RepackQueuePending"
    | .toExpand => "RepackQueueToExpand"
  address a := a
  queues_mutableQueues _ _ := rfl

namespace QueueKind
variable {Key Element : Type} [DecidableEq Key] (k : QueueKind Key Element)

def find (qs : Queues) (id : Key) : Option (JobQueue Element) := (k.queues qs).lookup id

def mapElements (id : Key) (f : List Element → List Element) (qs : Queues) : Queues :=
  k.mutableQueues (·.map fun x =>
    if x.1 = id then (x.1, { x.2 with elements := f x.2.elements }) else x) qs

def modifyQueues (f : Queues → Queues) : Program Unit :=
  modify fun s => { s with queues := f s.queues }

def getLockedAndFetched (id : Key) : Program Address := do
  attempt e
  match k.find (← get).queues id with
  | some queue => do
    attempt e
    return queue.address
  | none => do
    let address := e.nextId (k.nameHeader id)
    modifyQueues (k.mutableQueues (· ++ [(id, ⟨address, []⟩)]))
    attempt e
    return address

def addJobsAndCommit (id : Key) (jobsToAdd : List Element) : Program Unit :=
  if jobsToAdd = [] then pure ()
  else do
    attempt e
    modifyQueues (k.mapElements id (· ++ jobsToAdd))

/-- Jobs whose request is in the queue already are left out. -/
def addJobsIfNecessaryAndCommit (id : Key) (jobsToAdd : List Element) :
    Program Unit := do
  attempt e
  let dump := ((k.find (← get).queues id).map (·.elements.map k.address)).getD []
  k.addJobsAndCommit e id (jobsToAdd.filter (k.address · ∉ dump))

def removeReferencesAndCommit (id : Key) (address : Address) : Program Unit := do
  attempt e
  modifyQueues (k.mapElements id (·.filter (k.address · ≠ address)))

end QueueKind

namespace ArchiveRequest

def c_statusesImplyingQueueing : List ArchiveJobStatus :=
  [.toTransferForUser, .toReportToUserForTransfer, .toReportToUserForFailure, .failed,
    .toTransferForRepack, .toReportToRepackForFailure, .toReportToRepackForSuccess]

def c_statusesImplyingQueueingByRepackRequestAddress : List ArchiveJobStatus :=
  [.toReportToRepackForFailure, .toReportToRepackForSuccess]

def getQueueType : ArchiveJobStatus → Except Failure JobQueueType
  | .toTransferForUser => .ok .jobsToTransferForUser
  | .toReportToUserForTransfer | .toReportToUserForFailure => .ok .jobsToReportToUser
  | .toReportToRepackForSuccess => .ok .jobsToReportToRepackForSuccess
  | .toReportToRepackForFailure => .ok .jobsToReportToRepackForFailure
  | .toTransferForRepack => .ok .jobsToTransferForRepack
  | .failed => .ok .failedJobs
  | .complete | .abandoned => .error .jobNotQueueable

def requeue (r : ArchiveRequest) (j : ArchiveJob) : Program Address := do
  let containerId := if j.status ∈ c_statusesImplyingQueueingByRepackRequestAddress then
    r.repackRequestAddress else j.tapePool
  let queueType ← ofResult (getQueueType j.status)
  let queueAddress ← archive.getLockedAndFetched e (containerId, queueType)
  archive.addJobsIfNecessaryAndCommit e (containerId, queueType)
    [⟨j.copyNb, (← get).address, r.archiveFileID, r.fileSize, r.mountPolicy, r.entryLogTime⟩]
  return queueAddress

/-- What becomes of a job to collect. One that cannot be requeued is failed. -/
def collectJob (r : ArchiveRequest) (before : List ArchiveJob) (j : ArchiveJob)
    (after : List ArchiveJob) : Program ArchiveJob := do
  let commitJob (j : ArchiveJob) : Program ArchiveJob := do
    commit e (.archiveRequest { r with jobs := before ++ j :: after })
    return j
  match ← observing (requeue e r j) with
  | .error .jobNotQueueable => return j
  | .error _ => commitJob { j with status := .failed }
  | .ok queueAddress =>
    -- The owner in memory is set before the commit that may fail.
    match ← observing (commitJob { j with owner := queueAddress }) with
    | .ok j => return j
    | .error _ => commitJob { j with owner := queueAddress, status := .failed }

def collectJobs (presumedOwner : Address) (r : ArchiveRequest) :
    List ArchiveJob → List ArchiveJob → Program Bool
  | _, [] => return false
  | before, j :: after => do
    if j.status ∈ c_statusesImplyingQueueing ∧ j.owner = presumedOwner then
      let j ← collectJob e r before j after
      let _ ← collectJobs presumedOwner r (before ++ [j]) after
      return true
    else collectJobs presumedOwner r (before ++ [j]) after

def garbageCollect (presumedOwner : Address) (r : ArchiveRequest) : Program Unit := do
  let anythingGarbageCollected ← collectJobs e presumedOwner r [] r.jobs
  if !anythingGarbageCollected then
    log "In ArchiveRequest::garbageCollect(): nothing to garbage collect."

end ArchiveRequest

namespace RetrieveRequest
variable (r : RetrieveRequest)

def tapeFile (copyNb : Nat) : Option TapeFile := r.tapeFiles.find? (·.copyNb = copyNb)

inductive Scan where
  | candidateVids (vids : Finset String)
  | reportToRepack (file : TapeFile)

/-- The candidates among the jobs, or the first of them to be reported to a repack request. -/
def scan (candidateVids : Finset String) : List RetrieveJob → Except Failure Scan
  | [] => .ok (.candidateVids candidateVids)
  | j :: jobs =>
    match j.status, r.tapeFile j.copyNb with
    | .toTransfer, some file => scan (insert file.vid candidateVids) jobs
    | .toTransfer, none => .error .exception
    | .toReportToRepackForSuccess, some file => .ok (.reportToRepack file)
    | .toReportToRepackForFailure, some file => .ok (.reportToRepack file)
    | .toReportToRepackForSuccess, none => scan candidateVids jobs
    | .toReportToRepackForFailure, none => scan candidateVids jobs
    | .toReportToUserForFailure, _ => scan candidateVids jobs
    | .failed, _ => scan candidateVids jobs

def queueTypeOf : RetrieveJobStatus → JobQueueType
  | .toTransfer => .jobsToTransferForUser
  | .toReportToRepackForSuccess => .jobsToReportToRepackForSuccess
  | .toReportToUserForFailure => .jobsToReportToUser
  | .failed => .failedJobs
  | .toReportToRepackForFailure => .jobsToReportToRepackForFailure

/-- The queue of a job that is reported to a repack request is named after that. -/
def containerId (vid : String) : RetrieveJobStatus → String
  | .toReportToRepackForSuccess | .toReportToRepackForFailure => r.repackRequestAddress
  | .toTransfer | .toReportToUserForFailure | .failed => vid

/-- `Sorter::insertRetrieveRequest` for a copy: where its job goes, and what is put there. -/
def insertRetrieveRequest (address : Address) (time : Int64) (file : TapeFile) :
    Except Failure (QueueId × RetrieveQueue.JobToAdd) :=
  match r.jobs.find? (·.copyNb = file.copyNb) with
  | none => .error .exception
  | some j => .ok ((r.containerId file.vid j.status, queueTypeOf j.status),
      ⟨file.copyNb, file.fSeq, address, r.fileSize, r.mountPolicy, time, r.activity,
        r.diskSystemName⟩)

def asyncUpdateJobOwner (copyNumber : Nat) (owner previousOwner : Address) : Program Unit := do
  attempt e
  match (← get).object with
  | some (.retrieveRequest r) =>
    if r.owner ≠ previousOwner then throw .wrongPreviousOwner
    else if r.jobs.any (·.copyNb = copyNumber) then
      modify fun s => { s with object := some (.retrieveRequest { r with owner }) }
    else throw .wrongPreviousOwner
  | some _ => throw .exception
  | none => throw .noSuchObject

/-- `Sorter::flushAll` with the one job. A request that is gone is not an error. -/
def flushAll (id : QueueId) (job : RetrieveQueue.JobToAdd) : Program Unit := do
  let queueAddress ← retrieve.getLockedAndFetched e id
  retrieve.addJobsAndCommit e id [job]
  match ← observing (asyncUpdateJobOwner e job.copyNb queueAddress r.owner) with
  | .ok _ =>
    attempt e
    modify fun s => { s with ownership := s.ownership.erase job.retrieveRequestAddress }
  | .error failure =>
    retrieve.removeReferencesAndCommit e id job.retrieveRequestAddress
    if failure ≠ .noSuchObject then throw failure

def requeueForReportToRepack (file : TapeFile) : Program Unit := do
  let (id, job) ← ofResult (r.insertRetrieveRequest (← get).address e.time file)
  r.flushAll e id job

def failJob (localTimeAndHost : String) (j : RetrieveJob) : RetrieveJob :=
  if j.status = .toTransfer then
    { j with
      status := .toReportToUserForFailure
      failureLogs := j.failureLogs ++ [localTimeAndHost ++
        " In RetrieveRequest::garbageCollect(): " ++
          "No VID available to requeue the request. Failing it."] }
  else j

def queueForFailure : Program Unit := do
  let r := { r with jobs := r.jobs.map (failJob e.localTimeAndHost) }
  match r.tapeFile r.activeCopyNb with
  | none => throw .exception
  | some file =>
    let id := (file.vid, getQueueType false (r.jobs.map (·.toRetrieveJob)))
    let queueAddress ← retrieve.getLockedAndFetched e id
    retrieve.addJobsIfNecessaryAndCommit e id [⟨r.activeCopyNb, file.fSeq, (← get).address,
      r.fileSize, { name := "" }, r.entryLogTime, r.activity, none⟩]
    commit e (.retrieveRequest { r with owner := queueAddress })

def bestJob (vid : String) : Option (TapeFile × RetrieveJob) := do
  let file ← r.tapeFiles.find? (·.vid = vid)
  let job ← r.jobs.find? (·.copyNb = file.copyNb)
  return (file, job)

def queueForTransfer (bestVid : String) : Program Unit :=
  match r.bestJob bestVid with
  | none => throw .exception
  | some (file, job) => do
    let id := (bestVid, JobQueueType.jobsToTransferForUser)
    let queueAddress ← retrieve.getLockedAndFetched e id
    retrieve.addJobsIfNecessaryAndCommit e id [⟨file.copyNb, file.fSeq, (← get).address,
      r.fileSize, r.mountPolicy, r.entryLogTime, r.activity, r.diskSystemName⟩]
    commit e (.retrieveRequest { r with activeCopyNb := job.copyNb, owner := queueAddress })

def requeue : Program Unit :=
  match r.scan ∅ r.jobs with
  | .error failure => throw failure
  | .ok (.reportToRepack file) => r.requeueForReportToRepack e file
  | .ok (.candidateVids candidateVids) =>
    if candidateVids = ∅ then r.queueForFailure e
    else
      match e.selectBestRetrieveQueue candidateVids r.forceDisabledTape with
      | .ok bestVid => r.queueForTransfer e bestVid
      | .error .noTapeAvailableForRetrieve => r.queueForFailure e
      | .error failure => throw failure

/-- A request of another owner is logged as one that needs no collection, and requeued. -/
def garbageCollect (presumedOwner : Address) : Program Unit := do
  if r.owner ≠ presumedOwner then
    log "In RetrieveRequest::garbageCollect(): no garbage collection needed."
  r.requeue e

end RetrieveRequest

namespace RepackRequest

def getQueueType (r : RepackRequest) : Except Failure RepackQueueType :=
  if !r.moveMode && !r.addCopiesMode then .error .exception
  else
    match r.status with
    | .pending => .ok .pending
    | .toExpand => .ok .toExpand
    | .running | .starting => if !r.isExpandFinished then .ok .toExpand else .error .exception
    | .complete | .failed => .error .exception

def findQueue (r : RepackRequest) : Program RepackQueueType := do
  let queueType ← ofResult r.getQueueType
  let _ ← repack.getLockedAndFetched e queueType
  return queueType

/-- The presumed owner is not looked at. An exception of the standard library is not caught. -/
def garbageCollect (agentReference : Address) (r : RepackRequest) : Program Unit := do
  attempt e
  modify fun s => { s with ownership := insert s.address s.ownership }
  let r := { r with owner := agentReference }
  match ← observing (r.findQueue e) with
  | .error .stdException => throw .stdException
  | .error _ => commit e (.repackRequest r)
  | .ok queueType =>
    match ← observing (repack.addJobsAndCommit e queueType [(← get).address]) with
    | .error .stdException => throw .stdException
    | _ => commit e (.repackRequest r)

end RepackRequest

def Agent.garbageCollect (presumedOwner : Address) (a : Agent) : Program Unit := do
  if a.owner = presumedOwner then
    attempt e
    let s ← get
    attempt e
    if s.address ∉ s.agentRegister.agents then throw .exception
    attempt e
    modify fun s => { s with agentRegister := { s.agentRegister with
      untrackedAgents := if s.address ∈ s.agentRegister.untrackedAgents then
        s.agentRegister.untrackedAgents else s.agentRegister.untrackedAgents ++ [s.address] } }
    commit e (.agent { a with owner := s.agentRegister.address })

def dumpArchiveQueues (qs : Queues) (queueType : JobQueueType) : List Address :=
  (qs.archiveQueues.filter (·.1.2 = queueType)).map (·.2.address)

def ArchiveQueue.garbageCollect (presumedOwner : Address) (q : ArchiveQueue) : Program Unit := do
  if presumedOwner ≠ q.owner then return ()
  attempt e
  let s ← get
  if s.address ∈ dumpArchiveQueues s.queues .jobsToTransferForUser then
    commit e (.archiveQueue { q with owner := s.rootEntry })
  else if q.archiveQueueShards ≠ [] then throw .notEmpty
  else do
    attempt e
    modify fun s => { s with object := none }

def garbageCollectDispatcher (agentReference presumedOwner : Address) : Object → Program Unit
  | .archiveRequest r => r.garbageCollect e presumedOwner
  | .retrieveRequest r => r.garbageCollect e presumedOwner
  | .repackRequest r => r.garbageCollect e agentReference
  | .agent a => a.garbageCollect e presumedOwner
  | .archiveQueue q => q.garbageCollect e presumedOwner

end

end Cta.ObjectStore.IndividualCollection
