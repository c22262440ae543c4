import Cta.ObjectStore.JobOwners
import Mathlib.Data.Finset.SDiff
import Mathlib.Data.List.Nodup
import Mathlib.Data.List.Perm.Basic

/-! Collection of the retrieve requests of a dead agent: they are sorted by destination
queue and requeued in batches. A queue is the list of its references. -/
namespace Cta.ObjectStore.GarbageCollector

inductive RetrieveJobStatus where
  | toTransfer
  | toReportToUserForFailure
  | failed
  | toReportToRepackForSuccess
  | toReportToRepackForFailure
  deriving DecidableEq, Repr

inductive JobQueueType where
  | jobsToTransferForUser
  | failedJobs
  | jobsToReportToUser
  | jobsToReportToRepackForSuccess
  | jobsToReportToRepackForFailure
  | jobsToTransferForRepack
  deriving DecidableEq, Repr

def JobQueueType.value : JobQueueType → Nat
  | .jobsToTransferForUser => 0
  | .failedJobs => 1
  | .jobsToReportToUser => 2
  | .jobsToReportToRepackForSuccess => 3
  | .jobsToReportToRepackForFailure => 4
  | .jobsToTransferForRepack => 5

abbrev QueueId := String × JobQueueType

inductive RequestOwner where
  | queue (id : QueueId)
  | agent (address : Address)
  deriving DecidableEq, Repr

structure TapeFile where
  vid : String
  copyNb : Nat
  deriving DecidableEq, Repr

structure RetrieveJob where
  copyNb : Nat
  status : RetrieveJobStatus
  deriving DecidableEq, Repr

structure Request where
  owner : RequestOwner
  jobs : List RetrieveJob
  tapeFiles : List TapeFile
  repackRequestAddress : String
  forceDisabledTape : Bool
  tapeFiles_ne : tapeFiles ≠ []

def Request.ownership (r : Request) : RetrieveRequest RequestOwner :=
  ⟨r.owner, r.jobs.map RetrieveJob.copyNb⟩

def Request.updateJobOwner (copyNumber : Nat) (owner previousOwner : RequestOwner) (r : Request) :
    Except SwitchFailure Request :=
  (r.ownership.updateJobOwner copyNumber owner previousOwner).map fun q =>
    { r with owner := q.owner }

def getQueueType (hasToReport : Bool) : List RetrieveJob → JobQueueType
  | [] => if hasToReport then .jobsToReportToUser else .failedJobs
  | j :: js =>
    match j.status with
    | .toTransfer => .jobsToTransferForUser
    | .toReportToRepackForSuccess => .jobsToReportToRepackForSuccess
    | .toReportToUserForFailure => getQueueType true js
    | .toReportToRepackForFailure => .jobsToReportToRepackForFailure
    | .failed => getQueueType hasToReport js

structure Key where
  containerIdentifier : String
  queueType : JobQueueType
  vid : String
  deriving DecidableEq, Repr

def Key.queue (k : Key) : QueueId := (k.containerIdentifier, k.queueType)

def Key.le (k l : Key) : Bool :=
  k.containerIdentifier < l.containerIdentifier ||
    k.containerIdentifier = l.containerIdentifier &&
      (k.queueType.value < l.queueType.value || k.queueType = l.queueType && k.vid ≤ l.vid)

def Request.candidateVids (r : Request) : Finset String :=
  (r.jobs.flatMap fun j => if j.status = .toTransfer then
    (r.tapeFiles.filter (·.copyNb = j.copyNb)).map TapeFile.vid else []).toFinset

/-- Where to requeue a request. A request with nothing to transfer goes to the queue of
its first vid or of its repack request; for a request to transfer `selectBestRetrieveQueue`
chooses one of the vids, or finds no tape available. -/
def Request.destination (selectBestRetrieveQueue : Finset String → Bool → Option String)
    (r : Request) : Option Key :=
  let queueType := getQueueType false r.jobs
  let vid := (r.tapeFiles.head r.tapeFiles_ne).vid
  if r.candidateVids = ∅ then
    if queueType ≠ .failedJobs ∧ queueType ≠ .jobsToReportToUser then
      some ⟨r.repackRequestAddress, queueType, vid⟩
    else some ⟨vid, queueType, vid⟩
  else (selectBestRetrieveQueue r.candidateVids r.forceDisabledTape).map fun vid =>
    ⟨vid, .jobsToTransferForUser, vid⟩

/-- The stored requests, the queues, and the ownership list of the dead agent. -/
structure World where
  objects : Address → Option Request
  queues : QueueId → List Address
  ownership : List Address

structure Fetched where
  address : Address
  request : Request

variable (select : Finset String → Bool → Option String) (agent : Address)

def fetchedObjects (w : World) : List Fetched :=
  w.ownership.filterMap fun a => (w.objects a).map (⟨a, ·⟩)

def sortedRequests (w : World) : List (Key × Fetched) :=
  (fetchedObjects w).filterMap fun f =>
    if f.request.owner = .agent agent then (f.request.destination select).map (·, f) else none

def sortFetchedObjects (w : World) : World :=
  { w with
    ownership := w.ownership.filter fun a =>
      (w.objects a).any (·.owner = .agent agent) }

def batches : List Fetched → List (List Fetched)
  | [] => []
  | f :: fs => (f :: fs).take 501 :: batches ((f :: fs).drop 501)
termination_by fs => fs.length
decreasing_by
  simp only [List.length_drop, List.length_cons]
  omega

structure Round where
  queue : QueueId
  vid : String
  batch : List Fetched

def rounds (w : World) : List Round :=
  let sorted := sortedRequests select agent w
  let keys := ((sorted.map Prod.fst).dedup).mergeSort Key.le
  keys.flatMap fun k =>
    (batches ((sorted.filter (·.1 = k)).map Prod.snd)).map (⟨k.queue, k.vid, ·⟩)

def Round.jobsToAdd (r : Round) : List (Address × Nat) :=
  r.batch.flatMap fun f =>
    (f.request.tapeFiles.filter (·.vid = r.vid)).map fun tf => (f.address, tf.copyNb)

/-- `RetrieveQueue::addJobsIfNecessaryAndCommit`: jobs whose request is referenced already
are left out. -/
def jobsToReallyAdd (references : List Address) (jobsToAdd : List (Address × Nat)) :
    List (Address × Nat) :=
  jobsToAdd.filter (·.1 ∉ references)

/-- Owner updates one after the other, with the requests to take out of the queue again. -/
def updateOwners (queue : QueueId) (agent : Address) :
    (Address → Option Request) → List (Address × Nat) →
      (Address → Option Request) × List (Address × SwitchFailure)
  | objects, [] => (objects, [])
  | objects, (a, copyNb) :: js =>
    match (objects a).elim (.error .noSuchObject)
        (Request.updateJobOwner copyNb (.queue queue) (.agent agent)) with
    | .ok r => updateOwners queue agent (Function.update objects a (some r)) js
    | .error e =>
      let (objects', failed) := updateOwners queue agent objects js
      (objects', (a, e) :: failed)

def jobsIndividuallyGCed (failed : List (Address × SwitchFailure)) : List Address :=
  (failed.filter fun x => x.2 ≠ .noSuchObject ∧ x.2 ≠ .wrongPreviousOwner).map Prod.fst

/-- The queue is cleaned of the failures and the agent's list of the batch. When no job had
to be added the updates are skipped, but not the clean-up of the agent's list. -/
def requeue (w : World) (r : Round) : World :=
  let references := w.queues r.queue
  let added := jobsToReallyAdd references r.jobsToAdd
  let references' := references ++ added.map Prod.fst
  if added = [] then
    { w with
      queues := Function.update w.queues r.queue references'
      ownership := w.ownership.filter (· ∉ r.batch.map Fetched.address) }
  else
    let updated := updateOwners r.queue agent w.objects r.jobsToAdd
    { objects := updated.1
      queues := Function.update w.queues r.queue
        (references'.filter (· ∉ updated.2.map Prod.fst))
      ownership := w.ownership.filter fun a =>
        a ∉ r.batch.map Fetched.address ∨ a ∈ jobsIndividuallyGCed updated.2 }

def cleanupDeadAgent (w : World) : World :=
  (rounds select agent w).foldl (requeue agent) (sortFetchedObjects agent w)

end Cta.ObjectStore.GarbageCollector
