import Cta.Lib.Transactions
import Cta.ObjectStore.GarbageCollector
import Mathlib.Data.List.Sort

/-! What is left of a retrieve request when one of its jobs fails. -/
namespace Cta.Scheduler.RetrieveFailure
open Cta.Lib.Triples Cta.Lib.Transactions
open Cta.ObjectStore.GarbageCollector (RetrieveJobStatus JobQueueType QueueId RequestOwner TapeFile)

inductive TapeState
  | active
  | broken
  | disabled
  deriving DecidableEq, Repr

structure RetrieveQueueStatistics where
  vid : String
  bytesQueued : Nat
  filesQueued : Nat
  currentPriority : Nat
  deriving DecidableEq, Repr

def RetrieveQueueStatistics.gt (left right : RetrieveQueueStatistics) : Bool :=
  left.bytesQueued > right.bytesQueued || left.currentPriority > right.currentPriority

structure RetrieveQueueStatisticsWithTime where
  stats : RetrieveQueueStatistics
  tapeStatus : TapeState
  updating : Bool
  updateTime : Int
  deriving DecidableEq, Repr

inductive Failure
  | jobNotOwned
  | noSuchJob
  | noSuchObject
  | noTapeAvailableForRetrieve
  | retrieveRequestHasNoCopies
  | ownershipSwitchFailure
  | exception
  deriving DecidableEq, Repr

def c_retrieveQueueCacheMaxAge : Int := 10

/-- What the selection meets. `updated` is an entry once the thread that updates it is done;
`sort` sorts by an order that is not one, so nothing is known but that it permutes. -/
structure Statistics where
  cache : String → Option RetrieveQueueStatisticsWithTime
  updated : String → RetrieveQueueStatisticsWithTime
  now : Int
  getTapesByVid : String → Except Failure (List (String × TapeState))
  getRetrieveQueueStatistics : String → Except Failure (List RetrieveQueueStatistics)
  sort : List RetrieveQueueStatistics → List RetrieveQueueStatistics
  perm : ∀ stats, (sort stats).Perm stats
  random : Nat

namespace Statistics

def update (g : Statistics) (vid : String) : Except Failure RetrieveQueueStatisticsWithTime := do
  let tapeStatus ← g.getTapesByVid vid
  let queuesStats ← g.getRetrieveQueueStatistics vid
  match queuesStats, tapeStatus with
  | [stats], [(tapeVid, state)] =>
    if stats.vid = vid ∧ tapeVid = vid then .ok ⟨stats, state, false, g.now⟩
    else .error .exception
  | _, _ => .error .exception

def entry (g : Statistics) (vid : String) : Except Failure RetrieveQueueStatisticsWithTime :=
  match g.cache vid with
  | none => g.update vid
  | some entry =>
    if entry.updating then .ok (g.updated vid)
    else if g.now - entry.updateTime > c_retrieveQueueCacheMaxAge then g.update vid
    else .ok entry

def usable (forceDisabledTape : Bool) (entry : RetrieveQueueStatisticsWithTime) : Bool :=
  entry.tapeStatus = .active || (entry.tapeStatus = .disabled && forceDisabledTape)

def candidateVidsStats (g : Statistics) (forceDisabledTape : Bool) :
    List String → Except Failure (List RetrieveQueueStatistics)
  | [] => .ok []
  | vid :: vids => do
    let entry ← g.entry vid
    let rest ← g.candidateVidsStats forceDisabledTape vids
    return if usable forceDisabledTape entry then entry.stats :: rest else rest

def shortlistVids : List RetrieveQueueStatistics → List String
  | [] => []
  | front :: rest =>
    (((front :: rest).filter fun s => !front.gt s && !s.gt front).map (·.vid)).dedup

/-- One of several best queues is chosen at random, but among all the candidates. -/
def selectBestRetrieveQueue (g : Statistics) (candidateVids : List String)
    (forceDisabledTape : Bool) : Except Failure String := do
  let stats ← g.candidateVidsStats forceDisabledTape candidateVids
  if stats.isEmpty then throw .noTapeAvailableForRetrieve
  match shortlistVids (g.sort stats) with
  | [vid] => return vid
  | _ => return candidateVids.getD (g.random % candidateVids.length) ""

end Statistics

structure RetrieveJob where
  copyNb : Nat
  maxTotalRetries : UInt32
  maxRetriesWithinMount : UInt32
  retriesWithinMount : UInt32
  totalRetries : UInt32
  lastMountWithFailure : Nat
  failureLogs : List String
  status : RetrieveJobStatus
  deriving DecidableEq, Repr

structure RetrieveRequest where
  jobs : List RetrieveJob
  isVerifyOnly : Bool
  isRepack : Bool
  repackRequestAddress : String
  forceDisabledTape : Bool
  tapeFiles : List TapeFile
  deriving DecidableEq, Repr

inductive NextStep
  | nothing
  | enqueueForTransferForUser
  | enqueueForReportForUser
  | enqueueForReportForRepack
  deriving DecidableEq, Repr

structure EnqueueingNextStep where
  nextStatus : RetrieveJobStatus
  nextStep : NextStep
  deriving DecidableEq, Repr

def RetrieveJob.addFailure (j : RetrieveJob) (mountId : Nat) (failureReason : String) :
    RetrieveJob :=
  { j with
    retriesWithinMount := if j.lastMountWithFailure = mountId then j.retriesWithinMount + 1 else 1
    lastMountWithFailure := mountId
    totalRetries := j.totalRetries + 1
    failureLogs := j.failureLogs ++ [failureReason] }

namespace RetrieveRequest

def determineNextStep (r : RetrieveRequest) (copyNumberUpdated : Nat) :
    Except Failure EnqueueingNextStep :=
  if r.jobs.any (·.copyNb = copyNumberUpdated) then
    .ok (if r.isRepack then ⟨.toReportToRepackForFailure, .enqueueForReportForRepack⟩
      else ⟨.toReportToUserForFailure, .enqueueForReportForUser⟩)
  else .error .exception

/-- The loop returns with the first job, whether it is the one of the copy or not. -/
def addTransferFailure (r : RetrieveRequest) (copyNumber mountId : Nat) (failureReason : String) :
    Except Failure (RetrieveRequest × EnqueueingNextStep) :=
  match r.jobs with
  | [] => .error .noSuchJob
  | first :: rest =>
    let j := if first.copyNb = copyNumber then first.addFailure mountId failureReason else first
    let r := { r with jobs := j :: rest }
    if r.isVerifyOnly then (r.determineNextStep copyNumber).map (r, ·)
    else if j.totalRetries < j.maxTotalRetries then
      .ok (r, {
        nextStatus := .toTransfer
        nextStep := if j.retriesWithinMount < j.maxRetriesWithinMount then
            .enqueueForTransferForUser
          else .nothing })
    else (r.determineNextStep copyNumber).map (r, ·)

def setStatus (copyNumber : Nat) (status : RetrieveJobStatus) :
    List RetrieveJob → Except Failure (List RetrieveJob)
  | [] => .error .exception
  | j :: rest =>
    if j.copyNb = copyNumber then .ok ({ j with status } :: rest)
    else (setStatus copyNumber status rest).map (j :: ·)

def setJobStatus (r : RetrieveRequest) (copyNumber : Nat) (status : RetrieveJobStatus) :
    Except Failure RetrieveRequest :=
  (setStatus copyNumber status r.jobs).map fun jobs => { r with jobs }

def getJobStatus (r : RetrieveRequest) (copyNumber : Nat) : Except Failure RetrieveJobStatus :=
  match r.jobs.find? (·.copyNb = copyNumber) with
  | some j => .ok j.status
  | none => .error .exception

def vidsWithStatus (r : RetrieveRequest) (status : RetrieveJobStatus) :
    List TapeFile → Except Failure (List String)
  | [] => .ok []
  | tf :: rest => do
    let s ← r.getJobStatus tf.copyNb
    let vids ← r.vidsWithStatus status rest
    return if s = status then tf.vid :: vids else vids

def candidateVids (r : RetrieveRequest) (status : RetrieveJobStatus) :
    Except Failure (List String) :=
  (r.vidsWithStatus status r.tapeFiles).map fun vids => vids.dedup.insertionSort (· ≤ ·)

end RetrieveRequest

/-- The request in the object store, and the copies that the queues refer to. -/
structure Store where
  request : Option RetrieveRequest
  owner : RequestOwner
  references : QueueId → List Nat

structure FailingJob where
  jobOwned : Bool
  agent : String
  selectedCopyNb : Nat
  mountId : Nat
  failureReason : String
  diskSystemName : Option String
  releaseDiskSpace : Except Failure PUnit
  lock : Except Failure PUnit
  commit : Except Failure PUnit
  statistics : Statistics
  switchOwnership : Except Failure PUnit

namespace FailingJob

def fetch : EStateM Failure Store RetrieveRequest := exec fun s =>
  match s.request with
  | some r => .ok (r, s)
  | none => .error .noSuchObject

def commitRequest (job : FailingJob) (r : RetrieveRequest) : EStateM Failure Store PUnit :=
  exec fun s => job.commit.map fun _ => (⟨⟩, { s with request := some r })

/-- `referenceAndSwitchOwnership` of one element: on a failure its reference is taken back. -/
def referenceAndSwitchOwnership (job : FailingJob) (queue : QueueId) (copyNb : Nat) :
    EStateM Failure Store PUnit := exec fun s =>
  if s.owner = .agent job.agent then
    job.switchOwnership.map fun _ => (⟨⟩, { s with
      owner := .queue queue
      references := Function.update s.references queue (s.references queue ++ [copyNb]) })
  else .error .ownershipSwitchFailure

def tapeFileOf (r : RetrieveRequest) (vid : String) : Except Failure TapeFile :=
  match r.tapeFiles.find? (·.vid = vid) with
  | some tf => .ok tf
  | none => .error .retrieveRequestHasNoCopies

def enqueueForReportForUser (job : FailingJob) (r : RetrieveRequest) :
    EStateM Failure Store PUnit := do
  let candidateVids ← ofResult (r.candidateVids .toReportToUserForFailure)
  check (!candidateVids.isEmpty) .exception
  let bestVid ← ofResult (job.statistics.selectBestRetrieveQueue candidateVids false)
  let tf ← ofResult (tapeFileOf r bestVid)
  job.commitRequest r
  job.referenceAndSwitchOwnership (tf.vid, .jobsToReportToUser) tf.copyNb

/-- The sorter queues what is in the object store; it keeps a failed switch to itself. -/
def enqueueForReportForRepack (job : FailingJob) (r : RetrieveRequest) :
    EStateM Failure Store PUnit := do
  check (r.tapeFiles.any (·.copyNb = job.selectedCopyNb)) .exception
  ignoring (fun _ => true) (job.referenceAndSwitchOwnership
    (r.repackRequestAddress, .jobsToReportToRepackForFailure) job.selectedCopyNb)

def enqueueForTransferForUser (job : FailingJob) (r : RetrieveRequest) :
    EStateM Failure Store PUnit := do
  let candidateVids ← ofResult (r.candidateVids .toTransfer)
  check (!candidateVids.isEmpty) .exception
  job.commitRequest r
  let bestVid ← ofResult
    (job.statistics.selectBestRetrieveQueue candidateVids r.forceDisabledTape)
  let tf ← ofResult (tapeFileOf r bestVid)
  job.referenceAndSwitchOwnership (bestVid, .jobsToTransferForUser) tf.copyNb

def applyDecision (job : FailingJob) (r : RetrieveRequest) :
    NextStep → EStateM Failure Store PUnit
  | .nothing => job.commitRequest r
  | .enqueueForReportForUser => job.enqueueForReportForUser r
  | .enqueueForReportForRepack => job.enqueueForReportForRepack r
  | .enqueueForTransferForUser => job.enqueueForTransferForUser r

def failTransfer (job : FailingJob) : EStateM Failure Store PUnit := do
  check job.jobOwned .jobNotOwned
  ofResult (if job.diskSystemName.isSome then job.releaseDiskSpace else .ok ⟨⟩)
  ofResult job.lock
  let r ← fetch
  let (r, enQueueingNextStep) ← ofResult
    (r.addTransferFailure job.selectedCopyNb job.mountId job.failureReason)
  let r ← ofResult (r.setJobStatus job.selectedCopyNb enQueueingNextStep.nextStatus)
  job.applyDecision r enQueueingNextStep.nextStep

end FailingJob

namespace RetrieveRequest

structure WellFormed (r : RetrieveRequest) : Prop where
  copies : r.jobs.map (·.copyNb) = r.tapeFiles.map (·.copyNb)
  nodup : (r.jobs.map (·.copyNb)).Nodup

def exhausted (r : RetrieveRequest) (copyNb : Nat) : Bool :=
  r.isVerifyOnly || r.jobs.any fun j => j.copyNb = copyNb ∧ j.maxTotalRetries ≤ j.totalRetries + 1

def failedStatus (r : RetrieveRequest) (copyNb : Nat) : RetrieveJobStatus :=
  if r.exhausted copyNb then
    if r.isRepack then .toReportToRepackForFailure else .toReportToUserForFailure
  else .toTransfer

def withFailure (r : RetrieveRequest) (copyNb mountId : Nat) (failureReason : String) :
    RetrieveRequest :=
  { r with jobs := r.jobs.map fun j =>
    if j.copyNb = copyNb then
      { j.addFailure mountId failureReason with status := r.failedStatus copyNb }
    else j }

/-- The vids of the copies to report when this one is: it and those that wait already. -/
def reportVids (r : RetrieveRequest) (copyNb : Nat) : List String :=
  ((r.tapeFiles.filter fun tf => tf.copyNb = copyNb ∨ r.jobs.any fun j =>
    j.copyNb = tf.copyNb ∧ j.status = .toReportToUserForFailure).map (·.vid)).dedup.insertionSort
      (· ≤ ·)

def totalRetriesOf (r : RetrieveRequest) (copyNb : Nat) : Option UInt32 :=
  (r.jobs.find? (·.copyNb = copyNb)).map (·.totalRetries)

end RetrieveRequest

structure FailingJob.Owns (job : FailingJob) (s : Store) (r : RetrieveRequest) : Prop where
  jobOwned : job.jobOwned = true
  request : s.request = some r
  owner : s.owner = .agent job.agent
  wellFormed : r.WellFormed
  copy : job.selectedCopyNb ∈ r.jobs.map (·.copyNb)

/-- The failure is in the object store; a user's request that will not be retried is in the queue to
report one of its copies. -/
structure FailingJob.Recorded (job : FailingJob) (r : RetrieveRequest) (t : Store) : Prop where
  request : t.request =
    some (r.withFailure job.selectedCopyNb job.mountId job.failureReason)
  queued : r.isRepack = false → r.exhausted job.selectedCopyNb = true →
    ∃ tf ∈ r.tapeFiles, t.owner = .queue (tf.vid, .jobsToReportToUser) ∧
      tf.copyNb ∈ t.references (tf.vid, .jobsToReportToUser)

/-- A queue to report in is found: the tapes are all looked up, one is active, and a queue better
than the others is that of a copy. -/
structure Statistics.Finds (g : Statistics) (vids tapes : List String) : Prop where
  lookUp : ∀ vid ∈ vids, ∃ entry, g.entry vid = .ok entry
  active : ∃ vid ∈ vids, ∃ entry, g.entry vid = .ok entry ∧ entry.tapeStatus = .active
  best : ∀ stats vid, g.candidateVidsStats false vids = .ok stats →
    Statistics.shortlistVids (g.sort stats) = [vid] → vid ∈ tapes

structure FailingJob.Records (job : FailingJob) (r : RetrieveRequest) : Prop where
  releaseDiskSpace : job.diskSystemName.isSome → job.releaseDiskSpace = .ok ⟨⟩
  lock : job.lock = .ok ⟨⟩
  commit : job.commit = .ok ⟨⟩
  first : r.jobs.head?.map (·.copyNb) = some job.selectedCopyNb
  user : r.exhausted job.selectedCopyNb = true → r.isRepack = false
  queue : r.exhausted job.selectedCopyNb = true →
    job.statistics.Finds (r.reportVids job.selectedCopyNb) (r.tapeFiles.map (·.vid)) ∧
      job.switchOwnership = .ok ⟨⟩

def FailingJob.after (job : FailingJob) (s : Store) : Store :=
  Lib.Transactions.after job.failTransfer s

section
variable {g : Statistics} {r : RetrieveRequest} {job : FailingJob} {s : Store}
  {P : Option RetrieveRequest → Prop}
  {copyNb mountId : Nat} {failureReason : String} {force : Bool} {vids : List String}

theorem candidateVidsStats_ok (force : Bool)
    (h : ∀ vid ∈ vids, ∃ entry, g.entry vid = .ok entry) :
    ∃ stats, g.candidateVidsStats force vids = .ok stats ∧
      (stats ≠ [] ↔ ∃ vid ∈ vids, ∃ entry, g.entry vid = .ok entry ∧
        Statistics.usable force entry = true) := by
  induction vids with
  | nil => exact ⟨[], rfl, by simp⟩
  | cons vid vids ih =>
    obtain ⟨entry, hentry⟩ := h vid List.mem_cons_self
    obtain ⟨rest, hrest, hne⟩ := ih fun v hv => h v (List.mem_cons_of_mem vid hv)
    refine ⟨if Statistics.usable force entry then entry.stats :: rest else rest, ?_, ?_⟩
    · rw [Statistics.candidateVidsStats, hentry, hrest]
      rfl
    · rw [List.exists_mem_cons_iff, ← hne]
      cases husable : Statistics.usable force entry with
      | true => simp [hentry, husable]
      | false => simp [hentry, husable]

theorem entry_of_candidateVidsStats {stats : List RetrieveQueueStatistics}
    (h : g.candidateVidsStats force vids = .ok stats) :
    ∀ vid ∈ vids, ∃ entry, g.entry vid = .ok entry := by
  induction vids generalizing stats with
  | nil => exact fun _ hv => absurd hv List.not_mem_nil
  | cons vid vids ih =>
    obtain ⟨entry, hentry, hrest⟩ := except_bind_eq_ok.mp h
    obtain ⟨rest, hrest, -⟩ := except_bind_eq_ok.mp hrest
    exact List.forall_mem_cons.mpr ⟨⟨entry, hentry⟩, ih hrest⟩

theorem usable_false {entry : RetrieveQueueStatisticsWithTime} :
    Statistics.usable false entry = true ↔ entry.tapeStatus = .active := by
  simp [Statistics.usable]

theorem getD_mod_mem {α : Type} {xs : List α} (h : xs ≠ []) (n : Nat) (a : α) :
    xs.getD (n % xs.length) a ∈ xs := by
  have hn : n % xs.length < xs.length := Nat.mod_lt n (List.length_pos_iff.mpr h)
  rw [List.getD_eq_getElem?_getD, List.getElem?_eq_getElem hn]
  exact List.getElem_mem hn

theorem selectBestRetrieveQueue_of_stats {stats : List RetrieveQueueStatistics}
    (h : g.candidateVidsStats force vids = .ok stats) (hne : stats ≠ []) :
    g.selectBestRetrieveQueue vids force = match Statistics.shortlistVids (g.sort stats) with
      | [vid] => .ok vid
      | _ => .ok (vids.getD (g.random % vids.length) "") := by
  rw [Statistics.selectBestRetrieveQueue, h]
  cases stats with
  | nil => exact absurd rfl hne
  | cons s rest => rfl

theorem selectBestRetrieveQueue_of_empty (h : g.candidateVidsStats force vids = .ok []) :
    g.selectBestRetrieveQueue vids force = .error .noTapeAvailableForRetrieve := by
  rw [Statistics.selectBestRetrieveQueue, h]
  rfl

theorem selectBestRetrieveQueue_iff {tapes : List String} (hsub : ∀ vid ∈ vids, vid ∈ tapes) :
    (∃ vid ∈ tapes, g.selectBestRetrieveQueue vids false = .ok vid) ↔ g.Finds vids tapes := by
  constructor
  · rintro ⟨vid, hvid, h⟩
    obtain ⟨stats, hstats, -⟩ := except_bind_eq_ok.mp h
    have hlookUp := entry_of_candidateVidsStats hstats
    obtain ⟨other, hother, hactive⟩ := candidateVidsStats_ok false hlookUp
    obtain rfl : other = stats := Except.ok.inj (hother.symm.trans hstats)
    have hne : other ≠ [] := by
      rintro rfl
      rw [selectBestRetrieveQueue_of_empty hstats] at h
      cases h
    refine ⟨hlookUp, by simpa only [usable_false] using hactive.mp hne, ?_⟩
    intro stats v hstats' hbest
    obtain rfl : stats = other := Except.ok.inj (hstats'.symm.trans hstats)
    rw [selectBestRetrieveQueue_of_stats hstats hne, hbest] at h
    cases h
    exact hvid
  · intro h
    obtain ⟨stats, hstats, hactive⟩ := candidateVidsStats_ok false h.lookUp
    have hne : stats ≠ [] := by
      rw [hactive]
      simpa only [usable_false] using h.active
    have hvids : vids ≠ [] := by
      obtain ⟨vid, hvid, -⟩ := h.active
      exact List.ne_nil_of_mem hvid
    rw [selectBestRetrieveQueue_of_stats hstats hne]
    split
    · next vid hbest => exact ⟨vid, h.best stats vid hstats hbest, rfl⟩
    · exact ⟨_, hsub _ (getD_mod_mem hvids g.random ""), rfl⟩

end

end Cta.Scheduler.RetrieveFailure
