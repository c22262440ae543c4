import Cta.ObjectStore.PopNextBatch
import Cta.ObjectStore.QueueCandidates

/-! Popping a batch of limited files and bytes from a to-transfer queue, round after round. -/
namespace Cta.ObjectStore.Popping
open CandidateList (JobView CandidateJobList getCandidateJobList)
open PopNextBatch (Results decisions failedOwnershipSwitchElements toDereference)

structure DiskSystemToSkip where
  name : String
  sleepTime : UInt64
  deriving DecidableEq, Repr

@[ext]
structure PoppedElementsSummary where
  files : UInt64 := 0
  bytes : UInt64 := 0
  deriving DecidableEq, Repr

structure PopCriteria where
  files : UInt64 := 0
  bytes : UInt64 := 0
  diskSystemsToSkip : List DiskSystemToSkip := []
  deriving DecidableEq, Repr

instance : Add PoppedElementsSummary := ⟨fun s t => ⟨s.files + t.files, s.bytes + t.bytes⟩⟩

instance : Sub PoppedElementsSummary := ⟨fun s t => ⟨s.files - t.files, s.bytes - t.bytes⟩⟩

def PoppedElementsSummary.below (s : PoppedElementsSummary) (pc : PopCriteria) : Bool :=
  decide (s.bytes < pc.bytes) && decide (s.files < pc.files)

def PopCriteria.less (pc : PopCriteria) (pes : PoppedElementsSummary) : PopCriteria :=
  { pc with bytes := pc.bytes - pes.bytes, files := pc.files - pes.files }

structure PoppedElement where
  address : Address
  copyNb : Nat
  bytes : UInt64
  deriving DecidableEq, Repr

structure PoppedElementsBatch where
  elements : List PoppedElement := []
  summary : PoppedElementsSummary := {}
  deriving DecidableEq, Repr

structure QueuedJob where
  address : Address
  copyNb : Nat
  size : UInt64
  diskSystemName : Option String := none
  deriving DecidableEq, Repr

structure SleepInfo where
  sleepStartTime : Int64
  diskSystemSleptFor : String
  sleepTime : UInt64
  deriving DecidableEq, Repr

/-- A queue: its jobs, shard after shard, and whether it sleeps. -/
structure Container where
  jobs : List QueuedJob
  sleepInfo : Option SleepInfo := none
  deriving DecidableEq, Repr

inductive Kind where
  | retrieve
  | archiveForUser
  | archiveForRepack
  deriving DecidableEq, Repr

/-- A request is queued once in a queue, as its copies have different tape pools and are on different
tapes. -/
def Container.removeJobsAndCommit (cont : Container) (jobsToRemove : List Address) : Container :=
  { cont with jobs := cont.jobs.filter fun j => decide (j.address ∉ jobsToRemove) }

/-- The candidates of a queue, which do not depend on how its jobs are spread over shards. -/
def getCandidateList {J D : Type} (v : JobView J D) (maxBytes : UInt64) (maxFiles : Nat)
    (jobs : List J) : CandidateJobList D :=
  if 0 < maxBytes ∧ 0 < maxFiles then
    getCandidateJobList v maxBytes maxFiles ⟨jobs, (jobs.map v.size).sum⟩
  else {}

def QueuedJob.toElement (j : QueuedJob) : PoppedElement := ⟨j.address, j.copyNb, j.size⟩

def jobView (elementsToSkip : List Address) (diskSystemsToSkip : List String) :
    JobView QueuedJob PoppedElement where
  size := (·.size)
  skipped j := elementsToSkip.contains j.address ||
    diskSystemsToSkip.contains (j.diskSystemName.getD "")
  dump := QueuedJob.toElement

def archiveJobView (elementsToSkip : List Address) : JobView QueuedJob PoppedElement where
  size := (·.size)
  skipped j := elementsToSkip.contains j.address
  dump := QueuedJob.toElement

def PoppedElementsBatch.push (b : PoppedElementsBatch) (e : PoppedElement) : PoppedElementsBatch :=
  ⟨b.elements ++ [e], ⟨b.summary.files + 1, b.summary.bytes + e.bytes⟩⟩

def PoppedElementsBatch.pushFile (b : PoppedElementsBatch) (e : PoppedElement) :
    PoppedElementsBatch :=
  ⟨b.elements ++ [e], { b.summary with files := b.summary.files + 1 }⟩

/-- Without candidates, and with disk systems and nothing else to skip, the queue is put to sleep
for the first of them. -/
def RetrieveQueueToTransfer.getPoppingElementsCandidates (now : Int64) (cont : Container)
    (unfulfilledCriteria : PopCriteria) (elementsToSkip : List Address) :
    PoppedElementsBatch × Container :=
  let diskSystemsToSkipNames := unfulfilledCriteria.diskSystemsToSkip.map (·.name)
  let candidates := (getCandidateList (jobView elementsToSkip diskSystemsToSkipNames)
    unfulfilledCriteria.bytes unfulfilledCriteria.files.toNat cont.jobs).candidates
  match unfulfilledCriteria.diskSystemsToSkip with
  | ds :: _ =>
    if candidates = [] ∧ cont.jobs.length ≠ 0 ∧ elementsToSkip = [] then
      ({}, { cont with sleepInfo := some ⟨now, ds.name, ds.sleepTime⟩ })
    else (candidates.foldl PoppedElementsBatch.push {}, cont)
  | [] => (candidates.foldl PoppedElementsBatch.push {}, cont)

def ArchiveQueueToTransferForUser.getPoppingElementsCandidates (cont : Container)
    (unfulfilledCriteria : PopCriteria) (elementsToSkip : List Address) : PoppedElementsBatch :=
  (getCandidateList (archiveJobView elementsToSkip) unfulfilledCriteria.bytes
    unfulfilledCriteria.files.toNat cont.jobs).candidates.foldl PoppedElementsBatch.push {}

def ArchiveQueueToTransferForRepack.getPoppingElementsCandidates (cont : Container)
    (unfulfilledCriteria : PopCriteria) (elementsToSkip : List Address) : PoppedElementsBatch :=
  (getCandidateList (archiveJobView elementsToSkip) 0xffffffffffffffff
    unfulfilledCriteria.files.toNat cont.jobs).candidates.foldl PoppedElementsBatch.pushFile {}

namespace Kind

def getPoppingElementsCandidates (now : Int64) (cont : Container)
    (unfulfilledCriteria : PopCriteria) (elementsToSkip : List Address) :
    Kind → PoppedElementsBatch × Container
  | retrieve => RetrieveQueueToTransfer.getPoppingElementsCandidates now cont unfulfilledCriteria
      elementsToSkip
  | archiveForUser => (ArchiveQueueToTransferForUser.getPoppingElementsCandidates cont
      unfulfilledCriteria elementsToSkip, cont)
  | archiveForRepack => (ArchiveQueueToTransferForRepack.getPoppingElementsCandidates cont
      unfulfilledCriteria elementsToSkip, cont)

/-- Queues for repack have no summary of their own and take that of archive queues in general. -/
def getElementSummary (e : PoppedElement) : Kind → PoppedElementsSummary
  | retrieve | archiveForUser => ⟨1, e.bytes⟩
  | archiveForRepack => { files := 1 }

end Kind

inductive RemovalError where
  | queueNotEmpty
  | other
  deriving DecidableEq, Repr

def removeQueueAndCommit (fails : Bool) (cont : Container) : Except RemovalError Unit :=
  if fails then .error .other
  else if cont.jobs ≠ [] then .error .queueNotEmpty
  else .ok ()

def RetrieveQueue.trimContainerIfNeeded (fails : Bool) (cont : Container) :
    Bool × Option Container :=
  if cont.jobs ≠ [] then (cont.sleepInfo.isSome, some cont)
  else
    match removeQueueAndCommit fails cont with
    | .ok () => (true, none)
    | .error .queueNotEmpty => (false, some cont)
    | .error .other => (true, some cont)

def ArchiveQueue.trimContainerIfNeeded (fails : Bool) (cont : Container) :
    Bool × Option Container :=
  if cont.jobs ≠ [] then (false, some cont)
  else
    match removeQueueAndCommit fails cont with
    | .ok () => (true, none)
    | .error _ => (true, some cont)

def Kind.trimContainerIfNeeded (fails : Bool) (cont : Container) : Kind → Bool × Option Container
  | retrieve => RetrieveQueue.trimContainerIfNeeded fails cont
  | archiveForUser | archiveForRepack => ArchiveQueue.trimContainerIfNeeded fails cont

structure PopState where
  ret : PoppedElementsBatch := {}
  unfulfilledCriteria : PopCriteria
  elementsToSkip : List Address := []
  unexpectedException : Bool := false
  didTrim : Bool := false
  container : Option Container

/-- What a round meets: the time, the elements that cannot be switched and whether the empty queue
cannot be removed. -/
structure Outcome where
  now : Int64 := 0
  failure : PoppedElement → Option SwitchFailure
  removalFails : Bool := false

def PopState.goesOn (popCriteria : PopCriteria) (s : PopState) : Bool :=
  !s.unexpectedException && s.ret.summary.below popCriteria && !s.didTrim

/-- The elements that could not be switched are taken off the summary of the batch. -/
def Kind.withoutFailed (k : Kind) (candidateElements : PoppedElementsBatch) (results : Results) :
    PoppedElementsBatch where
  elements := candidateElements.elements.filter fun e =>
    decide (e.address ∉ (decisions results).elementsNotToReport)
  summary := (candidateElements.elements.filter fun e =>
    decide (e.address ∈ (decisions results).elementsNotToReport)).foldl
      (fun batchSummary e => batchSummary - k.getElementSummary e) candidateElements.summary

def PopState.report (s : PopState) (b : PoppedElementsBatch) : PopState :=
  { s with
    ret := ⟨s.ret.elements ++ b.elements, s.ret.summary + b.summary⟩
    unfulfilledCriteria := s.unfulfilledCriteria.less b.summary }

def Outcome.results (o : Outcome) (candidateElements : PoppedElementsBatch) : Results :=
  candidateElements.elements.map fun e => (e.address, o.failure e)

def PoppedElementsBatch.addresses (b : PoppedElementsBatch) : List Address :=
  b.elements.map (·.address)

def popRound (k : Kind) (o : Outcome) (s : PopState) : Option PopState :=
  s.container.map fun cont =>
    let (candidateElements, cont) := k.getPoppingElementsCandidates o.now cont
      s.unfulfilledCriteria s.elementsToSkip
    let results := o.results candidateElements
    if failedOwnershipSwitchElements results = [] then
      let (didTrim, container) := k.trimContainerIfNeeded o.removalFails
        (cont.removeJobsAndCommit candidateElements.addresses)
      { s.report candidateElements with didTrim, container }
    else
      let (_, container) := k.trimContainerIfNeeded o.removalFails
        (cont.removeJobsAndCommit (toDereference candidateElements.addresses results))
      { s.report (k.withoutFailed candidateElements results) with
        elementsToSkip :=
          s.elementsToSkip ++ (decisions results).elementsNotToDereferenceFromContainer
        unexpectedException := s.unexpectedException || (decisions results).unexpectedException
        container }

def popLoop (k : Kind) (popCriteria : PopCriteria) (outcomes : Nat → Outcome) :
    Nat → Nat → PopState → Option PoppedElementsBatch
  | fuel, n, s =>
    if s.goesOn popCriteria then
      match fuel with
      | 0 => none
      | fuel + 1 =>
        match popRound k (outcomes n) s with
        | none => some s.ret
        | some s' => popLoop k popCriteria outcomes fuel (n + 1) s'
    else some s.ret

def startPop (popCriteria : PopCriteria) (cont : Container) : PopState where
  unfulfilledCriteria := popCriteria
  container := some cont

def popNextBatch (k : Kind) (popCriteria : PopCriteria) (cont : Container)
    (outcomes : Nat → Outcome) (rounds : Nat) : Option PoppedElementsBatch :=
  popLoop k popCriteria outcomes rounds 0 (startPop popCriteria cont)

end Cta.ObjectStore.Popping
