import Cta.Lib.PartedStore
import Cta.ObjectStore.ShardRemoval
import Cta.ObjectStore.ValueCountMap

/-! Archive queues: a queue object that points to shards filled in order of arrival,
with running summaries. -/
namespace Cta.ObjectStore
open StoreError Cta.Lib.Sequence Cta.Lib.PartedStore

namespace ArchiveQueue

structure JobToAdd where
  copyNb : Nat
  archiveRequestAddress : Address
  archiveFileId : Nat
  fileSize : UInt64
  policy : MountPolicy
  startTime : Int64
  deriving DecidableEq, Repr

def maxShardSize : Nat := 25000

end ArchiveQueue

open ArchiveQueue (JobToAdd maxShardSize)

structure ArchiveJobPointer where
  fileId : Nat
  size : UInt64
  address : Address
  copyNb : Nat
  priority : Nat
  minArchiveRequestAge : Nat
  startTime : UInt64
  mountPolicyName : String
  deriving DecidableEq, Repr

structure ArchiveQueueShard where
  archiveJobs : List ArchiveJobPointer
  archiveJobsTotalSize : UInt64
  deriving DecidableEq, Repr

def ArchiveQueue.JobToAdd.toPointer (j : JobToAdd) : ArchiveJobPointer where
  fileId := j.archiveFileId
  size := j.fileSize
  address := j.archiveRequestAddress
  copyNb := j.copyNb
  priority := j.policy.archivePriority
  minArchiveRequestAge := j.policy.archiveMinRequestAge
  startTime := j.startTime.toUInt64
  mountPolicyName := j.policy.name

namespace ArchiveQueueShard

structure JobInfo where
  size : UInt64
  address : Address
  copyNb : Nat
  priority : Nat
  minArchiveRequestAge : Nat
  startTime : Int64
  mountPolicyName : String
  deriving DecidableEq, Repr

structure JobsSummary where
  jobs : Nat := 0
  bytes : UInt64 := 0
  deriving DecidableEq, Repr

def initialized : ArchiveQueueShard := ⟨[], 0⟩

def rebuild (s : ArchiveQueueShard) : ArchiveQueueShard :=
  { s with archiveJobsTotalSize := (s.archiveJobs.map (·.size)).sum }

def getJobsSummary (s : ArchiveQueueShard) : JobsSummary :=
  ⟨s.archiveJobs.length, s.archiveJobsTotalSize⟩

def addJob (s : ArchiveQueueShard) (j : JobToAdd) : ArchiveQueueShard where
  archiveJobs := s.archiveJobs ++ [j.toPointer]
  archiveJobsTotalSize := s.archiveJobsTotalSize + j.fileSize

end ArchiveQueueShard

def ArchiveJobPointer.toInfo (p : ArchiveJobPointer) : ArchiveQueueShard.JobInfo where
  size := p.size
  address := p.address
  copyNb := p.copyNb
  priority := p.priority
  minArchiveRequestAge := p.minArchiveRequestAge
  startTime := p.startTime.toInt64
  mountPolicyName := p.mountPolicyName

namespace ArchiveQueueShard

def dumpJobs (s : ArchiveQueueShard) : List JobInfo :=
  s.archiveJobs.map fun p => { p.toInfo with copyNb := p.copyNb % 2^16 }

def jobFields : ShardRemoval.JobFields ArchiveJobPointer JobInfo :=
  ⟨(·.address), (·.size), ArchiveJobPointer.toInfo⟩

def removeJobs (s : ArchiveQueueShard) (jobsToRemove : List Address) :
    ArchiveQueueShard × ShardRemoval.RemovalResult JobInfo :=
  let r := ShardRemoval.removeJobs jobFields s.archiveJobs s.archiveJobsTotalSize jobsToRemove
  (⟨r.jobs, r.jobsTotalSize⟩, r.result)

end ArchiveQueueShard

structure ArchiveQueueShardPointer where
  address : ShardAddress
  shardJobsCount : Nat
  shardBytesCount : UInt64
  deriving DecidableEq, Repr

structure ArchiveQueue where
  archiveQueueShards : List ArchiveQueueShardPointer
  priorityMap : ValueCountMap Nat
  minArchiveRequestAgeMap : ValueCountMap Nat
  mountPolicyNameMap : ValueCountMap String
  archiveJobsTotalSize : UInt64
  archiveJobsCount : Nat
  oldestJobCreationTime : UInt64
  youngestJobCreationTime : UInt64
  deriving DecidableEq, Repr

namespace ArchiveQueue

def initialized : ArchiveQueue where
  archiveQueueShards := []
  priorityMap := []
  minArchiveRequestAgeMap := []
  mountPolicyNameMap := []
  archiveJobsTotalSize := 0
  archiveJobsCount := 0
  oldestJobCreationTime := 0
  youngestJobCreationTime := 0

abbrev Queue := World ArchiveQueue ArchiveQueueShard Empty
abbrev Op := Program StoreError ArchiveQueue ArchiveQueueShard Empty

def checkMapsAndShardsCoherency (p : ArchiveQueue) : Except StoreError Bool := do
  let bytesFromShardPointers := (p.archiveQueueShards.map (·.shardBytesCount)).sum
  let jobsExpectedFromShardsPointers := (p.archiveQueueShards.map (·.shardJobsCount)).sum
  if p.archiveJobsTotalSize ≠ bytesFromShardPointers ∨
      p.archiveJobsCount ≠ jobsExpectedFromShardsPointers then
    return false
  if (← p.priorityMap.total) ≠ p.archiveJobsCount then return false
  if (← p.minArchiveRequestAgeMap.total) ≠ p.archiveJobsCount then return false
  if (← p.mountPolicyNameMap.total) ≠ p.archiveJobsCount then return false
  return true

def fetchShard (a : ShardAddress) : Op ArchiveQueueShard := do
  fromOption noSuchObject (← lookupPart a)

structure StartTimes where
  oldest : Int64 := Int64.maxValue
  youngest : Int64 := Int64.minValue
  deriving DecidableEq, Repr

def StartTimes.note (t : StartTimes) (startTime : Int64) : StartTimes where
  oldest := if startTime < t.oldest then startTime else t.oldest
  youngest := if t.youngest < startTime then startTime else t.youngest

def StartTimes.noteAll (t : StartTimes) (js : List ArchiveQueueShard.JobInfo) : StartTimes :=
  js.foldl (fun t j => t.note j.startTime) t

structure RebuildTotals where
  totalJobs : Nat := 0
  totalBytes : UInt64 := 0
  times : StartTimes := {}
  deriving DecidableEq, Repr

def countJob (p : ArchiveQueue) (j : ArchiveQueueShard.JobInfo) :
    Except StoreError ArchiveQueue := do
  let priorityMap ← p.priorityMap.incCount j.priority
  let minArchiveRequestAgeMap ← p.minArchiveRequestAgeMap.incCount j.minArchiveRequestAge
  let mountPolicyNameMap ← p.mountPolicyNameMap.incCount j.mountPolicyName
  return { p with priorityMap, minArchiveRequestAgeMap, mountPolicyNameMap }

def recordSummary (a : ShardAddress) (jobs : Nat) (size : UInt64) :
    List ArchiveQueueShardPointer → Option (List ArchiveQueueShardPointer)
  | [] => none
  | q :: qs =>
    if q.address = a then
      some ({ q with shardJobsCount := jobs, shardBytesCount := size } :: qs)
    else (recordSummary a jobs size qs).map (q :: ·)

def dropPointer (a : ShardAddress) (p : ArchiveQueue) : ArchiveQueue :=
  { p with archiveQueueShards := p.archiveQueueShards.filter fun q => decide (q.address ≠ a) }

def rebuildShard (a : ShardAddress) (found : Option ArchiveQueueShard) (t : RebuildTotals) :
    Op RebuildTotals := do
  let p ← getMemory
  match found with
  | none =>
    setMemory (dropPointer a p)
    return t
  | some s =>
    let js := s.dumpJobs
    let size := (js.map (·.size)).sum
    let p ← fromExcept (js.foldlM countJob p)
    let shards ← fromOption noShardForSummary
      (recordSummary a js.length size p.archiveQueueShards)
    setMemory { p with archiveQueueShards := shards }
    if size ≠ s.getJobsSummary.bytes then
      putPart a (← fetchShard a).rebuild
    return ⟨t.totalJobs + js.length, t.totalBytes + size, t.times.noteAll js⟩

def rebuildShards : List (ShardAddress × Option ArchiveQueueShard) → RebuildTotals →
    Op RebuildTotals
  | [], t => return t
  | (a, found) :: rest, t => do rebuildShards rest (← rebuildShard a found t)

def lookupShards : Op (List (ShardAddress × Option ArchiveQueueShard)) := do
  (← getMemory).archiveQueueShards.mapM fun q => do return (q.address, ← lookupPart q.address)

def rebuild : Op Unit := do
  let p ← getMemory
  setMemory { p with
    priorityMap := p.priorityMap.clear
    minArchiveRequestAgeMap := p.minArchiveRequestAgeMap.clear
    mountPolicyNameMap := p.mountPolicyNameMap.clear }
  let t ← rebuildShards (← lookupShards) {}
  let p ← getMemory
  setMemory { p with
    archiveJobsCount := t.totalJobs
    archiveJobsTotalSize := t.totalBytes
    oldestJobCreationTime := t.times.oldest.toUInt64
    youngestJobCreationTime := t.times.youngest.toUInt64 }

def recomputeShards : List (ShardAddress × Option ArchiveQueueShard) → StartTimes → Op StartTimes
  | [], t => return t
  | (a, none) :: rest, t => do
    setMemory (dropPointer a (← getMemory))
    recomputeShards rest t
  | (_, some s) :: rest, t => recomputeShards rest (t.noteAll s.dumpJobs)

def StartTimes.record (t : StartTimes) (p : ArchiveQueue) : ArchiveQueue :=
  { p with
    oldestJobCreationTime :=
      if t.oldest ≠ Int64.maxValue then t.oldest.toUInt64 else p.oldestJobCreationTime
    youngestJobCreationTime :=
      if t.youngest ≠ Int64.minValue then t.youngest.toUInt64 else p.youngestJobCreationTime }

def recomputeOldestAndYoungestJobCreationTime : Op Unit := do
  let t ← recomputeShards (← lookupShards) {}
  setMemory (t.record (← getMemory))

def commit : Op Unit := do
  if !(← fromExcept (checkMapsAndShardsCoherency (← getMemory))) then rebuild
  commitRoot

def accountJob (p : ArchiveQueue) (j : JobToAdd) : Except StoreError ArchiveQueue := do
  let priorityMap ← p.priorityMap.incCount j.policy.archivePriority
  let minArchiveRequestAgeMap ← p.minArchiveRequestAgeMap.incCount j.policy.archiveMinRequestAge
  let mountPolicyNameMap ← p.mountPolicyNameMap.incCount j.policy.name
  let startTime := j.startTime.toUInt64
  if p.archiveJobsCount ≠ 0 then
    return { p with
      priorityMap, minArchiveRequestAgeMap, mountPolicyNameMap
      oldestJobCreationTime :=
        if startTime < p.oldestJobCreationTime then startTime else p.oldestJobCreationTime
      youngestJobCreationTime :=
        if p.youngestJobCreationTime < startTime then startTime else p.youngestJobCreationTime
      archiveJobsTotalSize := p.archiveJobsTotalSize + j.fileSize
      archiveJobsCount := p.archiveJobsCount + 1 }
  else
    return { p with
      priorityMap, minArchiveRequestAgeMap, mountPolicyNameMap
      oldestJobCreationTime := startTime
      youngestJobCreationTime := startTime
      archiveJobsTotalSize := j.fileSize
      archiveJobsCount := p.archiveJobsCount + 1 }

/-- A shard being filled, with its pointer and the queue that accounts for it. -/
structure Filling where
  queue : ArchiveQueue
  pointer : ArchiveQueueShardPointer
  aqs : ArchiveQueueShard

/-- Add jobs until there are no more or the shard is full. Returns the jobs left. -/
def fillShard : List JobToAdd → Filling → Except StoreError (Filling × List JobToAdd)
  | [], x => .ok (x, [])
  | j :: js, x =>
    if x.pointer.shardJobsCount < maxShardSize then do
      let queue ← accountJob x.queue j
      let aqs := x.aqs.addJob j
      fillShard js
        { queue, aqs, pointer := { x.pointer with
          shardJobsCount := aqs.archiveJobs.length
          shardBytesCount := x.pointer.shardBytesCount + j.fileSize } }
    else .ok (x, j :: js)

/-- Fill the last shard, then commit the queue, so that the shard is referenced in all
cases, and the shard. -/
def fillAndStore (before : List ArchiveQueueShardPointer) (pointer : ArchiveQueueShardPointer)
    (aqs : ArchiveQueueShard) (jobsToAdd : List JobToAdd) : Op (List JobToAdd) := do
  let (x, rest) ← fromExcept (fillShard jobsToAdd ⟨← getMemory, pointer, aqs⟩)
  setMemory { x.queue with archiveQueueShards := before ++ [x.pointer] }
  commit
  putPart pointer.address x.aqs
  return rest

def addToNewShard (jobsToAdd : List JobToAdd) : Op (List JobToAdd) := do
  let address ← freshId
  let p ← getMemory
  fillAndStore p.archiveQueueShards ⟨address, 0, 0⟩ ArchiveQueueShard.initialized jobsToAdd

/-- The last shard is validated against its pointer first; the queue is rebuilt, and no job
added, if it is gone or does not match. -/
def addToLastShard (before : List ArchiveQueueShardPointer)
    (shardPointer : ArchiveQueueShardPointer) (jobsToAdd : List JobToAdd) :
    Op (List JobToAdd) := do
  match ← lookupPart shardPointer.address with
  | none =>
    rebuild
    commit
    return jobsToAdd
  | some aqs =>
    let shardSummary := aqs.getJobsSummary
    if shardPointer.shardBytesCount ≠ shardSummary.bytes ∨
        shardPointer.shardJobsCount ≠ shardSummary.jobs then
      rebuild
      commit
      return jobsToAdd
    else fillAndStore before shardPointer aqs jobsToAdd

/-- One round: the last shard if it is not full, else a new one. Returns the jobs left. -/
def addRound (jobsToAdd : List JobToAdd) : Op (List JobToAdd) := do
  let shards := (← getMemory).archiveQueueShards
  match shards.getLast? with
  | some shardPointer =>
    if shardPointer.shardJobsCount < maxShardSize then
      addToLastShard shards.dropLast shardPointer jobsToAdd
    else addToNewShard jobsToAdd
  | none => addToNewShard jobsToAdd

/-- A round that adds no job leaves a rebuilt queue, on which the next round adds one, so
one round more than jobs is enough. -/
def addLoop : Nat → List JobToAdd → Op Unit
  | _, [] => return ()
  | 0, _ :: _ => throw endless
  | n+1, j :: js => do addLoop n (← addRound (j :: js))

def addJobsAndCommit (jobsToAdd : List JobToAdd) : Op Unit :=
  addLoop (jobsToAdd.length + 1) jobsToAdd

def forgetJob (p : ArchiveQueue) (j : ArchiveQueueShard.JobInfo) :
    Except StoreError ArchiveQueue := do
  let priorityMap ← p.priorityMap.decCount j.priority
  let minArchiveRequestAgeMap ← p.minArchiveRequestAgeMap.decCount j.minArchiveRequestAge
  let mountPolicyNameMap ← p.mountPolicyNameMap.decCount j.mountPolicyName
  return { p with priorityMap, minArchiveRequestAgeMap, mountPolicyNameMap }

def setPointer (i : Nat) (q : ArchiveQueueShardPointer) : Op Unit := do
  let p ← getMemory
  setMemory { p with archiveQueueShards := p.archiveQueueShards.set i q }

/-- One round of the removal: the shard at the index is updated or dropped, then the
queue. Returns the addresses still to remove and the next index. -/
def removeFromShard (localJobsToRemove : List Address) (shardIndex : Nat) :
    Op (List Address × Nat) := do
  let q ← fromOption outOfRange (← getMemory).archiveQueueShards[shardIndex]?
  let aqs ← fetchShard q.address
  let (aqs, removalResult) := aqs.removeJobs localJobsToRemove
  if removalResult.jobsAfter ≠ 0 then putPart q.address aqs else dropPart q.address
  let p ← fromExcept (removalResult.removedJobs.foldlM forgetJob (← getMemory))
  setMemory { p with
    archiveJobsCount := sub64 p.archiveJobsCount removalResult.jobsRemoved
    archiveJobsTotalSize := p.archiveJobsTotalSize - removalResult.bytesRemoved }
  let next ← if removalResult.jobsAfter ≠ 0 then do
      let q := { q with
        shardBytesCount := q.shardBytesCount - removalResult.bytesRemoved
        shardJobsCount := sub64 q.shardJobsCount removalResult.jobsRemoved }
      setPointer shardIndex q
      if q.shardBytesCount ≠ removalResult.bytesAfter ∨
          q.shardJobsCount ≠ removalResult.jobsAfter then rebuild
      pure (shardIndex + 1)
    else do
      let p ← getMemory
      setMemory { p with archiveQueueShards := removeBySwaps shardIndex p.archiveQueueShards }
      pure shardIndex
  recomputeOldestAndYoungestJobCreationTime
  commit
  return (localJobsToRemove.filter fun a =>
    !(removalResult.removedJobs.any fun j => decide (j.address = a)), next)

/-- Rounds until there are no more jobs or no more shards. Every round consumes a
pointer, so as many rounds as pointers are enough. -/
def removeLoop : Nat → List Address → Nat → Op Unit
  | fuel, localJobsToRemove, shardIndex => do
    if localJobsToRemove = [] ∨ (← getMemory).archiveQueueShards.length ≤ shardIndex then
      return ()
    match fuel with
    | 0 => throw endless
    | fuel+1 =>
      let (localJobsToRemove, shardIndex) ← removeFromShard localJobsToRemove shardIndex
      removeLoop fuel localJobsToRemove shardIndex

def removeJobsAndCommit (jobsToRemove : List Address) : Op Unit := do
  removeLoop (← getMemory).archiveQueueShards.length jobsToRemove 0

end ArchiveQueue
end Cta.ObjectStore
