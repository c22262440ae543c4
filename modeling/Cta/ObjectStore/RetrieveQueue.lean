import Cta.Lib.PartedStore
import Cta.ObjectStore.RetrieveQueueShard
import Cta.ObjectStore.ValueCountMap

/-! Retrieve queues: a queue object that points to shards sorted by fSeq, with running
summaries. Additions plan the placement of the whole batch, then go shard by shard. -/
namespace Cta.ObjectStore
open StoreError Cta.Lib.Sequence Cta.Lib.PartedStore
open RetrieveQueue (JobToAdd)

structure RetrieveQueueShardPointer where
  address : ShardAddress
  shardJobsCount : Nat
  shardBytesCount : UInt64
  minFseq : Nat
  maxFseq : Nat
  deriving DecidableEq, Repr

structure RetrieveQueue where
  retrieveQueueShards : List RetrieveQueueShardPointer
  priorityMap : ValueCountMap Nat
  minRetrieveRequestAgeMap : ValueCountMap Nat
  mountPolicyNameMap : ValueCountMap String
  activityMap : ValueCountMap String
  retrieveJobsTotalSize : UInt64
  retrieveJobsCount : Nat
  oldestJobCreationTime : UInt64
  youngestJobCreationTime : UInt64
  maxShardSize : Nat
  deriving DecidableEq, Repr

namespace RetrieveQueue

def initialized (maxShardSize : Nat) : RetrieveQueue where
  retrieveQueueShards := []
  priorityMap := []
  minRetrieveRequestAgeMap := []
  mountPolicyNameMap := []
  activityMap := []
  retrieveJobsTotalSize := 0
  retrieveJobsCount := 0
  oldestJobCreationTime := 0
  youngestJobCreationTime := 0
  maxShardSize := maxShardSize

/-- Accesses that the code does not check: the pointer found at a planned index, with
the shard it is meant for, and the number of jobs of a summarized shard. -/
inductive Access where
  | pointer (owner : ShardAddress) (found : Option ShardAddress)
  | summary (jobs : Nat)
  deriving DecidableEq, Repr

abbrev Queue := World RetrieveQueue RetrieveQueueShard Access
abbrev Op := Program StoreError RetrieveQueue RetrieveQueueShard Access

def checkMapsAndShardsCoherency (p : RetrieveQueue) : Except StoreError Bool := do
  let bytesFromShardPointers := (p.retrieveQueueShards.map (·.shardBytesCount)).sum
  let jobsExpectedFromShardsPointers := (p.retrieveQueueShards.map (·.shardJobsCount)).sum
  if p.retrieveJobsTotalSize ≠ bytesFromShardPointers ∨
      p.retrieveJobsCount ≠ jobsExpectedFromShardsPointers then
    return false
  if (← p.priorityMap.total) ≠ p.retrieveJobsCount then return false
  if (← p.minRetrieveRequestAgeMap.total) ≠ p.retrieveJobsCount then return false
  if (← p.mountPolicyNameMap.total) ≠ p.retrieveJobsCount then return false
  return true

def shardSummary (s : RetrieveQueueShard) : Op RetrieveQueueShard.JobsSummary := do
  observe (.summary s.retrieveJobs.length)
  fromExcept s.getJobsSummary

def fetchShard (a : ShardAddress) : Op RetrieveQueueShard := do
  fromOption noSuchObject (← lookupPart a)

structure RebuildTotals where
  totalJobs : Nat := 0
  totalBytes : UInt64 := 0
  oldestJobCreationTime : Int64 := Int64.maxValue
  youngestJobCreationTime : Int64 := Int64.minValue
  deriving DecidableEq, Repr

def countJob (p : RetrieveQueue) (j : RetrieveQueueShard.JobInfo) : Except StoreError RetrieveQueue := do
  let priorityMap ← p.priorityMap.incCount j.priority
  let minRetrieveRequestAgeMap ← p.minRetrieveRequestAgeMap.incCount j.minRetrieveRequestAge
  let mountPolicyNameMap ← p.mountPolicyNameMap.incCount j.mountPolicyName
  return { p with priorityMap, minRetrieveRequestAgeMap, mountPolicyNameMap }

def recordSummary (a : ShardAddress) (jobs : Nat) (size : UInt64) (minFseq maxFseq : Nat) :
    List RetrieveQueueShardPointer → Option (List RetrieveQueueShardPointer)
  | [] => none
  | q :: qs =>
    if q.address = a then
      some ({ q with shardJobsCount := jobs, shardBytesCount := size, maxFseq, minFseq } :: qs)
    else (recordSummary a jobs size minFseq maxFseq qs).map (q :: ·)

def RebuildTotals.addJob (t : RebuildTotals) (j : RetrieveQueueShard.JobInfo) : RebuildTotals :=
  { totalJobs := t.totalJobs + 1
    totalBytes := t.totalBytes + j.size
    oldestJobCreationTime :=
      if j.startTime < t.oldestJobCreationTime then j.startTime else t.oldestJobCreationTime
    youngestJobCreationTime :=
      if t.youngestJobCreationTime < j.startTime then j.startTime else t.youngestJobCreationTime }

def minFseqOf (js : List RetrieveQueueShard.JobInfo) : Nat :=
  js.foldl (fun m j => if j.fSeq < m then j.fSeq else m) (2^64 - 1)

def maxFseqOf (js : List RetrieveQueueShard.JobInfo) : Nat :=
  js.foldl (fun m j => if m < j.fSeq then j.fSeq else m) 0

def rebuildShard (a : ShardAddress) (found : Option RetrieveQueueShard) (t : RebuildTotals) :
    Op RebuildTotals := do
  let p ← getMemory
  match found with
  | none =>
    -- dangling pointer: forget it
    setMemory { p with
      retrieveQueueShards := p.retrieveQueueShards.filter fun q => decide (q.address ≠ a) }
    return t
  | some s =>
    let js := s.dumpJobs
    let size := (js.map (·.size)).sum
    let p ← fromExcept (js.foldlM countJob p)
    let shards ← fromOption noShardForSummary
      (recordSummary a js.length size (minFseqOf js) (maxFseqOf js) p.retrieveQueueShards)
    setMemory { p with retrieveQueueShards := shards }
    let summary ← shardSummary s
    if size ≠ summary.bytes then
      putPart a (← fetchShard a).rebuild
    return js.foldl RebuildTotals.addJob t

def rebuildShards : List (ShardAddress × Option RetrieveQueueShard) → RebuildTotals →
    Op RebuildTotals
  | [], t => return t
  | (a, found) :: rest, t => do rebuildShards rest (← rebuildShard a found t)

/-- All the shards are read first, without lock; absent ones are dropped from the
pointers and the summaries are recomputed from the others. -/
def rebuild : Op Unit := do
  let p ← getMemory
  setMemory { p with
    priorityMap := p.priorityMap.clear
    minRetrieveRequestAgeMap := p.minRetrieveRequestAgeMap.clear
    mountPolicyNameMap := p.mountPolicyNameMap.clear }
  let shards ← p.retrieveQueueShards.mapM fun q => do return (q.address, ← lookupPart q.address)
  let t ← rebuildShards shards {}
  let p ← getMemory
  setMemory { p with
    retrieveJobsCount := t.totalJobs
    retrieveJobsTotalSize := t.totalBytes
    oldestJobCreationTime := t.oldestJobCreationTime.toUInt64
    youngestJobCreationTime := t.youngestJobCreationTime.toUInt64 }

def commit : Op Unit := do
  if !(← fromExcept (checkMapsAndShardsCoherency (← getMemory))) then rebuild
  commitRoot

structure ActivityCount where
  activity : String
  count : Nat
  deriving DecidableEq, Repr

structure JobsSummary where
  jobs : Nat
  bytes : UInt64
  oldestJobStartTime : Int64
  youngestJobStartTime : Int64
  priority : Nat := 0
  minRetrieveRequestAge : Nat := 0
  mountPolicyCountMap : List (String × Nat) := []
  activityCounts : List ActivityCount := []
  deriving DecidableEq, Repr

def getJobsSummary (p : RetrieveQueue) : Except StoreError JobsSummary := do
  let ret : JobsSummary :=
    { jobs := p.retrieveJobsCount
      bytes := p.retrieveJobsTotalSize
      oldestJobStartTime := p.oldestJobCreationTime.toInt64
      youngestJobStartTime := p.youngestJobCreationTime.toInt64 }
  if p.retrieveJobsCount = 0 then return ret
  let priority ← p.priorityMap.maxValue
  let minRetrieveRequestAge ← p.minRetrieveRequestAgeMap.minValue
  return { ret with
    priority
    minRetrieveRequestAge
    mountPolicyCountMap := p.mountPolicyNameMap.getMap
    activityCounts := p.activityMap.map fun ra => ⟨ra.value, ra.count⟩ }

/-- Plan for one shard. A shard to be split is an existing one, named by its address:
that is what the pointer to the split source stands for. -/
structure ShardForAddition where
  newShard : Bool := false
  toSplit : Bool := false
  fromSplit : Bool := false
  splitSource : Option ShardAddress := none
  address : Option ShardAddress := none
  minFseq : Nat
  maxFseq : Nat
  jobsCount : Nat
  jobsToAdd : List JobToAdd := []
  shardIndex : Nat := 2^64 - 1
  deriving DecidableEq, Repr

def updateShardLimits (fSeq : Nat) (sfa : ShardForAddition) : ShardForAddition :=
  { sfa with
    minFseq := if fSeq < sfa.minFseq then fSeq else sfa.minFseq
    maxFseq := if sfa.maxFseq < fSeq then fSeq else sfa.maxFseq }

def ShardForAddition.push (sfa : ShardForAddition) (j : JobToAdd) : ShardForAddition :=
  updateShardLimits j.fSeq
    { sfa with jobsCount := sfa.jobsCount + 1, jobsToAdd := sfa.jobsToAdd ++ [j] }

def ShardForAddition.cut (sfa : ShardForAddition) : Nat :=
  (sfa.minFseq + sub64 sfa.maxFseq sfa.minFseq / 2) % 2^64

def ShardForAddition.lowerHalf (sfa : ShardForAddition) : ShardForAddition where
  newShard := true
  fromSplit := true
  splitSource := sfa.address
  minFseq := sfa.minFseq
  maxFseq := sfa.cut
  jobsCount := sfa.jobsCount / 2
  jobsToAdd := sfa.jobsToAdd.filter fun j => decide (j.fSeq ≤ sfa.cut)

def ShardForAddition.upperHalf (sfa : ShardForAddition) : ShardForAddition :=
  { sfa with
    minFseq := (sfa.cut + 1) % 2^64
    jobsCount := sfa.jobsCount / 2
    toSplit := true
    jobsToAdd := sfa.jobsToAdd.filter fun j => decide (sfa.cut < j.fSeq) }

def mustSplit (maxShardSize : Nat) (sfa : ShardForAddition) : Bool :=
  !(decide (sfa.jobsCount < maxShardSize) || sfa.fromSplit || sfa.newShard)

/-- Add a job to a shard, splitting it if necessary. The lower half stands before the
old shard in the list. -/
def addJobToShardAndMaybeSplit (maxShardSize : Nat) (j : JobToAdd) (sfa : ShardForAddition) :
    List ShardForAddition :=
  if mustSplit maxShardSize sfa then
    if sfa.upperHalf.minFseq ≤ j.fSeq then [sfa.lowerHalf, sfa.upperHalf.push j]
    else [sfa.lowerHalf.push j, sfa.upperHalf]
  else [sfa.push j]

/-- Find where the job lands: before or within a shard, between two, or after the last. -/
def landing (j : JobToAdd) : List ShardForAddition → Option Nat
  | [] => none
  | sfa :: rest =>
    if j.fSeq < sfa.minFseq then some 0
    else if sfa.minFseq ≤ j.fSeq ∧ j.fSeq ≤ sfa.maxFseq then some 0
    else
      match rest with
      | nextSfa :: _ =>
        if sfa.maxFseq < j.fSeq ∧ j.fSeq < nextSfa.minFseq then
          some (if sfa.jobsCount < nextSfa.jobsCount then 0 else 1)
        else (landing j rest).map (· + 1)
      | [] => if sfa.maxFseq < j.fSeq then some 0 else none

def placeJob (maxShardSize : Nat) (j : JobToAdd) (shards : List ShardForAddition) :
    Option (List ShardForAddition) := do
  let i ← landing j shards
  let sfa ← shards[i]?
  return shards.take i ++ addJobToShardAndMaybeSplit maxShardSize j sfa ++ shards.drop (i + 1)

def initialShard (j : JobToAdd) : ShardForAddition where
  newShard := true
  minFseq := j.fSeq
  maxFseq := j.fSeq
  jobsCount := 1
  jobsToAdd := [j]

def placeOrCreate (maxShardSize : Nat) (shards : List ShardForAddition) (j : JobToAdd) :
    Option (List ShardForAddition) :=
  if shards = [] then some [initialShard j] else placeJob maxShardSize j shards

def ofPointer (q : RetrieveQueueShardPointer) : ShardForAddition where
  address := some q.address
  minFseq := q.minFseq
  maxFseq := q.maxFseq
  jobsCount := q.shardJobsCount

def orderLimits : Nat → List ShardForAddition → List ShardForAddition
  | _, [] => []
  | highestFseqSoFar, sfa :: rest =>
    let minFseq := max highestFseqSoFar sfa.minFseq
    let maxFseq := max minFseq sfa.maxFseq
    { sfa with minFseq, maxFseq } :: orderLimits ((maxFseq + 1) % 2^64) rest

def initialPlan (p : RetrieveQueue) : List ShardForAddition :=
  orderLimits 0 (p.retrieveQueueShards.map ofPointer)

def planJobs (p : RetrieveQueue) (jobsToAdd : List JobToAdd) : Option (List ShardForAddition) :=
  jobsToAdd.foldlM (placeOrCreate p.maxShardSize) (initialPlan p)

def numberShards (shards : List ShardForAddition) : List ShardForAddition :=
  shards.mapIdx fun i sfa => { sfa with shardIndex := i }

def mutablePointer (i : Nat) (owner : ShardAddress) : Op RetrieveQueueShardPointer := do
  let found := (← getMemory).retrieveQueueShards[i]?
  observe (.pointer owner (found.map (·.address)))
  fromOption outOfRange found

def setPointer (i : Nat) (q : RetrieveQueueShardPointer) : Op Unit := do
  let p ← getMemory
  setMemory { p with retrieveQueueShards := p.retrieveQueueShards.set i q }

def updatePointer (i : Nat) (change : RetrieveQueueShardPointer → RetrieveQueueShardPointer) :
    Op Unit := do
  let p ← getMemory
  setMemory { p with retrieveQueueShards := p.retrieveQueueShards.modify i change }

/-- A shard being updated in memory, with what has to be added to the totals. -/
structure ShardUpdate where
  address : ShardAddress
  rqs : RetrieveQueueShard
  addedJobs : Nat := 0
  addedBytes : UInt64 := 0
  transferedInSplitJobs : Nat := 0
  transferedInSplitBytes : UInt64 := 0
  splitFrom : Option (ShardAddress × RetrieveQueueShard) := none
  deriving DecidableEq, Repr

/-- The jobs of the split shard that fall in the range of the new one, added one by one. -/
def transferJobs (shard : ShardForAddition) :
    List JobToAdd → RetrieveQueueShard → Option RetrieveQueueShard
  | [], rqs => some rqs
  | j :: js, rqs => do
    let jtas := if shard.minFseq ≤ j.fSeq ∧ j.fSeq ≤ shard.maxFseq then [j] else []
    transferJobs shard js (← rqs.addJobsBatch jtas)

def inRange (shard : ShardForAddition) (j : JobToAdd) : Bool :=
  decide (shard.minFseq ≤ j.fSeq ∧ j.fSeq ≤ shard.maxFseq)

def splitShard (plan : List ShardForAddition) (shard : ShardForAddition)
    (address : ShardAddress) : Op ShardUpdate := do
  let sourceAddress ← fromOption outOfRange shard.splitSource
  let source ← fromOption outOfRange (plan.find? fun sfa => sfa.address = some sourceAddress)
  let splitFromPointer ← mutablePointer source.shardIndex sourceAddress
  let rqsSplitFrom ← fetchShard sourceAddress
  let jobsFromSource := rqsSplitFrom.dumpJobsToAdd
  let rqs ← fromOption endless (transferJobs shard jobsFromSource RetrieveQueueShard.initialized)
  let transfered := jobsFromSource.filter (inRange shard)
  let (rqsSplitFrom, removalResult) :=
    rqsSplitFrom.removeJobs (transfered.map (·.retrieveRequestAddress))
  -- estimates, overwritten as the shards themselves are populated
  setPointer shard.shardIndex
    { address, shardJobsCount := shard.jobsCount, shardBytesCount := 1,
      minFseq := shard.minFseq, maxFseq := shard.maxFseq }
  setPointer source.shardIndex { splitFromPointer with
    minFseq := source.minFseq, maxFseq := source.maxFseq, shardJobsCount := source.jobsCount }
  return { address, rqs, addedJobs := transfered.length,
           addedBytes := (transfered.map (·.fileSize)).sum,
           transferedInSplitJobs := removalResult.jobsRemoved,
           transferedInSplitBytes := removalResult.bytesRemoved,
           splitFrom := some (sourceAddress, rqsSplitFrom) }

def createShard (plan : List ShardForAddition) (shard : ShardForAddition) : Op ShardUpdate := do
  let address ← freshId
  let p ← getMemory
  let pointers := p.retrieveQueueShards ++ [⟨address, 0, 0, 0, 0⟩]
  let pointers ← fromOption outOfRange (moveDown shard.shardIndex (pointers.length - 1) pointers)
  setMemory { p with retrieveQueueShards := pointers }
  let _ ← mutablePointer shard.shardIndex address
  if shard.fromSplit then splitShard plan shard address
  else return { address, rqs := RetrieveQueueShard.initialized }

def openShard (shard : ShardForAddition) : Op ShardUpdate := do
  let address ← fromOption outOfRange shard.address
  let rqs ← fetchShard address
  let _ ← mutablePointer shard.shardIndex address
  return { address, rqs }

def noteStartTime (p : RetrieveQueue) (startTime : UInt64) : RetrieveQueue :=
  { p with
    oldestJobCreationTime :=
      if p.oldestJobCreationTime ≠ 0 then
        if startTime < p.oldestJobCreationTime then startTime else p.oldestJobCreationTime
      else startTime
    youngestJobCreationTime :=
      if p.youngestJobCreationTime ≠ 0 then
        if p.youngestJobCreationTime < startTime then startTime else p.youngestJobCreationTime
      else startTime }

def accountJob (p : RetrieveQueue) (j : JobToAdd) : Except StoreError RetrieveQueue := do
  let priorityMap ← p.priorityMap.incCount j.policy.retrievePriority
  let minRetrieveRequestAgeMap ←
    p.minRetrieveRequestAgeMap.incCount j.policy.retrieveMinRequestAge
  let mountPolicyNameMap ← p.mountPolicyNameMap.incCount j.policy.name
  let activityMap ← match j.activity with
    | some activity => p.activityMap.incCount activity
    | none => .ok p.activityMap
  return noteStartTime
    { p with priorityMap, minRetrieveRequestAgeMap, mountPolicyNameMap, activityMap }
    j.startTime.toUInt64

def fillShard (shard : ShardForAddition) (u : ShardUpdate) : Op ShardUpdate := do
  let p ← fromExcept (shard.jobsToAdd.foldlM accountJob (← getMemory))
  setMemory p
  let rqs ← fromOption endless
    (u.rqs.addJobsBatch (RetrieveQueueShard.JobsToAddSet.ofList shard.jobsToAdd))
  return { u with
    rqs
    addedJobs := u.addedJobs + shard.jobsToAdd.length
    addedBytes := u.addedBytes + (shard.jobsToAdd.map (·.fileSize)).sum }

def recordShard (shard : ShardForAddition) (u : ShardUpdate) : Op Unit := do
  let summary ← shardSummary u.rqs
  updatePointer shard.shardIndex fun q => { q with
    shardJobsCount := summary.jobs, shardBytesCount := summary.bytes,
    minFseq := summary.minFseq, maxFseq := summary.maxFseq }
  let p ← getMemory
  setMemory { p with
    retrieveJobsCount := sub64 (p.retrieveJobsCount + u.addedJobs) u.transferedInSplitJobs
    retrieveJobsTotalSize :=
      p.retrieveJobsTotalSize + u.addedBytes - u.transferedInSplitBytes }

/-- Commit the queue first, since it references a new shard, blindly if the shard comes
from a split; then the shards. -/
def storeShard (shard : ShardForAddition) (u : ShardUpdate) : Op Unit := do
  if shard.fromSplit then commitRoot else commit
  putPart u.address u.rqs
  match u.splitFrom with
  | some (a, s) => putPart a s
  | none => return ()

def addToShard (plan : List ShardForAddition) (shard : ShardForAddition) : Op Unit := do
  let u ← if shard.newShard then createShard plan shard else openShard shard
  let u ← fillShard shard u
  recordShard shard u
  storeShard shard u

def executePlan (plan : List ShardForAddition) : List ShardForAddition → Op Unit
  | [] => return ()
  | shard :: rest => do
    addToShard plan shard
    executePlan plan rest

def addJobsAndCommit (jobsToAdd : List JobToAdd) : Op Unit := do
  if jobsToAdd = [] then return ()
  let plan ← fromOption noAppropriateShard (planJobs (← getMemory) jobsToAdd)
  let plan := numberShards plan
  executePlan plan plan

def forgetJob (p : RetrieveQueue) (j : RetrieveQueueShard.JobInfo) :
    Except StoreError RetrieveQueue := do
  let priorityMap ← p.priorityMap.decCount j.priority
  let minRetrieveRequestAgeMap ← p.minRetrieveRequestAgeMap.decCount j.minRetrieveRequestAge
  let mountPolicyNameMap ← p.mountPolicyNameMap.decCount j.mountPolicyName
  let activityMap ← match j.activity with
    | some activity => p.activityMap.decCount activity
    | none => .ok p.activityMap
  return { p with priorityMap, minRetrieveRequestAgeMap, mountPolicyNameMap, activityMap }

/-- One round of the removal: the shard at the index is updated or dropped, then the
queue. Returns the addresses still to remove and the next index. -/
def removeFromShard (localJobsToRemove : List Address) (shardIndex : Nat) :
    Op (List Address × Nat) := do
  let q ← fromOption outOfRange (← getMemory).retrieveQueueShards[shardIndex]?
  let rqs ← fetchShard q.address
  let (rqs, removalResult) := rqs.removeJobs localJobsToRemove
  if removalResult.jobsAfter ≠ 0 then putPart q.address rqs else dropPart q.address
  let p ← getMemory
  let oldest := p.oldestJobCreationTime.toInt64
  let youngest := p.youngestJobCreationTime.toInt64
  let needToRebuild := removalResult.removedJobs.any fun j =>
    decide (j.startTime ≤ oldest) || decide (youngest ≤ j.startTime)
  let p ← fromExcept (removalResult.removedJobs.foldlM forgetJob p)
  setMemory { p with
    retrieveJobsCount := sub64 p.retrieveJobsCount removalResult.jobsRemoved
    retrieveJobsTotalSize := p.retrieveJobsTotalSize - removalResult.bytesRemoved }
  let next ← if removalResult.jobsAfter ≠ 0 then do
      let q := { q with
        shardBytesCount := q.shardBytesCount - removalResult.bytesRemoved
        shardJobsCount := sub64 q.shardJobsCount removalResult.jobsRemoved }
      setPointer shardIndex q
      if !needToRebuild && (decide (q.shardBytesCount ≠ removalResult.bytesAfter) ||
          decide (q.shardJobsCount ≠ removalResult.jobsAfter)) then rebuild
      pure (shardIndex + 1)
    else do
      let p ← getMemory
      setMemory { p with retrieveQueueShards := removeBySwaps shardIndex p.retrieveQueueShards }
      pure shardIndex
  if needToRebuild then rebuild
  commit
  return (localJobsToRemove.filter fun a =>
    !(removalResult.removedJobs.any fun j => decide (j.address = a)), next)

/-- Rounds until there are no more jobs or no more shards. Every round consumes a
pointer, so as many rounds as pointers are enough. -/
def removeLoop : Nat → List Address → Nat → Op Unit
  | fuel, localJobsToRemove, shardIndex => do
    if localJobsToRemove = [] ∨ (← getMemory).retrieveQueueShards.length ≤ shardIndex then
      return ()
    match fuel with
    | 0 => throw endless
    | fuel+1 =>
      let (localJobsToRemove, shardIndex) ← removeFromShard localJobsToRemove shardIndex
      removeLoop fuel localJobsToRemove shardIndex

def removeJobsAndCommit (jobsToRemove : List Address) : Op Unit := do
  removeLoop (← getMemory).retrieveQueueShards.length jobsToRemove 0

end RetrieveQueue
end Cta.ObjectStore
