import Cta.ObjectStore.QueueCandidates

/-! Jobs that are added only if they are not queued yet: the shards are read first, and the jobs of
the requests found there are left out. -/
namespace Cta.ObjectStore
open Cta.Lib.PartedStore

namespace JobAddition

structure AdditionSummary where
  files : Nat := 0
  bytes : UInt64 := 0
  deriving DecidableEq, Repr

/-- What is read of a job to add and of a job dumped from a shard. -/
structure JobFields (J D : Type) where
  requestAddress : J → Address
  fileSize : J → UInt64
  dumpAddress : D → Address

section
variable {J D Pt P S E : Type}

def isQueued (f : JobFields J D) (shardsDumps : List (List D)) (jta : J) : Bool :=
  shardsDumps.any fun sd => sd.any fun sjd => decide (f.dumpAddress sjd = f.requestAddress jta)

def AdditionSummary.count (f : JobFields J D) (ret : AdditionSummary) (jta : J) :
    AdditionSummary where
  files := ret.files + 1
  bytes := ret.bytes + f.fileSize jta

def addJobsIfNecessaryAndCommit (f : JobFields J D)
    (dumpShards : Program StoreError P S E (List (List D)))
    (addJobsAndCommit : List J → Program StoreError P S E Unit) (jobsToAdd : List J) :
    Program StoreError P S E AdditionSummary := do
  let shardsDumps ← dumpShards
  let jobsToReallyAdd := jobsToAdd.filter fun jta => !isQueued f shardsDumps jta
  let ret := jobsToReallyAdd.foldl (AdditionSummary.count f) {}
  addJobsAndCommit jobsToReallyAdd
  return ret

def jobsOfOthers (requestAddress : J → Address) (queued : List Address) (jobsToAdd : List J) :
    List J :=
  jobsToAdd.filter fun j => decide (requestAddress j ∉ queued)

structure QueueKind (J Pt P S E : Type) where
  requestAddress : J → Address
  fileSize : J → UInt64
  toPointer : J → Pt
  address : Pt → Address
  queued : World P S E → List Pt
  Coherent : World P S E → Prop
  addJobsAndCommit : List J → Program StoreError P S E Unit
  addJobsIfNecessaryAndCommit : List J → Program StoreError P S E AdditionSummary

def QueueKind.requests (k : QueueKind J Pt P S E) (w : World P S E) : List Address :=
  (k.queued w).map k.address

def QueueKind.notQueued (k : QueueKind J Pt P S E) (w : World P S E) (jobsToAdd : List J) :
    List J :=
  jobsOfOthers k.requestAddress (k.requests w) jobsToAdd

def QueueKind.summaryOf (k : QueueKind J Pt P S E) (js : List J) : AdditionSummary :=
  ⟨js.length, (js.map k.fileSize).sum⟩

/-- The jobs that were not queued are added and reported, the others stay as they are, and a second
call does nothing. -/
structure AddedOnce (k : QueueKind J Pt P S E) (w : World P S E) (jobsToAdd : List J)
    (w' : World P S E) : Prop where
  returned : k.addJobsIfNecessaryAndCommit jobsToAdd w =
    .ok (k.summaryOf (k.notQueued w jobsToAdd)) w'
  coherent : k.Coherent w'
  queued : (k.queued w').Perm (k.queued w ++ (k.notQueued w jobsToAdd).map k.toPointer)
  once : ∀ j ∈ jobsToAdd, (k.requests w).count (k.requestAddress j) ≤ 1 →
    (k.requests w').count (k.requestAddress j) = 1
  again : k.addJobsIfNecessaryAndCommit jobsToAdd w' = .ok {} w'

theorem foldl_count (f : JobFields J D) (js : List J) (ret : AdditionSummary) :
    js.foldl (AdditionSummary.count f) ret =
      ⟨ret.files + js.length, ret.bytes + (js.map f.fileSize).sum⟩ := by
  induction js generalizing ret with
  | nil => simp
  | cons j js ih =>
    rw [List.foldl_cons, ih, AdditionSummary.count]
    simp only [List.length_cons, List.map_cons, List.sum_cons, AdditionSummary.mk.injEq]
    exact ⟨by omega, add_assoc _ _ _⟩

theorem addJobsIfNecessary_apply {f : JobFields J D}
    {dumpShards : Program StoreError P S E (List (List D))}
    {addJobsAndCommit : List J → Program StoreError P S E Unit} {w : World P S E}
    {shardsDumps : List (List D)} {queued : List Address}
    (hdumps : dumpShards w = .ok shardsDumps w)
    (hqueued : shardsDumps.flatten.map f.dumpAddress = queued) (jobsToAdd : List J) :
    addJobsIfNecessaryAndCommit f dumpShards addJobsAndCommit jobsToAdd w =
      (do addJobsAndCommit (jobsOfOthers f.requestAddress queued jobsToAdd)
          return ⟨(jobsOfOthers f.requestAddress queued jobsToAdd).length,
            ((jobsOfOthers f.requestAddress queued jobsToAdd).map f.fileSize).sum⟩ :
        Program StoreError P S E AdditionSummary) w := by
  have hfilter : (jobsToAdd.filter fun jta => !isQueued f shardsDumps jta) =
      jobsOfOthers f.requestAddress queued jobsToAdd := by
    refine List.filter_congr fun j _ => ?_
    rw [← hqueued, Bool.eq_iff_iff]
    simp [isQueued]
  simp only [addJobsIfNecessaryAndCommit, bind_apply, hdumps, hfilter, foldl_count]
  simp

section
variable {k : QueueKind J Pt P S E} {w w' : World P S E} {jobsToAdd : List J}

/-- Once a plain addition of the jobs that are not queued is right, so is this one. -/
theorem QueueKind.addedOnce
    (hread : ∀ w, k.addJobsIfNecessaryAndCommit jobsToAdd w =
      (do k.addJobsAndCommit (k.notQueued w jobsToAdd)
          return k.summaryOf (k.notQueued w jobsToAdd) :
        Program StoreError P S E AdditionSummary) w)
    (hnil : ∀ w, k.addJobsAndCommit [] w = .ok () w)
    (haddress : ∀ j, k.address (k.toPointer j) = k.requestAddress j)
    (hdistinct : (jobsToAdd.map k.requestAddress).Nodup)
    (hrun : k.addJobsAndCommit (k.notQueued w jobsToAdd) w = .ok () w') (hcoherent : k.Coherent w')
    (hqueued : (k.queued w').Perm (k.queued w ++ (k.notQueued w jobsToAdd).map k.toPointer)) :
    AddedOnce k w jobsToAdd w' := by
  have hrequests : (k.requests w').Perm
      (k.requests w ++ (k.notQueued w jobsToAdd).map k.requestAddress) := by
    have hmap := hqueued.map k.address
    rw [List.map_append, List.map_map] at hmap
    rwa [show k.address ∘ k.toPointer = k.requestAddress from funext haddress] at hmap
  have hnew : ∀ j ∈ jobsToAdd, k.requestAddress j ∉ k.requests w →
      j ∈ k.notQueued w jobsToAdd := fun j hj hnot =>
    List.mem_filter.mpr ⟨hj, decide_eq_true hnot⟩
  refine ⟨?_, hcoherent, hqueued, fun j hj hle => ?_, ?_⟩
  · rw [hread, bind_apply, hrun]
    rfl
  · rw [hrequests.count_eq, List.count_append]
    have hnodup : ((k.notQueued w jobsToAdd).map k.requestAddress).Nodup :=
      (List.filter_sublist.map _).nodup hdistinct
    by_cases hmem : k.requestAddress j ∈ k.requests w
    · have hpos := List.count_pos_iff.mpr hmem
      have hnone : k.requestAddress j ∉ (k.notQueued w jobsToAdd).map k.requestAddress := by
        intro hin
        obtain ⟨i, hi, heq⟩ := List.mem_map.mp hin
        exact of_decide_eq_true (List.mem_filter.mp hi).2 (heq ▸ hmem)
      rw [List.count_eq_zero.mpr hnone]
      omega
    · rw [List.count_eq_zero.mpr hmem, Nat.zero_add]
      exact List.count_eq_one_of_mem hnodup (List.mem_map_of_mem (hnew j hj hmem))
  · have hnone : k.notQueued w' jobsToAdd = [] := by
      refine List.filter_eq_nil_iff.mpr fun j hj => ?_
      simp only [decide_eq_true_eq, not_not]
      rw [hrequests.mem_iff, List.mem_append]
      by_cases hmem : k.requestAddress j ∈ k.requests w
      · exact .inl hmem
      · exact .inr (List.mem_map_of_mem (hnew j hj hmem))
    rw [hread, hnone, bind_apply, hnil]
    rfl

end

end

end JobAddition

open JobAddition (AdditionSummary QueueKind AddedOnce addJobsIfNecessary_apply)

namespace ArchiveQueue

def additionFields : JobAddition.JobFields JobToAdd JobDump where
  requestAddress := (·.archiveRequestAddress)
  fileSize := (·.fileSize)
  dumpAddress := (·.address)

def dumpShard (s : ArchiveQueueShard) : List JobDump :=
  s.dumpJobs.map fun j => ⟨j.size, j.address, j.copyNb⟩

def dumpShards : Op (List (List JobDump)) := do
  return (← lookupShards).filterMap fun x => x.2.map dumpShard

def addJobsIfNecessaryAndCommit (jobsToAdd : List JobToAdd) : Op AdditionSummary :=
  JobAddition.addJobsIfNecessaryAndCommit additionFields dumpShards addJobsAndCommit jobsToAdd

def Coherent (w : Queue) : Prop :=
  w.stored.root = w.memory ∧
    Sane w.memory w.stored.parts w.nextId (queuedJobs w.memory w.stored.parts)

def queueKind : QueueKind JobToAdd ArchiveJobPointer ArchiveQueue ArchiveQueueShard Empty where
  requestAddress := (·.archiveRequestAddress)
  fileSize := (·.fileSize)
  toPointer := JobToAdd.toPointer
  address := (·.address)
  queued w := queuedJobs w.memory w.stored.parts
  Coherent := Coherent
  addJobsAndCommit := addJobsAndCommit
  addJobsIfNecessaryAndCommit := addJobsIfNecessaryAndCommit

theorem dumpShards_apply (w : Queue) : ∃ shardsDumps, dumpShards w = .ok shardsDumps w ∧
    shardsDumps.flatten.map (·.address) = queueKind.requests w := by
  have hlookup : lookupShards w = .ok
      (w.memory.archiveQueueShards.map fun q => (q.address, w.stored.parts q.address)) w :=
    mapM_lookupPart _ _ w
  refine ⟨w.memory.archiveQueueShards.filterMap fun q => (w.stored.parts q.address).map dumpShard,
    ?_, ?_⟩
  · simp only [dumpShards, bind_apply, hlookup, pure_apply, List.filterMap_map]
    rfl
  change _ = (queuedJobs w.memory w.stored.parts).map (·.address)
  rw [queuedJobs]
  induction w.memory.archiveQueueShards with
  | nil => rfl
  | cons q qs ih =>
    cases hq : w.stored.parts q.address with
    | none => simpa [content, shardJobs, hq] using ih
    | some s =>
      simpa [content, shardJobs, hq, dumpShard, ArchiveQueueShard.dumpJobs, ArchiveJobPointer.toInfo,
        Function.comp_def] using ih

theorem addJobsIfNecessary_reads (jobsToAdd : List JobToAdd) (w : Queue) :
    addJobsIfNecessaryAndCommit jobsToAdd w =
      (do addJobsAndCommit (queueKind.notQueued w jobsToAdd)
          return queueKind.summaryOf (queueKind.notQueued w jobsToAdd) : Op AdditionSummary) w := by
  obtain ⟨shardsDumps, hdumps, hqueued⟩ := dumpShards_apply w
  exact addJobsIfNecessary_apply hdumps hqueued jobsToAdd

theorem Coherent.addedOnce {w : Queue} (h : Coherent w) {jobsToAdd : List JobToAdd}
    (hdistinct : (jobsToAdd.map (·.archiveRequestAddress)).Nodup) :
    ∃ w', AddedOnce queueKind w jobsToAdd w' := by
  obtain ⟨w', hrun, hroot, hsane⟩ := h.2.add h.1 (queueKind.notQueued w jobsToAdd)
  have hqueued : queuedJobs w'.memory w'.stored.parts = _ := hsane.inOrder
  refine ⟨w', QueueKind.addedOnce (addJobsIfNecessary_reads jobsToAdd) (fun _ => rfl)
    (fun _ => rfl) hdistinct hrun ⟨hroot, hqueued.symm ▸ hsane⟩ ?_⟩
  exact List.Perm.of_eq hqueued

end ArchiveQueue

namespace RetrieveQueue

def additionFields : JobAddition.JobFields JobToAdd JobDump where
  requestAddress := (·.retrieveRequestAddress)
  fileSize := (·.fileSize)
  dumpAddress := (·.address)

def lookupShards : Op (List (ShardAddress × Option RetrieveQueueShard)) := do
  (← getMemory).retrieveQueueShards.mapM fun q => do return (q.address, ← lookupPart q.address)

def dumpShard (s : RetrieveQueueShard) : List JobDump :=
  s.dumpJobs.map fun j => ⟨j.address, j.copyNb, j.size, j.activity, j.diskSystemName⟩

def dumpShards : Op (List (List JobDump)) := do
  return (← lookupShards).filterMap fun x => x.2.map dumpShard

def addJobsIfNecessaryAndCommit (jobsToAdd : List JobToAdd) : Op AdditionSummary :=
  JobAddition.addJobsIfNecessaryAndCommit additionFields dumpShards addJobsAndCommit jobsToAdd

def Coherent (w : Queue) : Prop :=
  w.stored.root = w.memory ∧
    Sane w.memory w.stored.parts w.nextId (queuedJobs w.memory w.stored.parts)

def queueKind : QueueKind JobToAdd RetrieveJobPointer RetrieveQueue RetrieveQueueShard Access where
  requestAddress := (·.retrieveRequestAddress)
  fileSize := (·.fileSize)
  toPointer := JobToAdd.toPointer
  address := (·.address)
  queued w := queuedJobs w.memory w.stored.parts
  Coherent := Coherent
  addJobsAndCommit := addJobsAndCommit
  addJobsIfNecessaryAndCommit := addJobsIfNecessaryAndCommit

theorem dumpShards_apply (w : Queue) : ∃ shardsDumps, dumpShards w = .ok shardsDumps w ∧
    shardsDumps.flatten.map (·.address) = queueKind.requests w := by
  have hlookup : lookupShards w = .ok
      (w.memory.retrieveQueueShards.map fun q => (q.address, w.stored.parts q.address)) w :=
    mapM_lookupPart _ _ w
  refine ⟨w.memory.retrieveQueueShards.filterMap fun q => (w.stored.parts q.address).map dumpShard,
    ?_, ?_⟩
  · simp only [dumpShards, bind_apply, hlookup, pure_apply, List.filterMap_map]
    rfl
  change _ = (queuedJobs w.memory w.stored.parts).map (·.address)
  rw [queuedJobs]
  induction w.memory.retrieveQueueShards with
  | nil => rfl
  | cons q qs ih =>
    cases hq : w.stored.parts q.address with
    | none => simpa [found, hq] using ih
    | some s =>
      simpa [found_cons hq, jobsIn, hq, dumpShard, RetrieveQueueShard.dumpJobs, RetrieveJobPointer.toInfo,
        Function.comp_def] using ih

theorem addJobsIfNecessary_reads (jobsToAdd : List JobToAdd) (w : Queue) :
    addJobsIfNecessaryAndCommit jobsToAdd w =
      (do addJobsAndCommit (queueKind.notQueued w jobsToAdd)
          return queueKind.summaryOf (queueKind.notQueued w jobsToAdd) : Op AdditionSummary) w := by
  obtain ⟨shardsDumps, hdumps, hqueued⟩ := dumpShards_apply w
  exact addJobsIfNecessary_apply hdumps hqueued jobsToAdd

/-- A batch of distinct requests is added once if the jobs that are not queued split no shard twice
and cut the shards cleanly. -/
theorem Coherent.addedOnce {w : Queue} (h : Coherent w) {jobsToAdd : List JobToAdd}
    (hdistinct : (jobsToAdd.map (·.retrieveRequestAddress)).Nodup)
    (honce : SplitsOnce w (queueKind.notQueued w jobsToAdd))
    (hclean : CutsCleanly w (queueKind.notQueued w jobsToAdd)) :
    ∃ w', AddedOnce queueKind w jobsToAdd w' := by
  have hnil : ∀ v : Queue, addJobsAndCommit [] v = .ok () v := fun v => by simp [addJobsAndCommit]
  have hadds : ∃ w', addJobsAndCommit (queueKind.notQueued w jobsToAdd) w = .ok () w' ∧
      Coherent w' ∧ (queuedJobs w'.memory w'.stored.parts).Perm
        (queuedJobs w.memory w.stored.parts ++
          (queueKind.notQueued w jobsToAdd).map JobToAdd.toPointer) := by
    by_cases hempty : queueKind.notQueued w jobsToAdd = []
    · rw [hempty]
      exact ⟨w, hnil w, h, by simp⟩
    · obtain ⟨w', hrun, hroot, hsane, -⟩ :=
        h.2.add h.1 hempty honce.fSeqs honce.once hclean
      have hqueued : (queuedJobs w'.memory w'.stored.parts : Multiset RetrieveJobPointer) = _ :=
        hsane.content
      exact ⟨w', hrun, ⟨hroot, hqueued.symm ▸ hsane⟩, Multiset.coe_eq_coe.mp hqueued⟩
  obtain ⟨w', hrun, hcoherent, hqueued⟩ := hadds
  exact ⟨w', QueueKind.addedOnce (addJobsIfNecessary_reads jobsToAdd) hnil (fun _ => rfl) hdistinct
    hrun hcoherent hqueued⟩

theorem cutsCleanly_nil {w : Queue} (h : RangesOrdered w.memory.retrieveQueueShards) :
    CutsCleanly w [] := by
  intro plan hplan l hl e _ a s hla
  obtain rfl : initialPlan w.memory = plan := Option.some.inj hplan
  simp [initialPlan_splitSource h l hl] at hla

theorem Coherent.clean_of_addedOnce {w w' : Queue} (h : Coherent w) {jobsToAdd : List JobToAdd}
    (hrequests : (queueKind.requests w).Nodup)
    (honce : SplitsOnce w (queueKind.notQueued w jobsToAdd))
    (hadded : AddedOnce queueKind w jobsToAdd w') :
    CutsCleanly w (queueKind.notQueued w jobsToAdd) := by
  have hread := (addJobsIfNecessary_reads jobsToAdd w).symm.trans hadded.returned
  by_cases hempty : queueKind.notQueued w jobsToAdd = []
  · rw [hempty]
    exact cutsCleanly_nil h.2.ranges
  · rw [bind_apply] at hread
    cases hrun : addJobsAndCommit (queueKind.notQueued w jobsToAdd) w with
    | ok _ v => exact h.2.clean_of_add hempty honce.fSeqs honce.once hrequests hrun
    | error e v => simp [hrun] at hread

theorem InOrder.coherent {l : Ledger} (h : InOrder l) : Coherent l.queue := by
  refine ⟨h.fetched, ?_⟩
  rw [show (queuedJobs l.queue.memory l.queue.stored.parts : Multiset RetrieveJobPointer) =
    l.queued from h.sane.content]
  exact h.sane

def afterBatch (maxShardSize : Nat) (jobsToAdd : List JobToAdd) : Ledger :=
  Ledger.next ⟨emptyQueue maxShardSize, 0⟩ (.add jobsToAdd)

theorem coherent_afterBatch {maxShardSize : Nat} {jobsToAdd : List JobToAdd}
    (hadmissible : Admissible ⟨emptyQueue maxShardSize, 0⟩ (.add jobsToAdd))
    (hclean : Clean ⟨emptyQueue maxShardSize, 0⟩ (.add jobsToAdd)) :
    Coherent (afterBatch maxShardSize jobsToAdd).queue :=
  ((inOrder_emptyQueue maxShardSize).call hadmissible hclean).2.coherent

end RetrieveQueue

namespace JobAddition

/-- Jobs are added once to every coherent archive queue; to a coherent retrieve queue if those that
are new to it split no shard twice and every cut is clean; and, with no shard split twice and no
request referenced twice, only if every cut is clean. -/
theorem jobs_added_once_iff_clean (a : ArchiveQueue.Queue) (archivals : List ArchiveQueue.JobToAdd)
    (w : RetrieveQueue.Queue) (jobsToAdd : List RetrieveQueue.JobToAdd) :
    (ArchiveQueue.Coherent a → (archivals.map (·.archiveRequestAddress)).Nodup →
      ∃ a', AddedOnce ArchiveQueue.queueKind a archivals a') ∧
    (RetrieveQueue.Coherent w → (jobsToAdd.map (·.retrieveRequestAddress)).Nodup →
      RetrieveQueue.SplitsOnce w (RetrieveQueue.queueKind.notQueued w jobsToAdd) →
        (RetrieveQueue.CutsCleanly w (RetrieveQueue.queueKind.notQueued w jobsToAdd) →
          ∃ w', AddedOnce RetrieveQueue.queueKind w jobsToAdd w') ∧
        ((RetrieveQueue.queueKind.requests w).Nodup →
          (∃ w', AddedOnce RetrieveQueue.queueKind w jobsToAdd w') →
            RetrieveQueue.CutsCleanly w (RetrieveQueue.queueKind.notQueued w jobsToAdd))) := by
  refine ⟨fun h hdistinct => h.addedOnce hdistinct, ?_⟩
  intro h hdistinct honce
  refine ⟨h.addedOnce hdistinct honce, fun hrequests hadded => ?_⟩
  obtain ⟨w', hadded⟩ := hadded
  exact h.clean_of_addedOnce hrequests honce hadded

open RetrieveQueue (afterBatch recallJob)

/-- The request of fSeq 90 is queued already, the one of fSeq 95 cuts its shard. -/
theorem jobs_added_once_iff_clean_halfQueued :
    (∃ w', AddedOnce ArchiveQueue.queueKind ArchiveQueue.emptyQueue
      [ArchiveQueue.archival "a" 5, ArchiveQueue.archival "b" 7] w') ∧
    ∃ w', AddedOnce RetrieveQueue.queueKind
      (afterBatch 2 [recallJob 1 "a" 5, recallJob 90 "b" 1, recallJob 100 "c" 9]).queue
      [recallJob 90 "b" 1, recallJob 95 "d" 5] w' := by
  obtain ⟨harchive, hretrieve⟩ := jobs_added_once_iff_clean ArchiveQueue.emptyQueue
    [ArchiveQueue.archival "a" 5, ArchiveQueue.archival "b" 7]
    (afterBatch 2 [recallJob 1 "a" 5, recallJob 90 "b" 1, recallJob 100 "c" 9]).queue
    [recallJob 90 "b" 1, recallJob 95 "d" 5]
  refine ⟨harchive ⟨rfl, ArchiveQueue.settled_emptyQueue.sane⟩ (by decide), (hretrieve
    (RetrieveQueue.coherent_afterBatch (by decide +kernel) (by decide +kernel)) (by decide)
      ⟨?_, ?_⟩).1 ?_⟩
  · decide +kernel
  · decide +kernel
  · decide +kernel

/-- A full shard of one fSeq is cut so that nothing is left in it. -/
theorem jobs_not_added_once_oneFseq :
    ¬ ∀ (w : RetrieveQueue.Queue) (jobsToAdd : List RetrieveQueue.JobToAdd),
      RetrieveQueue.Coherent w → (jobsToAdd.map (·.retrieveRequestAddress)).Nodup →
        ∃ w', AddedOnce RetrieveQueue.queueKind w jobsToAdd w' := by
  intro h
  obtain ⟨w', hadded⟩ := h (afterBatch 2 [recallJob 7 "a" 5, recallJob 7 "b" 5]).queue
    [recallJob 7 "c" 5] (RetrieveQueue.coherent_afterBatch (by decide +kernel) (by decide +kernel))
    (by decide)
  have hfails : failed (RetrieveQueue.queueKind.addJobsIfNecessaryAndCommit [recallJob 7 "c" 5]
      (afterBatch 2 [recallJob 7 "a" 5, recallJob 7 "b" 5]).queue) = true := by
    decide +kernel
  rw [hadded.returned] at hfails
  simp [failed] at hfails

end JobAddition

end Cta.ObjectStore
