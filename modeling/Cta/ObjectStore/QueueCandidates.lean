import Cta.ObjectStore.ArchiveQueueBookkeeping
import Cta.ObjectStore.CandidateList
import Cta.ObjectStore.RetrieveQueueBookkeeping

/-! The candidate lists of retrieve and archive queues. -/
namespace Cta.ObjectStore
open Cta.Lib.Sequence Cta.Lib.SortedByKey
open CandidateList (CandidateJobList JobView CandidatesOf)

namespace RetrieveQueue

structure JobDump where
  address : Address
  copyNb : Nat
  size : UInt64
  activity : Option String
  diskSystemName : Option String
  deriving DecidableEq, Repr

def candidateView (retrieveRequestsToSkip : List Address) (diskSystemsToSkip : List String) :
    JobView RetrieveJobPointer JobDump where
  size := (·.size)
  skipped j := retrieveRequestsToSkip.contains j.address ||
    diskSystemsToSkip.contains (j.destinationDiskSystemName.getD "")
  dump j := ⟨j.address, j.copyNb % 2^16, j.size, j.activity, j.destinationDiskSystemName⟩

def shardView (s : RetrieveQueueShard) : CandidateList.Shard RetrieveJobPointer :=
  ⟨s.retrieveJobs, s.retrieveJobsTotalSize⟩

def shardsView (parts : ShardAddress → Option RetrieveQueueShard) (a : ShardAddress) :
    Option (CandidateList.Shard RetrieveJobPointer) :=
  (parts a).map shardView

def pointerView (q : RetrieveQueueShardPointer) : CandidateList.ShardPointer :=
  ⟨q.address, q.shardJobsCount, q.shardBytesCount⟩

def getCandidateList (p : RetrieveQueue) (parts : ShardAddress → Option RetrieveQueueShard)
    (maxBytes : UInt64) (maxFiles : Nat) (retrieveRequestsToSkip : List Address)
    (diskSystemsToSkip : List String) : Except StoreError (CandidateJobList JobDump) :=
  CandidateList.getCandidateList (candidateView retrieveRequestsToSkip diskSystemsToSkip)
    maxBytes maxFiles (shardsView parts) (p.retrieveQueueShards.map pointerView) {}

def queuedJobs (p : RetrieveQueue) (parts : ShardAddress → Option RetrieveQueueShard) :
    List RetrieveJobPointer :=
  jobsIn (found parts p.retrieveQueueShards)

/-- The shards are there and in order, the counters are right and the jobs have less than 2^64
bytes. -/
structure ShardsCoherent (p : RetrieveQueue) (parts : ShardAddress → Option RetrieveQueueShard) :
    Prop where
  described : ∀ q ∈ p.retrieveQueueShards, ∃ s, parts q.address = some s ∧
    q.shardJobsCount = s.retrieveJobs.length ∧ q.shardBytesCount = s.retrieveJobsTotalSize ∧
    RetrieveQueueShard.Coherent s
  ordered : (found parts p.retrieveQueueShards).Pairwise fun x y =>
    ∀ j ∈ x.2.retrieveJobs, ∀ k ∈ y.2.retrieveJobs, j.fSeq < k.fSeq
  fits : ((queuedJobs p parts).map (·.size.toNat)).sum < 2 ^ 64

theorem InOrder.shardsCoherent {l : Ledger} (h : InOrder l)
    (hfits : (l.queued.map (·.size.toNat)).sum < 2 ^ 64) :
    ShardsCoherent l.queue.memory l.queue.stored.parts where
  described := by
    intro q hq
    obtain ⟨s, hs, hsound, hd⟩ := h.sane.described q hq
    exact ⟨s, hs, hd.count, hd.bytes, hsound.coherent⟩
  ordered := found_ordered h.sane
  fits := by
    rw [← h.sane.content, Multiset.map_coe, Multiset.sum_coe] at hfits
    exact hfits

theorem queuedJobs_sorted {p : RetrieveQueue} {parts : ShardAddress → Option RetrieveQueueShard}
    (h : ShardsCoherent p parts) : SortedBy (·.fSeq) (queuedJobs p parts) := by
  refine List.pairwise_flatMap.mpr ⟨fun x hx => ?_, ?_⟩
  · obtain ⟨q, hq, hxq⟩ := List.mem_filterMap.mp hx
    obtain ⟨s, hs, rfl⟩ := Option.map_eq_some_iff.mp hxq
    obtain ⟨t, ht, -, -, hcoherent⟩ := h.described q hq
    obtain rfl : s = t := Option.some.inj (hs.symm.trans ht)
    exact hcoherent.sorted
  · exact h.ordered.imp fun hxy j hj k hk => Nat.le_of_lt (hxy j hj k hk)

section
variable {p : RetrieveQueue} {parts : ShardAddress → Option RetrieveQueueShard}

theorem jobsIn_view (qs : List RetrieveQueueShardPointer) :
    CandidateList.jobsIn (shardsView parts) (qs.map pointerView) =
      jobsIn (found parts qs) := by
  induction qs with
  | nil => rfl
  | cons q qs ih =>
    cases hq : parts q.address with
    | none =>
      rw [show found parts (q :: qs) = found parts qs by simp [found, hq], ← ih]
      simp [CandidateList.jobsIn, shardsView, pointerView, hq]
    | some s =>
      rw [found_cons hq, jobsIn, List.flatMap_cons, ← jobsIn, ← ih]
      exact CandidateList.jobsIn_cons (s := shardView s) (by simp [shardsView, pointerView, hq])

theorem ShardsCoherent.candidates (h : ShardsCoherent p parts) (maxBytes : UInt64) (maxFiles : Nat)
    (retrieveRequestsToSkip : List Address) (diskSystemsToSkip : List String) :
    ∃ l, getCandidateList p parts maxBytes maxFiles retrieveRequestsToSkip diskSystemsToSkip =
        .ok l ∧
      CandidatesOf (candidateView retrieveRequestsToSkip diskSystemsToSkip) maxBytes maxFiles
        (queuedJobs p parts) l := by
  have hfits : CandidateList.bytesOf (candidateView retrieveRequestsToSkip diskSystemsToSkip)
      (queuedJobs p parts) < 2 ^ 64 := h.fits
  rw [queuedJobs, ← jobsIn_view] at hfits ⊢
  refine CandidateList.getCandidateList_of_totals (fun r hr => ?_) hfits maxBytes maxFiles
  obtain ⟨q, hq, rfl⟩ := List.mem_map.mp hr
  obtain ⟨s, hs, hcount, hbytes, hcoherent⟩ := h.described q hq
  have hfetch : shardsView parts (pointerView q).address = some (shardView s) := by
    rw [pointerView, shardsView, hs, Option.map_some]
  exact ⟨shardView s, hfetch, hcount, hbytes, hcoherent.total⟩

end

end RetrieveQueue

namespace ArchiveQueue

structure JobDump where
  size : UInt64
  address : Address
  copyNb : Nat
  deriving DecidableEq, Repr

def candidateView (archiveRequestsToSkip : List Address) : JobView ArchiveJobPointer JobDump where
  size := (·.size)
  skipped j := archiveRequestsToSkip.contains j.address
  dump j := ⟨j.size, j.address, j.copyNb % 2^16⟩

def shardView (s : ArchiveQueueShard) : CandidateList.Shard ArchiveJobPointer :=
  ⟨s.archiveJobs, s.archiveJobsTotalSize⟩

def shardsView (parts : ShardAddress → Option ArchiveQueueShard) (a : ShardAddress) :
    Option (CandidateList.Shard ArchiveJobPointer) :=
  (parts a).map shardView

def pointerView (q : ArchiveQueueShardPointer) : CandidateList.ShardPointer :=
  ⟨q.address, q.shardJobsCount, q.shardBytesCount⟩

def getCandidateList (p : ArchiveQueue) (parts : ShardAddress → Option ArchiveQueueShard)
    (maxBytes : UInt64) (maxFiles : Nat) (archiveRequestsToSkip : List Address) :
    Except StoreError (CandidateJobList JobDump) :=
  CandidateList.getCandidateList (candidateView archiveRequestsToSkip) maxBytes maxFiles
    (shardsView parts) (p.archiveQueueShards.map pointerView) {}

def queuedJobs (p : ArchiveQueue) (parts : ShardAddress → Option ArchiveQueueShard) :
    List ArchiveJobPointer :=
  content parts p.archiveQueueShards

/-- The shards are there, the counters are right and the jobs have less than 2^64 bytes. -/
structure ShardsCoherent (p : ArchiveQueue) (parts : ShardAddress → Option ArchiveQueueShard) :
    Prop where
  described : ∀ q ∈ p.archiveQueueShards, ∃ s, parts q.address = some s ∧
    q.shardJobsCount = s.archiveJobs.length ∧ q.shardBytesCount = s.archiveJobsTotalSize ∧
    s.archiveJobsTotalSize = (s.archiveJobs.map (·.size)).sum
  fits : ((queuedJobs p parts).map (·.size.toNat)).sum < 2 ^ 64

theorem Settled.shardsCoherent {w : Queue} {jobs : List ArchiveJobPointer} (h : Settled w jobs)
    (hfits : (jobs.map (·.size.toNat)).sum < 2 ^ 64) : ShardsCoherent w.memory w.stored.parts where
  described := by
    intro q hq
    obtain ⟨s, hs, hd⟩ := h.sane.described q hq
    exact ⟨s, hs, hd.count, hd.size.trans hd.total.symm, hd.total⟩
  fits := by rwa [queuedJobs, h.sane.inOrder]

section
variable {p : ArchiveQueue} {parts : ShardAddress → Option ArchiveQueueShard}

theorem jobsIn_view (qs : List ArchiveQueueShardPointer) :
    CandidateList.jobsIn (shardsView parts) (qs.map pointerView) =
      content parts qs := by
  simp [CandidateList.jobsIn, content, List.flatMap_map, pointerView, shardsView, shardJobs, shardView,
    Function.comp_def]

theorem ShardsCoherent.candidates (h : ShardsCoherent p parts) (maxBytes : UInt64) (maxFiles : Nat)
    (archiveRequestsToSkip : List Address) :
    ∃ l, getCandidateList p parts maxBytes maxFiles archiveRequestsToSkip = .ok l ∧
      CandidatesOf (candidateView archiveRequestsToSkip) maxBytes maxFiles (queuedJobs p parts)
        l := by
  have hfits : CandidateList.bytesOf (candidateView archiveRequestsToSkip) (queuedJobs p parts) <
      2 ^ 64 := h.fits
  rw [queuedJobs, ← jobsIn_view] at hfits ⊢
  refine CandidateList.getCandidateList_of_totals (fun r hr => ?_) hfits maxBytes maxFiles
  obtain ⟨q, hq, rfl⟩ := List.mem_map.mp hr
  obtain ⟨s, hs, hcount, hbytes, htotal⟩ := h.described q hq
  have hfetch : shardsView parts (pointerView q).address = some (shardView s) := by
    rw [pointerView, shardsView, hs, Option.map_some]
  exact ⟨shardView s, hfetch, hcount, hbytes, htotal⟩

end

end ArchiveQueue

/-- Whatever the limits and the jobs to skip, both kinds of queues list what they should; the jobs
of a retrieve queue are in fSeq order. -/
theorem candidate_lists_exact :
    (∀ (p : RetrieveQueue) (parts : ShardAddress → Option RetrieveQueueShard),
      p.ShardsCoherent parts →
      SortedBy (·.fSeq) (p.queuedJobs parts) ∧
      ∀ (maxBytes : UInt64) (maxFiles : Nat) (retrieveRequestsToSkip : List Address)
        (diskSystemsToSkip : List String),
        ∃ l, p.getCandidateList parts maxBytes maxFiles retrieveRequestsToSkip diskSystemsToSkip =
            .ok l ∧
          CandidatesOf (RetrieveQueue.candidateView retrieveRequestsToSkip diskSystemsToSkip)
            maxBytes maxFiles (p.queuedJobs parts) l) ∧
    ∀ (p : ArchiveQueue) (parts : ShardAddress → Option ArchiveQueueShard),
      p.ShardsCoherent parts →
      ∀ (maxBytes : UInt64) (maxFiles : Nat) (archiveRequestsToSkip : List Address),
        ∃ l, p.getCandidateList parts maxBytes maxFiles archiveRequestsToSkip = .ok l ∧
          CandidatesOf (ArchiveQueue.candidateView archiveRequestsToSkip) maxBytes maxFiles
            (p.queuedJobs parts) l :=
  ⟨fun _ _ h => ⟨RetrieveQueue.queuedJobs_sorted h, h.candidates⟩, fun _ _ h => h.candidates⟩

def twoShards : ShardAddress → Option RetrieveQueueShard
  | 0 => some ⟨[(RetrieveQueue.recallJob 1 "a" 5).toPointer], 10⟩
  | 1 => some ⟨[(RetrieveQueue.recallJob 2 "b" 5).toPointer,
      (RetrieveQueue.recallJob 3 "c" 5).toPointer], 20⟩
  | _ => none

def twoShardQueue : RetrieveQueue :=
  { RetrieveQueue.initialized 2 with retrieveQueueShards := [⟨0, 1, 10, 1, 1⟩, ⟨1, 2, 20, 2, 3⟩] }

/-- The first job is skipped and the second one reaches the limit. -/
theorem candidate_lists_exact_two_shards :
    ∃ l, twoShardQueue.getCandidateList twoShards 5 100 ["a"] [] = .ok l ∧
      CandidatesOf (RetrieveQueue.candidateView ["a"] []) 5 100
        (twoShardQueue.queuedJobs twoShards) l := by
  refine (candidate_lists_exact.1 twoShardQueue twoShards ⟨?_, ?_, ?_⟩).2 5 100 ["a"] []
  · simp only [twoShardQueue, List.forall_mem_cons]
    refine ⟨⟨_, rfl, rfl, rfl, ?_, rfl⟩, ⟨_, rfl, rfl, rfl, ?_, rfl⟩, nofun⟩
    · simp [SortedBy]
    · simp [SortedBy, RetrieveQueue.JobToAdd.toPointer, RetrieveQueue.recallJob]
  · decide
  · decide

end Cta.ObjectStore
