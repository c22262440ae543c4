import Cta.Lib.Runs
import Cta.ObjectStore.ArchiveQueueRounds

/-! Bookkeeping of archive queues over whole runs of additions and removals. -/
namespace Cta.ObjectStore.ArchiveQueue
open Cta.Lib.PartedStore Cta.Lib.Runs ValueCountMap
open ArchiveQueueShard (jobFields)
open ShardRemoval (bytes InOneShard stillToRemove)

inductive Call where
  | add (jobsToAdd : List JobToAdd)
  | remove (jobsToRemove : List Address)

def Call.run : Call → Op Unit
  | .add jobsToAdd => addJobsAndCommit jobsToAdd
  | .remove jobsToRemove => removeJobsAndCommit jobsToRemove

def Call.expected (queued : List ArchiveJobPointer) : Call → List ArchiveJobPointer
  | .add jobsToAdd => queued ++ jobsToAdd.map JobToAdd.toPointer
  | .remove jobsToRemove => queued.filter fun j => decide (j.address ∉ jobsToRemove)

structure Ledger where
  queue : Queue
  queued : List ArchiveJobPointer

def Ledger.next (l : Ledger) (c : Call) : Ledger where
  queue := finalWorld (c.run l.queue)
  queued := c.expected l.queued

def emptyQueue : Queue := ⟨initialized, ⟨initialized, fun _ => none⟩, [], 0, []⟩

/-- The stored queue object and shards account for exactly the queued jobs. -/
structure Bookkept (st : Stored ArchiveQueue ArchiveQueueShard)
    (queued : List ArchiveJobPointer) : Prop where
  fifo : content st.parts st.root.archiveQueueShards = queued
  pointersDiffer : (st.root.archiveQueueShards.map (·.address)).Nodup
  allPointed : ∀ a s, st.parts a = some s → a ∈ st.root.archiveQueueShards.map (·.address)
  pointers : ∀ q ∈ st.root.archiveQueueShards, ∃ s, st.parts q.address = some s ∧
    s.archiveJobs ≠ [] ∧ s.archiveJobs.length ≤ maxShardSize ∧
    q.shardJobsCount = s.archiveJobs.length ∧ q.shardBytesCount = (s.archiveJobs.map (·.size)).sum
  count : st.root.archiveJobsCount = queued.length
  size : st.root.archiveJobsTotalSize = (queued.map (·.size)).sum
  maps : Counted st.root queued
  times : Timed st.root queued

structure Keeps (l : Ledger) (c : Call) : Prop where
  returns : ∃ w', c.run l.queue = .ok () w'
  books : Bookkept (l.next c).queue.stored (l.next c).queued

def Clean (l : Ledger) : Call → Prop
  | .add jobsToAdd => ∀ j ∈ jobsToAdd, InRange j.startTime
  | .remove jobsToRemove => InOneShard jobFields jobsToRemove (shardJobs l.queue.stored.parts)
      (l.queue.memory.archiveQueueShards.map (·.address))

instance Clean.decidable (l : Ledger) : ∀ c, Decidable (Clean l c)
  | .add jobsToAdd => inferInstanceAs (Decidable (∀ j ∈ jobsToAdd, InRange j.startTime))
  | .remove jobsToRemove => InOneShard.decidable jobFields jobsToRemove _ _

theorem settled_emptyQueue : Settled emptyQueue [] where
  fetched := rfl
  sane := by
    refine ⟨List.nodup_nil, ?_, ?_, ?_, rfl, ⟨⟨?_, ?_, ?_⟩, rfl, rfl⟩⟩
    · simp [emptyQueue, initialized]
    · simp [emptyQueue]
    · simp [emptyQueue, initialized]
    · exact counts_nil
    · exact counts_nil
    · exact counts_nil
  timed := fun h => absurd rfl h
  times := by simp [timesOf]

theorem Settled.bookkept {w : Queue} {jobs : List ArchiveJobPointer} (h : Settled w jobs) :
    Bookkept w.stored jobs := by
  obtain ⟨hroot, hs, ht, -⟩ := h
  rw [← hroot] at hs ht
  refine ⟨hs.inOrder, hs.nodup, hs.only, ?_, hs.booked.count, hs.booked.size, hs.booked.counted, ht⟩
  intro q hq
  obtain ⟨s, hs, hd⟩ := hs.described q hq
  exact ⟨s, hs, hd.nonempty, hd.bounded, hd.count, hd.size⟩

theorem Settled.call {l : Ledger} {c : Call} (h : Settled l.queue l.queued) (hc : Clean l c) :
    Keeps l c ∧ Settled (l.next c).queue (l.next c).queued := by
  have returned : ∀ w', c.run l.queue = .ok () w' → Settled w' (c.expected l.queued) →
      Keeps l c ∧ Settled (l.next c).queue (l.next c).queued := by
    intro w' hrun hset
    have hnext : (l.next c).queue = w' := by simp [Ledger.next, hrun, finalWorld]
    have hset' : Settled (l.next c).queue (l.next c).queued := hnext ▸ hset
    exact ⟨⟨⟨w', hrun⟩, hset'.bookkept⟩, hset'⟩
  cases c with
  | add jobsToAdd =>
    obtain ⟨w', hrun, hset⟩ := h.add hc
    exact returned w' hrun hset
  | remove jobsToRemove =>
    obtain ⟨w', hrun, hset⟩ := h.remove hc
    exact returned w' hrun hset

/-- In a run of clean calls every call keeps the books. -/
theorem run_keeps_archive_books (calls : List Call)
    (h : AllSteps Ledger.next Clean ⟨emptyQueue, []⟩ calls) :
    AllSteps Ledger.next Keeps ⟨emptyQueue, []⟩ calls :=
  AllSteps.of_invariant (I := fun l => Settled l.queue l.queued) (fun _ _ hl hc => hl.call hc)
    settled_emptyQueue h

def archival (address : Address) (startTime : Int64) : JobToAdd where
  copyNb := 1
  archiveRequestAddress := address
  archiveFileId := 1
  fileSize := 10
  policy := { name := "policy" }
  startTime := startTime

theorem run_keeps_archive_books_two_calls :
    AllSteps Ledger.next Keeps ⟨emptyQueue, []⟩
      [.add [archival "a" 5, archival "b" 1, archival "c" 9], .remove ["b"]] :=
  run_keeps_archive_books _ (by decide +kernel)

def manyJobs : List JobToAdd := List.replicate (maxShardSize + 1) (archival "a" 5)

theorem Settled.remove_leaves {w : Queue} {jobs : List ArchiveJobPointer} (h : Settled w jobs)
    {a b : ShardAddress} {bs : List ShardAddress}
    (haddr : w.memory.archiveQueueShards.map (·.address) = a :: b :: bs) {r : Address}
    (hr : ∀ j ∈ jobs, j.address = r) :
    ∃ w' jobs', removeJobsAndCommit [r] w = .ok () w' ∧ Settled w' jobs' ∧ jobs' ≠ [] := by
  have haddr0 : w.memory.archiveQueueShards.map (·.address) = [] ++ a :: b :: bs := haddr
  obtain ⟨s, w', mid, jobs', hs, hmid, hrun, hset, -, haddr', -⟩ := h.removeFromShard haddr0 [r]
  have hsome : ∃ j ∈ s.archiveJobs, j.address = r := by
    obtain ⟨q, hq, hqa⟩ : ∃ q ∈ w.memory.archiveQueueShards, q.address = a :=
      List.mem_map.mp (by rw [haddr]; exact List.mem_cons_self)
    obtain ⟨t, ht, hd⟩ := h.sane.described q hq
    obtain rfl : s = t := Option.some.inj (hs.symm.trans (hqa ▸ ht))
    obtain ⟨j, hj⟩ := List.exists_mem_of_ne_nil _ hd.nonempty
    refine ⟨j, hj, hr j ?_⟩
    rw [← h.sane.inOrder, content, List.mem_flatMap]
    exact ⟨q, hq, by rw [hqa, shardJobs_some hs]; exact hj⟩
  have hstill : stillToRemove jobFields [r] s.archiveJobs = [] := by
    obtain ⟨j, hj, hjr⟩ := hsome
    have hmem : r ∈ (ShardRemoval.goneOf jobFields s.archiveJobs [r]).map jobFields.address :=
      List.mem_map.mpr ⟨j, List.mem_filter.mpr ⟨hj, by simp [jobFields, hjr]⟩, hjr⟩
    exact List.filter_eq_nil_iff.mpr fun x hx => by simpa [List.mem_singleton.mp hx] using hmem
  rw [hstill] at hrun
  refine ⟨w', jobs', ?_, hset, ?_⟩
  · have hlen : w.memory.archiveQueueShards.length = bs.length + 2 := by
      simpa using congrArg List.length haddr
    have hstop : ArchiveQueue.removeLoop (bs.length + 1) [] ([] ++ mid).length w' = .ok () w' := by
      unfold ArchiveQueue.removeLoop
      simp
    have hcond : ¬ ([r] = [] ∨ w.memory.archiveQueueShards.length ≤ 0) := by simp [hlen]
    unfold removeJobsAndCommit ArchiveQueue.removeLoop
    simp only [bind_apply, getMemory_apply, if_neg hcond]
    simp only [hlen]
    rw [bind_apply, show ArchiveQueue.removeFromShard [r] 0 w = _ from hrun]
    exact hstop
  · intro hnil
    have hb : b ∈ w'.memory.archiveQueueShards.map (·.address) := by
      rw [haddr']
      simp
    obtain ⟨q, hq, -⟩ := List.mem_map.mp hb
    obtain ⟨t, ht, hd⟩ := hset.sane.described q hq
    obtain ⟨j, hj⟩ := List.exists_mem_of_ne_nil _ hd.nonempty
    have hmem : j ∈ jobs' := by
      rw [← hset.sane.inOrder, content, List.mem_flatMap]
      exact ⟨q, hq, by rw [shardJobs_some ht]; exact hj⟩
    simp [hnil] at hmem

theorem Settled.two_pointers {w : Queue} {jobs : List ArchiveJobPointer} (h : Settled w jobs)
    (hlen : maxShardSize < jobs.length) :
    ∃ a b bs, w.memory.archiveQueueShards.map (·.address) = a :: b :: bs := by
  have hc := h.sane.inOrder
  match hps : w.memory.archiveQueueShards with
  | [] =>
    rw [hps] at hc
    simp [← hc, content] at hlen
  | [q] =>
    obtain ⟨s, hs, hd⟩ := h.sane.described q (by simp [hps])
    have := hd.bounded
    rw [hps] at hc
    have hc' : jobs = s.archiveJobs := by rw [← hc]; simp [content, shardJobs_some hs]
    rw [hc'] at hlen
    omega
  | q :: r :: qs => exact ⟨q.address, r.address, qs.map (·.address), by simp⟩

theorem loses_second_shard {js : List JobToAdd} {r : Address}
    (hrange : ∀ j ∈ js, InRange j.startTime) (hlen : maxShardSize < js.length)
    (hall : ∀ j ∈ js, j.archiveRequestAddress = r) :
    ¬ AllSteps Ledger.next Keeps ⟨emptyQueue, []⟩ [.add js, .remove [r]] := by
  rintro ⟨-, ⟨-, hbooks⟩, -⟩
  have hall' : ∀ j ∈ [] ++ js.map JobToAdd.toPointer, j.address = r := by
    intro j hj
    obtain ⟨k, hk, rfl⟩ := List.mem_map.mp hj
    exact hall k hk
  obtain ⟨w1, hrun1, hset1⟩ := settled_emptyQueue.add hrange
  obtain ⟨a, b, bs, haddr⟩ := hset1.two_pointers (by simpa using hlen)
  obtain ⟨w2, jobs', hrun2, hset2, hne⟩ := hset1.remove_leaves haddr hall'
  have hl1 : (Ledger.next ⟨emptyQueue, []⟩ (.add js)).queue = w1 := by
    simp only [Ledger.next, Call.run, hrun1, finalWorld]
  have hl2 : ((Ledger.next ⟨emptyQueue, []⟩ (.add js)).next (.remove [r])).queue = w2 := by
    rw [Ledger.next, hl1]
    simp only [Call.run, hrun2, finalWorld]
  have hq : ((Ledger.next ⟨emptyQueue, []⟩ (.add js)).next (.remove [r])).queued = [] := by
    simp only [Ledger.next, Call.expected, List.filter_eq_nil_iff]
    intro j hj
    simp [hall' j hj]
  rw [hl2, hq] at hbooks
  exact hne (hset2.bookkept.fifo.symm.trans hbooks.fifo)

/-- Start times before the epoch, the largest start time, or a request in two shards. -/
theorem run_loses_archive_books :
    ¬ AllSteps Ledger.next Keeps ⟨emptyQueue, []⟩ [.add [archival "a" (-1), archival "b" 5]] ∧
    ¬ AllSteps Ledger.next Keeps ⟨emptyQueue, []⟩
      [.add [archival "a" 5, archival "b" Int64.maxValue], .remove ["a"]] ∧
    ¬ AllSteps Ledger.next Keeps ⟨emptyQueue, []⟩ [.add manyJobs, .remove ["a"]] := by
  refine ⟨?_, ?_, loses_second_shard ?_ ?_ ?_⟩
  · rintro ⟨h, -⟩
    have hext := h.books.times (by decide +kernel)
    exact absurd (hext.oldest_le (-1) (by decide +kernel)) (by decide +kernel)
  · rintro ⟨-, h, -⟩
    have hext := h.books.times (by decide +kernel)
    exact absurd hext.oldest_mem (by decide +kernel)
  · intro j hj
    rw [List.eq_of_mem_replicate hj]
    decide
  · rw [manyJobs, List.length_replicate]
    exact Nat.lt_succ_self _
  · intro j hj
    rw [List.eq_of_mem_replicate hj]
    rfl

end Cta.ObjectStore.ArchiveQueue
