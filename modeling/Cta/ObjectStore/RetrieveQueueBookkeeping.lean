import Cta.Lib.Runs
import Cta.ObjectStore.RetrieveQueueRemoval

/-! Bookkeeping of retrieve queues over whole runs of additions and removals. -/
namespace Cta.ObjectStore.RetrieveQueue
open Cta.Lib.PartedStore Cta.Lib.Runs Cta.Lib.SortedByKey ValueCountMap
open ShardRemoval (InOneShard)
open RetrieveQueueShard (bytesOf jobFields)

inductive Call where
  | add (jobsToAdd : List JobToAdd)
  | remove (jobsToRemove : List Address)

def Call.run : Call → Op Unit
  | .add jobsToAdd => addJobsAndCommit jobsToAdd
  | .remove jobsToRemove => removeJobsAndCommit jobsToRemove

def Call.expected (queued : Multiset RetrieveJobPointer) : Call → Multiset RetrieveJobPointer
  | .add jobsToAdd => queued + jobsToAdd.map JobToAdd.toPointer
  | .remove jobsToRemove => queued.filter (·.address ∉ jobsToRemove)

structure Ledger where
  queue : Queue
  queued : Multiset RetrieveJobPointer

def Ledger.next (l : Ledger) (c : Call) : Ledger where
  queue := finalWorld (c.run l.queue)
  queued := c.expected l.queued

def emptyQueue (maxShardSize : Nat) : Queue :=
  ⟨initialized maxShardSize, ⟨initialized maxShardSize, fun _ => none⟩, [], 0, []⟩

/-- The stored queue object and shards account for exactly the queued jobs. -/
structure Bookkept (st : Stored RetrieveQueue RetrieveQueueShard)
    (queued : Multiset RetrieveJobPointer) : Prop where
  content : (jobsIn (found st.parts st.root.retrieveQueueShards) : Multiset RetrieveJobPointer) =
    queued
  pointersDiffer : (st.root.retrieveQueueShards.map (·.address)).Nodup
  allPointed : ∀ a s, st.parts a = some s → a ∈ st.root.retrieveQueueShards.map (·.address)
  pointers : ∀ q ∈ st.root.retrieveQueueShards, ∃ s, st.parts q.address = some s ∧
    q.shardJobsCount = s.retrieveJobs.length ∧ q.shardBytesCount = bytesOf s.retrieveJobs ∧
    SortedBy (·.fSeq) s.retrieveJobs
  ordered : (found st.parts st.root.retrieveQueueShards).Pairwise fun x y =>
    ∀ j ∈ x.2.retrieveJobs, ∀ k ∈ y.2.retrieveJobs, j.fSeq < k.fSeq
  count : st.root.retrieveJobsCount = queued.card
  size : st.root.retrieveJobsTotalSize = (queued.map (·.size)).sum
  maps : Counted st.root queued

def LimitsExact (st : Stored RetrieveQueue RetrieveQueueShard) : Prop :=
  ∀ q ∈ st.root.retrieveQueueShards, ∃ s, st.parts q.address = some s ∧
    q.minFseq = (pointerTo q.address s).minFseq ∧ q.maxFseq = (pointerTo q.address s).maxFseq

structure Keeps (l : Ledger) (c : Call) : Prop where
  returns : ∃ w', c.run l.queue = .ok () w'
  books : Bookkept (l.next c).queue.stored (l.next c).queued
  limits : ∀ jobsToAdd, c = .add jobsToAdd → LimitsExact (l.next c).queue.stored

/-- Additions of fSeqs that have a successor, which split no existing shard twice and none
that stands at one fSeq. -/
def Admissible (l : Ledger) : Call → Prop
  | .add jobsToAdd => (∀ j ∈ jobsToAdd, j.fSeq < 2^64 - 1) ∧
      ((splits l.queue.memory jobsToAdd).map (·.address)).Nodup ∧
      ∀ e ∈ splits l.queue.memory jobsToAdd, e.minFseq < e.maxFseq
  | .remove _ => True

instance Admissible.decidable (l : Ledger) : ∀ c, Decidable (Admissible l c)
  | .add _ => inferInstanceAs (Decidable (_ ∧ _))
  | .remove _ => inferInstanceAs (Decidable True)

/-- The fSeqs have a successor, and no existing shard is split twice. -/
structure SplitsOnce (w : Queue) (jobsToAdd : List JobToAdd) : Prop where
  fSeqs : ∀ j ∈ jobsToAdd, j.fSeq < 2^64 - 1
  once : ((splits w.memory jobsToAdd).map (·.address)).Nodup

instance SplitsOnce.decidable (w : Queue) (jobsToAdd : List JobToAdd) :
    Decidable (SplitsOnce w jobsToAdd) :=
  decidable_of_iff ((∀ j ∈ jobsToAdd, j.fSeq < 2^64 - 1) ∧
    ((splits w.memory jobsToAdd).map (·.address)).Nodup)
    ⟨fun ⟨h1, h2⟩ => ⟨h1, h2⟩, fun ⟨h1, h2⟩ => ⟨h1, h2⟩⟩

/-- Every cut leaves a job on each side and separates no two jobs of a request, no request
is removed from two shards, and an empty batch comes only when the limits are exact. -/
def Clean (l : Ledger) : Call → Prop
  | .add jobsToAdd => CutsCleanly l.queue jobsToAdd ∧ (jobsToAdd = [] → LimitsExact l.queue.stored)
  | .remove jobsToRemove => InOneShard jobFields jobsToRemove (shardJobs l.queue.stored.parts)
      (l.queue.memory.retrieveQueueShards.map (·.address))

instance CleanCut.decidable (l e : ShardForAddition) (s : RetrieveQueueShard) :
    Decidable (CleanCut l e s) :=
  decidable_of_iff ((l.jobsToAdd ≠ [] ∨
      ∃ x ∈ s.retrieveJobs, l.minFseq ≤ x.fSeq ∧ x.fSeq ≤ l.maxFseq) ∧
    (e.jobsToAdd ≠ [] ∨ ∃ x ∈ s.retrieveJobs, l.maxFseq < x.fSeq) ∧
    ∀ x ∈ s.retrieveJobs, ∀ y ∈ s.retrieveJobs, x.fSeq ≤ l.maxFseq → l.maxFseq < y.fSeq →
      x.address ≠ y.address)
    ⟨fun ⟨h1, h2, h3⟩ => ⟨h1, h2, h3⟩, fun ⟨h1, h2, h3⟩ => ⟨h1, h2, h3⟩⟩

instance CutsCleanly.decidable (w : Queue) (jobsToAdd : List JobToAdd) :
    Decidable (CutsCleanly w jobsToAdd) :=
  decidable_of_iff (∀ plan ∈ planJobs w.memory jobsToAdd, ∀ l ∈ plan, ∀ e ∈ plan,
      ∀ a ∈ l.splitSource, e.address = some a → ∀ s ∈ w.stored.parts a, CleanCut l e s)
    ⟨fun h plan hp l hl e he a s ha hea hs => h plan hp l hl e he a ha hea s hs,
      fun h plan hp l hl e he a ha hea s hs => h plan hp l hl e he a s ha hea hs⟩

instance LimitsExact.decidable (st : Stored RetrieveQueue RetrieveQueueShard) :
    Decidable (LimitsExact st) :=
  decidable_of_iff (∀ q ∈ st.root.retrieveQueueShards, ∃ s ∈ st.parts q.address,
      q.minFseq = (pointerTo q.address s).minFseq ∧ q.maxFseq = (pointerTo q.address s).maxFseq)
    Iff.rfl

instance Clean.decidable (l : Ledger) : ∀ c, Decidable (Clean l c)
  | .add _ => inferInstanceAs (Decidable (_ ∧ _))
  | .remove jobsToRemove => InOneShard.decidable jobFields jobsToRemove _ _

structure InOrder (l : Ledger) : Prop where
  fetched : l.queue.stored.root = l.queue.memory
  sane : Sane l.queue.memory l.queue.stored.parts l.queue.nextId l.queued

theorem inOrder_emptyQueue (maxShardSize : Nat) : InOrder ⟨emptyQueue maxShardSize, 0⟩ where
  fetched := rfl
  sane := by
    have hc : ∀ {κ : Type}, Counts ([] : ValueCountMap κ) 0 := fun {κ} => counts_nil
    refine ⟨List.nodup_nil, ?_, ?_, ?_, List.Pairwise.nil, rfl, rfl, rfl, ⟨⟨?_, ?_, ?_⟩, ?_⟩⟩
    · simp [emptyQueue, initialized]
    · simp [emptyQueue]
    · simp [emptyQueue, initialized]
    · exact hc
    · exact hc
    · exact hc
    · exact hc

theorem found_ordered {p : RetrieveQueue} {parts : ShardAddress → Option RetrieveQueueShard}
    {next : Nat} {M : Multiset RetrieveJobPointer} (h : Sane p parts next M) :
    (found parts p.retrieveQueueShards).Pairwise fun x y =>
      ∀ j ∈ x.2.retrieveJobs, ∀ k ∈ y.2.retrieveJobs, j.fSeq < k.fSeq := by
  rw [found, List.pairwise_filterMap]
  refine h.ordered.imp_of_mem fun {q r} hq hr hqr x hx y hy j hj k hk => ?_
  obtain ⟨s, hs, -, hds⟩ := h.described q hq
  obtain ⟨t, ht, -, hdt⟩ := h.described r hr
  rw [hs, Option.map_some, Option.some.injEq] at hx
  rw [ht, Option.map_some, Option.some.injEq] at hy
  subst hx hy
  have := hds.limits j hj
  have := hdt.limits k hk
  omega

theorem InOrder.bookkept {l : Ledger} (h : InOrder l) : Bookkept l.queue.stored l.queued := by
  obtain ⟨hroot, hs⟩ := h
  rw [← hroot] at hs
  refine ⟨hs.content, hs.nodup, hs.only, ?_, found_ordered hs, hs.count, hs.size, hs.booked.counted⟩
  intro q hq
  obtain ⟨s, hq', hsound, hd⟩ := hs.described q hq
  exact ⟨s, hq', hd.count, hd.bytes.trans hsound.coherent.total, hsound.coherent.sorted⟩

theorem PointersExact.limits {st : Stored RetrieveQueue RetrieveQueueShard}
    (h : PointersExact st.root st.parts) : LimitsExact st := by
  intro q hq
  obtain ⟨s, hs, he⟩ := h q hq
  exact ⟨s, hs, congrArg (·.minFseq) he, congrArg (·.maxFseq) he⟩

theorem InOrder.returned {l : Ledger} {c : Call} {w' : Queue} (hrun : c.run l.queue = .ok () w')
    (hroot : w'.stored.root = w'.memory)
    (hs : Sane w'.memory w'.stored.parts w'.nextId (c.expected l.queued))
    (hlim : ∀ jobsToAdd, c = .add jobsToAdd → LimitsExact w'.stored) :
    Keeps l c ∧ InOrder (l.next c) := by
  have hnext : (l.next c).queue = w' := by simp [Ledger.next, hrun, finalWorld]
  have hin : InOrder (l.next c) := ⟨hnext ▸ hroot, hnext ▸ hs⟩
  exact ⟨⟨⟨w', hrun⟩, hin.bookkept, hnext ▸ hlim⟩, hin⟩

theorem InOrder.call {l : Ledger} {c : Call} (h : InOrder l) (ha : Admissible l c)
    (hc : Clean l c) : Keeps l c ∧ InOrder (l.next c) := by
  cases c with
  | add jobsToAdd =>
    obtain ⟨hj, honce, -⟩ := ha
    obtain ⟨hcuts, hempty⟩ := hc
    by_cases hnil : jobsToAdd = []
    · subst hnil
      have hrun : (Call.add []).run l.queue = .ok () l.queue := by
        simp [Call.run, addJobsAndCommit]
      refine InOrder.returned hrun h.fetched ?_ fun _ _ => hempty rfl
      simpa [Call.expected] using h.sane
    · obtain ⟨w', hrun, hroot, hs, hexact, -⟩ := h.sane.add h.fetched hnil hj honce hcuts
      rw [← hroot] at hexact
      exact InOrder.returned hrun hroot hs fun _ _ => hexact.limits
  | remove jobsToRemove =>
    obtain ⟨w', hrun, hroot, hs⟩ := h.sane.remove h.fetched hc
    exact InOrder.returned hrun hroot hs fun _ hadd => by simp at hadd

/-- In a run of clean calls every call keeps the books. -/
theorem run_keeps_books (maxShardSize : Nat) (calls : List Call)
    (h : AllSteps Ledger.next (fun l c => Admissible l c ∧ Clean l c)
      ⟨emptyQueue maxShardSize, 0⟩ calls) :
    AllSteps Ledger.next Keeps ⟨emptyQueue maxShardSize, 0⟩ calls :=
  AllSteps.of_invariant (fun _ _ hl hc => hl.call hc.1 hc.2) (inOrder_emptyQueue maxShardSize) h

def recallJob (fSeq : Nat) (address : Address) (startTime : Int64) : JobToAdd where
  copyNb := 1
  fSeq := fSeq
  retrieveRequestAddress := address
  fileSize := 10
  policy := { name := "policy" }
  startTime := startTime

theorem run_keeps_books_three_calls :
    AllSteps Ledger.next Keeps ⟨emptyQueue 2, 0⟩
      [.add [recallJob 1 "a" 5, recallJob 90 "b" 1, recallJob 100 "c" 9], .add [recallJob 95 "d" 5],
        .remove ["a", "d"]] :=
  run_keeps_books 2 _ (by decide +kernel)

/-- The cut falls below the stored jobs, all of them above the half that is cut off. -/
def emptyCutRun : List Call :=
  [.add [recallJob 1 "a" 5, recallJob 90 "b" 1, recallJob 100 "c" 9], .remove ["a"],
    .add [recallJob 95 "d" 5]]

theorem run_loses_books_emptyCutRun :
    ¬ ∀ (maxShardSize : Nat) (calls : List Call), 1 ≤ maxShardSize →
      AllSteps Ledger.next Admissible ⟨emptyQueue maxShardSize, 0⟩ calls →
      AllSteps Ledger.next Keeps ⟨emptyQueue maxShardSize, 0⟩ calls := by
  intro h
  have hadm : AllSteps Ledger.next Admissible ⟨emptyQueue 2, 0⟩ emptyCutRun := by decide +kernel
  obtain ⟨-, -, hthird, -⟩ := h 2 emptyCutRun (by decide) hadm
  obtain ⟨w', hrun⟩ := hthird.returns
  have hfail : failed ((Call.add [recallJob 95 "d" 5]).run
      (Ledger.next (Ledger.next ⟨emptyQueue 2, 0⟩
        (.add [recallJob 1 "a" 5, recallJob 90 "b" 1, recallJob 100 "c" 9]))
        (.remove ["a"])).queue) = true := by
    decide +kernel
  rw [hrun] at hfail
  simp [failed] at hfail

end Cta.ObjectStore.RetrieveQueue
