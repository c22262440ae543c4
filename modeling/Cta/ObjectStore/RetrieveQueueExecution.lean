import Cta.Lib.Transactions
import Cta.ObjectStore.RetrieveQueueBooks
import Cta.ObjectStore.RetrieveQueuePlan

/-! Execution of a planned addition, function by function: what opening, cutting,
filling and recording a shard leave behind. -/
namespace Cta.ObjectStore.RetrieveQueue
open StoreError ValueCountMap Cta.Lib.Sequence Cta.Lib.PartedStore
open RetrieveQueueShard (Coherent bytesOf kept gone JobsToAddSet.ofList)
open Cta.Lib.Transactions (except_bind_eq_ok)

/-- Every map can be totalled, the three of the check to the same number. -/
structure Tallied (p : RetrieveQueue) (n : Nat) : Prop where
  priority : p.priorityMap.total = .ok n
  age : p.minRetrieveRequestAgeMap.total = .ok n
  policy : p.mountPolicyNameMap.total = .ok n
  activity : ∃ k, p.activityMap.total = .ok k

/-- The four maps are the exact counts of the jobs. -/
structure Booked (p : RetrieveQueue) (jobs : Multiset RetrieveJobPointer) : Prop where
  counted : Counted p jobs
  activity : Counts p.activityMap (jobs.filterMap (·.activity))

theorem Booked.tallied {p : RetrieveQueue} {jobs : Multiset RetrieveJobPointer}
    (h : Booked p jobs) : Tallied p jobs.card := by
  obtain ⟨h1, h2, h3⟩ := h.counted.card
  exact ⟨h1, h2, h3, _, total_counts h.activity⟩

theorem accountJob_tallied {p : RetrieveQueue} {n : Nat} (h : Tallied p n) (j : JobToAdd) :
    ∃ p', accountJob p j = .ok p' ∧ Tallied p' (n + 1) ∧ SameBody p p' := by
  obtain ⟨m1, e1, t1⟩ := incCount_total j.policy.retrievePriority h.priority
  obtain ⟨m2, e2, t2⟩ := incCount_total j.policy.retrieveMinRequestAge h.age
  obtain ⟨m3, e3, t3⟩ := incCount_total j.policy.name h.policy
  obtain ⟨k, hk⟩ := h.activity
  cases ha : j.activity with
  | none =>
    refine ⟨noteStartTime { p with
      priorityMap := m1
      minRetrieveRequestAgeMap := m2
      mountPolicyNameMap := m3
      activityMap := p.activityMap } j.startTime.toUInt64,
      ?_, ⟨t1, t2, t3, k, hk⟩, ⟨rfl, rfl, rfl, rfl⟩⟩
    simp [accountJob, e1, e2, e3, ha, bind, Except.bind, pure, Except.pure]
  | some activity =>
    obtain ⟨m4, e4, t4⟩ := incCount_total activity hk
    refine ⟨noteStartTime { p with
      priorityMap := m1
      minRetrieveRequestAgeMap := m2
      mountPolicyNameMap := m3
      activityMap := m4 } j.startTime.toUInt64,
      ?_, ⟨t1, t2, t3, k + 1, t4⟩, ⟨rfl, rfl, rfl, rfl⟩⟩
    simp [accountJob, e1, e2, e3, e4, ha, bind, Except.bind, pure, Except.pure]

theorem accountJobs_tallied {p : RetrieveQueue} {n : Nat} (h : Tallied p n) (js : List JobToAdd) :
    ∃ p', js.foldlM accountJob p = .ok p' ∧ Tallied p' (n + js.length) ∧ SameBody p p' := by
  have step : ∀ (b : RetrieveQueue) (done : List JobToAdd) (j : JobToAdd),
      (Tallied b (n + done.length) ∧ SameBody p b) →
      ∃ b', accountJob b j = .ok b' ∧ Tallied b' (n + (done ++ [j]).length) ∧ SameBody p b' := by
    rintro b done j ⟨ht, hb⟩
    obtain ⟨b', he, ht', hb'⟩ := accountJob_tallied ht j
    exact ⟨b', he, by simpa [Nat.add_assoc] using ht', hb.trans hb'⟩
  obtain ⟨p', he, ht, hb⟩ := foldlM_invariant step
    ⟨by simpa using h, SameBody.refl p⟩ js
  exact ⟨p', he, by simpa using ht, hb⟩

theorem accountJob_booked {p : RetrieveQueue} {M : Multiset RetrieveJobPointer} (h : Booked p M)
    (j : JobToAdd) : ∃ p', accountJob p j = .ok p' ∧ Booked p' (j.toPointer ::ₘ M) ∧
      SameBody p p' := by
  obtain ⟨m1, e1, c1⟩ := incCount_counts j.policy.retrievePriority h.counted.priority
  obtain ⟨m2, e2, c2⟩ := incCount_counts j.policy.retrieveMinRequestAge h.counted.age
  obtain ⟨m3, e3, c3⟩ := incCount_counts j.policy.name h.counted.policy
  have hc : Counts m1 ((j.toPointer ::ₘ M).map (·.priority)) ∧
      Counts m2 ((j.toPointer ::ₘ M).map (·.minRetrieveRequestAge)) ∧
      Counts m3 ((j.toPointer ::ₘ M).map (·.mountPolicyName)) := by
    simpa [JobToAdd.toPointer] using ⟨c1, c2, c3⟩
  cases ha : j.activity with
  | none =>
    refine ⟨noteStartTime { p with
      priorityMap := m1
      minRetrieveRequestAgeMap := m2
      mountPolicyNameMap := m3
      activityMap := p.activityMap } j.startTime.toUInt64,
      ?_, ⟨⟨hc.1, hc.2.1, hc.2.2⟩, ?_⟩, ⟨rfl, rfl, rfl, rfl⟩⟩
    · simp [accountJob, e1, e2, e3, ha, bind, Except.bind, pure, Except.pure]
    · rw [Multiset.filterMap_cons_none _ _ (by simpa [JobToAdd.toPointer] using ha)]
      exact h.activity
  | some activity =>
    obtain ⟨m4, e4, c4⟩ := incCount_counts activity h.activity
    refine ⟨noteStartTime { p with
      priorityMap := m1
      minRetrieveRequestAgeMap := m2
      mountPolicyNameMap := m3
      activityMap := m4 } j.startTime.toUInt64,
      ?_, ⟨⟨hc.1, hc.2.1, hc.2.2⟩, ?_⟩, ⟨rfl, rfl, rfl, rfl⟩⟩
    · simp [accountJob, e1, e2, e3, e4, ha, bind, Except.bind, pure, Except.pure]
    · rw [Multiset.filterMap_cons_some _ _ _ (by simpa [JobToAdd.toPointer] using ha)]
      exact c4

theorem accountJobs_booked {p : RetrieveQueue} {M : Multiset RetrieveJobPointer} (h : Booked p M)
    (js : List JobToAdd) : ∃ p', js.foldlM accountJob p = .ok p' ∧
      Booked p' (M + js.map JobToAdd.toPointer) ∧ SameBody p p' := by
  have step : ∀ (b : RetrieveQueue) (done : List JobToAdd) (j : JobToAdd),
      (Booked b (M + done.map JobToAdd.toPointer) ∧ SameBody p b) →
      ∃ b', accountJob b j = .ok b' ∧ Booked b' (M + (done ++ [j]).map JobToAdd.toPointer) ∧
        SameBody p b' := by
    rintro b done j ⟨ht, hb⟩
    obtain ⟨b', he, ht', hb'⟩ := accountJob_booked ht j
    refine ⟨b', he, ?_, hb.trans hb'⟩
    rw [List.map_append, List.map_singleton, ← Multiset.coe_add, ← add_assoc,
      Multiset.coe_singleton, add_comm, Multiset.singleton_add]
    exact ht'
  obtain ⟨p', he, ht, hb⟩ := foldlM_invariant step
    ⟨by simpa using h, SameBody.refl p⟩ js
  exact ⟨p', he, by simpa using ht, hb⟩

structure SameTimes (p p' : RetrieveQueue) : Prop where
  oldest : p'.oldestJobCreationTime = p.oldestJobCreationTime
  youngest : p'.youngestJobCreationTime = p.youngestJobCreationTime

structure SameAccounts (p p' : RetrieveQueue) : Prop where
  priority : p'.priorityMap = p.priorityMap
  age : p'.minRetrieveRequestAgeMap = p.minRetrieveRequestAgeMap
  policy : p'.mountPolicyNameMap = p.mountPolicyNameMap
  activity : p'.activityMap = p.activityMap
  times : SameTimes p p'

theorem Booked.congr {p p' : RetrieveQueue} {M : Multiset RetrieveJobPointer} (h : Booked p M)
    (hs : SameAccounts p p') : Booked p' M := by
  refine ⟨⟨?_, ?_, ?_⟩, ?_⟩
  · rw [hs.priority]
    exact h.counted.priority
  · rw [hs.age]
    exact h.counted.age
  · rw [hs.policy]
    exact h.counted.policy
  · rw [hs.activity]
    exact h.activity

def noteJob (p : RetrieveQueue) (j : JobToAdd) : RetrieveQueue :=
  noteStartTime p j.startTime.toUInt64

theorem SameTimes.noteJob {p p' : RetrieveQueue} (h : SameTimes p p') (j : JobToAdd) :
    SameTimes (noteJob p j) (noteJob p' j) := by
  simp only [RetrieveQueue.noteJob, noteStartTime, h.oldest, h.youngest]
  exact ⟨rfl, rfl⟩

theorem SameTimes.foldl_noteJob {p p' : RetrieveQueue} (h : SameTimes p p') (js : List JobToAdd) :
    SameTimes (js.foldl RetrieveQueue.noteJob p) (js.foldl RetrieveQueue.noteJob p') := by
  induction js generalizing p p' with
  | nil => exact h
  | cons j js ih => exact ih (h.noteJob j)

theorem SameTimes.trans {p p' p'' : RetrieveQueue} (h : SameTimes p p') (h' : SameTimes p' p'') :
    SameTimes p p'' :=
  ⟨h'.oldest.trans h.oldest, h'.youngest.trans h.youngest⟩

/-- The queue object before, with some jobs added to the maps and the times. -/
structure Accounted (p p' : RetrieveQueue) (js : List JobToAdd) : Prop where
  booked : ∀ M, Booked p M → Booked p' (M + js.map JobToAdd.toPointer)
  noted : SameTimes (js.foldl noteJob p) p'

theorem accountJob_shards {p p' : RetrieveQueue} {j : JobToAdd} (h : accountJob p j = .ok p') :
    p'.retrieveQueueShards = p.retrieveQueueShards := by
  obtain ⟨m1, -, h⟩ := except_bind_eq_ok.mp h
  obtain ⟨m2, -, h⟩ := except_bind_eq_ok.mp h
  obtain ⟨m3, -, h⟩ := except_bind_eq_ok.mp h
  cases ha : j.activity with
  | none =>
    rw [ha] at h
    obtain rfl := Except.ok.inj h
    rfl
  | some activity =>
    rw [ha] at h
    obtain ⟨m4, -, h⟩ := except_bind_eq_ok.mp h
    obtain rfl := Except.ok.inj h
    rfl

theorem accountJobs_shards {p p' : RetrieveQueue} {js : List JobToAdd}
    (h : js.foldlM accountJob p = .ok p') : p'.retrieveQueueShards = p.retrieveQueueShards := by
  induction js generalizing p with
  | nil => exact congrArg (·.retrieveQueueShards) (Except.ok.inj h).symm
  | cons j js ih =>
    rw [List.foldlM_cons] at h
    obtain ⟨q, hq, hrest⟩ := except_bind_eq_ok.mp h
    exact (ih hrest).trans (accountJob_shards hq)

theorem accountJob_times {p p' : RetrieveQueue} {j : JobToAdd} (h : accountJob p j = .ok p') :
    SameTimes (noteJob p j) p' := by
  obtain ⟨m1, -, h⟩ := except_bind_eq_ok.mp h
  obtain ⟨m2, -, h⟩ := except_bind_eq_ok.mp h
  obtain ⟨m3, -, h⟩ := except_bind_eq_ok.mp h
  cases ha : j.activity with
  | none =>
    rw [ha] at h
    obtain rfl := Except.ok.inj h
    exact ⟨rfl, rfl⟩
  | some activity =>
    rw [ha] at h
    obtain ⟨m4, -, h⟩ := except_bind_eq_ok.mp h
    obtain rfl := Except.ok.inj h
    exact ⟨rfl, rfl⟩

theorem accountJobs_times {p p' : RetrieveQueue} {js : List JobToAdd}
    (h : js.foldlM accountJob p = .ok p') : SameTimes (js.foldl noteJob p) p' := by
  induction js generalizing p with
  | nil =>
    obtain rfl := Except.ok.inj h
    exact ⟨rfl, rfl⟩
  | cons j js ih =>
    rw [List.foldlM_cons] at h
    cases hj : accountJob p j with
    | error e => simp [hj, bind, Except.bind] at h
    | ok q =>
      rw [hj] at h
      exact ((accountJob_times hj).foldl_noteJob js).trans (ih h)

/-- Jobs accounted one after the other, between queue objects that differ in the rest only. -/
theorem accounted_of_foldlM {p q q' p' : RetrieveQueue} {js : List JobToAdd}
    (h : js.foldlM accountJob q = .ok q') (hp : SameAccounts p q) (hp' : SameAccounts q' p') :
    Accounted p p' js := by
  refine ⟨fun M hM => ?_, ?_⟩
  · obtain ⟨b, hb, hbooked, -⟩ := accountJobs_booked (hM.congr hp) js
    obtain rfl : q' = b := Except.ok.inj (h.symm.trans hb)
    exact hbooked.congr hp'
  · exact (hp.times.foldl_noteJob js).trans ((accountJobs_times h).trans hp'.times)

theorem Accounted.trans {p p' p'' : RetrieveQueue} {js ks : List JobToAdd}
    (h : Accounted p p' js) (h' : Accounted p' p'' ks) : Accounted p p'' (js ++ ks) := by
  refine ⟨fun M hM => ?_, ?_⟩
  · rw [List.map_append, ← Multiset.coe_add, ← add_assoc]
    exact h'.booked _ (h.booked M hM)
  · rw [List.foldl_append]
    exact (h.noted.foldl_noteJob ks).trans h'.noted

/-- The stored jobs that a cut off shard takes over. -/
def moved (l : ShardForAddition) (s : RetrieveQueueShard) : List RetrieveJobPointer :=
  s.retrieveJobs.filter fun p => decide (l.minFseq ≤ p.fSeq ∧ p.fSeq ≤ l.maxFseq)

def movedAddresses (l : ShardForAddition) (s : RetrieveQueueShard) : List Address :=
  (moved l s).map (·.address)

def trimmed (l : ShardForAddition) (s : RetrieveQueueShard) : RetrieveQueueShard :=
  (s.removeJobs (movedAddresses l s)).1

theorem filter_inRange (l : ShardForAddition) (s : RetrieveQueueShard) :
    s.dumpJobsToAdd.filter (inRange l) = (moved l s).map RetrieveJobPointer.toJobToAdd := by
  rw [RetrieveQueueShard.dumpJobsToAdd, List.filter_map]
  rfl

theorem transferJobs_inserted (l : ShardForAddition) (js : List JobToAdd) {r : RetrieveQueueShard}
    (h : Coherent r) : ∃ r', transferJobs l js r = some r' ∧ Coherent r' ∧
      r'.retrieveJobs.Perm ((js.filter (inRange l)).map JobToAdd.toPointer ++ r.retrieveJobs) := by
  induction js generalizing r with
  | nil => exact ⟨r, rfl, h, List.Perm.refl _⟩
  | cons j js ih =>
    by_cases hj : l.minFseq ≤ j.fSeq ∧ j.fSeq ≤ l.maxFseq
    · obtain ⟨r1, e1, c1, p1⟩ := RetrieveQueueShard.addJobsBatch_inserted [j] h
      obtain ⟨r2, e2, c2, p2⟩ := ih c1
      refine ⟨r2, by simp [transferJobs, hj, e1, e2], c2, p2.trans ?_⟩
      have hin : inRange l j = true := by simp [inRange, hj]
      rw [List.filter_cons_of_pos hin]
      exact (p1.append_left _).trans List.perm_middle
    · obtain ⟨r2, e2, c2, p2⟩ := ih h
      have hin : ¬ inRange l j = true := by simp [inRange, hj]
      refine ⟨r2, by simp [transferJobs, hj, RetrieveQueueShard.addJobsBatch, e2], c2, ?_⟩
      rwa [List.filter_cons_of_neg hin]

theorem transfer_moved (l : ShardForAddition) (s : RetrieveQueueShard) :
    ∃ r, transferJobs l s.dumpJobsToAdd RetrieveQueueShard.initialized = some r ∧ Coherent r ∧
      r.retrieveJobs.Perm (moved l s) := by
  obtain ⟨r, he, hc, hp⟩ := transferJobs_inserted l s.dumpJobsToAdd
    RetrieveQueueShard.coherent_initialized
  refine ⟨r, he, hc, ?_⟩
  simpa [filter_inRange, RetrieveQueueShard.initialized, Function.comp_def] using hp

def cutUpdate (n a : ShardAddress) (l : ShardForAddition) (s r : RetrieveQueueShard) :
    ShardUpdate where
  address := n
  rqs := r
  addedJobs := (moved l s).length
  addedBytes := bytesOf (moved l s)
  transferedInSplitJobs := (gone s (movedAddresses l s)).length
  transferedInSplitBytes := bytesOf (gone s (movedAddresses l s))
  splitFrom := some (a, trimmed l s)

/-- Pointers after a cut, with estimates for both halves. -/
def cutPointers (n : ShardAddress) (l e : ShardForAddition) (ps : List RetrieveQueueShardPointer)
    (q : RetrieveQueueShardPointer) (qs : List RetrieveQueueShardPointer) :
    List RetrieveQueueShardPointer :=
  ps ++ ⟨n, l.jobsCount, 1, l.minFseq, l.maxFseq⟩ ::
    { q with minFseq := e.minFseq, maxFseq := e.maxFseq, shardJobsCount := e.jobsCount } :: qs

theorem moveDown_pointer {l ps qs : List RetrieveQueueShardPointer} (h : l = ps ++ qs)
    (q : RetrieveQueueShardPointer) :
    moveDown ps.length l.length (l ++ [q]) = some (ps ++ q :: qs) := by
  rw [h, List.length_append]
  exact moveDown_append ps qs q

theorem createShard_cut {plan : List ShardForAddition} {l e : ShardForAddition} {w : Queue}
    {a : ShardAddress} {ps qs : List RetrieveQueueShardPointer} {q : RetrieveQueueShardPointer}
    {s r : RetrieveQueueShard} (hl : CutOff a l) (hli : l.shardIndex = ps.length)
    (hps : w.memory.retrieveQueueShards = ps ++ q :: qs) (hq : q.address = a)
    (hfind : plan.find? (fun sfa => sfa.address = some a) = some e)
    (hei : e.shardIndex = ps.length + 1) (hs : w.stored.parts a = some s)
    (hr : transferJobs l s.dumpJobsToAdd RetrieveQueueShard.initialized = some r) :
    createShard plan l w = .ok (cutUpdate w.nextId a l s r) { w with
      nextId := w.nextId + 1
      memory := { w.memory with retrieveQueueShards := cutPointers w.nextId l e ps q qs }
      log := w.log ++ [.pointer w.nextId (some w.nextId), .pointer a (some a)] } := by
  have hcreate := moveDown_pointer hps ⟨w.nextId, 0, 0, 0, 0⟩
  have hrem := RetrieveQueueShard.removeJobs_removed s (movedAddresses l s)
  have haddr : (s.dumpJobsToAdd.filter (inRange l)).map (·.retrieveRequestAddress) =
      movedAddresses l s := by
    rw [filter_inRange, List.map_map]
    rfl
  have hbytes : ((s.dumpJobsToAdd.filter (inRange l)).map (·.fileSize)).sum =
      bytesOf (moved l s) := by
    rw [filter_inRange, List.map_map]
    rfl
  have hlen : (s.dumpJobsToAdd.filter (inRange l)).length = (moved l s).length := by
    rw [filter_inRange, List.length_map]
  simp [createShard, splitShard, mutablePointer, setPointer, fetchShard, hl.fromSplit,
    hl.splitSource, hli, hei, hcreate, hfind, hs, hr, haddr, hbytes, hlen, hq, cutUpdate,
    cutPointers, trimmed, hrem.jobsRemoved, hrem.bytesRemoved]

theorem createShard_first (plan : List ShardForAddition) {e : ShardForAddition} {w : Queue}
    (hf : e.fromSplit = false) (hi : e.shardIndex = 0) (hps : w.memory.retrieveQueueShards = []) :
    createShard plan e w =
      .ok { address := w.nextId, rqs := RetrieveQueueShard.initialized } { w with
      nextId := w.nextId + 1
      memory := { w.memory with retrieveQueueShards := [⟨w.nextId, 0, 0, 0, 0⟩] }
      log := w.log ++ [.pointer w.nextId (some w.nextId)] } := by
  simp [createShard, mutablePointer, hf, hi, hps, moveDown]

theorem openShard_ok {e : ShardForAddition} {w : Queue} {a : ShardAddress}
    {ps qs : List RetrieveQueueShardPointer} {q : RetrieveQueueShardPointer}
    {s : RetrieveQueueShard} (ha : e.address = some a) (hi : e.shardIndex = ps.length)
    (hps : w.memory.retrieveQueueShards = ps ++ q :: qs) (hq : q.address = a)
    (hs : w.stored.parts a = some s) :
    openShard e w =
      .ok { address := a, rqs := s } { w with log := w.log ++ [.pointer a (some a)] } := by
  simp [openShard, fetchShard, mutablePointer, ha, hi, hps, hq, hs]

def ShardUpdate.filled (u : ShardUpdate) (js : List JobToAdd) (s : RetrieveQueueShard) :
    ShardUpdate :=
  { u with
    rqs := s
    addedJobs := u.addedJobs + js.length
    addedBytes := u.addedBytes + (js.map (·.fileSize)).sum }

theorem fillShard_ok {e : ShardForAddition} {u : ShardUpdate} {w : Queue} {p : RetrieveQueue}
    {s : RetrieveQueueShard} (hacc : e.jobsToAdd.foldlM accountJob w.memory = .ok p)
    (hadd : u.rqs.addJobsBatch (JobsToAddSet.ofList e.jobsToAdd) = some s) :
    fillShard e u w = .ok (u.filled e.jobsToAdd s) { w with memory := p } := by
  simp [fillShard, hacc, hadd, ShardUpdate.filled]

theorem addJobsBatch_planned {u : RetrieveQueueShard} (h : Coherent u) (js : List JobToAdd) :
    ∃ s, u.addJobsBatch (JobsToAddSet.ofList js) = some s ∧ Coherent s ∧
      s.retrieveJobs.Perm (js.map JobToAdd.toPointer ++ u.retrieveJobs) := by
  obtain ⟨s, he, hc, hp⟩ := RetrieveQueueShard.addJobsBatch_inserted (JobsToAddSet.ofList js) h
  refine ⟨s, he, hc, hp.trans ?_⟩
  exact ((RetrieveQueueShard.JobsToAddSet.ofList_perm js).map _).append_right _

def recorded (p : RetrieveQueue) (i : Nat) (u : ShardUpdate) : RetrieveQueue :=
  { p with
    retrieveQueueShards := p.retrieveQueueShards.set i (pointerTo u.address u.rqs)
    retrieveJobsCount := sub64 (p.retrieveJobsCount + u.addedJobs) u.transferedInSplitJobs
    retrieveJobsTotalSize := p.retrieveJobsTotalSize + u.addedBytes - u.transferedInSplitBytes }

/-- The pointer at the index is that of the shard. -/
def PointsAt (p : RetrieveQueue) (i : Nat) (a : ShardAddress) : Prop :=
  ∃ q, p.retrieveQueueShards[i]? = some q ∧ q.address = a

theorem recordShard_ok {e : ShardForAddition} {u : ShardUpdate} (h : Sound u.rqs) {w : Queue}
    (hat : PointsAt w.memory e.shardIndex u.address) :
    recordShard e u w = .ok () { w with
      memory := recorded w.memory e.shardIndex u
      log := w.log ++ [.summary u.rqs.retrieveJobs.length] } := by
  obtain ⟨q, hq, ha⟩ := hat
  have hset (change : RetrieveQueueShardPointer → RetrieveQueueShardPointer) :
      w.memory.retrieveQueueShards.modify e.shardIndex change =
        w.memory.retrieveQueueShards.set e.shardIndex (change q) := by
    rw [List.modify_eq_set_getElem?, hq]
    rfl
  simp [recordShard, shardSummary, updatePointer, h.summary u.address, recorded, pointerTo, hset,
    ha]

theorem recordShard_empty {e : ShardForAddition} {u : ShardUpdate} (h : u.rqs.retrieveJobs = [])
    (w : Queue) : recordShard e u w = .error outOfRange { w with log := w.log ++ [.summary 0] } := by
  simp [recordShard, shardSummary, RetrieveQueueShard.getJobsSummary, h]

def numberFrom : Nat → List ShardForAddition → List ShardForAddition
  | _, [] => []
  | k, e :: l => { e with shardIndex := k } :: numberFrom (k + 1) l

theorem numberShards_eq (l : List ShardForAddition) : numberShards l = numberFrom 0 l := by
  have main : ∀ (l : List ShardForAddition) (k : Nat),
      l.mapIdx (fun i e => { e with shardIndex := k + i }) = numberFrom k l := by
    intro l
    induction l with
    | nil => intro k; rfl
    | cons e l ih =>
      intro k
      rw [List.mapIdx_cons, numberFrom, ← ih (k + 1)]
      simp [Nat.add_assoc, Nat.add_comm 1]
  simpa [numberShards] using main l 0

theorem numberFrom_append (k : Nat) (l m : List ShardForAddition) :
    numberFrom k (l ++ m) = numberFrom k l ++ numberFrom (k + l.length) m := by
  induction l generalizing k with
  | nil => simp [numberFrom]
  | cons e l ih => simp [numberFrom, ih, Nat.add_assoc, Nat.add_comm 1]

theorem find_numberFrom_none {a : ShardAddress} {l : List ShardForAddition}
    (h : ∀ e ∈ l, e.address ≠ some a) (k : Nat) :
    (numberFrom k l).find? (fun sfa => sfa.address = some a) = none := by
  induction l generalizing k with
  | nil => rfl
  | cons e l ih =>
    have he := h e List.mem_cons_self
    simp only [numberFrom, List.find?_cons, decide_eq_false he]
    exact ih (fun x hx => h x (List.mem_cons_of_mem e hx)) (k + 1)

theorem Group.addresses_ne {g : Group} {a : ShardAddress} (h : g.address ≠ a) :
    ∀ e ∈ g.shards, e.address ≠ some a := by
  intro e he
  rcases List.mem_append.mp he with he | he
  · simp [(g.isCutOff e he).address]
  · rw [List.mem_singleton.mp he, g.isSource.address]
    exact fun hc => h (Option.some.inj hc)

/-- The split source of a cut off shard is found with its own index. -/
theorem find_source {gs : List Group} (hn : (gs.map Group.address).Nodup)
    (gpre : List Group) (g : Group) (gpost : List Group) (hgs : gs = gpre ++ g :: gpost) :
    (numberFrom 0 (gs.flatMap Group.shards)).find? (fun sfa => sfa.address = some g.address) =
      some { g.source with
        shardIndex := 0 + (gpre.flatMap Group.shards).length + g.lowers.length } := by
  subst hgs
  rw [List.map_append, List.map_cons, List.nodup_middle, List.nodup_cons] at hn
  have hpre : ∀ e ∈ gpre.flatMap Group.shards, e.address ≠ some g.address := by
    intro e he
    obtain ⟨x, hx, hex⟩ := List.mem_flatMap.mp he
    refine Group.addresses_ne (fun hc => hn.1 ?_) e hex
    exact List.mem_append_left _ (hc ▸ List.mem_map_of_mem hx)
  have hlow : ∀ e ∈ g.lowers, e.address ≠ some g.address := by
    intro e he
    simp [(g.isCutOff e he).address]
  rw [List.flatMap_append, List.flatMap_cons, Group.shards, numberFrom_append, numberFrom_append,
    numberFrom_append, List.find?_append, find_numberFrom_none hpre, List.find?_append,
    List.find?_append, find_numberFrom_none hlow]
  simp [numberFrom, g.isSource.address]

section
variable {plan : List ShardForAddition} {l e : ShardForAddition} {w : Queue} {a : ShardAddress}
  {ps qs : List RetrieveQueueShardPointer} {q : RetrieveQueueShardPointer}
  {s r s' : RetrieveQueueShard} {p : RetrieveQueue}

def openUpdate (a : ShardAddress) (js : List JobToAdd) (s : RetrieveQueueShard) : ShardUpdate :=
  (ShardUpdate.mk a s 0 0 0 0 none).filled js s

/-- The world once a queue object and then a shard are stored. -/
def afterStore (w : Queue) (p : RetrieveQueue) (a : ShardAddress)
    (s : RetrieveQueueShard) : Queue :=
  let w1 := World.write { w with memory := p } { w.stored with root := p }
  w1.write { w1.stored with parts := Function.update w.stored.parts a (some s) }

@[simp] theorem afterStore_memory : (afterStore w p a s).memory = p := rfl

@[simp] theorem afterStore_stored : (afterStore w p a s).stored =
    ⟨p, Function.update w.stored.parts a (some s)⟩ := rfl

@[simp] theorem afterStore_nextId : (afterStore w p a s).nextId = w.nextId := rfl

@[simp] theorem afterStore_log : (afterStore w p a s).log = w.log := rfl

theorem commit_store (h : checkMapsAndShardsCoherency w.memory = .ok true) :
    (do commit; putPart a s : Op Unit) w = .ok () (afterStore w w.memory a s) := by
  rw [bind_apply, commit_coherent h]
  rfl

theorem addToShard_eq (plan : List ShardForAddition) (e : ShardForAddition) :
    addToShard plan e = (if e.newShard then createShard plan e else openShard e) >>= fun u =>
      fillShard e u >>= fun u => recordShard e u >>= fun _ => storeShard e u := by
  unfold addToShard
  split <;> rfl

section
variable {u : ShardUpdate} {w₁ : Queue}

theorem start_open (plan : List ShardForAddition) (hnew : e.newShard = false)
    (h : openShard e w = .ok u w₁) :
    (if e.newShard then createShard plan e else openShard e) w = .ok u w₁ := by
  rw [if_neg (by simp [hnew])]
  exact h

theorem start_create (hnew : e.newShard = true) (h : createShard plan e w = .ok u w₁) :
    (if e.newShard then createShard plan e else openShard e) w = .ok u w₁ := by
  rw [if_pos hnew]
  exact h

variable
  (hstart : (if e.newShard then createShard plan e else openShard e) w = .ok u w₁)
  (hacc : e.jobsToAdd.foldlM accountJob w₁.memory = .ok p)
  (hadd : u.rqs.addJobsBatch (JobsToAddSet.ofList e.jobsToAdd) = some s')
include hstart hacc hadd

/-- The shard that was opened or made is filled, recorded and stored. -/
theorem addToShard_recorded (hs' : Sound s') (hat : PointsAt w₁.memory e.shardIndex u.address) :
    addToShard plan e w = storeShard e (u.filled e.jobsToAdd s') { w₁ with
      memory := recorded p e.shardIndex (u.filled e.jobsToAdd s')
      log := w₁.log ++ [.summary s'.retrieveJobs.length] } := by
  have hat' : PointsAt p e.shardIndex u.address := by
    rw [PointsAt, accountJobs_shards hacc]
    exact hat
  have hrec := @recordShard_ok e (u.filled e.jobsToAdd s') hs' { w₁ with memory := p } hat'
  rw [addToShard_eq]
  simp only [bind_apply, hstart, fillShard_ok hacc hadd, hrec]
  rfl

theorem addToShard_empty (hs' : s'.retrieveJobs = []) :
    addToShard plan e w = .error outOfRange { w₁ with
      memory := p
      log := w₁.log ++ [.summary 0] } := by
  have hrec := recordShard_empty (e := e) (u := u.filled e.jobsToAdd s') hs'
    { w₁ with memory := p }
  rw [addToShard_eq]
  simp only [bind_apply, hstart, fillShard_ok hacc hadd, hrec]

end

theorem addToShard_open (plan : List ShardForAddition) (hnew : e.newShard = false)
    (hf : e.fromSplit = false)
    (ha : e.address = some a) (hi : e.shardIndex = ps.length)
    (hps : w.memory.retrieveQueueShards = ps ++ q :: qs) (hq : q.address = a)
    (hs : w.stored.parts a = some s) (hacc : e.jobsToAdd.foldlM accountJob w.memory = .ok p)
    (hadd : s.addJobsBatch (JobsToAddSet.ofList e.jobsToAdd) = some s') (hs' : Sound s') :
    addToShard plan e w = (do commit; putPart a s' : Op Unit) { w with
      memory := recorded p ps.length (openUpdate a e.jobsToAdd s')
      log := w.log ++ [.pointer a (some a), .summary s'.retrieveJobs.length] } := by
  have hstart := start_open plan hnew (openShard_ok ha hi hps hq hs)
  rw [addToShard_recorded hstart hacc hadd hs' ⟨q, by simp [hi, hps], hq⟩, hi]
  simp [storeShard, hf, ShardUpdate.filled, openUpdate]

theorem addToShard_open_empty (plan : List ShardForAddition) (hnew : e.newShard = false)
    (ha : e.address = some a) (hi : e.shardIndex = ps.length)
    (hps : w.memory.retrieveQueueShards = ps ++ q :: qs) (hq : q.address = a)
    (hs : w.stored.parts a = some s) (hacc : e.jobsToAdd.foldlM accountJob w.memory = .ok p)
    (hadd : s.addJobsBatch (JobsToAddSet.ofList e.jobsToAdd) = some s')
    (hs' : s'.retrieveJobs = []) :
    addToShard plan e w = .error outOfRange { w with
      memory := p
      log := w.log ++ [.pointer a (some a), .summary 0] } := by
  have hstart := start_open plan hnew (openShard_ok ha hi hps hq hs)
  rw [addToShard_empty hstart hacc hadd hs', List.append_assoc]
  rfl

/-- The two shards of a cut are stored after a blind commit of the queue. -/
theorem addToShard_cut (hl : CutOff a l) (hli : l.shardIndex = ps.length)
    (hps : w.memory.retrieveQueueShards = ps ++ q :: qs) (hq : q.address = a)
    (hfind : plan.find? (fun sfa => sfa.address = some a) = some e)
    (hei : e.shardIndex = ps.length + 1) (hs : w.stored.parts a = some s)
    (hr : transferJobs l s.dumpJobsToAdd RetrieveQueueShard.initialized = some r)
    (hacc : l.jobsToAdd.foldlM accountJob
      { w.memory with retrieveQueueShards := cutPointers w.nextId l e ps q qs } = .ok p)
    (hadd : r.addJobsBatch (JobsToAddSet.ofList l.jobsToAdd) = some s') (hs' : Sound s') :
    addToShard plan l w =
      (do commitRoot; putPart w.nextId s'; putPart a (trimmed l s) : Op Unit) { w with
        nextId := w.nextId + 1
        memory := recorded p ps.length ((cutUpdate w.nextId a l s r).filled l.jobsToAdd s')
        log := w.log ++ [.pointer w.nextId (some w.nextId), .pointer a (some a),
          .summary s'.retrieveJobs.length] } := by
  have hstart := start_create hl.newShard (createShard_cut hl hli hps hq hfind hei hs hr)
  have hat : PointsAt { w.memory with
      retrieveQueueShards := cutPointers w.nextId l e ps q qs } l.shardIndex w.nextId :=
    ⟨⟨w.nextId, l.jobsCount, 1, l.minFseq, l.maxFseq⟩, by simp [cutPointers, hli], rfl⟩
  rw [addToShard_recorded hstart hacc hadd hs' hat, hli]
  simp [storeShard, hl.fromSplit, ShardUpdate.filled, cutUpdate]

theorem addToShard_cut_empty (hl : CutOff a l) (hli : l.shardIndex = ps.length)
    (hps : w.memory.retrieveQueueShards = ps ++ q :: qs) (hq : q.address = a)
    (hfind : plan.find? (fun sfa => sfa.address = some a) = some e)
    (hei : e.shardIndex = ps.length + 1) (hs : w.stored.parts a = some s)
    (hr : transferJobs l s.dumpJobsToAdd RetrieveQueueShard.initialized = some r)
    (hacc : l.jobsToAdd.foldlM accountJob
      { w.memory with retrieveQueueShards := cutPointers w.nextId l e ps q qs } = .ok p)
    (hadd : r.addJobsBatch (JobsToAddSet.ofList l.jobsToAdd) = some s')
    (hs' : s'.retrieveJobs = []) :
    addToShard plan l w = .error outOfRange { w with
      nextId := w.nextId + 1
      memory := p
      log := w.log ++ [.pointer w.nextId (some w.nextId), .pointer a (some a), .summary 0] } := by
  have hstart := start_create hl.newShard (createShard_cut hl hli hps hq hfind hei hs hr)
  rw [addToShard_empty hstart hacc hadd hs', List.append_assoc]
  rfl

theorem addToShard_first (plan : List ShardForAddition) (hnew : e.newShard = true)
    (hf : e.fromSplit = false)
    (hi : e.shardIndex = 0) (hps : w.memory.retrieveQueueShards = [])
    (hacc : e.jobsToAdd.foldlM accountJob
      { w.memory with retrieveQueueShards := [⟨w.nextId, 0, 0, 0, 0⟩] } = .ok p)
    (hadd : RetrieveQueueShard.initialized.addJobsBatch (JobsToAddSet.ofList e.jobsToAdd) = some s')
    (hs' : Sound s') :
    addToShard plan e w = (do commit; putPart w.nextId s' : Op Unit) { w with
      nextId := w.nextId + 1
      memory := recorded p 0 (openUpdate w.nextId e.jobsToAdd s')
      log := w.log ++ [.pointer w.nextId (some w.nextId), .summary s'.retrieveJobs.length] } := by
  have hstart := start_create hnew (createShard_first plan hf hi hps)
  rw [addToShard_recorded hstart hacc hadd hs' ⟨⟨w.nextId, 0, 0, 0, 0⟩, by simp [hi], rfl⟩, hi]
  simp [storeShard, hf, ShardUpdate.filled, openUpdate]

end

end Cta.ObjectStore.RetrieveQueue
