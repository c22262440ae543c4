import Cta.ObjectStore.RetrieveQueue
import Mathlib.Algebra.Order.BigOperators.Group.Multiset

/-! The summaries of a retrieve queue: the coherency check, and the rebuild that
recomputes them from the shards. -/
namespace Cta.ObjectStore.RetrieveQueue
open StoreError ValueCountMap Cta.Lib.Sequence Cta.Lib.SortedByKey Cta.Lib.PartedStore
open RetrieveQueueShard (Coherent bytesOf)

/-- The three maps that the check looks at are the exact counts of the jobs. -/
structure Counted (p : RetrieveQueue) (jobs : Multiset RetrieveJobPointer) : Prop where
  priority : Counts p.priorityMap (jobs.map (·.priority))
  age : Counts p.minRetrieveRequestAgeMap (jobs.map (·.minRetrieveRequestAge))
  policy : Counts p.mountPolicyNameMap (jobs.map (·.mountPolicyName))

structure SameBody (p p' : RetrieveQueue) : Prop where
  shards : p'.retrieveQueueShards = p.retrieveQueueShards
  size : p'.retrieveJobsTotalSize = p.retrieveJobsTotalSize
  count : p'.retrieveJobsCount = p.retrieveJobsCount
  maxShardSize : p'.maxShardSize = p.maxShardSize

theorem SameBody.refl (p : RetrieveQueue) : SameBody p p := ⟨rfl, rfl, rfl, rfl⟩

theorem SameBody.trans {p p' p'' : RetrieveQueue} (h : SameBody p p') (h' : SameBody p' p'') :
    SameBody p p'' :=
  ⟨h'.1.trans h.1, h'.2.trans h.2, h'.3.trans h.3, h'.4.trans h.4⟩

theorem Counted.card {p : RetrieveQueue} {jobs : Multiset RetrieveJobPointer} (h : Counted p jobs) :
    p.priorityMap.total = .ok jobs.card ∧ p.minRetrieveRequestAgeMap.total = .ok jobs.card ∧
      p.mountPolicyNameMap.total = .ok jobs.card := by
  refine ⟨?_, ?_, ?_⟩
  · simpa using total_counts h.priority
  · simpa using total_counts h.age
  · simpa using total_counts h.policy

/-- The check passes when the totals are the sums over the pointers and every map has
that many entries. -/
theorem check_ok {p : RetrieveQueue} {n : Nat}
    (hsize : p.retrieveJobsTotalSize = (p.retrieveQueueShards.map (·.shardBytesCount)).sum)
    (hsum : p.retrieveJobsCount = (p.retrieveQueueShards.map (·.shardJobsCount)).sum)
    (hcount : p.retrieveJobsCount = n) (h1 : p.priorityMap.total = .ok n)
    (h2 : p.minRetrieveRequestAgeMap.total = .ok n) (h3 : p.mountPolicyNameMap.total = .ok n) :
    checkMapsAndShardsCoherency p = .ok true := by
  rw [hcount] at hsum
  simp [checkMapsAndShardsCoherency, hsize, hcount, ← hsum, h1, h2, h3, bind, Except.bind, pure,
    Except.pure]

theorem commit_coherent {w : Queue} (h : checkMapsAndShardsCoherency w.memory = .ok true) :
    commit w = .ok () (w.write { w.stored with root := w.memory }) := by
  simp [commit, h, commitRoot]

def pointerTo (a : ShardAddress) (s : RetrieveQueueShard) : RetrieveQueueShardPointer where
  address := a
  shardJobsCount := s.retrieveJobs.length
  shardBytesCount := s.retrieveJobsTotalSize
  minFseq := (s.retrieveJobs.head?.map (·.fSeq)).getD 0
  maxFseq := (s.retrieveJobs.getLast?.map (·.fSeq)).getD 0

/-- A shard as the queue keeps it: in order, not empty, with 64-bit fSeqs. -/
structure Sound (s : RetrieveQueueShard) : Prop where
  coherent : Coherent s
  nonempty : s.retrieveJobs ≠ []
  bounded : ∀ j ∈ s.retrieveJobs, j.fSeq < 2^64

theorem Sound.summary {s : RetrieveQueueShard} (h : Sound s) (a : ShardAddress) :
    s.getJobsSummary = .ok ⟨s.retrieveJobs.length, s.retrieveJobsTotalSize,
      (pointerTo a s).minFseq, (pointerTo a s).maxFseq⟩ := by
  obtain ⟨x, y, hx, hy, -, -, hsum⟩ := RetrieveQueueShard.getJobsSummary_ok h.coherent h.nonempty
  simp [hsum, pointerTo, hx, hy]

theorem Sound.limits {s : RetrieveQueueShard} (h : Sound s) (a : ShardAddress) :
    (∀ j ∈ s.retrieveJobs, (pointerTo a s).minFseq ≤ j.fSeq ∧ j.fSeq ≤ (pointerTo a s).maxFseq) ∧
      (∃ j ∈ s.retrieveJobs, j.fSeq = (pointerTo a s).minFseq) ∧
      ∃ j ∈ s.retrieveJobs, j.fSeq = (pointerTo a s).maxFseq := by
  obtain ⟨x, y, hx, hy, -, hall, -⟩ := RetrieveQueueShard.getJobsSummary_ok h.coherent h.nonempty
  refine ⟨?_, ⟨x, List.mem_of_mem_head? hx, ?_⟩, ⟨y, List.mem_of_getLast? hy, ?_⟩⟩
  · simpa [pointerTo, hx, hy] using hall
  · simp [pointerTo, hx]
  · simp [pointerTo, hy]

section
variable {l : List RetrieveQueueShard.JobInfo} {b m : Nat}

theorem minFseq_fold (h : ∀ j ∈ l, b ≤ j.fSeq) (hm : b ≤ m) (hex : m = b ∨ ∃ j ∈ l, j.fSeq = b) :
    l.foldl (fun m j => if j.fSeq < m then j.fSeq else m) m = b := by
  refine foldl_eq_bound (b ≤ ·) (fun m hm j hj => ?_) (fun j hj => ?_)
    (fun m hm j hj heq => ?_) hm hex
  all_goals
    have := h j hj
    split <;> omega

theorem maxFseq_fold (h : ∀ j ∈ l, j.fSeq ≤ b) (hm : m ≤ b) (hex : m = b ∨ ∃ j ∈ l, j.fSeq = b) :
    l.foldl (fun m j => if m < j.fSeq then j.fSeq else m) m = b := by
  refine foldl_eq_bound (· ≤ b) (fun m hm j hj => ?_) (fun j hj => ?_)
    (fun m hm j hj heq => ?_) hm hex
  all_goals
    have := h j hj
    split <;> omega

end

theorem Sound.rebuilt {s : RetrieveQueueShard} (h : Sound s) (a : ShardAddress) :
    minFseqOf s.dumpJobs = (pointerTo a s).minFseq ∧
      maxFseqOf s.dumpJobs = (pointerTo a s).maxFseq ∧
      s.dumpJobs.length = s.retrieveJobs.length ∧
      (s.dumpJobs.map (·.size)).sum = s.retrieveJobsTotalSize := by
  obtain ⟨hall, ⟨x, hx, hmin⟩, ⟨y, hy, hmax⟩⟩ := h.limits a
  refine ⟨?_, ?_, by simp [RetrieveQueueShard.dumpJobs], ?_⟩
  · apply minFseq_fold
    · simpa [RetrieveQueueShard.dumpJobs, RetrieveJobPointer.toInfo] using fun j hj => (hall j hj).1
    · have := h.bounded x hx
      omega
    · exact .inr ⟨_, List.mem_map_of_mem hx, hmin⟩
  · apply maxFseq_fold
    · simpa [RetrieveQueueShard.dumpJobs, RetrieveJobPointer.toInfo] using fun j hj => (hall j hj).2
    · exact Nat.zero_le _
    · exact .inr ⟨_, List.mem_map_of_mem hy, hmax⟩
  · rw [h.coherent.total]
    simp [RetrieveQueueShard.dumpJobs, RetrieveJobPointer.toInfo, bytesOf, Function.comp_def]

theorem countJobs_counted {p : RetrieveQueue} {M : Multiset RetrieveJobPointer}
    (h : Counted p M) (s : RetrieveQueueShard) :
    ∃ p', s.dumpJobs.foldlM countJob p = .ok p' ∧ Counted p' (M + s.retrieveJobs) ∧
      p' = { p with
        priorityMap := p'.priorityMap
        minRetrieveRequestAgeMap := p'.minRetrieveRequestAgeMap
        mountPolicyNameMap := p'.mountPolicyNameMap } := by
  rw [RetrieveQueueShard.dumpJobs, List.foldlM_map]
  have step : ∀ (b : RetrieveQueue) (done : List RetrieveJobPointer) (j : RetrieveJobPointer),
      (Counted b (M + done) ∧ b = { p with
        priorityMap := b.priorityMap
        minRetrieveRequestAgeMap := b.minRetrieveRequestAgeMap
        mountPolicyNameMap := b.mountPolicyNameMap }) →
      ∃ b', countJob b { j.toInfo with copyNb := j.copyNb % 2^16 } = .ok b' ∧
        Counted b' (M + (done ++ [j] : List RetrieveJobPointer)) ∧ b' = { p with
          priorityMap := b'.priorityMap
          minRetrieveRequestAgeMap := b'.minRetrieveRequestAgeMap
          mountPolicyNameMap := b'.mountPolicyNameMap } := by
    rintro b done j ⟨hc, hb⟩
    obtain ⟨m1, e1, c1⟩ := incCount_counts j.priority hc.priority
    obtain ⟨m2, e2, c2⟩ := incCount_counts j.minRetrieveRequestAge hc.age
    obtain ⟨m3, e3, c3⟩ := incCount_counts j.mountPolicyName hc.policy
    have hM : (M + (done ++ [j] : List RetrieveJobPointer) : Multiset RetrieveJobPointer) =
        j ::ₘ (M + done) := by
      rw [← Multiset.coe_add, ← add_assoc, Multiset.coe_singleton, add_comm,
        Multiset.singleton_add]
    refine ⟨{ b with priorityMap := m1, minRetrieveRequestAgeMap := m2, mountPolicyNameMap := m3 },
      ?_, ?_, ?_⟩
    · simp [countJob, RetrieveJobPointer.toInfo, e1, e2, e3, bind, Except.bind, pure, Except.pure]
    · rw [hM]
      exact ⟨by simpa using c1, by simpa using c2, by simpa using c3⟩
    · rw [hb]
  obtain ⟨p', he, hc, hp⟩ := foldlM_invariant step
    ⟨by simpa using h, rfl⟩ s.retrieveJobs
  exact ⟨p', he, by simpa using hc, hp⟩

theorem recordSummary_append {done rest : List RetrieveQueueShardPointer}
    {q : RetrieveQueueShardPointer} (hd : ∀ d ∈ done, d.address ≠ q.address) (jobs : Nat)
    (size : UInt64) (lo hi : Nat) :
    recordSummary q.address jobs size lo hi (done ++ q :: rest) =
      some (done ++ ⟨q.address, jobs, size, lo, hi⟩ :: rest) := by
  induction done with
  | nil => simp [recordSummary]
  | cons d done ih =>
    have hne := hd d List.mem_cons_self
    have := ih fun x hx => hd x (List.mem_cons_of_mem d hx)
    simp [recordSummary, hne, this]

/-- The shards that the pointers lead to, absent ones left out. -/
def found (parts : ShardAddress → Option RetrieveQueueShard)
    (qs : List RetrieveQueueShardPointer) : List (ShardAddress × RetrieveQueueShard) :=
  qs.filterMap fun q => (parts q.address).map (Prod.mk q.address)

def jobsIn (shards : List (ShardAddress × RetrieveQueueShard)) : List RetrieveJobPointer :=
  shards.flatMap (·.2.retrieveJobs)

def summaries (shards : List (ShardAddress × RetrieveQueueShard)) : List Access :=
  shards.map fun x => .summary x.2.retrieveJobs.length

def pointersTo (shards : List (ShardAddress × RetrieveQueueShard)) :
    List RetrieveQueueShardPointer :=
  shards.map fun x => pointerTo x.1 x.2

theorem mem_pointersTo_found {parts : ShardAddress → Option RetrieveQueueShard}
    {qs : List RetrieveQueueShardPointer} {d : RetrieveQueueShardPointer}
    (h : d ∈ pointersTo (found parts qs)) :
    ∃ q ∈ qs, ∃ s, parts q.address = some s ∧ d = pointerTo q.address s := by
  obtain ⟨x, hx, rfl⟩ := List.mem_map.mp h
  obtain ⟨q, hq, hxq⟩ := List.mem_filterMap.mp hx
  obtain ⟨s, hs, rfl⟩ := Option.map_eq_some_iff.mp hxq
  exact ⟨q, hq, s, hs, rfl⟩

theorem address_of_found {parts : ShardAddress → Option RetrieveQueueShard}
    {qs : List RetrieveQueueShardPointer} {d : RetrieveQueueShardPointer}
    (h : d ∈ pointersTo (found parts qs)) : d.address ∈ qs.map (·.address) := by
  obtain ⟨q, hq, s, -, rfl⟩ := mem_pointersTo_found h
  exact List.mem_map.mpr ⟨q, hq, rfl⟩

theorem found_append (parts : ShardAddress → Option RetrieveQueueShard)
    (ps qs : List RetrieveQueueShardPointer) :
    found parts (ps ++ qs) = found parts ps ++ found parts qs := List.filterMap_append

theorem addresses_found {parts : ShardAddress → Option RetrieveQueueShard}
    {qs : List RetrieveQueueShardPointer} (h : ∀ q ∈ qs, ∃ s, parts q.address = some s) :
    (pointersTo (found parts qs)).map (·.address) = qs.map (·.address) := by
  induction qs with
  | nil => rfl
  | cons q qs ih =>
    obtain ⟨s, hs⟩ := h q List.mem_cons_self
    have := ih fun x hx => h x (List.mem_cons_of_mem q hx)
    simpa [found, pointersTo, hs, pointerTo] using this

def totalsOf (js : List RetrieveJobPointer) (t : RebuildTotals) : RebuildTotals :=
  js.foldl (fun t j => t.addJob j.toInfo) t

theorem totalsOf_append (js ks : List RetrieveJobPointer) (t : RebuildTotals) :
    totalsOf (js ++ ks) t = totalsOf ks (totalsOf js t) := List.foldl_append

theorem totals_fold (js : List RetrieveJobPointer) (t : RebuildTotals) :
    (totalsOf js t).totalJobs = t.totalJobs + js.length ∧
      (totalsOf js t).totalBytes = t.totalBytes + bytesOf js := by
  induction js generalizing t with
  | nil => simp [totalsOf, bytesOf]
  | cons j js ih =>
    obtain ⟨h1, h2⟩ := ih (t.addJob j.toInfo)
    rw [totalsOf, List.foldl_cons, ← totalsOf]
    constructor
    · rw [h1, RebuildTotals.addJob, List.length_cons]
      dsimp only
      omega
    · rw [h2]
      simp [RebuildTotals.addJob, RetrieveJobPointer.toInfo, bytesOf, add_assoc]

theorem foldl_dumpJobs (s : RetrieveQueueShard) (t : RebuildTotals) :
    s.dumpJobs.foldl RebuildTotals.addJob t = totalsOf s.retrieveJobs t := by
  rw [RetrieveQueueShard.dumpJobs, List.foldl_map]
  rfl

theorem rebuildShard_found {w : Queue} {t : RebuildTotals}
    {done rest : List RetrieveQueueShardPointer}
    {q : RetrieveQueueShardPointer} {s : RetrieveQueueShard} {M : Multiset RetrieveJobPointer}
    (hq : w.memory.retrieveQueueShards = done ++ q :: rest)
    (hd : ∀ d ∈ done, d.address ≠ q.address) (hs : Sound s) (hc : Counted w.memory M) :
    ∃ p', rebuildShard q.address (some s) t w =
        .ok (s.dumpJobs.foldl RebuildTotals.addJob t)
          { w with memory := p', log := w.log ++ [.summary s.retrieveJobs.length] } ∧
      Counted p' (M + s.retrieveJobs) ∧
      p' = { w.memory with
        retrieveQueueShards := done ++ pointerTo q.address s :: rest
        priorityMap := p'.priorityMap
        minRetrieveRequestAgeMap := p'.minRetrieveRequestAgeMap
        mountPolicyNameMap := p'.mountPolicyNameMap } := by
  obtain ⟨p', he, hcp, hp⟩ := countJobs_counted hc s
  obtain ⟨hmin, hmax, hlen, hsize⟩ := hs.rebuilt q.address
  have hshards : p'.retrieveQueueShards = done ++ q :: rest := by rw [hp]; exact hq
  have hrec : recordSummary q.address s.retrieveJobs.length s.retrieveJobsTotalSize
      (pointerTo q.address s).minFseq (pointerTo q.address s).maxFseq (done ++ q :: rest) =
      some (done ++ pointerTo q.address s :: rest) := recordSummary_append hd _ _ _ _
  refine ⟨{ p' with retrieveQueueShards := done ++ pointerTo q.address s :: rest }, ?_,
    ⟨hcp.priority, hcp.age, hcp.policy⟩, ?_⟩
  · simp [rebuildShard, he, hshards, hmin, hmax, hlen, hsize, hrec, shardSummary,
      hs.summary q.address]
  · rw [hp]

theorem rebuildShard_absent {w : Queue} {t : RebuildTotals}
    {done rest : List RetrieveQueueShardPointer} {q : RetrieveQueueShardPointer}
    (hq : w.memory.retrieveQueueShards = done ++ q :: rest)
    (hn : ((done ++ q :: rest).map (·.address)).Nodup) :
    rebuildShard q.address none t w =
      .ok t { w with memory := { w.memory with retrieveQueueShards := done ++ rest } } := by
  have hn' := hn
  rw [List.map_append, List.map_cons, List.nodup_middle, List.nodup_cons] at hn'
  have hother : ∀ x ∈ done ++ rest, x.address ≠ q.address := by
    intro x hx he
    exact hn'.1 (by rw [← List.map_append]; exact he ▸ List.mem_map_of_mem hx)
  have hfilter : (done ++ q :: rest).filter (fun x => decide (x.address ≠ q.address)) =
      done ++ rest := by
    rw [List.filter_append, List.filter_cons]
    have h1 : done.filter (fun x => decide (x.address ≠ q.address)) = done :=
      List.filter_eq_self.mpr fun x hx => by simpa using hother x (by simp [hx])
    have h2 : rest.filter (fun x => decide (x.address ≠ q.address)) = rest :=
      List.filter_eq_self.mpr fun x hx => by simpa using hother x (by simp [hx])
    rw [h1, h2]
    simp
  simp only [rebuildShard, bind_apply, getMemory_apply, setMemory_apply, pure_apply, hq, hfilter]

theorem rebuildShards_spec (rest tail done : List RetrieveQueueShardPointer) {w : Queue}
    {t : RebuildTotals} {M : Multiset RetrieveJobPointer}
    (hq : w.memory.retrieveQueueShards = done ++ (rest ++ tail))
    (hn : ((done ++ (rest ++ tail)).map (·.address)).Nodup)
    (hs : ∀ q ∈ rest, ∀ s, w.stored.parts q.address = some s → Sound s)
    (hc : Counted w.memory M) :
    ∃ p' t', rebuildShards (rest.map fun q => (q.address, w.stored.parts q.address)) t w =
        .ok t' { w with memory := p', log := w.log ++ summaries (found w.stored.parts rest) } ∧
      t' = totalsOf (jobsIn (found w.stored.parts rest)) t ∧
      Counted p' (M + jobsIn (found w.stored.parts rest)) ∧
      p' = { w.memory with
        retrieveQueueShards := done ++ (pointersTo (found w.stored.parts rest) ++ tail)
        priorityMap := p'.priorityMap
        minRetrieveRequestAgeMap := p'.minRetrieveRequestAgeMap
        mountPolicyNameMap := p'.mountPolicyNameMap } := by
  induction rest generalizing w t done M with
  | nil =>
    refine ⟨w.memory, t, ?_, rfl, ?_, ?_⟩
    · simp [rebuildShards, found, summaries]
    · simpa [found, jobsIn] using hc
    · simp only [found, pointersTo, List.filterMap_nil, List.map_nil, List.nil_append] at hq ⊢
      rw [← hq]
  | cons q rest ih =>
    have hs' : ∀ x ∈ rest, ∀ s, w.stored.parts x.address = some s → Sound s :=
      fun x hx => hs x (List.mem_cons_of_mem q hx)
    rw [List.cons_append] at hq hn
    cases hfound : w.stored.parts q.address with
    | none =>
      have hn' : ((done ++ (rest ++ tail)).map (·.address)).Nodup := by
        rw [List.map_append, List.map_cons, List.nodup_middle, List.nodup_cons] at hn
        rw [List.map_append]
        exact hn.2
      obtain ⟨p', t', h1, h2, h3, h4⟩ := ih done
        (w := { w with memory := { w.memory with retrieveQueueShards := done ++ (rest ++ tail) } })
        (t := t) (M := M) rfl hn' hs' ⟨hc.priority, hc.age, hc.policy⟩
      have hf : found w.stored.parts (q :: rest) = found w.stored.parts rest := by
        simp [found, hfound]
      refine ⟨p', t', ?_, ?_⟩
      · simp only [List.map_cons, rebuildShards, bind_apply, hfound,
          rebuildShard_absent hq hn, h1, hf]
      · rw [hf]
        exact ⟨h2, h3, h4⟩
    | some s =>
      have hd : ∀ d ∈ done, d.address ≠ q.address := by
        rw [List.map_append, List.map_cons, List.nodup_middle, List.nodup_cons] at hn
        intro d hd he
        exact hn.1 (List.mem_append_left _ (he ▸ List.mem_map_of_mem hd))
      have hsound := hs q List.mem_cons_self s hfound
      obtain ⟨p1, e1, c1, hp1⟩ := rebuildShard_found (t := t) hq hd hsound hc
      have hq1 : p1.retrieveQueueShards = (done ++ [pointerTo q.address s]) ++ (rest ++ tail) := by
        rw [hp1]; simp
      obtain ⟨p', t', h1, h2, h3, h4⟩ := ih _
        (w := { w with memory := p1, log := w.log ++ [.summary s.retrieveJobs.length] })
        (t := s.dumpJobs.foldl RebuildTotals.addJob t) (M := M + s.retrieveJobs) hq1
        (by simpa [pointerTo] using hn) hs' c1
      have hf : found w.stored.parts (q :: rest) =
          (q.address, s) :: found w.stored.parts rest := by simp [found, hfound]
      refine ⟨p', t', ?_, ?_, ?_, ?_⟩
      · simp only [List.map_cons, rebuildShards, bind_apply, hfound, e1, h1, hf, summaries]
        simp
      · rw [h2, hf, foldl_dumpJobs, jobsIn, jobsIn, List.flatMap_cons, totalsOf_append]
      · rw [hf]
        simpa [jobsIn, add_assoc] using h3
      · rw [h4, hp1, hf]
        simp [pointersTo]

theorem rebuildShards_append (l m : List (ShardAddress × Option RetrieveQueueShard))
    (t : RebuildTotals) : rebuildShards (l ++ m) t =
    (do rebuildShards m (← rebuildShards l t)) := by
  induction l generalizing t with
  | nil => rfl
  | cons x l ih =>
    rw [List.cons_append, rebuildShards, rebuildShards, bind_assoc]
    exact congrArg _ (funext fun t' => ih t')

/-- The queue object with its maps cleared, as the rebuild starts. -/
def cleared (p : RetrieveQueue) : RetrieveQueue :=
  { p with priorityMap := [], minRetrieveRequestAgeMap := [], mountPolicyNameMap := [] }

theorem counted_cleared (p : RetrieveQueue) : Counted (cleared p) 0 :=
  ⟨counts_nil, counts_nil, counts_nil⟩

theorem rebuild_apply (w : Queue) :
    rebuild w = (do
      let t ← rebuildShards
        (w.memory.retrieveQueueShards.map fun q => (q.address, w.stored.parts q.address)) {}
      let p ← getMemory
      setMemory { p with
        retrieveJobsCount := t.totalJobs
        retrieveJobsTotalSize := t.totalBytes
        oldestJobCreationTime := t.oldestJobCreationTime.toUInt64
        youngestJobCreationTime := t.youngestJobCreationTime.toUInt64 } : Op Unit)
      { w with memory := cleared w.memory } := by
  have hm := mapM_lookupPart (ε := StoreError) (·.address) w.memory.retrieveQueueShards
    { w with memory := cleared w.memory }
  simp only [cleared] at hm ⊢
  simp only [rebuild, bind_apply, getMemory_apply, setMemory_apply, ValueCountMap.clear, hm]

/-- The queue object says exactly what the shards hold. -/
structure Exact (p : RetrieveQueue) (shards : List (ShardAddress × RetrieveQueueShard)) : Prop where
  pointers : p.retrieveQueueShards = pointersTo shards
  count : p.retrieveJobsCount = (jobsIn shards).length
  size : p.retrieveJobsTotalSize = bytesOf (jobsIn shards)
  counted : Counted p (jobsIn shards)

/-- The times are those that a rebuild computes from the jobs. -/
structure TimesRebuilt (p : RetrieveQueue) (js : List RetrieveJobPointer) : Prop where
  oldest : p.oldestJobCreationTime = (totalsOf js {}).oldestJobCreationTime.toUInt64
  youngest : p.youngestJobCreationTime = (totalsOf js {}).youngestJobCreationTime.toUInt64

theorem rebuild_spec {w : Queue} (hn : (w.memory.retrieveQueueShards.map (·.address)).Nodup)
    (hs : ∀ q ∈ w.memory.retrieveQueueShards, ∀ s, w.stored.parts q.address = some s → Sound s) :
    ∃ p', rebuild w = .ok () { w with
        memory := p'
        log := w.log ++ summaries (found w.stored.parts w.memory.retrieveQueueShards) } ∧
      Exact p' (found w.stored.parts w.memory.retrieveQueueShards) ∧
      p'.activityMap = w.memory.activityMap ∧ p'.maxShardSize = w.memory.maxShardSize ∧
      TimesRebuilt p' (jobsIn (found w.stored.parts w.memory.retrieveQueueShards)) := by
  obtain ⟨p1, t, h1, rfl, h3, h4⟩ := rebuildShards_spec w.memory.retrieveQueueShards [] []
    (w := { w with memory := cleared w.memory }) (t := {}) (M := 0)
    (by simp [cleared]) (by simpa using hn) hs (counted_cleared w.memory)
  obtain ⟨hjobs, hbytes⟩ := totals_fold
    (jobsIn (found w.stored.parts w.memory.retrieveQueueShards)) {}
  let t := totalsOf (jobsIn (found w.stored.parts w.memory.retrieveQueueShards)) {}
  refine ⟨{ p1 with
    retrieveJobsCount := t.totalJobs
    retrieveJobsTotalSize := t.totalBytes
    oldestJobCreationTime := t.oldestJobCreationTime.toUInt64
    youngestJobCreationTime := t.youngestJobCreationTime.toUInt64 }, ?_, ⟨?_, ?_, ?_, ?_⟩, ?_, ?_,
    ⟨rfl, rfl⟩⟩
  · rw [rebuild_apply]
    simp only [bind_apply, h1, getMemory_apply, setMemory_apply, t]
  · rw [h4]; simp
  · simpa using hjobs
  · simpa using hbytes
  · have h3' : Counted p1 (jobsIn (found w.stored.parts w.memory.retrieveQueueShards)) := by
      simpa using h3
    exact ⟨h3'.priority, h3'.age, h3'.policy⟩
  · rw [h4]; rfl
  · rw [h4]; rfl

theorem rebuildShard_empty {w : Queue} {t : RebuildTotals}
    {done rest : List RetrieveQueueShardPointer} {q : RetrieveQueueShardPointer}
    {s : RetrieveQueueShard} (hq : w.memory.retrieveQueueShards = done ++ q :: rest)
    (hd : ∀ d ∈ done, d.address ≠ q.address) (he : s.retrieveJobs = []) :
    ∃ p', rebuildShard q.address (some s) t w =
      .error outOfRange { w with memory := p', log := w.log ++ [.summary 0] } := by
  have hrec : recordSummary q.address 0 0 (2^64 - 1) 0 (done ++ q :: rest) =
      some (done ++ ⟨q.address, 0, 0, 2^64 - 1, 0⟩ :: rest) := recordSummary_append hd _ _ _ _
  have hmin : minFseqOf [] = 2^64 - 1 := rfl
  have hmax : maxFseqOf [] = 0 := rfl
  simp only [rebuildShard, bind_apply, getMemory_apply, RetrieveQueueShard.dumpJobs, he,
    List.map_nil, List.foldlM_nil, List.sum_nil, List.length_nil, hmin, hmax, fromExcept_pure,
    pure_apply, hq, hrec, fromOption_some, setMemory_apply, shardSummary, observe_apply,
    RetrieveQueueShard.getJobsSummary, List.head?_nil, fromExcept_error, throw_apply]
  exact ⟨_, rfl⟩

theorem rebuild_empty {w : Queue} {ps qs : List RetrieveQueueShardPointer}
    {q : RetrieveQueueShardPointer} {s : RetrieveQueueShard}
    (hq : w.memory.retrieveQueueShards = ps ++ q :: qs)
    (hn : ((ps ++ q :: qs).map (·.address)).Nodup)
    (hps : ∀ x ∈ ps, ∃ s, w.stored.parts x.address = some s ∧ Sound s)
    (hs : w.stored.parts q.address = some s) (he : s.retrieveJobs = []) :
    ∃ w' l, rebuild w = .error outOfRange w' ∧ w'.log = w.log ++ l ++ [.summary 0] := by
  have hall : ∀ x ∈ ps, ∀ s, w.stored.parts x.address = some s → Sound s := by
    intro x hx t ht
    obtain ⟨s', hs', hsound⟩ := hps x hx
    rwa [Option.some.inj (ht.symm.trans hs')]
  obtain ⟨p1, t, h1, -, -, h4⟩ := rebuildShards_spec ps (q :: qs) []
    (w := { w with memory := cleared w.memory }) (t := {}) (M := 0)
    (by simpa [cleared] using hq) (by simpa using hn) hall (counted_cleared w.memory)
  have hp1 : p1.retrieveQueueShards = pointersTo (found w.stored.parts ps) ++ q :: qs := by
    rw [h4]; simp
  have hd : ∀ d ∈ pointersTo (found w.stored.parts ps), d.address ≠ q.address := by
    rw [List.map_append, List.map_cons, List.nodup_middle, List.nodup_cons] at hn
    intro d hd hdq
    exact hn.1 (List.mem_append_left _ (hdq ▸ address_of_found hd))
  obtain ⟨p2, h2⟩ := rebuildShard_empty (t := t) (w := { w with
    memory := p1, log := w.log ++ summaries (found w.stored.parts ps) }) hp1 hd he
  refine ⟨{ w with
    memory := p2
    log := w.log ++ summaries (found w.stored.parts ps) ++ [.summary 0] },
    summaries (found w.stored.parts ps), ?_, rfl⟩
  rw [rebuild_apply, hq, List.map_append, rebuildShards_append]
  simp only [bind_apply, h1, List.map_cons, rebuildShards, hs, h2]

theorem sum_pointersTo {shards : List (ShardAddress × RetrieveQueueShard)}
    (h : ∀ x ∈ shards, Coherent x.2) :
    ((pointersTo shards).map (·.shardBytesCount)).sum = bytesOf (jobsIn shards) ∧
      ((pointersTo shards).map (·.shardJobsCount)).sum = (jobsIn shards).length := by
  induction shards with
  | nil => simp [pointersTo, jobsIn, bytesOf]
  | cons x shards ih =>
    obtain ⟨h1, h2⟩ := ih fun y hy => h y (List.mem_cons_of_mem x hy)
    have hx := (h x List.mem_cons_self).total
    constructor
    · simp only [pointersTo, List.map_cons, List.sum_cons, jobsIn, List.flatMap_cons,
        RetrieveQueueShard.bytesOf_append] at h1 ⊢
      rw [h1, pointerTo, hx]
    · simp only [pointersTo, List.map_cons, List.sum_cons, jobsIn, List.flatMap_cons,
        List.length_append] at h2 ⊢
      rw [h2, pointerTo]

theorem Exact.check {p : RetrieveQueue} {shards : List (ShardAddress × RetrieveQueueShard)}
    (h : Exact p shards) (hs : ∀ x ∈ shards, Coherent x.2) :
    checkMapsAndShardsCoherency p = .ok true := by
  obtain ⟨h1, h2⟩ := sum_pointersTo hs
  obtain ⟨c1, c2, c3⟩ := h.counted.card
  exact check_ok (by rw [h.size, h.pointers, h1]) (by rw [h.count, h.pointers, h2]) h.count
    (by simpa using c1) (by simpa using c2) (by simpa using c3)

theorem commit_rebuilds {w w' : Queue} (h : checkMapsAndShardsCoherency w.memory = .ok false)
    (hr : rebuild w = .ok () w') :
    commit w = .ok () (w'.write { w'.stored with root := w'.memory }) := by
  simp [commit, h, hr, commitRoot]

end Cta.ObjectStore.RetrieveQueue
