import Cta.ObjectStore.ArchiveQueueBooks

/-! The rounds of an addition and of a removal, each on one shard of an archive queue. -/
namespace Cta.ObjectStore.ArchiveQueue
open StoreError ValueCountMap Cta.Lib.Sequence Cta.Lib.PartedStore
open ArchiveQueueShard (jobFields)
open ShardRemoval (bytes bytes_append keptOf goneOf stillToRemove filter_removedJobs InOneShard Round
  Removing)

def shardJobs (parts : ShardAddress → Option ArchiveQueueShard) (a : ShardAddress) :
    Option (List ArchiveJobPointer) :=
  (parts a).map (·.archiveJobs)

def content (parts : ShardAddress → Option ArchiveQueueShard)
    (qs : List ArchiveQueueShardPointer) : List ArchiveJobPointer :=
  qs.flatMap fun q => (shardJobs parts q.address).getD []

/-- A pointer with the shard it stands for, neither empty nor over the maximum. -/
structure Describes (q : ArchiveQueueShardPointer) (s : ArchiveQueueShard) : Prop where
  nonempty : s.archiveJobs ≠ []
  bounded : s.archiveJobs.length ≤ maxShardSize
  total : s.archiveJobsTotalSize = bytes jobFields s.archiveJobs
  count : q.shardJobsCount = s.archiveJobs.length
  size : q.shardBytesCount = bytes jobFields s.archiveJobs

/-- The queue object, the stored shards and the queued jobs agree, the times apart. -/
structure Sane (p : ArchiveQueue) (parts : ShardAddress → Option ArchiveQueueShard)
    (next : Nat) (jobs : List ArchiveJobPointer) : Prop where
  nodup : (p.archiveQueueShards.map (·.address)).Nodup
  fresh : ∀ q ∈ p.archiveQueueShards, q.address < next
  only : ∀ a s, parts a = some s → a ∈ p.archiveQueueShards.map (·.address)
  described : ∀ q ∈ p.archiveQueueShards, ∃ s, parts q.address = some s ∧ Describes q s
  inOrder : content parts p.archiveQueueShards = jobs
  booked : Booked p jobs

theorem shardJobs_some {parts : ShardAddress → Option ArchiveQueueShard} {a : ShardAddress}
    {s : ArchiveQueueShard} (h : parts a = some s) : shardJobs parts a = some s.archiveJobs := by
  rw [shardJobs, h, Option.map_some]

theorem content_congr {parts parts' : ShardAddress → Option ArchiveQueueShard}
    {qs : List ArchiveQueueShardPointer} (h : ∀ q ∈ qs, parts q.address = parts' q.address) :
    content parts qs = content parts' qs :=
  List.flatMap_congr fun q hq => by rw [shardJobs, shardJobs, h q hq]

theorem sum_described {parts : ShardAddress → Option ArchiveQueueShard}
    {qs : List ArchiveQueueShardPointer}
    (h : ∀ q ∈ qs, ∃ s, parts q.address = some s ∧ Describes q s) :
    (qs.map (·.shardBytesCount)).sum = bytes jobFields (content parts qs) ∧
      (qs.map (·.shardJobsCount)).sum = (content parts qs).length := by
  induction qs with
  | nil => simp [content, bytes]
  | cons q qs ih =>
    obtain ⟨h1, h2⟩ := ih fun x hx => h x (List.mem_cons_of_mem q hx)
    obtain ⟨s, hs, hd⟩ := h q List.mem_cons_self
    have hc : content parts (q :: qs) = s.archiveJobs ++ content parts qs := by
      simp [content, shardJobs_some hs]
    rw [hc]
    simp only [List.map_cons, List.sum_cons, h1, h2, bytes_append, List.length_append, hd.count,
      hd.size, and_self]

section
variable {p p' : ArchiveQueue} {parts : ShardAddress → Option ArchiveQueueShard} {next : Nat}
  {jobs jobs' : List ArchiveJobPointer}

theorem Sane.check (h : Sane p parts next jobs) : checkMapsAndShardsCoherency p = .ok true := by
  obtain ⟨h1, h2⟩ := sum_described h.described
  rw [h.inOrder] at h1 h2
  exact check_booked h.booked h1 h2

/-- What takes the place of a block of pointers: nothing, or one pointer to a shard. -/
def Replaces (parts : ShardAddress → Option ArchiveQueueShard) (a : ShardAddress)
    (mid : List ArchiveQueueShardPointer) (left : List ArchiveJobPointer) : Prop :=
  mid = [] ∧ parts a = none ∧ left = [] ∨
    ∃ q s, mid = [q] ∧ q.address = a ∧ parts a = some s ∧ left = s.archiveJobs ∧ Describes q s

theorem Replaces.content {a : ShardAddress} {mid : List ArchiveQueueShardPointer}
    {left : List ArchiveJobPointer} (h : Replaces parts a mid left) :
    ArchiveQueue.content parts mid = left := by
  rcases h with ⟨rfl, -, rfl⟩ | ⟨q, s, rfl, rfl, hs, rfl, -⟩
  · rfl
  · simp [ArchiveQueue.content, shardJobs_some hs]

theorem Sane.replace {ps old qs mid : List ArchiveQueueShardPointer} {a : ShardAddress}
    {x : Option ArchiveQueueShard} {left : List ArchiveJobPointer}
    (h : Sane p parts next jobs) (hps : p.archiveQueueShards = ps ++ (old ++ qs))
    (hold : ∀ q ∈ old, q.address = a) (hother : ∀ q ∈ ps ++ qs, q.address ≠ a) {next' : Nat}
    (hnext : next ≤ next') (ha : a < next')
    (hmid : Replaces (Function.update parts a x) a mid left)
    (hps' : p'.archiveQueueShards = ps ++ (mid ++ qs))
    (hjobs : content parts ps ++ (left ++ content parts qs) = jobs') (hbooked : Booked p' jobs') :
    Sane p' (Function.update parts a x) next' jobs' := by
  have hpresent : ∀ q ∈ ps ++ qs, q ∈ p.archiveQueueShards := by
    intro q hq
    rw [hps]
    simp only [List.mem_append] at hq ⊢
    tauto
  have hcases : ∀ q ∈ p'.archiveQueueShards, q ∈ ps ++ qs ∨ q ∈ mid := by
    rw [hps']
    intro q hq
    simp only [List.mem_append] at hq ⊢
    tauto
  have hmem : ∀ q ∈ mid, q.address = a ∧ ∃ s, Function.update parts a x a = some s ∧
      Describes q s := by
    intro y hy
    rcases hmid with ⟨rfl, -, -⟩ | ⟨q, s, rfl, hqa, hs, -, hd⟩
    · simp at hy
    · rw [List.mem_singleton.mp hy]
      exact ⟨hqa, s, hs, hd⟩
  have hkeep : ∀ q ∈ ps ++ qs, Function.update parts a x q.address = parts q.address :=
    fun q hq => Function.update_of_ne (hother q hq) _ _
  refine ⟨?_, ?_, ?_, ?_, ?_, hbooked⟩
  · have hn := h.nodup
    rw [hps] at hn
    have hn' : ((ps ++ qs).map (·.address)).Nodup := by
      refine List.Sublist.nodup ?_ hn
      exact (List.Sublist.append_left (List.sublist_append_right old qs) ps).map _
    have hna : a ∉ (ps ++ qs).map (·.address) := by
      intro hmem
      obtain ⟨q, hq, hqa⟩ := List.mem_map.mp hmem
      exact hother q hq hqa
    rw [hps']
    rcases hmid with ⟨rfl, -, -⟩ | ⟨q, s, rfl, hqa, -⟩
    · simpa using hn'
    · rw [List.singleton_append, List.map_append, List.map_cons, List.nodup_middle,
        List.nodup_cons, hqa, ← List.map_append]
      exact ⟨hna, hn'⟩
  · intro q hq
    cases hcases q hq with
    | inl hq => exact Nat.lt_of_lt_of_le (h.fresh q (hpresent q hq)) hnext
    | inr hq => rw [(hmem q hq).1]; exact ha
  · intro b s hb
    rw [hps', List.map_append, List.map_append]
    by_cases hba : b = a
    · subst hba
      rcases hmid with ⟨-, hx, -⟩ | ⟨q, t, rfl, hqa, -⟩
      · exact absurd (hx.symm.trans hb) (by simp)
      · simp [hqa]
    · rw [Function.update_of_ne hba] at hb
      have := h.only b s hb
      rw [hps, List.map_append, List.map_append, List.mem_append, List.mem_append] at this
      rcases this with hb | hb | hb
      · simp only [List.mem_append, hb, true_or]
      · obtain ⟨q, hq, rfl⟩ := List.mem_map.mp hb
        exact absurd (hold q hq) hba
      · simp only [List.mem_append, hb, or_true]
  · intro q hq
    cases hcases q hq with
    | inl hq =>
      rw [hkeep q hq]
      exact h.described q (hpresent q hq)
    | inr hq =>
      obtain ⟨hqa, s, hs, hd⟩ := hmem q hq
      exact ⟨s, by rw [hqa]; exact hs, hd⟩
  · have e1 : content (Function.update parts a x) ps = content parts ps :=
      content_congr fun q hq => hkeep q (by simp [hq])
    have e2 : content (Function.update parts a x) qs = content parts qs :=
      content_congr fun q hq => hkeep q (by simp [hq])
    have e3 := hmid.content
    rw [← hjobs, hps', content, List.flatMap_append, List.flatMap_append]
    exact congrArg₂ (· ++ ·) e1 (congrArg₂ (· ++ ·) e3 e2)

end

/-- What the accounting of a job keeps true of a queue object, whatever its pointers. -/
structure KeptByAccounting (ok : JobToAdd → Prop)
    (T : ArchiveQueue → List ArchiveJobPointer → Prop) : Prop where
  account : ∀ {p p' : ArchiveQueue} {jobs : List ArchiveJobPointer} {j : JobToAdd},
    Booked p jobs → T p jobs → ok j → accountJob p j = .ok p' → T p' (jobs ++ [j.toPointer])
  pointers : ∀ {p : ArchiveQueue} {jobs : List ArchiveJobPointer}
    (qs : List ArchiveQueueShardPointer), T p jobs → T { p with archiveQueueShards := qs } jobs

theorem timesOf_append (l m : List ArchiveJobPointer) : timesOf (l ++ m) = timesOf l ++ timesOf m :=
  List.map_append

def TimedInRange (p : ArchiveQueue) (jobs : List ArchiveJobPointer) : Prop :=
  Timed p jobs ∧ ∀ t ∈ timesOf jobs, InRange t

theorem timedInRange_kept : KeptByAccounting (fun j => InRange j.startTime) TimedInRange where
  account := by
    intro p p' jobs j hb ht hj he
    refine ⟨accountJob_timed hb ht.1 ht.2 hj he, fun t htimes => ?_⟩
    rw [timesOf_append, List.mem_append] at htimes
    cases htimes with
    | inl htimes => exact ht.2 t htimes
    | inr htimes =>
      obtain rfl : t = j.startTime := by simpa [timesOf, JobToAdd.toPointer] using htimes
      exact hj
  pointers := fun _ ht => ht

/-- A shard being filled is in line with its pointer and the queue with the jobs. -/
structure Filling.Sound (T : ArchiveQueue → List ArchiveJobPointer → Prop) (x : Filling)
    (jobs : List ArchiveJobPointer) : Prop where
  booked : Booked x.queue jobs
  kept : T x.queue jobs
  count : x.pointer.shardJobsCount = x.aqs.archiveJobs.length
  size : x.pointer.shardBytesCount = bytes jobFields x.aqs.archiveJobs
  total : x.aqs.archiveJobsTotalSize = bytes jobFields x.aqs.archiveJobs

section
variable {ok : JobToAdd → Prop} {T : ArchiveQueue → List ArchiveJobPointer → Prop}

theorem Filling.Sound.addJob {x : Filling} {jobs : List ArchiveJobPointer} (h : x.Sound T jobs)
    (hT : KeptByAccounting ok T) {j : JobToAdd} (hj : ok j) :
    ∃ p', accountJob x.queue j = .ok p' ∧
      p'.archiveQueueShards = x.queue.archiveQueueShards ∧
      Filling.Sound T ⟨p', { x.pointer with
        shardJobsCount := (x.aqs.addJob j).archiveJobs.length
        shardBytesCount := x.pointer.shardBytesCount + j.fileSize }, x.aqs.addJob j⟩
        (jobs ++ [j.toPointer]) := by
  obtain ⟨p', he, hb, hsh⟩ := accountJob_booked h.booked j
  have hbytes : bytes jobFields (x.aqs.addJob j).archiveJobs =
      bytes jobFields x.aqs.archiveJobs + j.fileSize := by
    simp [ArchiveQueueShard.addJob, bytes, jobFields, JobToAdd.toPointer]
  refine ⟨p', he, hsh, hb, hT.account h.booked h.kept hj he, rfl, ?_, ?_⟩
  · rw [hbytes, ← h.size]
  · rw [hbytes, ← h.total]
    rfl

theorem fillShard_spec (hT : KeptByAccounting ok T) (js : List JobToAdd) {x : Filling}
    {jobs : List ArchiveJobPointer} (h : x.Sound T jobs) (hj : ∀ j ∈ js, ok j) :
    ∃ x', fillShard js x = .ok (x', js.drop (maxShardSize - x.aqs.archiveJobs.length)) ∧
      x'.Sound T (jobs ++
        (js.take (maxShardSize - x.aqs.archiveJobs.length)).map JobToAdd.toPointer) ∧
      x'.aqs.archiveJobs = x.aqs.archiveJobs ++
        (js.take (maxShardSize - x.aqs.archiveJobs.length)).map JobToAdd.toPointer ∧
      x'.pointer.address = x.pointer.address := by
  induction js generalizing x jobs with
  | nil => exact ⟨x, by simp [fillShard], by simpa using h, by simp, rfl⟩
  | cons j js ih =>
    by_cases hroom : x.pointer.shardJobsCount < maxShardSize
    · obtain ⟨p', he, -, hs⟩ := h.addJob hT (hj j List.mem_cons_self)
      obtain ⟨x', hf, hs', hjobs, haddr⟩ := ih hs fun k hk => hj k (List.mem_cons_of_mem j hk)
      obtain ⟨k, hk⟩ : ∃ k, maxShardSize - x.aqs.archiveJobs.length = k + 1 := by
        rw [h.count] at hroom
        exact ⟨maxShardSize - x.aqs.archiveJobs.length - 1, by omega⟩
      have hk' : maxShardSize - (x.aqs.addJob j).archiveJobs.length = k := by
        simp only [ArchiveQueueShard.addJob, List.length_append, List.length_singleton]
        omega
      simp only [hk'] at hf hs' hjobs
      refine ⟨x', ?_, ?_, ?_, haddr⟩
      · simp only [fillShard, if_pos hroom, he, bind, Except.bind, hk, List.drop_succ_cons]
        exact hf
      · simpa [hk] using hs'
      · simpa [hk, ArchiveQueueShard.addJob] using hjobs
    · have hfull : maxShardSize - x.aqs.archiveJobs.length = 0 := by
        rw [h.count] at hroom
        omega
      refine ⟨x, ?_, ?_, ?_, rfl⟩
      · simp [fillShard, hroom, hfull]
      · simpa [hfull] using h
      · simp [hfull]

structure InLine (T : ArchiveQueue → List ArchiveJobPointer → Prop) (w : Queue)
    (jobs : List ArchiveJobPointer) : Prop where
  fetched : w.stored.root = w.memory
  sane : Sane w.memory w.stored.parts w.nextId jobs
  kept : T w.memory jobs

variable {w : Queue} {jobs : List ArchiveJobPointer} {js : List JobToAdd}

theorem fillAndStore_inLine (hT : KeptByAccounting ok T) {before old : List ArchiveQueueShardPointer}
    {pointer : ArchiveQueueShardPointer} {aqs : ArchiveQueueShard} {next : Nat}
    (h : Sane w.memory w.stored.parts next jobs)
    (hps : w.memory.archiveQueueShards = before ++ old)
    (hold : ∀ q ∈ old, q.address = pointer.address)
    (hother : ∀ q ∈ before, q.address ≠ pointer.address) (hnext : next ≤ w.nextId)
    (ha : pointer.address < w.nextId) (hcontent : content w.stored.parts old = aqs.archiveJobs)
    (hx : Filling.Sound T ⟨w.memory, pointer, aqs⟩ jobs)
    (hroom : aqs.archiveJobs.length < maxShardSize) (hne : js ≠ []) (hj : ∀ j ∈ js, ok j) :
    ∃ w' n, 0 < n ∧ fillAndStore before pointer aqs js w = .ok (js.drop n) w' ∧
      InLine T w' (jobs ++ (js.take n).map JobToAdd.toPointer) := by
  obtain ⟨x', hf, hs', hjobs', haddr⟩ := fillShard_spec hT js hx hj
  obtain ⟨n, hn⟩ : ∃ n, maxShardSize - aqs.archiveJobs.length = n := ⟨_, rfl⟩
  simp only [hn] at hf hs' hjobs'
  have hpos : 0 < n := by omega
  have htake : (js.take n).map JobToAdd.toPointer ≠ [] := by
    simp only [ne_eq, List.map_eq_nil_iff, List.take_eq_nil_iff, not_or]
    exact ⟨by omega, hne⟩
  let p' : ArchiveQueue := { x'.queue with archiveQueueShards := before ++ [x'.pointer] }
  have hb : Booked p' (jobs ++ (js.take n).map JobToAdd.toPointer) :=
    ⟨⟨hs'.booked.counted.priority, hs'.booked.counted.age, hs'.booked.counted.policy⟩,
      hs'.booked.count, hs'.booked.size⟩
  have hd : Describes x'.pointer x'.aqs := by
    refine ⟨?_, ?_, hs'.total, hs'.count, hs'.size⟩
    · rw [hjobs']
      exact fun hnil => htake (List.append_eq_nil_iff.mp hnil).2
    · rw [hjobs', List.length_append, List.length_map, List.length_take]
      omega
  have hcont : content w.stored.parts before ++ (x'.aqs.archiveJobs ++ content w.stored.parts []) =
      jobs ++ (js.take n).map JobToAdd.toPointer := by
    rw [hjobs', ← h.inOrder, hps, ← hcontent]
    simp [content]
  have hsane : Sane p' (Function.update w.stored.parts pointer.address (some x'.aqs)) w.nextId
      (jobs ++ (js.take n).map JobToAdd.toPointer) := by
    have hps' : w.memory.archiveQueueShards = before ++ (old ++ []) := by
      rw [hps, List.append_nil]
    have hrep : Replaces (Function.update w.stored.parts pointer.address (some x'.aqs))
        pointer.address [x'.pointer] x'.aqs.archiveJobs :=
      .inr ⟨x'.pointer, x'.aqs, rfl, haddr, by simp, rfl, hd⟩
    exact h.replace hps' hold (by simpa using hother) hnext ha hrep rfl hcont hb
  let w1 : Queue := { w with memory := p' }
  refine ⟨(w1.write { w1.stored with root := p' }).write
    ⟨p', Function.update w.stored.parts pointer.address (some x'.aqs)⟩, n, hpos, ?_, rfl, hsane,
    hT.pointers _ hs'.kept⟩
  have hcommit : commit w1 = .ok () (w1.write { w1.stored with root := w1.memory }) :=
    commit_coherent hsane.check
  simp only [fillAndStore, bind_apply, getMemory_apply, hf, fromExcept_ok, pure_apply,
    setMemory_apply]
  dsimp only [w1, p'] at hcommit ⊢
  rw [hcommit]
  rfl

theorem InLine.addToNewShard (h : InLine T w jobs) (hT : KeptByAccounting ok T) (hne : js ≠ [])
    (hj : ∀ j ∈ js, ok j) :
    ∃ w' n, 0 < n ∧ ArchiveQueue.addToNewShard js w = .ok (js.drop n) w' ∧
      InLine T w' (jobs ++ (js.take n).map JobToAdd.toPointer) := by
  have hx : Filling.Sound T ⟨w.memory, ⟨w.nextId, 0, 0⟩, ArchiveQueueShard.initialized⟩ jobs :=
    ⟨h.sane.booked, h.kept, rfl, rfl, rfl⟩
  have hps : w.memory.archiveQueueShards = w.memory.archiveQueueShards ++ [] := by simp
  have hother : ∀ q ∈ w.memory.archiveQueueShards, q.address ≠ w.nextId :=
    fun q hq => Nat.ne_of_lt (h.sane.fresh q hq)
  obtain ⟨w', n, hn, hrun, hs⟩ := fillAndStore_inLine hT (w := { w with nextId := w.nextId + 1 })
    h.sane hps (by simp) hother (Nat.le_succ _) (Nat.lt_succ_self _) rfl hx (by decide) hne hj
  exact ⟨w', n, hn, by simpa [ArchiveQueue.addToNewShard] using hrun, hs⟩

theorem InLine.addRound (h : InLine T w jobs) (hT : KeptByAccounting ok T) (hne : js ≠ [])
    (hj : ∀ j ∈ js, ok j) :
    ∃ w' n, 0 < n ∧ ArchiveQueue.addRound js w = .ok (js.drop n) w' ∧
      InLine T w' (jobs ++ (js.take n).map JobToAdd.toPointer) := by
  cases hlast : w.memory.archiveQueueShards.getLast? with
  | none =>
    obtain ⟨w', n, hn, hrun, hs⟩ := h.addToNewShard hT hne hj
    exact ⟨w', n, hn, by simpa [ArchiveQueue.addRound, hlast] using hrun, hs⟩
  | some q =>
    by_cases hroom : q.shardJobsCount < maxShardSize
    · obtain ⟨before, hps⟩ := List.getLast?_eq_some_iff.mp hlast
      obtain ⟨s, hs, hd⟩ := h.sane.described q (by simp [hps])
      have hn := h.sane.nodup
      rw [hps, List.map_append, List.map_singleton, List.nodup_append] at hn
      have hother : ∀ x ∈ before, x.address ≠ q.address :=
        fun x hx => hn.2.2 x.address (List.mem_map_of_mem hx) q.address (by simp)
      have hx : Filling.Sound T ⟨w.memory, q, s⟩ jobs :=
        ⟨h.sane.booked, h.kept, hd.count, hd.size, hd.total⟩
      obtain ⟨w', n, hpos, hrun, hs'⟩ := fillAndStore_inLine hT h.sane hps (by simp) hother
        (Nat.le_refl _) (h.sane.fresh q (by simp [hps])) (by simp [content, shardJobs_some hs]) hx
        (hd.count ▸ hroom) hne hj
      refine ⟨w', n, hpos, ?_, hs'⟩
      have hmatch : ¬ (q.shardBytesCount ≠ s.getJobsSummary.bytes ∨
          q.shardJobsCount ≠ s.getJobsSummary.jobs) := by
        simp [ArchiveQueueShard.getJobsSummary, hd.count, hd.size, hd.total]
      simp only [ArchiveQueue.addRound, bind_apply, getMemory_apply, hlast, if_pos hroom,
        addToLastShard, lookupPart_apply, hs, if_neg hmatch]
      rw [hps, List.dropLast_concat]
      exact hrun
    · obtain ⟨w', n, hn, hrun, hs⟩ := h.addToNewShard hT hne hj
      exact ⟨w', n, hn, by simpa [ArchiveQueue.addRound, hlast, hroom] using hrun, hs⟩

theorem InLine.addLoop (h : InLine T w jobs) (hT : KeptByAccounting ok T) (hj : ∀ j ∈ js, ok j)
    {fuel : Nat} (hfuel : js.length ≤ fuel) :
    ∃ w', ArchiveQueue.addLoop fuel js w = .ok () w' ∧
      InLine T w' (jobs ++ js.map JobToAdd.toPointer) := by
  induction fuel generalizing w jobs js with
  | zero =>
    obtain rfl : js = [] := List.length_eq_zero_iff.mp (by omega)
    exact ⟨w, rfl, by simpa using h⟩
  | succ fuel ih =>
    cases js with
    | nil => exact ⟨w, rfl, by simpa using h⟩
    | cons j js =>
      obtain ⟨w1, n, hn, hrun, hs⟩ := h.addRound hT (List.cons_ne_nil j js) hj
      have hleft : ((j :: js).drop n).length ≤ fuel := by
        rw [List.length_drop]
        omega
      obtain ⟨w2, hrun2, hs2⟩ := ih hs (fun k hk => hj k (List.mem_of_mem_drop hk)) hleft
      refine ⟨w2, ?_, ?_⟩
      · simp only [ArchiveQueue.addLoop, bind_apply, hrun, hrun2]
      · rwa [List.append_assoc, ← List.map_append, List.take_append_drop] at hs2

theorem Sane.add (h : Sane w.memory w.stored.parts w.nextId jobs)
    (hroot : w.stored.root = w.memory) (js : List JobToAdd) :
    ∃ w', addJobsAndCommit js w = .ok () w' ∧ w'.stored.root = w'.memory ∧
      Sane w'.memory w'.stored.parts w'.nextId (jobs ++ js.map JobToAdd.toPointer) := by
  have hT : KeptByAccounting (fun _ => True) fun _ _ => True :=
    ⟨fun _ _ _ _ => trivial, fun _ _ => trivial⟩
  have hline : InLine (fun _ _ => True) w jobs := ⟨hroot, h, trivial⟩
  have hok : ∀ j ∈ js, (fun _ : JobToAdd => True) j := fun _ _ => trivial
  obtain ⟨w', hrun, hline'⟩ := hline.addLoop hT hok (Nat.le_succ _)
  exact ⟨w', hrun, hline'.fetched, hline'.sane⟩

end

structure Settled (w : Queue) (jobs : List ArchiveJobPointer) : Prop where
  fetched : w.stored.root = w.memory
  sane : Sane w.memory w.stored.parts w.nextId jobs
  timed : Timed w.memory jobs
  times : ∀ t ∈ timesOf jobs, InRange t

theorem Settled.add {w : Queue} {jobs : List ArchiveJobPointer} {js : List JobToAdd}
    (h : Settled w jobs) (hj : ∀ j ∈ js, InRange j.startTime) :
    ∃ w', addJobsAndCommit js w = .ok () w' ∧ Settled w' (jobs ++ js.map JobToAdd.toPointer) := by
  have hline : InLine TimedInRange w jobs := ⟨h.fetched, h.sane, h.timed, h.times⟩
  obtain ⟨w', hrun, hline'⟩ := hline.addLoop timedInRange_kept hj (Nat.le_succ _)
  exact ⟨w', hrun, hline'.fetched, hline'.sane, hline'.kept.1, hline'.kept.2⟩

theorem recomputeShards_found {w : Queue} (l : List ArchiveQueueShardPointer)
    (h : ∀ q ∈ l, ∃ s, w.stored.parts q.address = some s) (t : StartTimes) :
    recomputeShards (l.map fun q => (q.address, w.stored.parts q.address)) t w =
      .ok ((timesOf (content w.stored.parts l)).foldl StartTimes.note t) w := by
  induction l generalizing t with
  | nil => rfl
  | cons q l ih =>
    obtain ⟨s, hs⟩ := h q List.mem_cons_self
    have hnote : t.noteAll s.dumpJobs = (timesOf s.archiveJobs).foldl StartTimes.note t := by
      simp [StartTimes.noteAll, ArchiveQueueShard.dumpJobs, timesOf, List.foldl_map,
        ArchiveJobPointer.toInfo]
    have hc : content w.stored.parts (q :: l) = s.archiveJobs ++ content w.stored.parts l := by
      simp [content, shardJobs_some hs]
    rw [List.map_cons, hs, recomputeShards, ih fun x hx => h x (List.mem_cons_of_mem q hx), hnote,
      hc, timesOf_append, List.foldl_append]

section
variable {w : Queue} {jobs : List ArchiveJobPointer}

theorem Sane.recomputeAndCommit (h : Sane w.memory w.stored.parts w.nextId jobs)
    (hr : ∀ t ∈ timesOf jobs, InRange t) :
    ∃ w', (do recomputeOldestAndYoungestJobCreationTime; commit : Op Unit) w = .ok () w' ∧
      Settled w' jobs ∧ w'.stored.parts = w.stored.parts ∧
      w'.memory.archiveQueueShards = w.memory.archiveQueueShards := by
  have hlookup : lookupShards w = .ok
      (w.memory.archiveQueueShards.map fun q => (q.address, w.stored.parts q.address)) w :=
    mapM_lookupPart _ _ w
  have hpresent : ∀ q ∈ w.memory.archiveQueueShards, ∃ s, w.stored.parts q.address = some s := by
    intro q hq
    obtain ⟨s, hs, -⟩ := h.described q hq
    exact ⟨s, hs⟩
  let t := (timesOf jobs).foldl StartTimes.note {}
  have hrec : recomputeOldestAndYoungestJobCreationTime w =
      .ok () { w with memory := t.record w.memory } := by
    simp only [recomputeOldestAndYoungestJobCreationTime, bind_apply, hlookup,
      recomputeShards_found _ hpresent, getMemory_apply, setMemory_apply, h.inOrder, t]
  have hs : Sane (t.record w.memory) w.stored.parts w.nextId jobs :=
    ⟨h.nodup, h.fresh, h.only, h.described, h.inOrder,
      ⟨⟨h.booked.counted.priority, h.booked.counted.age, h.booked.counted.policy⟩,
        h.booked.count, h.booked.size⟩⟩
  have ht : Timed (t.record w.memory) jobs := by
    intro hne
    have hne' : timesOf jobs ≠ [] := by simpa [timesOf] using hne
    obtain ⟨hext, hold, hyoung⟩ := StartTimes.foldl_note_extremes hne' hr
    simp only [StartTimes.record, t, if_pos hold, if_pos hyoung]
    simpa using hext
  refine ⟨World.write { w with memory := t.record w.memory }
    { w.stored with root := t.record w.memory }, ?_, ⟨rfl, hs, ht, hr⟩, rfl, rfl⟩
  simp only [bind_apply, hrec]
  exact commit_coherent (w := { w with memory := t.record w.memory }) hs.check

structure Trimmed (q : ArchiveQueueShardPointer) (s : ArchiveQueueShard) (las : List Address)
    (x : Option ArchiveQueueShard) (mid : List ArchiveQueueShardPointer) : Prop where
  addresses : (mid.map (·.address)).Sublist [q.address]
  replaces : ∀ parts : ShardAddress → Option ArchiveQueueShard,
    Replaces (Function.update parts q.address x) q.address mid (keptOf jobFields s.archiveJobs las)
  left : ∀ t, x = some t → t.archiveJobs = keptOf jobFields s.archiveJobs las

theorem removeFromShard_trims {w : Queue} {ps qs : List ArchiveQueueShardPointer}
    {q : ArchiveQueueShardPointer} {s : ArchiveQueueShard} {p1 : ArchiveQueue} (las : List Address)
    (hps : w.memory.archiveQueueShards = ps ++ q :: qs) (hs : w.stored.parts q.address = some s)
    (hd : Describes q s) (hp1 : p1.archiveQueueShards = w.memory.archiveQueueShards)
    (hforget : (s.removeJobs las).2.removedJobs.foldlM forgetJob w.memory = .ok p1) :
    ∃ x mid, Trimmed q s las x mid ∧ removeFromShard las ps.length w =
      (do recomputeOldestAndYoungestJobCreationTime
          commit
          return (stillToRemove jobFields las s.archiveJobs, (ps ++ mid).length) : Op _)
        { w.write { w.stored with parts := Function.update w.stored.parts q.address x } with
          memory := { p1 with
            archiveJobsCount :=
              sub64 p1.archiveJobsCount (goneOf jobFields s.archiveJobs las).length
            archiveJobsTotalSize :=
              p1.archiveJobsTotalSize - bytes jobFields (goneOf jobFields s.archiveJobs las)
            archiveQueueShards := ps ++ (mid ++ qs) } } := by
  have hout : ShardRemoval.Outcome jobFields s.archiveJobs s.archiveJobsTotalSize las
      (ShardRemoval.removeJobs jobFields s.archiveJobs s.archiveJobsTotalSize las) :=
    ShardRemoval.removeJobs_outcome _ _ _
  obtain ⟨out, hremoved, hperm⟩ := hout.removedJobs
  have hstill := filter_removedJobs (f := jobFields) (·.address) (fun _ => rfl) hperm
  rw [← hremoved] at hstill
  have hget : w.memory.archiveQueueShards[ps.length]? = some q := by simp [hps]
  have hjobsRemoved : (s.removeJobs las).2.jobsRemoved = _ := hout.jobsRemoved
  have hbytesRemoved : (s.removeJobs las).2.bytesRemoved = _ := hout.bytesRemoved
  have hstill' : (las.filter fun a => !((s.removeJobs las).2.removedJobs.any
      fun j => decide (j.address = a))) = _ := hstill
  by_cases hnil : keptOf jobFields s.archiveJobs las = []
  · have hafter : (s.removeJobs las).2.jobsAfter = 0 := by
      refine hout.jobsAfter.trans ?_
      rw [hnil, List.length_nil]
    have hdrop : removeBySwaps ps.length w.memory.archiveQueueShards = ps ++ qs := by
      rw [hps, removeBySwaps_append]
    refine ⟨none, [], ⟨by simp, fun parts => .inl ⟨rfl, by simp, hnil⟩, by simp⟩, ?_⟩
    simp only [removeFromShard, fetchShard, bind_apply, pure_apply, getMemory_apply,
      setMemory_apply, lookupPart_apply, dropPart_apply, fromOption_some, fromExcept_ok, hget, hs,
      hafter, ne_eq, not_true_eq_false, if_false, World.write_memory, hforget, hp1, hdrop,
      hjobsRemoved, hbytesRemoved, hstill', List.append_nil, List.nil_append]
  · let q' : ArchiveQueueShardPointer := { q with
      shardBytesCount := q.shardBytesCount - bytes jobFields (goneOf jobFields s.archiveJobs las)
      shardJobsCount := sub64 q.shardJobsCount (goneOf jobFields s.archiveJobs las).length }
    have hafter : (s.removeJobs las).2.jobsAfter ≠ 0 := by
      rw [show (s.removeJobs las).2.jobsAfter = _ from hout.jobsAfter]
      simpa using hnil
    have hsplit := ShardRemoval.keptOf_goneOf_perm (f := jobFields) s.archiveJobs las
    have hlen : (goneOf jobFields s.archiveJobs las).length +
        (keptOf jobFields s.archiveJobs las).length = s.archiveJobs.length := by
      rw [← hsplit.length_eq, List.length_append]
    have hbytes : bytes jobFields s.archiveJobs =
        bytes jobFields (goneOf jobFields s.archiveJobs las) +
          bytes jobFields (keptOf jobFields s.archiveJobs las) := by
      rw [← ShardRemoval.bytes_perm hsplit, bytes_append]
    have hq'count : q'.shardJobsCount = (keptOf jobFields s.archiveJobs las).length := by
      change sub64 q.shardJobsCount _ = _
      rw [hd.count, sub64_of_le (by omega)]
      omega
    have hq'bytes : q'.shardBytesCount = bytes jobFields (keptOf jobFields s.archiveJobs las) := by
      change q.shardBytesCount - _ = _
      rw [hd.size, hbytes]
      abel
    have htotal : (s.removeJobs las).1.archiveJobsTotalSize =
        bytes jobFields (keptOf jobFields s.archiveJobs las) := by
      refine hout.jobsTotal.trans ?_
      rw [hd.total, hbytes]
      abel
    have hjobs : (s.removeJobs las).1.archiveJobs = keptOf jobFields s.archiveJobs las := hout.left
    have hdesc : Describes q' (s.removeJobs las).1 := by
      refine ⟨hjobs ▸ hnil, ?_, by rw [htotal, hjobs], by rw [hq'count, hjobs],
        by rw [hq'bytes, hjobs]⟩
      have := hd.bounded
      rw [hjobs]
      omega
    refine ⟨some (s.removeJobs las).1, [q'], ⟨by simp [q'], fun parts => .inr ⟨q',
      (s.removeJobs las).1, rfl, rfl, by simp, hjobs.symm, hdesc⟩, ?_⟩, ?_⟩
    · rintro t ht
      rw [← Option.some.inj ht, hjobs]
    · have hset : w.memory.archiveQueueShards.set ps.length q' = ps ++ ([q'] ++ qs) := by
        simp [hps]
      have hmatch : ¬ (q'.shardBytesCount ≠ (s.removeJobs las).2.bytesAfter ∨
          q'.shardJobsCount ≠ (s.removeJobs las).2.jobsAfter) := by
        have hb : (s.removeJobs las).2.bytesAfter = (s.removeJobs las).1.archiveJobsTotalSize :=
          hout.bytesAfter.trans hout.jobsTotal.symm
        have hc : (s.removeJobs las).2.jobsAfter = _ := hout.jobsAfter
        simp [hb, hc, hq'bytes, hq'count, htotal]
      simp only [removeFromShard, fetchShard, setPointer, bind_apply, pure_apply, getMemory_apply,
        setMemory_apply, lookupPart_apply, putPart_apply, fromOption_some, fromExcept_ok, hget, hs,
        if_pos hafter, World.write_memory, hforget, hp1, hjobsRemoved, hbytesRemoved, hstill',
        List.length_append, List.length_singleton]
      simp only [q'] at hset hmatch
      rw [if_neg hmatch]
      simp only [bind_apply, pure_apply, hset, q']

theorem filter_keptOf (l : List ArchiveJobPointer) {las as : List Address} (h : las ⊆ as) :
    (keptOf jobFields l las).filter (fun j => decide (j.address ∉ as)) =
      l.filter (fun j => decide (j.address ∉ as)) := by
  rw [keptOf, List.filter_filter]
  refine List.filter_congr fun j _ => ?_
  by_cases hj : j.address ∈ as
  · simp [hj]
  · have hl : j.address ∉ las := fun hl => hj (h hl)
    simp [hj, jobFields, hl]

theorem Settled.removeFromShard (h : Settled w jobs) {as bs : List ShardAddress} {a : ShardAddress}
    (haddr : w.memory.archiveQueueShards.map (·.address) = as ++ a :: bs) (las : List Address) :
    ∃ s w' mid jobs', w.stored.parts a = some s ∧ mid.Sublist [a] ∧
      ArchiveQueue.removeFromShard las as.length w =
        .ok (stillToRemove jobFields las s.archiveJobs, (as ++ mid).length) w' ∧
      Settled w' jobs' ∧
      (∀ all, las ⊆ all → jobs'.filter (fun j => decide (j.address ∉ all)) =
        jobs.filter (fun j => decide (j.address ∉ all))) ∧
      w'.memory.archiveQueueShards.map (·.address) = (as ++ mid) ++ bs ∧
      (∀ b, b ≠ a → w'.stored.parts b = w.stored.parts b) ∧
      ∀ t, w'.stored.parts a = some t → t.archiveJobs = keptOf jobFields s.archiveJobs las := by
  obtain ⟨ps, rest, hps, rfl, hrest⟩ := List.map_eq_append_iff.mp haddr
  obtain ⟨q, qs, rfl, rfl, rfl⟩ := List.map_eq_cons_iff.mp hrest
  obtain ⟨s, hs, hd⟩ := h.sane.described q (by simp [hps])
  obtain ⟨out, hremoved, hperm⟩ :=
    (ShardRemoval.removeJobs_outcome (f := jobFields) s.archiveJobs s.archiveJobsTotalSize
      las).removedJobs
  have hjobs : jobs = content w.stored.parts ps ++
      (s.archiveJobs ++ content w.stored.parts qs) := by
    rw [← h.sane.inOrder, hps]
    simp [content, shardJobs_some hs]
  -- the queued jobs, with the trimmed ones apart
  let jobs' := content w.stored.parts ps ++
    (keptOf jobFields s.archiveJobs las ++ content w.stored.parts qs)
  have hsplit : (jobs : Multiset ArchiveJobPointer) = out + jobs' := by
    have hgk := Multiset.coe_eq_coe.mpr
      (ShardRemoval.keptOf_goneOf_perm (f := jobFields) s.archiveJobs las)
    rw [hjobs, Multiset.coe_eq_coe.mpr hperm]
    simp only [jobs', ← Multiset.coe_add, ← hgk]
    abel
  have hlen : out.length = (goneOf jobFields s.archiveJobs las).length := hperm.length_eq
  have hcard : jobs.length = out.length + jobs'.length := by
    simpa using congrArg Multiset.card hsplit
  have hbytes : bytes jobFields jobs = bytes jobFields (goneOf jobFields s.archiveJobs las) +
      bytes jobFields jobs' := by
    have hp : jobs.Perm (out ++ jobs') := Multiset.coe_eq_coe.mp (by rw [hsplit, Multiset.coe_add])
    rw [ShardRemoval.bytes_perm hp, bytes_append, ShardRemoval.bytes_perm hperm]
  obtain ⟨p1, hforget, hcounted, hp1⟩ := forgetJobs_counted out (hsplit ▸ h.sane.booked.counted)
  have hshards : p1.archiveQueueShards = w.memory.archiveQueueShards := by rw [hp1]
  obtain ⟨x, mid, htrim, hrun⟩ := removeFromShard_trims las hps hs hd hshards
    (by rw [show (s.removeJobs las).2.removedJobs = _ from hremoved]; exact hforget)
  let p2 : ArchiveQueue := { p1 with
    archiveJobsCount := sub64 p1.archiveJobsCount (goneOf jobFields s.archiveJobs las).length
    archiveJobsTotalSize :=
      p1.archiveJobsTotalSize - bytes jobFields (goneOf jobFields s.archiveJobs las)
    archiveQueueShards := ps ++ (mid ++ qs) }
  have hbooked : Booked p2 jobs' := by
    refine ⟨⟨hcounted.priority, hcounted.age, hcounted.policy⟩, ?_, ?_⟩
    · change sub64 p1.archiveJobsCount _ = _
      rw [hp1]
      change sub64 w.memory.archiveJobsCount _ = _
      rw [h.sane.booked.count, hcard, ← hlen, sub64_of_le (by omega)]
      omega
    · change p1.archiveJobsTotalSize - _ = _
      rw [hp1]
      change w.memory.archiveJobsTotalSize - _ = _
      rw [h.sane.booked.size, hbytes]
      abel
  have hn := h.sane.nodup
  rw [hps, List.map_append, List.map_cons, List.nodup_middle, List.nodup_cons] at hn
  have hother : ∀ y ∈ ps ++ qs, y.address ≠ q.address := by
    intro y hy he
    exact hn.1 (by rw [← List.map_append]; exact he ▸ List.mem_map_of_mem hy)
  have hsane : Sane p2 (Function.update w.stored.parts q.address x) w.nextId jobs' :=
    h.sane.replace (by rw [hps, List.singleton_append]) (by simp) hother (Nat.le_refl _)
      (h.sane.fresh q (by simp [hps])) (htrim.replaces w.stored.parts) rfl rfl hbooked
  have htimes : ∀ t ∈ timesOf jobs', InRange t := by
    intro t ht
    obtain ⟨j, hj, rfl⟩ := List.mem_map.mp ht
    refine h.times _ (List.mem_map_of_mem ?_)
    rw [hjobs]
    simp only [jobs', List.mem_append] at hj ⊢
    exact hj.imp_right (Or.imp_left fun hj => List.mem_of_mem_filter hj)
  obtain ⟨w', hrun', hset, hparts, hsh⟩ := Sane.recomputeAndCommit
    (w := { w.write { w.stored with parts := Function.update w.stored.parts q.address x } with
      memory := p2 }) hsane htimes
  refine ⟨s, w', mid.map (·.address), jobs', hs, htrim.addresses, ?_, hset, ?_, ?_, ?_, ?_⟩
  · rw [List.length_map, hrun]
    rw [← bind_assoc, bind_apply, hrun']
    simp
  · intro all hall
    rw [hjobs]
    simp only [jobs', List.filter_append, filter_keptOf _ hall]
  · rw [hsh]
    simp [p2]
  · intro b hb
    rw [hparts]
    exact Function.update_of_ne hb _ _
  · intro t ht
    rw [hparts] at ht
    change Function.update w.stored.parts q.address x q.address = some t at ht
    rw [Function.update_self] at ht
    exact htrim.left t ht

theorem Sane.mem_part {p : ArchiveQueue} {parts : ShardAddress → Option ArchiveQueueShard}
    {next : Nat} (h : Sane p parts next jobs) {j : ArchiveJobPointer} (hj : j ∈ jobs) :
    ∃ a ∈ p.archiveQueueShards.map (·.address), ∃ s, parts a = some s ∧ j ∈ s.archiveJobs := by
  rw [← h.inOrder, content, List.mem_flatMap] at hj
  obtain ⟨q, hq, hj⟩ := hj
  obtain ⟨s, hs, -⟩ := h.described q hq
  rw [shardJobs_some hs, Option.getD_some] at hj
  exact ⟨q.address, List.mem_map_of_mem hq, s, hs, hj⟩

section
variable {all las : List Address} {w' : Queue} {fuel i : Nat}

theorem removeLoop_ends (fuel : Nat) (h : las = [] ∨ w.memory.archiveQueueShards.length ≤ i) :
    removeLoop fuel las i w = .ok () w := by
  unfold removeLoop
  simp [h]

theorem removeLoop_goes {las' : List Address} {i' : Nat} (fuel : Nat)
    (h : ¬(las = [] ∨ w.memory.archiveQueueShards.length ≤ i))
    (hrun : removeFromShard las i w = .ok (las', i') w') :
    removeLoop (fuel + 1) las i w = removeLoop fuel las' i' w' := by
  rw [removeLoop]
  simp only [bind_apply, getMemory_apply, if_neg h, hrun]

/-- A queue that agrees with its shards, and still holds the jobs that are not to be removed. -/
def StillHolds (all : List Address) (jobs : List ArchiveJobPointer) (w : Queue) : Prop :=
  ∃ jobs', Settled w jobs' ∧ jobs'.filter (fun j => decide (j.address ∉ all)) =
    jobs.filter fun j => decide (j.address ∉ all)

theorem StillHolds.removeFromShard (h : StillHolds all jobs w) {visited ahead : List ShardAddress}
    {a : ShardAddress}
    (haddr : w.memory.archiveQueueShards.map (·.address) = visited ++ a :: ahead)
    (hlas : las ⊆ all) :
    ∃ s mid w', Round jobFields (fun w : Queue => w.memory.archiveQueueShards.map (·.address))
        (fun w => shardJobs w.stored.parts) visited ahead a las s mid w w' ∧
      StillHolds all jobs w' ∧
      ArchiveQueue.removeFromShard las visited.length w =
        .ok (stillToRemove jobFields las s, (visited ++ mid).length) w' := by
  obtain ⟨jobs', hset, hsame⟩ := h
  obtain ⟨s, w', mid, jobs'', hs, hmid, hrun, hset', hfilter, haddr', hother, ha⟩ :=
    hset.removeFromShard haddr las
  have hleft : ∀ t ∈ shardJobs w'.stored.parts a, t = keptOf jobFields s.archiveJobs las := by
    intro t ht
    obtain ⟨u, hu, rfl⟩ := Option.map_eq_some_iff.mp ht
    exact ha u hu
  refine ⟨s.archiveJobs, mid, w', ⟨shardJobs_some hs, hmid, haddr', fun b hb => ?_, hleft⟩,
    ⟨jobs'', hset', (hfilter all hlas).trans hsame⟩, hrun⟩
  exact congrArg (Option.map (·.archiveJobs)) (hother b hb)

theorem Settled.remove (h : Settled w jobs)
    (honce : InOneShard jobFields all (shardJobs w.stored.parts)
      (w.memory.archiveQueueShards.map (·.address))) :
    ∃ w', removeJobsAndCommit all w = .ok () w' ∧
      Settled w' (jobs.filter fun j => decide (j.address ∉ all)) := by
  have hfuel : (w.memory.archiveQueueShards.map (·.address)).length ≤
      w.memory.archiveQueueShards.length := by simp
  obtain ⟨w', hrun, ⟨jobs', hset, hsame⟩, hleft⟩ :=
    Removing.loop (fun w : Queue => w.memory.archiveQueueShards.map (·.address))
      (fun w => shardJobs w.stored.parts) (StillHolds all jobs)
      (fun fuel las i w hend => removeLoop_ends fuel (by simpa using hend))
      (fun fuel las i w las' i' w' hmore hrun => removeLoop_goes fuel (by simpa using hmore) hrun)
      (fun w hw => by
        obtain ⟨jobs', hset, -⟩ := hw
        exact hset.sane.nodup)
      (fun w visited a ahead las hw haddr hlas => hw.removeFromShard haddr hlas)
      ⟨jobs, h, rfl⟩ rfl (Removing.start honce) hfuel
  have hkeep : jobs'.filter (fun j => decide (j.address ∉ all)) = jobs' := by
    refine List.filter_eq_self.mpr fun j hj => decide_eq_true ?_
    obtain ⟨a, ha, s, hs, hj⟩ := hset.sane.mem_part hj
    exact hleft a ha _ (shardJobs_some hs) j hj
  refine ⟨w', by simpa [removeJobsAndCommit] using hrun, ?_⟩
  rwa [← hsame, hkeep]

end

end

end Cta.ObjectStore.ArchiveQueue
