import Cta.ObjectStore.RetrieveQueueExecution

/-! Progress of an addition through the groups of its plan. A group without a cut and a
group with one cut each leave the queue ready for the next group. -/
namespace Cta.ObjectStore.RetrieveQueue
open StoreError ValueCountMap Cta.Lib.Sequence Cta.Lib.PartedStore
open RetrieveQueueShard (Coherent bytesOf bytesOf_append bytesOf_perm kept gone JobsToAddSet.ofList)

def Access.Safe : Access → Prop
  | .pointer owner found => found = some owner
  | .summary jobs => 0 < jobs

instance : DecidablePred Access.Safe := fun x =>
  match x with
  | .pointer owner found => inferInstanceAs (Decidable (found = some owner))
  | .summary jobs => inferInstanceAs (Decidable (0 < jobs))

/-- Totals are the sums over the pointers, and the maps have that many entries. -/
structure Consistent (p : RetrieveQueue) : Prop where
  size : p.retrieveJobsTotalSize = (p.retrieveQueueShards.map (·.shardBytesCount)).sum
  count : p.retrieveJobsCount = (p.retrieveQueueShards.map (·.shardJobsCount)).sum
  tallied : Tallied p p.retrieveJobsCount

theorem Consistent.check {p : RetrieveQueue} (h : Consistent p) :
    checkMapsAndShardsCoherency p = .ok true :=
  check_ok h.size h.count rfl h.tallied.priority h.tallied.age h.tallied.policy

theorem consistent_of_check {p : RetrieveQueue} (h : checkMapsAndShardsCoherency p = .ok true)
    (ha : ∃ k, p.activityMap.total = .ok k) : Consistent p := by
  have map_total : ∀ {x : Except StoreError Nat} {f : Except StoreError Bool},
      (do if (← x) ≠ p.retrieveJobsCount then return false else f) = Except.ok true →
      x = .ok p.retrieveJobsCount ∧ f = .ok true := by
    intro x f hx
    cases x with
    | error e => simp [bind, Except.bind] at hx
    | ok n =>
      by_cases hn : n = p.retrieveJobsCount
      · simpa [bind, Except.bind, hn] using hx
      · simp [bind, Except.bind, hn, pure, Except.pure] at hx
  unfold checkMapsAndShardsCoherency at h
  by_cases hsum : p.retrieveJobsTotalSize ≠ (p.retrieveQueueShards.map (·.shardBytesCount)).sum ∨
      p.retrieveJobsCount ≠ (p.retrieveQueueShards.map (·.shardJobsCount)).sum
  · simp [hsum, pure, Except.pure] at h
  · rw [if_neg hsum] at h
    obtain ⟨h1, h⟩ := map_total h
    obtain ⟨h2, h⟩ := map_total h
    obtain ⟨h3, -⟩ := map_total h
    rw [not_or, not_not, not_not] at hsum
    exact ⟨hsum.1, hsum.2, h1, h2, h3, ha⟩

/-- A queue in the middle of an addition: the pointers already handled and those still
to come, the latter as the addition found them. -/
structure Progress (orig : ShardAddress → Option RetrieveQueueShard) (w : Queue)
    (ps qs : List RetrieveQueueShardPointer) (rest : List Group) : Prop where
  pointers : w.memory.retrieveQueueShards = ps ++ qs
  addresses : qs.map (·.address) = rest.map Group.address
  nodup : ((ps ++ qs).map (·.address)).Nodup
  fresh : ∀ q ∈ ps ++ qs, q.address < w.nextId
  done : ∀ q ∈ ps, ∃ s, w.stored.parts q.address = some s ∧ Sound s
  todo : ∀ q ∈ qs, ∃ s, orig q.address = some s ∧ w.stored.parts q.address = some s ∧ Sound s ∧
    q.shardJobsCount = s.retrieveJobs.length ∧ q.shardBytesCount = s.retrieveJobsTotalSize
  consistent : Consistent w.memory

section
variable {orig : ShardAddress → Option RetrieveQueueShard} {w : Queue}
  {ps qs : List RetrieveQueueShardPointer} {q : RetrieveQueueShardPointer} {g : Group}
  {rest : List Group}

theorem Progress.head_address (h : Progress orig w ps (q :: qs) (g :: rest)) :
    q.address = g.address := (List.cons.inj h.addresses).1

theorem Progress.head_fresh (h : Progress orig w ps (q :: qs) (g :: rest)) :
    ∀ x ∈ ps ++ qs, x.address ≠ q.address := by
  have hn := h.nodup
  rw [List.map_append, List.map_cons, List.nodup_middle, List.nodup_cons] at hn
  intro x hx he
  exact hn.1 (by rw [← List.map_append]; exact he ▸ List.mem_map_of_mem hx)

theorem bytesOf_planned (js : List JobToAdd) :
    (js.map (·.fileSize)).sum = bytesOf (js.map JobToAdd.toPointer) := by
  simp [bytesOf, Function.comp_def, JobToAdd.toPointer]

theorem sound_of_perm {s s' : RetrieveQueueShard} {js : List JobToAdd} {l : List RetrieveJobPointer}
    (hc : Coherent s') (hp : s'.retrieveJobs.Perm (js.map JobToAdd.toPointer ++ l))
    (hl : ∀ x ∈ l, x ∈ s.retrieveJobs) (hs : ∀ x ∈ s.retrieveJobs, x.fSeq < 2^64)
    (hj : ∀ j ∈ js, j.fSeq < 2^64) (hne : js ≠ [] ∨ l ≠ []) : Sound s' where
  coherent := hc
  nonempty := by
    intro hnil
    have hlen := hp.length_eq
    rw [hnil, List.length_append, List.length_map, List.length_nil] at hlen
    rcases hne with hne | hne
    · exact hne (List.length_eq_zero_iff.mp (by omega))
    · exact hne (List.length_eq_zero_iff.mp (by omega))
  bounded := by
    intro x hx
    rcases List.mem_append.mp (hp.mem_iff.mp hx) with hx | hx
    · obtain ⟨j, hj', rfl⟩ := List.mem_map.mp hx
      exact hj j hj'
    · exact hs x (hl x hx)

theorem Progress.plain (h : Progress orig w ps (q :: qs) (g :: rest))
    (plan : List ShardForAddition) (hj : ∀ j ∈ g.source.jobsToAdd, j.fSeq < 2^64) :
    ∃ s s' w', orig g.address = some s ∧ Sound s' ∧
      addToShard plan { g.source with shardIndex := ps.length } w = .ok () w' ∧
      Progress orig w' (ps ++ [pointerTo g.address s']) qs rest ∧
      w'.stored = ⟨w'.memory, Function.update w.stored.parts g.address (some s')⟩ ∧
      w'.nextId = w.nextId ∧
      w'.log = w.log ++ [.pointer g.address (some g.address), .summary s'.retrieveJobs.length] ∧
      s'.retrieveJobs.Perm (g.source.jobsToAdd.map JobToAdd.toPointer ++ s.retrieveJobs) ∧
      Accounted w.memory w'.memory g.source.jobsToAdd := by
  have ha := h.head_address
  have hother := h.head_fresh
  obtain ⟨s, ho, hs, hsound, hcount, hbytes⟩ := h.todo q List.mem_cons_self
  rw [ha] at ho hs
  obtain ⟨s', hadd, hc', hp'⟩ := addJobsBatch_planned hsound.coherent g.source.jobsToAdd
  have hs' : Sound s' :=
    sound_of_perm hc' hp' (fun x hx => hx) hsound.bounded hj (.inr hsound.nonempty)
  obtain ⟨p, hacc, htal, hbody⟩ := accountJobs_tallied h.consistent.tallied g.source.jobsToAdd
  have hopen := addToShard_open plan
    (e := { g.source with shardIndex := ps.length }) (w := w) g.isSource.newShard
    g.isSource.fromSplit g.isSource.address rfl h.pointers ha hs hacc hadd hs'
  have hshards : (recorded p ps.length
      (openUpdate g.address g.source.jobsToAdd s')).retrieveQueueShards =
      ps ++ pointerTo g.address s' :: qs := by
    simp [recorded, openUpdate, ShardUpdate.filled, hbody.shards, h.pointers]
  have hlen := hp'.length_eq
  rw [List.length_append, List.length_map] at hlen
  have hsum := h.consistent.count
  have hsize := h.consistent.size
  rw [h.pointers] at hsum hsize
  have hcons : Consistent (recorded p ps.length
      (openUpdate g.address g.source.jobsToAdd s')) := by
    have hn : (recorded p ps.length (openUpdate g.address g.source.jobsToAdd s')).retrieveJobsCount =
        w.memory.retrieveJobsCount + g.source.jobsToAdd.length := by
      simp [recorded, openUpdate, ShardUpdate.filled, sub64, hbody.count]
    refine ⟨?_, ?_, ?_⟩
    · rw [hshards]
      simp only [List.map_append, List.map_cons, List.sum_append, List.sum_cons] at hsize ⊢
      simp only [recorded, openUpdate, ShardUpdate.filled, hbody.size, hsize, hbytes, pointerTo,
        hc'.total, bytesOf_perm hp', bytesOf_append, hsound.coherent.total, bytesOf_planned]
      simp only [UInt64.sub_zero]
      abel
    · rw [hshards, hn]
      simp only [List.map_append, List.map_cons, List.sum_append, List.sum_cons] at hsum ⊢
      simp only [pointerTo]
      omega
    · rw [hn]
      exact ⟨htal.priority, htal.age, htal.policy, htal.activity⟩
  refine ⟨s, s', _, ho, hs', hopen.trans (commit_store hcons.check),
    ⟨?_, ?_, ?_, ?_, ?_, ?_, ?_⟩, rfl, rfl, rfl, hp', ?_⟩
  · simpa using hshards
  · exact (List.cons.inj h.addresses).2
  · simpa [pointerTo, ← ha] using h.nodup
  · intro x hx
    have hx' : x ∈ ps ∨ x = pointerTo g.address s' ∨ x ∈ qs := by simpa using hx
    rcases hx' with hx' | rfl | hx'
    · exact h.fresh x (by simp [hx'])
    · have := h.fresh q (by simp)
      simpa [pointerTo, ← ha] using this
    · exact h.fresh x (by simp [hx'])
  · intro x hx
    have hx' : x ∈ ps ∨ x = pointerTo g.address s' := by simpa using hx
    rcases hx' with hx' | rfl
    · obtain ⟨t, ht, hts⟩ := h.done x hx'
      refine ⟨t, ?_, hts⟩
      have hne : x.address ≠ g.address := ha ▸ hother x (by simp [hx'])
      simpa [Function.update_of_ne hne] using ht
    · exact ⟨s', by simp [pointerTo], hs'⟩
  · intro x hx
    obtain ⟨t, ht1, ht2, ht3⟩ := h.todo x (by simp [hx])
    refine ⟨t, ht1, ?_, ht3⟩
    have hne : x.address ≠ g.address := ha ▸ hother x (by simp [hx])
    simpa [Function.update_of_ne hne] using ht2
  · exact hcons
  · exact accounted_of_foldlM hacc ⟨rfl, rfl, rfl, rfl, rfl, rfl⟩ ⟨rfl, rfl, rfl, rfl, rfl, rfl⟩

/-- The queue once the lower half is stored, before the shard it was cut from is. -/
structure AfterCut (w w1 : Queue) (ps qs : List RetrieveQueueShardPointer) (a : ShardAddress)
    (l : ShardForAddition) (s r : RetrieveQueueShard) : Prop where
  sound : Sound r
  jobs : r.retrieveJobs.Perm (l.jobsToAdd.map JobToAdd.toPointer ++ moved l s)
  pointers : ∃ q, q.address = a ∧
    w1.memory.retrieveQueueShards = (ps ++ [pointerTo w.nextId r]) ++ q :: qs
  stored : w1.stored = ⟨w1.memory, Function.update
    (Function.update w.stored.parts w.nextId (some r)) a (some (trimmed l s))⟩
  nextId : w1.nextId = w.nextId + 1
  log : w1.log = w.log ++
    [.pointer w.nextId (some w.nextId), .pointer a (some a), .summary r.retrieveJobs.length]
  count : w1.memory.retrieveJobsCount + (gone s (movedAddresses l s)).length =
    w.memory.retrieveJobsCount + l.jobsToAdd.length + (moved l s).length
  size : w1.memory.retrieveJobsTotalSize = w.memory.retrieveJobsTotalSize + bytesOf (moved l s) +
    bytesOf (l.jobsToAdd.map JobToAdd.toPointer) - bytesOf (gone s (movedAddresses l s))
  tallied : Tallied w1.memory (w.memory.retrieveJobsCount + l.jobsToAdd.length)
  accounted : Accounted w.memory w1.memory l.jobsToAdd

theorem moved_subset {l : ShardForAddition} {s : RetrieveQueueShard} :
    ∀ x ∈ moved l s, x ∈ s.retrieveJobs := fun _ hx => List.mem_of_mem_filter hx

theorem HasJob.nonempty {l : ShardForAddition} {s : RetrieveQueueShard}
    (h : HasJob s.retrieveJobs l) : l.jobsToAdd ≠ [] ∨ moved l s ≠ [] := by
  refine h.imp_right fun ⟨x, hx, hr⟩ => List.ne_nil_of_mem (a := x) ?_
  exact List.mem_filter.mpr ⟨hx, by simpa using hr⟩

theorem Progress.stored_le (h : Progress orig w ps (q :: qs) (g :: rest)) {s : RetrieveQueueShard}
    (hs : q.shardJobsCount = s.retrieveJobs.length) :
    s.retrieveJobs.length ≤ w.memory.retrieveJobsCount := by
  have hsum := h.consistent.count
  rw [h.pointers] at hsum
  simp only [List.map_append, List.map_cons, List.sum_append, List.sum_cons] at hsum
  omega

theorem Progress.cut {l : ShardForAddition} {plan : List ShardForAddition}
    (h : Progress orig w ps (q :: qs) (g :: rest)) (hl : CutOff g.address l)
    (hfind : plan.find? (fun sfa => sfa.address = some g.address) =
      some { g.source with shardIndex := ps.length + 1 })
    (hjob : ∀ s, orig g.address = some s → HasJob s.retrieveJobs l)
    (hj : ∀ j ∈ l.jobsToAdd, j.fSeq < 2^64) :
    ∃ s r w1, orig g.address = some s ∧ Sound s ∧
      q.shardJobsCount = s.retrieveJobs.length ∧ q.shardBytesCount = s.retrieveJobsTotalSize ∧
      addToShard plan { l with shardIndex := ps.length } w = .ok () w1 ∧
      AfterCut w w1 ps qs g.address l s r := by
  have ha := h.head_address
  obtain ⟨s, ho, hs, hsound, hcount, hbytes⟩ := h.todo q List.mem_cons_self
  have hle := h.stored_le hcount
  rw [ha] at ho hs
  let l' : ShardForAddition := { l with shardIndex := ps.length }
  let e' : ShardForAddition := { g.source with shardIndex := ps.length + 1 }
  obtain ⟨r, hr, hrc, hrp⟩ := transfer_moved l' s
  obtain ⟨r', hadd, hc', hp'⟩ := addJobsBatch_planned hrc l.jobsToAdd
  have hp'' : r'.retrieveJobs.Perm (l.jobsToAdd.map JobToAdd.toPointer ++ moved l s) :=
    hp'.trans (hrp.append_left _)
  have hs' : Sound r' :=
    sound_of_perm hc' hp'' moved_subset hsound.bounded hj (hjob s ho).nonempty
  let p0 : RetrieveQueue := { w.memory with
    retrieveQueueShards := cutPointers w.nextId l' e' ps q qs }
  have htal0 : Tallied p0 w.memory.retrieveJobsCount :=
    ⟨h.consistent.tallied.priority, h.consistent.tallied.age, h.consistent.tallied.policy,
      h.consistent.tallied.activity⟩
  obtain ⟨p, hacc, htal, hbody⟩ := accountJobs_tallied htal0 l.jobsToAdd
  have hl' : CutOff g.address l' := ⟨hl.newShard, hl.fromSplit, hl.splitSource, hl.address⟩
  have hcut := addToShard_cut (l := l') (e := e') hl' rfl h.pointers ha hfind rfl hs hr hacc hadd hs'
  have hgone : (gone s (movedAddresses l s)).length ≤ s.retrieveJobs.length :=
    List.length_filter_le _ _
  refine ⟨s, r', _, ho, hsound, hcount, hbytes, hcut,
    ⟨hs', hp'', ?_, rfl, rfl, rfl, ?_, ?_, ?_, ?_⟩⟩
  · refine ⟨{ q with minFseq := e'.minFseq, maxFseq := e'.maxFseq, shardJobsCount := e'.jobsCount },
      ha, ?_⟩
    change (recorded p ps.length _).retrieveQueueShards = _
    simp [recorded, hbody.shards, p0, cutPointers, ShardUpdate.filled, cutUpdate]
  · change (recorded p ps.length _).retrieveJobsCount + _ = _
    have hp0 : p.retrieveJobsCount = w.memory.retrieveJobsCount := hbody.count
    simp only [recorded, ShardUpdate.filled, cutUpdate, hp0]
    rw [sub64_of_le]
    · change _ - (gone s (movedAddresses l s)).length + _ = _
      have : (moved l' s).length = (moved l s).length := rfl
      have : l'.jobsToAdd.length = l.jobsToAdd.length := rfl
      omega
    · change (gone s (movedAddresses l s)).length ≤ _
      omega
  · change (recorded p ps.length _).retrieveJobsTotalSize = _
    have hp0 : p.retrieveJobsTotalSize = w.memory.retrieveJobsTotalSize := hbody.size
    simp only [recorded, ShardUpdate.filled, cutUpdate, hp0, bytesOf_planned]
    change w.memory.retrieveJobsTotalSize + (bytesOf (moved l s) + bytesOf (l.jobsToAdd.map _)) -
      bytesOf (gone s (movedAddresses l s)) = _
    abel
  · exact ⟨htal.priority, htal.age, htal.policy, htal.activity⟩
  · exact accounted_of_foldlM hacc ⟨rfl, rfl, rfl, rfl, rfl, rfl⟩ ⟨rfl, rfl, rfl, rfl, rfl, rfl⟩

theorem Progress.cut_empty {l : ShardForAddition} {plan : List ShardForAddition}
    {s : RetrieveQueueShard} (h : Progress orig w ps (q :: qs) (g :: rest))
    (hl : CutOff g.address l)
    (hfind : plan.find? (fun sfa => sfa.address = some g.address) =
      some { g.source with shardIndex := ps.length + 1 })
    (ho : orig g.address = some s) (hno : ¬HasJob s.retrieveJobs l) :
    ∃ w', addToShard plan { l with shardIndex := ps.length } w = .error outOfRange w' := by
  have ha := h.head_address
  obtain ⟨s0, ho', hs, -⟩ := h.todo q List.mem_cons_self
  rw [ha] at ho' hs
  obtain rfl : s = s0 := Option.some.inj (ho.symm.trans ho')
  obtain ⟨hjobs, hnone⟩ := not_or.mp hno
  rw [not_not] at hjobs
  let l' : ShardForAddition := { l with shardIndex := ps.length }
  obtain ⟨r, hr, hrc, hrp⟩ := transfer_moved l' s
  obtain ⟨r', hadd, -, hp⟩ := addJobsBatch_planned hrc l'.jobsToAdd
  have hmoved : moved l' s = [] :=
    List.filter_eq_nil_iff.mpr fun x hx hin => hnone ⟨x, hx, of_decide_eq_true hin⟩
  have hempty : r'.retrieveJobs = [] := by
    rw [show l'.jobsToAdd = [] from hjobs, List.map_nil, List.nil_append] at hp
    exact List.perm_nil.mp (hmoved ▸ hp.trans hrp)
  exact ⟨_, addToShard_cut_empty (l := l')
    ⟨hl.newShard, hl.fromSplit, hl.splitSource, hl.address⟩ rfl h.pointers ha hfind rfl hs hr
    (by rw [show l'.jobsToAdd = [] from hjobs]; rfl) hadd hempty⟩

theorem trimmed_jobs (l : ShardForAddition) (s : RetrieveQueueShard) :
    (trimmed l s).retrieveJobs = kept s (movedAddresses l s) :=
  (RetrieveQueueShard.removeJobs_removed s _).jobs

theorem trimmed_coherent (l : ShardForAddition) {s : RetrieveQueueShard} (h : Coherent s) :
    Coherent (trimmed l s) :=
  (RetrieveQueueShard.removeJobs_removed s _).coherent h

/-- The shard that was cut, once its planned jobs are in it: the queue object is recorded
and about to be committed. -/
structure SourceFilled (w w2 : Queue) (ps qs : List RetrieveQueueShardPointer) (a : ShardAddress)
    (l e : ShardForAddition) (s r s' : RetrieveQueueShard) : Prop where
  pointers : w2.memory.retrieveQueueShards =
    (ps ++ [pointerTo w.nextId r]) ++ pointerTo a s' :: qs
  stored : w2.stored.parts = Function.update
    (Function.update w.stored.parts w.nextId (some r)) a (some (trimmed l s))
  nextId : w2.nextId = w.nextId + 1
  log : w2.log = w.log ++
    [.pointer w.nextId (some w.nextId), .pointer a (some a), .summary r.retrieveJobs.length,
      .pointer a (some a), .summary s'.retrieveJobs.length]
  size : w2.memory.retrieveJobsTotalSize =
    (w2.memory.retrieveQueueShards.map (·.shardBytesCount)).sum
  count : w2.memory.retrieveJobsCount =
    (w2.memory.retrieveQueueShards.map (·.shardJobsCount)).sum
  tallied : Tallied w2.memory
    (w.memory.retrieveJobsCount + l.jobsToAdd.length + e.jobsToAdd.length)
  lost : w2.memory.retrieveJobsCount + (gone s (movedAddresses l s)).length =
    w.memory.retrieveJobsCount + l.jobsToAdd.length + e.jobsToAdd.length + (moved l s).length
  accounted : Accounted w.memory w2.memory (l.jobsToAdd ++ e.jobsToAdd)

theorem AfterCut.source {w1 : Queue} {l : ShardForAddition} {s r : RetrieveQueueShard}
    (c : AfterCut w w1 ps qs g.address l s r) (h : Progress orig w ps (q :: qs) (g :: rest))
    (hsound : Sound s) (hcount : q.shardJobsCount = s.retrieveJobs.length)
    (hbytes : q.shardBytesCount = s.retrieveJobsTotalSize) (plan : List ShardForAddition) :
    ∃ s', s'.retrieveJobs.Perm
        (g.source.jobsToAdd.map JobToAdd.toPointer ++ kept s (movedAddresses l s)) ∧
      Coherent s' ∧
      (s'.retrieveJobs = [] →
        ∃ w2, addToShard plan { g.source with shardIndex := ps.length + 1 } w1 =
            .error outOfRange w2 ∧ w2.log = w1.log ++
              [.pointer g.address (some g.address), .summary 0]) ∧
      (Sound s' → ∃ w2, addToShard plan { g.source with shardIndex := ps.length + 1 } w1 =
          (do commit; putPart g.address s' : Op Unit) w2 ∧
        SourceFilled w w2 ps qs g.address l g.source s r s') := by
  obtain ⟨s', hadd, hc', hp'⟩ := addJobsBatch_planned
    (trimmed_coherent l hsound.coherent) g.source.jobsToAdd
  rw [trimmed_jobs] at hp'
  obtain ⟨p, hacc, htal, hbody⟩ := accountJobs_tallied c.tallied g.source.jobsToAdd
  obtain ⟨qe, hqe, hps1⟩ := c.pointers
  have hstored : w1.stored.parts g.address = some (trimmed l s) := by
    rw [c.stored]; simp
  have hlen : ({ g.source with shardIndex := ps.length + 1 } : ShardForAddition).shardIndex =
      (ps ++ [pointerTo w.nextId r]).length := by simp
  refine ⟨s', hp', hc', ?_, ?_⟩
  · intro hnil
    exact ⟨_, addToShard_open_empty plan g.isSource.newShard g.isSource.address hlen hps1
      hqe hstored hacc hadd hnil, rfl⟩
  · intro hs'
    refine ⟨_, addToShard_open plan g.isSource.newShard g.isSource.fromSplit
      g.isSource.address hlen hps1 hqe hstored hacc hadd hs', ?_⟩
    have hpl := hp'.length_eq
    have hrl := c.jobs.length_eq
    have hgk := (RetrieveQueueShard.kept_gone_perm s (movedAddresses l s)).length_eq
    rw [List.length_append, List.length_map] at hpl hrl
    rw [List.length_append] at hgk
    have hgb := bytesOf_perm (RetrieveQueueShard.kept_gone_perm s (movedAddresses l s))
    rw [bytesOf_append] at hgb
    have hsum := h.consistent.count
    have hsize := h.consistent.size
    rw [h.pointers] at hsum hsize
    simp only [List.map_append, List.map_cons, List.sum_append, List.sum_cons] at hsum hsize
    have hcnt := c.count
    have hshards : (recorded p (ps ++ [pointerTo w.nextId r]).length
        (openUpdate g.address g.source.jobsToAdd s')).retrieveQueueShards =
        (ps ++ [pointerTo w.nextId r]) ++ pointerTo g.address s' :: qs := by
      simp only [recorded, openUpdate, ShardUpdate.filled, hbody.shards, hps1]
      rw [List.set_append_right _ _ (Nat.le_refl _), Nat.sub_self, List.set_cons_zero]
    have hn : (recorded p (ps ++ [pointerTo w.nextId r]).length
        (openUpdate g.address g.source.jobsToAdd s')).retrieveJobsCount =
        w1.memory.retrieveJobsCount + g.source.jobsToAdd.length := by
      simp [recorded, openUpdate, ShardUpdate.filled, sub64, hbody.count]
    refine ⟨hshards, by simp only [c.stored], c.nextId, ?_, ?_, ?_, ?_, ?_, ?_⟩
    · simp [c.log]
    · dsimp only
      rw [hshards]
      simp only [List.map_append, List.map_cons, List.map_nil, List.sum_append, List.sum_cons,
        List.sum_nil]
      simp only [recorded, openUpdate, ShardUpdate.filled, hbody.size, c.size, hsize, hbytes,
        pointerTo, hc'.total, bytesOf_perm hp', bytesOf_append, bytesOf_planned,
        c.sound.coherent.total,
        bytesOf_perm c.jobs, hsound.coherent.total, ← hgb, UInt64.sub_zero]
      abel
    · dsimp only
      rw [hshards, hn]
      simp only [List.map_append, List.map_cons, List.map_nil, List.sum_append, List.sum_cons,
        List.sum_nil, pointerTo]
      omega
    · exact ⟨htal.priority, htal.age, htal.policy, htal.activity⟩
    · dsimp only
      rw [hn]
      omega
    · exact c.accounted.trans (accounted_of_foldlM hacc ⟨rfl, rfl, rfl, rfl, rfl, rfl⟩
        ⟨rfl, rfl, rfl, rfl, rfl, rfl⟩)

section
variable {w2 : Queue} {l e : ShardForAddition} {s r s' : RetrieveQueueShard}

theorem SourceFilled.nodup (f : SourceFilled w w2 ps qs g.address l e s r s')
    (h : Progress orig w ps (q :: qs) (g :: rest)) :
    (w2.memory.retrieveQueueShards.map (·.address)).Nodup := by
  have hn := h.nodup
  have hfresh : ∀ x ∈ ps ++ q :: qs, x.address ≠ w.nextId := fun x hx =>
    Nat.ne_of_lt (h.fresh x hx)
  rw [f.pointers]
  have hperm : (((ps ++ [pointerTo w.nextId r]) ++ pointerTo g.address s' :: qs).map
      (·.address)).Perm (w.nextId :: (ps ++ q :: qs).map (·.address)) := by
    simp only [List.map_append, List.map_cons, pointerTo, ← h.head_address,
      List.append_assoc, List.singleton_append]
    exact List.perm_middle
  rw [hperm.nodup_iff, List.nodup_cons]
  refine ⟨?_, hn⟩
  intro hmem
  obtain ⟨x, hx, he⟩ := List.mem_map.mp hmem
  exact hfresh x hx he

theorem SourceFilled.lookup (f : SourceFilled w w2 ps qs g.address l e s r s')
    (h : Progress orig w ps (q :: qs) (g :: rest)) {x : RetrieveQueueShardPointer}
    (hx : x ∈ ps ++ qs) :
    w2.stored.parts x.address = w.stored.parts x.address ∧ x.address ≠ g.address := by
  have ha : x.address ≠ g.address := h.head_address ▸ h.head_fresh x hx
  have hmem : x ∈ ps ++ q :: qs := by
    rcases List.mem_append.mp hx with hx | hx <;> simp [hx]
  have hn : x.address ≠ w.nextId := Nat.ne_of_lt (h.fresh x hmem)
  rw [f.stored, Function.update_of_ne ha, Function.update_of_ne hn]
  exact ⟨rfl, ha⟩

theorem SourceFilled.lookup_new (f : SourceFilled w w2 ps qs g.address l e s r s')
    (h : Progress orig w ps (q :: qs) (g :: rest)) :
    w2.stored.parts w.nextId = some r ∧ w2.stored.parts g.address = some (trimmed l s) ∧
      w.nextId ≠ g.address := by
  have hlt : g.address < w.nextId := h.head_address ▸ h.fresh q (by simp)
  have hne : w.nextId ≠ g.address := Nat.ne_of_gt hlt
  rw [f.stored]
  simp [hne]

theorem SourceFilled.store (f : SourceFilled w w2 ps qs g.address l e s r s')
    (h : Progress orig w ps (q :: qs) (g :: rest)) (hr : Sound r) (hs' : Sound s')
    (hlen : (moved l s).length = (gone s (movedAddresses l s)).length) :
    (do commit; putPart g.address s' : Op Unit) w2 =
        .ok () (afterStore w2 w2.memory g.address s') ∧
      Progress orig (afterStore w2 w2.memory g.address s')
        (ps ++ [pointerTo w.nextId r, pointerTo g.address s']) qs rest := by
  have hcons : Consistent w2.memory := by
    refine ⟨f.size, f.count, ?_⟩
    have hl := f.lost
    rw [show w2.memory.retrieveJobsCount = w.memory.retrieveJobsCount + l.jobsToAdd.length +
      e.jobsToAdd.length by omega]
    exact f.tallied
  have hnd := f.nodup h
  obtain ⟨hnew, -, hne⟩ := f.lookup_new h
  rw [f.pointers] at hnd
  refine ⟨commit_store hcons.check, ⟨?_, ?_, ?_, ?_, ?_, ?_, ?_⟩⟩
  · simpa using f.pointers
  · exact (List.cons.inj h.addresses).2
  · simpa using hnd
  · intro x hx
    rw [afterStore_nextId, f.nextId]
    have hx' : x ∈ ps ∨ x = pointerTo w.nextId r ∨ x = pointerTo g.address s' ∨ x ∈ qs := by
      simpa using hx
    rcases hx' with hx' | rfl | rfl | hx'
    · exact Nat.lt_succ_of_lt (h.fresh x (by simp [hx']))
    · exact Nat.lt_succ_self _
    · exact Nat.lt_succ_of_lt (h.head_address ▸ h.fresh q (by simp))
    · exact Nat.lt_succ_of_lt (h.fresh x (by simp [hx']))
  · intro x hx
    have hx' : x ∈ ps ∨ x = pointerTo w.nextId r ∨ x = pointerTo g.address s' := by simpa using hx
    rcases hx' with hx' | rfl | rfl
    · obtain ⟨h1, h2⟩ := f.lookup h (x := x) (by simp [hx'])
      obtain ⟨t, ht, hts⟩ := h.done x hx'
      exact ⟨t, by simpa [Function.update_of_ne h2, h1] using ht, hts⟩
    · exact ⟨r, by simpa [pointerTo, Function.update_of_ne hne] using hnew, hr⟩
    · exact ⟨s', by simp [pointerTo], hs'⟩
  · intro x hx
    obtain ⟨h1, h2⟩ := f.lookup h (x := x) (by simp [hx])
    obtain ⟨t, ht1, ht2, ht3⟩ := h.todo x (by simp [hx])
    exact ⟨t, ht1, by simpa [Function.update_of_ne h2, h1] using ht2, ht3⟩
  · exact hcons

theorem SourceFilled.check_fails (f : SourceFilled w w2 ps qs g.address l e s r s')
    (hlen : (moved l s).length ≠ (gone s (movedAddresses l s)).length) :
    checkMapsAndShardsCoherency w2.memory = .ok false := by
  have hl := f.lost
  have hne : w.memory.retrieveJobsCount + l.jobsToAdd.length + e.jobsToAdd.length ≠
      w2.memory.retrieveJobsCount := by omega
  simp [checkMapsAndShardsCoherency, ← f.size, ← f.count, f.tallied.priority, hne, bind,
    Except.bind, pure, Except.pure]

theorem SourceFilled.all_sound (f : SourceFilled w w2 ps qs g.address l e s r s')
    (h : Progress orig w ps (q :: qs) (g :: rest)) (hr : Sound r) (ht : Sound (trimmed l s)) :
    ∀ x ∈ w2.memory.retrieveQueueShards, ∃ t, w2.stored.parts x.address = some t ∧ Sound t := by
  obtain ⟨hnew, hold, -⟩ := f.lookup_new h
  rw [f.pointers]
  intro x hx
  have hx' : x ∈ ps ∨ x = pointerTo w.nextId r ∨ x = pointerTo g.address s' ∨ x ∈ qs := by
    simpa using hx
  rcases hx' with hx' | rfl | rfl | hx'
  · obtain ⟨t, h1, h2⟩ := h.done x hx'
    exact ⟨t, by rw [(f.lookup h (by simp [hx'])).1, h1], h2⟩
  · exact ⟨r, hnew, hr⟩
  · exact ⟨trimmed l s, hold, ht⟩
  · obtain ⟨t, -, h1, h2, -⟩ := h.todo x (by simp [hx'])
    exact ⟨t, by rw [(f.lookup h (by simp [hx'])).1, h1], h2⟩

/-- Jobs are lost in the cut: the check fails and the summaries are rebuilt from the
stored shards, before the planned jobs of the cut shard are stored. -/
theorem SourceFilled.store_rebuilt (f : SourceFilled w w2 ps qs g.address l e s r s')
    (h : Progress orig w ps (q :: qs) (g :: rest)) (hr : Sound r) (hs' : Sound s')
    (ht : Sound (trimmed l s))
    (hlen : (moved l s).length ≠ (gone s (movedAddresses l s)).length) :
    ∃ w3 ps' qs', (do commit; putPart g.address s' : Op Unit) w2 = .ok () w3 ∧
      Progress orig w3 ps' qs' rest ∧ ps'.length = ps.length + 2 ∧
      ∃ events, w3.log = w2.log ++ events ∧ ∀ x ∈ events, Access.Safe x := by
  have hall := f.all_sound h hr ht
  have hnd := f.nodup h
  obtain ⟨p', hreb, hexact, hact, -⟩ := rebuild_spec hnd (by
    intro x hx t hxt
    obtain ⟨t', ht', hs⟩ := hall x hx
    rwa [Option.some.inj (hxt.symm.trans ht')])
  have hcommit := commit_rebuilds (f.check_fails hlen) hreb
  have hsplit : w2.memory.retrieveQueueShards =
      (ps ++ [pointerTo w.nextId r, pointerTo g.address s']) ++ qs := by
    rw [f.pointers]; simp
  have hpres : ∀ x ∈ (ps ++ [pointerTo w.nextId r, pointerTo g.address s']) ++ qs,
      ∃ t, w2.stored.parts x.address = some t := by
    intro x hx
    obtain ⟨t, ht, -⟩ := hall x (hsplit ▸ hx)
    exact ⟨t, ht⟩
  have hfound := found_append w2.stored.parts
    (ps ++ [pointerTo w.nextId r, pointerTo g.address s']) qs
  have haddr1 := addresses_found
    fun x hx => hpres x (List.mem_append_left _ hx)
  have haddr2 := addresses_found
    fun x hx => hpres x (List.mem_append_right _ hx)
  have hcoh : ∀ x ∈ found w2.stored.parts w2.memory.retrieveQueueShards, Coherent x.2 := by
    intro x hx
    obtain ⟨y, hy, hxy⟩ := List.mem_filterMap.mp hx
    obtain ⟨t, ht, rfl⟩ := Option.map_eq_some_iff.mp hxy
    obtain ⟨t', ht', hs⟩ := hall y hy
    rw [Option.some.inj (ht.symm.trans ht')]
    exact hs.coherent
  obtain ⟨hsum1, hsum2⟩ := sum_pointersTo hcoh
  refine ⟨_, pointersTo (found w2.stored.parts
      (ps ++ [pointerTo w.nextId r, pointerTo g.address s'])),
    pointersTo (found w2.stored.parts qs), by rw [bind_apply, hcommit]; rfl,
    ⟨?_, ?_, ?_, ?_, ?_, ?_, ?_⟩, ?_, summaries (found w2.stored.parts
      w2.memory.retrieveQueueShards), rfl, ?_⟩
  · change p'.retrieveQueueShards = _
    rw [hexact.pointers, hsplit, hfound]
    simp [pointersTo]
  · rw [haddr2]
    exact (List.cons.inj h.addresses).2
  · rw [List.map_append, haddr1, haddr2, ← List.map_append, ← hsplit]
    exact hnd
  · intro x hx
    change x.address < w2.nextId
    rw [f.nextId]
    have hmem : x.address ∈
        ((ps ++ [pointerTo w.nextId r, pointerTo g.address s']) ++ qs).map (·.address) := by
      rw [List.map_append, ← haddr1, ← haddr2, ← List.map_append]
      exact List.mem_map_of_mem hx
    have hmem' : (∃ y ∈ ps, y.address = x.address) ∨ x.address = w.nextId ∨
        x.address = g.address ∨ ∃ y ∈ qs, y.address = x.address := by
      simpa [pointerTo, or_assoc] using hmem
    rcases hmem' with ⟨y, hy, hyx⟩ | hx' | hx' | ⟨y, hy, hyx⟩
    · exact Nat.lt_succ_of_lt (hyx ▸ h.fresh y (by simp [hy]))
    · exact hx' ▸ Nat.lt_succ_self _
    · exact Nat.lt_succ_of_lt (hx' ▸ h.head_address ▸ h.fresh q (by simp))
    · exact Nat.lt_succ_of_lt (hyx ▸ h.fresh y (by simp [hy]))
  · intro x hx
    obtain ⟨y, hy, t, ht', rfl⟩ := mem_pointersTo_found hx
    by_cases hya : y.address = g.address
    · exact ⟨s', by simp [World.write, pointerTo, hya], hs'⟩
    · obtain ⟨t', ht'', hts⟩ := hall y (hsplit ▸ List.mem_append_left _ hy)
      refine ⟨t', ?_, hts⟩
      simpa [World.write, pointerTo, Function.update_of_ne hya] using ht''
  · intro x hx
    obtain ⟨y, hy, t, ht', rfl⟩ := mem_pointersTo_found hx
    obtain ⟨h1, h2⟩ := f.lookup h (x := y) (by simp [hy])
    obtain ⟨t', ho, hp, hts, -⟩ := h.todo y (by simp [hy])
    obtain rfl : t = t' := Option.some.inj (ht'.symm.trans (h1.trans hp))
    refine ⟨t, ho, ?_, hts, rfl, rfl⟩
    simpa [World.write, pointerTo, Function.update_of_ne h2] using ht'
  · change Consistent p'
    obtain ⟨c1, c2, c3⟩ := hexact.counted.card
    refine ⟨by rw [hexact.size, hexact.pointers, hsum1],
      by rw [hexact.count, hexact.pointers, hsum2],
      ?_⟩
    rw [hexact.count]
    exact ⟨by simpa using c1, by simpa using c2, by simpa using c3, hact ▸ f.tallied.activity⟩
  · have hlen' := congrArg List.length haddr1
    simpa using hlen'
  · intro x hx
    obtain ⟨y, hy, rfl⟩ := List.mem_map.mp hx
    obtain ⟨z, hz, hyz⟩ := List.mem_filterMap.mp hy
    obtain ⟨t, ht, rfl⟩ := Option.map_eq_some_iff.mp hyz
    obtain ⟨t', ht', hs⟩ := hall z hz
    rw [Option.some.inj (ht.symm.trans ht')]
    exact List.length_pos_iff.mpr hs.nonempty

end

end

theorem executePlan_cons {plan tl : List ShardForAddition} {e : ShardForAddition} {w w' : Queue}
    (h : addToShard plan e w = .ok () w') :
    executePlan plan (e :: tl) w = executePlan plan tl w' := by
  simp [executePlan, h]

theorem Consistent.first_shard {w : Queue} (hcons : Consistent w.memory)
    (hnil : w.memory.retrieveQueueShards = []) {e : ShardForAddition} (hnew : e.newShard = true)
    (hf : e.fromSplit = false) (hi : e.shardIndex = 0) (hne : e.jobsToAdd ≠ [])
    (hj : ∀ j ∈ e.jobsToAdd, j.fSeq < 2^64) (plan : List ShardForAddition) :
    ∃ s p w', Sound s ∧ s.retrieveJobs.Perm (e.jobsToAdd.map JobToAdd.toPointer) ∧
      addToShard plan e w = .ok () w' ∧
      w'.memory = p ∧ w'.stored = ⟨p, Function.update w.stored.parts w.nextId (some s)⟩ ∧
      w'.nextId = w.nextId + 1 ∧
      w'.log = w.log ++ [.pointer w.nextId (some w.nextId), .summary s.retrieveJobs.length] ∧
      p.retrieveQueueShards = [pointerTo w.nextId s] ∧ Consistent p ∧
      p.maxShardSize = w.memory.maxShardSize ∧ Accounted w.memory p e.jobsToAdd := by
  obtain ⟨s, hadd, hc, hp⟩ := addJobsBatch_planned RetrieveQueueShard.coherent_initialized e.jobsToAdd
  have hsound : Sound s := sound_of_perm (s := RetrieveQueueShard.initialized) hc hp
    (fun x hx => hx) (by simp [RetrieveQueueShard.initialized]) hj (.inl hne)
  obtain ⟨p, hacc, htal, hbody⟩ := accountJobs_tallied
    (p := { w.memory with retrieveQueueShards := [⟨w.nextId, 0, 0, 0, 0⟩] })
    ⟨hcons.tallied.priority, hcons.tallied.age, hcons.tallied.policy, hcons.tallied.activity⟩
    e.jobsToAdd
  have hrun := addToShard_first plan hnew hf hi hnil hacc hadd hsound
  have hsize := hcons.size
  have hcount := hcons.count
  rw [hnil] at hsize hcount
  have hlen := hp.length_eq
  have hcons' : Consistent (recorded p 0 (openUpdate w.nextId e.jobsToAdd s)) := by
    have hcnt : p.retrieveJobsCount = 0 := hbody.count.trans hcount
    have hsz : p.retrieveJobsTotalSize = 0 := hbody.size.trans hsize
    refine ⟨?_, ?_, ?_⟩
    · simp [recorded, openUpdate, ShardUpdate.filled, hbody.shards, hsz, pointerTo, hc.total,
        bytesOf_perm hp, bytesOf_planned, RetrieveQueueShard.initialized]
    · simp [recorded, openUpdate, ShardUpdate.filled, hbody.shards, hcnt, pointerTo, sub64, hlen,
        RetrieveQueueShard.initialized]
    · have hn : (recorded p 0 (openUpdate w.nextId e.jobsToAdd s)).retrieveJobsCount =
          w.memory.retrieveJobsCount + e.jobsToAdd.length := by
        simp [recorded, openUpdate, ShardUpdate.filled, sub64, hbody.count]
      rw [hn]
      exact ⟨htal.priority, htal.age, htal.policy, htal.activity⟩
  refine ⟨s, _, _, hsound, by simpa [RetrieveQueueShard.initialized] using hp,
    hrun.trans (commit_store hcons'.check), rfl, rfl, rfl, rfl, ?_, hcons', hbody.maxShardSize, ?_⟩
  · simp [recorded, openUpdate, ShardUpdate.filled, hbody.shards]
  · exact accounted_of_foldlM hacc ⟨rfl, rfl, rfl, rfl, rfl, rfl⟩ ⟨rfl, rfl, rfl, rfl, rfl, rfl⟩

theorem addJobsAndCommit_apply {w : Queue} {jobsToAdd : List JobToAdd}
    {plan : List ShardForAddition} (hne : jobsToAdd ≠ [])
    (hp : planJobs w.memory jobsToAdd = some plan) :
    addJobsAndCommit jobsToAdd w = executePlan (numberFrom 0 plan) (numberFrom 0 plan) w := by
  simp [addJobsAndCommit, hne, hp, numberShards_eq]

theorem planJobs_empty {p : RetrieveQueue} (h : p.retrieveQueueShards = []) (j : JobToAdd)
    (js : List JobToAdd) :
    ∃ e, planJobs p (j :: js) = some [e] ∧ e.jobsToAdd = j :: js ∧ e.newShard = true ∧
      e.fromSplit = false ∧ e.splitSource = none ∧ splits p (j :: js) = [] := by
  obtain ⟨e, h1, h2, h3, h4, h5, h6⟩ := plan_empty p.maxShardSize j js
  have hinit : initialPlan p = [] := by simp [initialPlan, h, orderLimits]
  exact ⟨e, by rw [planJobs, hinit, h1], h2, h3, h4, h5, by rw [splits, hinit, h6]⟩

end Cta.ObjectStore.RetrieveQueue
