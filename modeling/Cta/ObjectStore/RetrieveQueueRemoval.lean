import Cta.ObjectStore.RetrieveQueueAddition
import Mathlib.Algebra.BigOperators.Group.Multiset.Basic

/-! Bookkeeping of a removal: shard after shard is trimmed or dropped, and the queue
object follows. -/
namespace Cta.ObjectStore.RetrieveQueue
open StoreError ValueCountMap Cta.Lib.Sequence Cta.Lib.PartedStore
open ShardRemoval (stillToRemove filter_removedJobs InOneShard Removing Round)
open RetrieveQueueShard (Coherent bytesOf bytesOf_append bytesOf_perm kept gone Removed jobFields)

theorem forgetJob_booked {p : RetrieveQueue} {j : RetrieveJobPointer}
    {M : Multiset RetrieveJobPointer} (h : Booked p (j ::ₘ M)) :
    ∃ p', forgetJob p j.toInfo = .ok p' ∧ Booked p' M ∧ SameBody p p' ∧ SameTimes p p' := by
  obtain ⟨m1, e1, c1⟩ := decCount_cons (by simpa using h.counted.priority)
  obtain ⟨m2, e2, c2⟩ := decCount_cons (by simpa using h.counted.age)
  obtain ⟨m3, e3, c3⟩ := decCount_cons (by simpa using h.counted.policy)
  have ha := h.activity
  cases hj : j.activity with
  | none =>
    rw [Multiset.filterMap_cons_none _ _ hj] at ha
    refine ⟨{ p with priorityMap := m1, minRetrieveRequestAgeMap := m2, mountPolicyNameMap := m3 },
      ?_, ⟨⟨c1, c2, c3⟩, ha⟩, ⟨rfl, rfl, rfl, rfl⟩, rfl, rfl⟩
    simp [forgetJob, RetrieveJobPointer.toInfo, e1, e2, e3, hj, bind, Except.bind, pure,
      Except.pure]
  | some activity =>
    rw [Multiset.filterMap_cons_some _ _ _ hj] at ha
    obtain ⟨m4, e4, c4⟩ := decCount_cons ha
    refine ⟨{ p with
      priorityMap := m1
      minRetrieveRequestAgeMap := m2
      mountPolicyNameMap := m3
      activityMap := m4 }, ?_, ⟨⟨c1, c2, c3⟩, c4⟩, ⟨rfl, rfl, rfl, rfl⟩, rfl, rfl⟩
    simp [forgetJob, RetrieveJobPointer.toInfo, e1, e2, e3, e4, hj, bind, Except.bind, pure,
      Except.pure]

theorem forgetJobs_booked (out : List RetrieveJobPointer) {p : RetrieveQueue}
    {M : Multiset RetrieveJobPointer} (h : Booked p (out + M)) :
    ∃ p', (out.map RetrieveJobPointer.toInfo).foldlM forgetJob p = .ok p' ∧ Booked p' M ∧
      SameBody p p' ∧ SameTimes p p' := by
  induction out generalizing p with
  | nil => exact ⟨p, rfl, by simpa using h, SameBody.refl p, rfl, rfl⟩
  | cons j out ih =>
    rw [← Multiset.cons_coe, Multiset.cons_add] at h
    obtain ⟨p1, e1, b1, s1, t1⟩ := forgetJob_booked h
    obtain ⟨p2, e2, b2, s2, t2⟩ := ih b1
    refine ⟨p2, ?_, b2, s1.trans s2, t1.trans t2⟩
    rw [List.map_cons, List.foldlM_cons, e1]
    exact e2

theorem found_congr {parts parts' : ShardAddress → Option RetrieveQueueShard}
    {qs : List RetrieveQueueShardPointer} (h : ∀ q ∈ qs, parts q.address = parts' q.address) :
    found parts qs = found parts' qs :=
  List.filterMap_congr fun q hq => by rw [h q hq]

section
variable {p p' : RetrieveQueue} {parts : ShardAddress → Option RetrieveQueueShard} {next : Nat}
  {M M' : Multiset RetrieveJobPointer} {ps qs mid : List RetrieveQueueShardPointer}
  {q : RetrieveQueueShardPointer} {x : Option RetrieveQueueShard} {left : List RetrieveJobPointer}

def Replaces (q : RetrieveQueueShardPointer) (mid : List RetrieveQueueShardPointer)
    (x : Option RetrieveQueueShard) (left : List RetrieveJobPointer) : Prop :=
  mid = [] ∧ x = none ∧ left = [] ∨
    ∃ q' s', mid = [q'] ∧ x = some s' ∧ left = s'.retrieveJobs ∧ Sound s' ∧ Describes q' s' ∧
      q'.address = q.address ∧ q'.minFseq = q.minFseq ∧ q'.maxFseq = q.maxFseq

theorem Replaces.mem (h : Replaces q mid x left) : ∀ y ∈ mid, y.address = q.address ∧
    y.minFseq = q.minFseq ∧ y.maxFseq = q.maxFseq ∧ ∃ s', x = some s' ∧ Sound s' ∧
    Describes y s' := by
  rcases h with ⟨rfl, -, -⟩ | ⟨q', s', rfl, rfl, -, hs, hd, ha, hmin, hmax⟩
  · simp
  · intro y hy
    obtain rfl : y = q' := List.mem_singleton.mp hy
    exact ⟨ha, hmin, hmax, s', rfl, hs, hd⟩

theorem Replaces.addresses_sublist (h : Replaces q mid x left) :
    (mid.map (·.address)).Sublist [q.address] := by
  rcases h with ⟨rfl, -, -⟩ | ⟨q', s', rfl, -, -, -, -, ha, -, -⟩
  · simp
  · simp [ha]

theorem Sane.replace (h : Sane p parts next M) (hps : p.retrieveQueueShards = ps ++ q :: qs)
    (hmid : Replaces q mid x left) (hps' : p'.retrieveQueueShards = ps ++ (mid ++ qs))
    (hM' : ((jobsIn (found parts ps) ++ (left ++ jobsIn (found parts qs)) : List _) :
      Multiset RetrieveJobPointer) = M')
    (hcount : p'.retrieveJobsCount = M'.card)
    (hsize : p'.retrieveJobsTotalSize = (M'.map (·.size)).sum) (hbooked : Booked p' M') :
    Sane p' (Function.update parts q.address x) next M' := by
  have hn := h.nodup
  have hord := h.ordered
  rw [hps] at hn hord
  have hother : ∀ y ∈ ps ++ qs, y.address ≠ q.address := by
    rw [List.map_append, List.map_cons, List.nodup_middle, List.nodup_cons] at hn
    intro y hy he
    exact hn.1 (by rw [← List.map_append]; exact he ▸ List.mem_map_of_mem hy)
  have hold : ∀ y ∈ ps ++ qs, y ∈ p.retrieveQueueShards := by
    intro y hy
    rw [hps]
    rcases List.mem_append.mp hy with hy | hy <;> simp [hy]
  have hcases : ∀ y ∈ p'.retrieveQueueShards, y ∈ ps ++ qs ∨ y ∈ mid := by
    rw [hps']
    intro y hy
    simp only [List.mem_append] at hy ⊢
    tauto
  have hsub : (p'.retrieveQueueShards.map (·.address)).Sublist
      ((ps ++ q :: qs).map (·.address)) := by
    rw [hps']
    simp only [List.map_append, List.map_cons]
    refine List.Sublist.append_left ?_ _
    simpa using hmid.addresses_sublist.append_right (qs.map (·.address))
  refine ⟨hsub.nodup hn, ?_, ?_, ?_, ?_, ?_, hcount, hsize, hbooked⟩
  · intro y hy
    rcases hcases y hy with hy | hy
    · exact h.fresh y (hold y hy)
    · rw [(hmid.mem y hy).1]
      exact h.fresh q (by simp [hps])
  · intro a s ha
    rw [hps', List.map_append, List.map_append]
    by_cases haq : a = q.address
    · subst haq
      rw [Function.update_self] at ha
      rcases hmid with ⟨-, hx, -⟩ | ⟨q', s', rfl, -, -, -, -, haddr, -, -⟩
      · simp [hx] at ha
      · simp [haddr]
    · rw [Function.update_of_ne haq] at ha
      have := h.only a s ha
      rw [hps] at this
      simp only [List.map_append, List.map_cons, List.mem_append, List.mem_cons] at this ⊢
      tauto
  · intro y hy
    rcases hcases y hy with hy | hy
    · obtain ⟨s, hs, hrest⟩ := h.described y (hold y hy)
      exact ⟨s, by rwa [Function.update_of_ne (hother y hy)], hrest⟩
    · obtain ⟨ha, -, -, s', hx, hs, hd⟩ := hmid.mem y hy
      exact ⟨s', by rw [ha, Function.update_self, hx], hs, hd⟩
  · rw [hps']
    obtain ⟨h1, h2, h3⟩ := List.pairwise_append.mp hord
    obtain ⟨h4, h5⟩ := List.pairwise_cons.mp h2
    refine List.pairwise_append.mpr ⟨h1, List.pairwise_append.mpr ⟨?_, h5, ?_⟩, ?_⟩
    · rcases hmid with ⟨rfl, -, -⟩ | ⟨q', s', rfl, -⟩ <;> simp
    · intro y hy z hz
      obtain ⟨-, -, hmax, -⟩ := hmid.mem y hy
      rw [hmax]
      exact h4 z hz
    · intro y hy z hz
      rcases List.mem_append.mp hz with hz | hz
      · obtain ⟨-, hmin, -⟩ := hmid.mem z hz
        rw [hmin]
        exact h3 y hy q List.mem_cons_self
      · exact h3 y hy z (List.mem_cons_of_mem q hz)
  · rw [hps', found_append, found_append, ← hM']
    have e1 : found (Function.update parts q.address x) ps = found parts ps :=
      found_congr fun y hy => Function.update_of_ne (hother y (by simp [hy])) _ _
    have e2 : found (Function.update parts q.address x) qs = found parts qs :=
      found_congr fun y hy => Function.update_of_ne (hother y (by simp [hy])) _ _
    rw [e1, e2]
    rcases hmid with ⟨rfl, -, rfl⟩ | ⟨q', s', rfl, rfl, rfl, -, -, ha, -, -⟩
    · simp [found, jobsIn]
    · simp [found, jobsIn, ha]

end

theorem Sane.rebuildAndCommit {w : Queue} {M : Multiset RetrieveJobPointer} {α : Type}
    (h : Sane w.memory w.stored.parts w.nextId M) (b : Bool) (r : α) :
    ∃ w', (do if b then RetrieveQueue.rebuild
              RetrieveQueue.commit
              return r : Op α) w = .ok r w' ∧ w'.stored.root = w'.memory ∧
      w'.stored.parts = w.stored.parts ∧ w'.nextId = w.nextId ∧
      Sane w'.memory w.stored.parts w.nextId M ∧
      w'.memory.retrieveQueueShards.map (·.address) =
        w.memory.retrieveQueueShards.map (·.address) ∧
      if b then ∃ js : List RetrieveJobPointer, js = M ∧ TimesRebuilt w'.memory js
      else SameTimes w.memory w'.memory := by
  cases b with
  | false =>
    refine ⟨w.write { w.stored with root := w.memory }, ?_, rfl, rfl, rfl, h, rfl, rfl, rfl⟩
    simp [h.commit]
  | true =>
    obtain ⟨w1, hr, hst, hid, hs, htimes⟩ := h.rebuild
    have hs' : Sane w1.memory w1.stored.parts w1.nextId M := by rw [hst, hid]; exact hs
    refine ⟨w1.write { w1.stored with root := w1.memory }, ?_, rfl,
      show w1.stored.parts = _ by rw [hst], hid, hs, ?_, htimes⟩
    · simp [hr, hs'.commit]
    · obtain ⟨p', hr', hexact, -⟩ := rebuild_spec h.nodup h.sound
      have hw : w1.memory = p' := by
        injection hr.symm.trans hr' with _ hw
        rw [hw]
      change w1.memory.retrieveQueueShards.map _ = _
      rw [hw, hexact.pointers]
      refine addresses_found fun q hq => ?_
      obtain ⟨s, hs, -⟩ := h.described q hq
      exact ⟨s, hs⟩

def shardJobs (parts : ShardAddress → Option RetrieveQueueShard) (a : ShardAddress) :
    Option (List RetrieveJobPointer) :=
  (parts a).map (·.retrieveJobs)

theorem shardJobs_some {parts : ShardAddress → Option RetrieveQueueShard} {a : ShardAddress}
    {s : RetrieveQueueShard} (h : parts a = some s) : shardJobs parts a = some s.retrieveJobs := by
  rw [shardJobs, h, Option.map_some]

/-- The times once some jobs are out: recomputed, or those there were if none of the jobs is at one
of the extremes. -/
def TimesAfter (p p' : RetrieveQueue) (out : List RetrieveJobPointer)
    (M : Multiset RetrieveJobPointer) : Prop :=
  (∃ js : List RetrieveJobPointer, js = M ∧ TimesRebuilt p' js) ∨
    SameTimes p p' ∧ ∀ j ∈ out, p.oldestJobCreationTime.toInt64 < j.startTime.toInt64 ∧
      j.startTime.toInt64 < p.youngestJobCreationTime.toInt64

theorem timesAfter_of_need {p p1 p' : RetrieveQueue} {out out' : List RetrieveJobPointer}
    {M : Multiset RetrieveJobPointer} {need : Bool}
    (hneed : ((out.map RetrieveJobPointer.toInfo).any fun j =>
      decide (j.startTime ≤ p.oldestJobCreationTime.toInt64) ||
        decide (p.youngestJobCreationTime.toInt64 ≤ j.startTime)) = need)
    (hperm : out.Perm out') (hsame : SameTimes p p1)
    (h : if need then ∃ js : List RetrieveJobPointer, js = M ∧ TimesRebuilt p' js
      else SameTimes p1 p') : TimesAfter p p' out' M := by
  cases need with
  | true => exact .inl h
  | false =>
    refine .inr ⟨hsame.trans h, fun j hj => ?_⟩
    have hnot := List.any_eq_false.mp hneed _ (List.mem_map_of_mem (hperm.mem_iff.mpr hj))
    rw [Bool.not_eq_true, Bool.or_eq_false_iff] at hnot
    exact ⟨Int64.not_le.mp (of_decide_eq_false hnot.1), Int64.not_le.mp (of_decide_eq_false hnot.2)⟩

section
variable {w w' : Queue} {M M' : Multiset RetrieveJobPointer} {ps qs : List RetrieveQueueShardPointer}
  {q : RetrieveQueueShardPointer} {s : RetrieveQueueShard} {las : List Address}
  {out : List RetrieveJobPointer} {p : RetrieveQueue} {need : Bool}

/-- The queue object `p` has the jobs taken off one shard out of its maps, not of its totals. -/
structure Forgotten (w : Queue) (ps qs : List RetrieveQueueShardPointer)
    (q : RetrieveQueueShardPointer) (s : RetrieveQueueShard) (las : List Address)
    (out : List RetrieveJobPointer) (p : RetrieveQueue) (M M' : Multiset RetrieveJobPointer) :
    Prop where
  shards : w.memory.retrieveQueueShards = ps ++ q :: qs
  part : w.stored.parts q.address = some s
  removedJobs : (s.removeJobs las).2.removedJobs = out.map RetrieveJobPointer.toInfo
  perm : out.Perm (gone s las)
  forgets : (out.map RetrieveJobPointer.toInfo).foldlM forgetJob w.memory = .ok p
  booked : Booked p M'
  body : SameBody w.memory p
  times : SameTimes w.memory p
  remaining : ((jobsIn (found w.stored.parts ps) ++
    (kept s las ++ jobsIn (found w.stored.parts qs)) : List RetrieveJobPointer) : Multiset _) = M'
  apart : M = M' + (gone s las : Multiset RetrieveJobPointer)

theorem Sane.forgotten (h : Sane w.memory w.stored.parts w.nextId M)
    (hps : w.memory.retrieveQueueShards = ps ++ q :: qs) (hs : w.stored.parts q.address = some s)
    (las : List Address) : ∃ out p M', Forgotten w ps qs q s las out p M M' := by
  obtain ⟨out, hout, hperm⟩ := (RetrieveQueueShard.removeJobs_removed s las).removedJobs
  obtain ⟨M', hM'⟩ : ∃ M' : Multiset RetrieveJobPointer, ((jobsIn (found w.stored.parts ps) ++
      (kept s las ++ jobsIn (found w.stored.parts qs)) : List RetrieveJobPointer) :
        Multiset RetrieveJobPointer) = M' := ⟨_, rfl⟩
  have hMg : M = M' + (gone s las : Multiset RetrieveJobPointer) := by
    have hgk := Multiset.coe_eq_coe.mpr (RetrieveQueueShard.kept_gone_perm s las)
    rw [← h.content, ← hM', hps, found_append, found_cons hs]
    simp only [jobsIn, List.flatMap_append, List.flatMap_cons, ← Multiset.coe_add, ← hgk]
    abel
  have hM : M = out + M' := by
    rw [hMg, add_comm, Multiset.coe_eq_coe.mpr hperm]
  obtain ⟨p, hforget, hbook, hbody, hkept⟩ := forgetJobs_booked out (hM ▸ h.booked)
  exact ⟨out, p, M', hps, hs, hout, hperm, hforget, hbook, hbody, hkept, hM', hMg⟩

/-- The queue object once the totals and the pointers follow. -/
def withTotals (p : RetrieveQueue) (out : List RetrieveJobPointer)
    (pointers : List RetrieveQueueShardPointer) : RetrieveQueue :=
  { p with
    retrieveJobsCount := sub64 p.retrieveJobsCount out.length
    retrieveJobsTotalSize := p.retrieveJobsTotalSize - bytesOf out
    retrieveQueueShards := pointers }

theorem Forgotten.count (hf : Forgotten w ps qs q s las out p M M')
    (h : Sane w.memory w.stored.parts w.nextId M) :
    sub64 p.retrieveJobsCount (gone s las).length = M'.card := by
  have hcard : M'.card + (gone s las).length = w.memory.retrieveJobsCount := by
    rw [h.count, hf.apart]
    simp
  rw [hf.body.count, ← hcard, sub64_of_le (by omega)]
  omega

theorem Forgotten.size (hf : Forgotten w ps qs q s las out p M M')
    (h : Sane w.memory w.stored.parts w.nextId M) :
    p.retrieveJobsTotalSize - bytesOf (gone s las) = (M'.map (·.size)).sum := by
  rw [hf.body.size, h.size, hf.apart, Multiset.map_add, Multiset.sum_add,
    sum_coe_size (gone s las)]
  abel

theorem Forgotten.sane (hf : Forgotten w ps qs q s las out p M M')
    (h : Sane w.memory w.stored.parts w.nextId M) {mid : List RetrieveQueueShardPointer}
    {x : Option RetrieveQueueShard} (hmid : Replaces q mid x (kept s las)) :
    Sane (withTotals p (gone s las) (ps ++ (mid ++ qs)))
      (Function.update w.stored.parts q.address x) w.nextId M' :=
  h.replace hf.shards hmid rfl hf.remaining (hf.count h) (hf.size h)
    ⟨⟨hf.booked.counted.priority, hf.booked.counted.age, hf.booked.counted.policy⟩,
      hf.booked.activity⟩

/-- A job that is taken off is at one of the extremes of the times. -/
def NeedsRebuild (w : Queue) (s : RetrieveQueueShard) (las : List Address) (need : Bool) : Prop :=
  ((s.removeJobs las).2.removedJobs.any fun j =>
    decide (j.startTime ≤ w.memory.oldestJobCreationTime.toInt64) ||
      decide (w.memory.youngestJobCreationTime.toInt64 ≤ j.startTime)) = need

theorem Forgotten.timesAfter (hf : Forgotten w ps qs q s las out p M M')
    (hneed : NeedsRebuild w s las need) {p' : RetrieveQueue}
    (h : if need then ∃ js : List RetrieveJobPointer, js = M' ∧ TimesRebuilt p' js
      else SameTimes p p') : TimesAfter w.memory p' (gone s las) M' := by
  unfold NeedsRebuild at hneed
  rw [hf.removedJobs] at hneed
  exact timesAfter_of_need hneed hf.perm hf.times h

theorem Forgotten.still (hf : Forgotten w ps qs q s las out p M M') :
    las.filter (fun a => !((s.removeJobs las).2.removedJobs.any fun j => decide (j.address = a))) =
      stillToRemove jobFields las s.retrieveJobs := by
  rw [hf.removedJobs]
  exact filter_removedJobs (f := jobFields) (·.address) (fun _ => rfl) hf.perm

/-- How a round leaves the queue: `x` is what is stored at the address. -/
structure RoundEnd (w w' : Queue) (a : ShardAddress) (x : Option RetrieveQueueShard)
    (pointers : List RetrieveQueueShardPointer) (out : List RetrieveJobPointer)
    (M' : Multiset RetrieveJobPointer) : Prop where
  committed : w'.stored.root = w'.memory
  sane : Sane w'.memory w'.stored.parts w'.nextId M'
  addresses : w'.memory.retrieveQueueShards.map (·.address) = pointers.map (·.address)
  others : ∀ b, b ≠ a → w'.stored.parts b = w.stored.parts b
  part : w'.stored.parts a = x
  times : TimesAfter w.memory w'.memory out M'

theorem Forgotten.roundEnd (hf : Forgotten w ps qs q s las out p M M')
    (hneed : NeedsRebuild w s las need) {pointers : List RetrieveQueueShardPointer}
    {x : Option RetrieveQueueShard}
    (hsane : Sane (withTotals p (gone s las) pointers)
      (Function.update w.stored.parts q.address x) w.nextId M') {α : Type} (r : α) :
    ∃ w', (do if need then RetrieveQueue.rebuild
              RetrieveQueue.commit
              return r : Op α)
        { w.write { w.stored with parts := Function.update w.stored.parts q.address x } with
          memory := withTotals p (gone s las) pointers } = .ok r w' ∧
      RoundEnd w w' q.address x pointers (gone s las) M' := by
  obtain ⟨w', hrun, hroot, hparts, hnext, hsane', hsh, htimes⟩ := Sane.rebuildAndCommit
    (w := { w.write { w.stored with parts := Function.update w.stored.parts q.address x } with
      memory := withTotals p (gone s las) pointers }) hsane need r
  refine ⟨w', hrun, hroot, ?_, hsh, ?_, ?_, hf.timesAfter hneed ?_⟩
  · rw [hparts, hnext]
    exact hsane'
  · intro b hb
    rw [hparts]
    exact Function.update_of_ne hb _ _
  · rw [hparts]
    exact Function.update_self ..
  · cases need with
    | true => exact htimes
    | false => exact ⟨htimes.oldest, htimes.youngest⟩

/-- The shard is drained. -/
theorem Forgotten.dropShard (hf : Forgotten w ps qs q s las out p M M')
    (h : Sane w.memory w.stored.parts w.nextId M) (hnil : kept s las = []) :
    ∃ w', RetrieveQueue.removeFromShard las ps.length w =
        .ok (stillToRemove jobFields las s.retrieveJobs, ps.length) w' ∧
      RoundEnd w w' q.address none (ps ++ qs) (gone s las) M' := by
  have hrem := RetrieveQueueShard.removeJobs_removed s las
  obtain ⟨need, hneed⟩ : ∃ need, NeedsRebuild w s las need := ⟨_, rfl⟩
  obtain ⟨w', hrun, hend⟩ := hf.roundEnd hneed (hf.sane h (.inl ⟨rfl, rfl, hnil⟩))
    (stillToRemove jobFields las s.retrieveJobs, ps.length)
  refine ⟨w', ?_, hend⟩
  have hget : w.memory.retrieveQueueShards[ps.length]? = some q := by simp [hf.shards]
  have hafter : (s.removeJobs las).2.jobsAfter = 0 := by simp [hrem.jobsAfter, hnil]
  have hdrop : removeBySwaps ps.length w.memory.retrieveQueueShards = ps ++ qs := by
    rw [hf.shards, removeBySwaps_append]
  have hforget := hf.forgets
  rw [← hf.removedJobs] at hforget
  unfold NeedsRebuild at hneed
  simp only [RetrieveQueue.removeFromShard, fetchShard, bind_apply, pure_apply,
    getMemory_apply, setMemory_apply, lookupPart_apply, dropPart_apply, fromOption_some,
    fromExcept_ok, hget, hf.part, hafter, ne_eq, not_true_eq_false, if_false, World.write_memory,
    hforget, hneed, hf.body.shards, hdrop, hrem.jobsRemoved, hrem.bytesRemoved,
    hf.still]
  exact hrun

/-- The pointer of a shard that keeps some of its jobs. -/
def trimmedPointer (q : RetrieveQueueShardPointer) (out : List RetrieveJobPointer) :
    RetrieveQueueShardPointer :=
  { q with
    shardBytesCount := q.shardBytesCount - bytesOf out
    shardJobsCount := sub64 q.shardJobsCount out.length }

theorem describes_trimmed (hsound : Sound s) (hd : Describes q s) (hnil : kept s las ≠ []) :
    Sound (s.removeJobs las).1 ∧
      Describes (trimmedPointer q (gone s las)) (s.removeJobs las).1 := by
  have hrem := RetrieveQueueShard.removeJobs_removed s las
  have hlength : (kept s las).length + (gone s las).length = s.retrieveJobs.length := by
    have := (RetrieveQueueShard.kept_gone_perm s las).length_eq
    simp at this
    omega
  have hsub : ∀ j ∈ (s.removeJobs las).1.retrieveJobs, j ∈ s.retrieveJobs := by
    rw [hrem.jobs]
    exact fun j hj => List.mem_of_mem_filter hj
  refine ⟨⟨hrem.coherent hsound.coherent, ?_, fun j hj => hsound.bounded j (hsub j hj)⟩,
    ⟨?_, ?_, fun j hj => hd.limits j (hsub j hj), hd.bound⟩⟩
  · rwa [hrem.jobs]
  · rw [hrem.jobs]
    change sub64 q.shardJobsCount (gone s las).length = _
    rw [hd.count, sub64_of_le (by omega)]
    omega
  · rw [hrem.total]
    exact congrArg (· - bytesOf (gone s las)) hd.bytes

/-- The shard keeps some of its jobs. -/
theorem Forgotten.trimShard (hf : Forgotten w ps qs q s las out p M M')
    (h : Sane w.memory w.stored.parts w.nextId M) (hnil : kept s las ≠ []) :
    ∃ w', RetrieveQueue.removeFromShard las ps.length w =
        .ok (stillToRemove jobFields las s.retrieveJobs, ps.length + 1) w' ∧
      RoundEnd w w' q.address (some (s.removeJobs las).1)
        (ps ++ ([trimmedPointer q (gone s las)] ++ qs)) (gone s las) M' := by
  have hrem := RetrieveQueueShard.removeJobs_removed s las
  obtain ⟨s₀, hs₀, hsound, hd⟩ := h.described q (by simp [hf.shards])
  obtain rfl : s₀ = s := Option.some.inj (hs₀.symm.trans hf.part)
  obtain ⟨hsound', hd'⟩ := describes_trimmed hsound hd hnil
  obtain ⟨need, hneed⟩ : ∃ need, NeedsRebuild w s₀ las need := ⟨_, rfl⟩
  obtain ⟨w', hrun, hend⟩ := hf.roundEnd hneed
    (hf.sane h (.inr ⟨_, _, rfl, rfl, hrem.jobs.symm, hsound', hd', rfl, rfl, rfl⟩))
    (stillToRemove jobFields las s₀.retrieveJobs, ps.length + 1)
  refine ⟨w', ?_, hend⟩
  have hget : w.memory.retrieveQueueShards[ps.length]? = some q := by simp [hf.shards]
  have hafter : (s₀.removeJobs las).2.jobsAfter ≠ 0 := by simpa [hrem.jobsAfter] using hnil
  have hset : w.memory.retrieveQueueShards.set ps.length (trimmedPointer q (gone s₀ las)) =
      ps ++ ([trimmedPointer q (gone s₀ las)] ++ qs) := by
    simp [hf.shards]
  -- the pointer matches the shard, so the first rebuild is not needed
  have hbytes : q.shardBytesCount - bytesOf (gone s₀ las) = (s₀.removeJobs las).2.bytesAfter := by
    rw [hrem.bytesAfter, ← hrem.total]
    exact hd'.bytes
  have hjobs : sub64 q.shardJobsCount (gone s₀ las).length = (s₀.removeJobs las).2.jobsAfter := by
    rw [hrem.jobsAfter, ← hrem.jobs]
    exact hd'.count
  have hforget := hf.forgets
  rw [← hf.removedJobs] at hforget
  unfold NeedsRebuild at hneed
  simp only [RetrieveQueue.removeFromShard, fetchShard, setPointer, bind_apply, pure_apply,
    getMemory_apply, setMemory_apply, lookupPart_apply, putPart_apply, fromOption_some,
    fromExcept_ok, hget, hf.part, if_pos hafter, World.write_memory, hforget, hneed,
    hf.body.shards, hrem.jobsRemoved, hrem.bytesRemoved, hf.still]
  simp only [trimmedPointer, hbytes, hjobs] at hset hrun
  simp only [hbytes, hjobs, hset, ne_eq, not_true_eq_false, decide_false, Bool.or_false,
    Bool.and_false, Bool.false_eq_true, if_false]
  exact hrun

theorem Sane.removeFromShard (h : Sane w.memory w.stored.parts w.nextId M)
    {as bs : List ShardAddress} {a : ShardAddress}
    (haddr : w.memory.retrieveQueueShards.map (·.address) = as ++ a :: bs) (las : List Address) :
    ∃ s w' mid M', w.stored.parts a = some s ∧ mid.Sublist [a] ∧
      RetrieveQueue.removeFromShard las as.length w =
        .ok (stillToRemove jobFields las s.retrieveJobs, (as ++ mid).length) w' ∧
      w'.stored.root = w'.memory ∧ Sane w'.memory w'.stored.parts w'.nextId M' ∧
      M = M' + (gone s las : Multiset RetrieveJobPointer) ∧
      w'.memory.retrieveQueueShards.map (·.address) = (as ++ mid) ++ bs ∧
      (∀ b, b ≠ a → w'.stored.parts b = w.stored.parts b) ∧
      (∀ t, w'.stored.parts a = some t → t.retrieveJobs = kept s las) ∧
      TimesAfter w.memory w'.memory (gone s las) M' := by
  obtain ⟨ps, rest, hps, rfl, hrest⟩ := List.map_eq_append_iff.mp haddr
  obtain ⟨q, qs, rfl, rfl, rfl⟩ := List.map_eq_cons_iff.mp hrest
  obtain ⟨s, hs, -⟩ := h.described q (by simp [hps])
  obtain ⟨out, p, M', hf⟩ := h.forgotten hps hs las
  by_cases hnil : kept s las = []
  · obtain ⟨w', hrun, hend⟩ := hf.dropShard h hnil
    refine ⟨s, w', [], M', hs, by simp, by simpa using hrun, hend.committed, hend.sane, hf.apart,
      by simpa using hend.addresses, hend.others, ?_, hend.times⟩
    intro t ht
    rw [hend.part] at ht
    cases ht
  · obtain ⟨w', hrun, hend⟩ := hf.trimShard h hnil
    refine ⟨s, w', [q.address], M', hs, by simp, by simpa using hrun, hend.committed, hend.sane,
      hf.apart, by simpa [trimmedPointer] using hend.addresses, hend.others, ?_, hend.times⟩
    intro t ht
    rw [hend.part] at ht
    rw [← Option.some.inj ht, (RetrieveQueueShard.removeJobs_removed s las).jobs]

end

theorem Sane.mem_part {p : RetrieveQueue} {parts : ShardAddress → Option RetrieveQueueShard}
    {next : Nat} {M : Multiset RetrieveJobPointer} (h : Sane p parts next M)
    {j : RetrieveJobPointer} (hj : j ∈ M) :
    ∃ a ∈ p.retrieveQueueShards.map (·.address), ∃ s, parts a = some s ∧ j ∈ s.retrieveJobs := by
  rw [← h.content, Multiset.mem_coe, jobsIn, List.mem_flatMap] at hj
  obtain ⟨x, hx, hj⟩ := hj
  obtain ⟨q, hq, hs⟩ := List.mem_filterMap.mp hx
  obtain ⟨s, hq', rfl⟩ := Option.map_eq_some_iff.mp hs
  exact ⟨q.address, List.mem_map_of_mem hq, s, hq', hj⟩

section
variable {as las : List Address} {w w' : Queue} {M : Multiset RetrieveJobPointer} {fuel i : Nat}

theorem removeLoop_ends (fuel : Nat) (h : las = [] ∨ w.memory.retrieveQueueShards.length ≤ i) :
    removeLoop fuel las i w = .ok () w := by
  unfold removeLoop
  simp [h]

theorem removeLoop_goes {las' : List Address} {i' : Nat} (fuel : Nat)
    (h : ¬(las = [] ∨ w.memory.retrieveQueueShards.length ≤ i))
    (hrun : removeFromShard las i w = .ok (las', i') w') :
    removeLoop (fuel + 1) las i w = removeLoop fuel las' i' w' := by
  rw [removeLoop]
  simp only [bind_apply, getMemory_apply, if_neg h, hrun]

/-- Any removal returns, and leaves a queue that agrees with its shards. What every round keeps of
the queue object and the queued jobs holds at the end. -/
theorem Sane.removeLoop {I : RetrieveQueue → Multiset RetrieveJobPointer → Prop}
    (las : List Address) (hround : ∀ p p' N, ∀ out : List RetrieveJobPointer,
      I p (N + (out : Multiset _)) → TimesAfter p p' out N → I p' N)
    {visited ahead : List ShardAddress} (h : Sane w.memory w.stored.parts w.nextId M)
    (hroot : w.stored.root = w.memory) (hI : I w.memory M)
    (haddr : w.memory.retrieveQueueShards.map (·.address) = visited ++ ahead)
    (hfuel : ahead.length ≤ fuel) :
    ∃ w' N, RetrieveQueue.removeLoop fuel las visited.length w = .ok () w' ∧
      w'.stored.root = w'.memory ∧ Sane w'.memory w'.stored.parts w'.nextId N ∧ I w'.memory N := by
  have hlen : w.memory.retrieveQueueShards.length = visited.length + ahead.length := by
    rw [← List.length_append, ← haddr, List.length_map]
  induction ahead generalizing fuel las w M visited with
  | nil => exact ⟨w, M, removeLoop_ends fuel (.inr (by simp [hlen])), hroot, h, hI⟩
  | cons a ahead ih =>
    obtain ⟨fuel, rfl⟩ : ∃ n, fuel = n + 1 := ⟨fuel - 1, by simp at hfuel; omega⟩
    by_cases hnil : las = []
    · exact ⟨w, M, removeLoop_ends _ (.inl hnil), hroot, h, hI⟩
    · obtain ⟨s, w1, mid, N, -, -, hrun, hroot1, hsane, hN, haddr1, -, -, htimes⟩ :=
        h.removeFromShard haddr las
      have hmore : ¬(las = [] ∨ w.memory.retrieveQueueShards.length ≤ visited.length) := by
        simp [hnil, hlen]
      rw [removeLoop_goes fuel hmore hrun]
      refine ih _ hsane hroot1 (hround _ _ _ _ (hN ▸ hI) htimes) haddr1 (by simpa using hfuel) ?_
      rw [← List.length_append, ← haddr1, List.length_map]

theorem Sane.removeAny {I : RetrieveQueue → Multiset RetrieveJobPointer → Prop}
    (hround : ∀ p p' N, ∀ out : List RetrieveJobPointer, I p (N + (out : Multiset _)) →
      TimesAfter p p' out N → I p' N)
    (h : Sane w.memory w.stored.parts w.nextId M) (hroot : w.stored.root = w.memory)
    (hI : I w.memory M) (as : List Address) :
    ∃ w' N, removeJobsAndCommit as w = .ok () w' ∧ w'.stored.root = w'.memory ∧
      Sane w'.memory w'.stored.parts w'.nextId N ∧ I w'.memory N := by
  have hahead : w.memory.retrieveQueueShards.map (·.address) =
      [] ++ w.memory.retrieveQueueShards.map (·.address) := rfl
  obtain ⟨w', N, hrun, hrest⟩ :=
    h.removeLoop as hround hroot hI hahead (Nat.le_of_eq (List.length_map _))
  exact ⟨w', N, by simpa [removeJobsAndCommit] using hrun, hrest⟩

/-- A queue that agrees with its shards, and still holds the jobs that are not to be removed. -/
structure StillHolds (as : List Address) (M : Multiset RetrieveJobPointer) (w : Queue) : Prop where
  committed : w.stored.root = w.memory
  agrees : ∃ N, Sane w.memory w.stored.parts w.nextId N ∧
    N.filter (·.address ∉ as) = M.filter (·.address ∉ as)

theorem StillHolds.removeFromShard (h : StillHolds as M w) {visited ahead : List ShardAddress}
    {a : ShardAddress}
    (haddr : w.memory.retrieveQueueShards.map (·.address) = visited ++ a :: ahead)
    (hlas : las ⊆ as) :
    ∃ s mid w', Round jobFields (fun w : Queue => w.memory.retrieveQueueShards.map (·.address))
        (fun w => shardJobs w.stored.parts) visited ahead a las s mid w w' ∧ StillHolds as M w' ∧
      RetrieveQueue.removeFromShard las visited.length w =
        .ok (stillToRemove jobFields las s, (visited ++ mid).length) w' := by
  obtain ⟨N, hsane, hsame⟩ := h.agrees
  obtain ⟨s, w', mid, N', hs, hmid, hrun, hroot, hsane', hN, haddr', hother, ha, -⟩ :=
    hsane.removeFromShard haddr las
  have hgone : (gone s las : Multiset RetrieveJobPointer).filter (·.address ∉ as) = 0 := by
    refine Multiset.filter_eq_nil.mpr fun j hj hnot => hnot (hlas ?_)
    exact of_decide_eq_true (List.mem_filter.mp hj).2
  have hleft : ∀ t ∈ shardJobs w'.stored.parts a, t = kept s las := by
    intro t ht
    obtain ⟨u, hu, rfl⟩ := Option.map_eq_some_iff.mp ht
    exact ha u hu
  refine ⟨s.retrieveJobs, mid, w', ⟨shardJobs_some hs, hmid, haddr', fun b hb => ?_, hleft⟩,
    ⟨hroot, N', hsane', ?_⟩, hrun⟩
  · exact congrArg (Option.map (·.retrieveJobs)) (hother b hb)
  · rw [← hsame, hN, Multiset.filter_add, hgone, add_zero]

theorem Sane.remove (h : Sane w.memory w.stored.parts w.nextId M)
    (hroot : w.stored.root = w.memory)
    (honce : InOneShard jobFields as (shardJobs w.stored.parts)
      (w.memory.retrieveQueueShards.map (·.address))) :
    ∃ w', removeJobsAndCommit as w = .ok () w' ∧ w'.stored.root = w'.memory ∧
      Sane w'.memory w'.stored.parts w'.nextId (M.filter (·.address ∉ as)) := by
  have hfuel : (w.memory.retrieveQueueShards.map (·.address)).length ≤
      w.memory.retrieveQueueShards.length := by simp
  obtain ⟨w', hrun, ⟨hroot', N, hsane, hsame⟩, hleft⟩ :=
    Removing.loop (fun w : Queue => w.memory.retrieveQueueShards.map (·.address))
      (fun w => shardJobs w.stored.parts) (StillHolds as M)
      (fun fuel las i w hend => removeLoop_ends fuel (by simpa using hend))
      (fun fuel las i w las' i' w' hmore hrun => removeLoop_goes fuel (by simpa using hmore) hrun)
      (fun w hw => by
        obtain ⟨N, hsane, -⟩ := hw.agrees
        exact hsane.nodup)
      (fun w visited a ahead las hw haddr hlas => hw.removeFromShard haddr hlas)
      ⟨hroot, M, h, rfl⟩ rfl (Removing.start honce) hfuel
  have hkeep : N.filter (·.address ∉ as) = N := by
    refine Multiset.filter_eq_self.mpr fun j hj => ?_
    obtain ⟨a, ha, s, hs, hj⟩ := hsane.mem_part hj
    exact hleft a ha _ (shardJobs_some hs) j hj
  refine ⟨w', by simpa [removeJobsAndCommit] using hrun, hroot', ?_⟩
  rwa [← hsame, hkeep]

end

end Cta.ObjectStore.RetrieveQueue
