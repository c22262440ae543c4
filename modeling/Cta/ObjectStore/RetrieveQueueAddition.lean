import Cta.ObjectStore.RetrieveQueueProgress

/-! Bookkeeping of an addition: the invariant that ties the queue object to the shards,
and how a batch whose cuts are clean keeps it. -/
namespace Cta.ObjectStore.RetrieveQueue
open StoreError ValueCountMap Cta.Lib.Sequence Cta.Lib.PartedStore
open RetrieveQueueShard (Coherent bytesOf bytesOf_append bytesOf_perm kept gone)

/-- A pointer has the counts of its shard; its limits may be wider than the jobs, as a
removal does not always narrow them. -/
structure Describes (q : RetrieveQueueShardPointer) (s : RetrieveQueueShard) : Prop where
  count : q.shardJobsCount = s.retrieveJobs.length
  bytes : q.shardBytesCount = s.retrieveJobsTotalSize
  limits : ∀ j ∈ s.retrieveJobs, q.minFseq ≤ j.fSeq ∧ j.fSeq ≤ q.maxFseq
  bound : q.maxFseq < 2^64 - 1

/-- The queue object, the stored shards and the queued jobs agree. -/
structure Sane (p : RetrieveQueue) (parts : ShardAddress → Option RetrieveQueueShard)
    (next : Nat) (jobs : Multiset RetrieveJobPointer) : Prop where
  nodup : (p.retrieveQueueShards.map (·.address)).Nodup
  fresh : ∀ q ∈ p.retrieveQueueShards, q.address < next
  only : ∀ a s, parts a = some s → a ∈ p.retrieveQueueShards.map (·.address)
  described : ∀ q ∈ p.retrieveQueueShards,
    ∃ s, parts q.address = some s ∧ Sound s ∧ Describes q s
  ordered : p.retrieveQueueShards.Pairwise fun a b => a.maxFseq < b.minFseq
  content : (jobsIn (found parts p.retrieveQueueShards) : Multiset RetrieveJobPointer) = jobs
  count : p.retrieveJobsCount = jobs.card
  size : p.retrieveJobsTotalSize = (jobs.map (·.size)).sum
  booked : Booked p jobs

theorem sum_coe_size (l : List RetrieveJobPointer) :
    ((l : Multiset RetrieveJobPointer).map (·.size)).sum = bytesOf l := by
  simp [bytesOf]

theorem found_cons {parts : ShardAddress → Option RetrieveQueueShard}
    {q : RetrieveQueueShardPointer} {qs : List RetrieveQueueShardPointer} {s : RetrieveQueueShard}
    (h : parts q.address = some s) :
    found parts (q :: qs) = (q.address, s) :: found parts qs := by
  simp [found, h]

theorem jobs_sublist {parts : ShardAddress → Option RetrieveQueueShard}
    {qs : List RetrieveQueueShardPointer} {q : RetrieveQueueShardPointer} (hq : q ∈ qs)
    {s : RetrieveQueueShard} (hs : parts q.address = some s) :
    s.retrieveJobs.Sublist (jobsIn (found parts qs)) := by
  obtain ⟨ps, rest, rfl⟩ := List.append_of_mem hq
  rw [found_append, found_cons hs, jobsIn, List.flatMap_append, List.flatMap_cons]
  exact (List.sublist_append_left _ _).trans (List.sublist_append_right _ _)

theorem found_pointersTo {parts : ShardAddress → Option RetrieveQueueShard}
    {done : List (ShardAddress × RetrieveQueueShard)} (h : ∀ x ∈ done, parts x.1 = some x.2) :
    found parts (pointersTo done) = done := by
  induction done with
  | nil => rfl
  | cons x done ih =>
    have hx := h x List.mem_cons_self
    have := ih fun y hy => h y (List.mem_cons_of_mem x hy)
    rw [pointersTo, List.map_cons, found_cons (s := x.2) (by simpa [pointerTo] using hx)]
    simpa [pointersTo, pointerTo] using this

theorem sum_described {parts : ShardAddress → Option RetrieveQueueShard}
    {qs : List RetrieveQueueShardPointer}
    (h : ∀ q ∈ qs, ∃ s, parts q.address = some s ∧ Sound s ∧ Describes q s) :
    (qs.map (·.shardBytesCount)).sum = bytesOf (jobsIn (found parts qs)) ∧
      (qs.map (·.shardJobsCount)).sum = (jobsIn (found parts qs)).length := by
  induction qs with
  | nil => simp [found, jobsIn, bytesOf]
  | cons q qs ih =>
    obtain ⟨h1, h2⟩ := ih fun x hx => h x (List.mem_cons_of_mem q hx)
    obtain ⟨s, hs, hsound, hd⟩ := h q List.mem_cons_self
    rw [found_cons hs]
    simp only [List.map_cons, List.sum_cons, h1, h2, jobsIn, List.flatMap_cons, bytesOf_append,
      List.length_append, hd.count, hd.bytes, hsound.coherent.total, and_self]

section
variable {p : RetrieveQueue} {parts : ShardAddress → Option RetrieveQueueShard} {next : Nat}
  {M : Multiset RetrieveJobPointer}

theorem Sane.consistent (h : Sane p parts next M) : Consistent p := by
  obtain ⟨h1, h2⟩ := sum_described h.described
  refine ⟨?_, ?_, ?_⟩
  · rw [h.size, h1, ← h.content, sum_coe_size]
  · rw [h.count, h2, ← h.content, Multiset.coe_card]
  · rw [h.count]
    exact h.booked.tallied

theorem Sane.sound (h : Sane p parts next M) :
    ∀ q ∈ p.retrieveQueueShards, ∀ s, parts q.address = some s → Sound s := by
  intro q hq s hs
  obtain ⟨t, ht, hsound, -⟩ := h.described q hq
  rwa [Option.some.inj (hs.symm.trans ht)]

theorem Sane.ranges (h : Sane p parts next M) : RangesOrdered p.retrieveQueueShards := by
  refine ⟨h.ordered, fun q hq => ?_⟩
  obtain ⟨s, -, hsound, hd⟩ := h.described q hq
  obtain ⟨j, hj⟩ := List.exists_mem_of_ne_nil _ hsound.nonempty
  have := hd.limits j hj
  have := hd.bound
  omega

/-- The jobs of the shard are within the limits of the pointer. -/
structure Encloses (q : RetrieveQueueShardPointer) (s : RetrieveQueueShard) : Prop where
  limits : ∀ j ∈ s.retrieveJobs, q.minFseq ≤ j.fSeq ∧ j.fSeq ≤ q.maxFseq
  bound : q.maxFseq < 2^64 - 1

/-- The pointers lead to shards within their limits, or to nothing. -/
structure Pointing (p : RetrieveQueue) (parts : ShardAddress → Option RetrieveQueueShard)
    (next : Nat) : Prop where
  nodup : (p.retrieveQueueShards.map (·.address)).Nodup
  fresh : ∀ q ∈ p.retrieveQueueShards, q.address < next
  only : ∀ a s, parts a = some s → a ∈ p.retrieveQueueShards.map (·.address)
  described : ∀ q ∈ p.retrieveQueueShards, ∀ s, parts q.address = some s → Sound s ∧ Encloses q s
  ordered : p.retrieveQueueShards.Pairwise fun a b => a.maxFseq < b.minFseq

theorem Sane.pointing (h : Sane p parts next M) : Pointing p parts next := by
  refine ⟨h.nodup, h.fresh, h.only, fun q hq s hs => ?_, h.ordered⟩
  obtain ⟨t, ht, hsound, hd⟩ := h.described q hq
  obtain rfl : s = t := Option.some.inj (hs.symm.trans ht)
  exact ⟨hsound, hd.limits, hd.bound⟩

theorem Pointing.mem_found (h : Pointing p parts next) {d : RetrieveQueueShardPointer}
    (hd : d ∈ pointersTo (found parts p.retrieveQueueShards)) :
    ∃ q ∈ p.retrieveQueueShards, ∃ s, parts q.address = some s ∧ Sound s ∧ Encloses q s ∧
      d = pointerTo q.address s := by
  obtain ⟨q, hq, s, hs, rfl⟩ := mem_pointersTo_found hd
  obtain ⟨hsound, hdes⟩ := h.described q hq s hs
  exact ⟨q, hq, s, hs, hsound, hdes, rfl⟩

theorem Pointing.found_ordered (h : Pointing p parts next) :
    (pointersTo (found parts p.retrieveQueueShards)).Pairwise fun a b => a.maxFseq < b.minFseq := by
  have hle : ∀ q ∈ p.retrieveQueueShards, ∀ s, parts q.address = some s →
      q.minFseq ≤ (pointerTo q.address s).minFseq ∧
        (pointerTo q.address s).maxFseq ≤ q.maxFseq := by
    intro q hq s hs
    obtain ⟨hsound, hdes⟩ := h.described q hq s hs
    obtain ⟨-, ⟨x, hx, hmin⟩, ⟨y, hy, hmax⟩⟩ := hsound.limits q.address
    have := hdes.limits x hx
    have := hdes.limits y hy
    omega
  have hord := h.ordered
  revert hle hord
  clear h
  induction p.retrieveQueueShards with
  | nil => intros; exact List.Pairwise.nil
  | cons q qs ih =>
    intro hle hord
    obtain ⟨hq, hqs⟩ := List.pairwise_cons.mp hord
    have ih' := ih (fun x hx => hle x (List.mem_cons_of_mem q hx)) hqs
    cases hs : parts q.address with
    | none => simpa [found, hs] using ih'
    | some s =>
      rw [found_cons hs, pointersTo, List.map_cons, List.pairwise_cons]
      refine ⟨fun d hd => ?_, ih'⟩
      obtain ⟨x, hx, t, ht, rfl⟩ := mem_pointersTo_found hd
      have h1 := (hle q List.mem_cons_self s hs).2
      have h2 := (hle x (List.mem_cons_of_mem q hx) t ht).1
      have h3 := hq x hx
      dsimp only
      omega

theorem addresses_found_sublist (parts : ShardAddress → Option RetrieveQueueShard)
    (qs : List RetrieveQueueShardPointer) :
    ((pointersTo (found parts qs)).map (·.address)).Sublist (qs.map (·.address)) := by
  induction qs with
  | nil => exact List.Sublist.refl _
  | cons q qs ih =>
    cases hq : parts q.address with
    | none => simpa [found, hq] using ih.cons q.address
    | some s =>
      rw [found_cons hq]
      exact ih.cons_cons q.address

theorem Exact.found_eq {p' : RetrieveQueue} {qs : List RetrieveQueueShardPointer}
    (h : Exact p' (found parts qs)) : found parts p'.retrieveQueueShards = found parts qs := by
  rw [h.pointers]
  refine found_pointersTo fun x hx => ?_
  obtain ⟨q, -, hxq⟩ := List.mem_filterMap.mp hx
  obtain ⟨s, hs, rfl⟩ := Option.map_eq_some_iff.mp hxq
  exact hs

theorem Pointing.sane_of_exact (h : Pointing p parts next) {p' : RetrieveQueue}
    (hexact : Exact p' (found parts p.retrieveQueueShards))
    (hact : Counts p'.activityMap ((jobsIn (found parts p.retrieveQueueShards) :
      Multiset RetrieveJobPointer).filterMap (·.activity))) :
    Sane p' parts next (jobsIn (found parts p.retrieveQueueShards)) := by
  have hmem : ∀ d ∈ p'.retrieveQueueShards, ∃ q ∈ p.retrieveQueueShards, ∃ s,
      parts q.address = some s ∧ Sound s ∧ Encloses q s ∧ d = pointerTo q.address s :=
    fun d hd => h.mem_found (hexact.pointers ▸ hd)
  refine ⟨?_, ?_, ?_, ?_, ?_, ?_, ?_, ?_, hexact.counted, hact⟩
  · rw [hexact.pointers]
    exact (addresses_found_sublist parts p.retrieveQueueShards).nodup h.nodup
  · intro d hd
    obtain ⟨q, hq, s, -, -, -, rfl⟩ := hmem d hd
    exact h.fresh q hq
  · intro a s hs
    obtain ⟨q, hq, rfl⟩ := List.mem_map.mp (h.only a s hs)
    rw [hexact.pointers]
    have hx : (q.address, s) ∈ found parts p.retrieveQueueShards :=
      List.mem_filterMap.mpr ⟨q, hq, by rw [hs, Option.map_some]⟩
    exact List.mem_map.mpr ⟨pointerTo q.address s, List.mem_map_of_mem hx, rfl⟩
  · intro d hd
    obtain ⟨q, hq, s, hs, hsound, hdes, rfl⟩ := hmem d hd
    obtain ⟨hall, -, ⟨y, hy, hmax⟩⟩ := hsound.limits q.address
    refine ⟨s, hs, hsound, rfl, rfl, hall, ?_⟩
    have := (hdes.limits y hy).2
    have := hdes.bound
    omega
  · rw [hexact.pointers]
    exact h.found_ordered
  · rw [hexact.found_eq]
  · rw [hexact.count, Multiset.coe_card]
  · rw [hexact.size, sum_coe_size]

theorem Sane.rebuild {w : Queue} (h : Sane w.memory w.stored.parts w.nextId M) :
    ∃ w', rebuild w = .ok () w' ∧ w'.stored = w.stored ∧ w'.nextId = w.nextId ∧
      Sane w'.memory w.stored.parts w.nextId M ∧
      ∃ js : List RetrieveJobPointer, js = M ∧ TimesRebuilt w'.memory js := by
  obtain ⟨p', hr, hexact, hact, -, htimes⟩ := rebuild_spec h.nodup h.sound
  have hs := h.pointing.sane_of_exact hexact (by
    rw [hact, h.content]
    exact h.booked.activity)
  rw [h.content] at hs
  exact ⟨_, hr, rfl, rfl, hs, _, h.content, htimes⟩

theorem Sane.commit {w : Queue} (h : Sane w.memory w.stored.parts w.nextId M) :
    commit w = .ok () (w.write { w.stored with root := w.memory }) :=
  commit_coherent h.consistent.check

end

/-- A cut that leaves a job on each side and no request with jobs on both. -/
structure CleanCut (l e : ShardForAddition) (s : RetrieveQueueShard) : Prop where
  below : HasJob s.retrieveJobs l
  above : e.jobsToAdd ≠ [] ∨ ∃ x ∈ s.retrieveJobs, l.maxFseq < x.fSeq
  separate : ∀ x ∈ s.retrieveJobs, ∀ y ∈ s.retrieveJobs, x.fSeq ≤ l.maxFseq →
    l.maxFseq < y.fSeq → x.address ≠ y.address

def Group.Clean (s : RetrieveQueueShard) (g : Group) : Prop :=
  match g.lowers with
  | [] => True
  | [l] => CleanCut l g.source s
  | _ => False

section
variable {l e : ShardForAddition} {s : RetrieveQueueShard}

theorem CleanCut.mem_moved (h : CleanCut l e s)
    (hfit : ∀ x ∈ s.retrieveJobs, x.fSeq ≤ l.maxFseq → l.minFseq ≤ x.fSeq) :
    ∀ x ∈ s.retrieveJobs, x.address ∈ movedAddresses l s ↔
      l.minFseq ≤ x.fSeq ∧ x.fSeq ≤ l.maxFseq := by
  intro x hx
  constructor
  · intro hm
    obtain ⟨y, hy, hyx⟩ := List.mem_map.mp hm
    obtain ⟨hy, hyr⟩ := List.mem_filter.mp hy
    have hyr' : l.minFseq ≤ y.fSeq ∧ y.fSeq ≤ l.maxFseq := of_decide_eq_true hyr
    by_cases hle : x.fSeq ≤ l.maxFseq
    · exact ⟨hfit x hx hle, hle⟩
    · exact absurd hyx (h.separate y hy x hx hyr'.2 (Nat.not_le.mp hle))
  · intro hr
    exact List.mem_map_of_mem (List.mem_filter.mpr ⟨hx, decide_eq_true hr⟩)

theorem CleanCut.gone_eq (h : CleanCut l e s)
    (hfit : ∀ x ∈ s.retrieveJobs, x.fSeq ≤ l.maxFseq → l.minFseq ≤ x.fSeq) :
    gone s (movedAddresses l s) = moved l s :=
  List.filter_congr fun x hx => decide_eq_decide.mpr (h.mem_moved hfit x hx)

theorem CleanCut.kept_above (h : CleanCut l e s)
    (hfit : ∀ x ∈ s.retrieveJobs, x.fSeq ≤ l.maxFseq → l.minFseq ≤ x.fSeq)
    {x : RetrieveJobPointer} :
    x ∈ kept s (movedAddresses l s) ↔ x ∈ s.retrieveJobs ∧ l.maxFseq < x.fSeq := by
  rw [kept, List.mem_filter, decide_eq_true_iff]
  refine and_congr_right fun hx => ?_
  rw [h.mem_moved hfit x hx]
  constructor
  · intro hn
    by_contra hle
    exact hn ⟨hfit x hx (Nat.not_lt.mp hle), Nat.not_lt.mp hle⟩
  · intro hlt hr
    omega

end

def Within (x : ShardAddress × RetrieveQueueShard) (e : ShardForAddition) : Prop :=
  ∀ j ∈ x.2.retrieveJobs, e.minFseq ≤ j.fSeq ∧ j.fSeq ≤ e.maxFseq

structure Delivered (w w' : Queue) (planned : List JobToAdd) (shards : List ShardForAddition)
    (old : List RetrieveJobPointer) (done : List (ShardAddress × RetrieveQueueShard)) : Prop where
  stored : ∀ x ∈ done, w'.stored.parts x.1 = some x.2
  sound : ∀ x ∈ done, Sound x.2
  others : ∀ a, a ∉ done.map Prod.fst → w'.stored.parts a = w.stored.parts a
  within : List.Forall₂ Within done shards
  jobs : (jobsIn done).Perm (planned.map JobToAdd.toPointer ++ old)
  accounted : Accounted w.memory w'.memory planned

section
variable {orig : ShardAddress → Option RetrieveQueueShard} {w : Queue}
  {ps qs : List RetrieveQueueShardPointer} {q : RetrieveQueueShardPointer} {g : Group}
  {rest : List Group} {plan r : List ShardForAddition}

theorem perm_within {s : RetrieveQueueShard} {js : List JobToAdd} {l : List RetrieveJobPointer}
    {e : ShardForAddition} (hp : s.retrieveJobs.Perm (js.map JobToAdd.toPointer ++ l))
    (hj : ∀ j ∈ js, e.minFseq ≤ j.fSeq ∧ j.fSeq ≤ e.maxFseq)
    (hl : ∀ x ∈ l, e.minFseq ≤ x.fSeq ∧ x.fSeq ≤ e.maxFseq) (a : ShardAddress) :
    Within (a, s) e := by
  intro x hx
  rcases List.mem_append.mp (hp.mem_iff.mp hx) with hx | hx
  · obtain ⟨j, hj', rfl⟩ := List.mem_map.mp hx
    exact hj j hj'
  · exact hl x hx

theorem Progress.clean_group {s : RetrieveQueueShard}
    (h : Progress orig w ps (q :: qs) (g :: rest)) (ho : orig g.address = some s)
    (hg : g.Clean s) (hfits : g.Fits s.retrieveJobs)
    (hb : ∀ e ∈ g.shards, ∀ j ∈ e.jobsToAdd, j.fSeq < 2^64)
    (hfind : plan.find? (fun sfa => sfa.address = some g.address) =
      some { g.source with shardIndex := ps.length + g.lowers.length }) :
    ∃ w' done,
      executePlan plan (numberFrom ps.length g.shards ++ r) w = executePlan plan r w' ∧
      Progress orig w' (ps ++ pointersTo done) qs rest ∧ w'.stored.root = w'.memory ∧
      g.address ∈ done.map Prod.fst ∧
      Delivered w w' g.planned g.shards s.retrieveJobs done := by
  have hsrc : ∀ j ∈ g.source.jobsToAdd, j.fSeq < 2^64 := hb g.source (by simp [Group.shards])
  unfold Group.Clean at hg
  unfold Group.Fits at hfits
  rcases hl : g.lowers with _ | ⟨l, _ | ⟨l', ls⟩⟩
  · rw [hl] at hfits
    obtain ⟨-, -, hpl, hst⟩ := hfits
    obtain ⟨s0, s', w', ho', hs', hrun, hprog, hstored, -, -, hperm, haccounted⟩ :=
      h.plain plan hsrc
    obtain rfl : s = s0 := Option.some.inj (ho.symm.trans ho')
    have hplanned : g.planned = g.source.jobsToAdd := by simp [Group.planned, Group.shards, hl]
    refine ⟨w', [(g.address, s')], ?_, hprog, by rw [hstored], by simp, ⟨?_, ?_, ?_, ?_, ?_, ?_⟩⟩
    · simp only [Group.shards, hl, List.nil_append, numberFrom, List.cons_append]
      exact executePlan_cons hrun
    · simp [hstored]
    · simpa using hs'
    · intro a ha
      have hne : a ≠ g.address := by simpa using ha
      simp [hstored, Function.update_of_ne hne]
    · simp only [Group.shards, hl, List.nil_append]
      exact .cons (perm_within hperm hpl hst _) .nil
    · rw [hplanned]
      simpa [jobsIn] using hperm
    · rw [hplanned]
      exact haccounted
  · rw [hl] at hfits hg
    obtain ⟨hpl, hps, -, hst⟩ := hfits
    have hfit : ∀ x ∈ s.retrieveJobs, x.fSeq ≤ l.maxFseq → l.minFseq ≤ x.fSeq :=
      fun x hx => (hst x hx).1
    have hcut := g.isCutOff l (by simp [hl])
    rw [hl] at hfind
    obtain ⟨s0, r, w1, ho', hsound, hcount, hbytes, hrun, c⟩ := h.cut hcut hfind (by
      intro t ht
      obtain rfl : s = t := Option.some.inj (ho.symm.trans ht)
      exact hg.below) (hb l (by simp [Group.shards, hl]))
    obtain rfl : s = s0 := Option.some.inj (ho.symm.trans ho')
    obtain ⟨s', hperm, hc', -, hok⟩ := c.source h hsound hcount hbytes plan
    have hkept := fun x => hg.kept_above hfit (x := x)
    have hs' : Sound s' := by
      refine sound_of_perm hc' hperm (fun x hx => List.mem_of_mem_filter hx) hsound.bounded hsrc ?_
      refine hg.above.imp_right fun habove => ?_
      obtain ⟨x, hx, hlt⟩ := habove
      exact List.ne_nil_of_mem ((hkept x).mpr ⟨hx, hlt⟩)
    obtain ⟨w2, hrun2, f⟩ := hok hs'
    obtain ⟨hst2, hprog⟩ := f.store h c.sound hs' (by rw [hg.gone_eq hfit])
    obtain ⟨hnew, -, hne⟩ := f.lookup_new h
    have hplanned : g.planned = l.jobsToAdd ++ g.source.jobsToAdd := by
      simp [Group.planned, Group.shards, hl]
    refine ⟨_, [(w.nextId, r), (g.address, s')], ?_, hprog, rfl, by simp, ⟨?_, ?_, ?_, ?_, ?_, ?_⟩⟩
    · simp only [Group.shards, hl, List.cons_append, List.nil_append, numberFrom]
      rw [executePlan_cons hrun, executePlan_cons (hrun2.trans hst2)]
    · simp [hnew, Function.update_of_ne hne]
    · simpa using ⟨c.sound, hs'⟩
    · intro a ha
      have ha' : a ≠ w.nextId ∧ a ≠ g.address := by simpa using ha
      simp [f.stored, Function.update_of_ne ha'.1, Function.update_of_ne ha'.2]
    · simp only [Group.shards, hl, List.cons_append, List.nil_append]
      refine .cons (perm_within c.jobs hpl ?_ _) (.cons (perm_within hperm hps ?_ _) .nil)
      · intro x hx
        exact of_decide_eq_true (List.mem_filter.mp hx).2
      · intro x hx
        obtain ⟨hx, hlt⟩ := (hkept x).mp hx
        exact (hst x hx).2 hlt
    · have hmk : (moved l s ++ kept s (movedAddresses l s)).Perm s.retrieveJobs := by
        rw [← hg.gone_eq hfit]
        exact RetrieveQueueShard.kept_gone_perm s _
      have hsum := c.jobs.append hperm
      simp only [jobsIn, List.flatMap_cons, List.flatMap_nil, List.append_nil]
      refine hsum.trans ?_
      rw [hplanned, List.map_append]
      refine List.Perm.trans ?_ (hmk.append_left _)
      simp only [List.append_assoc]
      refine List.Perm.append_left _ ?_
      rw [← List.append_assoc, ← List.append_assoc]
      exact List.perm_append_comm.append_right _
    · rw [hplanned]
      exact f.accounted
  · simp [hl] at hg

theorem Delivered.nil (w : Queue) : Delivered w w [] [] [] [] where
  stored := by simp
  sound := by simp
  others := fun _ _ => rfl
  within := .nil
  jobs := List.Perm.refl _
  accounted := ⟨by simp, rfl, rfl⟩

theorem Delivered.append {w w1 w2 : Queue} {pl1 pl2 : List JobToAdd}
    {sh1 sh2 : List ShardForAddition} {old1 old2 : List RetrieveJobPointer}
    {d1 d2 : List (ShardAddress × RetrieveQueueShard)} (h1 : Delivered w w1 pl1 sh1 old1 d1)
    (h2 : Delivered w1 w2 pl2 sh2 old2 d2) (hd : ∀ a ∈ d1.map Prod.fst, a ∉ d2.map Prod.fst) :
    Delivered w w2 (pl1 ++ pl2) (sh1 ++ sh2) (old1 ++ old2) (d1 ++ d2) where
  stored := by
    intro x hx
    rcases List.mem_append.mp hx with hx | hx
    · rw [h2.others _ (hd _ (List.mem_map_of_mem hx))]
      exact h1.stored x hx
    · exact h2.stored x hx
  sound := List.forall_mem_append.mpr ⟨h1.sound, h2.sound⟩
  others := by
    intro a ha
    rw [List.map_append, List.mem_append, not_or] at ha
    rw [h2.others a ha.2, h1.others a ha.1]
  within := List.rel_append h1.within h2.within
  jobs := by
    have hp := h1.jobs.append h2.jobs
    rw [jobsIn, List.flatMap_append, List.map_append]
    refine hp.trans ?_
    simp only [List.append_assoc]
    refine List.Perm.append_left _ ?_
    rw [← List.append_assoc, ← List.append_assoc]
    exact List.perm_append_comm.append_right _
  accounted := h1.accounted.trans h2.accounted

theorem Progress.clean_groups {gs : List Group} (h : Progress orig w ps qs gs)
    (hroot : w.stored.root = w.memory)
    (hg : ∀ g ∈ gs, ∀ s, orig g.address = some s → g.Clean s ∧ g.Fits s.retrieveJobs)
    (hb : ∀ g ∈ gs, ∀ e ∈ g.shards, ∀ j ∈ e.jobsToAdd, j.fSeq < 2^64)
    (hfind : ∀ gpre g gpost, gs = gpre ++ g :: gpost →
      plan.find? (fun sfa => sfa.address = some g.address) = some { g.source with
        shardIndex := ps.length + (gpre.flatMap Group.shards).length + g.lowers.length }) :
    ∃ w' done, executePlan plan (numberFrom ps.length (gs.flatMap Group.shards)) w = .ok () w' ∧
      Progress orig w' (ps ++ pointersTo done) [] [] ∧ w'.stored.root = w'.memory ∧
      (∀ g ∈ gs, g.address ∈ done.map Prod.fst) ∧
      Delivered w w' (gs.flatMap Group.planned) (gs.flatMap Group.shards)
        (jobsIn (found orig qs)) done := by
  induction gs generalizing w ps qs with
  | nil =>
    obtain rfl : qs = [] := by simpa using h.addresses
    refine ⟨w, [], rfl, by simpa [pointersTo] using h, hroot, by simp, ?_⟩
    simpa [found, jobsIn] using Delivered.nil w
  | cons g gs ih =>
    obtain ⟨q, qs, rfl⟩ : ∃ q qs', qs = q :: qs' := by
      cases qs with
      | nil => simpa using h.addresses
      | cons q qs => exact ⟨q, qs, rfl⟩
    obtain ⟨s, ho, -⟩ := h.todo q List.mem_cons_self
    have hoq := ho
    rw [h.head_address] at ho
    obtain ⟨hclean, hfits⟩ := hg g List.mem_cons_self s ho
    have hfg := hfind [] g gs rfl
    rw [List.flatMap_nil, List.length_nil, Nat.add_zero] at hfg
    obtain ⟨w1, d1, hrun, hprog, hroot1, hmem, hdel⟩ := h.clean_group ho hclean hfits
      (hb g List.mem_cons_self) hfg
    have hlen : (ps ++ pointersTo d1).length = ps.length + g.shards.length := by
      rw [List.length_append, pointersTo, List.length_map, hdel.within.length_eq]
    obtain ⟨w2, d2, hrun2, hprog2, hroot2, hmem2, hdel2⟩ := ih hprog hroot1
      (fun x hx => hg x (List.mem_cons_of_mem g hx)) (fun x hx => hb x (List.mem_cons_of_mem g hx))
      (by
        intro gpre x gpost hgs
        have hi : ps.length + ((g :: gpre).flatMap Group.shards).length + x.lowers.length =
            (ps ++ pointersTo d1).length + (gpre.flatMap Group.shards).length + x.lowers.length := by
          rw [hlen, List.flatMap_cons, List.length_append]
          omega
        rw [hfind (g :: gpre) x gpost (by simp [hgs]), hi])
    have haddr : ∀ d : List (ShardAddress × RetrieveQueueShard),
        (pointersTo d).map (·.address) = d.map Prod.fst := by
      intro d
      simp [pointersTo, pointerTo, Function.comp_def]
    have hdisj : ∀ a ∈ d1.map Prod.fst, a ∉ d2.map Prod.fst := by
      have hn := hprog2.nodup
      rw [List.append_nil, List.map_append, List.map_append, haddr, haddr] at hn
      intro a ha hb
      exact (List.nodup_append.mp hn).2.2 a (List.mem_append_right _ ha) a hb rfl
    refine ⟨w2, d1 ++ d2, ?_, ?_, hroot2, ?_, ?_⟩
    · rw [List.flatMap_cons, numberFrom_append, hrun, ← hlen]
      exact hrun2
    · simpa [pointersTo] using hprog2
    · intro x hx
      rw [List.map_append]
      rcases List.mem_cons.mp hx with rfl | hx
      · exact List.mem_append_left _ hmem
      · exact List.mem_append_right _ (hmem2 x hx)
    · rw [found_cons hoq, jobsIn, List.flatMap_cons, List.flatMap_cons, List.flatMap_cons]
      exact hdel.append hdel2 hdisj

theorem Progress.unclean_group {s : RetrieveQueueShard}
    (h : Progress orig w ps (q :: qs) (g :: rest)) (ho : orig g.address = some s)
    (hlow : g.lowers.length ≤ 1) (hg : ¬g.Clean s) (hfits : g.Fits s.retrieveJobs)
    (hdistinct : (s.retrieveJobs.map (·.address)).Nodup)
    (hb : ∀ e ∈ g.shards, ∀ j ∈ e.jobsToAdd, j.fSeq < 2^64)
    (hfind : plan.find? (fun sfa => sfa.address = some g.address) =
      some { g.source with shardIndex := ps.length + g.lowers.length }) :
    ∃ w', executePlan plan (numberFrom ps.length g.shards ++ r) w = .error outOfRange w' := by
  unfold Group.Clean at hg
  unfold Group.Fits at hfits
  rcases hl : g.lowers with _ | ⟨l, _ | ⟨l', ls⟩⟩
  · simp [hl] at hg
  · rw [hl] at hg hfits hfind
    obtain ⟨-, -, -, hst⟩ := hfits
    have hcut := g.isCutOff l (by simp [hl])
    have hplan : executePlan plan (numberFrom ps.length g.shards ++ r) w =
        executePlan plan ({ l with shardIndex := ps.length } ::
          { g.source with shardIndex := ps.length + 1 } :: r) w := by
      simp only [Group.shards, hl, List.cons_append, List.nil_append, numberFrom]
    rw [hplan]
    by_cases hbelow : HasJob s.retrieveJobs l
    · obtain ⟨s0, r, w1, ho', hsound, hcount, hbytes, hrun, c⟩ := h.cut hcut hfind (by
        intro t ht
        obtain rfl : s = t := Option.some.inj (ho.symm.trans ht)
        exact hbelow) (hb l (by simp [Group.shards, hl]))
      obtain rfl : s = s0 := Option.some.inj (ho.symm.trans ho')
      obtain ⟨s', hperm, -, hempty, -⟩ := c.source h hsound hcount hbytes plan
      have hseparate : ∀ x ∈ s.retrieveJobs, ∀ y ∈ s.retrieveJobs, x.fSeq ≤ l.maxFseq →
          l.maxFseq < y.fSeq → x.address ≠ y.address := by
        intro x hx y hy hxl hyl heq
        obtain rfl := List.inj_on_of_nodup_map hdistinct hx hy heq
        omega
      have habove : ¬(g.source.jobsToAdd ≠ [] ∨ ∃ x ∈ s.retrieveJobs, l.maxFseq < x.fSeq) :=
        fun habove => hg ⟨hbelow, habove, hseparate⟩
      obtain ⟨hjobs, hnone⟩ := not_or.mp habove
      rw [not_not] at hjobs
      have hkept : kept s (movedAddresses l s) = [] := by
        refine List.filter_eq_nil_iff.mpr fun x hx hin => ?_
        have hle : x.fSeq ≤ l.maxFseq := Nat.not_lt.mp fun hlt => hnone ⟨x, hx, hlt⟩
        refine of_decide_eq_true hin (List.mem_map_of_mem (List.mem_filter.mpr ⟨hx, ?_⟩))
        exact decide_eq_true ⟨(hst x hx).1 hle, hle⟩
      rw [hjobs, hkept] at hperm
      obtain ⟨w2, hrun2, -⟩ := hempty (by simpa using hperm)
      exact ⟨w2, by rw [executePlan_cons hrun, executePlan, bind_apply, hrun2]⟩
    · obtain ⟨w1, hrun⟩ := h.cut_empty hcut hfind ho hbelow
      exact ⟨w1, by rw [executePlan, bind_apply, hrun]⟩
  · simp [hl] at hlow

theorem Progress.clean_of_run {gs : List Group} (h : Progress orig w ps qs gs)
    (hlow : ∀ g ∈ gs, g.lowers.length ≤ 1)
    (hfits : ∀ g ∈ gs, ∀ s, orig g.address = some s → g.Fits s.retrieveJobs)
    (hdistinct : ∀ g ∈ gs, ∀ s, orig g.address = some s →
      (s.retrieveJobs.map (·.address)).Nodup)
    (hb : ∀ g ∈ gs, ∀ e ∈ g.shards, ∀ j ∈ e.jobsToAdd, j.fSeq < 2^64)
    (hfind : ∀ gpre g gpost, gs = gpre ++ g :: gpost →
      plan.find? (fun sfa => sfa.address = some g.address) = some { g.source with
        shardIndex := ps.length + (gpre.flatMap Group.shards).length + g.lowers.length })
    {w' : Queue}
    (hrun : executePlan plan (numberFrom ps.length (gs.flatMap Group.shards)) w = .ok () w') :
    ∀ g ∈ gs, ∀ s, orig g.address = some s → g.Clean s := by
  induction gs generalizing w ps qs with
  | nil => simp
  | cons g gs ih =>
    obtain ⟨q, qs, rfl⟩ : ∃ q qs', qs = q :: qs' := by
      cases qs with
      | nil => simpa using h.addresses
      | cons q qs => exact ⟨q, qs, rfl⟩
    obtain ⟨s, ho, -⟩ := h.todo q List.mem_cons_self
    rw [h.head_address] at ho
    have hfg := hfind [] g gs rfl
    rw [List.flatMap_nil, List.length_nil, Nat.add_zero] at hfg
    rw [List.flatMap_cons, numberFrom_append] at hrun
    have hclean : g.Clean s := by
      by_contra hunclean
      obtain ⟨w1, hfails⟩ := h.unclean_group (r := numberFrom (ps.length + g.shards.length)
        (gs.flatMap Group.shards)) ho (hlow g List.mem_cons_self) hunclean
        (hfits g List.mem_cons_self s ho) (hdistinct g List.mem_cons_self s ho)
        (hb g List.mem_cons_self) hfg
      exact absurd (hrun.symm.trans hfails) (by simp)
    obtain ⟨w1, d1, hrun1, hprog, -, -, hdel⟩ := h.clean_group (r := numberFrom
      (ps.length + g.shards.length) (gs.flatMap Group.shards)) ho hclean
      (hfits g List.mem_cons_self s ho) (hb g List.mem_cons_self) hfg
    have hlen : (ps ++ pointersTo d1).length = ps.length + g.shards.length := by
      rw [List.length_append, pointersTo, List.length_map, hdel.within.length_eq]
    rw [hrun1, ← hlen] at hrun
    have hrest := ih hprog (fun x hx => hlow x (List.mem_cons_of_mem g hx))
      (fun x hx => hfits x (List.mem_cons_of_mem g hx))
      (fun x hx => hdistinct x (List.mem_cons_of_mem g hx))
      (fun x hx => hb x (List.mem_cons_of_mem g hx)) (by
        intro gpre x gpost hgs
        have hi : ps.length + ((g :: gpre).flatMap Group.shards).length + x.lowers.length =
            (ps ++ pointersTo d1).length + (gpre.flatMap Group.shards).length + x.lowers.length := by
          rw [hlen, List.flatMap_cons, List.length_append]
          omega
        rw [hfind (g :: gpre) x gpost (by simp [hgs]), hi]) hrun
    intro x hx t ht
    rcases List.mem_cons.mp hx with rfl | hx
    · rwa [← Option.some.inj (ho.symm.trans ht)]
    · exact hrest x hx t ht

end

theorem pointersTo_ordered {done : List (ShardAddress × RetrieveQueueShard)}
    {shards : List ShardForAddition} (hw : List.Forall₂ Within done shards)
    (hs : ∀ x ∈ done, Sound x.2)
    (ho : shards.Pairwise fun a b => a.maxFseq < b.minFseq) :
    (pointersTo done).Pairwise fun a b => a.maxFseq < b.minFseq := by
  induction hw with
  | nil => exact List.Pairwise.nil
  | @cons x e done shards hx hrest ih =>
    obtain ⟨he, ho'⟩ := List.pairwise_cons.mp ho
    rw [pointersTo, List.map_cons, List.pairwise_cons]
    refine ⟨?_, ih (fun y hy => hs y (List.mem_cons_of_mem x hy)) ho'⟩
    intro d hd
    obtain ⟨y, hy, rfl⟩ := List.mem_map.mp hd
    obtain ⟨e', he', hye⟩ := exists_of_forall₂ hrest hy
    obtain ⟨-, -, ⟨j, hj, hmax⟩⟩ := (hs x List.mem_cons_self).limits x.1
    obtain ⟨-, ⟨k, hk, hmin⟩, -⟩ := (hs y (List.mem_cons_of_mem x hy)).limits y.1
    have h1 := (hx j hj).2
    have h2 := (hye k hk).1
    have h3 := he e' he'
    omega

def CutsCleanly (w : Queue) (jobsToAdd : List JobToAdd) : Prop :=
  ∀ plan, planJobs w.memory jobsToAdd = some plan → ∀ l ∈ plan, ∀ e ∈ plan, ∀ a s,
    l.splitSource = some a → e.address = some a → w.stored.parts a = some s → CleanCut l e s

section
variable {w : Queue} {M : Multiset RetrieveJobPointer} {jobsToAdd : List JobToAdd}

theorem cutsCleanly_iff {gs : List Group}
    (hplan : planJobs w.memory jobsToAdd = some (gs.flatMap Group.shards))
    (hn : (gs.map Group.address).Nodup) (hlow : ∀ g ∈ gs, g.lowers.length ≤ 1) :
    CutsCleanly w jobsToAdd ↔ ∀ g ∈ gs, ∀ s, w.stored.parts g.address = some s → g.Clean s := by
  have hgroups : CutsCleanly w jobsToAdd ↔
      ∀ g ∈ gs, ∀ l ∈ g.lowers, ∀ s, w.stored.parts g.address = some s → CleanCut l g.source s := by
    rw [← cuts_iff hn]
    constructor
    · exact fun hclean => hclean _ hplan
    · intro hclean plan hp
      obtain rfl := Option.some.inj (hplan.symm.trans hp)
      exact hclean
  rw [hgroups]
  refine forall₂_congr fun g hg => ?_
  have hle := hlow g hg
  unfold Group.Clean
  rcases hl : g.lowers with _ | ⟨l, _ | ⟨l', ls⟩⟩
  · simp
  · simp
  · simp [hl] at hle

theorem Sane.plan (h : Sane w.memory w.stored.parts w.nextId M)
    (hne : w.memory.retrieveQueueShards ≠ []) (hj : ∀ j ∈ jobsToAdd, j.fSeq < 2^64 - 1)
    (honce : ((splits w.memory jobsToAdd).map (·.address)).Nodup) :
    ∃ gs : List Group, planJobs w.memory jobsToAdd = some (gs.flatMap Group.shards) ∧
      gs.map Group.address = w.memory.retrieveQueueShards.map (·.address) ∧
      (∀ g ∈ gs, g.lowers.length ≤ 1) ∧
      (∀ g ∈ gs, ∀ s, w.stored.parts g.address = some s → g.Fits s.retrieveJobs) ∧
      (gs.flatMap Group.planned).Perm jobsToAdd ∧ Ordered (gs.flatMap Group.shards) := by
  have hstart : ∀ g ∈ w.memory.retrieveQueueShards.map groupOf,
      ∀ s, w.stored.parts g.address = some s → g.Fits s.retrieveJobs := by
    intro g hg s hs
    obtain ⟨q, hq, rfl⟩ := List.mem_map.mp hg
    obtain ⟨t, ht, -, hd⟩ := h.described q hq
    obtain rfl : s = t := Option.some.inj (hs.symm.trans ht)
    refine ⟨(h.ranges.bounded q hq).1, hd.bound, ?_, hd.limits⟩
    simp [PlannedInRange, groupOf, ofPointer]
  obtain ⟨gs, h1, h2, h3, h4, h5⟩ := plan_steps (m := w.memory.maxShardSize)
    (P := fun g => ∀ s, w.stored.parts g.address = some s → g.Fits s.retrieveJobs)
    (fun j hj' g g' hstep hg s hs => hstep.fits (hj j hj') (hg s (hstep.address_eq ▸ hs)))
    (by simpa using hne) hstart
  have haddr : gs.map Group.address = w.memory.retrieveQueueShards.map (·.address) := by
    rw [h2, List.map_map]
    rfl
  have hplan : planJobs w.memory jobsToAdd = some (gs.flatMap Group.shards) := by
    rw [planJobs, initialPlan_groups h.ranges, h1]
  have hlow : ∀ g ∈ gs, g.lowers.length ≤ 1 := by
    rw [← nodup_splitAddresses (haddr ▸ h.nodup), h5.nodup_iff, splitAddresses_groupOf,
      List.nil_append, ← initialPlan_groups h.ranges]
    exact honce
  refine ⟨gs, hplan, haddr, hlow, h3, ?_, ?_⟩
  · simpa [planned_groupOf] using h4
  · have hinit : Ordered (initialPlan w.memory) := by
      rw [initialPlan, orderLimits_ofPointer h.ranges (by simp)]
      refine ⟨List.pairwise_map.mpr h.ordered, ?_⟩
      intro e he
      obtain ⟨q, hq, rfl⟩ := List.mem_map.mp he
      obtain ⟨s, -, -, hd⟩ := h.described q hq
      have := (h.ranges.bounded q hq).1
      have := hd.bound
      simp only [ofPointer]
      omega
    have hne' : initialPlan w.memory ≠ [] := by
      rw [initialPlan, orderLimits_ofPointer h.ranges (by simp)]
      simpa using hne
    refine hinit.plan hne' hj ?_ hplan
    rw [initialPlan_groups h.ranges]
    refine splitsFrom_spans (by simpa using hne) ?_ ?_
    · intro g hg hnil
      obtain ⟨q, hq, rfl⟩ := List.mem_map.mp hg
      exact (h.ranges.bounded q hq).1
    · rw [splitAddresses_groupOf, List.nil_append, ← initialPlan_groups h.ranges]
      exact honce

theorem Delivered.sane {w' : Queue} {orig : ShardAddress → Option RetrieveQueueShard}
    {planned : List JobToAdd} {shards : List ShardForAddition} {old : List RetrieveJobPointer}
    {done : List (ShardAddress × RetrieveQueueShard)} (d : Delivered w w' planned shards old done)
    (hprog : Progress orig w' (pointersTo done) [] []) (ho : Ordered shards)
    (honly : ∀ a s, w.stored.parts a = some s → a ∈ done.map Prod.fst)
    (hold : (old : Multiset RetrieveJobPointer) = M) (hplanned : planned.Perm jobsToAdd)
    (hb : Booked w.memory M) :
    Sane w'.memory w'.stored.parts w'.nextId (M + jobsToAdd.map JobToAdd.toPointer) := by
  have hps : w'.memory.retrieveQueueShards = pointersTo done := by
    rw [hprog.pointers, List.append_nil]
  have haddr : (pointersTo done).map (·.address) = done.map Prod.fst := by
    simp [pointersTo, pointerTo, Function.comp_def]
  have hjobs : (jobsIn done : Multiset RetrieveJobPointer) =
      M + jobsToAdd.map JobToAdd.toPointer := by
    rw [← hold, add_comm, Multiset.coe_add]
    exact Multiset.coe_eq_coe.mpr (d.jobs.trans ((hplanned.map _).append_right _))
  obtain ⟨hs1, hs2⟩ := sum_pointersTo fun x hx => (d.sound x hx).coherent
  have hdes : ∀ x ∈ done, Describes (pointerTo x.1 x.2) x.2 := by
    intro x hx
    obtain ⟨hall, -, ⟨y, hy, hmax⟩⟩ := (d.sound x hx).limits x.1
    obtain ⟨e, he, hw⟩ := exists_of_forall₂ d.within hx
    have h1 := (hw y hy).2
    have h2 := (ho.bounded e he).2
    exact ⟨rfl, rfl, hall, by omega⟩
  refine ⟨?_, ?_, ?_, ?_, ?_, ?_, ?_, ?_, ?_⟩
  · simpa [hps] using hprog.nodup
  · simpa [hps] using hprog.fresh
  · intro a s hs
    rw [hps, haddr]
    by_contra hn
    exact hn (honly a s (by rwa [← d.others a hn]))
  · rw [hps]
    intro q hq
    obtain ⟨x, hx, rfl⟩ := List.mem_map.mp hq
    exact ⟨x.2, d.stored x hx, d.sound x hx, hdes x hx⟩
  · rw [hps]
    exact pointersTo_ordered d.within d.sound ho.strict
  · rw [hps, found_pointersTo d.stored]
    exact hjobs
  · rw [hprog.consistent.count, hps, hs2, ← hjobs, Multiset.coe_card]
  · rw [hprog.consistent.size, hps, hs1, ← hjobs, sum_coe_size]
  · have hbk := d.accounted.booked M hb
    rwa [show ((planned.map JobToAdd.toPointer : List RetrieveJobPointer) :
      Multiset RetrieveJobPointer) = jobsToAdd.map JobToAdd.toPointer from
        Multiset.coe_eq_coe.mpr (hplanned.map _)] at hbk

/-- Pointers say exactly what their shards hold, limits included. -/
def PointersExact (p : RetrieveQueue) (parts : ShardAddress → Option RetrieveQueueShard) : Prop :=
  ∀ q ∈ p.retrieveQueueShards, ∃ s, parts q.address = some s ∧ q = pointerTo q.address s

theorem Sane.progress (h : Sane w.memory w.stored.parts w.nextId M) {gs : List Group}
    (hgs : gs.map Group.address = w.memory.retrieveQueueShards.map (·.address)) :
    Progress w.stored.parts w [] w.memory.retrieveQueueShards gs := by
  refine ⟨rfl, hgs.symm, h.nodup, h.fresh, by simp, ?_, h.consistent⟩
  intro q hq
  obtain ⟨s, hs, hsound, hd⟩ := h.described q hq
  exact ⟨s, hs, hs, hsound, hd.count, hd.bytes⟩

theorem planned_lt {gs : List Group} {b : Nat} (hperm : (gs.flatMap Group.planned).Perm jobsToAdd)
    (hj : ∀ j ∈ jobsToAdd, j.fSeq < b) : ∀ g ∈ gs, ∀ e ∈ g.shards, ∀ j ∈ e.jobsToAdd, j.fSeq < b := by
  intro g hg e he j hje
  have hjp : j ∈ gs.flatMap Group.planned :=
    List.mem_flatMap.mpr ⟨g, hg, List.mem_flatMap.mpr ⟨e, he, hje⟩⟩
  exact hj j (hperm.mem_iff.mp hjp)

theorem Sane.add (h : Sane w.memory w.stored.parts w.nextId M) (hroot : w.stored.root = w.memory)
    (hne : jobsToAdd ≠ []) (hj : ∀ j ∈ jobsToAdd, j.fSeq < 2^64 - 1)
    (honce : ((splits w.memory jobsToAdd).map (·.address)).Nodup)
    (hclean : CutsCleanly w jobsToAdd) :
    ∃ w', addJobsAndCommit jobsToAdd w = .ok () w' ∧ w'.stored.root = w'.memory ∧
      Sane w'.memory w'.stored.parts w'.nextId (M + jobsToAdd.map JobToAdd.toPointer) ∧
      PointersExact w'.memory w'.stored.parts ∧
      ∃ planned, planned.Perm jobsToAdd ∧ Accounted w.memory w'.memory planned := by
  have hj' : ∀ j ∈ jobsToAdd, j.fSeq < 2^64 :=
    fun j hj' => Nat.lt_of_lt_of_le (hj j hj') (by decide)
  have hexact : ∀ {w' : Queue} {done : List (ShardAddress × RetrieveQueueShard)},
      w'.memory.retrieveQueueShards = pointersTo done →
      (∀ x ∈ done, w'.stored.parts x.1 = some x.2) →
      PointersExact w'.memory w'.stored.parts := by
    intro w' done hps hst q hq
    rw [hps] at hq
    obtain ⟨x, hx, rfl⟩ := List.mem_map.mp hq
    exact ⟨x.2, hst x hx, rfl⟩
  by_cases hnil : w.memory.retrieveQueueShards = []
  · obtain ⟨j, js, rfl⟩ := List.exists_cons_of_ne_nil hne
    obtain ⟨e, hp, hjobs, hnew, hf, -, -⟩ := planJobs_empty hnil j js
    obtain ⟨s, p, w', hs, hperm, hrun, hmem, hstored, hnext, -, hps, hcons, -,
        haccounted⟩ :=
      h.consistent.first_shard hnil (e := { e with shardIndex := 0 }) hnew hf rfl
        (by simp [hjobs]) (by simpa only [hjobs] using hj') (numberFrom 0 [e])
    have hexec : executePlan (numberFrom 0 [e]) (numberFrom 0 [e]) w = .ok () w' :=
      executePlan_cons hrun
    have hM : M = 0 := by
      rw [← h.content, hnil]
      rfl
    let range : ShardForAddition := { e with
      minFseq := (pointerTo w.nextId s).minFseq, maxFseq := (pointerTo w.nextId s).maxFseq }
    obtain ⟨hall, -, ⟨y, hy, hmax⟩⟩ := hs.limits w.nextId
    have hylt : y.fSeq < 2^64 - 1 := by
      obtain ⟨i, hi, rfl⟩ := List.mem_map.mp (hperm.mem_iff.mp hy)
      exact hj i (by simpa only [hjobs] using hi)
    have hd : Delivered w w' (j :: js) [range] [] [(w.nextId, s)] := by
      refine ⟨?_, by simpa using hs, ?_, .cons hall .nil, ?_, ?_⟩
      · simp [hstored]
      · intro a ha
        have hne' : a ≠ w.nextId := by simpa using ha
        simp [hstored, Function.update_of_ne hne']
      · simpa [jobsIn, hjobs] using hperm
      · rw [hmem, ← hjobs]
        exact haccounted
    have hprog : Progress w.stored.parts w' (pointersTo [(w.nextId, s)]) [] [] := by
      refine ⟨?_, rfl, by simp [pointersTo], ?_, ?_, by simp, by rw [hmem]; exact hcons⟩
      · rw [hmem, hps]
        simp [pointersTo]
      · simp [pointersTo, pointerTo, hnext]
      · simpa [pointersTo, pointerTo, hstored] using hs
    have hle : range.minFseq ≤ range.maxFseq := by
      have := hall y hy
      simp only [range]
      omega
    have hmax' : range.maxFseq < 2^64 - 1 := by
      simp only [range]
      omega
    refine ⟨w', ?_, by rw [hstored, hmem], hd.sane hprog ⟨by simp, ?_⟩ ?_ ?_
      (List.Perm.refl _) h.booked, hexact (by rw [hmem, hps]; rfl) hd.stored, j :: js,
      List.Perm.refl _, hd.accounted⟩
    · rw [addJobsAndCommit_apply hne hp, hexec]
    · intro x hx
      rw [List.mem_singleton.mp hx]
      omega
    · intro a t ht
      have := h.only a t ht
      simp [hnil] at this
    · rw [hM]
      rfl
  · obtain ⟨gs, hplan, haddr, hlow, hfits, hperm, hord⟩ := h.plan hnil hj honce
    have hn : (gs.map Group.address).Nodup := haddr ▸ h.nodup
    have hgood := (cutsCleanly_iff hplan hn hlow).mp hclean
    obtain ⟨w', done, hrun, hprog', hroot', hmem, hdel⟩ := (h.progress haddr).clean_groups hroot
      (fun g hg s hs => ⟨hgood g hg s hs, hfits g hg s hs⟩)
      (planned_lt hperm hj') (find_source hn)
    rw [List.nil_append] at hprog'
    refine ⟨w', ?_, hroot', hdel.sane hprog' hord ?_ h.content hperm h.booked,
      hexact (by rw [hprog'.pointers, List.append_nil]) hdel.stored, _, hperm, hdel.accounted⟩
    · rw [addJobsAndCommit_apply hne hplan]
      exact hrun
    · intro a s hs
      have ha := h.only a s hs
      rw [← haddr] at ha
      obtain ⟨g, hg, rfl⟩ := List.mem_map.mp ha
      exact hmem g hg

/-- When the queued requests are distinct, an addition that returns made clean cuts only. -/
theorem Sane.clean_of_add (h : Sane w.memory w.stored.parts w.nextId M) (hne : jobsToAdd ≠ [])
    (hj : ∀ j ∈ jobsToAdd, j.fSeq < 2^64 - 1)
    (honce : ((splits w.memory jobsToAdd).map (·.address)).Nodup)
    (hdistinct : (M.map (·.address)).Nodup) {w' : Queue}
    (hrun : addJobsAndCommit jobsToAdd w = .ok () w') : CutsCleanly w jobsToAdd := by
  by_cases hnil : w.memory.retrieveQueueShards = []
  · obtain ⟨j, js, rfl⟩ := List.exists_cons_of_ne_nil hne
    obtain ⟨e, hp, -, -, -, hsrc, -⟩ := planJobs_empty hnil j js
    intro plan hplan l hl e' _ a s hla
    obtain rfl : [e] = plan := Option.some.inj (hp.symm.trans hplan)
    rw [List.mem_singleton.mp hl, hsrc] at hla
    simp at hla
  · obtain ⟨gs, hplan, haddr, hlow, hfits, hperm, -⟩ := h.plan hnil hj honce
    have hn : (gs.map Group.address).Nodup := haddr ▸ h.nodup
    rw [addJobsAndCommit_apply hne hplan] at hrun
    refine (cutsCleanly_iff hplan hn hlow).mpr ?_
    refine (h.progress haddr).clean_of_run hlow hfits ?_
      (planned_lt hperm fun j hj' => Nat.lt_of_lt_of_le (hj j hj') (by decide)) (find_source hn) hrun
    intro g hg s hs
    obtain ⟨q, hq, hqa⟩ := List.mem_map.mp (haddr ▸ List.mem_map_of_mem hg)
    have hsub : s.retrieveJobs.Sublist (jobsIn (found w.stored.parts w.memory.retrieveQueueShards)) :=
      jobs_sublist hq (hqa ▸ hs)
    rw [← h.content, Multiset.map_coe, Multiset.coe_nodup] at hdistinct
    exact (hsub.map _).nodup hdistinct

end

end Cta.ObjectStore.RetrieveQueue
