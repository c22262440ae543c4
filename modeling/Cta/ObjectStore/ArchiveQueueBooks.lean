import Cta.Lib.Transactions
import Cta.ObjectStore.ArchiveQueue
import Mathlib.Algebra.BigOperators.Group.Multiset.Basic

/-! What the summaries of an archive queue should be, and how they follow additions and
removals of jobs. -/
namespace Cta.ObjectStore.ArchiveQueue
open StoreError ValueCountMap Cta.Lib.Sequence Cta.Lib.PartedStore
open Cta.Lib.Transactions (except_bind_eq_ok)
open ArchiveQueueShard (jobFields)
open ShardRemoval (bytes bytes_append bytes_perm keptOf goneOf)

structure Extremes (times : List Int64) (oldest youngest : Int64) : Prop where
  oldest_mem : oldest ∈ times
  oldest_le : ∀ t ∈ times, oldest ≤ t
  youngest_mem : youngest ∈ times
  le_youngest : ∀ t ∈ times, t ≤ youngest

/-- A time that the unsigned comparisons and the initial values handle. -/
def InRange (t : Int64) : Prop := 0 ≤ t ∧ t < Int64.maxValue

instance InRange.decidable (t : Int64) : Decidable (InRange t) :=
  inferInstanceAs (Decidable (0 ≤ t ∧ t < Int64.maxValue))

theorem lt_iff_toInt64_lt {x y : UInt64} (hx : 0 ≤ x.toInt64) (hy : 0 ≤ y.toInt64) :
    x < y ↔ x.toInt64 < y.toInt64 := by
  have hto : ∀ z : UInt64, z.toInt64.toInt = z.toBitVec.toInt := fun z => rfl
  rw [UInt64.lt_iff_toNat_lt, Int64.lt_iff_toInt_lt, hto, hto]
  rw [Int64.le_iff_toInt_le, hto] at hx hy
  simp only [BitVec.toInt, UInt64.toNat_toBitVec, Int64.toInt_zero] at hx hy ⊢
  have := x.toNat_lt
  have := y.toNat_lt
  split_ifs at hx hy ⊢ <;> omega

theorem StartTimes.foldl_note (times : List Int64) (t : StartTimes) :
    ((times.foldl note t).oldest ∈ t.oldest :: times ∧
      ∀ u ∈ t.oldest :: times, (times.foldl note t).oldest ≤ u) ∧
    ((times.foldl note t).youngest ∈ t.youngest :: times ∧
      ∀ u ∈ t.youngest :: times, u ≤ (times.foldl note t).youngest) := by
  induction times generalizing t with
  | nil => simp
  | cons u times ih =>
    obtain ⟨⟨h1, h2⟩, h3, h4⟩ := ih (t.note u)
    have hold : (t.note u).oldest = t.oldest ∧ t.oldest ≤ u ∨
        (t.note u).oldest = u ∧ u ≤ t.oldest := by
      by_cases h : u < t.oldest
      · exact .inr ⟨if_pos h, Int64.le_of_lt h⟩
      · exact .inl ⟨if_neg h, Int64.not_lt.mp h⟩
    have hyoung : (t.note u).youngest = t.youngest ∧ u ≤ t.youngest ∨
        (t.note u).youngest = u ∧ t.youngest ≤ u := by
      by_cases h : t.youngest < u
      · exact .inr ⟨if_pos h, Int64.le_of_lt h⟩
      · exact .inl ⟨if_neg h, Int64.not_lt.mp h⟩
    rw [List.foldl_cons]
    simp only [List.mem_cons, forall_eq_or_imp] at h1 h2 h3 h4 ⊢
    refine ⟨⟨?_, ?_, ?_, h2.2⟩, ?_, ?_, ?_, h4.2⟩
    · rcases hold with ⟨he, -⟩ | ⟨he, -⟩ <;> rw [he] at h1
      · exact h1.imp_right .inr
      · exact .inr h1
    · rcases hold with ⟨he, hle⟩ | ⟨he, hle⟩ <;> rw [he] at h2
      · exact h2.1
      · exact Int64.le_trans h2.1 hle
    · rcases hold with ⟨he, hle⟩ | ⟨he, hle⟩ <;> rw [he] at h2
      · exact Int64.le_trans h2.1 hle
      · exact h2.1
    · rcases hyoung with ⟨he, -⟩ | ⟨he, -⟩ <;> rw [he] at h3
      · exact h3.imp_right .inr
      · exact .inr h3
    · rcases hyoung with ⟨he, hle⟩ | ⟨he, hle⟩ <;> rw [he] at h4
      · exact h4.1
      · exact Int64.le_trans hle h4.1
    · rcases hyoung with ⟨he, hle⟩ | ⟨he, hle⟩ <;> rw [he] at h4
      · exact Int64.le_trans hle h4.1
      · exact h4.1

theorem StartTimes.foldl_note_extremes {times : List Int64} (hne : times ≠ [])
    (hr : ∀ t ∈ times, InRange t) :
    Extremes times (times.foldl note {}).oldest (times.foldl note {}).youngest ∧
      (times.foldl note {}).oldest ≠ Int64.maxValue ∧
      (times.foldl note {}).youngest ≠ Int64.minValue := by
  obtain ⟨⟨h1, h2⟩, h3, h4⟩ := foldl_note times {}
  obtain ⟨u, hu⟩ := List.exists_mem_of_ne_nil times hne
  have hold : (times.foldl note {}).oldest ≠ Int64.maxValue := by
    intro he
    have hle := h2 u (List.mem_cons_of_mem _ hu)
    rw [he] at hle
    exact Int64.not_lt.mpr hle (hr u hu).2
  have hyoung : (times.foldl note {}).youngest ≠ Int64.minValue := by
    intro he
    have hle := Int64.le_trans (hr u hu).1 (h4 u (List.mem_cons_of_mem _ hu))
    rw [he] at hle
    exact absurd hle (by decide)
  refine ⟨⟨?_, fun t ht => h2 t (List.mem_cons_of_mem _ ht), ?_,
    fun t ht => h4 t (List.mem_cons_of_mem _ ht)⟩, hold, hyoung⟩
  · exact (List.mem_cons.mp h1).resolve_left hold
  · exact (List.mem_cons.mp h3).resolve_left hyoung

def timesOf (jobs : List ArchiveJobPointer) : List Int64 := jobs.map (·.startTime.toInt64)

/-- When there is a job, the creation times are the extreme start times. -/
def Timed (p : ArchiveQueue) (jobs : List ArchiveJobPointer) : Prop :=
  jobs ≠ [] → Extremes (timesOf jobs) p.oldestJobCreationTime.toInt64
    p.youngestJobCreationTime.toInt64

theorem Extremes.congr {l l' : List Int64} {oldest youngest : Int64}
    (h : Extremes l oldest youngest) (hmem : ∀ t, t ∈ l ↔ t ∈ l') : Extremes l' oldest youngest where
  oldest_mem := (hmem _).mp h.oldest_mem
  oldest_le t ht := h.oldest_le t ((hmem t).mpr ht)
  youngest_mem := (hmem _).mp h.youngest_mem
  le_youngest t ht := h.le_youngest t ((hmem t).mpr ht)

theorem Extremes.of_append {l r : List Int64} {oldest youngest : Int64}
    (h : Extremes (l ++ r) oldest youngest) (hr : ∀ t ∈ r, oldest < t ∧ t < youngest) :
    Extremes l oldest youngest where
  oldest_mem := (List.mem_append.mp h.oldest_mem).resolve_right fun hm =>
    Int64.lt_irrefl (hr _ hm).1
  oldest_le t ht := h.oldest_le t (List.mem_append_left r ht)
  youngest_mem := (List.mem_append.mp h.youngest_mem).resolve_right fun hm =>
    Int64.lt_irrefl (hr _ hm).2
  le_youngest t ht := h.le_youngest t (List.mem_append_left r ht)

theorem Extremes.singleton (t : Int64) : Extremes [t] t t where
  oldest_mem := List.mem_singleton_self t
  oldest_le := by simp
  youngest_mem := List.mem_singleton_self t
  le_youngest := by simp

theorem Extremes.push {times : List Int64} {oldest youngest t : UInt64}
    (h : Extremes times oldest.toInt64 youngest.toInt64) (hr : ∀ u ∈ times, 0 ≤ u)
    (ht : 0 ≤ t.toInt64) :
    Extremes (times ++ [t.toInt64]) (if t < oldest then t else oldest).toInt64
      (if youngest < t then t else youngest).toInt64 := by
  have hold := lt_iff_toInt64_lt ht (hr _ h.oldest_mem)
  have hyoung := lt_iff_toInt64_lt (hr _ h.youngest_mem) ht
  have hlow : (if t < oldest then t else oldest).toInt64 ≤ t.toInt64 ∧
      (if t < oldest then t else oldest).toInt64 ≤ oldest.toInt64 := by
    by_cases hlt : t < oldest
    · rw [if_pos hlt]
      exact ⟨Int64.le_refl _, Int64.le_of_lt (hold.mp hlt)⟩
    · rw [if_neg hlt]
      exact ⟨Int64.not_lt.mp (mt hold.mpr hlt), Int64.le_refl _⟩
  have hhigh : t.toInt64 ≤ (if youngest < t then t else youngest).toInt64 ∧
      youngest.toInt64 ≤ (if youngest < t then t else youngest).toInt64 := by
    by_cases hlt : youngest < t
    · rw [if_pos hlt]
      exact ⟨Int64.le_refl _, Int64.le_of_lt (hyoung.mp hlt)⟩
    · rw [if_neg hlt]
      exact ⟨Int64.not_lt.mp (mt hyoung.mpr hlt), Int64.le_refl _⟩
  constructor
  · by_cases hlt : t < oldest
    · simp [hlt]
    · simp [hlt, h.oldest_mem]
  · intro u hu
    cases List.mem_append.mp hu with
    | inl hu => exact Int64.le_trans hlow.2 (h.oldest_le u hu)
    | inr hu => rw [List.mem_singleton.mp hu]; exact hlow.1
  · by_cases hlt : youngest < t
    · simp [hlt]
    · simp [hlt, h.youngest_mem]
  · intro u hu
    cases List.mem_append.mp hu with
    | inl hu => exact Int64.le_trans (h.le_youngest u hu) hhigh.2
    | inr hu => rw [List.mem_singleton.mp hu]; exact hhigh.1

structure Counted (p : ArchiveQueue) (jobs : Multiset ArchiveJobPointer) : Prop where
  priority : Counts p.priorityMap (jobs.map (·.priority))
  age : Counts p.minArchiveRequestAgeMap (jobs.map (·.minArchiveRequestAge))
  policy : Counts p.mountPolicyNameMap (jobs.map (·.mountPolicyName))

/-- The maps and the totals are those of a list of jobs. -/
structure Booked (p : ArchiveQueue) (jobs : List ArchiveJobPointer) : Prop where
  counted : Counted p jobs
  count : p.archiveJobsCount = jobs.length
  size : p.archiveJobsTotalSize = bytes jobFields jobs

theorem check_booked {p : ArchiveQueue} {jobs : List ArchiveJobPointer} (h : Booked p jobs)
    (hsize : (p.archiveQueueShards.map (·.shardBytesCount)).sum = bytes jobFields jobs)
    (hcount : (p.archiveQueueShards.map (·.shardJobsCount)).sum = jobs.length) :
    checkMapsAndShardsCoherency p = .ok true := by
  have h1 : p.priorityMap.total = .ok jobs.length := by simpa using total_counts h.counted.priority
  have h2 : p.minArchiveRequestAgeMap.total = .ok jobs.length := by
    simpa using total_counts h.counted.age
  have h3 : p.mountPolicyNameMap.total = .ok jobs.length := by
    simpa using total_counts h.counted.policy
  simp [checkMapsAndShardsCoherency, hsize, hcount, h.size, h.count, h1, h2, h3, bind, Except.bind,
    pure, Except.pure]

theorem commit_coherent {w : Queue} (h : checkMapsAndShardsCoherency w.memory = .ok true) :
    commit w = .ok () (w.write { w.stored with root := w.memory }) := by
  simp [commit, h, commitRoot]

theorem accountJob_booked {p : ArchiveQueue} {jobs : List ArchiveJobPointer} (h : Booked p jobs)
    (j : JobToAdd) :
    ∃ p', accountJob p j = .ok p' ∧ Booked p' (jobs ++ [j.toPointer]) ∧
      p'.archiveQueueShards = p.archiveQueueShards := by
  have hsnoc : ((jobs ++ [j.toPointer] : List ArchiveJobPointer) : Multiset ArchiveJobPointer) =
      j.toPointer ::ₘ jobs := by
    rw [← Multiset.coe_add, add_comm]
    rfl
  obtain ⟨m1, e1, c1⟩ := incCount_counts j.policy.archivePriority h.counted.priority
  obtain ⟨m2, e2, c2⟩ := incCount_counts j.policy.archiveMinRequestAge h.counted.age
  obtain ⟨m3, e3, c3⟩ := incCount_counts j.policy.name h.counted.policy
  have hcounted : ∀ p' : ArchiveQueue, p'.priorityMap = m1 → p'.minArchiveRequestAgeMap = m2 →
      p'.mountPolicyNameMap = m3 →
      Counted p' (jobs ++ [j.toPointer] : List ArchiveJobPointer) := by
    rintro p' rfl rfl rfl
    rw [hsnoc]
    refine ⟨?_, ?_, ?_⟩ <;> rw [Multiset.map_cons]
    · exact c1
    · exact c2
    · exact c3
  by_cases hnil : jobs = []
  · subst hnil
    have hcount : p.archiveJobsCount = 0 := h.count
    refine ⟨{ p with
      priorityMap := m1
      minArchiveRequestAgeMap := m2
      mountPolicyNameMap := m3
      oldestJobCreationTime := j.startTime.toUInt64
      youngestJobCreationTime := j.startTime.toUInt64
      archiveJobsTotalSize := j.fileSize
      archiveJobsCount := p.archiveJobsCount + 1 }, ?_, ⟨hcounted _ rfl rfl rfl, ?_, ?_⟩, rfl⟩
    · simp only [accountJob, e1, e2, e3, bind, Except.bind, hcount, ne_eq, not_true_eq_false,
        if_false]
      rfl
    · simp [hcount]
    · simp [bytes, jobFields, JobToAdd.toPointer]
  · have hcount : p.archiveJobsCount ≠ 0 := by
      rw [h.count]
      exact fun h0 => hnil (List.length_eq_zero_iff.mp h0)
    refine ⟨{ p with
      priorityMap := m1
      minArchiveRequestAgeMap := m2
      mountPolicyNameMap := m3
      oldestJobCreationTime := if j.startTime.toUInt64 < p.oldestJobCreationTime then
        j.startTime.toUInt64 else p.oldestJobCreationTime
      youngestJobCreationTime := if p.youngestJobCreationTime < j.startTime.toUInt64 then
        j.startTime.toUInt64 else p.youngestJobCreationTime
      archiveJobsTotalSize := p.archiveJobsTotalSize + j.fileSize
      archiveJobsCount := p.archiveJobsCount + 1 }, ?_, ⟨hcounted _ rfl rfl rfl, ?_, ?_⟩, rfl⟩
    · simp only [accountJob, e1, e2, e3, bind, Except.bind, if_pos hcount]
      rfl
    · simp [h.count]
    · simp [h.size, bytes, jobFields, JobToAdd.toPointer]

theorem accountJob_timed {p p' : ArchiveQueue} {jobs : List ArchiveJobPointer} {j : JobToAdd}
    (h : Booked p jobs) (ht : Timed p jobs) (hr : ∀ t ∈ timesOf jobs, InRange t)
    (hj : InRange j.startTime) (he : accountJob p j = .ok p') :
    Timed p' (jobs ++ [j.toPointer]) := by
  obtain ⟨m1, -, he⟩ := except_bind_eq_ok.mp he
  obtain ⟨m2, -, he⟩ := except_bind_eq_ok.mp he
  obtain ⟨m3, -, he⟩ := except_bind_eq_ok.mp he
  intro _
  by_cases hnil : jobs = []
  · subst hnil
    have hcount : p.archiveJobsCount = 0 := h.count
    simp only [hcount, ne_eq, not_true_eq_false, if_false] at he
    obtain rfl := Except.ok.inj he
    simpa [timesOf, JobToAdd.toPointer] using Extremes.singleton j.startTime
  · have hcount : p.archiveJobsCount ≠ 0 := by
      rw [h.count]
      exact fun h0 => hnil (List.length_eq_zero_iff.mp h0)
    rw [if_pos hcount] at he
    obtain rfl := Except.ok.inj he
    have hpush := (ht hnil).push (fun u hu => (hr u hu).1) (t := j.startTime.toUInt64)
      (by simpa using hj.1)
    simpa [timesOf, JobToAdd.toPointer] using hpush

theorem forgetJob_counted {p : ArchiveQueue} {j : ArchiveJobPointer}
    {M : Multiset ArchiveJobPointer} (h : Counted p (j ::ₘ M)) :
    ∃ p', forgetJob p j.toInfo = .ok p' ∧ Counted p' M ∧ p' = { p with
      priorityMap := p'.priorityMap
      minArchiveRequestAgeMap := p'.minArchiveRequestAgeMap
      mountPolicyNameMap := p'.mountPolicyNameMap } := by
  obtain ⟨m1, e1, c1⟩ := decCount_cons (by simpa using h.priority)
  obtain ⟨m2, e2, c2⟩ := decCount_cons (by simpa using h.age)
  obtain ⟨m3, e3, c3⟩ := decCount_cons (by simpa using h.policy)
  refine ⟨{ p with priorityMap := m1, minArchiveRequestAgeMap := m2, mountPolicyNameMap := m3 },
    ?_, ⟨c1, c2, c3⟩, rfl⟩
  simp [forgetJob, ArchiveJobPointer.toInfo, e1, e2, e3, bind, Except.bind, pure, Except.pure]

theorem forgetJobs_counted (out : List ArchiveJobPointer) {p : ArchiveQueue}
    {M : Multiset ArchiveJobPointer} (h : Counted p (out + M)) :
    ∃ p', (out.map ArchiveJobPointer.toInfo).foldlM forgetJob p = .ok p' ∧ Counted p' M ∧
      p' = { p with
        priorityMap := p'.priorityMap
        minArchiveRequestAgeMap := p'.minArchiveRequestAgeMap
        mountPolicyNameMap := p'.mountPolicyNameMap } := by
  induction out generalizing p with
  | nil => exact ⟨p, rfl, by simpa using h, rfl⟩
  | cons j out ih =>
    rw [← Multiset.cons_coe, Multiset.cons_add] at h
    obtain ⟨p1, e1, c1, s1⟩ := forgetJob_counted h
    obtain ⟨p2, e2, c2, s2⟩ := ih c1
    refine ⟨p2, ?_, c2, ?_⟩
    · rw [List.map_cons, List.foldlM_cons, e1]
      exact e2
    · rw [s2, s1]

end Cta.ObjectStore.ArchiveQueue
