import Cta.ObjectStore.RetrieveQueueShard

/-! The two ways to add a batch to a shard of a retrieve queue, and the bisection that chooses
between them. -/
namespace Cta.ObjectStore.RetrieveQueueShard
open Cta.Lib.SortedByKey RetrieveQueue

def SameReversed (jobs : List RetrieveJobPointer) : Prop :=
  ∀ fSeq, (jobs.filter fun p => p.fSeq = fSeq).reverse = jobs.filter fun p => p.fSeq = fSeq

/-- The search ends with the number of jobs to pass, both insertions sort the batch in, and they
leave the same shard. -/
structure SameInsertion (s : RetrieveQueueShard) (jobsToAdd : List JobToAdd) : Prop where
  terminates : (s.addJobsBatch jobsToAdd).isSome
  bisection : ∀ j, jobsToAdd.head? = some j → countToPass s.retrieveJobs j.fSeq =
    some (s.retrieveJobs.countP fun p => j.fSeq < p.fSeq)
  sorted : SortedBy (·.fSeq) (s.addJobsInPlace jobsToAdd).retrieveJobs
  added : (s.addJobsInPlace jobsToAdd).retrieveJobs.Perm
    (s.retrieveJobs ++ jobsToAdd.map JobToAdd.toPointer)
  same : s.addJobsInPlace jobsToAdd = s.addJobsThroughCopy jobsToAdd

theorem bisect_eq {f : Nat → Nat} {N limit T : Nat} (hT : ∀ i < N, limit < f i ↔ T ≤ i)
    (hTN : T ≤ N) {fuel iminmin iminmax imin Np : Nat} (hmin : iminmin < N) (hmax : 0 < iminmax)
    (hmaxN : iminmax < N) (hpos : 0 < imin) (himin : imin < N)
    (h : bisect f N limit fuel iminmin iminmax imin = some Np) : Np = N - T := by
  induction fuel generalizing iminmin iminmax imin with
  | zero => simp [bisect] at h
  | succ fuel ih =>
    have hat := hT imin himin
    have hfirst := hT 0 (by omega)
    have hlast := hT (N - 1) (by omega)
    unfold bisect at h
    by_cases habove : limit < f imin
    · simp only [if_pos habove] at h
      split_ifs at h with hzero hle
      · have := Option.some.inj h
        omega
      · have := Option.some.inj h
        omega
      · exact ih hmin hpos himin (by omega) (by omega) h
    · simp only [if_neg habove] at h
      split_ifs at h with hend hle hnext hlast'
      · have := Option.some.inj h
        omega
      · have := Option.some.inj h
        omega
      · have hat' := hT (imin + 1) (by omega)
        have := Option.some.inj h
        omega
      · have hat' := hT (imin + 1) (by omega)
        have := Option.some.inj h
        omega
      · exact ih himin hmax hmaxN (by omega) (by omega) h

theorem fSeqAt_append {jobs : List RetrieveJobPointer} {i : Nat} (hi : i < jobs.length) :
    fSeqAt jobs i = jobs[i].fSeq := by
  simp [fSeqAt, hi]

theorem lt_fSeqAt_iff {jobs : List RetrieveJobPointer} (hs : SortedBy (·.fSeq) jobs) (limit : Nat)
    {i : Nat} (hi : i < jobs.length) :
    limit < fSeqAt jobs i ↔ upperBound (·.fSeq) limit jobs ≤ i := by
  rw [fSeqAt_append hi]
  constructor
  · intro hlt
    by_contra hnot
    have hmem : jobs[i] ∈ jobs.take (upperBound (·.fSeq) limit jobs) :=
      List.mem_take_iff_getElem.mpr ⟨i, by omega, rfl⟩
    have := key_le_of_mem_take (Nat.le_refl _) _ hmem
    omega
  · intro hle
    have hmem : jobs[i] ∈ jobs.drop (upperBound (·.fSeq) limit jobs) :=
      List.mem_drop_iff_getElem.mpr ⟨i - upperBound (·.fSeq) limit jobs, by omega, by
        congr 1; omega⟩
    exact lt_key_of_mem_drop hs _ hmem

theorem countP_above {jobs : List RetrieveJobPointer} (hs : SortedBy (·.fSeq) jobs) (limit : Nat) :
    (jobs.countP fun p => limit < p.fSeq) = jobs.length - upperBound (·.fSeq) limit jobs := by
  conv_lhs => rw [← List.take_append_drop (upperBound (·.fSeq) limit jobs) jobs]
  have hfirst : ((jobs.take (upperBound (·.fSeq) limit jobs)).countP fun p => limit < p.fSeq) = 0 :=
    List.countP_eq_zero.mpr fun p hp => by
      simpa using key_le_of_mem_take (Nat.le_refl _) p hp
  have hbehind : ((jobs.drop (upperBound (·.fSeq) limit jobs)).countP fun p => limit < p.fSeq) =
      (jobs.drop (upperBound (·.fSeq) limit jobs)).length :=
    List.countP_eq_length.mpr fun p hp => by simpa using lt_key_of_mem_drop hs p hp
  rw [List.countP_append, hfirst, hbehind, List.length_drop, Nat.zero_add]

theorem countToPass_eq {jobs : List RetrieveJobPointer} (hs : SortedBy (·.fSeq) jobs)
    (limit : Nat) : countToPass jobs limit = some (jobs.countP fun p => limit < p.fSeq) := by
  obtain ⟨Np, hNp⟩ := Option.isSome_iff_exists.mp (countToPass_isSome jobs limit)
  rw [hNp, countP_above hs]
  have hT (i : Nat) (hi : i < jobs.length) := lt_fSeqAt_iff hs limit hi
  have hTN : upperBound (·.fSeq) limit jobs ≤ jobs.length :=
    (List.takeWhile_prefix _).length_le
  unfold countToPass at hNp
  by_cases h0 : jobs.length = 0
  · simp only [h0, if_true] at hNp ⊢
    simpa using hNp.symm
  · simp only [h0, if_false] at hNp
    by_cases h1 : jobs.length = 1
    · have hat := hT 0 (by omega)
      simp only [h1, if_true] at hNp
      split_ifs at hNp <;> have := Option.some.inj hNp <;> congr 1 <;> omega
    · simp only [h1, if_false] at hNp
      exact congrArg some (bisect_eq hT hTN (by omega) (by omega) (by omega) (by omega) (by omega)
        hNp)

theorem addJobsInPlace_eq {s : RetrieveQueueShard} (jobsToAdd : List JobToAdd)
    (hs : SortedBy (·.fSeq) s.retrieveJobs) :
    s.addJobsInPlace jobsToAdd =
      ⟨insertUpperAll (·.fSeq) (jobsToAdd.map JobToAdd.toPointer) s.retrieveJobs,
        jobsToAdd.foldl (fun t j => t + j.fileSize) s.retrieveJobsTotalSize⟩ := by
  induction jobsToAdd generalizing s with
  | nil => rfl
  | cons j jobsToAdd ih =>
    have hadd : s.addJob j = ⟨insertUpper (·.fSeq) j.toPointer s.retrieveJobs,
        s.retrieveJobsTotalSize + j.fileSize⟩ := by
      rw [addJob, sinkDown_eq_insertUpper j.toPointer hs]
    rw [addJobsInPlace, List.foldl_cons, ← addJobsInPlace, hadd]
    exact ih (insertUpper_sorted hs)

/-- The two shards differ at most in the order of the jobs with the same fSeq, which the copy turns
round in the shard and in the batch. -/
theorem inPlace_eq_throughCopy_iff {s : RetrieveQueueShard} {jobsToAdd : List JobToAdd}
    (hs : SortedBy (·.fSeq) s.retrieveJobs) (hbatch : SortedBy (·.fSeq) jobsToAdd) :
    s.addJobsInPlace jobsToAdd = s.addJobsThroughCopy jobsToAdd ↔
      SameReversed s.retrieveJobs ∧ SameReversed (jobsToAdd.map JobToAdd.toPointer) := by
  have hbatch' : SortedBy (·.fSeq) (jobsToAdd.map JobToAdd.toPointer) :=
    List.pairwise_map.mpr hbatch
  have hcopy : SortedBy (·.fSeq) (insertHintAll (·.fSeq) s.retrieveJobs 0 []) :=
    insertHintAll_sorted s.retrieveJobs 0 [] List.Pairwise.nil
  have hplace (k : Nat) := ofKey_insertUpperAll (jobsToAdd.map JobToAdd.toPointer) hs k
  have hthrough (k : Nat) :=
    ofKey_insertUpperAll (insertHintAll (·.fSeq) (jobsToAdd.map JobToAdd.toPointer) 0 []) hcopy k
  simp only [ofKey_insertHintAll hs, ofKey_insertHintAll hbatch'] at hthrough
  rw [addJobsInPlace_eq jobsToAdd hs, addJobsThroughCopy]
  constructor
  · intro heq
    have hjobs := congrArg RetrieveQueueShard.retrieveJobs heq
    have hkey (k : Nat) := (hplace k).symm.trans ((congrArg (ofKey (·.fSeq) k) hjobs).trans
      (hthrough k))
    exact ⟨fun k => (List.append_inj (hkey k) (by simp)).1.symm,
      fun k => (List.append_inj (hkey k) (by simp)).2.symm⟩
  · rintro ⟨hold, hnew⟩
    congr 1
    refine eq_of_ofKey (insertUpperAll_sorted _ _ hs) (insertUpperAll_sorted _ _ hcopy) fun k => ?_
    rw [hplace, hthrough]
    exact congrArg₂ _ (hold k).symm (hnew k).symm

/-- The choice between the two insertions is one of performance exactly when jobs with the same fSeq
are the same backwards, in the shard and in the batch. -/
theorem same_insertion_iff {s : RetrieveQueueShard} {jobsToAdd : List JobToAdd}
    (hs : SortedBy (·.fSeq) s.retrieveJobs) (hbatch : SortedBy (·.fSeq) jobsToAdd) :
    SameInsertion s jobsToAdd ↔
      SameReversed s.retrieveJobs ∧ SameReversed (jobsToAdd.map JobToAdd.toPointer) := by
  rw [← inPlace_eq_throughCopy_iff hs hbatch]
  refine ⟨SameInsertion.same, fun hsame => ⟨?_, fun j _ => countToPass_eq hs _, ?_, ?_, hsame⟩⟩
  · cases jobsToAdd with
    | nil => rfl
    | cons j jobsToAdd => simp [addJobsBatch, countToPass_isSome]
  · rw [addJobsInPlace_eq jobsToAdd hs]
    exact insertUpperAll_sorted _ _ hs
  · rw [addJobsInPlace_eq jobsToAdd hs]
    exact (insertUpperAll_perm _ _ _).trans List.perm_append_comm

theorem reverse_eq_iff {jobs : List RetrieveJobPointer} (hnodup : jobs.Nodup) :
    jobs.reverse = jobs ↔ ∀ p ∈ jobs, ∀ q ∈ jobs, p = q := by
  rcases List.eq_nil_or_concat' jobs with rfl | ⟨rest, p, rfl⟩
  · simp
  · cases rest with
    | nil => simp
    | cons q rest =>
      have hne : p ≠ q := by
        rintro rfl
        simp at hnodup
      refine iff_of_false (fun h => ?_) fun h => hne (h p (by simp) q (by simp))
      rw [List.reverse_append, List.reverse_singleton] at h
      exact hne (List.cons.inj h).1

theorem sameReversed_iff {jobs : List RetrieveJobPointer} (hnodup : jobs.Nodup) :
    SameReversed jobs ↔ (jobs.map (·.fSeq)).Nodup := by
  rw [List.nodup_map_iff_inj_on hnodup]
  constructor
  · intro hsame p hp q hq heq
    exact (reverse_eq_iff (hnodup.filter _)).mp (hsame p.fSeq) p (by simp [hp]) q
      (by simp [hq, heq])
  · intro hinj fSeq
    refine (reverse_eq_iff (hnodup.filter _)).mpr fun p hp q hq => ?_
    obtain ⟨hp, hpk⟩ := List.mem_filter.mp hp
    obtain ⟨hq, hqk⟩ := List.mem_filter.mp hq
    exact hinj p hp q hq ((of_decide_eq_true hpk).trans (of_decide_eq_true hqk).symm)

def jobAt (fSeq : Nat) (address : Address) : JobToAdd where
  copyNb := 1
  fSeq := fSeq
  retrieveRequestAddress := address
  fileSize := 1
  policy := { name := "policy" }
  startTime := 0

def shardOf (jobs : List JobToAdd) : RetrieveQueueShard := initialized.addJobsInPlace jobs

theorem same_insertion_iff_distinct :
    SameInsertion (shardOf [jobAt 1 "a", jobAt 3 "b"]) [jobAt 2 "c", jobAt 3 "d"] :=
  (same_insertion_iff (by unfold SortedBy; decide) (by unfold SortedBy; decide)).mpr
    ⟨(sameReversed_iff (by decide)).mpr (by decide), (sameReversed_iff (by decide)).mpr (by decide)⟩

theorem copy_turns_round :
    ((shardOf [jobAt 1 "a", jobAt 1 "b"]).addJobsInPlace [jobAt 2 "c"]).retrieveJobs.map
        (·.address) = ["a", "b", "c"] ∧
      ((shardOf [jobAt 1 "a", jobAt 1 "b"]).addJobsThroughCopy [jobAt 2 "c"]).retrieveJobs.map
        (·.address) = ["b", "a", "c"] ∧
      ¬ SameInsertion (shardOf [jobAt 1 "a", jobAt 1 "b"]) [jobAt 2 "c"] :=
  ⟨by decide, by decide, fun h => absurd h.same (by decide)⟩

end Cta.ObjectStore.RetrieveQueueShard
