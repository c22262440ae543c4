import Cta.ObjectStore.RetrieveQueueBookkeeping

/-! The plan of an addition, job after job: which ranges are cut, and where the jobs end up. -/
namespace Cta.ObjectStore.RetrieveQueue
open Cta.Lib.Runs

structure Planning where
  shards : List ShardForAddition
  placed : List JobToAdd

def Planning.place (maxShardSize : Nat) (s : Planning) (j : JobToAdd) : Planning where
  shards := (placeOrCreate maxShardSize s.shards j).getD s.shards
  placed := s.placed ++ [j]

def afterSplit (maxShardSize : Nat) (j : JobToAdd) (shards : List ShardForAddition) :
    List ShardForAddition :=
  match landing j shards, splitBy maxShardSize j shards with
  | some i, some sfa => shards.take i ++ [sfa.lowerHalf, sfa.upperHalf] ++ shards.drop (i + 1)
  | _, _ => shards

structure WellPlanned (s : Planning) : Prop where
  separated : Separated s.shards
  planned : (s.shards.flatMap (·.jobsToAdd)).Perm s.placed
  inRange : ∀ e ∈ s.shards, PlannedInRange e

structure PlacedWell (maxShardSize : Nat) (s : Planning) (j : JobToAdd) : Prop where
  found : (placeOrCreate maxShardSize s.shards j).isSome
  split : Separated (afterSplit maxShardSize j s.shards)
  placed : WellPlanned (s.place maxShardSize j)

/-- If the shard where the job lands has to be split, its range is neither empty, as an upper half
may be, nor at the highest number. -/
def CutsRange (maxShardSize : Nat) (s : Planning) (j : JobToAdd) : Prop :=
  ∀ e ∈ splitBy maxShardSize j s.shards, e.minFseq ≤ e.maxFseq ∧ e.minFseq < 2^64 - 1

instance CutsRange.decidable (maxShardSize : Nat) (s : Planning) (j : JobToAdd) :
    Decidable (CutsRange maxShardSize s j) :=
  inferInstanceAs (Decidable (∀ e ∈ splitBy maxShardSize j s.shards,
    e.minFseq ≤ e.maxFseq ∧ e.minFseq < 2^64 - 1))

section
variable {m : Nat} {j : JobToAdd} {e : ShardForAddition}

theorem addJob_planned (m : Nat) (j : JobToAdd) (e : ShardForAddition) :
    ((addJobToShardAndMaybeSplit m j e).flatMap (·.jobsToAdd)).Perm (e.jobsToAdd ++ [j]) := by
  unfold addJobToShardAndMaybeSplit
  by_cases hm : mustSplit m e = true
  · by_cases hj : e.upperHalf.minFseq ≤ j.fSeq
    · rw [if_pos hm, if_pos hj]
      simp only [List.flatMap_cons, List.flatMap_nil, push_jobsToAdd, List.append_nil]
      rw [← List.append_assoc]
      exact halves_perm.append_right [j]
    · rw [if_pos hm, if_neg hj]
      simp only [List.flatMap_cons, List.flatMap_nil, push_jobsToAdd, List.append_nil]
      refine (List.perm_append_right_iff _ |>.mpr List.perm_append_comm).trans ?_
      exact (halves_perm.cons j).trans (List.perm_append_singleton j _).symm
  · rw [if_neg hm]
    simp [push_jobsToAdd]

theorem addJob_inRange (hin : PlannedInRange e) (hm : e.maxFseq < 2^64)
    (hs : mustSplit m e = true → e.minFseq ≤ e.maxFseq ∧ e.minFseq < 2^64 - 1) :
    ∀ x ∈ addJobToShardAndMaybeSplit m j e, PlannedInRange x := by
  unfold addJobToShardAndMaybeSplit
  by_cases hsplit : mustSplit m e = true
  · obtain ⟨hle, hlt⟩ := hs hsplit
    have hu := ShardForAddition.upperHalf_minFseq_of_cut (ShardForAddition.cut_lt hle hm hlt)
    have hupper := hin.upperHalf hu
    by_cases hj : e.upperHalf.minFseq ≤ j.fSeq
    · rw [if_pos hsplit, if_pos hj]
      simpa using ⟨hin.lowerHalf, hupper.push j⟩
    · rw [if_pos hsplit, if_neg hj]
      simpa using ⟨hin.lowerHalf.push j, hupper⟩
  · rw [if_neg hsplit]
    simpa using hin.push j

theorem Separated.cut (he : e.minFseq ≤ e.maxFseq + 1 ∧ e.minFseq < 2^64 ∧ e.maxFseq < 2^64)
    (h : Separated [e.lowerHalf, e.upperHalf]) : e.minFseq ≤ e.maxFseq ∧ e.minFseq < 2^64 - 1 := by
  have hstrict : e.cut < (e.cut + 1) % 2^64 :=
    (List.pairwise_cons.mp h.strict).1 e.upperHalf List.mem_cons_self
  have hlower : e.minFseq ≤ e.cut + 1 := (h.bounded e.lowerHalf (by simp)).1
  have hupper : (e.cut + 1) % 2^64 ≤ e.maxFseq + 1 := (h.bounded e.upperHalf (by simp)).1
  have hcut : e.cut = (e.minFseq + sub64 e.maxFseq e.minFseq / 2) % 2^64 := rfl
  by_cases hle : e.minFseq ≤ e.maxFseq
  · rw [ShardForAddition.cut_eq hle he.2.2] at hstrict
    omega
  · -- the range is empty, so its length wraps around
    have hwrap : sub64 e.maxFseq e.minFseq = 2^64 - 1 := by
      rw [sub64, if_neg hle]
      omega
    rw [hwrap] at hcut
    omega

end

section
variable {m : Nat} {s : Planning} {j : JobToAdd}

theorem placed_empty (hnil : s.shards = []) (hlt : j.fSeq < 2^64)
    (h : WellPlanned s) : PlacedWell m s j ∧ CutsRange m s j := by
  have hplaced : s.placed = [] := by
    have hp := h.planned
    rw [hnil, List.flatMap_nil] at hp
    exact List.nil_perm.mp hp
  have hplace : placeOrCreate m s.shards j = some [initialShard j] := by
    rw [placeOrCreate, if_pos hnil]
  refine ⟨⟨by rw [hplace]; rfl, ?_, ?_⟩, ?_⟩
  · rw [hnil]
    exact ⟨List.Pairwise.nil, fun e he => absurd he List.not_mem_nil⟩
  · rw [Planning.place, hplace, hplaced]
    refine ⟨⟨by simp, ?_⟩, by simp [initialShard], ?_⟩
    · simpa [initialShard] using hlt
    · simp [initialShard, PlannedInRange]
  · simp [CutsRange, hnil, splitBy, landing]

theorem placed_iff (h : WellPlanned s) (hlt : j.fSeq < 2^64) :
    (PlacedWell m s j ↔ CutsRange m s j) ∧
      (CutsRange m s j → WellPlanned (s.place m j)) := by
  by_cases hnil : s.shards = []
  · obtain ⟨hplaced, hcuts⟩ := placed_empty (m := m) hnil hlt h
    exact ⟨iff_of_true hplaced hcuts, fun _ => hplaced.placed⟩
  obtain ⟨shards, placed⟩ := s
  obtain ⟨hsep, hplanned, hin⟩ := h
  obtain ⟨pre, e, post, rfl, hland, hpre, hfit⟩ := landing_spec j hnil
  obtain ⟨hplace, hsplit⟩ := placeJob_at m hland
  have hbe := hsep.bounded e (by simp)
  have hcuts : CutsRange m ⟨pre ++ e :: post, placed⟩ j ↔
      (mustSplit m e = true → e.minFseq ≤ e.maxFseq ∧ e.minFseq < 2^64 - 1) := by
    rw [CutsRange, hsplit]
    split_ifs with hm <;> simp [hm]
  have hafter : afterSplit m j (pre ++ e :: post) =
      if mustSplit m e then pre ++ [e.lowerHalf, e.upperHalf] ++ post else pre ++ e :: post := by
    rw [afterSplit, hland, hsplit]
    cases mustSplit m e <;> simp
  have hnext : Planning.place m ⟨pre ++ e :: post, placed⟩ j =
      ⟨pre ++ addJobToShardAndMaybeSplit m j e ++ post, placed ++ [j]⟩ := by
    rw [Planning.place, hplace, Option.getD_some]
  rw [hcuts, hnext]
  have hkeeps : (mustSplit m e = true → e.minFseq ≤ e.maxFseq ∧ e.minFseq < 2^64 - 1) →
      WellPlanned ⟨pre ++ addJobToShardAndMaybeSplit m j e ++ post, placed ++ [j]⟩ := by
    intro hcut
    obtain ⟨hes, hwithin⟩ := Separated.addJob hbe hlt hcut
    refine ⟨hsep.replace hpre hfit hes hwithin, ?_, ?_⟩
    · simp only [List.flatMap_append, List.flatMap_cons] at hplanned ⊢
      have hjobs := (addJob_planned m j e).append_right (post.flatMap (·.jobsToAdd))
      have hmoved : (e.jobsToAdd ++ [j] ++ post.flatMap (·.jobsToAdd)).Perm
          (e.jobsToAdd ++ post.flatMap (·.jobsToAdd) ++ [j]) := by
        rw [List.append_assoc, List.append_assoc]
        exact List.perm_append_comm.append_left e.jobsToAdd
      rw [List.append_assoc]
      refine ((hjobs.trans hmoved).append_left (pre.flatMap (·.jobsToAdd))).trans ?_
      rw [← List.append_assoc]
      exact hplanned.append_right [j]
    · have hnew := addJob_inRange (j := j) (hin e (by simp)) hbe.2.2 hcut
      intro x hx
      have hx' : (x ∈ pre ∨ x ∈ addJobToShardAndMaybeSplit m j e) ∨ x ∈ post := by
        simpa [or_assoc] using hx
      rcases hx' with (hx' | hx') | hx'
      · exact hin x (by simp [hx'])
      · exact hnew x hx'
      · exact hin x (by simp [hx'])
  refine ⟨⟨fun hwell hm => ?_, fun hcut => ⟨by rw [hplace]; rfl, ?_, ?_⟩⟩, hkeeps⟩
  · have hsepAfter := hwell.split
    rw [hafter, if_pos hm] at hsepAfter
    have hsub : [e.lowerHalf, e.upperHalf].Sublist
        (pre ++ [e.lowerHalf, e.upperHalf] ++ post) :=
      (List.sublist_append_right pre _).trans (List.sublist_append_left _ post)
    exact Separated.cut hbe
      ⟨hsepAfter.strict.sublist hsub, fun x hx => hsepAfter.bounded x (hsub.subset hx)⟩
  · rw [hafter]
    split_ifs with hm
    · obtain ⟨hle, hlow⟩ := hcut hm
      obtain ⟨hes, hwithin⟩ := Separated.halves hle hbe.2.2 hlow
      refine hsep.replace hpre hfit hes fun x hx => ?_
      have := hwithin x hx
      omega
    · exact hsep
  · rw [hnext]
    exact hkeeps hcut

end

theorem planJobs_eq {p : RetrieveQueue} {js : List JobToAdd} {s : Planning}
    (h : AllSteps (Planning.place p.maxShardSize) (PlacedWell p.maxShardSize) s js) :
    js.foldlM (placeOrCreate p.maxShardSize) s.shards =
      some (js.foldl (Planning.place p.maxShardSize) s).shards := by
  induction js generalizing s with
  | nil => rfl
  | cons j js ih =>
    obtain ⟨shards', hplace⟩ := Option.isSome_iff_exists.mp h.1.found
    have hshards : (s.place p.maxShardSize j).shards = shards' := by
      rw [Planning.place, hplace, Option.getD_some]
    rw [List.foldlM_cons, hplace, List.foldl_cons, ← ih h.2, hshards]
    rfl

/-- From ranges in order, every job of a batch is placed well if and only if no cut is made in a
range that is empty or at the highest number. -/
theorem placement_plan_iff (p : RetrieveQueue) (hranges : RangesOrdered p.retrieveQueueShards)
    (jobsToAdd : List JobToAdd) (hj : ∀ j ∈ jobsToAdd, j.fSeq < 2^64 - 1) :
    AllSteps (Planning.place p.maxShardSize) (PlacedWell p.maxShardSize) ⟨initialPlan p, []⟩
        jobsToAdd ↔
      AllSteps (Planning.place p.maxShardSize) (CutsRange p.maxShardSize) ⟨initialPlan p, []⟩
        jobsToAdd := by
  refine allSteps_iff (I := WellPlanned)
    (fun s j hmem hs => placed_iff hs (Nat.lt_of_lt_of_le (hj j hmem) (by decide))) ?_
  rw [initialPlan, orderLimits_ofPointer hranges (by simp)]
  refine ⟨⟨List.pairwise_map.mpr hranges.strict, ?_⟩, ?_, ?_⟩
  · intro e he
    obtain ⟨q, hq, rfl⟩ := List.mem_map.mp he
    have := hranges.bounded q hq
    simp only [ofPointer]
    omega
  · simp [List.flatMap_map, ofPointer]
  · intro e he
    obtain ⟨q, -, rfl⟩ := List.mem_map.mp he
    simp [PlannedInRange, ofPointer]

def oneFseqQueue : RetrieveQueue :=
  { initialized 2 with retrieveQueueShards := [⟨0, 4, 40, 1, 1⟩, ⟨1, 3, 30, 10, 20⟩] }

theorem oneFseqQueue_ordered : RangesOrdered oneFseqQueue.retrieveQueueShards :=
  ⟨by decide, by decide⟩

theorem placement_plan_iff_one_cut :
    AllSteps (Planning.place 2) (PlacedWell 2) ⟨initialPlan oneFseqQueue, []⟩
      [recallJob 12 "a" 5, recallJob 5 "b" 5] :=
  (placement_plan_iff oneFseqQueue oneFseqQueue_ordered [recallJob 12 "a" 5, recallJob 5 "b" 5]
    (by decide)).mpr (by decide)

/-- The first job leaves an empty upper half with two of the four jobs. The second one has it cut
again, and the lower half of that cut reaches over the next shard. -/
theorem second_cut_overlaps :
    ¬ ∀ p : RetrieveQueue, RangesOrdered p.retrieveQueueShards →
      ∀ jobsToAdd : List JobToAdd, (∀ j ∈ jobsToAdd, j.fSeq < 2^64 - 1) →
        AllSteps (Planning.place p.maxShardSize) (PlacedWell p.maxShardSize) ⟨initialPlan p, []⟩
          jobsToAdd := by
  intro h
  have hrun := h oneFseqQueue oneFseqQueue_ordered [recallJob 1 "a" 5, recallJob 5 "b" 5]
    (by decide)
  have hstrict := hrun.2.1.placed.separated.strict
  revert hstrict
  decide

end Cta.ObjectStore.RetrieveQueue
