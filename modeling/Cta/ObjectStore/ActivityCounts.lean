import Cta.ObjectStore.RetrieveQueueBookkeeping

/-! The activity counters of a retrieve queue, over runs of additions, removals and rebuilds. A
rebuild recounts the three maps that the coherency check looks at, and not the activities. -/
namespace Cta.ObjectStore.RetrieveQueue
open ValueCountMap Cta.Lib.PartedStore Cta.Lib.Runs
open RetrieveQueueShard (kept gone removeJobs_removed)

/-- What is left of the shards when jobs went from them without the queue object following, as when
a removal stops between its write to the shard and the one to the queue object. A shard without
jobs is not there. -/
def withoutJobs (lost : ShardAddress → List Address)
    (parts : ShardAddress → Option RetrieveQueueShard) : ShardAddress → Option RetrieveQueueShard :=
  fun a => (parts a).bind fun s =>
    let rqs := (s.removeJobs (lost a)).1
    if rqs.retrieveJobs = [] then none else some rqs

inductive Event where
  | call (c : Call)
  /-- The queue object is found not to match the shards, and is rebuilt. -/
  | rebuild (lost : ShardAddress → List Address)

def afterEvent (w : Queue) : Event → Queue
  | .call c => finalWorld (c.run w)
  | .rebuild lost => finalWorld ((do RetrieveQueue.rebuild; commit : Op Unit)
      { w with stored := { w.stored with parts := withoutJobs lost w.stored.parts } })

/-- The activity counters say how many queued jobs each activity has, and no removal fails. -/
structure ActivitiesCounted (w : Queue) : Prop where
  counts : Counts w.stored.root.activityMap
    ((jobsIn (found w.stored.parts w.stored.root.retrieveQueueShards) :
      Multiset RetrieveJobPointer).filterMap (·.activity))
  removals : ∀ jobsToRemove, ∃ w', removeJobsAndCommit jobsToRemove w = .ok () w'

def PlannedCleanly (w : Queue) : Event → Prop
  | .call (.add jobsToAdd) => SplitsOnce w jobsToAdd ∧ CutsCleanly w jobsToAdd
  | .call (.remove _) => True
  | .rebuild _ => True

def LosesNoActivity (w : Queue) : Event → Prop
  | .call _ => True
  | .rebuild lost => ∀ q ∈ w.stored.root.retrieveQueueShards, ∀ s ∈ w.stored.parts q.address,
      ∀ j ∈ gone s (lost q.address), j.activity = none

instance PlannedCleanly.decidable (w : Queue) : ∀ e, Decidable (PlannedCleanly w e)
  | .call (.add _) => inferInstanceAs (Decidable (_ ∧ _))
  | .call (.remove _) => inferInstanceAs (Decidable True)
  | .rebuild _ => inferInstanceAs (Decidable True)

instance LosesNoActivity.decidable (w : Queue) : ∀ e, Decidable (LosesNoActivity w e)
  | .call _ => inferInstanceAs (Decidable True)
  | .rebuild _ => inferInstanceAs (Decidable (∀ _ ∈ _, _))

section
variable {lost : ShardAddress → List Address} {parts : ShardAddress → Option RetrieveQueueShard}
  {a : ShardAddress} {s : RetrieveQueueShard} {p : RetrieveQueue} {next : Nat}
  {M : Multiset RetrieveJobPointer}

theorem withoutJobs_some {t : RetrieveQueueShard} (h : withoutJobs lost parts a = some t) :
    ∃ s, parts a = some s ∧ t = (s.removeJobs (lost a)).1 ∧ t.retrieveJobs = kept s (lost a) ∧
      t.retrieveJobs ≠ [] := by
  obtain ⟨s, hs, ht⟩ := Option.bind_eq_some_iff.mp h
  dsimp only at ht
  split at ht
  · contradiction
  · next hne =>
    obtain rfl := Option.some.inj ht
    exact ⟨s, hs, rfl, (removeJobs_removed s (lost a)).jobs, hne⟩

def lostJobs (lost : ShardAddress → List Address) (shards : List (ShardAddress × RetrieveQueueShard)) :
    List RetrieveJobPointer :=
  shards.flatMap fun x => gone x.2 (lost x.1)

theorem jobsIn_withoutJobs (lost : ShardAddress → List Address)
    (qs : List RetrieveQueueShardPointer) :
    (jobsIn (found parts qs) : Multiset RetrieveJobPointer) =
      lostJobs lost (found parts qs) + jobsIn (found (withoutJobs lost parts) qs) := by
  induction qs with
  | nil => rfl
  | cons q qs ih =>
    cases hs : parts q.address with
    | none => simpa [found, withoutJobs, hs] using ih
    | some s =>
      have hperm := Multiset.coe_eq_coe.mpr (RetrieveQueueShard.kept_gone_perm s (lost q.address))
      have hkept := (removeJobs_removed s (lost q.address)).jobs
      have hleft : (jobsIn (found (withoutJobs lost parts) (q :: qs)) :
          Multiset RetrieveJobPointer) =
          kept s (lost q.address) + jobsIn (found (withoutJobs lost parts) qs) := by
        by_cases hnil : (s.removeJobs (lost q.address)).1.retrieveJobs = []
        · have hnone : withoutJobs lost parts q.address = none := by simp [withoutJobs, hs, hnil]
          simp [found, hnone, ← hkept, hnil]
        · have hsome : withoutJobs lost parts q.address = some (s.removeJobs (lost q.address)).1 := by
            simp [withoutJobs, hs, hnil]
          rw [found_cons hsome]
          simp [jobsIn, hkept]
      rw [hleft, found_cons hs]
      simp only [jobsIn, lostJobs, List.flatMap_cons, ← Multiset.coe_add] at ih hperm ⊢
      rw [ih, ← hperm]
      abel

theorem Sane.pointing_withoutJobs (h : Sane p parts next M) (lost : ShardAddress → List Address) :
    Pointing p (withoutJobs lost parts) next := by
  refine ⟨h.nodup, h.fresh, fun a t ht => ?_, fun q hq t ht => ?_, h.ordered⟩
  · obtain ⟨s, hs, -, -, -⟩ := withoutJobs_some ht
    exact h.only a s hs
  · obtain ⟨s, hs, rfl, hjobs, hne⟩ := withoutJobs_some ht
    obtain ⟨hsound, henc⟩ := h.pointing.described q hq s hs
    have hsub : ∀ j ∈ kept s (lost q.address), j ∈ s.retrieveJobs := fun j => List.mem_of_mem_filter
    refine ⟨⟨(removeJobs_removed s _).coherent hsound.coherent, hne, ?_⟩, ?_, henc.bound⟩
    · rw [hjobs]
      exact fun j hj => hsound.bounded j (hsub j hj)
    · rw [hjobs]
      exact fun j hj => henc.limits j (hsub j hj)

end

structure Steady (w : Queue) : Prop where
  fetched : w.stored.root = w.memory
  agrees : ∃ M, Sane w.memory w.stored.parts w.nextId M

theorem steady_emptyQueue (maxShardSize : Nat) : Steady (emptyQueue maxShardSize) :=
  ⟨rfl, 0, (inOrder_emptyQueue maxShardSize).sane⟩

theorem Steady.activitiesCounted {w : Queue} (h : Steady w) : ActivitiesCounted w := by
  obtain ⟨hroot, M, hs⟩ := h
  refine ⟨?_, fun jobsToRemove => ?_⟩
  · rw [hroot, hs.content]
    exact hs.booked.activity
  · obtain ⟨w', -, hrun, -⟩ := Sane.removeAny (I := fun _ _ => True) (fun _ _ _ _ _ _ => True.intro)
      hs hroot True.intro jobsToRemove
    exact ⟨w', hrun⟩

theorem Steady.call {w : Queue} {c : Call} (h : Steady w) (hc : PlannedCleanly w (.call c)) :
    Steady (afterEvent w (.call c)) := by
  obtain ⟨hroot, M, hs⟩ := h
  cases c with
  | add jobsToAdd =>
    obtain ⟨⟨hj, honce⟩, hcuts⟩ := hc
    by_cases hnil : jobsToAdd = []
    · subst hnil
      simpa [afterEvent, Call.run, addJobsAndCommit, finalWorld] using (⟨hroot, M, hs⟩ : Steady w)
    · obtain ⟨w', hrun, hroot', hs', -⟩ := hs.add hroot hnil hj honce hcuts
      simpa [afterEvent, Call.run, hrun, finalWorld] using (⟨hroot', _, hs'⟩ : Steady w')
  | remove jobsToRemove =>
    obtain ⟨w', N, hrun, hroot', hs', -⟩ := Sane.removeAny (I := fun _ _ => True)
      (fun _ _ _ _ _ _ => True.intro) hs hroot True.intro jobsToRemove
    simpa [afterEvent, Call.run, hrun, finalWorld] using (⟨hroot', N, hs'⟩ : Steady w')

theorem Steady.rebuilt {w : Queue} (h : Steady w) (lost : ShardAddress → List Address) :
    ∃ w', afterEvent w (.rebuild lost) = w' ∧ w'.stored.root = w'.memory ∧
      w'.stored.parts = withoutJobs lost w.stored.parts ∧ w'.nextId = w.nextId ∧
      Exact w'.memory (found w'.stored.parts w.memory.retrieveQueueShards) ∧
      w'.memory.activityMap = w.memory.activityMap := by
  obtain ⟨hroot, M, hs⟩ := h
  have hpoint := hs.pointing_withoutJobs lost
  obtain ⟨p', hrun, hexact, hact, -, -⟩ := RetrieveQueue.rebuild_spec
    (w := { w with stored := { w.stored with parts := withoutJobs lost w.stored.parts } })
    hpoint.nodup fun q hq s hs => (hpoint.described q hq s hs).1
  have hcheck := hexact.check fun x hx => by
    obtain ⟨q, hq, hx⟩ := List.mem_filterMap.mp hx
    obtain ⟨s, hs, rfl⟩ := Option.map_eq_some_iff.mp hx
    exact (hpoint.described q hq s hs).1.coherent
  let parts := withoutJobs lost w.stored.parts
  let w1 : Queue := { w with
    memory := p'
    stored := { w.stored with parts }
    log := w.log ++ summaries (found parts w.memory.retrieveQueueShards) }
  have hcommit : commit w1 = .ok () (w1.write { w1.stored with root := p' }) :=
    commit_coherent hcheck
  refine ⟨w1.write { w1.stored with root := p' }, ?_, rfl, rfl, rfl, hexact, hact⟩
  change finalWorld ((do RetrieveQueue.rebuild; commit : Op Unit) _) = _
  rw [bind_apply, hrun]
  exact congrArg finalWorld hcommit

theorem Steady.rebuild {w : Queue} (h : Steady w) (lost : ShardAddress → List Address) :
    (ActivitiesCounted (afterEvent w (.rebuild lost)) ↔ LosesNoActivity w (.rebuild lost)) ∧
      (LosesNoActivity w (.rebuild lost) → Steady (afterEvent w (.rebuild lost))) := by
  obtain ⟨w', hafter, hroot', hparts, hnext, hexact, hact⟩ := h.rebuilt lost
  obtain ⟨hroot, M, hs⟩ := h
  have hpoint := hs.pointing_withoutJobs lost
  rw [hafter]
  -- the counters are still those of all the jobs there were
  have hcounts := hs.booked.activity
  rw [← hact, ← hs.content, jobsIn_withoutJobs lost, Multiset.filterMap_add] at hcounts
  have hnone : LosesNoActivity w (.rebuild lost) ↔ ∀ j ∈ lostJobs lost
      (found w.stored.parts w.memory.retrieveQueueShards), j.activity = none := by
    rw [← hroot]
    constructor
    · intro hno j hj
      obtain ⟨x, hx, hj⟩ := List.mem_flatMap.mp hj
      obtain ⟨q, hq, hx⟩ := List.mem_filterMap.mp hx
      obtain ⟨s, hs, rfl⟩ := Option.map_eq_some_iff.mp hx
      exact hno q hq s hs j hj
    · intro hno q hq s hs j hj
      refine hno j (List.mem_flatMap.mpr ⟨(q.address, s), List.mem_filterMap.mpr ⟨q, hq, ?_⟩, hj⟩)
      rw [show w.stored.parts q.address = some s from hs, Option.map_some]
  have hzero : LosesNoActivity w (.rebuild lost) ↔ (lostJobs lost
      (found w.stored.parts w.memory.retrieveQueueShards) :
        Multiset RetrieveJobPointer).filterMap (·.activity) = 0 := by
    rw [hnone, Multiset.filterMap_coe, Multiset.coe_eq_zero, List.filterMap_eq_nil_iff]
  have hsteady : LosesNoActivity w (.rebuild lost) → Steady w' := by
    intro hno
    rw [hzero.mp hno, zero_add, ← hparts] at hcounts
    rw [← hparts] at hpoint
    exact ⟨hroot', _, hnext ▸ hpoint.sane_of_exact hexact hcounts⟩
  refine ⟨⟨fun hright => ?_, fun hno => (hsteady hno).activitiesCounted⟩, hsteady⟩
  have hright := hright.counts.2
  rw [hroot', hexact.found_eq, hcounts.2, hparts] at hright
  rw [hzero]
  exact add_eq_right.mp hright

theorem activity_counts_iff (maxShardSize : Nat) (events : List Event)
    (h : AllSteps afterEvent PlannedCleanly (emptyQueue maxShardSize) events) :
    AllStates afterEvent ActivitiesCounted (emptyQueue maxShardSize) events ↔
      AllSteps afterEvent LosesNoActivity (emptyQueue maxShardSize) events := by
  have hsteady := steady_emptyQueue maxShardSize
  refine h.allStates_iff (I := Steady) (fun w e hw he _ => ?_) (fun w e hw he _ hno => ?_)
    hsteady hsteady.activitiesCounted
  · cases e with
    | call c => exact ⟨fun _ => True.intro, fun _ => (hw.call he).activitiesCounted⟩
    | rebuild lost => exact (hw.rebuild lost).1
  · cases e with
    | call c => exact hw.call he
    | rebuild lost => exact (hw.rebuild lost).2 hno

def activityJob (fSeq : Nat) (address : Address) (activity : Option String) : JobToAdd :=
  { recallJob fSeq address 5 with activity }

/-- The job without activity is lost, the other one is removed. -/
theorem activity_counts_iff_lost_without_activity :
    AllStates afterEvent ActivitiesCounted (emptyQueue 2)
      [.call (.add [activityJob 1 "a" none, activityJob 2 "b" (some "analysis")]),
        .rebuild fun _ => ["a"], .call (.remove ["b"])] :=
  (activity_counts_iff 2 _ (by decide +kernel)).mpr (by decide +kernel)

/-- The job with the activity is alone in its shard. -/
def addTwoShards : List Event :=
  [.call (.add [activityJob 1 "a" none, activityJob 90 "b" (some "analysis")]),
    .call (.add [activityJob 2 "c" none])]

/-- A removal that stops before its last write leaves the queue object as it was, and no shard. -/
example : (finalWorld (removeJobsAndCommit ["b"]
    (addTwoShards.foldl afterEvent (emptyQueue 2)))).history.any fun st =>
      decide (st.root = (addTwoShards.foldl afterEvent (emptyQueue 2)).stored.root) &&
        (st.parts 0).isNone := by
  decide +kernel

def loseActivity : List Event := addTwoShards ++ [.rebuild fun _ => ["b"]]

theorem rebuild_keeps_lost_activity :
    ¬ ∀ (maxShardSize : Nat) (events : List Event),
      AllSteps afterEvent PlannedCleanly (emptyQueue maxShardSize) events →
      AllStates afterEvent ActivitiesCounted (emptyQueue maxShardSize) events := by
  intro h
  have hlast := (h 2 loseActivity (by decide +kernel)).last
  have hcounted : (loseActivity.foldl afterEvent (emptyQueue 2)).stored.root.activityMap =
      [⟨"analysis", 1⟩] := by
    decide +kernel
  have hqueued : (jobsIn (found (loseActivity.foldl afterEvent (emptyQueue 2)).stored.parts
      (loseActivity.foldl afterEvent (emptyQueue 2)).stored.root.retrieveQueueShards)).filterMap
        (·.activity) = [] := by
    decide +kernel
  have hcounts := hlast.counts.2
  rw [hcounted, Multiset.filterMap_coe, hqueued] at hcounts
  exact absurd hcounts (by decide +kernel)

end Cta.ObjectStore.RetrieveQueue
