import Cta.ObjectStore.Popping
import Cta.ObjectStore.RetrieveQueueTimes
import Cta.Scheduler.BestMountPolicy
import Cta.Scheduler.MountInfo
import Cta.Scheduler.RetrieveFailure

/-! The potential mounts that the retrieve queues give rise to: one for each activity, and one for
the jobs without activity. -/
namespace Cta.Scheduler.RetrieveMountInfo
open Cta.Scheduler.BestMountPolicy (MountPolicy createBestRetrieveMountPolicy
  getHighestPriorityRetrieveMountPolicyName getLowestRequestAgeRetrieveMountPolicyName)
open Cta.Scheduler.MountInfo (LabelFormat)
open Cta.Scheduler.RetrieveFailure (TapeState)
open Cta.ObjectStore (ValueCountMap)
open Cta.ObjectStore.Popping (SleepInfo)
open Cta.ObjectStore.RetrieveQueue (Booked getJobsSummary)

inductive Failure where
  | catalogue
  /-- `std::out_of_range`: the catalogue did not answer for the tape. -/
  | outOfRange
  | mountPolicies (failure : BestMountPolicy.Failure)
  deriving DecidableEq, Repr

/-- A potential mount with what only the display and the sleep of a queue need. -/
structure PotentialMount extends MountInfo.PotentialMount where
  youngestJobStartTime : Int64
  sleepStartTime : Int64
  diskSystemSleptFor : String
  sleepTime : UInt64
  highestPriorityMountPolicyName : Option String
  lowestRequestAgeMountPolicyName : Option String
  mountPolicyNames : List String
  deriving DecidableEq

structure JobsSummary extends ObjectStore.RetrieveQueue.JobsSummary where
  sleepInfo : Option SleepInfo := none
  deriving DecidableEq, Repr

structure RetrieveQueue where
  vid : String
  rqSummary : JobsSummary
  mountPolicyNames : List String
  deriving DecidableEq, Repr

structure Tape where
  state : TapeState
  labelFormat : LabelFormat
  deriving DecidableEq, Repr

inductive PurposeGetMountInfo where
  | getNextMount | showQueues
  deriving DecidableEq, Repr

structure TapeMountDecisionInfo where
  potentialMounts : List PotentialMount
  queueTrimRequired : Bool
  deriving DecidableEq

/-- What does not depend on the queue. The clock is read within the same second for all the mounts
of a queue. -/
structure Surroundings where
  purpose : PurposeGetMountInfo
  mountPolicies : List MountPolicy
  getTapesByVid : String → Except Failure (String → Option Tape)
  now : Int64

def getMountPoliciesInQueue (mountPoliciesInCatalogue : List MountPolicy)
    (queueMountPolicyMap : List (String × Nat)) : List MountPolicy :=
  mountPoliciesInCatalogue.filter fun mp => mp.name ∈ queueMountPolicyMap.map Prod.fst

structure Criteria where
  priority : Nat
  minRetrieveRequestAge : UInt64
  highestPriorityMountPolicyName : Option String := none
  lowestRequestAgeMountPolicyName : Option String := none
  queueMountPolicyNames : List String := []
  deriving DecidableEq, Repr

/-- The values of the mount policies in the catalogue are preferred to those of the summary. -/
def criteria (mountPolicies : List MountPolicy) (rqSummary : JobsSummary) :
    Except Failure Criteria :=
  let mountPoliciesInQueueList :=
    getMountPoliciesInQueue mountPolicies rqSummary.mountPolicyCountMap
  if mountPoliciesInQueueList = [] then
    .ok { priority := rqSummary.priority
          minRetrieveRequestAge := UInt64.ofNat rqSummary.minRetrieveRequestAge }
  else do
    let mountPolicyToUse ←
      (createBestRetrieveMountPolicy mountPoliciesInQueueList).mapError .mountPolicies
    let highestPriorityMountPolicyName ←
      (getHighestPriorityRetrieveMountPolicyName mountPoliciesInQueueList).mapError .mountPolicies
    let lowestRequestAgeMountPolicyName ←
      (getLowestRequestAgeRetrieveMountPolicyName mountPoliciesInQueueList).mapError .mountPolicies
    return { priority := mountPolicyToUse.retrievePriority.toNat
             minRetrieveRequestAge := mountPolicyToUse.retrieveMinRequestAge
             highestPriorityMountPolicyName
             lowestRequestAgeMountPolicyName
             queueMountPolicyNames := mountPoliciesInQueueList.map (·.name) }

/-- A mount of the queue, as both branches fill it in. The caller determines what is not known
here. -/
def queueMount (queue : RetrieveQueue) (tape : Tape) (c : Criteria) : PotentialMount where
  vid := queue.vid
  type := .retrieve
  bytesQueued := queue.rqSummary.bytes.toNat
  filesQueued := queue.rqSummary.jobs
  oldestJobStartTime := queue.rqSummary.oldestJobStartTime.toInt
  youngestJobStartTime := queue.rqSummary.youngestJobStartTime
  priority := c.priority
  minRequestAge := c.minRetrieveRequestAge.toInt64.toInt
  highestPriorityMountPolicyName := c.highestPriorityMountPolicyName
  lowestRequestAgeMountPolicyName := c.lowestRequestAgeMountPolicyName
  logicalLibrary := ""
  tapePool := ""
  vendor := ""
  mediaType := ""
  vo := ""
  capacityInBytes := 0
  labelFormat := tape.labelFormat
  mountPolicyNames := c.queueMountPolicyNames
  ratioOfMountQuotaUsed := 0
  activity := none
  sleepingMount := false
  sleepStartTime := 0
  diskSystemSleptFor := ""
  sleepTime := 0

def sleepShown (rqSummary : JobsSummary) (now : Int64) : Option SleepInfo :=
  rqSummary.sleepInfo.filter fun s => now < s.sleepStartTime + s.sleepTime.toInt64

def activityMount (queue : RetrieveQueue) (tape : Tape) (c : Criteria) (now : Int64)
    (activity : String) : PotentialMount :=
  let m := { queueMount queue tape c with activity := some activity }
  match sleepShown queue.rqSummary now with
  | some sleepInfo =>
    { m with
      sleepingMount := true
      sleepStartTime := sleepInfo.sleepStartTime
      diskSystemSleptFor := sleepInfo.diskSystemSleptFor
      sleepTime := sleepInfo.sleepTime }
  | none => m

def mountWithoutActivity (queue : RetrieveQueue) (tape : Tape) (c : Criteria) (now : Int64) :
    PotentialMount :=
  let m := queueMount queue tape c
  match sleepShown queue.rqSummary now with
  | some sleepInfo =>
    { m with
      sleepingMount := true
      sleepStartTime := sleepInfo.sleepStartTime
      diskSystemSleptFor := sleepInfo.diskSystemSleptFor }
  | none => m

def jobsWithoutActivity (rqSummary : JobsSummary) : Bool :=
  !(rqSummary.activityCounts ≠ [] ∧ rqSummary.activityCounts.length ≥ rqSummary.jobs)

def retrieveMounts (queue : RetrieveQueue) (tape : Tape) (c : Criteria) (now : Int64) :
    List PotentialMount :=
  queue.rqSummary.activityCounts.map (fun ac => activityMount queue tape c now ac.activity) ++
    if jobsWithoutActivity queue.rqSummary then [mountWithoutActivity queue tape c now] else []

def isPotentialMount (tapeState : TapeState) (queueMountPolicyNames : List String) : Bool :=
  match tapeState with
  | .active => true
  | .disabled => queueMountPolicyNames.any fun name => "repack".toList.isPrefixOf name.toList
  | .broken => false

def considered (around : Surroundings) (queue : RetrieveQueue) (tape : Tape) : Bool :=
  queue.rqSummary.jobs ≠ 0 &&
    (isPotentialMount tape.state queue.mountPolicyNames || around.purpose = .showQueues)

def fetchRetrieveQueue (around : Surroundings) (tmdi : TapeMountDecisionInfo)
    (queue : RetrieveQueue) : Except Failure TapeMountDecisionInfo := do
  let vidToTapeMap ← around.getTapesByVid queue.vid
  match vidToTapeMap queue.vid with
  | none => .error .outOfRange
  | some tape =>
    if considered around queue tape then
      let c ← criteria around.mountPolicies queue.rqSummary
      return { tmdi with
        potentialMounts := tmdi.potentialMounts ++ retrieveMounts queue tape c around.now }
    else if queue.rqSummary.jobs = 0 then return { tmdi with queueTrimRequired := true }
    else return tmdi

def fetchRetrieveQueues (around : Surroundings) (tmdi : TapeMountDecisionInfo)
    (queues : List (Option RetrieveQueue)) : Except Failure TapeMountDecisionInfo :=
  (queues.filterMap id).foldlM (fetchRetrieveQueue around) tmdi

structure Summarizes (activities : Multiset (Option String)) (rqSummary : JobsSummary) : Prop where
  jobs : rqSummary.jobs = activities.card
  activityCounts : ∃ m : ValueCountMap String, ValueCountMap.Counts m (activities.filterMap id) ∧
    rqSummary.activityCounts = m.map fun ra => ⟨ra.value, ra.count⟩

def mountsOf (activity : Option String) (mounts : List PotentialMount) : List PotentialMount :=
  mounts.filter fun m => m.activity = activity

/-- One mount for each activity, with its count, one without activity exactly if a job has none,
and the same sleep in all of them. -/
structure PerActivity (activities : Multiset (Option String)) (mounts : List PotentialMount) :
    Prop where
  one : ∀ activity, (mountsOf activity mounts).length = if activity ∈ activities then 1 else 0
  counts : ∀ m ∈ mounts, m.activity ≠ none → m.filesQueued = activities.count m.activity
  sleep : ∀ m ∈ mounts, ∀ m' ∈ mounts, m.sleepingMount = m'.sleepingMount ∧
    m.sleepStartTime = m'.sleepStartTime ∧ m.diskSystemSleptFor = m'.diskSystemSleptFor ∧
    m.sleepTime = m'.sleepTime

/-- The mount says that the queue sleeps, since when and for which disk system, or that it does
not. -/
def ShowsSleep (sleepInfo : Option SleepInfo) (m : PotentialMount) : Prop :=
  match sleepInfo with
  | some s => m.sleepingMount = true ∧ m.sleepStartTime = s.sleepStartTime ∧
      m.diskSystemSleptFor = s.diskSystemSleptFor
  | none => m.sleepingMount = false ∧ m.sleepStartTime = 0 ∧ m.diskSystemSleptFor = ""

def ShowsSleepTime (sleepInfo : Option SleepInfo) (m : PotentialMount) : Prop :=
  m.sleepTime = (sleepInfo.map (·.sleepTime)).getD 0

/-- One mount for each activity, and one without activity if a job has none, each with the files
and the bytes of the whole queue and with its sleep. -/
structure PerQueue (activities : Multiset (Option String)) (rqSummary : JobsSummary)
    (now : Int64) (mounts : List PotentialMount) : Prop where
  one : ∀ activity : String,
    (mountsOf activity mounts).length = if some activity ∈ activities then 1 else 0
  withoutActivity : none ∈ activities → (mountsOf none mounts).length = 1
  atMostOne : (mountsOf none mounts).length ≤ 1
  files : ∀ m ∈ mounts, m.filesQueued = activities.card
  bytes : ∀ m ∈ mounts, m.bytesQueued = rqSummary.bytes.toNat
  sleep : ∀ m ∈ mounts, ShowsSleep (sleepShown rqSummary now) m
  sleepTime : ∀ m ∈ mounts, m.activity ≠ none → ShowsSleepTime (sleepShown rqSummary now) m

section
variable {queue : RetrieveQueue} {tape : Tape} {c : Criteria} {now : Int64}
  {activities : Multiset (Option String)} {m : PotentialMount}

structure FromQueue (queue : RetrieveQueue) (now : Int64) (m : PotentialMount) : Prop where
  files : m.filesQueued = queue.rqSummary.jobs
  bytes : m.bytesQueued = queue.rqSummary.bytes.toNat
  sleep : ShowsSleep (sleepShown queue.rqSummary now) m

theorem fromQueue_activityMount (activity : String) :
    FromQueue queue now (activityMount queue tape c now activity) := by
  unfold activityMount
  cases hs : sleepShown queue.rqSummary now with
  | none => exact ⟨rfl, rfl, by simp [hs, ShowsSleep, queueMount]⟩
  | some s => exact ⟨rfl, rfl, by simp [hs, ShowsSleep]⟩

theorem fromQueue_mountWithoutActivity :
    FromQueue queue now (mountWithoutActivity queue tape c now) := by
  unfold mountWithoutActivity
  cases hs : sleepShown queue.rqSummary now with
  | none => exact ⟨rfl, rfl, by simp [hs, ShowsSleep, queueMount]⟩
  | some s => exact ⟨rfl, rfl, by simp [hs, ShowsSleep]⟩

@[simp] theorem activityMount_activity (activity : String) :
    (activityMount queue tape c now activity).activity = some activity := by
  unfold activityMount
  cases sleepShown queue.rqSummary now with
  | none => rfl
  | some s => rfl

@[simp] theorem mountWithoutActivity_activity :
    (mountWithoutActivity queue tape c now).activity = none := by
  unfold mountWithoutActivity
  cases sleepShown queue.rqSummary now with
  | none => rfl
  | some s => rfl

theorem activityMount_sleepTime (activity : String) :
    ShowsSleepTime (sleepShown queue.rqSummary now)
      (activityMount queue tape c now activity) := by
  unfold activityMount ShowsSleepTime
  cases sleepShown queue.rqSummary now with
  | none => rfl
  | some s => rfl

theorem mem_retrieveMounts (hm : m ∈ retrieveMounts queue tape c now) :
    (∃ activity, m = activityMount queue tape c now activity) ∨
      m = mountWithoutActivity queue tape c now := by
  unfold retrieveMounts at hm
  cases List.mem_append.mp hm with
  | inl hm =>
    obtain ⟨ac, -, rfl⟩ := List.mem_map.mp hm
    exact .inl ⟨_, rfl⟩
  | inr hm =>
    split at hm
    · exact .inr (List.mem_singleton.mp hm)
    · simp at hm

theorem fromQueue_retrieveMounts (hm : m ∈ retrieveMounts queue tape c now) :
    FromQueue queue now m := by
  rcases mem_retrieveMounts hm with ⟨activity, rfl⟩ | rfl
  · exact fromQueue_activityMount activity
  · exact fromQueue_mountWithoutActivity

theorem mountsOf_some (activity : String) :
    (mountsOf (some activity) (retrieveMounts queue tape c now)).length =
      (queue.rqSummary.activityCounts.map (·.activity)).count activity := by
  unfold mountsOf retrieveMounts
  rw [List.filter_append, List.length_append, List.filter_map, List.length_map, List.count_eq_countP,
    List.countP_map, List.countP_eq_length_filter]
  have hrest : (if jobsWithoutActivity queue.rqSummary then
      [mountWithoutActivity queue tape c now] else []).filter
        (fun m : PotentialMount => m.activity = some activity) = [] := by
    split
    · simp
    · rfl
  rw [hrest, List.length_nil, Nat.add_zero]
  congr 1
  exact List.filter_congr fun ac _ => by simp [Bool.beq_eq_decide_eq]

theorem mountsOf_none :
    (mountsOf none (retrieveMounts queue tape c now)).length =
      if jobsWithoutActivity queue.rqSummary then 1 else 0 := by
  unfold mountsOf retrieveMounts
  rw [List.filter_append, List.length_append, List.filter_map]
  have hnone : queue.rqSummary.activityCounts.filter ((fun m : PotentialMount => decide
      (m.activity = none)) ∘ fun ac => activityMount queue tape c now ac.activity) = [] := by
    simp [Function.comp_def]
  rw [hnone, List.map_nil, List.length_nil, Nat.zero_add]
  split
  · simp
  · rfl

theorem Summarizes.count (h : Summarizes activities queue.rqSummary) (activity : String) :
    (queue.rqSummary.activityCounts.map (·.activity)).count activity =
      if some activity ∈ activities then 1 else 0 := by
  obtain ⟨m, ⟨hm, hcount⟩, hlist⟩ := h.activityCounts
  have hvalues : queue.rqSummary.activityCounts.map (·.activity) = m.map (·.value) := by
    simp [hlist, Function.comp_def]
  have hmem : activity ∈ m.map (·.value) ↔ some activity ∈ activities := by
    rw [← hm.mem_toMultiset, hcount, Multiset.mem_filterMap]
    simp
  rw [hvalues]
  by_cases ha : some activity ∈ activities
  · rw [if_pos ha]
    exact List.count_eq_one_of_mem hm.nodup (hmem.mpr ha)
  · rw [if_neg ha]
    exact List.count_eq_zero_of_not_mem fun hin => ha (hmem.mp hin)

theorem length_le_card {m : ValueCountMap String} (h : ValueCountMap.WellFormed m) :
    m.length ≤ (ValueCountMap.toMultiset m).card := by
  induction m with
  | nil => simp
  | cons p m ih =>
    have hp := h.positive p List.mem_cons_self
    have := ih h.tail
    rw [ValueCountMap.toMultiset_cons, Multiset.card_add, Multiset.card_replicate, List.length_cons]
    omega

theorem card_filterMap_le (activities : Multiset (Option String)) :
    (activities.filterMap id).card ≤ activities.card := by
  induction activities using Multiset.induction_on with
  | empty => simp
  | cons activity activities ih =>
    cases activity with
    | none => simpa [Multiset.filterMap_cons_none] using Nat.le_succ_of_le ih
    | some a => simpa [Multiset.filterMap_cons_some (b := a)] using ih

theorem Summarizes.jobsWithoutActivity (h : Summarizes activities queue.rqSummary)
    (hnone : none ∈ activities) : jobsWithoutActivity queue.rqSummary = true := by
  obtain ⟨m, ⟨hm, hcount⟩, hlist⟩ := h.activityCounts
  obtain ⟨others, rfl⟩ := Multiset.exists_cons_of_mem hnone
  have hle := length_le_card hm
  have hothers := card_filterMap_le others
  have hlength : queue.rqSummary.activityCounts.length < queue.rqSummary.jobs := by
    rw [h.jobs, hlist, List.length_map, Multiset.card_cons]
    rw [hcount, Multiset.filterMap_cons_none none others rfl] at hle
    omega
  simp only [RetrieveMountInfo.jobsWithoutActivity, Bool.not_eq_true', decide_eq_false_iff_not]
  omega

theorem retrieveMounts_perQueue (h : Summarizes activities queue.rqSummary) :
    PerQueue activities queue.rqSummary now (retrieveMounts queue tape c now) where
  one activity := by rw [mountsOf_some, h.count]
  withoutActivity hnone := by rw [mountsOf_none, if_pos (h.jobsWithoutActivity hnone)]
  atMostOne := by
    rw [mountsOf_none]
    split <;> omega
  files m hm := h.jobs ▸ (fromQueue_retrieveMounts hm).files
  bytes m hm := (fromQueue_retrieveMounts hm).bytes
  sleep m hm := (fromQueue_retrieveMounts hm).sleep
  sleepTime m hm hactivity := by
    rcases mem_retrieveMounts hm with ⟨activity, rfl⟩ | rfl
    · exact activityMount_sleepTime activity
    · exact absurd mountWithoutActivity_activity hactivity

end

section
variable {around : Surroundings} {tmdi : TapeMountDecisionInfo} {queue : RetrieveQueue}
  {tape : Tape} {activities : Multiset (Option String)} {vidToTapeMap : String → Option Tape}

theorem criteria_ok (mountPolicies : List MountPolicy) (rqSummary : JobsSummary) :
    ∃ c, criteria mountPolicies rqSummary = .ok c := by
  unfold criteria
  cases hlist : getMountPoliciesInQueue mountPolicies rqSummary.mountPolicyCountMap with
  | nil => exact ⟨_, if_pos rfl⟩
  | cons front rest => exact ⟨_, rfl⟩

theorem fetchRetrieveQueue_eq (htapes : around.getTapesByVid queue.vid = .ok vidToTapeMap)
    (htape : vidToTapeMap queue.vid = some tape) :
    ∃ c, fetchRetrieveQueue around tmdi queue = .ok
      { potentialMounts := tmdi.potentialMounts ++
          if considered around queue tape then retrieveMounts queue tape c around.now else []
        queueTrimRequired := tmdi.queueTrimRequired || queue.rqSummary.jobs = 0 } := by
  obtain ⟨c, hc⟩ := criteria_ok around.mountPolicies queue.rqSummary
  refine ⟨c, ?_⟩
  unfold fetchRetrieveQueue
  cases hconsidered : considered around queue tape with
  | true =>
    have hjobs : queue.rqSummary.jobs ≠ 0 := by
      unfold considered at hconsidered
      simp only [Bool.and_eq_true, decide_eq_true_eq] at hconsidered
      exact hconsidered.1
    simp [htapes, htape, hconsidered, hc, hjobs, Bind.bind, Except.bind, pure, Except.pure]
  | false =>
    by_cases hjobs : queue.rqSummary.jobs = 0
    · simp [htapes, htape, hconsidered, hjobs, Bind.bind, Except.bind, pure, Except.pure]
    · simp [htapes, htape, hconsidered, hjobs, Bind.bind, Except.bind, pure, Except.pure]

/-- A queue of an active tape, of a disabled one with a mount policy for repack, or any queue to be
shown, gives one mount for each of its activities and one for its jobs without activity, all with
the totals and the sleep of the queue. The other queues give none. -/
theorem mounts_per_queue (hsummary : Summarizes activities queue.rqSummary)
    (htapes : around.getTapesByVid queue.vid = .ok vidToTapeMap)
    (htape : vidToTapeMap queue.vid = some tape) :
    ∃ mounts queueTrimRequired, fetchRetrieveQueue around tmdi queue = .ok
        { potentialMounts := tmdi.potentialMounts ++ mounts, queueTrimRequired } ∧
      if queue.rqSummary.jobs ≠ 0 ∧ (isPotentialMount tape.state queue.mountPolicyNames ∨
          around.purpose = .showQueues)
      then PerQueue activities queue.rqSummary around.now mounts
      else mounts = [] := by
  obtain ⟨c, hfetch⟩ : ∃ c, fetchRetrieveQueue around tmdi queue = .ok _ :=
    fetchRetrieveQueue_eq htapes htape
  refine ⟨_, _, hfetch, ?_⟩
  have hiff : considered around queue tape = true ↔ queue.rqSummary.jobs ≠ 0 ∧
      (isPotentialMount tape.state queue.mountPolicyNames ∨ around.purpose = .showQueues) := by
    simp [considered]
  by_cases hconsidered : considered around queue tape = true
  · rw [if_pos (hiff.mp hconsidered), if_pos hconsidered]
    exact retrieveMounts_perQueue hsummary
  · rw [if_neg fun h => hconsidered (hiff.mpr h), if_neg hconsidered]

def twoActivities : RetrieveQueue where
  vid := "V00001"
  rqSummary :=
    { jobs := 2, bytes := 2, oldestJobStartTime := 0, youngestJobStartTime := 0,
      activityCounts := [⟨"A", 1⟩, ⟨"B", 1⟩] }
  mountPolicyNames := []

def activeTape : Tape := ⟨.active, .cta⟩

def activeTapes : Surroundings where
  purpose := .getNextMount
  mountPolicies := []
  getTapesByVid _ := .ok fun _ => some activeTape
  now := 0

theorem getTapesByVid_activeTapes :
    activeTapes.getTapesByVid twoActivities.vid = .ok fun _ => some activeTape := rfl

theorem summarizes_twoActivities :
    Summarizes {some "A", some "B"} twoActivities.rqSummary where
  jobs := rfl
  activityCounts := by
    refine ⟨[⟨"A", 1⟩, ⟨"B", 1⟩], ⟨⟨by decide, by decide⟩, ?_⟩, rfl⟩
    simp [ValueCountMap.toMultiset]
    rfl

theorem mounts_per_queue_twoActivities :
    ∃ mounts queueTrimRequired, fetchRetrieveQueue activeTapes ⟨[], false⟩ twoActivities = .ok
        { potentialMounts := [] ++ mounts, queueTrimRequired } ∧
      if twoActivities.rqSummary.jobs ≠ 0 ∧
          (isPotentialMount activeTape.state twoActivities.mountPolicyNames ∨
            activeTapes.purpose = .showQueues)
      then PerQueue {some "A", some "B"} twoActivities.rqSummary activeTapes.now mounts
      else mounts = [] :=
  mounts_per_queue summarizes_twoActivities getTapesByVid_activeTapes rfl

theorem not_perActivity_twoActivities :
    Summarizes {some "A", some "B"} twoActivities.rqSummary ∧
      ∃ tmdi, fetchRetrieveQueue activeTapes ⟨[], false⟩ twoActivities = .ok tmdi ∧
        ¬PerActivity {some "A", some "B"} tmdi.potentialMounts := by
  obtain ⟨c, hfetch⟩ : ∃ c, fetchRetrieveQueue activeTapes ⟨[], false⟩ twoActivities = .ok _ :=
    fetchRetrieveQueue_eq getTapesByVid_activeTapes rfl
  refine ⟨summarizes_twoActivities, _, hfetch, fun h => ?_⟩
  have hmount : activityMount twoActivities activeTape c 0 "A" ∈
      retrieveMounts twoActivities activeTape c 0 := List.mem_cons_self
  have hcount := h.counts _ hmount (by simp)
  rw [(fromQueue_activityMount "A").files, activityMount_activity] at hcount
  exact absurd hcount (by decide)

/-- What a fetch of all the queues adds are the mounts of those that are considered, in the order
of the queues. -/
theorem fetchRetrieveQueues_eq {queues : List (Option RetrieveQueue)}
    (htapes : ∀ queue ∈ queues.filterMap id, ∃ vidToTapeMap,
      around.getTapesByVid queue.vid = .ok vidToTapeMap ∧ (vidToTapeMap queue.vid).isSome) :
    ∃ (mounts : List (List PotentialMount)) (queueTrimRequired : Bool),
      fetchRetrieveQueues around tmdi queues = .ok
        { potentialMounts := tmdi.potentialMounts ++ mounts.flatten, queueTrimRequired } ∧
      List.Forall₂ (fun queue added => ∃ tape c, added =
        if considered around queue tape then retrieveMounts queue tape c around.now else [])
        (queues.filterMap id) mounts := by
  unfold fetchRetrieveQueues
  generalize queues.filterMap id = fetched at htapes
  induction fetched generalizing tmdi with
  | nil => exact ⟨[], tmdi.queueTrimRequired, by simp [pure, Except.pure], .nil⟩
  | cons queue fetched ih =>
    obtain ⟨vidToTapeMap, hmap, htape⟩ := htapes queue List.mem_cons_self
    obtain ⟨tape, htape⟩ := Option.isSome_iff_exists.mp htape
    obtain ⟨c, hfetch⟩ : ∃ c, fetchRetrieveQueue around tmdi queue = .ok _ :=
      fetchRetrieveQueue_eq hmap htape
    rw [List.foldlM_cons, hfetch]
    simp only [Bind.bind, Except.bind]
    generalize htmdi : TapeMountDecisionInfo.mk _ _ = tmdi'
    obtain ⟨mounts, queueTrimRequired, hrest, hmounts⟩ := ih fun other hother =>
      htapes other (List.mem_cons_of_mem queue hother)
    refine ⟨_ :: mounts, queueTrimRequired, ?_, .cons ⟨tape, c, rfl⟩ hmounts⟩
    rw [hrest, ← htmdi, List.flatten_cons, List.append_assoc]

end

theorem summarizes_getJobsSummary {p : ObjectStore.RetrieveQueue}
    {parts : ObjectStore.ShardAddress → Option ObjectStore.RetrieveQueueShard} {next : Nat}
    {jobs : Multiset ObjectStore.RetrieveJobPointer}
    (h : ObjectStore.RetrieveQueue.Sane p parts next jobs) (hjobs : jobs ≠ 0)
    (sleepInfo : Option SleepInfo) :
    ∃ summary, getJobsSummary p = .ok summary ∧
      Summarizes (jobs.map (·.activity)) { summary with sleepInfo } := by
  have hne : ∀ {m : ValueCountMap Nat} {f : ObjectStore.RetrieveJobPointer → Nat},
      ValueCountMap.Counts m (jobs.map f) → m ≠ [] := by
    rintro m f hc rfl
    exact hjobs (Multiset.map_eq_zero.mp hc.2.symm)
  obtain ⟨x, xs, hx⟩ := List.exists_cons_of_ne_nil (hne h.booked.counted.priority)
  obtain ⟨y, ys, hy⟩ := List.exists_cons_of_ne_nil (hne h.booked.counted.age)
  have hcount : p.retrieveJobsCount ≠ 0 := by
    rw [h.count]
    exact mt Multiset.card_eq_zero.mp hjobs
  have hactivities : (jobs.map (·.activity)).filterMap id = jobs.filterMap (·.activity) :=
    Multiset.filterMap_map _ _ _
  unfold getJobsSummary
  rw [if_neg hcount, hx, hy]
  refine ⟨_, rfl, ⟨by simpa using h.count, p.activityMap, ?_, rfl⟩⟩
  exact hactivities ▸ h.booked.activity

end Cta.Scheduler.RetrieveMountInfo
