import Cta.Lib.Selection
import Cta.ObjectStore.ObjectOps
import Cta.ObjectStore.RootEntry
import Cta.Scheduler.RetrieveFailure

/-! The statistics of the retrieve queues: how they are compared and where they are read. -/
namespace Cta.Scheduler.RetrieveFailure
open Cta.Lib.Selection
open Cta.ObjectStore (Address)
open Cta.ObjectStore.ObjectOps (Ops ObjectRef LockRef)
open Cta.ObjectStore.GarbageCollector (TapeFile)
open Cta.ObjectStore.RootEntry (Payload findElement)

def RetrieveQueueStatistics.Opposed (left right : RetrieveQueueStatistics) : Prop :=
  left.bytesQueued > right.bytesQueued ∧ right.currentPriority > left.currentPriority

def NoneOpposed (stats : List RetrieveQueueStatistics) : Prop :=
  ∀ left ∈ stats, ∀ right ∈ stats, ¬left.Opposed right

/-- The comparison is fit for sorting, and the shortlist depends neither on the order of the
candidates nor on where the sort leaves equivalent ones. -/
structure Ranked (stats : List RetrieveQueueStatistics) : Prop where
  order : WeakOrderOn RetrieveQueueStatistics.gt stats
  shortlist : ∀ s s' : WeakSorting RetrieveQueueStatistics.gt, ∀ stats', stats'.Perm stats →
    ∀ vid, vid ∈ Statistics.shortlistVids (s.sort stats) ↔
      vid ∈ Statistics.shortlistVids (s'.sort stats')

section
variable {stats : List RetrieveQueueStatistics} {left right : RetrieveQueueStatistics}

theorem gt_iff : left.gt right = true ↔
    left.bytesQueued > right.bytesQueued ∨ left.currentPriority > right.currentPriority := by
  simp [RetrieveQueueStatistics.gt]

theorem not_gt_iff : left.gt right = false ↔
    left.bytesQueued ≤ right.bytesQueued ∧ left.currentPriority ≤ right.currentPriority := by
  rw [← Bool.not_eq_true, gt_iff]
  omega

theorem weakOrderOn_iff :
    WeakOrderOn RetrieveQueueStatistics.gt stats ↔ NoneOpposed stats := by
  constructor
  · rintro h left hl right hr ⟨hbytes, hpriority⟩
    have hlr : left.gt right = true := gt_iff.mpr (.inl hbytes)
    have hrl : right.gt left = true := gt_iff.mpr (.inr hpriority)
    have hself := h.toIsTrans.trans ⟨left, hl⟩ ⟨right, hr⟩ ⟨left, hl⟩ hlr hrl
    simp [h.irrefl hl] at hself
  · intro h
    have hopposed : ∀ left ∈ stats, ∀ right ∈ stats,
        left.bytesQueued > right.bytesQueued → right.currentPriority ≤ left.currentPriority :=
      fun left hl right hr hbytes => Nat.not_lt.mp fun hp => h left hl right hr ⟨hbytes, hp⟩
    refine { irrefl := ?_, trans := ?_, incomp_trans := ?_ }
    · rintro ⟨a, ha⟩
      simp [gt_iff]
    · rintro ⟨a, ha⟩ ⟨b, hb⟩ ⟨c, hc⟩ hab hbc
      have hba := hopposed b hb a ha
      have hcb := hopposed c hc b hb
      rw [gt_iff] at hab hbc ⊢
      dsimp only at hab hbc ⊢
      omega
    · rintro ⟨a, ha⟩ ⟨b, hb⟩ ⟨c, hc⟩ hab hbc
      simp only [Bool.not_eq_true, not_gt_iff] at hab hbc ⊢
      omega

theorem shortlistVids_eq (stats : List RetrieveQueueStatistics) : Statistics.shortlistVids stats =
    ((equivalents RetrieveQueueStatistics.gt stats).map (·.vid)).dedup := by
  cases stats <;> rfl

theorem mem_shortlistVids (s : WeakSorting RetrieveQueueStatistics.gt) (h : NoneOpposed stats)
    {vid : String} : vid ∈ Statistics.shortlistVids (s.sort stats) ↔
      ∃ best ∈ stats, (∀ other ∈ stats, other.gt best = false) ∧ best.vid = vid := by
  rw [shortlistVids_eq, List.mem_dedup, List.mem_map]
  simp only [mem_equivalents_sort s (weakOrderOn_iff.mpr h), and_assoc]

/-- The order is one if and only if no two queues are opposed. -/
theorem ranked_iff : Ranked stats ↔ NoneOpposed stats := by
  refine ⟨fun h => weakOrderOn_iff.mp h.order, fun h => ⟨weakOrderOn_iff.mpr h, ?_⟩⟩
  intro s s' stats' hperm vid
  have h' : NoneOpposed stats' := fun left hl right hr =>
    h left (hperm.mem_iff.mp hl) right (hperm.mem_iff.mp hr)
  rw [mem_shortlistVids s h, mem_shortlistVids s' h']
  simp only [hperm.mem_iff]

theorem not_ranked_opposed : ¬∀ stats, Ranked stats := by
  intro h
  have hnone := weakOrderOn_iff.mp (h [⟨"V1", 2, 1, 1⟩, ⟨"V2", 1, 1, 2⟩]).order
  have hopposed : RetrieveQueueStatistics.Opposed ⟨"V1", 2, 1, 1⟩ ⟨"V2", 1, 1, 2⟩ :=
    ⟨by decide, by decide⟩
  exact hnone _ List.mem_cons_self _ (by simp) hopposed

end

structure JobsSummary where
  priority : Nat
  bytes : Nat
  jobs : Nat
  deriving DecidableEq, Repr

structure RetrieveQueueObject where
  vid : String
  summary : JobsSummary
  deriving DecidableEq, Repr

/-- The root entry in memory when the loop begins: it was locked, fetched and unlocked. -/
def releasedRootEntry : Ops :=
  let re := ObjectRef.typed 0
  let rel := LockRef.shared 0
  let s : ObjectStore.ObjectOps.State :=
    { objects := fun _ => { address := some "root" }, locks := fun _ => {},
      store := fun _ => true, given := [] }
  let s := (ObjectStore.ObjectOps.lock rel re true s).state
  let s := (ObjectStore.ObjectOps.fetch re .good s).state
  (ObjectStore.ObjectOps.release rel s).state.objects re

def getRetrieveQueueAddress (ops : Ops) (re : Payload) (vid : String) : Except Failure Address :=
  match ops.checkPayloadReadable with
  | some _ => .error .exception
  | none =>
    match findElement (re.retrieveQueuePointers .jobsToTransferForUser) vid with
    | some pointer => .ok pointer.address
    | none => .error .exception

def setAddress (name : String) : Except Failure Address :=
  if name = "" then .error .exception else .ok name

/-- The address that is found goes to a variable of the `try` block, `outerAddr` stays empty. -/
def getRetrieveQueueStatistics (re : Payload) (queues : Address → Except Failure RetrieveQueueObject)
    (vidsToConsider : Finset String) :
    List TapeFile → Except Failure (List RetrieveQueueStatistics)
  | [] => .ok []
  | tf :: tapeFiles => do
    if tf.vid ∉ vidsToConsider then
      getRetrieveQueueStatistics re queues vidsToConsider tapeFiles
    else
      let outerAddr := ""
      match getRetrieveQueueAddress releasedRootEntry re tf.vid with
      | .error _ =>
        let rest ← getRetrieveQueueStatistics re queues vidsToConsider tapeFiles
        return ⟨tf.vid, 0, 0, 0⟩ :: rest
      | .ok _ =>
        let rq ← setAddress outerAddr
        let queue ← queues rq
        if queue.vid ≠ tf.vid then throw .exception
        let rest ← getRetrieveQueueStatistics re queues vidsToConsider tapeFiles
        return ⟨queue.vid, queue.summary.bytes, queue.summary.jobs, queue.summary.priority⟩ :: rest

structure StatisticsOf (re : Payload) (queues : Address → Except Failure RetrieveQueueObject)
    (tf : TapeFile) (stats : RetrieveQueueStatistics) : Prop where
  vid : stats.vid = tf.vid
  missing : findElement (re.retrieveQueuePointers .jobsToTransferForUser) tf.vid = none →
    stats = ⟨tf.vid, 0, 0, 0⟩
  found : ∀ pointer,
    findElement (re.retrieveQueuePointers .jobsToTransferForUser) tf.vid = some pointer →
      ∃ queue, queues pointer.address = .ok queue ∧
        stats = ⟨tf.vid, queue.summary.bytes, queue.summary.jobs, queue.summary.priority⟩

def Reported (re : Payload) (queues : Address → Except Failure RetrieveQueueObject)
    (vidsToConsider : Finset String) (tapeFiles : List TapeFile) : Prop :=
  ∃ stats, getRetrieveQueueStatistics re queues vidsToConsider tapeFiles = .ok stats ∧
    List.Forall₂ (StatisticsOf re queues) (tapeFiles.filter (·.vid ∈ vidsToConsider)) stats

section
variable {re : Payload} {queues : Address → Except Failure RetrieveQueueObject}
  {vidsToConsider : Finset String} {tapeFiles : List TapeFile}

/-- Releasing the lock has voided the payload. -/
theorem releasedRootEntry_notFetched : releasedRootEntry.checkPayloadReadable = some .notFetched :=
  rfl

theorem getRetrieveQueueAddress_released (re : Payload) (vid : String) :
    getRetrieveQueueAddress releasedRootEntry re vid = .error .exception := by
  rw [getRetrieveQueueAddress, releasedRootEntry_notFetched]

theorem getRetrieveQueueStatistics_eq (re : Payload)
    (queues : Address → Except Failure RetrieveQueueObject) (vidsToConsider : Finset String)
    (tapeFiles : List TapeFile) : getRetrieveQueueStatistics re queues vidsToConsider tapeFiles =
      .ok ((tapeFiles.filter (·.vid ∈ vidsToConsider)).map fun tf => ⟨tf.vid, 0, 0, 0⟩) := by
  induction tapeFiles with
  | nil => rfl
  | cons tf tapeFiles ih =>
    rw [getRetrieveQueueStatistics, getRetrieveQueueAddress_released, ih]
    by_cases hvid : tf.vid ∈ vidsToConsider
    · simp [hvid]
    · simp [hvid]

theorem statisticsOf_zeros {tf : TapeFile} : StatisticsOf re queues tf ⟨tf.vid, 0, 0, 0⟩ ↔
    ∀ pointer, findElement (re.retrieveQueuePointers .jobsToTransferForUser) tf.vid = some pointer →
      ∃ queue, queues pointer.address = .ok queue ∧ queue.summary = ⟨0, 0, 0⟩ := by
  constructor
  · intro h pointer hpointer
    obtain ⟨⟨vid, priority, bytes, jobs⟩, hqueue, hstats⟩ := h.found pointer hpointer
    cases hstats
    exact ⟨_, hqueue, rfl⟩
  · intro h
    refine ⟨rfl, fun _ => rfl, fun pointer hpointer => ?_⟩
    obtain ⟨queue, hqueue, hsummary⟩ := h pointer hpointer
    exact ⟨queue, hqueue, by rw [hsummary]⟩

/-- The statistics are those of the queues if and only if there is nothing in these. -/
theorem statistics_reported_iff : Reported re queues vidsToConsider tapeFiles ↔
    ∀ tf ∈ tapeFiles, tf.vid ∈ vidsToConsider → ∀ pointer,
      findElement (re.retrieveQueuePointers .jobsToTransferForUser) tf.vid = some pointer →
        ∃ queue, queues pointer.address = .ok queue ∧ queue.summary = ⟨0, 0, 0⟩ := by
  unfold Reported
  rw [getRetrieveQueueStatistics_eq]
  simp only [Except.ok.injEq, exists_eq_left', List.forall₂_map_right_iff, List.forall₂_same,
    statisticsOf_zeros, List.mem_filter, decide_eq_true_eq, and_imp]

theorem not_reported_queued :
    ¬∀ re queues vidsToConsider tapeFiles, Reported re queues vidsToConsider tapeFiles := by
  intro h
  obtain ⟨stats, hstats, hall⟩ := h
    { retrieveQueueToTransferForUserPointers := [⟨"RetrieveQueueToTransferForUser-V1", "V1"⟩] }
    (fun _ => .ok ⟨"V1", ⟨1, 10, 1⟩⟩) {"V1"} [⟨"V1", 1⟩]
  obtain rfl := Except.ok.inj ((getRetrieveQueueStatistics_eq _ _ _ _).symm.trans hstats)
  obtain ⟨queue, hqueue, hsummary⟩ := statisticsOf_zeros.mp (List.forall₂_cons.mp hall).1 _ rfl
  cases hqueue
  cases hsummary

end

end Cta.Scheduler.RetrieveFailure
