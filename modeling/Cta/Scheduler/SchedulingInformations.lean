import Cta.Catalogue.DriveState
import Cta.Lib.GroupedByKey
import Cta.Scheduler.MountCandidates
import Mathlib.Data.Finset.Lattice.Basic
import Mathlib.Data.Finset.Lattice.Lemmas
import Mathlib.Algebra.Ring.Nat

/-! The scheduling information that is shown for each logical library, against what the scheduler
finds for its drives. -/
namespace Cta.Scheduler.SchedulingInformations
open Cta.Catalogue.DriveState Cta.Lib.GroupedByKey Cta.Lib.Selection Cta.Scheduler.MountInfo
  Cta.Scheduler.MountCandidates
open Cta.Lib.Transactions (except_bind_eq_ok)

/-- The tapes are asked for only when there is an archive; else the list stays as it is. -/
def tapesFrom (c : Catalogue) (logicalLibraryName : String) (mounts : List PotentialMount)
    (tapeList : List TapeForWriting) : Except Failure (List TapeForWriting) :=
  if mounts.any isArchive then c.getTapesForWriting logicalLibraryName else .ok tapeList

/-- `sortAndGetTapesForMountInfo` with all that is passed by reference: the mounts are filtered in
place, the counters and the tapes in use are added to. -/
def sortAndGetTapesFrom (s : MountScheduler) (sorting : Sorting PotentialMount.lt)
    (logicalLibraryName : String) (existingOrNextMounts : List ExistingMount) (before : Candidates)
    (driveName : String) : Except Failure Candidates := do
  let eligibleTapes ← s.catalogue.getTapes logicalLibraryName
  let served := servedMounts (eligibleTapes.map (·.vid)).toFinset before.potentialMounts
  let tapes ← retrieveTapesInfo s.catalogue served
  let mounts := served.map (setTapeInfo tapes)
  let vos ← getTapepoolVos s.catalogue
    (tapepoolsPotentialOrExistingMounts mounts existingOrNextMounts)
  let others := existingOrNextMounts.filter (·.driveName ≠ driveName)
  let perTapepool := fun k => before.existingMountsDistinctTypeSummaryPerTapepool k +
    tally (fun e => (e.tapePool, e.type)) others k
  let perVo := fun k => before.existingMountsBasicTypeSummaryPerVo k +
    tally (fun e => ((voAt vos e.tapePool).name, getMountBasicType e.type)) others k
  let tapesInUse := before.tapesInUse ∪ ((others.map (·.vid)).filter (· ≠ "")).toFinset
  let kept := mounts.filter fun m => !s.isRemoved perTapepool perVo vos m
  let potentialMounts := sorting.descending (kept.map weighted)
  let tapeList ← tapesFrom s.catalogue logicalLibraryName potentialMounts before.tapeList
  return {
    potentialMounts := potentialMounts
    existingMountsDistinctTypeSummaryPerTapepool := perTapepool
    existingMountsBasicTypeSummaryPerVo := perVo
    tapesInUse := tapesInUse
    tapeList := tapeList.filter (·.vid ∉ tapesInUse) }

def start (potentialMounts : List PotentialMount) : Candidates where
  potentialMounts := potentialMounts
  existingMountsDistinctTypeSummaryPerTapepool := fun _ => 0
  existingMountsBasicTypeSummaryPerVo := fun _ => 0
  tapesInUse := ∅
  tapeList := []

structure SchedulingInfos where
  logicalLibraryName : String
  potentialMounts : List PotentialMount
  deriving DecidableEq

def scheduleDrives (s : MountScheduler) (sorting : Sorting PotentialMount.lt)
    (logicalLibraryName : String) (existingOrNextMounts : List ExistingMount) :
    List String → Candidates → List PotentialMount →
      Except Failure (Candidates × List PotentialMount)
  | [], c, infos => .ok (c, infos)
  | driveName :: driveNames, c, infos => do
    let c ← sortAndGetTapesFrom s sorting logicalLibraryName existingOrNextMounts c driveName
    scheduleDrives s sorting logicalLibraryName existingOrNextMounts driveNames c
      (infos ++ c.potentialMounts)

/-- The loop over the libraries. Each has its own mounts, but they share the counters. -/
def scheduleLibraries (s : MountScheduler) (sorting : Sorting PotentialMount.lt)
    (getMountInfoNoLock : String → TapeMountDecisionInfo) :
    List (String × List String) → Candidates → Except Failure (List SchedulingInfos)
  | [], _ => .ok []
  | (logicalLibrary, driveNames) :: rest, c => do
    let mountInfo := getMountInfoNoLock logicalLibrary
    let (c, infos) ← scheduleDrives s sorting logicalLibrary mountInfo.existingOrNextMounts
      driveNames { c with potentialMounts := mountInfo.potentialMounts } []
    let ret ← scheduleLibraries s sorting getMountInfoNoLock rest c
    return if infos.isEmpty then ret else ⟨logicalLibrary, infos⟩ :: ret

def logicalLibraryDriveNamesMap (drives : List TapeDrive) : List (String × List String) :=
  grouped (drives.map fun drive => (drive.logicalLibrary, drive.driveName))

def getSchedulingInformations (s : MountScheduler) (sorting : Sorting PotentialMount.lt)
    (drives : List TapeDrive) (getMountInfoNoLock : String → TapeMountDecisionInfo) :
    Except Failure (List SchedulingInfos) :=
  scheduleLibraries s sorting getMountInfoNoLock (logicalLibraryDriveNamesMap drives) (start [])

structure Visit where
  driveName : String
  mountInfo : TapeMountDecisionInfo

/-- The existing mounts of a kind, counted once for each drive handled that does not have them. -/
def countedMounts (visits : List Visit) (kind : ExistingMount → Bool) : Nat :=
  (visits.map fun v => countOnOtherDrives v.mountInfo v.driveName kind).sum

def MeetsCriterion (s : MountScheduler) (m : PotentialMount) (shared : Nat) : Prop :=
  s.minBytesFor m.type ≤ m.bytesQueued / (1 + shared) ∨
  s.minFilesFor m.type ≤ m.filesQueued / (1 + shared) ∨
  (shared = 0 ∧ m.minRequestAge < s.now - m.oldestJobStartTime)

/-- A mount criterion is met and the quota of the virtual organization is not used up, with the
mounts counted for these drives. -/
def Admitted (s : MountScheduler) (visits : List Visit) (m : PotentialMount) : Prop :=
  MeetsCriterion s m (effectiveExistingMounts m
    (countedMounts visits fun e => e.tapePool = m.tapePool ∧ e.type = m.type)) ∧
  ∃ vo, s.catalogue.getCachedVirtualOrganizationOfTapepool m.tapePool = .ok vo ∧
    countedMounts visits (fun e => ownedBy s.catalogue vo.name e.tapePool ∧
      getMountBasicType e.type = getMountBasicType m.type) <
        maxDrives vo (getMountBasicType m.type)

section
variable {s : MountScheduler} {sorting : Sorting PotentialMount.lt} {m : PotentialMount}
  {visits visits' : List Visit} {mountInfo : TapeMountDecisionInfo}
  {logicalLibraryName driveName : String} {before c : Candidates}

theorem countedMounts_append (kind : ExistingMount → Bool) :
    countedMounts (visits ++ visits') kind =
      countedMounts visits kind + countedMounts visits' kind := by
  simp [countedMounts]

theorem countedMounts_single (v : Visit) (kind : ExistingMount → Bool) :
    countedMounts [v] kind = countOnOtherDrives v.mountInfo v.driveName kind := by
  simp [countedMounts]

theorem MeetsCriterion.of_le {shared shared' : Nat} (h : MeetsCriterion s m shared')
    (hle : shared ≤ shared') : MeetsCriterion s m shared := by
  have hbytes : m.bytesQueued / (1 + shared') ≤ m.bytesQueued / (1 + shared) :=
    Nat.div_le_div_left (by omega) (by omega)
  have hfiles : m.filesQueued / (1 + shared') ≤ m.filesQueued / (1 + shared) :=
    Nat.div_le_div_left (by omega) (by omega)
  cases h with
  | inl h => exact .inl (h.trans hbytes)
  | inr h =>
    cases h with
    | inl h => exact .inr (.inl (h.trans hfiles))
    | inr h => exact .inr (.inr ⟨by omega, h.2⟩)

theorem effectiveExistingMounts_le {existing existing' : Nat} (h : existing ≤ existing') :
    effectiveExistingMounts m existing ≤ effectiveExistingMounts m existing' := by
  unfold effectiveExistingMounts
  split
  · exact h
  · exact Nat.le_refl 0

theorem Admitted.of_append (h : Admitted s (visits ++ visits') m) : Admitted s visits' m := by
  obtain ⟨hcriterion, vo, hvo, hquota⟩ := h
  rw [countedMounts_append] at hcriterion hquota
  refine ⟨hcriterion.of_le (effectiveExistingMounts_le (Nat.le_add_left _ _)), vo, hvo, ?_⟩
  omega

theorem schedulable_iff : Schedulable s mountInfo logicalLibraryName driveName m ↔
    (m.type = .retrieve → ∃ tapes, s.catalogue.getTapes logicalLibraryName = .ok tapes ∧
      m.vid ∈ tapes.map (·.vid)) ∧
    m.sleepingMount = false ∧ Admitted s [⟨driveName, mountInfo⟩] m := by
  simp only [Admitted, countedMounts_single]
  exact ⟨fun h => ⟨h.eligible, h.awake, h.criterion, h.quota⟩,
    fun h => ⟨h.1, h.2.2.1, h.2.1, h.2.2.2⟩⟩

structure Counted (s : MountScheduler) (visits : List Visit) (c : Candidates) : Prop where
  perTapepool : ∀ tapePool type, c.existingMountsDistinctTypeSummaryPerTapepool (tapePool, type) =
    countedMounts visits fun e => e.tapePool = tapePool ∧ e.type = type
  perVo : ∀ vo type, c.existingMountsBasicTypeSummaryPerVo (vo, type) =
    countedMounts visits fun e => ownedBy s.catalogue vo e.tapePool ∧
      getMountBasicType e.type = type

theorem isRemoved_iff (hc : Counted s visits c) {vos : String → Option VirtualOrganization}
    (hm : s.catalogue.getCachedVirtualOrganizationOfTapepool m.tapePool =
      .ok (voAt vos m.tapePool)) :
    s.isRemoved c.existingMountsDistinctTypeSummaryPerTapepool
        c.existingMountsBasicTypeSummaryPerVo vos m = false ↔
      m.sleepingMount = false ∧ Admitted s visits m := by
  have hquota : (∃ vo, s.catalogue.getCachedVirtualOrganizationOfTapepool m.tapePool = .ok vo ∧
      countedMounts visits (fun e => ownedBy s.catalogue vo.name e.tapePool ∧
        getMountBasicType e.type = getMountBasicType m.type) <
          maxDrives vo (getMountBasicType m.type)) ↔
      c.existingMountsBasicTypeSummaryPerVo
        ((voAt vos m.tapePool).name, getMountBasicType m.type) <
          maxDrives (voAt vos m.tapePool) (getMountBasicType m.type) := by
    simp [hm, hc.perVo]
  rw [Admitted, hquota, ← hc.perTapepool]
  simp only [MountScheduler.isRemoved, MountScheduler.mountPassesACriteria, MeetsCriterion,
    Bool.or_eq_false_iff, Bool.not_eq_false', decide_eq_false_iff_not, not_le, ge_iff_le,
    Bool.or_eq_true, decide_eq_true_eq, Bool.and_eq_true, or_assoc]
  tauto

theorem call_counted {vos : String → Option VirtualOrganization} {tapesInUse : Finset String}
    {tapeList : List TapeForWriting} {mounts : List PotentialMount} (hc : Counted s visits before)
    (hv : ∀ e ∈ mountInfo.existingOrNextMounts,
      s.catalogue.getCachedVirtualOrganizationOfTapepool e.tapePool = .ok (voAt vos e.tapePool)) :
    Counted s (visits ++ [⟨driveName, mountInfo⟩])
      { potentialMounts := mounts
        existingMountsDistinctTypeSummaryPerTapepool := fun k =>
          before.existingMountsDistinctTypeSummaryPerTapepool k +
            tally (fun e => (e.tapePool, e.type))
              (mountInfo.existingOrNextMounts.filter (·.driveName ≠ driveName)) k
        existingMountsBasicTypeSummaryPerVo := fun k =>
          before.existingMountsBasicTypeSummaryPerVo k +
            tally (fun e => ((voAt vos e.tapePool).name, getMountBasicType e.type))
              (mountInfo.existingOrNextMounts.filter (·.driveName ≠ driveName)) k
        tapesInUse := tapesInUse
        tapeList := tapeList } := by
  constructor
  · intro tapePool type
    simp only [hc.perTapepool, tally_otherDrives, countedMounts_append, countedMounts_single,
      Prod.mk.injEq]
  · intro vo type
    have hvo : countOnOtherDrives mountInfo driveName (fun e =>
        ((voAt vos e.tapePool).name, getMountBasicType e.type) = (vo, type)) =
          voMounts s mountInfo driveName vo type := voMounts_eq hv
    simp only [hc.perVo, tally_otherDrives, countedMounts_append, countedMounts_single, hvo]
    rfl

theorem call_spec (hbefore : Counted s visits before)
    (h : sortAndGetTapesFrom s sorting logicalLibraryName mountInfo.existingOrNextMounts before
      driveName = .ok c) :
    Counted s (visits ++ [⟨driveName, mountInfo⟩]) c ∧
    ∃ eligible tapes, s.catalogue.getTapes logicalLibraryName = .ok eligible ∧
      retrieveTapesInfo s.catalogue
        (servedMounts (eligible.map (·.vid)).toFinset before.potentialMounts) = .ok tapes ∧
      ∀ m, m ∈ c.potentialMounts ↔
        ∃ p ∈ before.potentialMounts, (p.type = .retrieve → p.vid ∈ eligible.map (·.vid)) ∧
          m = weighted (setTapeInfo tapes p) ∧ m.sleepingMount = false ∧
            Admitted s (visits ++ [⟨driveName, mountInfo⟩]) m := by
  obtain ⟨eligible, he, h⟩ := except_bind_eq_ok.mp h
  obtain ⟨tapes, ht, h⟩ := except_bind_eq_ok.mp h
  obtain ⟨vos, hv, h⟩ := except_bind_eq_ok.mp h
  obtain ⟨tapeList, hl, h⟩ := except_bind_eq_ok.mp h
  simp only [pure, Except.pure, Except.ok.injEq] at h
  have hpool (e : ExistingMount) (hm : e ∈ mountInfo.existingOrNextMounts) :
      s.catalogue.getCachedVirtualOrganizationOfTapepool e.tapePool =
        .ok (voAt vos e.tapePool) :=
    voAt_getTapepoolVos hv (mem_tapepools.mpr (.inr (List.mem_map_of_mem hm)))
  have hcounted : Counted s (visits ++ [⟨driveName, mountInfo⟩]) c := by
    rw [← h]
    exact call_counted hbefore hpool
  refine ⟨hcounted, eligible, tapes, he, ht, fun m => ?_⟩
  have hmem : m ∈ c.potentialMounts ↔
      ∃ p ∈ servedMounts (eligible.map (·.vid)).toFinset before.potentialMounts,
        s.isRemoved c.existingMountsDistinctTypeSummaryPerTapepool
          c.existingMountsBasicTypeSummaryPerVo vos (setTapeInfo tapes p) = false ∧
        weighted (setTapeInfo tapes p) = m := by
    rw [← h]
    simp [Sorting.mem_descending, and_assoc]
  rw [hmem]
  refine exists_congr fun p => ?_
  rw [mem_servedMounts, and_assoc]
  refine and_congr_right fun hp => and_congr_right fun heligible => ?_
  have hserved : p ∈ servedMounts (eligible.map (·.vid)).toFinset before.potentialMounts :=
    mem_servedMounts.mpr ⟨hp, heligible⟩
  rw [isRemoved_iff hcounted (voAt_getTapepoolVos hv (mem_tapepools.mpr
    (.inl (List.mem_map_of_mem (List.mem_map_of_mem (f := setTapeInfo tapes) hserved)))))]
  constructor
  · rintro ⟨hkept, rfl⟩
    exact ⟨rfl, hkept⟩
  · rintro ⟨rfl, hkept⟩
    exact ⟨hkept, rfl⟩

end

def TapeData (c : Catalogue) (tape : String → Option Tape) : Prop :=
  ∀ vids answer, c.getTapesByVid vids = .ok answer → ∀ vid ∈ vids, answer vid = tape vid

section
variable {s : MountScheduler} {sorting : Sorting PotentialMount.lt} {m p : PotentialMount}
  {visits : List Visit} {mountInfo : TapeMountDecisionInfo} {logicalLibraryName driveName : String}
  {before c : Candidates} {tape tapes : String → Option Tape} {mounts : List PotentialMount}

theorem retrieveTapesInfo_eq (hc : TapeData s.catalogue tape)
    (h : retrieveTapesInfo s.catalogue mounts = .ok tapes) (hm : m ∈ mounts)
    (htype : m.type = .retrieve) : tapes m.vid = tape m.vid := by
  have hmem : m.vid ∈ retrieveTapeSet mounts := by
    rw [retrieveTapeSet, List.mem_toFinset, List.mem_map]
    exact ⟨m, List.mem_filter.mpr ⟨hm, by simpa using htype⟩, rfl⟩
  have hne : retrieveTapeSet mounts ≠ ∅ := fun hempty => by simp [hempty] at hmem
  rw [retrieveTapesInfo, if_neg hne] at h
  exact hc _ _ h _ hmem

theorem setTapeInfo_congr (h : p.type = .retrieve → tapes p.vid = tape p.vid) :
    setTapeInfo tapes p = setTapeInfo tape p := by
  unfold setTapeInfo
  split
  · next htype => rw [h htype]
  · rfl

@[simp] theorem weighted_type : (weighted m).type = m.type := rfl

@[simp] theorem weighted_vid : (weighted m).vid = m.vid := rfl

theorem weighted_setTapeInfo :
    weighted (setTapeInfo tape (weighted (setTapeInfo tape p))) =
      weighted (setTapeInfo tape p) := by
  unfold setTapeInfo weighted
  by_cases htype : p.type = .retrieve
  · simp [htype]
  · simp [htype]

def Settled (tape : String → Option Tape) (mounts : List PotentialMount) : Prop :=
  ∀ m ∈ mounts, weighted (setTapeInfo tape m) = m

theorem call_mem (hc : TapeData s.catalogue tape) (hbefore : Counted s visits before)
    (h : sortAndGetTapesFrom s sorting logicalLibraryName mountInfo.existingOrNextMounts before
      driveName = .ok c) (hm : m ∈ c.potentialMounts) :
    ∃ p ∈ before.potentialMounts, m = weighted (setTapeInfo tape p) := by
  obtain ⟨-, eligible, tapes, -, ht, hmem⟩ := call_spec hbefore h
  obtain ⟨p, hp, heligible, rfl, -⟩ := (hmem m).mp hm
  refine ⟨p, hp, congrArg weighted (setTapeInfo_congr fun htype => ?_)⟩
  exact retrieveTapesInfo_eq hc ht (mem_servedMounts.mpr ⟨hp, heligible⟩) htype

theorem call_settled (hc : TapeData s.catalogue tape) (hbefore : Counted s visits before)
    (h : sortAndGetTapesFrom s sorting logicalLibraryName mountInfo.existingOrNextMounts before
      driveName = .ok c) : Settled tape c.potentialMounts := by
  intro m hm
  obtain ⟨p, -, rfl⟩ := call_mem hc hbefore h hm
  exact weighted_setTapeInfo

theorem scheduleDrives_later (hc : TapeData s.catalogue tape) {driveNames : List String}
    {infos infos' : List PotentialMount} (hbefore : Counted s visits before)
    (hsettled : Settled tape before.potentialMounts)
    (hinfos : ∀ m ∈ before.potentialMounts, m ∈ infos)
    (h : scheduleDrives s sorting logicalLibraryName mountInfo.existingOrNextMounts driveNames
      before infos = .ok (c, infos')) :
    (∀ m, m ∈ infos' ↔ m ∈ infos) ∧ Counted s (visits ++ driveNames.map (⟨·, mountInfo⟩)) c := by
  induction driveNames generalizing visits before infos with
  | nil =>
    obtain ⟨rfl, rfl⟩ : before = c ∧ infos = infos' := by simpa [scheduleDrives] using h
    exact ⟨fun m => Iff.rfl, by simpa using hbefore⟩
  | cons driveName driveNames ih =>
    obtain ⟨next, hcall, hrest⟩ := except_bind_eq_ok.mp h
    have hsub : ∀ m ∈ next.potentialMounts, m ∈ infos := by
      intro m hm
      obtain ⟨p, hp, rfl⟩ := call_mem hc hbefore hcall hm
      rw [hsettled p hp]
      exact hinfos p hp
    obtain ⟨hmem, hcounted⟩ := ih (call_spec hbefore hcall).1 (call_settled hc hbefore hcall)
      (fun m hm => List.mem_append_right _ hm) hrest
    refine ⟨fun m => (hmem m).trans ?_, by simpa using hcounted⟩
    rw [List.mem_append]
    exact or_iff_left_of_imp (hsub m)

/-- A library reports what is schedulable for its first drive and admitted with all the mounts
counted up to it. -/
theorem scheduleDrives_spec (hc : TapeData s.catalogue tape) {first : String}
    {driveNames : List String} {infos : List PotentialMount} (hbefore : Counted s visits before)
    (hstart : before.potentialMounts = mountInfo.potentialMounts)
    (h : scheduleDrives s sorting logicalLibraryName mountInfo.existingOrNextMounts
      (first :: driveNames) before [] = .ok (c, infos)) :
    (∀ m, m ∈ infos ↔ IsPotentialMount s mountInfo logicalLibraryName m ∧
      Schedulable s mountInfo logicalLibraryName first m ∧
        Admitted s (visits ++ [⟨first, mountInfo⟩]) m) ∧
    Counted s (visits ++ (first :: driveNames).map (⟨·, mountInfo⟩)) c := by
  obtain ⟨next, hcall, hrest⟩ := except_bind_eq_ok.mp h
  obtain ⟨hcounted, eligible, tapes, he, ht, hmem⟩ := call_spec hbefore hcall
  obtain ⟨hinfos, hcounted'⟩ := scheduleDrives_later hc hcounted (call_settled hc hbefore hcall)
    (fun m hm => hm) hrest
  refine ⟨fun m => ?_, by simpa using hcounted'⟩
  rw [hinfos, hmem]
  rw [hstart] at ht ⊢
  constructor
  · rintro ⟨p, hp, heligible, rfl, hawake, hadmitted⟩
    refine ⟨⟨p, hp, eligible, tapes, he, ht, rfl⟩, schedulable_iff.mpr ⟨fun htype => ?_, hawake,
      hadmitted.of_append⟩, hadmitted⟩
    exact ⟨eligible, he, by simpa using heligible (by simpa using htype)⟩
  · rintro ⟨⟨p, hp, eligible', tapes', he', ht', rfl⟩, hschedulable, hadmitted⟩
    obtain rfl : eligible = eligible' := Except.ok.inj (he.symm.trans he')
    obtain rfl : tapes = tapes' := Except.ok.inj (ht.symm.trans ht')
    refine ⟨p, hp, fun htype => ?_, rfl, hschedulable.awake, hadmitted⟩
    obtain ⟨eligible', he', hvid⟩ := hschedulable.eligible (by simpa using htype)
    obtain rfl : eligible = eligible' := Except.ok.inj (he.symm.trans he')
    simpa using hvid

end

def Reported (ret : List SchedulingInfos) (logicalLibrary : String) (m : PotentialMount) : Prop :=
  ∃ infos ∈ ret, infos.logicalLibraryName = logicalLibrary ∧ m ∈ infos.potentialMounts

def Survives (s : MountScheduler) (sorting : Sorting PotentialMount.lt)
    (getMountInfoNoLock : String → TapeMountDecisionInfo) (logicalLibrary driveName : String)
    (m : PotentialMount) : Prop :=
  ∃ c, s.sortAndGetTapesForMountInfo sorting (getMountInfoNoLock logicalLibrary) logicalLibrary
    driveName = .ok c ∧ m ∈ c.potentialMounts

/-- The mounts that one of the drives of a library can have are still admitted when the existing
mounts have been counted for all the drives of the libraries before and for its first drive. -/
def StillAdmitted (s : MountScheduler) (getMountInfoNoLock : String → TapeMountDecisionInfo) :
    List Visit → List (String × List String) → Prop
  | _, [] => True
  | visits, (logicalLibrary, driveNames) :: rest =>
    (∀ first ∈ driveNames.head?, ∀ m,
      IsPotentialMount s (getMountInfoNoLock logicalLibrary) logicalLibrary m →
      (∃ driveName ∈ driveNames,
        Schedulable s (getMountInfoNoLock logicalLibrary) logicalLibrary driveName m) →
      Admitted s (visits ++ [⟨first, getMountInfoNoLock logicalLibrary⟩]) m) ∧
    StillAdmitted s getMountInfoNoLock
      (visits ++ driveNames.map (⟨·, getMountInfoNoLock logicalLibrary⟩)) rest

section
variable {s : MountScheduler} {sorting : Sorting PotentialMount.lt} {m : PotentialMount}
  {getMountInfoNoLock : String → TapeMountDecisionInfo} {logicalLibrary : String}
  {tape : String → Option Tape} {visits : List Visit} {before c : Candidates}
  {groups : List (String × List String)} {ret : List SchedulingInfos}

theorem survives_iff {driveName : String}
    (hcall : ∃ c, s.sortAndGetTapesForMountInfo sorting (getMountInfoNoLock logicalLibrary)
      logicalLibrary driveName = .ok c) :
    Survives s sorting getMountInfoNoLock logicalLibrary driveName m ↔
      IsPotentialMount s (getMountInfoNoLock logicalLibrary) logicalLibrary m ∧
        Schedulable s (getMountInfoNoLock logicalLibrary) logicalLibrary driveName m := by
  obtain ⟨c, hc⟩ := hcall
  rw [← (sortAndGetTapesForMountInfo_sound hc).mem_potentialMounts]
  constructor
  · rintro ⟨c', hc', hm⟩
    obtain rfl : c = c' := Except.ok.inj (hc.symm.trans hc')
    exact hm
  · exact fun hm => ⟨c, hc, hm⟩

theorem library_iff (before : Candidates) (hc : TapeData s.catalogue tape)
    {driveNames : List String}
    {infos : List PotentialMount} (hbefore : Counted s visits before)
    (hstart : before.potentialMounts = (getMountInfoNoLock logicalLibrary).potentialMounts)
    (hcalls : ∀ driveName ∈ driveNames, ∃ c, s.sortAndGetTapesForMountInfo sorting
      (getMountInfoNoLock logicalLibrary) logicalLibrary driveName = .ok c)
    (hne : driveNames ≠ [])
    (h : scheduleDrives s sorting logicalLibrary
      (getMountInfoNoLock logicalLibrary).existingOrNextMounts driveNames before [] =
        .ok (c, infos)) :
    ((∀ m, m ∈ infos ↔ ∃ driveName ∈ driveNames,
        Survives s sorting getMountInfoNoLock logicalLibrary driveName m) ↔
      ∀ first ∈ driveNames.head?, ∀ m,
        IsPotentialMount s (getMountInfoNoLock logicalLibrary) logicalLibrary m →
        (∃ driveName ∈ driveNames,
          Schedulable s (getMountInfoNoLock logicalLibrary) logicalLibrary driveName m) →
        Admitted s (visits ++ [⟨first, getMountInfoNoLock logicalLibrary⟩]) m) ∧
    Counted s (visits ++ driveNames.map (⟨·, getMountInfoNoLock logicalLibrary⟩)) c := by
  cases driveNames with
  | nil => exact absurd rfl hne
  | cons first driveNames =>
    obtain ⟨hmem, hcounted⟩ := scheduleDrives_spec hc hbefore hstart h
    refine ⟨⟨fun hall first' hfirst m hp hsome => ?_, fun hadmitted m => ⟨fun hm => ?_,
      fun hsome => ?_⟩⟩, hcounted⟩
    · obtain rfl : first = first' := by simpa using hfirst
      obtain ⟨driveName, hdrive, hschedulable⟩ := hsome
      have hm := (hall m).mpr ⟨driveName, hdrive,
        (survives_iff (hcalls driveName hdrive)).mpr ⟨hp, hschedulable⟩⟩
      exact ((hmem m).mp hm).2.2
    · obtain ⟨hp, hschedulable, -⟩ := (hmem m).mp hm
      exact ⟨first, List.mem_cons_self,
        (survives_iff (hcalls first List.mem_cons_self)).mpr ⟨hp, hschedulable⟩⟩
    · obtain ⟨driveName, hdrive, hsurvives⟩ := hsome
      obtain ⟨hp, hschedulable⟩ := (survives_iff (hcalls driveName hdrive)).mp hsurvives
      have hkept := hadmitted first rfl m hp ⟨driveName, hdrive, hschedulable⟩
      refine (hmem m).mpr ⟨hp, schedulable_iff.mpr ⟨?_, hschedulable.awake, hkept.of_append⟩, hkept⟩
      exact hschedulable.eligible

theorem reported_library (h : scheduleLibraries s sorting getMountInfoNoLock groups before = .ok ret)
    (hm : Reported ret logicalLibrary m) : ∃ g ∈ groups, g.1 = logicalLibrary := by
  induction groups generalizing before ret with
  | nil =>
    obtain rfl : ret = [] := by simpa [scheduleLibraries] using h.symm
    obtain ⟨infos, hinfos, -⟩ := hm
    cases hinfos
  | cons g rest ih =>
    obtain ⟨⟨c, infos⟩, hdrives, hrest⟩ := except_bind_eq_ok.mp h
    obtain ⟨ret', hret', heq⟩ := except_bind_eq_ok.mp hrest
    simp only [pure, Except.pure, Except.ok.injEq] at heq
    obtain ⟨entry, hentry, rfl, hmount⟩ := hm
    have hcases : entry.logicalLibraryName = g.1 ∨ entry ∈ ret' := by
      rw [← heq] at hentry
      split at hentry
      · exact .inr hentry
      · exact (List.mem_cons.mp hentry).imp_left (congrArg SchedulingInfos.logicalLibraryName)
    cases hcases with
    | inl hname => exact ⟨g, List.mem_cons_self, hname.symm⟩
    | inr hlater =>
      obtain ⟨g', hg', hname⟩ := ih hret' ⟨entry, hlater, rfl, hmount⟩
      exact ⟨g', List.mem_cons_of_mem g hg', hname⟩

theorem reported_cons {infos : List PotentialMount} {logicalLibrary' : String} :
    Reported (if infos.isEmpty then ret else ⟨logicalLibrary, infos⟩ :: ret) logicalLibrary' m ↔
      (logicalLibrary' = logicalLibrary ∧ m ∈ infos) ∨ Reported ret logicalLibrary' m := by
  cases infos with
  | nil => simp
  | cons first infos => simp [Reported, eq_comm]

theorem scheduleLibraries_iff (hc : TapeData s.catalogue tape) (hordered : Ordered groups)
    (hne : ∀ g ∈ groups, g.2 ≠ []) (hbefore : Counted s visits before)
    (hcalls : ∀ g ∈ groups, ∀ driveName ∈ g.2, ∃ c, s.sortAndGetTapesForMountInfo sorting
      (getMountInfoNoLock g.1) g.1 driveName = .ok c)
    (h : scheduleLibraries s sorting getMountInfoNoLock groups before = .ok ret) :
    (∀ logicalLibrary m, Reported ret logicalLibrary m ↔
      ∃ g ∈ groups, g.1 = logicalLibrary ∧ ∃ driveName ∈ g.2,
        Survives s sorting getMountInfoNoLock logicalLibrary driveName m) ↔
    StillAdmitted s getMountInfoNoLock visits groups := by
  induction groups generalizing before visits ret with
  | nil =>
    obtain rfl : ret = [] := by simpa [scheduleLibraries] using h.symm
    simp [Reported, StillAdmitted]
  | cons g rest ih =>
    obtain ⟨logicalLibrary, driveNames⟩ := g
    obtain ⟨⟨c, infos⟩, hdrives, hrest⟩ := except_bind_eq_ok.mp h
    obtain ⟨ret', hret', heq⟩ := except_bind_eq_ok.mp hrest
    simp only [pure, Except.pure, Except.ok.injEq] at heq
    obtain ⟨hfirst, hlater⟩ := List.pairwise_cons.mp hordered
    obtain ⟨hnefirst, hnelater⟩ := List.forall_mem_cons.mp hne
    obtain ⟨hcallsfirst, hcallslater⟩ := List.forall_mem_cons.mp hcalls
    obtain ⟨hlibrary, hcounted⟩ := library_iff { before with
      potentialMounts := (getMountInfoNoLock logicalLibrary).potentialMounts } hc
      ⟨hbefore.perTapepool, hbefore.perVo⟩ rfl hcallsfirst hnefirst hdrives
    rw [StillAdmitted, ← hlibrary, ← ih hlater hnelater hcounted hcallslater hret', ← heq]
    simp only [reported_cons, List.exists_mem_cons_iff]
    have hdistinct : ∀ g ∈ rest, g.1 ≠ logicalLibrary := fun g hg => ne_of_gt (hfirst g hg)
    have hreported (m : PotentialMount) : ¬Reported ret' logicalLibrary m := by
      intro hm
      obtain ⟨g, hg, hname⟩ := reported_library hret' hm
      exact hdistinct g hg hname
    have hfound (m : PotentialMount) : ¬∃ g ∈ rest, g.1 = logicalLibrary ∧
        ∃ driveName ∈ g.2, Survives s sorting getMountInfoNoLock logicalLibrary driveName m :=
      fun ⟨g, hg, hname, _⟩ => hdistinct g hg hname
    constructor
    · intro hall
      refine ⟨fun m => ?_, fun logicalLibrary' m => ?_⟩
      · simpa [hreported m, hfound m] using hall logicalLibrary m
      · by_cases hname : logicalLibrary' = logicalLibrary
        · subst hname
          exact iff_of_false (hreported m) (hfound m)
        · simpa [hname, Ne.symm hname] using hall logicalLibrary' m
    · intro ⟨hlib, hothers⟩ logicalLibrary' m
      by_cases hname : logicalLibrary' = logicalLibrary
      · subst hname
        simpa [hreported m, hfound m] using hlib m
      · simpa [hname, Ne.symm hname] using hothers logicalLibrary' m

/-- What is reported is what survives for some drive of the library if and only if no mount that a
drive can have is lost to the mounts counted for other drives. -/
theorem reported_iff (drives : List TapeDrive) (hc : TapeData s.catalogue tape)
    (hcalls : ∀ drive ∈ drives, ∃ c, s.sortAndGetTapesForMountInfo sorting
      (getMountInfoNoLock drive.logicalLibrary) drive.logicalLibrary drive.driveName = .ok c)
    (h : getSchedulingInformations s sorting drives getMountInfoNoLock = .ok ret) :
    (∀ logicalLibrary m, Reported ret logicalLibrary m ↔
      ∃ drive ∈ drives, drive.logicalLibrary = logicalLibrary ∧
        Survives s sorting getMountInfoNoLock logicalLibrary drive.driveName m) ↔
    StillAdmitted s getMountInfoNoLock [] (logicalLibraryDriveNamesMap drives) := by
  have hmem (logicalLibrary driveName : String) :
      (∃ drive ∈ drives, drive.logicalLibrary = logicalLibrary ∧ drive.driveName = driveName) ↔
        ∃ driveNames, (logicalLibrary, driveNames) ∈ logicalLibraryDriveNamesMap drives ∧
          driveName ∈ driveNames := by
    rw [← mem_entries, logicalLibraryDriveNamesMap, (entries_grouped _).mem_iff]
    simp
  have hstart : Counted s [] (start []) :=
    ⟨fun _ _ => by simp [start, countedMounts], fun _ _ => by simp [start, countedMounts]⟩
  refine Iff.trans ?_ (scheduleLibraries_iff hc (ordered_grouped _) (grouped_ne_nil _) hstart ?_ h)
  · refine forall_congr' fun logicalLibrary => forall_congr' fun m => iff_congr Iff.rfl ?_
    constructor
    · rintro ⟨drive, hdrive, hlibrary, hsurvives⟩
      obtain ⟨driveNames, hgroup, hname⟩ :=
        (hmem logicalLibrary drive.driveName).mp ⟨drive, hdrive, hlibrary, rfl⟩
      exact ⟨_, hgroup, rfl, drive.driveName, hname, hsurvives⟩
    · rintro ⟨⟨_, driveNames⟩, hgroup, rfl, driveName, hname, hsurvives⟩
      obtain ⟨drive, hdrive, hlibrary, rfl⟩ := (hmem _ driveName).mpr ⟨driveNames, hgroup, hname⟩
      exact ⟨drive, hdrive, hlibrary, hsurvives⟩
  · rintro ⟨logicalLibrary, driveNames⟩ hgroup driveName hname
    obtain ⟨drive, hdrive, rfl, rfl⟩ := (hmem logicalLibrary driveName).mpr
      ⟨driveNames, hgroup, hname⟩
    exact hcalls drive hdrive

end

def oneOrganization : Catalogue where
  getLogicalLibraries := .ok [⟨"library0", false⟩, ⟨"library1", false⟩, ⟨"library2", false⟩]
  getTapes := fun _ => .ok []
  getTapesByVid := fun _ => .ok fun _ => none
  getCachedVirtualOrganizationOfTapepool := fun _ => .ok ⟨"vo", 2, 2⟩
  getTapesForWriting := fun _ => .ok []

def twoDriveQuota : MountScheduler where
  catalogue := oneOrganization
  minFilesToWarrantAMount := 1
  minBytesToWarrantAMount := 1
  now := 0

def threeDrives : List TapeDrive :=
  [⟨"drive0", "tpsrv01", "library0", true, false, none, none, none, none, none⟩,
    ⟨"drive1", "tpsrv02", "library1", true, false, none, none, none, none, none⟩,
    ⟨"drive2", "tpsrv03", "library2", true, false, none, none, none, none, none⟩]

def archiveMount : PotentialMount where
  type := .archiveForUser
  vid := ""
  tapePool := "pool"
  vo := "vo"
  mediaType := ""
  vendor := ""
  capacityInBytes := 0
  labelFormat := .cta
  priority := 1
  minRequestAge := 0
  filesQueued := 1000
  bytesQueued := 1000
  oldestJobStartTime := 0
  logicalLibrary := ""
  ratioOfMountQuotaUsed := 0
  sleepingMount := false
  activity := none

def oneMounted : TapeMountDecisionInfo where
  potentialMounts := [archiveMount]
  existingOrNextMounts := [⟨"drive2", .archiveForUser, "pool", "V00001"⟩]
  queueTrimRequired := false

theorem survives_of_map {s : MountScheduler} {sorting : Sorting PotentialMount.lt}
    {getMountInfoNoLock : String → TapeMountDecisionInfo} {logicalLibrary driveName : String}
    {m : PotentialMount}
    (h : (s.sortAndGetTapesForMountInfo sorting (getMountInfoNoLock logicalLibrary) logicalLibrary
      driveName).toOption.map (·.potentialMounts) = some [m]) :
    Survives s sorting getMountInfoNoLock logicalLibrary driveName m := by
  cases hcall : s.sortAndGetTapesForMountInfo sorting (getMountInfoNoLock logicalLibrary)
      logicalLibrary driveName with
  | error e => simp [hcall, Except.toOption] at h
  | ok c =>
    refine ⟨c, hcall, ?_⟩
    have hmounts : c.potentialMounts = [m] := by simpa [hcall, Except.toOption] using h
    rw [hmounts]
    exact List.mem_singleton_self m

theorem getSchedulingInformations_threeDrives :
    getSchedulingInformations twoDriveQuota sortByKey threeDrives (fun _ => oneMounted) =
      .ok [⟨"library0", [archiveMount]⟩] := by decide +kernel

theorem reported_iff_three_drives :
    (∀ logicalLibrary m, Reported [⟨"library0", [archiveMount]⟩] logicalLibrary m ↔
      ∃ drive ∈ threeDrives, drive.logicalLibrary = logicalLibrary ∧
        Survives twoDriveQuota sortByKey (fun _ => oneMounted) logicalLibrary drive.driveName m) ↔
    StillAdmitted twoDriveQuota (fun _ => oneMounted) []
      (logicalLibraryDriveNamesMap threeDrives) := by
  have htape : TapeData twoDriveQuota.catalogue fun _ => none := by
    intro vids answer hanswer vid _
    cases hanswer
    rfl
  refine reported_iff threeDrives htape (fun drive hdrive => ?_)
    getSchedulingInformations_threeDrives
  have hsurvives : Survives twoDriveQuota sortByKey (fun _ => oneMounted) drive.logicalLibrary
      drive.driveName archiveMount := by
    simp only [threeDrives, List.mem_cons, List.not_mem_nil, or_false] at hdrive
    obtain h | h | h := hdrive
    · exact h ▸ survives_of_map (by decide +kernel)
    · exact h ▸ survives_of_map (by decide +kernel)
    · exact h ▸ survives_of_map (by decide +kernel)
  obtain ⟨c, hcall, -⟩ := hsurvives
  exact ⟨c, hcall⟩

/-- The mount is lost to the second library: the drive of the first one was handled before. -/
theorem not_reported : ¬∀ (s : MountScheduler) (sorting : Sorting PotentialMount.lt)
    (drives : List TapeDrive) (getMountInfoNoLock : String → TapeMountDecisionInfo)
    (ret : List SchedulingInfos),
    getSchedulingInformations s sorting drives getMountInfoNoLock = .ok ret →
    ∀ logicalLibrary m, Reported ret logicalLibrary m ↔
      ∃ drive ∈ drives, drive.logicalLibrary = logicalLibrary ∧
        Survives s sorting getMountInfoNoLock logicalLibrary drive.driveName m := by
  intro h
  have hsurvives : Survives twoDriveQuota sortByKey (fun _ => oneMounted) "library1" "drive1"
      archiveMount := survives_of_map (by decide +kernel)
  obtain ⟨infos, hinfos, hname, -⟩ := (h _ _ _ _ _
    getSchedulingInformations_threeDrives "library1" archiveMount).mpr
    ⟨threeDrives[1], by simp [threeDrives], rfl, hsurvives⟩
  rw [List.mem_singleton.mp hinfos] at hname
  revert hname
  decide

end Cta.Scheduler.SchedulingInformations
