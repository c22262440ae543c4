import Cta.Lib.Transactions
import Cta.Scheduler.MountInfo
import Mathlib.Data.Finset.Dedup

/-! The candidates for a drive: the potential mounts it can serve and that pass a mount
criterion, by descending rank, with the tapes left to write on. -/
namespace Cta.Scheduler.MountCandidates
open Cta.Lib.Selection Cta.Scheduler.MountInfo
open Cta.Lib.Transactions (except_bind_eq_ok)

structure MountScheduler where
  catalogue : Catalogue
  minFilesToWarrantAMount : Nat
  minBytesToWarrantAMount : Nat
  now : Int

def servedMounts (eligibleTapes : Finset String) (mounts : List PotentialMount) :
    List PotentialMount :=
  mounts.filter fun m => m.type = .retrieve → m.vid ∈ eligibleTapes

def retrieveTapeSet (mounts : List PotentialMount) : Finset String :=
  ((mounts.filter (·.type = .retrieve)).map (·.vid)).toFinset

def retrieveTapesInfo (c : Catalogue) (mounts : List PotentialMount) :
    Except Failure (String → Option Tape) :=
  if retrieveTapeSet mounts = ∅ then .ok fun _ => none else c.getTapesByVid (retrieveTapeSet mounts)

/-- A retrieve takes the data of its tape from the catalogue, empty data when that has none. -/
def setTapeInfo (tapes : String → Option Tape) (m : PotentialMount) : PotentialMount :=
  if m.type = .retrieve then
    let tape := (tapes m.vid).getD default
    { m with
      logicalLibrary := tape.logicalLibraryName
      tapePool := tape.tapePoolName
      vendor := tape.vendor
      mediaType := tape.mediaType
      vo := tape.vo
      capacityInBytes := tape.capacityInBytes
      labelFormat := tape.labelFormat }
  else m

def tapepoolsPotentialOrExistingMounts (mounts : List PotentialMount)
    (existing : List ExistingMount) : List String :=
  (mounts.map (·.tapePool) ++ existing.map (·.tapePool)).dedup.insertionSort (· ≤ ·)

def virtualOrganizationOfTapepool (c : Catalogue) (tapepool : String) :
    Except Failure VirtualOrganization :=
  match c.getCachedVirtualOrganizationOfTapepool tapepool with
  | .error (.ctaException message) =>
    .error (.ctaException (message ++ " Aborting scheduling.\n"))
  | r => r

def getTapepoolVos (c : Catalogue) :
    List String → Except Failure (String → Option VirtualOrganization)
  | [] => .ok fun _ => none
  | tapepool :: tapepools => do
    let vo ← virtualOrganizationOfTapepool c tapepool
    let vos ← getTapepoolVos c tapepools
    return Function.update vos tapepool (some vo)

def voAt (vos : String → Option VirtualOrganization) (tapepool : String) : VirtualOrganization :=
  (vos tapepool).getD default

def MountScheduler.minBytesFor (s : MountScheduler) (type : MountType) : Nat :=
  if type = .archiveForRepack then s.minBytesToWarrantAMount * 2 % 2 ^ 64
  else s.minBytesToWarrantAMount

def MountScheduler.minFilesFor (s : MountScheduler) (type : MountType) : Nat :=
  if type = .archiveForRepack then s.minFilesToWarrantAMount * 2 % 2 ^ 64
  else s.minFilesToWarrantAMount

def effectiveExistingMounts (m : PotentialMount) (existing : Nat) : Nat :=
  if getMountBasicType m.type = .archiveAllTypes then existing else 0

def MountScheduler.mountPassesACriteria (s : MountScheduler) (m : PotentialMount)
    (effective : Nat) : Bool :=
  m.bytesQueued / (1 + effective) ≥ s.minBytesFor m.type ||
    m.filesQueued / (1 + effective) ≥ s.minFilesFor m.type ||
    (effective = 0 && s.now - m.oldestJobStartTime > m.minRequestAge)

def maxDrives (vo : VirtualOrganization) (basicType : MountType) : Nat :=
  if basicType = .retrieve then vo.readMaxDrives
  else if basicType = .archiveAllTypes then vo.writeMaxDrives
  else 0

def isArchive (m : PotentialMount) : Bool := getMountBasicType m.type = .archiveAllTypes

def weighted (m : PotentialMount) : PotentialMount := { m with ratioOfMountQuotaUsed := 0 }

def tapesForArchive (c : Catalogue) (logicalLibraryName : String) (mounts : List PotentialMount) :
    Except Failure (List TapeForWriting) :=
  if mounts.any isArchive then c.getTapesForWriting logicalLibraryName else .ok []

/-- No criterion is met, the quota of the virtual organization is used up, or the mount sleeps. -/
def MountScheduler.isRemoved (s : MountScheduler) (perTapepool perVo : String × MountType → Nat)
    (vos : String → Option VirtualOrganization) (m : PotentialMount) : Bool :=
  !s.mountPassesACriteria m (effectiveExistingMounts m (perTapepool (m.tapePool, m.type))) ||
    perVo ((voAt vos m.tapePool).name, getMountBasicType m.type) ≥
      maxDrives (voAt vos m.tapePool) (getMountBasicType m.type) ||
    m.sleepingMount

/-- The ranked mounts, the counters of the existing mounts and the tapes to choose from. -/
structure Candidates where
  potentialMounts : List PotentialMount
  existingMountsDistinctTypeSummaryPerTapepool : String × MountType → Nat
  existingMountsBasicTypeSummaryPerVo : String × MountType → Nat
  tapesInUse : Finset String
  tapeList : List TapeForWriting

def MountScheduler.sortAndGetTapesForMountInfo (s : MountScheduler)
    (sorting : Sorting PotentialMount.lt) (mountInfo : TapeMountDecisionInfo)
    (logicalLibraryName driveName : String) : Except Failure Candidates := do
  let eligibleTapes ← s.catalogue.getTapes logicalLibraryName
  let served := servedMounts (eligibleTapes.map (·.vid)).toFinset mountInfo.potentialMounts
  let tapes ← retrieveTapesInfo s.catalogue served
  let mounts := served.map (setTapeInfo tapes)
  let vos ← getTapepoolVos s.catalogue
    (tapepoolsPotentialOrExistingMounts mounts mountInfo.existingOrNextMounts)
  -- What is still listed for the drive itself is a leftover.
  let others := mountInfo.existingOrNextMounts.filter (·.driveName ≠ driveName)
  let perTapepool := tally (fun e => (e.tapePool, e.type)) others
  let perVo := tally (fun e => ((voAt vos e.tapePool).name, getMountBasicType e.type)) others
  let tapesInUse := ((others.map (·.vid)).filter (· ≠ "")).toFinset
  let kept := mounts.filter fun m => !s.isRemoved perTapepool perVo vos m
  let potentialMounts := sorting.descending (kept.map weighted)
  let tapeList ← tapesForArchive s.catalogue logicalLibraryName potentialMounts
  return {
    potentialMounts := potentialMounts
    existingMountsDistinctTypeSummaryPerTapepool := perTapepool
    existingMountsBasicTypeSummaryPerVo := perVo
    tapesInUse := tapesInUse
    tapeList := tapeList.filter (·.vid ∉ tapesInUse) }

section Conditions
variable (s : MountScheduler) (mountInfo : TapeMountDecisionInfo)
  (logicalLibraryName driveName : String) (m : PotentialMount)

def countOnOtherDrives (kind : ExistingMount → Bool) : Nat :=
  mountInfo.existingOrNextMounts.countP fun e => e.driveName ≠ driveName ∧ kind e

/-- An archive shares what is queued with the mounts its tape pool already has for its type. -/
def sharingMounts : Nat :=
  effectiveExistingMounts m
    (countOnOtherDrives mountInfo driveName fun e => e.tapePool = m.tapePool ∧ e.type = m.type)

/-- Enough bytes or files for one more mount, or a request that has waited too long for a first. -/
def MeetsMountCriterion : Prop :=
  s.minBytesFor m.type ≤ m.bytesQueued / (1 + sharingMounts mountInfo driveName m) ∨
  s.minFilesFor m.type ≤ m.filesQueued / (1 + sharingMounts mountInfo driveName m) ∨
  (sharingMounts mountInfo driveName m = 0 ∧ m.minRequestAge < s.now - m.oldestJobStartTime)

def ownedBy (c : Catalogue) (vo tapepool : String) : Bool :=
  (c.getCachedVirtualOrganizationOfTapepool tapepool).toOption.any (·.name = vo)

def voMounts (vo : String) (basicType : MountType) : Nat :=
  countOnOtherDrives mountInfo driveName fun e =>
    ownedBy s.catalogue vo e.tapePool ∧ getMountBasicType e.type = basicType

structure Schedulable : Prop where
  eligible : m.type = .retrieve → ∃ tapes, s.catalogue.getTapes logicalLibraryName = .ok tapes ∧
    m.vid ∈ tapes.map (·.vid)
  criterion : MeetsMountCriterion s mountInfo driveName m
  awake : m.sleepingMount = false
  quota : ∃ vo, s.catalogue.getCachedVirtualOrganizationOfTapepool m.tapePool = .ok vo ∧
    voMounts s mountInfo driveName vo.name (getMountBasicType m.type) <
      maxDrives vo (getMountBasicType m.type)

/-- A potential mount as it is ranked: with the data of its tape, and all quota ratios alike. -/
def IsPotentialMount : Prop :=
  ∃ p ∈ mountInfo.potentialMounts, ∃ eligible tapes,
    s.catalogue.getTapes logicalLibraryName = .ok eligible ∧
    retrieveTapesInfo s.catalogue
      (servedMounts (eligible.map (·.vid)).toFinset mountInfo.potentialMounts) = .ok tapes ∧
    m = weighted (setTapeInfo tapes p)

def TapeInUse (vid : String) : Prop :=
  vid ≠ "" ∧ ∃ e ∈ mountInfo.existingOrNextMounts, e.driveName ≠ driveName ∧ e.vid = vid

end Conditions

section
variable {c : Catalogue} {tapes : String → Option Tape} {m : PotentialMount}

@[simp] theorem setTapeInfo_type : (setTapeInfo tapes m).type = m.type := by
  unfold setTapeInfo; split <;> rfl

@[simp] theorem setTapeInfo_vid : (setTapeInfo tapes m).vid = m.vid := by
  unfold setTapeInfo; split <;> rfl

theorem virtualOrganizationOfTapepool_eq_ok {tapepool : String} {vo : VirtualOrganization} :
    virtualOrganizationOfTapepool c tapepool = .ok vo ↔
      c.getCachedVirtualOrganizationOfTapepool tapepool = .ok vo := by
  unfold virtualOrganizationOfTapepool
  split <;> simp_all

theorem voAt_getTapepoolVos {tapepools : List String} {vos : String → Option VirtualOrganization}
    (h : getTapepoolVos c tapepools = .ok vos) {tapepool : String} (hm : tapepool ∈ tapepools) :
    c.getCachedVirtualOrganizationOfTapepool tapepool = .ok (voAt vos tapepool) := by
  induction tapepools generalizing vos with
  | nil => simp at hm
  | cons first rest ih =>
    obtain ⟨vo, hv, h⟩ := except_bind_eq_ok.mp h
    obtain ⟨others, hr, h⟩ := except_bind_eq_ok.mp h
    obtain rfl : Function.update others first (some vo) = vos := by
      simpa [pure, Except.pure] using h
    by_cases he : tapepool = first
    · subst he
      simpa [voAt] using virtualOrganizationOfTapepool_eq_ok.mp hv
    · have hrest : tapepool ∈ rest := by simpa [he] using hm
      simpa [voAt, Function.update_of_ne he] using ih hr hrest

theorem mem_tapepools {mounts : List PotentialMount} {existing : List ExistingMount}
    {tapepool : String} :
    tapepool ∈ tapepoolsPotentialOrExistingMounts mounts existing ↔
      tapepool ∈ mounts.map (·.tapePool) ∨ tapepool ∈ existing.map (·.tapePool) := by
  unfold tapepoolsPotentialOrExistingMounts
  rw [(List.perm_insertionSort _ _).mem_iff, List.mem_dedup, List.mem_append]

end

section
variable {s : MountScheduler} {sorting : Sorting PotentialMount.lt}
  {mountInfo : TapeMountDecisionInfo} {logicalLibraryName driveName : String} {c : Candidates}
  {m : PotentialMount}

theorem tally_otherDrives {κ : Type*} [DecidableEq κ] (key : ExistingMount → κ) (k : κ) :
    tally key (mountInfo.existingOrNextMounts.filter (·.driveName ≠ driveName)) k =
      countOnOtherDrives mountInfo driveName fun e => key e = k := by
  rw [tally_eq_countP, List.countP_filter]
  simp [countOnOtherDrives, and_comm]

theorem mountPassesACriteria_iff :
    s.mountPassesACriteria m (sharingMounts mountInfo driveName m) = true ↔
      MeetsMountCriterion s mountInfo driveName m := by
  simp [MountScheduler.mountPassesACriteria, MeetsMountCriterion, or_assoc]

theorem voMounts_eq {vos : String → Option VirtualOrganization} {vo : String}
    {basicType : MountType} (hv : ∀ e ∈ mountInfo.existingOrNextMounts,
      s.catalogue.getCachedVirtualOrganizationOfTapepool e.tapePool = .ok (voAt vos e.tapePool)) :
    countOnOtherDrives mountInfo driveName (fun e =>
        ((voAt vos e.tapePool).name, getMountBasicType e.type) = (vo, basicType)) =
      voMounts s mountInfo driveName vo basicType := by
  refine List.countP_congr fun e he => ?_
  simp [ownedBy, hv e he, Except.toOption]

theorem isRemoved_eq_false_iff (driveName : String)
    {vos : String → Option VirtualOrganization}
    (hm : s.catalogue.getCachedVirtualOrganizationOfTapepool m.tapePool =
      .ok (voAt vos m.tapePool))
    (hv : ∀ e ∈ mountInfo.existingOrNextMounts,
      s.catalogue.getCachedVirtualOrganizationOfTapepool e.tapePool = .ok (voAt vos e.tapePool)) :
    s.isRemoved
        (tally (fun e => (e.tapePool, e.type))
          (mountInfo.existingOrNextMounts.filter (·.driveName ≠ driveName)))
        (tally (fun e => ((voAt vos e.tapePool).name, getMountBasicType e.type))
          (mountInfo.existingOrNextMounts.filter (·.driveName ≠ driveName))) vos m = false ↔
      MeetsMountCriterion s mountInfo driveName m ∧ m.sleepingMount = false ∧
        ∃ vo, s.catalogue.getCachedVirtualOrganizationOfTapepool m.tapePool = .ok vo ∧
          voMounts s mountInfo driveName vo.name (getMountBasicType m.type) <
            maxDrives vo (getMountBasicType m.type) := by
  have hshare : effectiveExistingMounts m (countOnOtherDrives mountInfo driveName fun e =>
      (e.tapePool, e.type) = (m.tapePool, m.type)) = sharingMounts mountInfo driveName m := by
    simp [sharingMounts]
  have hquota : (∃ vo, s.catalogue.getCachedVirtualOrganizationOfTapepool m.tapePool = .ok vo ∧
      voMounts s mountInfo driveName vo.name (getMountBasicType m.type) <
        maxDrives vo (getMountBasicType m.type)) ↔
      voMounts s mountInfo driveName (voAt vos m.tapePool).name (getMountBasicType m.type) <
        maxDrives (voAt vos m.tapePool) (getMountBasicType m.type) := by
    simp [hm]
  rw [hquota, ← mountPassesACriteria_iff]
  unfold MountScheduler.isRemoved
  rw [tally_otherDrives, tally_otherDrives, hshare, voMounts_eq hv]
  simp only [Bool.or_eq_false_iff, Bool.not_eq_false', decide_eq_false_iff_not, not_le, ge_iff_le]
  tauto

/-- All that the callers use of the candidates: who they are, how they are ranked, which tapes
are in use and which can be written on. -/
structure Candidates.Sound (s : MountScheduler) (mountInfo : TapeMountDecisionInfo)
    (logicalLibraryName driveName : String) (c : Candidates) : Prop where
  mem_potentialMounts : ∀ m, m ∈ c.potentialMounts ↔
    IsPotentialMount s mountInfo logicalLibraryName m ∧
      Schedulable s mountInfo logicalLibraryName driveName m
  ranked : c.potentialMounts.Pairwise fun a b => a.lt b = false
  mem_tapesInUse : ∀ vid, vid ∈ c.tapesInUse ↔ TapeInUse mountInfo driveName vid
  tapeList : ∀ m ∈ c.potentialMounts, isArchive m = true →
    ∃ tapes, s.catalogue.getTapesForWriting logicalLibraryName = .ok tapes ∧
      c.tapeList = tapes.filter (·.vid ∉ c.tapesInUse)

theorem schedulable_weighted : Schedulable s mountInfo logicalLibraryName driveName (weighted m) ↔
    Schedulable s mountInfo logicalLibraryName driveName m :=
  ⟨fun h => ⟨h.1, h.2, h.3, h.4⟩, fun h => ⟨h.1, h.2, h.3, h.4⟩⟩

theorem mem_servedMounts {eligible : List Tape} {mounts : List PotentialMount} :
    m ∈ servedMounts (eligible.map (·.vid)).toFinset mounts ↔
      m ∈ mounts ∧ (m.type = .retrieve → m.vid ∈ eligible.map (·.vid)) := by
  simp only [servedMounts, List.mem_filter, decide_eq_true_eq, List.mem_toFinset]

theorem sortAndGetTapesForMountInfo_sound
    (h : s.sortAndGetTapesForMountInfo sorting mountInfo logicalLibraryName driveName = .ok c) :
    c.Sound s mountInfo logicalLibraryName driveName := by
  obtain ⟨eligible, he, h⟩ := except_bind_eq_ok.mp h
  obtain ⟨tapes, ht, h⟩ := except_bind_eq_ok.mp h
  obtain ⟨vos, hv, h⟩ := except_bind_eq_ok.mp h
  obtain ⟨tapeList, hl, h⟩ := except_bind_eq_ok.mp h
  simp only [pure, Except.pure, Except.ok.injEq] at h
  subst h
  have hpool (e : ExistingMount) (hm : e ∈ mountInfo.existingOrNextMounts) :
      s.catalogue.getCachedVirtualOrganizationOfTapepool e.tapePool =
        .ok (voAt vos e.tapePool) :=
    voAt_getTapepoolVos hv (mem_tapepools.mpr (Or.inr (List.mem_map_of_mem hm)))
  have hkept (p : PotentialMount)
      (hp : p ∈ servedMounts (eligible.map (·.vid)).toFinset mountInfo.potentialMounts) :=
    isRemoved_eq_false_iff driveName (voAt_getTapepoolVos hv (mem_tapepools.mpr
      (Or.inl (List.mem_map_of_mem (List.mem_map_of_mem (f := setTapeInfo tapes) hp))))) hpool
  refine ⟨fun m => ?_, sorting.descending_pairwise _, fun vid => ?_, fun m hm harchive => ?_⟩
  · rw [Sorting.mem_descending, List.mem_map]
    constructor
    · rintro ⟨p', hp', rfl⟩
      obtain ⟨hp', hr⟩ := List.mem_filter.mp hp'
      obtain ⟨p, hp, rfl⟩ := List.mem_map.mp hp'
      obtain ⟨hcriterion, hawake, hquota⟩ := (hkept p hp).mp (by simpa using hr)
      obtain ⟨hp, heligible⟩ := mem_servedMounts.mp hp
      refine ⟨⟨p, hp, eligible, tapes, he, ht, rfl⟩, schedulable_weighted.mpr ?_⟩
      refine ⟨fun htype => ⟨eligible, he, ?_⟩, hcriterion, hawake, hquota⟩
      simpa using heligible (by simpa using htype)
    · rintro ⟨⟨p, hp, eligible', tapes', he', ht', rfl⟩, hs⟩
      obtain rfl : eligible = eligible' := Except.ok.inj (he.symm.trans he')
      obtain rfl : tapes = tapes' := Except.ok.inj (ht.symm.trans ht')
      have hs := schedulable_weighted.mp hs
      have hserved : p ∈ servedMounts (eligible.map (·.vid)).toFinset
          mountInfo.potentialMounts := by
        refine mem_servedMounts.mpr ⟨hp, fun htype => ?_⟩
        obtain ⟨eligible', he', hvid⟩ := hs.eligible (by simpa using htype)
        obtain rfl : eligible = eligible' := Except.ok.inj (he.symm.trans he')
        simpa using hvid
      refine ⟨setTapeInfo tapes p, List.mem_filter.mpr ⟨List.mem_map_of_mem hserved, ?_⟩, rfl⟩
      simpa using (hkept p hserved).mpr ⟨hs.criterion, hs.awake, hs.quota⟩
  · simp [TapeInUse, and_comm, and_assoc]
  · refine ⟨tapeList, ?_, rfl⟩
    have hany : List.any _ isArchive = true := List.any_eq_true.mpr ⟨m, hm, harchive⟩
    rwa [tapesForArchive, if_pos hany] at hl

end

end Cta.Scheduler.MountCandidates
