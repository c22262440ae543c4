import Cta.Scheduler.MountCandidates

/-! Looking for the next mount of a drive: the dry run, that stops at the first mount it finds,
and the real one, that creates it. Both walk through the same attempts. -/
namespace Cta.Scheduler.NextMount
open Cta.Lib.Selection Cta.Scheduler.MountInfo Cta.Scheduler.MountCandidates

/-- A mount one tries to create: an archive on a tape of the pool, or a retrieve from its tape. -/
inductive Attempt where
  | archive (mount : PotentialMount) (tape : TapeForWriting)
  | retrieve (mount : PotentialMount)
  deriving DecidableEq

def Attempt.mount : Attempt → PotentialMount
  | .archive m _ => m
  | .retrieve m => m

def Attempt.vid : Attempt → String
  | .archive _ t => t.vid
  | .retrieve m => m.vid

structure MountSearch (δ : Type) where
  attempts : List Attempt
  result : Except Failure (Option δ)

section Loops
variable {δ : Type} (createMount : List Attempt → Attempt → Except Failure δ) (c : Candidates)

def tryTapes (m : PotentialMount) :
    List Attempt → List TapeForWriting → Search Attempt Failure δ
  | tried, [] => ⟨tried, none⟩
  | tried, t :: tapes =>
    if t.tapePool = m.tapePool then
      match createMount tried (.archive m t) with
      | .ok mount => ⟨tried ++ [.archive m t], some (.ok mount)⟩
      | .error (.ctaException _) => tryTapes m (tried ++ [.archive m t]) tapes
      | .error e => ⟨tried ++ [.archive m t], some (.error e)⟩
    else tryTapes m tried tapes

def tryMounts : List Attempt → List PotentialMount → Search Attempt Failure δ
  | tried, [] => ⟨tried, none⟩
  | tried, m :: mounts =>
    if isArchive m then
      match tryTapes createMount m tried c.tapeList with
      | ⟨tried, none⟩ => tryMounts tried mounts
      | ⟨tried, some r⟩ => ⟨tried, some r⟩
    else if m.type = .retrieve then
      if m.vid ∈ c.tapesInUse then tryMounts tried mounts
      else
        match createMount tried (.retrieve m) with
        | .ok mount => ⟨tried ++ [.retrieve m], some (.ok mount)⟩
        | .error (.ctaException _) => tryMounts (tried ++ [.retrieve m]) mounts
        | .error e => ⟨tried ++ [.retrieve m], some (.error e)⟩
    else
      ⟨tried, some (.error
        (.stdException "In Scheduler::getNextMount unexpected mount type"))⟩

def findMount : List PotentialMount → Bool
  | [] => false
  | m :: mounts =>
    if isArchive m then
      if c.tapeList.any (·.tapePool = m.tapePool) then true else findMount mounts
    else if m.type = .retrieve then
      if m.vid ∈ c.tapesInUse then findMount mounts else true
    else findMount mounts

end Loops

def getLogicalLibrary (c : Catalogue) (libraryName : String) :
    Except Failure (Option LogicalLibrary) := do
  let logicalLibraries ← c.getLogicalLibraries
  return logicalLibraries.find? (·.name = libraryName)

section
variable {δ : Type} (s : MountScheduler) (sorting : Sorting PotentialMount.lt)
  (createMount : List Attempt → Attempt → Except Failure δ) (trimEmptyQueues : Except Failure Unit)
  (mountInfo : TapeMountDecisionInfo) (logicalLibraryName driveName : String)

def getNextMountDryRun : Except Failure Bool :=
  match getLogicalLibrary s.catalogue logicalLibraryName with
  | .error e => .error e
  | .ok none => .ok false
  | .ok (some logicalLibrary) =>
    if logicalLibrary.isDisabled then .ok false
    else
      match s.sortAndGetTapesForMountInfo sorting mountInfo logicalLibraryName driveName with
      | .error e => .error e
      | .ok c => .ok (findMount c c.potentialMounts)

def getNextMount : MountSearch δ :=
  match getLogicalLibrary s.catalogue logicalLibraryName with
  | .error e => ⟨[], .error e⟩
  | .ok none => ⟨[], .ok none⟩
  | .ok (some logicalLibrary) =>
    if logicalLibrary.isDisabled then ⟨[], .ok none⟩
    else
      match if mountInfo.queueTrimRequired then trimEmptyQueues else .ok () with
      | .error e => ⟨[], .error e⟩
      | .ok () =>
        match s.sortAndGetTapesForMountInfo sorting mountInfo logicalLibraryName driveName with
        | .error e => ⟨[], .error e⟩
        | .ok c =>
          match tryMounts createMount c [] c.potentialMounts with
          | ⟨tried, none⟩ => ⟨tried, .ok none⟩
          | ⟨tried, some (.ok mount)⟩ => ⟨tried, .ok (some mount)⟩
          | ⟨tried, some (.error e)⟩ => ⟨tried, .error e⟩

end

section Walk
variable {δ : Type} {createMount : List Attempt → Attempt → Except Failure δ} {c : Candidates}
  {m : PotentialMount} {tried : List Attempt} {mounts : List PotentialMount}

def usableAttempts (c : Candidates) (m : PotentialMount) : List Attempt :=
  if isArchive m then (c.tapeList.filter (·.tapePool = m.tapePool)).map (.archive m)
  else if m.type = .retrieve ∧ m.vid ∉ c.tapesInUse then [.retrieve m]
  else []

def answerOf (createMount : List Attempt → Attempt → Except Failure δ) (tried : List Attempt)
    (a : Attempt) : Answer Failure δ :=
  match createMount tried a with
  | .ok mount => .accepted mount
  | .error (.ctaException _) => .refused
  | .error (.stdException message) => .failed (.stdException message)

theorem tryTapes_eq_tryInOrder (tapes : List TapeForWriting) :
    tryTapes createMount m tried tapes = tryInOrder (answerOf createMount) tried
      ((tapes.filter (·.tapePool = m.tapePool)).map (.archive m)) := by
  induction tapes generalizing tried with
  | nil => rfl
  | cons t tapes ih =>
    by_cases hp : t.tapePool = m.tapePool
    · simp only [tryTapes, hp, if_true, List.filter_cons, decide_true, List.map_cons, tryInOrder,
        answerOf]
      cases hc : createMount tried (.archive m t) with
      | ok mount => rfl
      | error e =>
        cases e with
        | ctaException message => exact ih
        | stdException message => rfl
    · simpa [tryTapes, hp] using ih

theorem tryMounts_eq_tryInOrder (h : ∀ m ∈ mounts, isArchive m = true ∨ m.type = .retrieve) :
    tryMounts createMount c tried mounts =
      tryInOrder (answerOf createMount) tried (mounts.flatMap (usableAttempts c)) := by
  induction mounts generalizing tried with
  | nil => rfl
  | cons m mounts ih =>
    have ih := fun tried => @ih tried fun m hm => h m (by simp [hm])
    rw [List.flatMap_cons, tryInOrder_append, tryMounts]
    cases ha : isArchive m with
    | true =>
      have hu : usableAttempts c m =
          (c.tapeList.filter (·.tapePool = m.tapePool)).map (.archive m) := if_pos ha
      rw [if_pos rfl, hu, tryTapes_eq_tryInOrder]
      cases hw : tryInOrder (answerOf createMount) tried
          ((c.tapeList.filter (·.tapePool = m.tapePool)).map (.archive m)) with
      | mk tried' ended =>
        cases ended with
        | none => exact ih tried'
        | some r => rfl
    | false =>
      have ht : m.type = .retrieve := by simpa [ha] using h m (by simp)
      by_cases hu : m.vid ∈ c.tapesInUse
      · simp [usableAttempts, ha, ht, hu, ih]
      · have he : usableAttempts c m = [.retrieve m] := by simp [usableAttempts, ha, ht, hu]
        rw [he, if_neg (by simp), if_pos ht, if_neg hu]
        simp only [tryInOrder, answerOf]
        cases createMount tried (.retrieve m) with
        | ok mount => rfl
        | error e =>
          cases e with
          | ctaException message => exact ih _
          | stdException message => rfl

theorem findMount_eq_true_iff :
    findMount c mounts = true ↔ mounts.flatMap (usableAttempts c) ≠ [] := by
  induction mounts with
  | nil => simp [findMount]
  | cons m mounts ih =>
    have hcons : (m :: mounts).flatMap (usableAttempts c) ≠ [] ↔
        usableAttempts c m ≠ [] ∨ findMount c mounts = true := by
      rw [List.flatMap_cons, ne_eq, List.append_eq_nil_iff, not_and_or, ih]
    rw [hcons, findMount]
    cases ha : isArchive m with
    | true => simp [usableAttempts, ha, List.filter_eq_nil_iff]
    | false =>
      by_cases ht : m.type = .retrieve
      · by_cases hu : m.vid ∈ c.tapesInUse
        · simp [usableAttempts, ha, ht, hu]
        · simp [usableAttempts, ha, ht, hu]
      · simp [usableAttempts, ha, ht]

end Walk

section Conditions
variable {δ : Type} (s : MountScheduler) (createMount : List Attempt → Attempt → Except Failure δ)
  (mountInfo : TapeMountDecisionInfo) (logicalLibraryName driveName : String)

/-- An archive needs a tape of its pool to write on, a retrieve has its own, and no other drive
may have it. -/
structure UsesFreeTape (a : Attempt) : Prop where
  suitable : match a with
    | .archive m t => isArchive m = true ∧
      ∃ tapes, s.catalogue.getTapesForWriting logicalLibraryName = .ok tapes ∧ t ∈ tapes ∧
        t.tapePool = m.tapePool
    | .retrieve m => m.type = .retrieve
  free : ¬ TapeInUse mountInfo driveName a.vid

def Refused (tried : List Attempt) (a : Attempt) : Prop :=
  ∃ l r message, tried = l ++ a :: r ∧ createMount l a = .error (.ctaException message)

/-- A potential mount that may be mounted on a free tape, and not all of whose attempts have
been refused. -/
def Mountable (tried : List Attempt) (m : PotentialMount) : Prop :=
  IsPotentialMount s mountInfo logicalLibraryName m ∧
  Schedulable s mountInfo logicalLibraryName driveName m ∧
  ∃ a, a.mount = m ∧ UsesFreeTape s mountInfo logicalLibraryName driveName a ∧
    ¬ Refused createMount tried a

end Conditions

section Agreement
variable {δ : Type} {s : MountScheduler} {sorting : Sorting PotentialMount.lt}
  {createMount : List Attempt → Attempt → Except Failure δ} {trimEmptyQueues : Except Failure Unit}
  {mountInfo : TapeMountDecisionInfo} {logicalLibraryName driveName : String} {c : Candidates}
  {m : PotentialMount} {a : Attempt}

theorem type_of_schedulable (h : Schedulable s mountInfo logicalLibraryName driveName m) :
    isArchive m = true ∨ m.type = .retrieve := by
  obtain ⟨vo, -, hlt⟩ := h.quota
  cases ht : m.type with
  | archiveForUser => exact Or.inl (by simp [isArchive, ht, getMountBasicType])
  | archiveForRepack => exact Or.inl (by simp [isArchive, ht, getMountBasicType])
  | archiveAllTypes => exact Or.inl (by simp [isArchive, ht, getMountBasicType])
  | retrieve => exact Or.inr rfl
  | label => simp [ht, getMountBasicType, maxDrives] at hlt
  | noMount => simp [ht, getMountBasicType, maxDrives] at hlt

theorem mem_usableAttempts (hs : c.Sound s mountInfo logicalLibraryName driveName)
    (hm : m ∈ c.potentialMounts) :
    a ∈ usableAttempts c m ↔
      a.mount = m ∧ UsesFreeTape s mountInfo logicalLibraryName driveName a := by
  unfold usableAttempts
  by_cases ha : isArchive m = true
  · obtain ⟨tapes, ht, hl⟩ := hs.tapeList m hm ha
    rw [if_pos ha, hl]
    simp only [List.mem_map, List.mem_filter, decide_eq_true_eq, hs.mem_tapesInUse]
    constructor
    · rintro ⟨t, ⟨⟨htm, hfree⟩, hpool⟩, rfl⟩
      exact ⟨rfl, ⟨ha, tapes, ht, htm, hpool⟩, hfree⟩
    · rintro ⟨rfl, hsuitable, hfree⟩
      cases a with
      | archive m t =>
        obtain ⟨-, tapes', ht', htm, hpool⟩ := hsuitable
        obtain rfl : tapes = tapes' := Except.ok.inj (ht.symm.trans ht')
        exact ⟨t, ⟨⟨htm, hfree⟩, hpool⟩, rfl⟩
      | retrieve m =>
        have ht : m.type = .retrieve := hsuitable
        simp [isArchive, Attempt.mount, ht, getMountBasicType] at ha
  · have ht := (type_of_schedulable ((hs.mem_potentialMounts m).mp hm).2).resolve_left ha
    rw [if_neg ha]
    constructor
    · intro h
      by_cases hu : m.vid ∈ c.tapesInUse
      · simp [hu] at h
      · obtain rfl : a = .retrieve m := by simpa [ht, hu] using h
        exact ⟨rfl, ht, mt (hs.mem_tapesInUse m.vid).mpr hu⟩
    · rintro ⟨rfl, hsuitable, hfree⟩
      cases a with
      | archive m t => exact absurd hsuitable.1 ha
      | retrieve m =>
        have hu : m.vid ∉ c.tapesInUse := mt (hs.mem_tapesInUse m.vid).mp hfree
        rw [if_pos ⟨ht, hu⟩]
        exact List.mem_singleton.mpr rfl

theorem attempts_pairwise (hs : c.Sound s mountInfo logicalLibraryName driveName) :
    (c.potentialMounts.flatMap (usableAttempts c)).Pairwise
      fun a b => ¬ a.mount.lt b.mount = true := by
  rw [List.pairwise_flatMap]
  constructor
  · intro m hm
    refine List.pairwise_of_forall_mem_list fun a ha b hb => ?_
    rw [((mem_usableAttempts hs hm).mp ha).1, ((mem_usableAttempts hs hm).mp hb).1, m.lt_irrefl]
    simp
  · refine hs.ranked.imp_of_mem fun {m n} hm hn hlt a ha b hb => ?_
    rw [((mem_usableAttempts hs hm).mp ha).1, ((mem_usableAttempts hs hn).mp hb).1, hlt]
    simp

theorem decision_cases (s : MountScheduler) (sorting : Sorting PotentialMount.lt)
    (createMount : List Attempt → Attempt → Except Failure δ)
    (logicalLibraryName driveName : String)
    (htrim : mountInfo.queueTrimRequired = true → trimEmptyQueues = .ok ()) :
    (getNextMountDryRun s sorting mountInfo logicalLibraryName driveName ≠ .ok true ∧
      (getNextMount s sorting createMount trimEmptyQueues mountInfo logicalLibraryName
        driveName).attempts = []) ∨
    ∃ c, s.sortAndGetTapesForMountInfo sorting mountInfo logicalLibraryName driveName = .ok c ∧
      getNextMountDryRun s sorting mountInfo logicalLibraryName driveName =
        .ok (findMount c c.potentialMounts) ∧
      (getNextMount s sorting createMount trimEmptyQueues mountInfo logicalLibraryName
        driveName).attempts = (tryMounts createMount c [] c.potentialMounts).tried := by
  have htrimmed : (if mountInfo.queueTrimRequired then trimEmptyQueues else .ok ()) = .ok () := by
    split
    · next h => exact htrim h
    · rfl
  unfold getNextMountDryRun getNextMount
  rw [htrimmed]
  cases getLogicalLibrary s.catalogue logicalLibraryName with
  | error e => exact Or.inl ⟨by simp, rfl⟩
  | ok library =>
    cases library with
    | none => exact Or.inl ⟨by simp, rfl⟩
    | some library =>
      cases hd : library.isDisabled with
      | true => exact Or.inl ⟨by simp [hd], by simp [hd]⟩
      | false =>
        cases hc : s.sortAndGetTapesForMountInfo sorting mountInfo logicalLibraryName driveName with
        | error e => exact Or.inl ⟨by simp [hd], by simp [hd]⟩
        | ok c =>
          refine Or.inr ⟨c, rfl, by simp [hd], ?_⟩
          simp only [hd, Bool.false_eq_true, if_false]
          cases tryMounts createMount c [] c.potentialMounts with
          | mk tried ended =>
            cases ended with
            | none => rfl
            | some r => cases r with
              | ok mount => rfl
              | error e => rfl

theorem refused_of_answerOf {l r : List Attempt} (h : answerOf createMount l a = .refused) :
    Refused createMount (l ++ a :: r) a := by
  unfold answerOf at h
  split at h
  · simp at h
  · next message hc => exact ⟨l, r, message, rfl, hc⟩
  · simp at h

/-- The dry run says yes exactly when a creation is attempted. What is attempted may be mounted,
on a tape no other drive has, and when its turn comes all attempts at higher ranked mounts have
been refused. -/
theorem dry_run_agrees (htrim : mountInfo.queueTrimRequired = true → trimEmptyQueues = .ok ()) :
    (getNextMountDryRun s sorting mountInfo logicalLibraryName driveName = .ok true ↔
      (getNextMount s sorting createMount trimEmptyQueues mountInfo logicalLibraryName
        driveName).attempts ≠ []) ∧
    ∀ before a after, (getNextMount s sorting createMount trimEmptyQueues mountInfo
        logicalLibraryName driveName).attempts = before ++ a :: after →
      IsPotentialMount s mountInfo logicalLibraryName a.mount ∧
      Schedulable s mountInfo logicalLibraryName driveName a.mount ∧
      UsesFreeTape s mountInfo logicalLibraryName driveName a ∧
      ∀ m, a.mount.lt m = true →
        ¬ Mountable s createMount mountInfo logicalLibraryName driveName before m := by
  cases decision_cases s sorting createMount logicalLibraryName driveName htrim with
  | inl h =>
    obtain ⟨hdry, hnone⟩ := h
    refine ⟨by simp [hdry, hnone], fun before a after ha => ?_⟩
    rw [hnone] at ha
    simp at ha
  | inr h =>
    obtain ⟨c, hc, hdry, hattempts⟩ := h
    have hs := sortAndGetTapesForMountInfo_sound hc
    rw [tryMounts_eq_tryInOrder fun m hm =>
      type_of_schedulable ((hs.mem_potentialMounts m).mp hm).2] at hattempts
    rw [hdry, hattempts]
    refine ⟨by simp [findMount_eq_true_iff, tried_eq_nil_iff], fun before a after ha => ?_⟩
    have hmem : a ∈ c.potentialMounts.flatMap (usableAttempts c) := by
      obtain ⟨ys, hys, he⟩ := tried_prefix (answerOf createMount) []
        (c.potentialMounts.flatMap (usableAttempts c))
      have hy : ys = before ++ a :: after := he.symm.trans ha
      exact hys.subset (by simp [hy])
    obtain ⟨m, hm, ham⟩ := List.mem_flatMap.mp hmem
    obtain ⟨rfl, htape⟩ := (mem_usableAttempts hs hm).mp ham
    obtain ⟨hpotential, hschedulable⟩ := (hs.mem_potentialMounts _).mp hm
    refine ⟨hpotential, hschedulable, htape, fun n hlt hn => ?_⟩
    obtain ⟨hnp, hns, b, rfl, hbtape, hnot⟩ := hn
    have hn := (hs.mem_potentialMounts _).mpr ⟨hnp, hns⟩
    obtain ⟨l, r, rfl, hrefused⟩ := refused_of_before
      (fun x y => y.mount.lt x.mount = true) ha (attempts_pairwise hs)
      (by simp [a.mount.lt_irrefl])
      (List.mem_flatMap.mpr ⟨_, hn, (mem_usableAttempts hs hn).mpr ⟨rfl, hbtape⟩⟩) hlt
    exact hnot (refused_of_answerOf hrefused)

end Agreement

def oneReadableTape : MountScheduler where
  catalogue := {
    getLogicalLibraries := .ok [⟨"lib", false⟩]
    getTapes := fun _ => .ok [⟨"V1", "", "", "lib", "pool", "vo", 0, .cta⟩,
      ⟨"V2", "", "", "lib", "pool", "vo", 0, .cta⟩]
    getTapesByVid := fun _ => .ok fun vid => some ⟨vid, "", "", "lib", "pool", "vo", 0, .cta⟩
    getCachedVirtualOrganizationOfTapepool := fun _ => .ok ⟨"vo", 1, 2⟩
    getTapesForWriting := fun _ => .ok [⟨"V1", "", "", "pool", "vo", 0, 0, 0, .cta⟩] }
  minFilesToWarrantAMount := 2
  minBytesToWarrantAMount := 100
  now := 50

def archiveAndRetrieve : TapeMountDecisionInfo where
  potentialMounts := [
    ⟨.archiveForUser, "", "pool", "vo", "", "", 0, .cta, 2, 10, 8, 0, 40, "", 0, false, none⟩,
    ⟨.retrieve, "V2", "", "", "", "", 0, .cta, 1, 10, 1, 10, 30, "", 0, false, none⟩]
  existingOrNextMounts := [⟨"drive2", .archiveForUser, "pool", "V1"⟩]
  queueTrimRequired := true

theorem dry_run_agrees_on_retrieve :
    (getNextMount oneReadableTape sortByKey (fun _ _ => (.ok () : Except Failure Unit)) (.ok ())
      archiveAndRetrieve "lib" "drive1").attempts ≠ [] :=
  (dry_run_agrees fun _ => rfl).1.mp (by rfl)

end Cta.Scheduler.NextMount
