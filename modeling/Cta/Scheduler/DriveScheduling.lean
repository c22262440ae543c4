import Cta.Catalogue.TapeDrives
import Cta.Scheduler.NextMount
import Mathlib.Data.List.Count

/-! Drives that look for a mount one after the other, under the scheduling lock, and that report
the mount they get when they have given the lock back. -/
namespace Cta.Scheduler.DriveScheduling
open Cta.Lib.Runs Cta.Lib.Selection Cta.Scheduler.MountInfo Cta.Scheduler.MountCandidates
open Cta.Scheduler.NextMount
open Cta.Lib.Transactions (except_bind_eq_ok)
open Cta.Catalogue.TapeDrives (DriveStatus TapeDrive DriveInfo ReportDriveStatusInputs
  updateDriveStatus updateDriveStatus_ok setDriveStatus setDriveStatus_spec sameStatus
  changedStatus getD_setIfGiven reported reported_name exists_of_mem_updateRow updateRow_names)

def activeDriveStatuses : List DriveStatus :=
  [.starting, .mounting, .transferring, .unloading, .unmounting, .drainingToDisk, .cleaningUp]

def activeMountTypes : List MountType := [.archiveForUser, .archiveForRepack, .retrieve, .label]

def existingOrNextMounts (driveStates : List TapeDrive) : List ExistingMount :=
  driveStates.flatMap fun driveState =>
    (if driveState.driveStatus ∈ activeDriveStatuses then
      [⟨driveState.driveName, driveState.mountType, driveState.currentTapePool.getD "",
        driveState.currentVid.getD ""⟩] else []) ++
    if driveState.nextMountType ≠ .noMount ∧ driveState.nextMountType ∈ activeMountTypes then
      [⟨driveState.driveName, driveState.nextMountType, driveState.nextTapePool.getD "",
        driveState.nextVid.getD ""⟩] else []

structure Mount where
  mountId : Nat
  type : MountType
  vid : String
  tapePool : String
  vo : String
  host : String
  logicalLibrary : String
  activity : Option String
  deriving DecidableEq

/-- A call of `getNextMount`, with what it finds and how the object store answers each attempt. -/
structure Round where
  scheduler : MountScheduler
  logicalLibraryName : String
  hostName : String
  potentialMounts : List PotentialMount
  queueTrimRequired : Bool
  trimEmptyQueues : Except Failure Unit
  fetchRootEntry : Attempt → Except Failure Unit
  commit : Attempt → Except Failure Unit

def Round.takesId (r : Round) (a : Attempt) : Bool :=
  (match a with
    | .archive m _ => decide (m.type = .archiveForUser ∨ m.type = .archiveForRepack)
    | .retrieve _ => true) && (r.fetchRootEntry a).isOk

/-- `createArchiveMount` and `createRetrieveMount`: the mount identifier is committed, then the lock
is released. The drive state is left as it is. An earlier attempt does not give its identifier back.
-/
def createMount (r : Round) (nextMountId : Nat) (tried : List Attempt) (a : Attempt) :
    Except Failure Mount :=
  let mountId := nextMountId + tried.countP r.takesId
  match a with
  | .archive m t =>
    if m.type = .archiveForUser ∨ m.type = .archiveForRepack then do
      r.fetchRootEntry a
      r.commit a
      return ⟨mountId, m.type, t.vid, t.tapePool, t.vo, r.hostName, r.logicalLibraryName, none⟩
    else .error (.ctaException
      "In OStoreDB::TapeMountDecisionInfo::createArchiveMount(): unexpected mount type.")
  | .retrieve m => do
    r.fetchRootEntry a
    r.commit a
    return ⟨mountId, .retrieve, m.vid, m.tapePool, m.vo, r.hostName, r.logicalLibraryName,
      m.activity⟩

/-- What a drive does: nothing, or it has a mount that it has not reported yet, or that it has. -/
inductive Session where
  | idle
  | created (m : Mount)
  | reported (m : Mount)

def Session.mount : Session → Option Mount
  | .idle => none
  | .created m => some m
  | .reported m => some m

structure State where
  rows : List TapeDrive
  sessions : String → Session
  nextMountId : Nat

def State.drives (s : State) : List String := s.rows.map (·.driveName)

def State.create (s : State) (drive : String) (m : Mount) : State :=
  { s with sessions := Function.update s.sessions drive (.created m)
           nextMountId := m.mountId + 1 }

inductive Event where
  | schedule (drive : String) (r : Round)
  | setDriveStatus (drive : String) (status : DriveStatus) (completionTime : Int)
    (reason : Option String)
  | reportDriveStatus (driveInfo : DriveInfo) (status : DriveStatus) (reportTime : Int)
  | dies (drive : String)

section
variable (sorting : Sorting PotentialMount.lt)

def chosen (s : State) (drive : String) (r : Round) : Option Mount :=
  if drive ∈ s.drives ∧ (s.sessions drive).mount = none then
    match (getNextMount r.scheduler sorting (createMount r s.nextMountId) r.trimEmptyQueues
        ⟨r.potentialMounts, existingOrNextMounts s.rows, r.queueTrimRequired⟩ r.logicalLibraryName
        drive).result with
    | .ok mount => mount
    | .error _ => none
  else none

def afterReport (status : DriveStatus) (m : Mount) : Session :=
  if status ∈ activeDriveStatuses then .reported m else .idle

/-- A report that throws changes nothing. A process that dies before its first report leaves nothing
behind. -/
def next (s : State) : Event → State
  | .schedule drive r =>
    match chosen sorting s drive r with
    | some m => s.create drive m
    | none => s
  | .setDriveStatus drive status completionTime reason =>
    match (s.sessions drive).mount with
    | none => s
    | some m =>
      match updateDriveStatus s.rows ⟨drive, m.host, m.logicalLibrary⟩
          { status, mountType := m.type, reportTime := completionTime, mountSessionId := m.mountId,
            vid := m.vid, tapepool := m.tapePool, vo := m.vo, activity := m.activity, reason } with
      | .ok rows =>
        { s with rows, sessions := Function.update s.sessions drive (afterReport status m) }
      | .error _ => s
  | .reportDriveStatus driveInfo status reportTime =>
    if status ∈ [.down, .up, .probing] then
      match updateDriveStatus s.rows driveInfo
          { status, mountType := .noMount, reportTime } with
      | .ok rows =>
        { s with rows, sessions := Function.update s.sessions driveInfo.driveName .idle }
      | .error _ => s
    else s
  | .dies drive =>
    match s.sessions drive with
    | .created _ => { s with sessions := Function.update s.sessions drive .idle }
    | _ => s

end

structure Shown (s : State) : Prop where
  nodup : s.drives.Nodup
  active : ∀ row ∈ s.rows, row.driveStatus ∈ activeDriveStatuses →
    ∃ m, s.sessions row.driveName = .reported m ∧ row.mountType = m.type ∧
      row.currentTapePool.getD "" = m.tapePool ∧ row.currentVid.getD "" = m.vid
  here : ∀ d, (s.sessions d).mount ≠ none → d ∈ s.drives
  onlyActive : ∀ row ∈ s.rows, ∀ m, s.sessions row.driveName = .reported m →
    row.driveStatus ∈ activeDriveStatuses
  noNext : ∀ row ∈ s.rows, row.nextMountType = .noMount

def Session.shown : Session → Option Mount
  | .reported m => some m
  | _ => none

section
variable {s : State} {drive : String} {r : Round} {m : Mount}

theorem Shown.existing (h : Shown s) :
    existingOrNextMounts s.rows = s.rows.filterMap fun row =>
      (s.sessions row.driveName).shown.map fun m => ⟨row.driveName, m.type, m.tapePool, m.vid⟩ := by
  rw [List.filterMap_eq_flatMap_toList, existingOrNextMounts]
  refine List.flatMap_congr fun row hrow => ?_
  by_cases ha : row.driveStatus ∈ activeDriveStatuses
  · obtain ⟨m, hm, htype, hpool, hvid⟩ := h.active row hrow ha
    simp [ha, h.noNext row hrow, hm, htype, hpool, hvid, Session.shown]
  · have hno : (s.sessions row.driveName).shown = none := by
      cases hs : s.sessions row.driveName with
      | reported m => exact absurd (h.onlyActive row hrow m hs) ha
      | _ => rfl
    simp [ha, h.noNext row hrow, hno]

theorem Shown.tapeInUse_iff (h : Shown s) {mountInfo : TapeMountDecisionInfo}
    (hi : mountInfo.existingOrNextMounts = existingOrNextMounts s.rows) (vid : String) :
    TapeInUse mountInfo drive vid ↔
      vid ≠ "" ∧ ∃ e m, e ≠ drive ∧ s.sessions e = .reported m ∧ m.vid = vid := by
  rw [TapeInUse, hi, h.existing]
  refine and_congr_right fun _ => ?_
  simp only [List.mem_filterMap, Option.map_eq_some_iff]
  constructor
  · rintro ⟨_, ⟨row, -, m, hm, rfl⟩, hne, hvid⟩
    refine ⟨row.driveName, m, hne, ?_, hvid⟩
    cases hs : s.sessions row.driveName <;> simp_all [Session.shown]
  · rintro ⟨e, m, hne, hs, hvid⟩
    obtain ⟨row, hrow, rfl⟩ := List.mem_map.mp (h.here e (by simp [hs, Session.mount]))
    exact ⟨_, ⟨row, hrow, m, by rw [hs]; rfl, rfl⟩, hne, hvid⟩

theorem chosen_of_ok {sorting : Sorting PotentialMount.lt} (h : chosen sorting s drive r = some m) :
    (drive ∈ s.drives ∧ (s.sessions drive).mount = none) ∧
      ∃ tried a, createMount r s.nextMountId tried a = .ok m ∧
        let mountInfo : TapeMountDecisionInfo :=
          ⟨r.potentialMounts, existingOrNextMounts s.rows, r.queueTrimRequired⟩
        Schedulable r.scheduler mountInfo r.logicalLibraryName drive a.mount ∧
          UsesFreeTape r.scheduler mountInfo r.logicalLibraryName drive a := by
  unfold chosen at h
  split_ifs at h with hidle
  refine ⟨hidle, ?_⟩
  obtain ⟨c, hc, hended⟩ : ∃ c, r.scheduler.sortAndGetTapesForMountInfo sorting
      ⟨r.potentialMounts, existingOrNextMounts s.rows, r.queueTrimRequired⟩
      r.logicalLibraryName drive = .ok c ∧
      (tryMounts (createMount r s.nextMountId) c [] c.potentialMounts).ended = some (.ok m) := by
    split at h
    · next hresult =>
      unfold getNextMount at hresult
      (repeat' split at hresult) <;> simp_all
    · cases h
  have hs := sortAndGetTapesForMountInfo_sound hc
  rw [tryMounts_eq_tryInOrder fun m hm =>
    type_of_schedulable ((hs.mem_potentialMounts m).mp hm).2] at hended
  obtain ⟨tried, a, ha, hanswer⟩ := accepted_of_ended hended
  obtain ⟨m', hm', ham⟩ := List.mem_flatMap.mp ha
  obtain ⟨rfl, htape⟩ := (mem_usableAttempts hs hm').mp ham
  refine ⟨tried, a, ?_, ((hs.mem_potentialMounts _).mp hm').2, htape⟩
  unfold answerOf at hanswer
  split at hanswer <;> simp_all

theorem chosen_spec {sorting : Sorting PotentialMount.lt} (h : chosen sorting s drive r = some m) :
    let mountInfo : TapeMountDecisionInfo :=
      ⟨r.potentialMounts, existingOrNextMounts s.rows, r.queueTrimRequired⟩
    (drive ∈ s.drives ∧ (s.sessions drive).mount = none) ∧ ¬TapeInUse mountInfo drive m.vid ∧
      ∃ vo, r.scheduler.catalogue.getCachedVirtualOrganizationOfTapepool m.tapePool = .ok vo ∧
        voMounts r.scheduler mountInfo drive vo.name (getMountBasicType m.type) <
          maxDrives vo (getMountBasicType m.type) := by
  obtain ⟨hidle, tried, a, hcreate, hschedulable, htape⟩ := chosen_of_ok h
  have hm : m.vid = a.vid ∧ m.tapePool = a.mount.tapePool ∧
      m.type = a.mount.type := by
    cases a with
    | archive mount tape =>
      obtain ⟨-, tapes, -, -, hpool⟩ := htape.suitable
      simp only [createMount] at hcreate
      split at hcreate
      · obtain ⟨-, -, hcreate⟩ := except_bind_eq_ok.mp hcreate
        obtain ⟨-, -, hm⟩ := except_bind_eq_ok.mp hcreate
        cases hm
        exact ⟨rfl, hpool, rfl⟩
      · cases hcreate
    | retrieve mount =>
      have htype : mount.type = .retrieve := htape.suitable
      obtain ⟨-, -, hcreate⟩ := except_bind_eq_ok.mp hcreate
      obtain ⟨-, -, hm⟩ := except_bind_eq_ok.mp hcreate
      cases hm
      exact ⟨rfl, rfl, htype.symm⟩
  obtain ⟨hvid, hpool, htype⟩ := hm
  exact ⟨hidle, hvid ▸ htape.free, by rw [hpool, htype]; exact hschedulable.quota⟩

end

section
variable {driveState : TapeDrive} {inputs : ReportDriveStatusInputs} {name host lib : String}

/-- A report leaves the row in the status that is reported, or down instead of up. An active status
comes with the mount, unless the row has it already. -/
theorem reported_shows (row : TapeDrive)
    (h : setDriveStatus
      { driveName := name, host, logicalLibrary := lib } inputs = .ok driveState) :
    let row' := reported row driveState
    (row'.driveStatus ∈ activeDriveStatuses ↔ inputs.status ∈ activeDriveStatuses) ∧
      row'.nextMountType = row.nextMountType ∧
      (row'.mountType = row.mountType ∧ row'.currentTapePool = row.currentTapePool ∧
          row'.currentVid = row.currentVid ∧ row.driveStatus = inputs.status ∨
        (inputs.status ∈ activeDriveStatuses → row'.mountType = inputs.mountType ∧
          row'.currentTapePool.getD "" = inputs.tapepool ∧
          row'.currentVid.getD "" = inputs.vid)) := by
  obtain ⟨-, hstatus, -, hmount⟩ := setDriveStatus_spec h
  unfold reported
  by_cases hs : row.driveStatus = driveState.driveStatus
  · have hsame := hs.trans hstatus
    rw [if_pos hs, sameStatus]
    split_ifs <;> exact ⟨by rw [← hsame], rfl, .inl ⟨rfl, rfl, rfl, hsame⟩⟩
  · rw [if_neg hs]
    refine ⟨?_, rfl, .inr fun ha => ?_⟩
    · simp only [changedStatus, hstatus]
      split_ifs with hup
      · simp [activeDriveStatuses, hup.1]
      · rfl
    · obtain ⟨htype, hpool, hvid⟩ := hmount fun hno => by
        cases hi : inputs.status <;> simp [activeDriveStatuses, hi] at ha hno
      simp only [changedStatus, htype, hpool, hvid, getD_setIfGiven, and_self]

end

section
variable {s : State} {driveInfo : DriveInfo} {inputs : ReportDriveStatusInputs}
  {rows : List TapeDrive} {session : Session}

theorem Shown.report_drives (h : Shown s) {id : Nat} {f : String → Session}
    (hr : updateDriveStatus s.rows driveInfo inputs = .ok rows) :
    State.drives ⟨rows, f, id⟩ = s.drives := by
  obtain ⟨driveState, -, rfl⟩ := updateDriveStatus_ok h.nodup hr
  exact updateRow_names driveInfo.driveName (reported_name · driveState)

theorem Shown.report (h : Shown s) (hr : updateDriveStatus s.rows driveInfo inputs = .ok rows)
    (hsession : session = .idle ∧ inputs.status ∉ activeDriveStatuses ∨
      ∃ m, (s.sessions driveInfo.driveName).mount = some m ∧ session = .reported m ∧
        inputs.status ∈ activeDriveStatuses ∧ inputs.mountType = m.type ∧
        inputs.tapepool = m.tapePool ∧ inputs.vid = m.vid) :
    Shown { s with
      rows, sessions := Function.update s.sessions driveInfo.driveName session } := by
  have hnames : State.drives ⟨rows, s.sessions, s.nextMountId⟩ = s.drives := h.report_drives hr
  obtain ⟨driveState, hd, rfl⟩ := updateDriveStatus_ok h.nodup hr
  refine ⟨hnames ▸ h.nodup, ?_, ?_, ?_, ?_⟩
  · intro row hmem ha
    obtain ⟨r, hr, ⟨hname, rfl⟩ | ⟨hname, rfl⟩⟩ := exists_of_mem_updateRow hmem
    · obtain ⟨hstatus, -, hshows⟩ := reported_shows r hd
      have hactive := hstatus.mp ha
      obtain ⟨-, hno⟩ | ⟨m, hm, rfl, -, htype, hpool, hvid⟩ := hsession
      · exact absurd hactive hno
      · rw [reported_name, hname]
        refine ⟨m, Function.update_self _ _ _, ?_⟩
        obtain ⟨ht, hp, hv, hsame⟩ | hnew := hshows
        · obtain ⟨m', hm', ht', hp', hv'⟩ := h.active r hr (hsame ▸ hactive)
          obtain rfl : m' = m := by simpa [Session.mount, ← hname, hm'] using hm
          exact ⟨ht.trans ht', by rw [hp, hp'], by rw [hv, hv']⟩
        · obtain ⟨ht, hp, hv⟩ := hnew hactive
          exact ⟨ht.trans htype, hp.trans hpool, hv.trans hvid⟩
    · simp only [Function.update_of_ne hname]
      exact h.active row hr ha
  · intro d hmount
    rw [State.drives] at hnames ⊢
    rw [hnames]
    by_cases hname : d = driveInfo.driveName
    · subst hname
      simp only [Function.update_self] at hmount
      obtain ⟨rfl, -⟩ | ⟨m, hm, -⟩ := hsession
      · exact absurd rfl hmount
      · exact h.here _ (by simp [hm])
    · simp only [Function.update_of_ne hname] at hmount
      exact h.here d hmount
  · intro row hmem m hm
    obtain ⟨r, hr, ⟨hname, rfl⟩ | ⟨hname, rfl⟩⟩ := exists_of_mem_updateRow hmem
    · simp only [reported_name, hname, Function.update_self] at hm
      obtain ⟨rfl, -⟩ | ⟨_, -, -, hactive, -⟩ := hsession
      · cases hm
      · exact (reported_shows r hd).1.mpr hactive
    · simp only [Function.update_of_ne hname] at hm
      exact h.onlyActive row hr m hm
  · intro row hmem
    obtain ⟨r, hr, ⟨-, rfl⟩ | ⟨-, rfl⟩⟩ := exists_of_mem_updateRow hmem
    · exact (reported_shows r hd).2.1.trans (h.noNext r hr)
    · exact h.noNext row hr

theorem Shown.unreported (h : Shown s) {d : String} (hd : d ∈ s.drives)
    (hold : ∀ m, s.sessions d ≠ .reported m) (hnew : ∀ m, session ≠ .reported m) (id : Nat) :
    Shown { s with sessions := Function.update s.sessions d session, nextMountId := id } := by
  refine ⟨h.nodup, ?_, ?_, ?_, h.noNext⟩
  · intro row hrow ha
    obtain ⟨m, hm, hrest⟩ := h.active row hrow ha
    have hne : row.driveName ≠ d := fun he => hold m (he ▸ hm)
    exact ⟨m, by simpa only [Function.update_of_ne hne] using hm, hrest⟩
  · intro e he
    by_cases hed : e = d
    · exact hed ▸ hd
    · simp only [Function.update_of_ne hed] at he
      exact h.here e he
  · intro row hrow m hm
    by_cases hed : row.driveName = d
    · simp only [hed, Function.update_self] at hm
      exact absurd hm (hnew m)
    · simp only [Function.update_of_ne hed] at hm
      exact h.onlyActive row hrow m hm

end

structure Quiet (s : State) : Prop where
  nodup : s.drives.Nodup
  inactive : ∀ row ∈ s.rows, row.driveStatus ∉ activeDriveStatuses ∧ row.nextMountType = .noMount
  idle : ∀ d, s.sessions d = .idle

section
variable {s : State} {sorting : Sorting PotentialMount.lt}

theorem Quiet.shown (h : Quiet s) : Shown s := by
  refine ⟨h.nodup, fun row hrow ha => absurd ha (h.inactive row hrow).1, fun d hd => ?_,
    fun row _ m hm => ?_, fun row hrow => (h.inactive row hrow).2⟩
  · simp [h.idle, Session.mount] at hd
  · simp [h.idle] at hm

structure Fewer (s s' : State) : Prop where
  shown : Shown s'
  drives : s'.drives = s.drives
  mounts : ∀ d m, (s'.sessions d).mount = some m → (s.sessions d).mount = some m

theorem afterReport_mount {status : DriveStatus} {m m' : Mount}
    (h : (afterReport status m).mount = some m') : m = m' := by
  unfold afterReport at h
  split_ifs at h
  · exact Option.some.inj h
  · cases h

theorem update_mount {d e : String} {session : Session} {m : Mount}
    (hmount : ∀ m, session.mount = some m → (s.sessions d).mount = some m)
    (hm : (Function.update s.sessions d session e).mount = some m) :
    (s.sessions e).mount = some m := by
  by_cases he : e = d
  · subst he
    exact hmount m (by simpa using hm)
  · simpa [he] using hm

variable (sorting) in
theorem next_cases (h : Shown s) (e : Event) :
    (∃ drive r m, e = .schedule drive r ∧ chosen sorting s drive r = some m ∧
      next sorting s e = s.create drive m) ∨
    (∀ drive r, e = .schedule drive r → chosen sorting s drive r = none) ∧
      Fewer s (next sorting s e) := by
  have hsame : Fewer s s := ⟨h, rfl, fun _ _ hm => hm⟩
  cases e with
  | schedule drive r =>
    rw [next]
    cases hm : chosen sorting s drive r with
    | none => exact .inr ⟨fun _ _ he => by cases he; exact hm, hsame⟩
    | some m => exact .inl ⟨drive, r, m, rfl, hm, rfl⟩
  | setDriveStatus drive status completionTime reason =>
    refine .inr ⟨fun _ _ he => (nomatch he), ?_⟩
    rw [next]
    split
    · exact hsame
    · next m hm =>
      split
      · next rows hrows =>
        refine ⟨h.report hrows ?_, h.report_drives hrows,
          fun d m' => update_mount fun m' hm' => by rw [hm, afterReport_mount hm']⟩
        unfold afterReport
        split_ifs with ha
        · exact .inr ⟨m, hm, rfl, ha, rfl, rfl, rfl⟩
        · exact .inl ⟨rfl, ha⟩
      · exact hsame
  | reportDriveStatus driveInfo status reportTime =>
    refine .inr ⟨fun _ _ he => (nomatch he), ?_⟩
    rw [next]
    split_ifs with hstatus
    · split
      · next rows hrows =>
        refine ⟨h.report hrows (.inl ⟨rfl, ?_⟩), h.report_drives hrows,
          fun d m' => update_mount fun m' hm' => (nomatch hm')⟩
        simp only [List.mem_cons, List.not_mem_nil, or_false] at hstatus
        obtain hs | hs | hs := hstatus <;> simp [hs, activeDriveStatuses]
      · exact hsame
    · exact hsame
  | dies drive =>
    refine .inr ⟨fun _ _ he => (nomatch he), ?_⟩
    rw [next]
    split
    · next m hm =>
      have hd : drive ∈ s.drives := h.here drive (by simp [hm, Session.mount])
      exact ⟨h.unreported hd (by simp [hm]) (by simp) _, rfl,
        fun d m' => update_mount fun m' hm' => (nomatch hm')⟩
    · exact hsame

theorem create_mount {drive d : String} {m m' : Mount}
    (h : ((s.create drive m).sessions d).mount = some m') :
    d = drive ∧ m' = m ∨ d ≠ drive ∧ (s.sessions d).mount = some m' := by
  change (Function.update s.sessions drive (.created m) d).mount = some m' at h
  by_cases hdrive : d = drive
  · subst hdrive
    rw [Function.update_self] at h
    exact .inl ⟨rfl, by simpa [Session.mount] using h.symm⟩
  · exact .inr ⟨hdrive, by rwa [Function.update_of_ne hdrive] at h⟩

theorem Shown.next (h : Shown s) (e : Event) : Shown (DriveScheduling.next sorting s e) := by
  obtain ⟨drive, r, m, -, hm, hnext⟩ | ⟨-, hfewer⟩ := next_cases sorting h e
  · obtain ⟨⟨hd, hidle⟩, -⟩ := chosen_spec hm
    rw [hnext]
    refine h.unreported hd (fun m' hm' => ?_) (by simp) _
    simp [hm', Session.mount] at hidle
  · exact hfewer.shown

def TapesApart (s : State) : Prop :=
  ∀ d e m n, (s.sessions d).mount = some m → (s.sessions e).mount = some n → m.vid = n.vid →
    m.vid ≠ "" → d = e

variable (sorting) in
/-- The tape that is chosen is not one that a drive has a mount of and has not reported. -/
def Unreported (s : State) : Event → Prop
  | .schedule drive r => ∀ m, chosen sorting s drive r = some m → m.vid ≠ "" →
      ∀ e n, s.sessions e = .created n → n.vid ≠ m.vid
  | _ => True

theorem chosen_unseen (h : Shown s) {drive e : String} {r : Round} {m n : Mount}
    (hm : chosen sorting s drive r = some m) (hvid : m.vid ≠ "") (hne : e ≠ drive)
    (hn : s.sessions e = .reported n) : n.vid ≠ m.vid := by
  intro hsame
  refine (chosen_spec hm).2.1 ((h.tapeInUse_iff rfl m.vid).mpr ⟨hvid, e, n, hne, hn, hsame⟩)

theorem tapesApart_create_iff (h : Shown s) {drive : String} {r : Round} {m : Mount}
    (ht : TapesApart s) (hm : chosen sorting s drive r = some m) :
    TapesApart (s.create drive m) ↔ Unreported sorting s (.schedule drive r) := by
  have hidle := (chosen_spec hm).1.2
  have hgiven : ((s.create drive m).sessions drive).mount = some m := by
    simp [State.create, Session.mount]
  constructor
  · intro hapart m' hm' hvid e n he hsame
    obtain rfl : m = m' := by simpa [hm] using hm'
    have hne : e ≠ drive := fun hed => by simp [← hed, he, Session.mount] at hidle
    have hn : ((s.create drive m).sessions e).mount = some n := by
      simp [State.create, Function.update_of_ne hne, he, Session.mount]
    exact hne (hapart drive e m n hgiven hn hsame.symm hvid).symm
  · intro hnew
    have hother : ∀ e n, e ≠ drive → (s.sessions e).mount = some n → m.vid ≠ "" →
        n.vid ≠ m.vid := by
      intro e n hne hn hvid
      cases hs : s.sessions e with
      | idle => simp [hs, Session.mount] at hn
      | created n' =>
        obtain rfl : n' = n := by simpa [hs, Session.mount] using hn
        exact hnew m hm hvid e n' hs
      | reported n' =>
        obtain rfl : n' = n := by simpa [hs, Session.mount] using hn
        exact chosen_unseen h hm hvid hne hs
    intro d e n n' hn hn' hsame hvid
    obtain ⟨rfl, rfl⟩ | ⟨hd, hold⟩ := create_mount hn <;>
      obtain ⟨rfl, rfl⟩ | ⟨he, hold'⟩ := create_mount hn'
    · rfl
    · exact absurd hsame.symm (hother e n' he hold' hvid)
    · exact absurd hsame (hother d n hd hold (hsame ▸ hvid))
    · exact ht d e n n' hold hold' hsame hvid

/-- In a run, drives keep to different tapes as long as none is given the tape of a mount that
another drive has been given and has not reported. The tapes of reported mounts are seen. -/
theorem tapes_apart_iff (h : Quiet s) (events : List Event) :
    AllStates (DriveScheduling.next sorting) TapesApart s events ↔
      AllSteps (DriveScheduling.next sorting) (Unreported sorting) s events := by
  refine allStates_iff_allSteps (fun s e hi ht => ?_) (fun s e hi _ _ => hi.next e) h.shown
    fun d e m n hm => ?_
  · obtain ⟨drive, r, m, rfl, hm, hnext⟩ | ⟨hnone, hfewer⟩ := next_cases sorting hi e
    · rw [hnext]
      exact tapesApart_create_iff hi ht hm
    · refine iff_of_true (fun d e m n hm hn => ?_) ?_
      · exact ht d e m n (hfewer.mounts d m hm) (hfewer.mounts e n hn)
      · cases e with
        | schedule drive r => simp [Unreported, hnone drive r rfl]
        | _ => trivial
  · simp [h.idle d, Session.mount] at hm

def twoDrives : State where
  rows := [{ driveName := "drive1", host := "host", logicalLibrary := "lib", driveStatus := .up },
    { driveName := "drive3", host := "host", logicalLibrary := "lib", driveStatus := .up }]
  sessions _ := .idle
  nextMountId := 7

def urgentArchive : Round :=
  ⟨oneReadableTape, "lib", "host", archiveAndRetrieve.potentialMounts, false, .ok (),
    fun _ => .ok (), fun _ => .ok ()⟩

def archiveMount : Mount := ⟨7, .archiveForUser, "V1", "pool", "vo", "host", "lib", none⟩

theorem twoDrives_quiet : Quiet twoDrives := ⟨by decide, by decide, fun _ => rfl⟩

theorem two_drives_share_a_tape : ¬AllStates (DriveScheduling.next sortByKey) TapesApart twoDrives
    [.schedule "drive1" urgentArchive, .schedule "drive3" urgentArchive] := by
  intro h
  exact ((tapes_apart_iff twoDrives_quiet _).mp h).2.1 { archiveMount with mountId := 8 } rfl
    (by decide) "drive1" archiveMount rfl rfl

def Mount.isFor (c : Catalogue) (vo : String) (basicType : MountType) (m : Mount) : Bool :=
  ownedBy c vo m.tapePool ∧ getMountBasicType m.type = basicType

def State.mountsFor (s : State) (c : Catalogue) (vo : String) (basicType : MountType) : Nat :=
  s.drives.countP fun d => (s.sessions d).mount.any (Mount.isFor c vo basicType)

def QuotasKept (c : Catalogue) (s : State) : Prop :=
  ∀ tapepool vo basicType, c.getCachedVirtualOrganizationOfTapepool tapepool = .ok vo →
    s.mountsFor c vo.name basicType ≤ maxDrives vo basicType

/-- A drive looks for a mount when those that are given are reported, and the virtual organizations
are those of the catalogue. -/
def Settled (c : Catalogue) (s : State) : Event → Prop
  | .schedule _ r => (∀ e n, s.sessions e ≠ .created n) ∧
      r.scheduler.catalogue.getCachedVirtualOrganizationOfTapepool =
        c.getCachedVirtualOrganizationOfTapepool
  | _ => True

theorem mountsFor_le {s s' : State} {c : Catalogue} {vo : String} {basicType : MountType}
    (hd : s'.drives = s.drives) (hm : ∀ d m, (s'.sessions d).mount = some m →
      m.isFor c vo basicType = true → (s.sessions d).mount = some m) :
    s'.mountsFor c vo basicType ≤ s.mountsFor c vo basicType := by
  rw [State.mountsFor, State.mountsFor, hd]
  refine List.countP_mono_left fun d _ hany => ?_
  obtain ⟨m, hs, hfor⟩ := (Option.any_eq_true _ _).mp hany
  simp [hm d m hs hfor, hfor]

theorem countP_le_except {drives : List String} (h : drives.Nodup) (d : String)
    (p : String → Bool) : drives.countP p ≤ drives.countP (fun e => e ≠ d ∧ p e) + 1 := by
  rw [List.countP_eq_countP_filter_add drives p (· = d), Nat.add_comm]
  refine Nat.add_le_add (le_of_eq ?_) ?_
  · rw [List.countP_filter]
    exact List.countP_congr fun e _ => by simp [and_comm]
  · calc (drives.filter (· = d)).countP p ≤ (drives.filter (· = d)).length := List.countP_le_length
      _ = drives.count d := by rw [← List.countP_eq_length_filter, List.count]; rfl
      _ ≤ 1 := List.nodup_iff_count_le_one.mp h d

theorem Shown.voMounts_eq (h : Shown s) {c : Catalogue} {drive : String} {r : Round}
    (hs : Settled c s (.schedule drive r)) (vo : String) (basicType : MountType) :
    voMounts r.scheduler ⟨r.potentialMounts, existingOrNextMounts s.rows, r.queueTrimRequired⟩ drive
        vo basicType =
      s.drives.countP fun e => e ≠ drive ∧
        (s.sessions e).mount.any (Mount.isFor c vo basicType) := by
  have howned : ∀ pool, ownedBy r.scheduler.catalogue vo pool = ownedBy c vo pool := by
    intro pool
    rw [ownedBy, hs.2, ownedBy]
  rw [voMounts, countOnOtherDrives, h.existing, List.countP_filterMap, State.drives,
    List.countP_map]
  refine List.countP_congr fun row _ => ?_
  cases hrow : s.sessions row.driveName with
  | created m => exact absurd hrow (hs.1 _ m)
  | _ => simp [hrow, Session.shown, Session.mount, Mount.isFor, howned]

theorem quotasKept_create (h : Shown s) {c : Catalogue} {drive : String} {r : Round} {m : Mount}
    (hc : ∀ p q v w, c.getCachedVirtualOrganizationOfTapepool p = .ok v →
      c.getCachedVirtualOrganizationOfTapepool q = .ok w → v.name = w.name → v = w)
    (hs : Settled c s (.schedule drive r)) (hq : QuotasKept c s)
    (hm : chosen sorting s drive r = some m) : QuotasKept c (s.create drive m) := by
  intro tapepool vo basicType hvo
  obtain ⟨-, -, w, hw, hlt⟩ := chosen_spec hm
  rw [hs.2] at hw
  by_cases hnew : m.isFor c vo.name basicType = true
  · -- the new mount counts, and there was room for it
    obtain ⟨hname, rfl⟩ : ownedBy c vo.name m.tapePool = true ∧
        getMountBasicType m.type = basicType := by simpa [Mount.isFor] using hnew
    have hsame : w = vo := by
      refine hc _ _ _ _ hw hvo ?_
      simpa [ownedBy, hw, Except.toOption] using hname
    rw [hsame, h.voMounts_eq hs] at hlt
    refine le_trans (countP_le_except h.nodup drive _) (le_trans (Nat.succ_le_succ ?_) hlt)
    refine List.countP_mono_left fun e _ he => ?_
    simp only [decide_eq_true_eq] at he ⊢
    simpa [State.create, Function.update_of_ne he.1, he.1] using he.2
  · refine le_trans (mountsFor_le (s := s) rfl fun d m' hm' hfor => ?_)
      (hq tapepool vo basicType hvo)
    obtain ⟨-, rfl⟩ | ⟨-, hold⟩ := create_mount hm'
    · exact absurd hfor hnew
    · exact hold

/-- Where virtual organizations have names of their own, and a drive looks for a mount only when
there is none to be reported, no quota of drives is exceeded. -/
theorem quotas_kept {c : Catalogue} (h : Quiet s)
    (hc : ∀ p q v w, c.getCachedVirtualOrganizationOfTapepool p = .ok v →
      c.getCachedVirtualOrganizationOfTapepool q = .ok w → v.name = w.name → v = w)
    {events : List Event} (he : AllSteps (DriveScheduling.next sorting) (Settled c) s events) :
    AllStates (DriveScheduling.next sorting) (QuotasKept c) s events := by
  refine he.allStates (I := fun s => Shown s ∧ QuotasKept c s) (fun s e hi hs => ⟨hi.1.next e, ?_⟩)
    (fun s hi => hi.2) ⟨h.shown, fun tapepool vo basicType _ => ?_⟩
  · obtain ⟨drive, r, m, rfl, hm, hnext⟩ | ⟨-, hfewer⟩ := next_cases sorting hi.1 e
    · rw [hnext]
      exact quotasKept_create hi.1 hc hs hi.2 hm
    · exact fun tapepool vo basicType hvo =>
        le_trans (mountsFor_le hfewer.drives fun d m hm _ => hfewer.mounts d m hm)
          (hi.2 tapepool vo basicType hvo)
  · simp [State.mountsFor, h.idle, Session.mount]

theorem quotas_kept_one_by_one :
    AllStates (DriveScheduling.next sortByKey) (QuotasKept oneReadableTape.catalogue) twoDrives
      [.schedule "drive1" urgentArchive, .setDriveStatus "drive1" .starting 60 none,
        .schedule "drive3" urgentArchive] := by
  refine quotas_kept twoDrives_quiet (fun p q v w hv hw _ => Except.ok.inj (hv.symm.trans hw))
    ⟨⟨fun _ _ h => (nomatch h), rfl⟩, trivial, ⟨fun e n h => ?_, rfl⟩, trivial⟩
  have hs : Function.update (Function.update (fun _ => Session.idle) "drive1"
      (.created archiveMount)) "drive1" (.reported archiveMount) e = Session.created n := h
  by_cases he : e = "drive1"
  · simp [he] at hs
  · simp [he] at hs

end

end Cta.Scheduler.DriveScheduling
