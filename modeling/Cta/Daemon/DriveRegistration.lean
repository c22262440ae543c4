import Cta.Catalogue.DriveState
import Cta.Lib.Transactions

/-! The registration of a drive when its handler starts up. -/
namespace Cta.Daemon.DriveRegistration
open Cta.Catalogue.DriveState Cta.Lib.Runs Cta.Lib.Triples Cta.Lib.Transactions

structure DriveInfo where
  driveName : String
  host : String
  logicalLibrary : String
  deriving DecidableEq, Repr

structure DesiredDriveState where
  up : Bool := false
  forceDown : Bool := false
  reason : Option String := none
  comment : Option String := none
  deriving DecidableEq, Repr

structure Parameter where
  category : String
  key : String
  value : String
  source : String
  deriving DecidableEq, Repr

/-- The drive states and the rows of the drives' configurations. -/
structure Registry where
  drives : Table
  configs : List (String × Parameter)
  deriving DecidableEq

/-- What is thrown; all of these derive from `cta::exception::Exception`. -/
inductive Exception
  | driveAlreadyExists
  | noSuchDrive
  | userError
  | uniqueError
  | lostDatabaseConnection
  deriving DecidableEq, Repr

inductive CatalogueCall
  | checkDriveNames
  | checkDrive
  | statesDriveNames
  | statesDrive (driveName : String)
  | createDriveNames
  | deleteTapeDrive
  | createTapeDrive
  | setDesiredTapeDriveState
  | getTapeDriveConfigNamesAndKeys (key : String)
  | deleteTapeDriveConfig (key : String)
  | createTapeDriveConfig (key : String)
  deriving DecidableEq, Repr

/-- A start-up of a handler: its drive, its configuration and the calls that fail. -/
structure StartUp where
  driveInfo : DriveInfo
  config : List Parameter
  fails : CatalogueCall → Bool

abbrev Program := EStateM Exception Registry

namespace StartUp

def call {α : Type} (s : StartUp) (c : CatalogueCall)
    (f : Registry → Except Exception (α × Registry)) : Program α :=
  exec fun r => if s.fails c then .error .lostDatabaseConnection else f r

def query {α : Type} (s : StartUp) (c : CatalogueCall) (f : Table → α) : Program α :=
  s.call c fun r => .ok (f r.drives, r)

def checkTapeDrive (s : StartUp) : Program PUnit := do
  let _ ← s.query .checkDriveNames Table.getTapeDriveNames
  ignoring (fun _ => true) do
    match ← s.query .checkDrive (·.getTapeDrive s.driveInfo.driveName) with
    | none => pure ⟨⟩
    | some tapeDrive =>
      if tapeDrive.logicalLibrary ≠ s.driveInfo.logicalLibrary ∨
          tapeDrive.host ≠ s.driveInfo.host then
        throw .driveAlreadyExists
      else pure ⟨⟩

def checkDriveCanBeCreated (s : StartUp) : Program Bool := fun r =>
  match s.checkTapeDrive r with
  | .ok _ t => .ok true t
  | .error .driveAlreadyExists t => .ok false t
  | .error e t => .error e t

def getDriveStates (s : StartUp) : Program (List TapeDrive) := do
  let driveNames ← s.query .statesDriveNames Table.getTapeDriveNames
  exec fun r =>
    if driveNames.any (s.fails <| .statesDrive ·) then .error .lostDatabaseConnection
    else .ok (driveNames.filterMap r.drives.getTapeDrive, r)

/-- The desired state of the drive, none when `NoSuchDrive` is thrown. -/
def getDesiredDriveState (s : StartUp) : Program (Option DesiredDriveState) := do
  let driveStates ← s.getDriveStates
  return (driveStates.find? (·.driveName = s.driveInfo.driveName)).map fun driveState =>
    { up := driveState.desiredUp
      forceDown := driveState.desiredForceDown
      reason := driveState.reasonUpDown
      comment := driveState.userComment }

def setTapeDriveStatus (driveInfo : DriveInfo) (desiredState : DesiredDriveState) : TapeDrive where
  driveName := driveInfo.driveName
  host := driveInfo.host
  logicalLibrary := driveInfo.logicalLibrary
  desiredUp := desiredState.up
  desiredForceDown := desiredState.forceDown
  reasonUpDown := desiredState.reason
  userComment := desiredState.comment

def deleteTapeDrive (s : StartUp) : Program PUnit :=
  s.call .deleteTapeDrive fun r =>
    .ok (⟨⟩, { r with drives := r.drives.deleteTapeDrive s.driveInfo.driveName })

def createTapeDrive (s : StartUp) (tapeDrive : TapeDrive) : Program PUnit :=
  s.call .createTapeDrive fun r =>
    match r.drives.createTapeDrive tapeDrive with
    | some drives => .ok (⟨⟩, { r with drives })
    | none => .error .uniqueError

def createTapeDriveStatus (s : StartUp) (desiredState : DesiredDriveState) : Program PUnit := do
  let driveNames ← s.query .createDriveNames Table.getTapeDriveNames
  if s.driveInfo.driveName ∈ driveNames then
    s.deleteTapeDrive
  s.createTapeDrive (setTapeDriveStatus s.driveInfo desiredState)

def reasonFromLogMsg (msg : String) : String := "[cta-taped] INFO " ++ msg

/-- The reason for the drive to be down is kept when an operator gave it. -/
def reasonAtStartUp (current : DesiredDriveState) : String :=
  match current.reason with
  | none => reasonFromLogMsg "Startup"
  | some reason =>
    if reason.take 11 == "[cta-taped]" then reasonFromLogMsg "Startup" else reason

def setDesiredTapeDriveState (s : StartUp) (desiredState : DesiredDriveState) : Program PUnit :=
  s.call .setDesiredTapeDriveState fun r =>
    if (r.drives.getTapeDrive s.driveInfo.driveName).isSome then
      .ok (⟨⟩, { r with
        drives := r.drives.update s.driveInfo.driveName
          (fun row => { row with
            desiredUp := desiredState.up
            desiredForceDown := desiredState.forceDown
            reasonUpDown := desiredState.reason <|> row.reasonUpDown })
          fun _ => rfl })
    else .error .userError

def deleteTapeDriveConfig (s : StartUp) (key : String) : Program PUnit :=
  s.call (.deleteTapeDriveConfig key) fun r =>
    .ok (⟨⟩, { r with
      configs := r.configs.filter fun row => ¬(row.1 = s.driveInfo.driveName ∧ row.2.key = key) })

def checkConfigInDB (s : StartUp) (key : String) : Program PUnit := do
  let namesAndKeys ← s.call (.getTapeDriveConfigNamesAndKeys key) fun r =>
    .ok (r.configs.map fun row => (row.1, row.2.key), r)
  if namesAndKeys.contains (s.driveInfo.driveName, key) then
    s.deleteTapeDriveConfig key

def createTapeDriveConfig (s : StartUp) (parameter : Parameter) : Program PUnit :=
  s.call (.createTapeDriveConfig parameter.key) fun r =>
    .ok (⟨⟩, { r with configs := r.configs ++ [(s.driveInfo.driveName, parameter)] })

def setConfigToDB (s : StartUp) (parameter : Parameter) : Program PUnit := do
  s.checkConfigInDB parameter.key
  s.createTapeDriveConfig parameter

def reportDriveConfig (s : StartUp) : Program PUnit := forEach s.setConfigToDB s.config

def register (s : StartUp) : Program PUnit := do
  let current ← s.getDesiredDriveState
  s.createTapeDriveStatus {}
  s.setDesiredTapeDriveState { reason := reasonAtStartUp (current.getD {}) }
  s.reportDriveConfig

/-- How a start-up ends: `Fatal` is reported and the drive marked as down, or a data transfer
session is started. -/
inductive Outcome
  | fatal
  | dataTransferSession
  deriving DecidableEq, Repr

def runChild (s : StartUp) (r : Registry) : Outcome × Registry :=
  match s.checkDriveCanBeCreated r with
  | .ok false t => (.fatal, t)
  | .error _ t => (.fatal, t)
  | .ok true t =>
    match s.register t with
    | .ok _ u => (.dataTransferSession, u)
    | .error _ u => (.fatal, u)

end StartUp

def next (r : Registry) (s : StartUp) : Registry := (s.runChild r).2

/-- A row with the name of the drive is registered for another host or library. -/
def Taken (driveInfo : DriveInfo) (r : Registry) : Prop :=
  ∃ row ∈ r.drives.rows, row.driveName = driveInfo.driveName ∧
    (row.host ≠ driveInfo.host ∨ row.logicalLibrary ≠ driveInfo.logicalLibrary)

/-- A start-up for a name that is taken ends as fatal and leaves the catalogue as it is. -/
def Refused (r : Registry) (s : StartUp) : Prop :=
  Taken s.driveInfo r → s.runChild r = (.fatal, r)

def FailsEarly (s : StartUp) (r : Registry) : Prop :=
  s.fails .checkDriveNames = true ∨ s.fails .statesDriveNames = true ∨
    (∃ name ∈ r.drives.getTapeDriveNames, s.fails (.statesDrive name) = true) ∨
      s.fails .createDriveNames = true ∨ s.fails .deleteTapeDrive = true

variable {s : StartUp} {r : Registry} {driveInfo : DriveInfo}

theorem Taken.mem_names (h : Taken driveInfo r) :
    driveInfo.driveName ∈ r.drives.getTapeDriveNames := by
  obtain ⟨row, hrow, hname, -⟩ := h
  exact List.mem_map.mpr ⟨row, hrow, hname⟩

namespace StartUp

theorem call_ok {α : Type} {c : CatalogueCall} {f : Registry → Except Exception (α × Registry)}
    {a : α} {t : Registry} (hc : s.fails c = false) (hf : f r = .ok (a, t)) :
    s.call c f r = .ok a t := by
  simp [call, exec, hc, hf]

theorem call_error {α : Type} {c : CatalogueCall}
    {f : Registry → Except Exception (α × Registry)} (hc : s.fails c = true) :
    s.call c f r = .error .lostDatabaseConnection r := by
  simp [call, exec, hc]

theorem query_ok {α : Type} {c : CatalogueCall} {f : Table → α} (hc : s.fails c = false) :
    s.query c f r = .ok (f r.drives) r := call_ok hc rfl

theorem query_error {α : Type} {c : CatalogueCall} {f : Table → α} (hc : s.fails c = true) :
    s.query c f r = .error .lostDatabaseConnection r := call_error hc

theorem checkDriveCanBeCreated_run (hc : s.fails .checkDriveNames = false) :
    s.checkDriveCanBeCreated r = .ok true r := by
  have hcheck : s.checkTapeDrive r = .ok ⟨⟩ r := by
    rw [checkTapeDrive, bind_ok (query_ok hc)]
    by_cases hd : s.fails .checkDrive = true
    · exact ignoring_of_error (bind_error (query_error hd) _) rfl
    · rw [Bool.not_eq_true] at hd
      cases hrow : r.drives.getTapeDrive s.driveInfo.driveName with
      | none =>
        refine ignoring_of_ok ?_
        rw [bind_ok (query_ok hd), hrow]
        rfl
      | some tapeDrive =>
        by_cases htaken : tapeDrive.logicalLibrary ≠ s.driveInfo.logicalLibrary ∨
            tapeDrive.host ≠ s.driveInfo.host
        · refine ignoring_of_error (e := .driveAlreadyExists) ?_ rfl
          rw [bind_ok (query_ok hd), hrow]
          simp only [htaken, if_true]
          rfl
        · refine ignoring_of_ok ?_
          rw [bind_ok (query_ok hd), hrow]
          simp only [htaken, if_false]
          rfl
  rw [checkDriveCanBeCreated, hcheck]

theorem checkDriveCanBeCreated_error (hc : s.fails .checkDriveNames = true) :
    s.checkDriveCanBeCreated r = .error .lostDatabaseConnection r := by
  rw [checkDriveCanBeCreated, checkTapeDrive, bind_error (query_error hc)]

theorem getDesiredDriveState_ok (hnames : s.fails .statesDriveNames = false)
    (hdrives : ∀ name ∈ r.drives.getTapeDriveNames, s.fails (.statesDrive name) = false) :
    ∃ current, s.getDesiredDriveState r = .ok current r := by
  have hany : r.drives.getTapeDriveNames.any (s.fails <| .statesDrive ·) = false := by
    simpa using hdrives
  have hstates : s.getDriveStates r =
      .ok (r.drives.getTapeDriveNames.filterMap r.drives.getTapeDrive) r := by
    rw [getDriveStates, bind_ok (query_ok hnames), exec_eq_ok, hany]
    rfl
  rw [getDesiredDriveState, bind_ok hstates]
  exact ⟨_, rfl⟩

theorem getDesiredDriveState_error (h : s.fails .statesDriveNames = true ∨
      ∃ name ∈ r.drives.getTapeDriveNames, s.fails (.statesDrive name) = true) :
    s.getDesiredDriveState r = .error .lostDatabaseConnection r := by
  rw [getDesiredDriveState]
  refine bind_error ?_ _
  rw [getDriveStates]
  by_cases hnames : s.fails .statesDriveNames = true
  · exact bind_error (query_error hnames) _
  · have hany : r.drives.getTapeDriveNames.any (s.fails <| .statesDrive ·) = true := by
      simpa using h.resolve_left hnames
    rw [Bool.not_eq_true] at hnames
    rw [bind_ok (query_ok hnames), exec]
    simp only [hany, if_true]

theorem createTapeDriveStatus_error {desiredState : DesiredDriveState}
    (hname : s.driveInfo.driveName ∈ r.drives.getTapeDriveNames)
    (h : s.fails .createDriveNames = true ∨ s.fails .deleteTapeDrive = true) :
    s.createTapeDriveStatus desiredState r = .error .lostDatabaseConnection r := by
  rw [createTapeDriveStatus]
  by_cases hnames : s.fails .createDriveNames = true
  · exact bind_error (query_error hnames) _
  · have hdelete := h.resolve_left hnames
    rw [Bool.not_eq_true] at hnames
    rw [bind_ok (query_ok hnames), if_pos hname]
    exact bind_error (call_error hdelete) _

theorem runChild_failsEarly (htaken : Taken s.driveInfo r) (h : FailsEarly s r) :
    s.runChild r = (.fatal, r) := by
  rw [runChild]
  by_cases hcheck : s.fails .checkDriveNames = true
  · rw [checkDriveCanBeCreated_error hcheck]
  · have hlater := h.resolve_left hcheck
    rw [Bool.not_eq_true] at hcheck
    have hregister : s.register r = .error .lostDatabaseConnection r := by
      rw [register]
      by_cases hstates : s.fails .statesDriveNames = true ∨
          ∃ name ∈ r.drives.getTapeDriveNames, s.fails (.statesDrive name) = true
      · exact bind_error (getDesiredDriveState_error hstates) _
      · rw [not_or] at hstates
        have hcreate := (hlater.resolve_left hstates.1).resolve_left hstates.2
        obtain ⟨current, hcurrent⟩ := getDesiredDriveState_ok (s := s) (r := r)
          (by simpa using hstates.1) (by simpa using hstates.2)
        rw [bind_ok hcurrent]
        exact bind_error (createTapeDriveStatus_error htaken.mem_names hcreate) _
    rw [checkDriveCanBeCreated_run hcheck]
    simp only [hregister]

theorem call_keeps {α : Type} {c : CatalogueCall} {P : Registry → Prop}
    {f : Registry → Except Exception (α × Registry)}
    (h : ∀ r a t, P r → f r = .ok (a, t) → P t) : Keeps P (s.call c f) := by
  refine Keeps.exec fun r a t hr hf => ?_
  by_cases hc : s.fails c = true
  · simp [hc] at hf
  · simp only [hc] at hf
    exact h r a t hr hf

theorem not_taken_of_rows {t : Registry} (hr : ¬Taken driveInfo r)
    (h : ∀ row ∈ t.drives.rows, row.driveName = driveInfo.driveName →
      (∃ old ∈ r.drives.rows, old.driveName = row.driveName ∧ old.host = row.host ∧
        old.logicalLibrary = row.logicalLibrary) ∨
      row.host = driveInfo.host ∧ row.logicalLibrary = driveInfo.logicalLibrary) :
    ¬Taken driveInfo t := by
  intro ⟨row, hrow, hname, hother⟩
  cases h row hrow hname with
  | inl hold =>
    obtain ⟨old, hold, hsame, hhost, hlibrary⟩ := hold
    exact hr ⟨old, hold, hsame.trans hname, by rwa [hhost, hlibrary]⟩
  | inr hown =>
    cases hother with
    | inl hhost => exact hhost hown.1
    | inr hlibrary => exact hlibrary hown.2

theorem createTapeDrive_keeps {desiredState : DesiredDriveState} :
    Keeps (¬Taken s.driveInfo ·)
      (s.createTapeDrive (setTapeDriveStatus s.driveInfo desiredState)) := by
  refine call_keeps fun r a t hr hf => not_taken_of_rows hr fun row hrow _ => ?_
  split at hf
  · next drives hdrives =>
    cases hf
    unfold Table.createTapeDrive at hdrives
    split at hdrives
    · cases hdrives
      cases List.mem_append.mp hrow with
      | inl hold => exact .inl ⟨row, hold, rfl, rfl, rfl⟩
      | inr hnew =>
        rw [List.mem_singleton.mp hnew]
        exact .inr ⟨rfl, rfl⟩
    · cases hdrives
  · cases hf

theorem setDesiredTapeDriveState_keeps {desiredState : DesiredDriveState} :
    Keeps (¬Taken s.driveInfo ·) (s.setDesiredTapeDriveState desiredState) := by
  refine call_keeps fun r a t hr hf => not_taken_of_rows hr fun row hrow _ => .inl ?_
  split at hf
  · cases hf
    obtain ⟨old, hold, rfl⟩ := List.mem_map.mp hrow
    refine ⟨old, hold, ?_⟩
    split <;> exact ⟨rfl, rfl, rfl⟩
  · cases hf

theorem reportDriveConfig_keeps : Keeps (¬Taken s.driveInfo ·) s.reportDriveConfig := by
  refine Keeps.forEach (fun parameter => ?_) s.config
  have hcheck : Keeps (¬Taken s.driveInfo ·) (s.checkConfigInDB parameter.key) := by
    refine Triple.bind (call_keeps fun r a t hr hf => ?_) fun namesAndKeys => ?_
    · cases hf
      exact hr
    · refine Triple.ite (fun _ => call_keeps fun r a t hr hf => ?_) fun _ =>
        Triple.pure fun _ => id
      cases hf
      exact hr
  refine Triple.bind hcheck fun _ => call_keeps fun r a t hr hf => ?_
  cases hf
  exact hr

theorem runChild_not_taken (htaken : Taken s.driveInfo r) (h : ¬FailsEarly s r) :
    ¬Taken s.driveInfo (s.runChild r).2 := by
  simp only [FailsEarly, not_or, Bool.not_eq_true, not_exists, not_and] at h
  obtain ⟨hcheck, hstates, hdrives, hnames, hdelete⟩ := h
  obtain ⟨current, hcurrent⟩ := getDesiredDriveState_ok (s := s) (r := r) hstates hdrives
  let deleted : Registry := { r with drives := r.drives.deleteTapeDrive s.driveInfo.driveName }
  have hdeleted : s.deleteTapeDrive r = .ok ⟨⟩ deleted := call_ok hdelete rfl
  have hgone : ¬Taken s.driveInfo deleted := by
    intro ⟨row, hrow, hname, _⟩
    simpa [hname] using (List.mem_filter.mp hrow).2
  let rest : Program PUnit := do
    s.createTapeDrive (setTapeDriveStatus s.driveInfo {})
    s.setDesiredTapeDriveState { reason := reasonAtStartUp (current.getD {}) }
    s.reportDriveConfig
  have hcreate : s.createTapeDriveStatus {} r =
      s.createTapeDrive (setTapeDriveStatus s.driveInfo {}) deleted := by
    rw [createTapeDriveStatus, bind_ok (query_ok hnames), if_pos htaken.mem_names,
      bind_ok hdeleted]
  have hregister : s.register r = rest deleted := by
    rw [register, bind_ok hcurrent, bind_eq_of_run hcreate]
  have hrest : Keeps (¬Taken s.driveInfo ·) rest :=
    Triple.bind createTapeDrive_keeps fun _ =>
      Triple.bind setDesiredTapeDriveState_keeps fun _ => reportDriveConfig_keeps
  rw [runChild, checkDriveCanBeCreated_run hcheck]
  simp only [hregister]
  cases hend : rest deleted with
  | ok a t => exact hrest.of_ok hgone hend
  | error e t => exact hrest.of_error hgone hend

end StartUp

open StartUp

theorem refused_iff : Refused r s ↔ (Taken s.driveInfo r → FailsEarly s r) := by
  refine ⟨fun h htaken => ?_, fun h htaken => runChild_failsEarly htaken (h htaken)⟩
  by_contra hearly
  refine runChild_not_taken htaken hearly ?_
  rw [h htaken]
  exact htaken

/-- In every sequence of start-ups the names are refused to other handlers if and only if each
start-up is for a name that is not taken, or fails before it has deleted the row. -/
theorem refused_steps_iff (r : Registry) (startUps : List StartUp) :
    AllSteps next Refused r startUps ↔
      AllSteps next (fun r s => Taken s.driveInfo r → FailsEarly s r) r startUps := by
  induction startUps generalizing r with
  | nil => exact Iff.rfl
  | cons s startUps ih => exact and_congr refused_iff (ih _)

theorem not_refused : ¬∀ (r : Registry) (startUps : List StartUp),
    AllSteps next Refused r startUps := by
  intro h
  let registered : Registry :=
    { drives := ⟨[{
        driveName := "drive0"
        host := "tpsrv01"
        logicalLibrary := "library"
        desiredUp := true
        desiredForceDown := false }], List.nodup_singleton _⟩
      configs := [] }
  let s : StartUp := ⟨⟨"drive0", "tpsrv02", "library"⟩, [], fun _ => false⟩
  have htaken : Taken s.driveInfo registered :=
    ⟨_, List.mem_singleton_self _, rfl, .inl (by decide +kernel)⟩
  have hrun : s.runChild registered ≠ (.fatal, registered) := by decide +kernel
  exact hrun ((h registered [s]).1 htaken)

end Cta.Daemon.DriveRegistration
