import Cta.Lib.Runs
import Cta.Lib.Transactions
import Cta.Scheduler.MountInfo

/-! The status of the drives in the catalogue, as the drives report it and operators change it. -/
namespace Cta.Catalogue.TapeDrives
open Cta.Lib.Runs Cta.Lib.Triples Cta.Lib.Transactions Cta.Scheduler.MountInfo

inductive DriveStatus where
  | unknown
  | down
  | up
  | probing
  | starting
  | mounting
  | transferring
  | unloading
  | unmounting
  | drainingToDisk
  | cleaningUp
  | shutdown
  deriving DecidableEq, Repr

structure EntryLog where
  username : String
  host : String
  time : Int
  deriving DecidableEq

/-- A row of the table, or what a report sets in one. -/
structure TapeDrive where
  driveName : String
  host : String
  logicalLibrary : String
  sessionId : Option Nat := none
  bytesTransferedInSession : Option Nat := none
  filesTransferedInSession : Option Nat := none
  sessionStartTime : Option Int := none
  sessionElapsedTime : Option Int := none
  mountStartTime : Option Int := none
  transferStartTime : Option Int := none
  unloadStartTime : Option Int := none
  unmountStartTime : Option Int := none
  drainingStartTime : Option Int := none
  downOrUpStartTime : Option Int := none
  probeStartTime : Option Int := none
  cleanupStartTime : Option Int := none
  startStartTime : Option Int := none
  shutdownTime : Option Int := none
  mountType : MountType := .noMount
  driveStatus : DriveStatus := .unknown
  desiredUp : Bool := false
  desiredForceDown : Bool := false
  reasonUpDown : Option String := none
  currentVid : Option String := none
  currentActivity : Option String := none
  currentTapePool : Option String := none
  currentVo : Option String := none
  nextMountType : MountType := .noMount
  nextVid : Option String := none
  nextTapePool : Option String := none
  diskSystemName : Option String := none
  reservedBytes : Option Nat := none
  reservationSessionId : Option Nat := none
  ctaVersion : Option String := none
  devFileName : Option String := none
  rawLibrarySlot : Option String := none
  userComment : Option String := none
  creationLog : Option EntryLog := none
  lastModificationLog : Option EntryLog := none
  deriving DecidableEq

structure DriveInfo where
  driveName : String
  host : String
  logicalLibrary : String

structure DesiredDriveState where
  up : Bool
  forceDown : Bool
  reason : Option String
  comment : Option String

structure TpconfigLine where
  devFilename : String
  rawLibrarySlot : String

structure SecurityIdentity where
  username : String
  host : String

structure ReportDriveStatusInputs where
  status : DriveStatus
  mountType : MountType
  reportTime : Int
  mountSessionId : Nat := 0
  byteTransferred : Nat := 0
  filesTransferred : Nat := 0
  vid : String := ""
  tapepool : String := ""
  vo : String := ""
  activity : Option String := none
  reason : Option String := none

section
variable (driveState : TapeDrive) (inputs : ReportDriveStatusInputs)

def reset : TapeDrive :=
  { driveState with
    sessionId := none
    bytesTransferedInSession := none
    filesTransferedInSession := none
    sessionStartTime := none
    sessionElapsedTime := none
    mountStartTime := none
    transferStartTime := none
    unloadStartTime := none
    unmountStartTime := none
    drainingStartTime := none
    downOrUpStartTime := none
    probeStartTime := none
    cleanupStartTime := none
    shutdownTime := none
    lastModificationLog := some ⟨"NO_USER", driveState.host, inputs.reportTime⟩ }

def withoutMount (status : DriveStatus) : TapeDrive :=
  { reset driveState inputs with
    mountType := .noMount
    driveStatus := status
    currentVid := some ""
    currentTapePool := some ""
    currentVo := some ""
    currentActivity := none }

def withMount (status : DriveStatus) : TapeDrive :=
  { reset driveState inputs with
    sessionId := some inputs.mountSessionId
    mountType := inputs.mountType
    driveStatus := status
    currentVid := some inputs.vid
    currentTapePool := some inputs.tapepool
    currentVo := some inputs.vo }

def setDriveDown : TapeDrive :=
  { withoutMount driveState inputs .down with
    downOrUpStartTime := some inputs.reportTime
    desiredUp := false
    desiredForceDown := false
    reasonUpDown := inputs.reason <|> driveState.reasonUpDown }

def setDriveUpOrMaybeDown : TapeDrive :=
  { withoutMount driveState inputs .up with
    downOrUpStartTime := some inputs.reportTime
    reasonUpDown := inputs.reason <|> driveState.reasonUpDown }

def setDriveProbing : TapeDrive :=
  { withoutMount driveState inputs inputs.status with probeStartTime := some inputs.reportTime }

def setDriveStarting : TapeDrive :=
  { withMount driveState inputs .starting with
    sessionStartTime := some inputs.reportTime
    startStartTime := some inputs.reportTime
    currentActivity := inputs.activity }

def setDriveMounting : TapeDrive :=
  { withMount driveState inputs .mounting with
    sessionStartTime := driveState.sessionStartTime
    sessionElapsedTime := driveState.sessionElapsedTime
    mountStartTime := some inputs.reportTime }

def setDriveTransfering : TapeDrive :=
  { withMount driveState inputs .transferring with
    bytesTransferedInSession := some inputs.byteTransferred
    filesTransferedInSession := some inputs.filesTransferred
    sessionStartTime := driveState.sessionStartTime
    sessionElapsedTime := some 0
    mountStartTime := driveState.mountStartTime
    transferStartTime := some inputs.reportTime }

def setDriveUnloading : TapeDrive :=
  { withMount driveState inputs .unloading with unloadStartTime := some inputs.reportTime }

def setDriveUnmounting : TapeDrive :=
  { withMount driveState inputs .unmounting with unmountStartTime := some inputs.reportTime }

def setDriveDrainingToDisk : TapeDrive :=
  { withMount driveState inputs .drainingToDisk with drainingStartTime := some inputs.reportTime }

def setDriveCleaningUp : TapeDrive :=
  { withMount driveState inputs .cleaningUp with
    cleanupStartTime := some inputs.reportTime
    currentActivity := none }

def setDriveShutdown : TapeDrive :=
  { withMount driveState inputs .shutdown with
    sessionId := none
    shutdownTime := some inputs.reportTime
    currentActivity := none }

def setDriveStatus : Except Failure TapeDrive :=
  match inputs.status with
  | .down => .ok (setDriveDown driveState inputs)
  | .up => .ok (setDriveUpOrMaybeDown driveState inputs)
  | .probing => .ok (setDriveProbing driveState inputs)
  | .starting => .ok (setDriveStarting driveState inputs)
  | .mounting => .ok (setDriveMounting driveState inputs)
  | .transferring => .ok (setDriveTransfering driveState inputs)
  | .unloading => .ok (setDriveUnloading driveState inputs)
  | .unmounting => .ok (setDriveUnmounting driveState inputs)
  | .drainingToDisk => .ok (setDriveDrainingToDisk driveState inputs)
  | .cleaningUp => .ok (setDriveCleaningUp driveState inputs)
  | .shutdown => .ok (setDriveShutdown driveState inputs)
  | .unknown => .error (.ctaException "Unexpected status in DriveRegister::reportDriveStatus")

end

/-- A column that is set only if a value is given, an empty one as NULL. -/
def setIfGiven (column : Option String) : Option String → Option String
  | none => column
  | some value => if value = "" then none else some value

section
variable (row tapeDrive : TapeDrive)

def sameStatus : TapeDrive :=
  let row := if tapeDrive.driveStatus = .transferring then
    { row with
      bytesTransferedInSession := tapeDrive.bytesTransferedInSession
      filesTransferedInSession := tapeDrive.filesTransferedInSession
      sessionElapsedTime := some (match row.sessionStartTime with
        | none => 0
        | some start => tapeDrive.transferStartTime.getD 0 - start) }
    else row
  { row with
    host := tapeDrive.host
    logicalLibrary := tapeDrive.logicalLibrary
    lastModificationLog := tapeDrive.lastModificationLog }

/-- Case 2: drive status is changing. A drive that is not desired up does not become up. -/
def changedStatus : TapeDrive :=
  let isDown := tapeDrive.driveStatus = .down
  let isUp := tapeDrive.driveStatus = .up
  let isTransferring := tapeDrive.driveStatus = .transferring
  { row with
    host := tapeDrive.host
    logicalLibrary := tapeDrive.logicalLibrary
    sessionId := tapeDrive.sessionId
    bytesTransferedInSession := tapeDrive.bytesTransferedInSession
    filesTransferedInSession := tapeDrive.filesTransferedInSession
    transferStartTime := tapeDrive.transferStartTime
    sessionElapsedTime := tapeDrive.sessionElapsedTime
    unloadStartTime := tapeDrive.unloadStartTime
    unmountStartTime := tapeDrive.unmountStartTime
    drainingStartTime := tapeDrive.drainingStartTime
    downOrUpStartTime := tapeDrive.downOrUpStartTime
    probeStartTime := tapeDrive.probeStartTime
    cleanupStartTime := tapeDrive.cleanupStartTime
    shutdownTime := tapeDrive.shutdownTime
    mountType := tapeDrive.mountType
    lastModificationLog := tapeDrive.lastModificationLog
    sessionStartTime := if isTransferring ∨ tapeDrive.driveStatus = .mounting
      then row.sessionStartTime else tapeDrive.sessionStartTime
    mountStartTime := if isTransferring then row.mountStartTime else tapeDrive.mountStartTime
    startStartTime := if tapeDrive.driveStatus = .starting
      then tapeDrive.startStartTime else row.startStartTime
    desiredUp := if isDown then tapeDrive.desiredUp else row.desiredUp
    desiredForceDown := if isDown then tapeDrive.desiredForceDown else row.desiredForceDown
    diskSystemName := if isUp then none else row.diskSystemName
    reservedBytes := if isUp then none else row.reservedBytes
    reservationSessionId := if isUp then none else row.reservationSessionId
    driveStatus := if isUp ∧ row.desiredUp = false then .down else tapeDrive.driveStatus
    reasonUpDown := setIfGiven row.reasonUpDown tapeDrive.reasonUpDown
    currentVid := setIfGiven row.currentVid tapeDrive.currentVid
    currentActivity := setIfGiven row.currentActivity tapeDrive.currentActivity
    currentTapePool := setIfGiven row.currentTapePool tapeDrive.currentTapePool
    currentVo := setIfGiven row.currentVo tapeDrive.currentVo
    userComment := setIfGiven row.userComment tapeDrive.userComment }

end

def notFound (name : String) : Failure :=
  .ctaException s!"Cannot update status for drive {name}. Drive not found."

def updateRow (rows : List TapeDrive) (name : String) (change : TapeDrive → TapeDrive) :
    List TapeDrive :=
  rows.map fun row => if row.driveName = name then change row else row

def updateTapeDriveStatus (rows : List TapeDrive) (tapeDrive : TapeDrive) :
    Except Failure (List TapeDrive) :=
  if rows.any fun row => row.driveName = tapeDrive.driveName ∧
      row.driveStatus = tapeDrive.driveStatus then
    .ok (rows.map fun row => if row.driveName = tapeDrive.driveName ∧
      row.driveStatus = tapeDrive.driveStatus then sameStatus row tapeDrive else row)
  else if rows.any (·.driveName = tapeDrive.driveName) then
    .ok (updateRow rows tapeDrive.driveName (changedStatus · tapeDrive))
  else .error (notFound tapeDrive.driveName)

def updateDriveStatus (rows : List TapeDrive) (driveInfo : DriveInfo)
    (inputs : ReportDriveStatusInputs) : Except Failure (List TapeDrive) := do
  let driveState ← setDriveStatus
    { driveName := driveInfo.driveName, host := driveInfo.host,
      logicalLibrary := driveInfo.logicalLibrary } inputs
  updateTapeDriveStatus rows driveState

def updateTapeDriveStatistics (rows : List TapeDrive) (driveInfo : DriveInfo) (bytes files : Nat)
    (reportTime : Int) : List TapeDrive :=
  rows.map fun row => if row.driveName = driveInfo.driveName ∧ row.driveStatus = .transferring then
    { row with
      host := driveInfo.host
      logicalLibrary := driveInfo.logicalLibrary
      bytesTransferedInSession := some bytes
      filesTransferedInSession := some files
      sessionElapsedTime := row.sessionStartTime.map (reportTime - ·)
      lastModificationLog := some ⟨"NO_USER", driveInfo.host, reportTime⟩ }
    else row

def setTapeDriveStatus (driveInfo : DriveInfo) (desiredState : DesiredDriveState)
    (type : MountType) (status : DriveStatus) (tpConfigLine : TpconfigLine)
    (identity : SecurityIdentity) (reportTime : Int) : TapeDrive :=
  let log : EntryLog :=
    if identity.username = "" then ⟨"NO_USER", driveInfo.host, reportTime⟩
    else ⟨identity.username, identity.host, reportTime⟩
  { driveName := driveInfo.driveName
    host := driveInfo.host
    logicalLibrary := driveInfo.logicalLibrary
    downOrUpStartTime := some reportTime
    mountType := type
    driveStatus := status
    desiredUp := desiredState.up
    desiredForceDown := desiredState.forceDown
    reasonUpDown := desiredState.reason
    userComment := desiredState.comment
    devFileName := some tpConfigLine.devFilename
    rawLibrarySlot := some tpConfigLine.rawLibrarySlot
    creationLog := some log
    lastModificationLog := some log }

def TapeDrive.ofVersion (tapeDrive : TapeDrive) (ctaVersion : String) : TapeDrive :=
  { tapeDrive with ctaVersion := some ctaVersion }

def setOptionalString (value : Option String) : Option String := value.filter (· ≠ "")

def settingSqlTapeDriveValues (tapeDrive : TapeDrive) : TapeDrive :=
  { tapeDrive with
    reasonUpDown := setOptionalString tapeDrive.reasonUpDown
    currentVid := setOptionalString tapeDrive.currentVid
    ctaVersion := setOptionalString tapeDrive.ctaVersion
    currentActivity := setOptionalString tapeDrive.currentActivity
    currentTapePool := setOptionalString tapeDrive.currentTapePool
    nextVid := setOptionalString tapeDrive.nextVid
    nextTapePool := setOptionalString tapeDrive.nextTapePool
    devFileName := setOptionalString tapeDrive.devFileName
    rawLibrarySlot := setOptionalString tapeDrive.rawLibrarySlot
    currentVo := setOptionalString tapeDrive.currentVo
    userComment := setOptionalString tapeDrive.userComment
    diskSystemName := setOptionalString tapeDrive.diskSystemName }

/-- The calls of the catalogue, in which the database can fail. -/
inductive CatalogueCall where
  | getTapeDriveNames
  | deleteTapeDrive
  | createTapeDrive
  | updateTapeDriveStatus
  | updateTapeDriveStatistics
  | setDesiredTapeDriveState
  | setDesiredTapeDriveStateComment

abbrev Program := EStateM Failure (List TapeDrive)

section
variable (fails : CatalogueCall → Option Failure)

def call {α : Type} (c : CatalogueCall)
    (f : List TapeDrive → Except Failure (α × List TapeDrive)) : Program α :=
  exec fun rows => match fails c with
    | some e => .error e
    | none => f rows

def getTapeDriveNames : Program (List String) :=
  call fails .getTapeDriveNames fun rows => .ok (rows.map (·.driveName), rows)

def deleteTapeDrive (name : String) : Program PUnit :=
  call fails .deleteTapeDrive fun rows => .ok (⟨⟩, rows.filter (·.driveName ≠ name))

def createTapeDrive (tapeDrive : TapeDrive) : Program PUnit :=
  call fails .createTapeDrive fun rows =>
    if rows.any (·.driveName = tapeDrive.driveName) then
      .error (.ctaException "UNIQUE constraint failed: DRIVE_STATE.DRIVE_NAME")
    else .ok (⟨⟩, rows ++ [settingSqlTapeDriveValues tapeDrive])

def createTapeDriveStatus (driveInfo : DriveInfo) (desiredState : DesiredDriveState)
    (type : MountType) (status : DriveStatus) (tpConfigLine : TpconfigLine)
    (identity : SecurityIdentity) (reportTime : Int) (ctaVersion : String) : Program PUnit := do
  let tapeDriveStatus :=
    setTapeDriveStatus driveInfo desiredState type status tpConfigLine identity reportTime
  let driveNames ← getTapeDriveNames fails
  -- The old row is gone when its deletion returns, also if the new one cannot be inserted.
  if tapeDriveStatus.driveName ∈ driveNames then
    deleteTapeDrive fails tapeDriveStatus.driveName
  createTapeDrive fails (tapeDriveStatus.ofVersion ctaVersion)

def removeDrive (name : String) : Program PUnit :=
  ignoring (fun | .ctaException _ => true | .stdException _ => false) (deleteTapeDrive fails name)

def updateExisting (c : CatalogueCall) (name : String) (change : TapeDrive → TapeDrive) :
    Program PUnit :=
  call fails c fun rows =>
    if rows.any (·.driveName = name) then .ok (⟨⟩, updateRow rows name change)
    else .error (.ctaException
      s!"Cannot modify Tape Drive: {name} because it doesn't exist")

def setDesiredTapeDriveState (name : String) (desiredState : DesiredDriveState) : Program PUnit :=
  updateExisting fails .setDesiredTapeDriveState name fun row =>
    { row with
      desiredUp := desiredState.up
      desiredForceDown := desiredState.forceDown
      reasonUpDown := desiredState.reason <|> row.reasonUpDown }

def setDesiredTapeDriveStateComment (name comment : String) : Program PUnit :=
  updateExisting fails .setDesiredTapeDriveStateComment name fun row =>
    { row with userComment := setOptionalString (some comment) }

def setDesiredDriveState (name : String) (desiredState : DesiredDriveState) : Program PUnit :=
  match desiredState.comment with
  | none => setDesiredTapeDriveState fails name desiredState
  | some comment => setDesiredTapeDriveStateComment fails name comment

end

/-- What is called on the states of the drives. -/
inductive Call where
  | createTapeDriveStatus (driveInfo : DriveInfo) (desiredState : DesiredDriveState)
    (type : MountType) (status : DriveStatus) (tpConfigLine : TpconfigLine)
    (identity : SecurityIdentity) (reportTime : Int) (ctaVersion : String)
  | removeDrive (name : String)
  | updateDriveStatus (driveInfo : DriveInfo) (inputs : ReportDriveStatusInputs)
  | updateDriveStatistics (driveInfo : DriveInfo) (bytes files : Nat) (reportTime : Int)
  | setDesiredDriveState (name : String) (desiredState : DesiredDriveState)

/-- A call and the failures of the database during it. -/
structure Request where
  call : Call
  fails : CatalogueCall → Option Failure

def Request.run (request : Request) : Program PUnit :=
  match request.call with
  | .createTapeDriveStatus driveInfo desiredState type status tpConfigLine identity reportTime
      ctaVersion =>
    TapeDrives.createTapeDriveStatus request.fails driveInfo desiredState type status
      tpConfigLine identity reportTime ctaVersion
  | .removeDrive name => TapeDrives.removeDrive request.fails name
  | .updateDriveStatus driveInfo inputs =>
    TapeDrives.call request.fails .updateTapeDriveStatus fun rows =>
      (TapeDrives.updateDriveStatus rows driveInfo inputs).map (⟨⟩, ·)
  | .updateDriveStatistics driveInfo bytes files reportTime =>
    TapeDrives.call request.fails .updateTapeDriveStatistics fun rows =>
      .ok (⟨⟩, updateTapeDriveStatistics rows driveInfo bytes files reportTime)
  | .setDesiredDriveState name desiredState =>
    TapeDrives.setDesiredDriveState request.fails name desiredState

def next (rows : List TapeDrive) (request : Request) : List TapeDrive := after request.run rows

/-- The database lets a drive of that name be created. -/
def Creates (fails : CatalogueCall → Option Failure) (name : String) (rows : List TapeDrive) :
    Prop :=
  fails .getTapeDriveNames = none ∧
    (name ∈ rows.map (·.driveName) → fails .deleteTapeDrive = none) ∧
    fails .createTapeDrive = none

/-- A drive is only created as down or up and with no mount. -/
def Proper (rows : List TapeDrive) (request : Request) : Prop :=
  match request.call with
  | .createTapeDriveStatus driveInfo _ type status _ _ _ _ =>
    Creates request.fails driveInfo.driveName rows →
      type = .noMount ∧ (status = .down ∨ status = .up)
  | _ => True

/-- The columns of a row tell what its status says: since when the drive is in it, whether it has
a session, and which tape. -/
structure Consistent (row : TapeDrive) : Prop where
  known : row.driveStatus ≠ .unknown
  downOrUp : row.downOrUpStartTime.isSome ↔ row.driveStatus = .down ∨ row.driveStatus = .up
  probing : row.probeStartTime.isSome ↔ row.driveStatus = .probing
  starting : row.driveStatus = .starting → row.sessionStartTime.isSome
  mounting : row.driveStatus = .mounting → row.mountStartTime.isSome
  transferring : row.transferStartTime.isSome ↔ row.driveStatus = .transferring
  unloading : row.unloadStartTime.isSome ↔ row.driveStatus = .unloading
  unmounting : row.unmountStartTime.isSome ↔ row.driveStatus = .unmounting
  draining : row.drainingStartTime.isSome ↔ row.driveStatus = .drainingToDisk
  cleaning : row.cleanupStartTime.isSome ↔ row.driveStatus = .cleaningUp
  shutdown : row.shutdownTime.isSome ↔ row.driveStatus = .shutdown
  inSession : row.sessionStartTime.isSome →
    row.driveStatus = .starting ∨ row.driveStatus = .mounting ∨ row.driveStatus = .transferring
  mounted : row.mountStartTime.isSome →
    row.driveStatus = .mounting ∨ row.driveStatus = .transferring
  transferred : row.bytesTransferedInSession.isSome ↔ row.driveStatus = .transferring
  session : row.sessionId = none ↔
    row.driveStatus ∈ [.down, .up, .probing, .shutdown]
  noTape : row.driveStatus ∈ [.down, .up, .probing] → row.mountType = .noMount ∧
    row.currentVid = none ∧ row.currentTapePool = none ∧ row.currentVo = none

section
variable {row driveState : TapeDrive} {inputs : ReportDriveStatusInputs} {name host lib : String}

/-- Whatever a row was, a report that changes its status makes it consistent. -/
theorem consistent_changedStatus
    (h : setDriveStatus { driveName := name, host, logicalLibrary := lib } inputs =
      .ok driveState) : Consistent (changedStatus row driveState) := by
  cases hs : inputs.status with
  | unknown => simp [setDriveStatus, hs] at h
  | _ =>
    simp only [setDriveStatus, hs, Except.ok.injEq] at h
    subst h
    cases hd : row.desiredUp <;> constructor <;>
      simp [changedStatus, setDriveDown, setDriveUpOrMaybeDown, setDriveProbing, setDriveStarting,
        setDriveMounting, setDriveTransfering, setDriveUnloading, setDriveUnmounting,
        setDriveDrainingToDisk, setDriveCleaningUp, setDriveShutdown, withMount, withoutMount,
        reset, setIfGiven, hs, hd]

theorem setDriveStatus_spec
    (h : setDriveStatus { driveName := name, host, logicalLibrary := lib } inputs =
      .ok driveState) :
    driveState.driveName = name ∧ driveState.driveStatus = inputs.status ∧
      (inputs.status = .transferring → driveState.bytesTransferedInSession.isSome) ∧
      (inputs.status ∉ [.down, .up, .probing] → driveState.mountType = inputs.mountType ∧
        driveState.currentTapePool = some inputs.tapepool ∧
        driveState.currentVid = some inputs.vid) := by
  cases hs : inputs.status with
  | unknown => simp [setDriveStatus, hs] at h
  | _ =>
    simp only [setDriveStatus, hs, Except.ok.injEq] at h
    subst h
    simp [setDriveDown, setDriveUpOrMaybeDown, setDriveProbing, setDriveStarting,
      setDriveMounting, setDriveTransfering, setDriveUnloading, setDriveUnmounting,
      setDriveDrainingToDisk, setDriveCleaningUp, setDriveShutdown, withMount, withoutMount,
      reset, hs]

theorem Consistent.sameState {row' : TapeDrive} (h : Consistent row)
    (heq : row' = { row with
      host := row'.host
      logicalLibrary := row'.logicalLibrary
      bytesTransferedInSession := row'.bytesTransferedInSession
      filesTransferedInSession := row'.filesTransferedInSession
      sessionElapsedTime := row'.sessionElapsedTime
      desiredUp := row'.desiredUp
      desiredForceDown := row'.desiredForceDown
      reasonUpDown := row'.reasonUpDown
      userComment := row'.userComment
      lastModificationLog := row'.lastModificationLog })
    (hbytes : row'.bytesTransferedInSession.isSome ↔ row.driveStatus = .transferring) :
    Consistent row' := by
  rw [heq]
  exact ⟨h.known, h.downOrUp, h.probing, h.starting, h.mounting, h.transferring, h.unloading,
    h.unmounting, h.draining, h.cleaning, h.shutdown, h.inSession, h.mounted, hbytes, h.session,
    h.noTape⟩

theorem Consistent.sameStatus (h : Consistent row)
    (hd : setDriveStatus { driveName := name, host, logicalLibrary := lib } inputs =
      .ok driveState) (hs : row.driveStatus = driveState.driveStatus) :
    Consistent (TapeDrives.sameStatus row driveState) := by
  obtain ⟨-, hstatus, hbytes, -⟩ := setDriveStatus_spec hd
  unfold TapeDrives.sameStatus
  by_cases ht : driveState.driveStatus = .transferring
  · rw [if_pos ht]
    exact h.sameState rfl (iff_of_true (hbytes (hstatus ▸ ht)) (hs.trans ht))
  · rw [if_neg ht]
    exact h.sameState rfl h.transferred

end

theorem exists_of_mem_updateRow {rows : List TapeDrive} {name : String}
    {change : TapeDrive → TapeDrive} {row : TapeDrive} (h : row ∈ updateRow rows name change) :
    ∃ r ∈ rows, r.driveName = name ∧ row = change r ∨ r.driveName ≠ name ∧ row = r := by
  obtain ⟨r, hr, rfl⟩ := List.mem_map.mp h
  by_cases hname : r.driveName = name
  · exact ⟨r, hr, .inl ⟨hname, if_pos hname⟩⟩
  · exact ⟨r, hr, .inr ⟨hname, if_neg hname⟩⟩

theorem forall_updateRow {P : TapeDrive → Prop} {rows : List TapeDrive} {name : String}
    {change : TapeDrive → TapeDrive} (h : ∀ row ∈ rows, P row)
    (hc : ∀ row ∈ rows, P (change row)) : ∀ row ∈ updateRow rows name change, P row := by
  intro row hrow
  obtain ⟨r, hr, ⟨-, rfl⟩ | ⟨-, rfl⟩⟩ := exists_of_mem_updateRow hrow
  · exact hc r hr
  · exact h row hr

theorem getD_setIfGiven (column : Option String) (value : String) :
    (setIfGiven column (some value)).getD "" = value := by
  by_cases h : value = "" <;> simp [setIfGiven, h]

def reported (row driveState : TapeDrive) : TapeDrive :=
  if row.driveStatus = driveState.driveStatus then TapeDrives.sameStatus row driveState
  else changedStatus row driveState

section
variable {rows rows' : List TapeDrive} {driveInfo : DriveInfo} {inputs : ReportDriveStatusInputs}

theorem updateDriveStatus_ok (hn : (rows.map (·.driveName)).Nodup)
    (h : updateDriveStatus rows driveInfo inputs = .ok rows') :
    ∃ driveState, setDriveStatus
        { driveName := driveInfo.driveName, host := driveInfo.host,
          logicalLibrary := driveInfo.logicalLibrary } inputs = .ok driveState ∧
      rows' = updateRow rows driveInfo.driveName (reported · driveState) := by
  obtain ⟨driveState, hd, h⟩ := except_bind_eq_ok.mp h
  obtain ⟨hname, -⟩ := setDriveStatus_spec hd
  refine ⟨driveState, hd, ?_⟩
  unfold updateTapeDriveStatus at h
  rw [hname] at h
  split_ifs at h with hsame hthere
  · obtain ⟨r, hr, hboth⟩ := List.any_eq_true.mp hsame
    obtain ⟨hrname, hrstatus⟩ := of_decide_eq_true hboth
    rw [← Except.ok.inj h]
    refine List.map_congr_left fun row hrow => ?_
    by_cases hrow' : row.driveName = driveInfo.driveName
    · obtain rfl := List.inj_on_of_nodup_map hn hrow hr (hrow'.trans hrname.symm)
      simp [reported, hrow', hrstatus]
    · simp [hrow']
  · rw [← Except.ok.inj h]
    refine List.map_congr_left fun row hrow => ?_
    by_cases hrow' : row.driveName = driveInfo.driveName
    · have hne : row.driveStatus ≠ driveState.driveStatus := fun he =>
        hsame (List.any_eq_true.mpr ⟨row, hrow, decide_eq_true ⟨hrow', he⟩⟩)
      simp [reported, hrow', hne]
    · simp [hrow']

theorem updateRow_names (name : String) {change : TapeDrive → TapeDrive}
    (hc : ∀ row, (change row).driveName = row.driveName) :
    (updateRow rows name change).map (·.driveName) = rows.map (·.driveName) := by
  rw [updateRow, List.map_map]
  refine List.map_congr_left fun row _ => ?_
  by_cases hrow : row.driveName = name
  · simp [hrow, hc]
  · simp [hrow]

theorem reported_name (row driveState : TapeDrive) :
    (reported row driveState).driveName = row.driveName := by
  unfold reported TapeDrives.sameStatus changedStatus
  split_ifs <;> rfl

end

def Named (rows : List TapeDrive) : Prop := (rows.map (·.driveName)).Nodup

def AllConsistent (rows : List TapeDrive) : Prop := ∀ row ∈ rows, Consistent row

structure Sound (rows : List TapeDrive) : Prop where
  nodup : Named rows
  consistent : AllConsistent rows

section
variable {rows rows' : List TapeDrive} {fails : CatalogueCall → Option Failure}

theorem Sound.sublist (h : Sound rows) (hs : rows'.Sublist rows) : Sound rows' :=
  ⟨h.nodup.sublist (hs.map _), fun row hrow => h.consistent row (hs.subset hrow)⟩

theorem call_ok {α : Type} {c : CatalogueCall} {a : α}
    {f : List TapeDrive → Except Failure (α × List TapeDrive)} (hc : fails c = none)
    (hf : f rows = .ok (a, rows')) : call fails c f rows = .ok a rows' := by
  rw [call, exec_eq_ok, hc]
  exact hf

theorem call_error {α : Type} {c : CatalogueCall}
    {f : List TapeDrive → Except Failure (α × List TapeDrive)} (hc : fails c ≠ none) :
    ∃ e, call fails c f rows = .error e rows := by
  obtain ⟨e, he⟩ := Option.ne_none_iff_exists'.mp hc
  exact ⟨e, by simp [call, exec, he]⟩

theorem getTapeDriveNames_ok (h : fails .getTapeDriveNames = none) :
    getTapeDriveNames fails rows = .ok (rows.map (·.driveName)) rows := call_ok h rfl

theorem deleteTapeDrive_ok {name : String} (h : fails .deleteTapeDrive = none) :
    deleteTapeDrive fails name rows = .ok ⟨⟩ (rows.filter (·.driveName ≠ name)) := call_ok h rfl

theorem call_keeps {α : Type} {P : List TapeDrive → Prop} {c : CatalogueCall}
    {f : List TapeDrive → Except Failure (α × List TapeDrive)}
    (h : ∀ rows a rows', P rows → f rows = .ok (a, rows') → P rows') :
    Keeps P (call fails c f) := by
  refine Keeps.exec fun rows a rows' hrows hf => ?_
  split at hf
  · cases hf
  · exact h rows a rows' hrows hf

theorem filter_name_sublist (name : String) :
    (rows.filter (·.driveName ≠ name)).Sublist rows := List.filter_sublist

section
variable {driveInfo : DriveInfo} {desiredState : DesiredDriveState} {type : MountType}
  {status : DriveStatus} {tpConfigLine : TpconfigLine} {identity : SecurityIdentity}
  {reportTime : Int} {ctaVersion : String}

/-- The row of a new drive is consistent only for a drive that is down or up. -/
theorem consistent_created_iff :
    Consistent (settingSqlTapeDriveValues ((setTapeDriveStatus driveInfo desiredState type status
      tpConfigLine identity reportTime).ofVersion ctaVersion)) ↔
      type = .noMount ∧ (status = .down ∨ status = .up) := by
  constructor
  · intro h
    have hstatus : status = .down ∨ status = .up := h.downOrUp.mp rfl
    refine ⟨(h.noTape ?_).1, hstatus⟩
    change status ∈ [.down, .up, .probing]
    obtain rfl | rfl := hstatus <;> decide
  · rintro ⟨rfl, rfl | rfl⟩ <;> constructor <;>
      simp [settingSqlTapeDriveValues, TapeDrive.ofVersion, setTapeDriveStatus, setOptionalString]

theorem createTapeDriveStatus_listed (hnames : fails .getTapeDriveNames = none)
    (hlisted : driveInfo.driveName ∈ rows.map (·.driveName)) :
    createTapeDriveStatus fails driveInfo desiredState type status tpConfigLine identity reportTime
        ctaVersion rows =
      (do
        deleteTapeDrive fails driveInfo.driveName
        createTapeDrive fails ((setTapeDriveStatus driveInfo desiredState type status tpConfigLine
          identity reportTime).ofVersion ctaVersion) : Program PUnit) rows := by
  rw [createTapeDriveStatus, bind_ok (getTapeDriveNames_ok hnames)]
  exact congrFun (if_pos hlisted) rows

theorem createTapeDriveStatus_unlisted (hnames : fails .getTapeDriveNames = none)
    (hlisted : driveInfo.driveName ∉ rows.map (·.driveName)) :
    createTapeDriveStatus fails driveInfo desiredState type status tpConfigLine identity reportTime
        ctaVersion rows =
      createTapeDrive fails ((setTapeDriveStatus driveInfo desiredState type status tpConfigLine
        identity reportTime).ofVersion ctaVersion) rows := by
  rw [createTapeDriveStatus, bind_ok (getTapeDriveNames_ok hnames)]
  exact congrFun (if_neg hlisted) rows

theorem createTapeDriveStatus_of_creates (h : Creates fails driveInfo.driveName rows) :
    createTapeDriveStatus fails driveInfo desiredState type status tpConfigLine identity reportTime
        ctaVersion rows =
      .ok ⟨⟩ (rows.filter (·.driveName ≠ driveInfo.driveName) ++
        [settingSqlTapeDriveValues ((setTapeDriveStatus driveInfo desiredState type status
          tpConfigLine identity reportTime).ofVersion ctaVersion)]) := by
  obtain ⟨hnames, hdelete, hcreate⟩ := h
  have hnew : ∀ drive : TapeDrive, drive.driveName = driveInfo.driveName →
      createTapeDrive fails drive (rows.filter (·.driveName ≠ driveInfo.driveName)) =
        .ok ⟨⟩ (rows.filter (·.driveName ≠ driveInfo.driveName) ++
          [settingSqlTapeDriveValues drive]) := by
    intro drive hdrive
    refine call_ok hcreate (if_neg ?_)
    simp [hdrive]
  by_cases hlisted : driveInfo.driveName ∈ rows.map (·.driveName)
  · rw [createTapeDriveStatus_listed hnames hlisted, bind_ok (deleteTapeDrive_ok (hdelete hlisted))]
    exact hnew _ rfl
  · have hnone : rows.filter (·.driveName ≠ driveInfo.driveName) = rows := by
      refine List.filter_eq_self.mpr fun row hrow => decide_eq_true fun hname => hlisted ?_
      exact List.mem_map.mpr ⟨row, hrow, hname⟩
    rw [createTapeDriveStatus_unlisted hnames hlisted]
    rw [hnone] at hnew ⊢
    exact hnew _ rfl

/-- A creation that fails leaves the rows as they were, or takes away those of that drive. -/
theorem after_createTapeDriveStatus_sublist (h : ¬Creates fails driveInfo.driveName rows) :
    (after (createTapeDriveStatus fails driveInfo desiredState type status tpConfigLine identity
      reportTime ctaVersion) rows).Sublist rows := by
  by_cases hnames : fails .getTapeDriveNames = none
  · by_cases hlisted : driveInfo.driveName ∈ rows.map (·.driveName)
    · rw [after_congr (createTapeDriveStatus_listed hnames hlisted)]
      by_cases hdelete : fails .deleteTapeDrive = none
      · have hcreate : fails .createTapeDrive ≠ none := fun hc => h ⟨hnames, fun _ => hdelete, hc⟩
        obtain ⟨e, he⟩ := call_error hcreate
        rw [after_congr (bind_ok (deleteTapeDrive_ok hdelete) _), createTapeDrive, after_error he]
        exact filter_name_sublist _
      · obtain ⟨e, he⟩ := call_error hdelete
        rw [deleteTapeDrive, after_error (bind_error he _)]
    · have hcreate : fails .createTapeDrive ≠ none :=
        fun hc => h ⟨hnames, fun hl => absurd hl hlisted, hc⟩
      obtain ⟨e, he⟩ := call_error hcreate
      rw [after_congr (createTapeDriveStatus_unlisted hnames hlisted), createTapeDrive,
        after_error he]
  · obtain ⟨e, he⟩ := call_error hnames
    rw [createTapeDriveStatus, getTapeDriveNames, after_error (bind_error he _)]

theorem named_created (h : Named rows) {drive : TapeDrive} {name : String}
    (hname : drive.driveName = name) : Named (rows.filter (·.driveName ≠ name) ++ [drive]) := by
  rw [Named, List.map_append, List.nodup_append]
  refine ⟨h.sublist ((filter_name_sublist _).map _), by simp, ?_⟩
  intro a ha b hb
  obtain ⟨row, hrow, rfl⟩ := List.mem_map.mp ha
  obtain rfl : b = name := by simpa [hname] using hb
  simpa using (List.mem_filter.mp hrow).2

end

theorem removeDrive_keeps (name : String) : Keeps Sound (removeDrive fails name) := by
  refine Keeps.ignoring (call_keeps fun rows a rows' h hf => ?_)
  cases hf
  exact h.sublist (filter_name_sublist _)

theorem updateDriveStatus_keeps (driveInfo : DriveInfo) (inputs : ReportDriveStatusInputs) :
    Keeps Sound (call fails .updateTapeDriveStatus fun rows =>
      (updateDriveStatus rows driveInfo inputs).map (PUnit.unit, ·)) := by
  refine call_keeps fun rows a rows' h hf => ?_
  cases hr : updateDriveStatus rows driveInfo inputs with
  | error e => simp [hr, Except.map] at hf
  | ok updated =>
    rw [hr] at hf
    cases hf
    obtain ⟨driveState, hd, rfl⟩ := updateDriveStatus_ok h.nodup hr
    refine ⟨?_, forall_updateRow h.consistent fun row hrow => ?_⟩
    · rw [Named, updateRow_names _ (reported_name · driveState)]
      exact h.nodup
    · unfold reported
      split
      · next hs => exact (h.consistent row hrow).sameStatus hd hs
      · exact consistent_changedStatus hd

theorem updateDriveStatistics_keeps (driveInfo : DriveInfo) (bytes files : Nat)
    (reportTime : Int) :
    Keeps Sound (call fails .updateTapeDriveStatistics fun rows =>
      .ok (PUnit.unit, updateTapeDriveStatistics rows driveInfo bytes files reportTime)) := by
  refine call_keeps fun rows a rows' h hf => ?_
  cases hf
  refine ⟨?_, ?_⟩
  · have hnames : (updateTapeDriveStatistics rows driveInfo bytes files reportTime).map
        (·.driveName) = rows.map (·.driveName) := by
      rw [updateTapeDriveStatistics, List.map_map]
      refine List.map_congr_left fun row _ => ?_
      rw [Function.comp_apply]
      split <;> rfl
    rw [Named, hnames]
    exact h.nodup
  · intro row hrow
    obtain ⟨r, hr, rfl⟩ := List.mem_map.mp hrow
    split
    · next hboth => exact (h.consistent r hr).sameState rfl (iff_of_true rfl hboth.2)
    · exact h.consistent r hr

theorem updateExisting_keeps {c : CatalogueCall} {name : String}
    {change : TapeDrive → TapeDrive} (hname : ∀ row, (change row).driveName = row.driveName)
    (hkeep : ∀ row, Consistent row → Consistent (change row)) :
    Keeps Sound (updateExisting fails c name change) := by
  refine call_keeps fun rows a rows' h hf => ?_
  split at hf
  · cases hf
    refine ⟨?_, forall_updateRow h.consistent fun row hrow => hkeep row (h.consistent row hrow)⟩
    rw [Named, updateRow_names _ hname]
    exact h.nodup
  · cases hf

theorem setDesiredDriveState_keeps (name : String) (desiredState : DesiredDriveState) :
    Keeps Sound (setDesiredDriveState fails name desiredState) := by
  unfold setDesiredDriveState
  split
  · exact updateExisting_keeps (fun _ => rfl) fun row h => h.sameState rfl h.transferred
  · exact updateExisting_keeps (fun _ => rfl) fun row h => h.sameState rfl h.transferred

theorem Sound.next (h : Sound rows) {request : Request} (hp : Proper rows request) :
    Sound (TapeDrives.next rows request) := by
  obtain ⟨c, fails⟩ := request
  cases c with
  | createTapeDriveStatus driveInfo desiredState type status tpConfigLine identity reportTime
      ctaVersion =>
    by_cases hc : Creates fails driveInfo.driveName rows
    · rw [TapeDrives.next, Request.run, after_ok (createTapeDriveStatus_of_creates hc)]
      refine ⟨named_created h.nodup rfl, fun row hrow => ?_⟩
      rcases List.mem_append.mp hrow with hold | hnew
      · exact h.consistent row (List.mem_filter.mp hold).1
      · rw [List.mem_singleton.mp hnew]
        exact consistent_created_iff.mpr (hp hc)
    · exact h.sublist (after_createTapeDriveStatus_sublist hc)
  | removeDrive name => exact (removeDrive_keeps name).after h
  | updateDriveStatus driveInfo inputs => exact (updateDriveStatus_keeps driveInfo inputs).after h
  | updateDriveStatistics driveInfo bytes files reportTime =>
    exact (updateDriveStatistics_keeps driveInfo bytes files reportTime).after h
  | setDesiredDriveState name desiredState =>
    exact (setDesiredDriveState_keeps name desiredState).after h

theorem proper_of_consistent {request : Request}
    (h : AllConsistent (TapeDrives.next rows request)) : Proper rows request := by
  obtain ⟨c, fails⟩ := request
  cases c with
  | createTapeDriveStatus driveInfo desiredState type status tpConfigLine identity reportTime
      ctaVersion =>
    intro hc
    rw [TapeDrives.next, Request.run, after_ok (createTapeDriveStatus_of_creates hc)] at h
    exact consistent_created_iff.mp (h _ (List.mem_append_right _ (List.mem_singleton_self _)))
  | _ => trivial

end

/-- Whatever drives report and operators ask for, and whatever the database fails, every row stays
consistent if and only if drives are only created as down or up and with no mount. -/
theorem rows_consistent_iff (requests : List Request) :
    AllStates next AllConsistent [] requests ↔ AllSteps next Proper [] requests :=
  allStates_iff_allSteps (I := Named)
    (fun _ _ hn hc => ⟨proper_of_consistent, fun hp => (Sound.next ⟨hn, hc⟩ hp).consistent⟩)
    (fun _ _ hn hc hp => (Sound.next ⟨hn, hc⟩ hp).nodup) List.nodup_nil (by simp [AllConsistent])

end Cta.Catalogue.TapeDrives
