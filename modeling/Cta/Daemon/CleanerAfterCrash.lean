import Cta.Daemon.DriveLifeCycle

/-! Which session a drive handler starts after a crash. -/
namespace Cta.Daemon
open Cta.Lib.Runs
variable {h g : DriveHandler} {now : Nat} {epoll : Bool}

structure CentralStorage where
  reachable : Bool
  setsDriveDown : Bool
  answersPing : Bool
  startup : Bool
  deriving DecidableEq, Repr

/-- What the process of a session does; `fatal` reports a fatal error and exits. -/
inductive SessionKind
  | fatal | putDriveDown
  | cleaner (vid : String)
  | dataTransfer
  deriving DecidableEq, Repr

def statesRequiringCleaner : List SessionState := [.Mounting, .Running, .Unmounting]

def DriveHandler.runChild (h : DriveHandler) (storage : CentralStorage) : SessionKind :=
  if !storage.reachable then .fatal
  else if h.previousSession = .Crashed ∧ h.previousType = .Cleanup then
    if storage.setsDriveDown then .putDriveDown else .fatal
  else if h.previousSession = .Crashed ∧ h.previousState ∈ statesRequiringCleaner then
    if h.previousVid = "" then
      if storage.setsDriveDown then .putDriveDown else .fatal
    else if storage.answersPing then .cleaner h.previousVid
    else .fatal
  else if h.previousSession = .Initiating ∧ !storage.startup then .fatal
  else .dataTransfer

def reportedStates : List SessionState :=
  [.Checking, .Scheduling, .Mounting, .Running, .Unmounting, .DrainingToDisk, .ShuttingDown, .Fatal]

structure Report where
  state : SessionState
  type : SessionType
  vid : String
  deriving DecidableEq, Repr

def WatchdogMessage.report? (m : WatchdogMessage) : Option Report :=
  if m.reportingState then
    ((SessionState.ofNat? m.sessionState).filter (· ∈ reportedStates)).map fun state =>
      ⟨state, .ofNat m.sessionType, m.vid⟩
  else none

def lastReport (messages : List WatchdogMessage) : Option Report :=
  (messages.filterMap (·.report?)).getLast?

def fatalReport : WatchdogMessage :=
  { reportingState := true, sessionState := 11, sessionType := 0, vid := ""
    reportingBytes := false, totalDiskBytesMoved := 0, totalTapeBytesMoved := 0 }

/-- A running session, with its messages that the handler has read and has not read yet. -/
structure Child where
  kind : SessionKind
  read : List WatchdogMessage
  unread : List WatchdogMessage
  deriving DecidableEq, Repr

structure Ended where
  kind : SessionKind
  last : Option Report
  crashed : Bool
  deriving DecidableEq, Repr

namespace Ended

def isCleaner (e : Ended) : Bool :=
  match e.kind with
  | .cleaner _ => true
  | _ => e.last.any (·.type = .Cleanup)

/-- The tape that the last report was about, if the drive may have been loaded. -/
def tape? (e : Ended) : Option String :=
  (e.last.filter (·.state ∈ statesRequiringCleaner)).map (·.vid)

def mayLeaveTape (e : Ended) : Bool := e.crashed && (e.isCleaner || e.tape?.isSome)

end Ended

/-- `tapeLeft`: a session that crashed may have left a tape in the drive, and since then neither a
cleaner session has ended nor the drive was put down. -/
structure DriveHistory where
  handler : DriveHandler
  child : Option Child
  last : Option Ended
  tapeLeft : Bool
  deriving DecidableEq, Repr

inductive SessionStep
  | start (now pid : Nat) (storage : CentralStorage)
  | report (message : WatchdogMessage)
  | read (now : Nat)
  | disconnected (now : Nat)
  | timeout (now : Nat)
  | ended (now : Nat) (crashed : Bool)
  deriving DecidableEq, Repr

namespace DriveHistory

def initial (now : Nat) : DriveHistory := ⟨.initial now, none, none, false⟩

/-- A cleaner session or a session that puts the drive down takes care of the tape by ending. -/
def tapeLeftAfter (s : DriveHistory) (e : Ended) : Bool :=
  if e.crashed then s.tapeLeft || e.mayLeaveTape
  else match e.kind with
    | .cleaner _ => false
    | .putDriveDown => false
    | _ => s.tapeLeft

def next (s : DriveHistory) : SessionStep → DriveHistory
  | .start now pid storage =>
    let h := s.handler.fork now (.forked pid)
    { s with handler := h, child := some ⟨h.runChild storage, [], []⟩ }
  | .report message =>
    { s with child := s.child.map fun c => { c with unread := c.unread ++ [message] } }
  | .read now =>
    match s.child with
    | some ⟨kind, read, message :: unread⟩ =>
      match s.handler.processEvent now true (.message message) with
      | some h => { s with handler := h, child := some ⟨kind, read ++ [message], unread⟩ }
      | none => s
    | _ => s
  | .disconnected now =>
    match s.handler.processEvent now true .disconnected with
    | some h => { s with handler := h }
    | none => s
  | .timeout now => { s with handler := s.handler.processTimeout now }
  | .ended now crashed =>
    match s.child with
    | some c =>
      let e : Ended := ⟨c.kind, lastReport (c.read ++ c.unread), crashed⟩
      match s.handler.processSigChild now true (if crashed then .signaled else .exited) with
      | some h => ⟨h, none, some e, s.tapeLeftAfter e⟩
      | none => s
    | none => s

/-- A data transfer session reports anything; a cleaner session is not given the means to. -/
def CanReport (kind : SessionKind) (message : WatchdogMessage) : Prop :=
  match kind with
  | .dataTransfer => True
  | .fatal => message = fatalReport
  | _ => False

instance (kind : SessionKind) (message : WatchdogMessage) : Decidable (CanReport kind message) := by
  cases kind <;> unfold CanReport <;> infer_instance

def Possible (s : DriveHistory) : SessionStep → Prop
  | .start _ _ _ => s.child = none
  | .report message => s.child.any fun c => CanReport c.kind message
  | .read _ => s.child.any fun c => c.unread ≠ []
  | .disconnected _ => s.handler.socketPair = .registered ∧ s.child.any fun c => c.unread = []
  | .timeout _ => s.child.isSome
  | .ended _ _ => s.child.isSome

instance (s : DriveHistory) (step : SessionStep) : Decidable (s.Possible step) := by
  cases step <;> unfold Possible <;> infer_instance

def Follows (e : Ended) (kind : SessionKind) : Prop :=
  if e.isCleaner then kind = .putDriveDown
  else ∀ vid ∈ e.tape?, kind = if vid = "" then .putDriveDown else .cleaner vid

instance (e : Ended) (kind : SessionKind) : Decidable (Follows e kind) := by
  unfold Follows
  infer_instance

def Right (s : DriveHistory) : SessionStep → Prop
  | .start now pid storage =>
    let kind := (s.handler.fork now (.forked pid)).runChild storage
    (∀ e ∈ s.last, e.crashed = true → Follows e kind) ∧ (s.tapeLeft = true → kind ≠ .dataTransfer)
  | _ => True

instance (s : DriveHistory) (step : SessionStep) : Decidable (s.Right step) := by
  cases step <;> unfold Right <;> infer_instance

/-- The central storage answers what the session that has to follow needs. -/
def Answers (storage : CentralStorage) (e : Ended) : Prop :=
  storage.reachable = true ∧
    if e.isCleaner ∨ e.tape? = some "" then storage.setsDriveDown = true
    else storage.answersPing = true

instance (storage : CentralStorage) (e : Ended) : Decidable (Answers storage e) := by
  unfold Answers
  infer_instance

/-- With a tape left in the drive the central storage answers and the session does not crash; what
a session that crashes reported last was read. -/
def Undisturbed (s : DriveHistory) : SessionStep → Prop
  | .start _ _ storage => s.tapeLeft = true → ∀ e ∈ s.last, Answers storage e
  | .ended _ true => s.tapeLeft = false ∧
    ∀ c ∈ s.child, lastReport (c.read ++ c.unread) = lastReport c.read
  | _ => True

instance (s : DriveHistory) (step : SessionStep) : Decidable (s.Undisturbed step) := by
  unfold Undisturbed
  split <;> infer_instance

end DriveHistory

def Shows (last : Option Report) (state : SessionState) (type : SessionType) (vid : String) :
    Prop :=
  match last with
  | none => state = .StartingUp ∧ type = .Undetermined
  | some r => state = r.state ∧ type = r.type ∧ (state ∈ statesRequiringCleaner → vid = r.vid)

theorem lastReport_concat {ms : List WatchdogMessage} {m : WatchdogMessage} :
    lastReport (ms ++ [m]) = m.report?.or (lastReport ms) := by
  unfold lastReport
  rw [List.filterMap_append, List.getLast?_append]
  cases hm : m.report? with
  | none => simp [hm]
  | some r => simp [hm]

namespace DriveHandler

def ShowsNow (h : DriveHandler) (last : Option Report) : Prop :=
  Shows last h.sessionState h.sessionType h.sessionVid

theorem processBytes_shows {m : WatchdogMessage} {last : Option Report} (hs : h.ShowsNow last) :
    (h.processBytes now m).ShowsNow last := by
  unfold processBytes
  simp only
  split <;> exact hs

theorem updateState_shows {m : WatchdogMessage} {r : Report} (hr : m.report? = some r)
    (hg : h.processState now m = some g) : (g.updateState now m).ShowsNow (some r) := by
  unfold WatchdogMessage.report? at hr
  split at hr
  · obtain ⟨state, hstate, rfl⟩ := Option.map_eq_some_iff.mp hr
    obtain ⟨hstate, -⟩ := Option.filter_eq_some_iff.mp hstate
    unfold processState at hg
    rw [hstate] at hg
    refine ⟨by simp [updateState, hstate], rfl, ?_⟩
    simp only [updateState, hstate, Option.getD_some]
    cases state <;> cases hg <;>
      first | exact fun _ => rfl | exact fun hmem => absurd hmem (by decide)
  · cases hr

theorem processState_none {m : WatchdogMessage} (hreporting : m.reportingState = true) :
    h.processState now m = none ↔ m.report? = none := by
  unfold processState WatchdogMessage.report?
  rw [hreporting]
  cases SessionState.ofNat? m.sessionState with
  | none => simp
  | some state => cases state <;> simp [Option.filter, reportedStates]

theorem processMessage_shows {m : WatchdogMessage} {last : Option Report}
    (hs : h.ShowsNow last) : (h.processMessage now m).ShowsNow (m.report?.or last) := by
  have hbytes : (if m.reportingBytes then h.processBytes now m else h).ShowsNow last := by
    split
    · exact processBytes_shows hs
    · exact hs
  unfold processMessage
  simp only
  cases hreporting : m.reportingState with
  | false =>
    have hnone : m.report? = none := by simp [WatchdogMessage.report?, hreporting]
    rw [hnone]
    exact hbytes
  | true =>
    rw [if_pos rfl]
    cases hstate : (if m.reportingBytes then h.processBytes now m else h).processState now m with
    | none =>
      rw [(processState_none hreporting).mp hstate]
      exact hbytes
    | some g =>
      cases hr : m.report? with
      | none =>
        rw [(processState_none hreporting).mpr hr] at hstate
        cases hstate
      | some r => exact updateState_shows hr hstate

theorem fork_forked (now pid : Nat) (hstate : h.sessionState = .PendingFork) :
    h.fork now (.forked pid) =
      { h with
        socketPair := .registered
        pid := some pid
        sessionState := .StartingUp
        lastStateChangeTime := now
        processingStatus.forkRequested := false
        processingStatus.forkState := .parent }.withNextTimeout := by
  unfold fork
  rw [if_neg (not_not.mpr hstate)]

theorem runChild_cleaner {storage : CentralStorage} {vid : String}
    (hkind : h.runChild storage = .cleaner vid) :
    h.previousSession = .Crashed ∧ h.previousState ∈ statesRequiringCleaner := by
  unfold runChild at hkind
  split_ifs at hkind with hreachable hclean hdown hrequired
  exact hrequired

theorem runChild_after_crash {storage : CentralStorage} {e : Ended}
    (hprevious : h.previousSession = .Crashed)
    (hshows : Shows e.last h.previousState h.previousType h.previousVid)
    (hkind : ∀ vid, e.kind ≠ .cleaner vid) (hleft : e.mayLeaveTape = true)
    (hanswers : DriveHistory.Answers storage e) :
    DriveHistory.Follows e (h.runChild storage) ∧ h.runChild storage ≠ .dataTransfer := by
  have hcleaner : e.isCleaner = e.last.any (·.type = .Cleanup) := by
    unfold Ended.isCleaner
    cases hk : e.kind with
    | cleaner vid => exact absurd hk (hkind vid)
    | fatal | putDriveDown | dataTransfer => rfl
  obtain ⟨hreachable, hneeded⟩ := hanswers
  obtain ⟨-, hleft⟩ := Bool.and_eq_true_iff.mp hleft
  unfold DriveHistory.Follows runChild
  cases hlast : e.last with
  | none => simp [hcleaner, Ended.tape?, hlast] at hleft
  | some r =>
    rw [hlast] at hshows
    obtain ⟨hstate, htype, hvid⟩ := hshows
    by_cases hclean : r.type = .Cleanup
    · have hdown : storage.setsDriveDown = true := by simpa [hcleaner, hlast, hclean] using hneeded
      simp [hcleaner, hlast, hclean, hreachable, hprevious, htype, hdown]
    · have hrequired : r.state ∈ statesRequiringCleaner := by
        simpa [hcleaner, Ended.tape?, hlast, hclean, Option.filter] using hleft
      have htape : e.tape? = some r.vid := by simp [Ended.tape?, hlast, Option.filter, hrequired]
      have hvid : h.previousVid = r.vid := hvid (hstate ▸ hrequired)
      have hno : e.isCleaner = false := by simp [hcleaner, hlast, hclean]
      simp only [hno, htape, Option.some.injEq, Bool.false_eq_true, false_or] at hneeded
      by_cases hempty : r.vid = ""
      · have hdown : storage.setsDriveDown = true := by simpa [hempty] using hneeded
        simp [hno, htape, hreachable, hprevious, htype, hclean, hstate, hrequired, hvid, hempty,
          hdown]
      · have hping : storage.answersPing = true := by simpa [hempty] using hneeded
        simp [hno, htape, hreachable, hprevious, htype, hclean, hstate, hrequired, hvid, hempty,
          hping]

end DriveHandler

namespace DriveHistory
variable {s : DriveHistory}

def Remembers (last : Option Ended) (h : DriveHandler) : Prop :=
  match last with
  | none => h.previousSession = .Initiating
  | some e =>
    if e.crashed then h.previousSession = .Crashed ∧ (∀ vid, e.kind ≠ .cleaner vid) ∧
      Shows e.last h.previousState h.previousType h.previousVid
    else h.previousSession = .Up

structure Idle (s : DriveHistory) : Prop where
  pending : s.handler.sessionState = .PendingFork
  undetermined : s.handler.sessionType = .Undetermined
  remembers : Remembers s.last s.handler
  tapeLeft : s.tapeLeft = s.last.any (·.mayLeaveTape)

structure Busy (s : DriveHistory) (c : Child) : Prop where
  process : s.handler.pid ≠ none
  socket : s.handler.socketPair ≠ .unregistered
  up : s.handler.sessionState ≠ .Shutdown
  shows : s.handler.ShowsNow (lastReport c.read)
  cares : s.tapeLeft = true → c.kind = .putDriveDown ∨ ∃ vid, c.kind = .cleaner vid
  cleans : ∀ vid, c.kind = .cleaner vid → s.tapeLeft = true

def Tracked (s : DriveHistory) : Prop :=
  match s.child with
  | none => s.Idle
  | some c => s.Busy c

theorem tracked_initial : (initial now).Tracked := ⟨rfl, rfl, rfl, rfl⟩

theorem follows_of_not_mayLeaveTape {e : Ended} {kind : SessionKind} (hcrashed : e.crashed = true)
    (hmay : e.mayLeaveTape = false) : Follows e kind := by
  simp only [Ended.mayLeaveTape, hcrashed, Bool.true_and, Bool.or_eq_false_iff,
    Option.isSome_eq_false_iff, Option.isNone_iff_eq_none] at hmay
  simp [Follows, hmay.1, hmay.2]

theorem Follows.takesCare {e : Ended} {kind : SessionKind} (hfollows : Follows e kind)
    (hmay : e.mayLeaveTape = true) : kind = .putDriveDown ∨ ∃ vid, kind = .cleaner vid := by
  unfold Follows at hfollows
  split at hfollows
  · exact .inl hfollows
  · rename_i hno
    simp only [Ended.mayLeaveTape, hno, Bool.false_or, Bool.and_eq_true] at hmay
    obtain ⟨vid, hvid⟩ := Option.isSome_iff_exists.mp hmay.2
    have hkind := hfollows vid hvid
    split at hkind
    · exact .inl hkind
    · exact .inr ⟨vid, hkind⟩

theorem Idle.tape_of_cleaner (hs : s.Idle) (hprevious : s.handler.previousSession = .Crashed)
    (hstate : s.handler.previousState ∈ statesRequiringCleaner) : s.tapeLeft = true := by
  have hremembers := hs.remembers
  rw [hs.tapeLeft]
  cases hlast : s.last with
  | none =>
    rw [hlast] at hremembers
    cases (hremembers : s.handler.previousSession = .Initiating).symm.trans hprevious
  | some e =>
    rw [hlast, Remembers] at hremembers
    split at hremembers
    · rename_i hcrashed
      obtain ⟨-, -, hshows⟩ := hremembers
      cases hr : e.last with
      | none =>
        rw [hr] at hshows
        rw [hshows.1] at hstate
        exact absurd hstate (by decide)
      | some r =>
        rw [hr] at hshows
        rw [hshows.1] at hstate
        simp [Ended.mayLeaveTape, hcrashed, Ended.tape?, hr, Option.filter, hstate]
    · cases hremembers.symm.trans hprevious

theorem Idle.start (hs : s.Idle) {pid : Nat} {storage : CentralStorage}
    (hanswers : s.tapeLeft = true → ∀ e ∈ s.last, Answers storage e) :
    s.Right (.start now pid storage) ∧ (s.next (.start now pid storage)).Tracked := by
  have hfork := DriveHandler.fork_forked now pid hs.pending
  have hkind : (s.handler.fork now (.forked pid)).runChild storage =
    s.handler.runChild storage := by
    rw [hfork]
    rfl
  have hremembers := hs.remembers
  have hleft := hs.tapeLeft
  -- the session started with a tape left in the drive
  have hdecision : ∀ e, s.last = some e → e.mayLeaveTape = true →
      Follows e (s.handler.runChild storage) ∧ s.handler.runChild storage ≠ .dataTransfer := by
    intro e hlast hmay
    have hcrashed : e.crashed = true := (Bool.and_eq_true_iff.mp hmay).1
    rw [hlast, Remembers, if_pos hcrashed] at hremembers
    obtain ⟨hprevious, hno, hshows⟩ := hremembers
    rw [hlast, Option.any_some, hmay] at hleft
    exact DriveHandler.runChild_after_crash hprevious hshows hno hmay (hanswers hleft e hlast)
  have hlast : s.tapeLeft = true → ∃ e, s.last = some e ∧ e.mayLeaveTape = true := by
    intro htrue
    rw [hleft] at htrue
    cases hl : s.last with
    | none => simp [hl] at htrue
    | some e => exact ⟨e, rfl, by simpa [hl] using htrue⟩
  refine ⟨⟨fun e he hcrashed => ?_, fun htrue => ?_⟩, ?_⟩
  · rw [hkind]
    cases hmay : e.mayLeaveTape with
    | true => exact (hdecision e he hmay).1
    | false => exact follows_of_not_mayLeaveTape hcrashed hmay
  · obtain ⟨e, he, hmay⟩ := hlast htrue
    rw [hkind]
    exact (hdecision e he hmay).2
  · have hbusy : Busy (s.next (.start now pid storage)) ⟨s.handler.runChild storage, [], []⟩ := by
      refine ⟨?_, ?_, ?_, ?_, fun htrue => ?_, fun vid hvid => ?_⟩
      · simp [next, hfork, DriveHandler.withNextTimeout]
      · simp [next, hfork, DriveHandler.withNextTimeout]
      · simp [next, hfork, DriveHandler.withNextTimeout]
      · simp [next, hfork, DriveHandler.withNextTimeout, DriveHandler.ShowsNow, Shows, lastReport,
          hs.undetermined]
      · obtain ⟨e, he, hmay⟩ := hlast htrue
        exact (hdecision e he hmay).1.takesCare hmay
      · obtain ⟨hprevious, hstate⟩ := DriveHandler.runChild_cleaner hvid
        exact hs.tape_of_cleaner hprevious hstate
    rw [← hkind] at hbusy
    exact hbusy

theorem Busy.update {c d : Child} (hs : s.Busy c) (hkind : d.kind = c.kind)
    (hprocess : g.pid ≠ none) (hsocket : g.socketPair ≠ .unregistered)
    (hup : g.sessionState ≠ .Shutdown) (hshows : g.ShowsNow (lastReport d.read)) :
    Busy { s with handler := g, child := some d } d :=
  ⟨hprocess, hsocket, hup, hshows, fun htrue => hkind ▸ hs.cares htrue,
    fun vid hvid => hs.cleans vid (hkind ▸ hvid)⟩

theorem Busy.read {c : Child} (hs : s.Busy c) (hchild : s.child = some c) :
    (s.next (.read now)).Tracked := by
  obtain ⟨kind, read, unread⟩ := c
  unfold next
  rw [hchild]
  cases unread with
  | nil =>
    simp only [Tracked, hchild]
    exact hs
  | cons m unread =>
    have hsame := DriveHandler.sameProcess_processMessage now m
      (h := { s.handler with lastHeartBeatTime := now })
    refine hs.update (d := ⟨kind, read ++ [m], unread⟩) rfl
      (fun hnone => hs.process (hsame.pid.symm.trans hnone))
      (fun heq => hs.socket (hsame.socketPair.symm.trans heq)) (fun heq => ?_) ?_
    · exact hs.up (DriveHandler.processMessage_sessionState
        (h := { s.handler with lastHeartBeatTime := now }) heq)
    · rw [lastReport_concat]
      exact DriveHandler.processMessage_shows
        (h := { s.handler with lastHeartBeatTime := now }) hs.shows

theorem removeFile_polled (hsocket : h.socketPair ≠ .unregistered) :
    h.removeFile true = some { h with socketPair := .closed } := by
  cases hs : h.socketPair with
  | unregistered => exact absurd hs hsocket
  | closed =>
    unfold DriveHandler.removeFile
    rw [hs]
    exact congrArg some (by rw [← hs])
  | registered =>
    unfold DriveHandler.removeFile
    rw [hs]
    rfl

theorem Busy.disconnected {c : Child} (hs : s.Busy c) (hchild : s.child = some c) :
    (s.next (.disconnected now)).Tracked := by
  have hremoved := removeFile_polled (h := { s.handler with lastHeartBeatTime := now }) hs.socket
  unfold next DriveHandler.processEvent
  simp only [hremoved, Tracked, hchild]
  exact ⟨hs.process, nofun, hs.up, hs.shows, hs.cares, hs.cleans⟩

theorem Busy.timeout {c : Child} (hs : s.Busy c) (hchild : s.child = some c) :
    (s.next (.timeout now)).Tracked := by
  obtain ⟨pid, hpid⟩ := Option.ne_none_iff_exists'.mp hs.process
  unfold next
  simp only [DriveHandler.processTimeout_some hpid, Tracked, hchild]
  exact ⟨hs.process, hs.socket, hs.up, hs.shows, hs.cares, hs.cleans⟩

theorem processSigChild_exited (now : Nat) (hpid : h.pid ≠ none)
    (hsocket : h.socketPair ≠ .unregistered)
    (hup : h.sessionState ≠ .Shutdown) : h.processSigChild now true .exited =
      some { { h with socketPair := .closed }.resetToDefault now .Up with
        processingStatus.forkRequested := true } := by
  obtain ⟨pid, hsome⟩ := Option.ne_none_iff_exists'.mp hpid
  unfold DriveHandler.processSigChild
  rw [hsome]
  simp only [removeFile_polled hsocket, Option.map_some]
  rw [if_pos hup]
  rfl

theorem processSigChild_signaled (now : Nat) (hpid : h.pid ≠ none)
    (hsocket : h.socketPair ≠ .unregistered) :
    h.processSigChild now true .signaled =
      some { { h with socketPair := .closed }.resetToDefault now .Crashed with
        processingStatus.forkRequested := true } := by
  obtain ⟨pid, hsome⟩ := Option.ne_none_iff_exists'.mp hpid
  unfold DriveHandler.processSigChild
  rw [hsome]
  simp only [removeFile_polled hsocket, Option.map_some]
  rfl

theorem Busy.exited {c : Child} (hs : s.Busy c) (hchild : s.child = some c) :
    (s.next (.ended now false)).Tracked := by
  have hend := processSigChild_exited now hs.process hs.socket hs.up
  have hleft : s.tapeLeftAfter ⟨c.kind, lastReport (c.read ++ c.unread), false⟩ = false := by
    unfold tapeLeftAfter
    cases hkind : c.kind with
    | cleaner vid | putDriveDown => rfl
    | fatal | dataTransfer =>
      refine Bool.eq_false_iff.mpr fun htrue => ?_
      cases hs.cares htrue with
      | inl hdown => cases hkind.symm.trans hdown
      | inr hcleaner =>
        obtain ⟨vid, hvid⟩ := hcleaner
        cases hkind.symm.trans hvid
  unfold next
  simp only [hchild, Bool.false_eq_true, if_false, hend, hleft, Tracked]
  exact ⟨rfl, rfl, rfl, rfl⟩

theorem Busy.crashed {c : Child} (hs : s.Busy c) (hchild : s.child = some c)
    (hleft : s.tapeLeft = false) (hread : lastReport (c.read ++ c.unread) = lastReport c.read) :
    (s.next (.ended now true)).Tracked := by
  have hend := processSigChild_signaled now hs.process hs.socket
  have hno : ∀ vid, c.kind ≠ .cleaner vid := fun vid hvid => by
    cases hleft.symm.trans (hs.cleans vid hvid)
  unfold next
  simp only [hchild, if_true, hend, hread, Tracked]
  refine ⟨rfl, rfl, ⟨rfl, hno, hs.shows⟩, ?_⟩
  simp [tapeLeftAfter, hleft]

theorem Tracked.next {step : SessionStep} (hs : s.Tracked) (hpossible : s.Possible step)
    (hundisturbed : s.Undisturbed step) : s.Right step ∧ (s.next step).Tracked := by
  cases step with
  | start now pid storage =>
    have hidle : s.Idle := by
      rw [Tracked, (hpossible : s.child = none)] at hs
      exact hs
    exact hidle.start hundisturbed
  | report m =>
    refine ⟨trivial, ?_⟩
    cases hchild : s.child with
    | none => simp [Possible, hchild] at hpossible
    | some c =>
      rw [Tracked, hchild] at hs
      simp only [DriveHistory.next, hchild, Option.map_some, Tracked]
      exact hs.update rfl hs.process hs.socket hs.up hs.shows
  | read now =>
    refine ⟨trivial, ?_⟩
    cases hchild : s.child with
    | none => simp [Possible, hchild] at hpossible
    | some c =>
      rw [Tracked, hchild] at hs
      exact hs.read hchild
  | disconnected now =>
    refine ⟨trivial, ?_⟩
    cases hchild : s.child with
    | none => simp [Possible, hchild] at hpossible
    | some c =>
      rw [Tracked, hchild] at hs
      exact hs.disconnected hchild
  | timeout now =>
    refine ⟨trivial, ?_⟩
    cases hchild : s.child with
    | none => simp [Possible, hchild] at hpossible
    | some c =>
      rw [Tracked, hchild] at hs
      exact hs.timeout hchild
  | ended now crashed =>
    refine ⟨trivial, ?_⟩
    cases hchild : s.child with
    | none => simp [Possible, hchild] at hpossible
    | some c =>
      rw [Tracked, hchild] at hs
      cases crashed with
      | false => exact hs.exited hchild
      | true => exact hs.crashed hchild hundisturbed.1 (hundisturbed.2 c hchild)

/-- As long as no session crashes that takes care of a tape, its central storage answers, and the
last report of a session that crashes was read, the right session follows every crash. -/
theorem right_of_undisturbed {steps : List SessionStep}
    (hpossible : AllSteps DriveHistory.next Possible (initial now) steps)
    (hundisturbed : AllSteps DriveHistory.next Undisturbed (initial now) steps) :
    AllSteps DriveHistory.next Right (initial now) steps :=
  (hpossible.and hundisturbed).of_invariant (I := Tracked)
    (fun _ _ hs h => hs.next h.1 h.2) tracked_initial

def storageUp : CentralStorage := ⟨true, true, true, true⟩

def stateReport (state type : Nat) (vid : String) : WatchdogMessage :=
  { fatalReport with sessionState := state, sessionType := type, vid := vid }

/-- An archive session crashes with its tape mounted, then the cleaner session crashes too. -/
def crashingCleaner : List SessionStep :=
  [.start 0 1 storageUp, .report (stateReport 3 0 ""), .read 1, .report (stateReport 4 1 "V1"),
    .read 2, .ended 3 true, .start 4 2 storageUp, .ended 5 true, .start 6 3 storageUp]

theorem data_transfer_after_crashed_cleaner :
    AllSteps DriveHistory.next Possible (initial 0) crashingCleaner ∧
      ¬AllSteps DriveHistory.next Right (initial 0) crashingCleaner := by
  decide +kernel

/-- The cleaner session ends, and a session follows whose VID is missing when it crashes. -/
theorem right_cleaner_ends : AllSteps DriveHistory.next Right (initial 0)
    [.start 0 1 storageUp, .report (stateReport 3 0 ""), .read 1, .report (stateReport 4 1 "V1"),
      .read 2, .timeout 9, .ended 3 true, .start 4 2 storageUp, .disconnected 5, .ended 5 false,
      .start 6 3 storageUp, .report (stateReport 5 2 ""), .read 7, .ended 8 true,
      .start 9 4 storageUp] :=
  right_of_undisturbed (by decide +kernel) (by decide +kernel)

end DriveHistory

end Cta.Daemon
