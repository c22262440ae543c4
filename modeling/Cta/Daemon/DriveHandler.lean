import Mathlib.Data.Option.Basic

/-! The handler of a drive in the process manager of the tape server. -/
namespace Cta.Daemon

inductive SessionState
  | PendingFork | StartingUp | Checking | Scheduling | Mounting | Running | Unmounting
  | DrainingToDisk | ShuttingDown | Shutdown | Killed | Fatal
  deriving DecidableEq, Repr

namespace SessionState

def all : List SessionState :=
  [PendingFork, StartingUp, Checking, Scheduling, Mounting, Running, Unmounting, DrainingToDisk,
    ShuttingDown, Shutdown, Killed, Fatal]

def ofNat? (n : Nat) : Option SessionState := all[n]?

end SessionState

inductive SessionType
  | Undetermined | Archive | Retrieve | Label | Cleanup
  | unknown (value : Nat)
  deriving DecidableEq, Repr

def SessionType.ofNat : Nat → SessionType
  | 0 => Undetermined
  | 1 => Archive
  | 2 => Retrieve
  | 3 => Label
  | 4 => Cleanup
  | n => unknown n

inductive PreviousSession
  | Initiating | Up | Down | Crashed
  deriving DecidableEq, Repr

inductive ForkState
  | parent | child | notForking
  deriving DecidableEq, Repr

/-- What a handler asks the process manager for; without a timeout it waits until the end of
times. -/
structure ProcessingStatus where
  shutdownRequested : Bool := false
  shutdownComplete : Bool := false
  killRequested : Bool := false
  forkRequested : Bool := false
  sigChild : Bool := false
  nextTimeout : Option Nat := none
  forkState : ForkState := .notForking
  deriving DecidableEq, Repr

structure WatchdogMessage where
  reportingState : Bool
  sessionState : Nat
  sessionType : Nat
  vid : String
  reportingBytes : Bool
  totalDiskBytesMoved : Nat
  totalTapeBytesMoved : Nat
  deriving DecidableEq, Repr

/-- The socket pair: none, one that the process manager does not poll, or one that it polls. -/
inductive SocketPair
  | closed | unregistered | registered
  deriving DecidableEq, Repr

/-- Without a process the identifier is -1 in the source. Times are in milliseconds. -/
structure DriveHandler where
  previousSession : PreviousSession := .Initiating
  previousState : SessionState := .StartingUp
  previousType : SessionType := .Undetermined
  previousVid : String := ""
  sessionState : SessionState := .PendingFork
  sessionType : SessionType := .Undetermined
  sessionVid : String := ""
  processingStatus : ProcessingStatus := {}
  lastStateChangeTime : Nat
  lastHeartBeatTime : Nat
  lastDataMovementTime : Nat
  totalTapeBytesMoved : Nat := 0
  totalDiskBytesMoved : Nat := 0
  pid : Option Nat := none
  socketPair : SocketPair := .closed
  deriving DecidableEq, Repr

inductive ForkOutcome
  | socketPairFails
  | forkFails
  | addFileFails (pid : Nat)
  | forked (pid : Nat)
  deriving DecidableEq, Repr

inductive KillOutcome
  | killFails | waitFails | killed
  deriving DecidableEq, Repr

/-- What `waitpid` says about a child without waiting for it. -/
inductive WaitOutcome
  | error | running | exited | signaled
  deriving DecidableEq, Repr

inductive Received
  | disconnected | failed
  | message (message : WatchdogMessage)
  deriving DecidableEq, Repr

def minutes (n : Nat) : Nat := n * 60000

def stateChangeTimeouts : SessionState → Option Nat
  | .Checking => some (minutes 2)
  | .Scheduling => some (minutes 5)
  | .Mounting => some (minutes 10)
  | .Unmounting => some (minutes 10)
  | .DrainingToDisk => some (minutes 30)
  | .ShuttingDown => some (minutes 15)
  | _ => none

def heartbeatTimeouts : SessionState → Option Nat
  | .Running => some (minutes 1)
  | .DrainingToDisk => some (minutes 1)
  | _ => none

def dataMovementTimeouts : SessionState → Option Nat
  | .Running => some (minutes 15)
  | .DrainingToDisk => some (minutes 15)
  | _ => none

def earlier : Option Nat → Option Nat → Option Nat
  | some s, some t => some (min s t)
  | some s, none => some s
  | none, t => t

namespace DriveHandler

def initial (now : Nat) : DriveHandler :=
  { lastStateChangeTime := now, lastHeartBeatTime := now, lastDataMovementTime := now
    processingStatus := { forkRequested := true } }

def nextTimeout (h : DriveHandler) : Option Nat :=
  earlier
    (earlier ((stateChangeTimeouts h.sessionState).map (h.lastStateChangeTime + ·))
      ((heartbeatTimeouts h.sessionState).map (h.lastHeartBeatTime + ·)))
    ((dataMovementTimeouts h.sessionState).map (h.lastDataMovementTime + ·))

def withNextTimeout (h : DriveHandler) : DriveHandler :=
  { h with processingStatus.nextTimeout := h.nextTimeout }

/-- A process that may have been created by the fork is not forgotten. -/
def forkFailed (h : DriveHandler) : DriveHandler :=
  { h with
    sessionState := .Shutdown
    processingStatus := { shutdownComplete := true, forkState := .parent } }

def fork (h : DriveHandler) (now : Nat) (outcome : ForkOutcome) : DriveHandler :=
  if h.sessionState ≠ .PendingFork then h.forkFailed
  else match outcome with
    | .socketPairFails => h.forkFailed
    | .forkFails => { h with socketPair := .unregistered, pid := none }.forkFailed
    | .addFileFails pid =>
      { h with
        socketPair := .unregistered
        pid := some pid
        lastStateChangeTime := now }.forkFailed
    | .forked pid =>
      { h with
        socketPair := .registered
        pid := some pid
        sessionState := .StartingUp
        lastStateChangeTime := now
        processingStatus.forkRequested := false
        processingStatus.forkState := .parent }.withNextTimeout

/-- The socket pair is cleaned up. `none`: an exception leaves the handler. -/
def removeFile (h : DriveHandler) (epoll : Bool) : Option DriveHandler :=
  match h.socketPair with
  | .closed => some h
  | .unregistered => none
  | .registered => if epoll then some { h with socketPair := .closed } else none

def kill (h : DriveHandler) (epoll : Bool) (outcome : KillOutcome) : Option DriveHandler :=
  match h.pid with
  | none => some h
  | some _ => (h.removeFile epoll).map fun h =>
    match outcome with
    | .killed => { h with pid := none }
    | _ => h

def processBytes (h : DriveHandler) (now : Nat) (message : WatchdogMessage) : DriveHandler :=
  let h := { h with lastHeartBeatTime := now }
  if h.totalTapeBytesMoved ≠ message.totalTapeBytesMoved ∨
      h.totalDiskBytesMoved ≠ message.totalDiskBytesMoved then
    { h with
      totalTapeBytesMoved := message.totalTapeBytesMoved
      totalDiskBytesMoved := message.totalDiskBytesMoved
      lastDataMovementTime := now }.withNextTimeout
  else h.withNextTimeout

def processScheduling (h : DriveHandler) : DriveHandler := { h with sessionVid := "" }

def processChecking (h : DriveHandler) : DriveHandler := { h with sessionVid := "" }

def processMounting (h : DriveHandler) (message : WatchdogMessage) : DriveHandler :=
  { h with sessionVid := message.vid }

def processRunning (h : DriveHandler) (now : Nat) (message : WatchdogMessage) : DriveHandler :=
  { h with
    lastDataMovementTime := if h.sessionState ≠ .Running then now else h.lastDataMovementTime
    sessionVid := message.vid }

def processUnmounting (h : DriveHandler) (message : WatchdogMessage) : DriveHandler :=
  { h with sessionVid := message.vid }

def processDrainingToDisk (h : DriveHandler) : DriveHandler := { h with sessionVid := "" }

def processShuttingDown (h : DriveHandler) : DriveHandler := { h with sessionVid := "" }

def processFatal (h : DriveHandler) : DriveHandler :=
  { h with sessionVid := "", processingStatus.shutdownRequested := true }

def processState (h : DriveHandler) (now : Nat) (message : WatchdogMessage) :
    Option DriveHandler :=
  match SessionState.ofNat? message.sessionState with
  | some .Checking => some h.processChecking
  | some .Scheduling => some h.processScheduling
  | some .Mounting => some (h.processMounting message)
  | some .Running => some (h.processRunning now message)
  | some .Unmounting => some (h.processUnmounting message)
  | some .DrainingToDisk => some h.processDrainingToDisk
  | some .ShuttingDown => some h.processShuttingDown
  | some .Fatal => some h.processFatal
  | _ => none

def updateState (h : DriveHandler) (now : Nat) (message : WatchdogMessage) : DriveHandler :=
  { h with
    sessionState := (SessionState.ofNat? message.sessionState).getD h.sessionState
    sessionType := .ofNat message.sessionType
    lastStateChangeTime := now }

def processMessage (h : DriveHandler) (now : Nat) (message : WatchdogMessage) : DriveHandler :=
  let h := if message.reportingBytes then h.processBytes now message else h
  if message.reportingState then
    match h.processState now message with
    | none => h
    | some g => (g.updateState now message).withNextTimeout
  else h.withNextTimeout

def processEvent (h : DriveHandler) (now : Nat) (epoll : Bool) (received : Received) :
    Option DriveHandler :=
  let h := { h with lastHeartBeatTime := now }
  match received with
  | .message message => some (h.processMessage now message)
  | .disconnected => h.removeFile epoll
  | .failed => some h

def resetToDefault (h : DriveHandler) (now : Nat) (previousSessionState : PreviousSession) :
    DriveHandler :=
  { h with
    pid := none
    previousSession := previousSessionState
    previousType := h.sessionType
    previousState := h.sessionState
    previousVid := h.sessionVid
    sessionState := .PendingFork
    sessionType := .Undetermined
    lastStateChangeTime := now
    lastHeartBeatTime := now
    lastDataMovementTime := now
    processingStatus := { forkState := h.processingStatus.forkState } }

def requestFork (h : DriveHandler) : DriveHandler :=
  { h with processingStatus.forkRequested := h.sessionState ≠ .Shutdown }

def processSigChild (h : DriveHandler) (now : Nat) (epoll : Bool) (outcome : WaitOutcome) :
    Option DriveHandler :=
  match h.pid with
  | none => some h
  | some _ =>
    match outcome with
    | .error => some h
    | .running => some h
    | .exited => (h.removeFile epoll).map fun h =>
      if h.sessionState ≠ .Shutdown then
        { h.resetToDefault now .Up with processingStatus.forkRequested := true }
      else { h with processingStatus.forkRequested := false, pid := none }
    | .signaled => (h.removeFile epoll).map fun h =>
      { (h.resetToDefault now .Crashed).requestFork with pid := none }

/-- Without a process the request for a fork is made before the reset. -/
def processTimeout (h : DriveHandler) (now : Nat) : DriveHandler :=
  match h.pid with
  | none =>
    { h with
      processingStatus.forkRequested := true
      processingStatus.nextTimeout := none
      sessionState := .Shutdown
      sessionType := .Undetermined
      sessionVid := "" }.resetToDefault now .Crashed
  | some _ => { h with processingStatus.nextTimeout := none }

def exitShutdown (h : DriveHandler) : DriveHandler :=
  { h with
    sessionState := .Shutdown
    processingStatus.nextTimeout := none
    processingStatus.forkRequested := false
    processingStatus.killRequested := false
    processingStatus.shutdownComplete := true
    processingStatus.sigChild := false }

/-- `databases`: the catalogue and the scheduler database can be opened. -/
def shutdown (h : DriveHandler) (epoll : Bool) (outcome : KillOutcome) (databases : Bool) :
    Option DriveHandler :=
  (h.kill epoll outcome).bind fun h => if databases then some h.exitShutdown else none

end DriveHandler

end Cta.Daemon
