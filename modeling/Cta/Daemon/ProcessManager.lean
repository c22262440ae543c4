import Cta.Daemon.DriveHandler

/-! The process manager, and the handlers of the maintenance process and of the signals. -/
namespace Cta.Daemon

inductive MaintenanceForkOutcome
  | socketPairFails | forkFails
  | forked (pid : Nat)
  deriving DecidableEq, Repr

structure MaintenanceHandler where
  processingStatus : ProcessingStatus := {}
  pid : Option Nat := none
  socketPair : Bool := false
  shutdownInProgress : Bool := false
  deriving DecidableEq, Repr

namespace MaintenanceHandler

def initial : MaintenanceHandler := { processingStatus := { forkRequested := true } }

def forkFailed (h : MaintenanceHandler) : MaintenanceHandler :=
  { h with processingStatus := { shutdownComplete := true, forkState := .parent } }

def fork (h : MaintenanceHandler) : MaintenanceForkOutcome → MaintenanceHandler
  | .socketPairFails => h.forkFailed
  | .forkFails => { h with socketPair := true, pid := none }.forkFailed
  | .forked pid =>
    { h with
      socketPair := true
      pid := some pid
      processingStatus.forkRequested := false
      processingStatus.forkState := .parent }

/-- The process is remembered, whatever the system calls answer. -/
def kill (h : MaintenanceHandler) : MaintenanceHandler :=
  match h.pid with
  | none => h
  | some _ => { h with socketPair := false }

def processSigChild (h : MaintenanceHandler) (outcome : WaitOutcome) : MaintenanceHandler :=
  match h.pid with
  | none => h
  | some _ =>
    match outcome with
    | .error | .running => h
    | .exited | .signaled =>
      if h.shutdownInProgress then
        { h with
          socketPair := false
          pid := none
          processingStatus.forkRequested := false
          processingStatus.shutdownComplete := true
          processingStatus.nextTimeout := none }
      else
        { h with
          socketPair := false
          pid := none
          processingStatus.forkRequested := true
          processingStatus.nextTimeout := none }

def processTimeout (h : MaintenanceHandler) : MaintenanceHandler :=
  if h.shutdownInProgress then
    let g := if h.pid ≠ none then h else h.kill
    { g with processingStatus.nextTimeout := none, processingStatus.shutdownComplete := true }
  else h

/-- `sends`: the message to the process can be sent. -/
def shutdown (h : MaintenanceHandler) (sends : Bool) : Option MaintenanceHandler :=
  if h.socketPair && !sends then none else some { h with shutdownInProgress := true }

end MaintenanceHandler

inductive Signal
  | SIGINT | SIGTERM | SIGCHLD | ignored
  deriving DecidableEq, Repr

structure SignalHandler where
  shutdownRequested : Bool := false
  shutdownAcknowledged : Bool := false
  sigChildPending : Bool := false
  shutdownStartTime : Nat := 0
  timeoutDuration : Nat := minutes 9
  deriving DecidableEq, Repr

namespace SignalHandler

def initialStatus : ProcessingStatus := { shutdownComplete := true }

def timeout (h : SignalHandler) : Option Nat :=
  if h.shutdownRequested then some (h.shutdownStartTime + h.timeoutDuration) else none

def received (h : SignalHandler) (now : Nat) : Signal → SignalHandler
  | .SIGINT | .SIGTERM =>
    if h.shutdownRequested then h
    else { h with shutdownRequested := true, shutdownStartTime := now }
  | .SIGCHLD => { h with sigChildPending := true }
  | .ignored => h

def processEvent (h : SignalHandler) (now : Nat) (signal : Signal) :
    SignalHandler × ProcessingStatus :=
  let h := h.received now signal
  (h, { shutdownRequested := h.shutdownRequested && !h.shutdownAcknowledged
        nextTimeout := h.timeout
        sigChild := h.sigChildPending
        shutdownComplete := true })

def processTimeout : ProcessingStatus := { killRequested := true, shutdownComplete := true }

def processSigChild (h : SignalHandler) : SignalHandler × ProcessingStatus :=
  ({ h with sigChildPending := false }, { shutdownComplete := true, nextTimeout := h.timeout })

def shutdown (h : SignalHandler) : SignalHandler × ProcessingStatus :=
  ({ h with shutdownAcknowledged := true },
    { shutdownComplete := true, nextTimeout := h.timeout, sigChild := h.sigChildPending })

end SignalHandler

inductive Handler
  | drive (handler : DriveHandler)
  | maintenance (handler : MaintenanceHandler)
  | signal (handler : SignalHandler)
  deriving DecidableEq, Repr

def Handler.pid : Handler → Option Nat
  | drive h => h.pid
  | maintenance h => h.pid
  | signal _ => none

structure Process where
  pid : Nat
  exited : Bool
  killSent : Bool
  deriving DecidableEq, Repr

/-- A handler with its last status, and the processes that it forked. -/
structure Subprocess where
  handler : Handler
  status : ProcessingStatus
  processes : List Process
  deriving DecidableEq, Repr

/-- What the system calls answer during one call on a handler. `ready`: `epoll_wait` reports its
file. -/
structure Answers where
  now : Nat := 0
  epoll : Bool := true
  wait : WaitOutcome := .running
  kill : KillOutcome := .killed
  fork : ForkOutcome := .forkFails
  maintenanceFork : MaintenanceForkOutcome := .forkFails
  databases : Bool := true
  sends : Bool := true
  received : Received := .failed
  signal : Signal := .ignored
  ready : Bool := false
  deriving DecidableEq, Repr

def collect (pid : Option Nat) (outcome : WaitOutcome) (ps : List Process) : List Process :=
  match outcome with
  | .error | .running => ps
  | .exited | .signaled =>
    ps.map fun p => if some p.pid = pid then { p with exited := true } else p

def sendKill (pid : Option Nat) (outcome : KillOutcome) (ps : List Process) : List Process :=
  match outcome with
  | .killFails => ps
  | .waitFails | .killed =>
    ps.map fun p => if some p.pid = pid then { p with killSent := true } else p

def killAndWait (pid : Option Nat) (outcome : KillOutcome) (ps : List Process) : List Process :=
  collect pid (if outcome = .killed then .signaled else .error) (sendKill pid outcome ps)

/-- The process that a fork creates, if it comes to that. -/
def DriveHandler.forks (h : DriveHandler) (outcome : ForkOutcome) : Option Nat :=
  if h.sessionState ≠ .PendingFork then none
  else match outcome with
    | .socketPairFails | .forkFails => none
    | .addFileFails pid | .forked pid => some pid

def MaintenanceForkOutcome.forks : MaintenanceForkOutcome → Option Nat
  | socketPairFails | forkFails => none
  | forked pid => some pid

def addProcess (pid : Option Nat) (ps : List Process) : List Process :=
  ps ++ (pid.map fun pid => ⟨pid, false, false⟩).toList

namespace Subprocess

def addHandler : Handler → Subprocess
  | .drive h => ⟨.drive h, h.processingStatus, []⟩
  | .maintenance h => ⟨.maintenance h, h.processingStatus, []⟩
  | .signal h => ⟨.signal h, SignalHandler.initialStatus, []⟩

def ofDrive (h : DriveHandler) (ps : List Process) : Subprocess :=
  ⟨.drive h, h.processingStatus, ps⟩

def ofMaintenance (h : MaintenanceHandler) (ps : List Process) : Subprocess :=
  ⟨.maintenance h, h.processingStatus, ps⟩

def ofSignal (x : SignalHandler × ProcessingStatus) (ps : List Process) : Subprocess :=
  ⟨.signal x.1, x.2, ps⟩

def processSigChild (s : Subprocess) (a : Answers) : Option Subprocess :=
  match s.handler with
  | .drive h => (h.processSigChild a.now a.epoll a.wait).map
    (ofDrive · (collect h.pid a.wait s.processes))
  | .maintenance h => some (ofMaintenance (h.processSigChild a.wait)
    (collect h.pid a.wait s.processes))
  | .signal h => some (ofSignal h.processSigChild s.processes)

def shutdown (s : Subprocess) (a : Answers) : Option Subprocess :=
  match s.handler with
  | .drive h => (h.shutdown a.epoll a.kill a.databases).map
    (ofDrive · (killAndWait h.pid a.kill s.processes))
  | .maintenance h => (h.shutdown a.sends).map (ofMaintenance · s.processes)
  | .signal h => some (ofSignal h.shutdown s.processes)

def kill (s : Subprocess) (a : Answers) : Option Subprocess :=
  match s.handler with
  | .drive h => (h.kill a.epoll a.kill).map fun g =>
    ⟨.drive g, s.status, killAndWait h.pid a.kill s.processes⟩
  | .maintenance h => some ⟨.maintenance h.kill, s.status,
    killAndWait h.pid a.kill s.processes⟩
  | .signal _ => some s

def fork (s : Subprocess) (a : Answers) : Option Subprocess :=
  match s.handler with
  | .drive h =>
    let g := h.fork a.now a.fork
    some ⟨.drive g, { g.processingStatus with forkState := .notForking },
      addProcess (h.forks a.fork) s.processes⟩
  | .maintenance h =>
    let g := h.fork a.maintenanceFork
    some ⟨.maintenance g, { g.processingStatus with forkState := .notForking },
      addProcess a.maintenanceFork.forks s.processes⟩
  | .signal _ => none

def processTimeout (s : Subprocess) (a : Answers) : Subprocess :=
  match s.handler with
  | .drive h => ofDrive (h.processTimeout a.now) (sendKill h.pid a.kill s.processes)
  | .maintenance h => ofMaintenance h.processTimeout s.processes
  | .signal h => ⟨.signal h, SignalHandler.processTimeout, s.processes⟩

def processEvent (s : Subprocess) (a : Answers) : Option Subprocess :=
  match s.handler with
  | .drive h => (h.processEvent a.now a.epoll a.received).map (ofDrive · s.processes)
  | .maintenance h => some (ofMaintenance h s.processes)
  | .signal h => some (ofSignal (h.processEvent a.now a.signal) s.processes)

/-- The handlers whose files the process manager polls. -/
def polled (s : Subprocess) : Bool :=
  match s.handler with
  | .drive h => h.socketPair = .registered
  | .maintenance _ => false
  | .signal _ => true

end Subprocess

def onEach (call : Subprocess → Answers → Option Subprocess) (answers : Nat → Answers) :
    List Subprocess → Option (List Subprocess)
  | [] => some []
  | s :: ss =>
    (call s (answers 0)).bind fun t =>
      (onEach call (fun i => answers (i + 1)) ss).map (t :: ·)

/-- What the system calls answer during one iteration, to the call on each handler in each
part. -/
structure Iteration where
  sigChild : Nat → Answers := fun _ => {}
  shutdown : Nat → Answers := fun _ => {}
  kill : Nat → Answers := fun _ => {}
  fork : Nat → Answers := fun _ => {}
  timeout : Nat → Answers := fun _ => {}
  epollWaits : Bool := true
  event : Nat → Answers := fun _ => {}

inductive Progress
  | thrown
  | returned (ss : List Subprocess)
  | goesOn (ss : List Subprocess)
  deriving DecidableEq, Repr

/-- The run of the process manager goes on with the next part, if it goes on. -/
def Progress.andThen (x : Progress) (f : List Subprocess → Progress) : Progress :=
  match x with
  | goesOn ss => f ss
  | x => x

namespace ProcessManager

def allComplete (ss : List Subprocess) : Bool := ss.all (·.status.shutdownComplete)

def exitIfComplete (ss : List Subprocess) : Progress :=
  if allComplete ss then .returned ss else .goesOn ss

def runSigChildManagement (answers : Nat → Answers) (ss : List Subprocess) : Progress :=
  if ss.any (·.status.sigChild) then
    match onEach Subprocess.processSigChild answers ss with
    | none => .thrown
    | some ts => exitIfComplete ts
  else exitIfComplete ss

def runShutdownManagement (answers : Nat → Answers) (ss : List Subprocess) : Progress :=
  if ss.any (·.status.shutdownRequested) then
    match onEach Subprocess.shutdown answers ss with
    | none => .thrown
    | some ts => exitIfComplete ts
  else exitIfComplete ss

def runKillManagement (answers : Nat → Answers) (ss : List Subprocess) : Progress :=
  if ss.any (·.status.killRequested) then
    match onEach Subprocess.kill answers ss with
    | none => .thrown
    | some ts => .returned ts
  else .goesOn ss

def runForkManagement (answers : Nat → Answers) (ss : List Subprocess) : Progress :=
  match onEach (fun s a => if s.status.forkRequested then s.fork a else some s) answers ss with
  | none => .thrown
  | some ts => .goesOn ts

/-- The handlers whose timeout is in the past, up to the first that asks for something; `true` if
one does. -/
def runTimeouts (answers : Nat → Answers) : List Subprocess → List Subprocess × Bool
  | [] => ([], false)
  | s :: ss =>
    if s.status.nextTimeout.any (· < (answers 0).now) then
      let t := s.processTimeout (answers 0)
      if t.status.forkRequested || t.status.killRequested || t.status.shutdownRequested ||
          t.status.sigChild then (t :: ss, true)
      else
        let (ts, asks) := runTimeouts (fun i => answers (i + 1)) ss
        (t :: ts, asks)
    else
      let (ts, asks) := runTimeouts (fun i => answers (i + 1)) ss
      (s :: ts, asks)

def runEventLoop (it : Iteration) (ss : List Subprocess) : Progress :=
  let (ts, asks) := runTimeouts it.timeout ss
  if asks then .goesOn ts
  else if !it.epollWaits then .thrown
  else match onEach (fun s a => if a.ready && s.polled then s.processEvent a else some s)
      it.event ts with
    | none => .thrown
    | some us => .goesOn us

def runOnce (it : Iteration) (ss : List Subprocess) : Progress :=
  (runSigChildManagement it.sigChild ss).andThen fun ss =>
    (runShutdownManagement it.shutdown ss).andThen fun ss =>
      (runKillManagement it.kill ss).andThen fun ss =>
        (runForkManagement it.fork ss).andThen (runEventLoop it)

def run : List Iteration → List Subprocess → Progress
  | [], ss => .goesOn ss
  | it :: its, ss => (runOnce it ss).andThen (run its)

end ProcessManager

end Cta.Daemon
