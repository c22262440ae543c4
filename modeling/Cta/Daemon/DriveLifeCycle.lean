import Cta.Lib.Runs
import Cta.Daemon.DriveHandler

/-! The life of a drive handler under the calls of the process manager. -/
namespace Cta.Daemon
open Cta.Lib.Runs
variable {h g : DriveHandler} {now : Nat} {epoll : Bool}

inductive DriveCall
  | fork (now : Nat) (outcome : ForkOutcome)
  | processEvent (now : Nat) (epoll : Bool) (received : Received)
  | processSigChild (now : Nat) (epoll : Bool) (outcome : WaitOutcome)
  | processTimeout (now : Nat)
  | kill (epoll : Bool) (outcome : KillOutcome)
  | shutdown (epoll : Bool) (outcome : KillOutcome) (databases : Bool)

def DriveCall.run (h : DriveHandler) : DriveCall → Option DriveHandler
  | fork now outcome => some (h.fork now outcome)
  | processEvent now epoll received => h.processEvent now epoll received
  | processSigChild now epoll outcome => h.processSigChild now epoll outcome
  | processTimeout now => some (h.processTimeout now)
  | kill epoll outcome => h.kill epoll outcome
  | shutdown epoll outcome databases => h.shutdown epoll outcome databases

/-- `shutDown`: a call of `shutdown` has returned. `ended`: no call follows, after a kill or an
exception. -/
structure DriveLife where
  handler : DriveHandler
  shutDown : Bool
  ended : Bool
  deriving DecidableEq, Repr

namespace DriveLife

def start (now : Nat) : DriveLife := ⟨.initial now, false, false⟩

def next (s : DriveLife) (call : DriveCall) : DriveLife :=
  match call.run s.handler with
  | none => { s with ended := true }
  | some h =>
    match call with
    | .shutdown _ _ _ => ⟨h, true, false⟩
    | .kill _ _ => ⟨h, s.shutDown, true⟩
    | _ => ⟨h, s.shutDown, false⟩

/-- When the process manager makes a call: a fork on request, an event from a file that it polls,
a timeout that is in the past. It kills after the signal handler waited for the shutdown. -/
def Allowed (s : DriveLife) (call : DriveCall) : Prop :=
  s.ended = false ∧
    match call with
    | .fork _ _ => s.handler.processingStatus.forkRequested = true
    | .processEvent _ _ _ => s.handler.socketPair = .registered
    | .processSigChild _ _ _ => True
    | .processTimeout now => ∃ t, s.handler.processingStatus.nextTimeout = some t ∧ t < now
    | .kill _ _ => s.shutDown = true
    | .shutdown _ _ _ => True

instance (s : DriveLife) (call : DriveCall) : Decidable (s.Allowed call) := by
  cases call with
  | processTimeout now =>
    refine decidable_of_iff (s.ended = false ∧
      s.handler.processingStatus.nextTimeout.any (· < now)) ?_
    simp [Allowed, Option.any_eq_true]
  | fork | processEvent | processSigChild | kill | shutdown =>
    unfold Allowed
    infer_instance

def FailedFork (h : DriveHandler) : Prop :=
  h.sessionState = .Shutdown ∧ h.processingStatus.shutdownComplete = true

/-- Without a process a fork is requested, and after a shutdown no fork is requested and the
shutdown stays complete. -/
def InOrder (s : DriveLife) : Prop :=
  (s.handler.pid = none → s.shutDown = false →
    s.handler.processingStatus.forkRequested = true ∨ FailedFork s.handler) ∧
  (s.shutDown = true → s.handler.processingStatus.forkRequested = false ∧
    s.handler.processingStatus.shutdownComplete = true)

/-- No process is found to have died by a signal once the handler is shut down. -/
def NotKilledLate (s : DriveLife) : DriveCall → Prop
  | .processSigChild _ _ .signaled => s.shutDown = true → s.handler.pid = none
  | _ => True

instance (h : DriveHandler) : Decidable (FailedFork h) := inferInstanceAs (Decidable (_ ∧ _))

instance (s : DriveLife) : Decidable s.InOrder := inferInstanceAs (Decidable (_ ∧ _))

/-- What holds between the calls of the process manager. -/
structure Managed (s : DriveLife) : Prop where
  requested : s.handler.processingStatus.forkRequested = true →
    s.handler.pid = none ∧ s.handler.sessionState = .PendingFork
  polled : s.handler.socketPair = .registered →
    s.handler.pid ≠ none ∧ s.handler.sessionState ≠ .Shutdown
  noTimeout : s.handler.pid = none → s.handler.processingStatus.nextTimeout = none
  failed : s.handler.sessionState = .Shutdown → s.handler.processingStatus.nextTimeout = none ∧
    s.handler.processingStatus.shutdownComplete = true
  down : s.shutDown = true → s.handler.sessionState = .Shutdown ∧
    (s.handler.pid ≠ none → s.handler.socketPair = .closed)

end DriveLife

namespace DriveHandler

theorem removeFile_some (hg : h.removeFile epoll = some g) :
    g = { h with socketPair := .closed } := by
  unfold removeFile at hg
  split at hg
  · cases hg
    cases h
    simp_all
  · cases hg
  · split at hg
    · exact (Option.some.inj hg).symm
    · cases hg

/-- The same process and requests for it: what a message leaves as it is. -/
structure SameProcess (g h : DriveHandler) : Prop where
  pid : g.pid = h.pid
  socketPair : g.socketPair = h.socketPair
  forkRequested : g.processingStatus.forkRequested = h.processingStatus.forkRequested
  shutdownComplete : g.processingStatus.shutdownComplete = h.processingStatus.shutdownComplete

theorem SameProcess.trans {f : DriveHandler} (hf : SameProcess f g) (hg : SameProcess g h) :
    SameProcess f h where
  pid := hf.pid.trans hg.pid
  socketPair := hf.socketPair.trans hg.socketPair
  forkRequested := hf.forkRequested.trans hg.forkRequested
  shutdownComplete := hf.shutdownComplete.trans hg.shutdownComplete

theorem sameProcess_withNextTimeout : SameProcess h.withNextTimeout h := ⟨rfl, rfl, rfl, rfl⟩

theorem sameProcess_processBytes {m : WatchdogMessage} :
    SameProcess (h.processBytes now m) h := by
  unfold processBytes
  simp only
  split <;> exact ⟨rfl, rfl, rfl, rfl⟩

theorem processState_some {m : WatchdogMessage} (hg : h.processState now m = some g) :
    SameProcess g h ∧ ∃ state, SessionState.ofNat? m.sessionState = some state ∧
      state ≠ .Shutdown := by
  unfold processState at hg
  cases hstate : SessionState.ofNat? m.sessionState with
  | none => simp [hstate] at hg
  | some state =>
    rw [hstate] at hg
    refine ⟨?_, state, rfl, ?_⟩
    · cases state <;> cases hg <;> exact ⟨rfl, rfl, rfl, rfl⟩
    · rintro rfl
      cases hg

theorem sameProcess_updateState {m : WatchdogMessage} : SameProcess (h.updateState now m) h :=
  ⟨rfl, rfl, rfl, rfl⟩

theorem sameProcess_processMessage (now : Nat) (m : WatchdogMessage) :
    SameProcess (h.processMessage now m) h := by
  have hbytes : SameProcess (if m.reportingBytes then h.processBytes now m else h) h := by
    split
    · exact sameProcess_processBytes
    · exact ⟨rfl, rfl, rfl, rfl⟩
  unfold processMessage
  simp only
  split
  · split
    · exact hbytes
    · rename_i hstate
      exact ((sameProcess_withNextTimeout.trans sameProcess_updateState).trans
        (processState_some hstate).1).trans hbytes
  · exact sameProcess_withNextTimeout.trans hbytes

theorem processMessage_sessionState {m : WatchdogMessage}
    (hdown : (h.processMessage now m).sessionState = .Shutdown) : h.sessionState = .Shutdown := by
  have hbytes : (if m.reportingBytes then h.processBytes now m else h).sessionState =
      h.sessionState := by
    unfold processBytes
    simp only
    split
    · split <;> rfl
    · rfl
  unfold processMessage at hdown
  simp only at hdown
  split at hdown
  · split at hdown
    · exact hbytes.symm.trans hdown
    · rename_i hstate
      obtain ⟨-, state, hstate, hne⟩ := processState_some hstate
      simp only [withNextTimeout, updateState, hstate, Option.getD_some] at hdown
      exact absurd hdown hne
  · exact hbytes.symm.trans hdown

/-- A process that is killed without an exception has its socket pair cleaned up. -/
theorem kill_some {outcome : KillOutcome} (hg : h.kill epoll outcome = some g) :
    g.processingStatus = h.processingStatus ∧ g.sessionState = h.sessionState ∧
      (h.pid = none → g = h) ∧ (h.pid ≠ none → g.socketPair = .closed) := by
  unfold kill at hg
  cases hpid : h.pid with
  | none =>
    rw [hpid] at hg
    cases hg
    exact ⟨rfl, rfl, fun _ => rfl, fun hne => absurd rfl hne⟩
  | some pid =>
    rw [hpid] at hg
    obtain ⟨f, hf, rfl⟩ := Option.map_eq_some_iff.mp hg
    have hf := removeFile_some hf
    subst hf
    cases outcome <;> exact ⟨rfl, rfl, nofun, fun _ => rfl⟩

theorem shutdown_some {outcome : KillOutcome} {databases : Bool}
    (hg : h.shutdown epoll outcome databases = some g) :
    ∃ f, h.kill epoll outcome = some f ∧ g = f.exitShutdown := by
  obtain ⟨f, hf, hg⟩ := Option.bind_eq_some_iff.mp hg
  cases databases with
  | false => cases hg
  | true => exact ⟨f, hf, (Option.some.inj hg).symm⟩

theorem processSigChild_none {outcome : WaitOutcome} (hpid : h.pid = none) :
    h.processSigChild now epoll outcome = some h := by
  unfold processSigChild
  rw [hpid]

theorem processSigChild_not_ended {outcome : WaitOutcome}
    (houtcome : outcome = .error ∨ outcome = .running) :
    h.processSigChild now epoll outcome = some h := by
  cases hpid : h.pid with
  | none => exact processSigChild_none hpid
  | some pid =>
    unfold processSigChild
    rw [hpid]
    cases houtcome with
    | inl herror => rw [herror]
    | inr hrunning => rw [hrunning]

theorem processTimeout_some {pid : Nat} (hpid : h.pid = some pid) :
    h.processTimeout now = { h with processingStatus.nextTimeout := none } := by
  rw [processTimeout, hpid]

theorem processTimeout_none (hpid : h.pid = none) :
    (h.processTimeout now).processingStatus.forkRequested = false := by
  rw [processTimeout, hpid]
  rfl

end DriveHandler

namespace DriveLife
variable {s : DriveLife}

theorem Managed.withProcess {shutDown ended : Bool} (hdown : shutDown = false)
    (hpid : g.pid ≠ none) (hrequested : g.processingStatus.forkRequested = false)
    (hstate : g.sessionState = .Shutdown → g.socketPair ≠ .registered ∧
      g.processingStatus.nextTimeout = none ∧ g.processingStatus.shutdownComplete = true) :
    Managed ⟨g, shutDown, ended⟩ ∧ InOrder ⟨g, shutDown, ended⟩ := by
  subst hdown
  refine ⟨⟨fun htrue => ?_, fun hregistered => ⟨hpid, fun heq => (hstate heq).1 hregistered⟩,
    fun hnone => absurd hnone hpid, fun heq => (hstate heq).2, nofun⟩,
    fun hnone => absurd hnone hpid, nofun⟩
  exact absurd (hrequested.symm.trans htrue) nofun

theorem Managed.fork (hs : s.Managed) (hdown : s.shutDown = false)
    (hrequested : s.handler.processingStatus.forkRequested = true) (outcome : ForkOutcome) :
    Managed ⟨s.handler.fork now outcome, s.shutDown, false⟩ ∧
      InOrder ⟨s.handler.fork now outcome, s.shutDown, false⟩ := by
  have hfailed : ∀ g : DriveHandler, g.socketPair ≠ .registered →
      Managed ⟨g.forkFailed, s.shutDown, false⟩ ∧ InOrder ⟨g.forkFailed, s.shutDown, false⟩ := by
    intro g hsocket
    rw [hdown]
    exact ⟨⟨nofun, fun hregistered => absurd hregistered hsocket, fun _ => rfl,
      fun _ => ⟨rfl, rfl⟩, nofun⟩, fun _ _ => .inr ⟨rfl, rfl⟩, nofun⟩
  obtain ⟨hpid, hstate⟩ := hs.requested hrequested
  unfold DriveHandler.fork
  rw [if_neg (not_not.mpr hstate)]
  cases outcome with
  | socketPairFails => exact hfailed _ fun hregistered => (hs.polled hregistered).1 hpid
  | forkFails => exact hfailed _ nofun
  | addFileFails pid => exact hfailed _ nofun
  | forked pid => exact withProcess hdown nofun rfl nofun

theorem Managed.not_down (hs : s.Managed) (hregistered : s.handler.socketPair = .registered) :
    s.shutDown = false := by
  cases hdown : s.shutDown with
  | false => rfl
  | true => exact absurd (hs.down hdown).1 (hs.polled hregistered).2

theorem Managed.not_requested (hs : s.Managed) (hpid : s.handler.pid ≠ none) :
    s.handler.processingStatus.forkRequested = false := by
  cases hrequested : s.handler.processingStatus.forkRequested with
  | false => rfl
  | true => exact absurd (hs.requested hrequested).1 hpid

theorem Managed.processEvent (hs : s.Managed) (hregistered : s.handler.socketPair = .registered)
    {received : Received} (hg : s.handler.processEvent now epoll received = some g) :
    Managed ⟨g, s.shutDown, false⟩ ∧ InOrder ⟨g, s.shutDown, false⟩ := by
  obtain ⟨hpid, hstate⟩ := hs.polled hregistered
  have hdown := hs.not_down hregistered
  have hrequested := hs.not_requested hpid
  cases received with
  | message m =>
    cases hg
    have hsame := DriveHandler.sameProcess_processMessage now m
      (h := { s.handler with lastHeartBeatTime := now })
    refine withProcess hdown (fun hnone => hpid (hsame.pid.symm.trans hnone))
      (hsame.forkRequested.trans hrequested) fun heq => ?_
    exact absurd (DriveHandler.processMessage_sessionState
      (h := { s.handler with lastHeartBeatTime := now }) heq) hstate
  | disconnected =>
    have hg := DriveHandler.removeFile_some hg
    subst hg
    exact withProcess hdown hpid hrequested fun heq => absurd heq hstate
  | failed =>
    cases hg
    exact withProcess hdown hpid hrequested fun heq => absurd heq hstate

theorem Managed.unchanged (hs : s.Managed) : Managed ⟨s.handler, s.shutDown, false⟩ :=
  ⟨hs.requested, hs.polled, hs.noTimeout, hs.failed, hs.down⟩

theorem Managed.pending (hpid : g.pid = none) (hsocket : g.socketPair = .closed)
    (hstate : g.sessionState = .PendingFork) (htimeout : g.processingStatus.nextTimeout = none)
    (hrequested : g.processingStatus.forkRequested = true) :
    Managed ⟨g, false, false⟩ ∧ InOrder ⟨g, false, false⟩ := by
  refine ⟨⟨fun _ => ⟨hpid, hstate⟩, fun hregistered => ?_, fun _ => htimeout, fun hdown => ?_,
    nofun⟩, fun _ _ => .inl hrequested, nofun⟩
  · cases hsocket.symm.trans hregistered
  · cases hstate.symm.trans hdown

theorem Managed.exited (hs : s.Managed) (ht : s.InOrder)
    (hg : s.handler.processSigChild now epoll .exited = some g) :
    Managed ⟨g, s.shutDown, false⟩ ∧ InOrder ⟨g, s.shutDown, false⟩ := by
  cases hpid : s.handler.pid with
  | none =>
    rw [DriveHandler.processSigChild_none hpid] at hg
    cases hg
    exact ⟨hs.unchanged, ht⟩
  | some pid =>
    unfold DriveHandler.processSigChild at hg
    rw [hpid] at hg
    obtain ⟨f, hf, rfl⟩ := Option.map_eq_some_iff.mp hg
    have hf := DriveHandler.removeFile_some hf
    subst hf
    by_cases hstate : s.handler.sessionState = .Shutdown
    · rw [if_neg (not_not.mpr hstate)]
      obtain ⟨htimeout, hcomplete⟩ := hs.failed hstate
      exact ⟨⟨nofun, nofun, fun _ => htimeout, fun _ => ⟨htimeout, hcomplete⟩,
        fun _ => ⟨hstate, fun _ => rfl⟩⟩, fun _ _ => .inr ⟨hstate, hcomplete⟩,
        fun _ => ⟨rfl, hcomplete⟩⟩
    · rw [if_pos hstate]
      have hdown : s.shutDown = false :=
        Bool.eq_false_iff.mpr fun htrue => hstate (hs.down htrue).1
      rw [hdown]
      exact pending rfl rfl rfl rfl rfl

theorem Managed.signaled (hpid : s.handler.pid ≠ none)
    (hg : s.handler.processSigChild now epoll .signaled = some g) :
    (InOrder ⟨g, s.shutDown, false⟩ ↔ s.shutDown = false) ∧
      (s.shutDown = false → Managed ⟨g, s.shutDown, false⟩) := by
  unfold DriveHandler.processSigChild at hg
  obtain ⟨pid, hsome⟩ := Option.ne_none_iff_exists'.mp hpid
  rw [hsome] at hg
  obtain ⟨f, hf, rfl⟩ := Option.map_eq_some_iff.mp hg
  have hf := DriveHandler.removeFile_some hf
  subst hf
  refine ⟨⟨fun hafter => ?_, fun hdown => ?_⟩, fun hdown => ?_⟩
  · cases hdown : s.shutDown with
    | false => rfl
    | true => cases (hafter.2 hdown).1
  · rw [hdown]
    exact (pending rfl rfl rfl rfl rfl).2
  · rw [hdown]
    exact (pending rfl rfl rfl rfl rfl).1

theorem Managed.processTimeout (hs : s.Managed) (ht : s.InOrder)
    (htimeout : s.handler.processingStatus.nextTimeout ≠ none) :
    Managed ⟨s.handler.processTimeout now, s.shutDown, false⟩ ∧
      InOrder ⟨s.handler.processTimeout now, s.shutDown, false⟩ := by
  obtain ⟨pid, hpid⟩ := Option.ne_none_iff_exists'.mp fun hnone => htimeout (hs.noTimeout hnone)
  rw [DriveHandler.processTimeout_some hpid]
  exact ⟨⟨hs.requested, hs.polled, fun _ => rfl, fun hstate => ⟨rfl, (hs.failed hstate).2⟩,
    hs.down⟩, ht⟩

theorem Managed.atRest {ended : Bool} (hstate : g.sessionState = .Shutdown)
    (htimeout : g.processingStatus.nextTimeout = none)
    (hrequested : g.processingStatus.forkRequested = false)
    (hcomplete : g.processingStatus.shutdownComplete = true)
    (hsocket : g.socketPair ≠ .registered) (hclosed : g.pid ≠ none → g.socketPair = .closed) :
    Managed ⟨g, true, ended⟩ ∧ InOrder ⟨g, true, ended⟩ := by
  refine ⟨⟨fun htrue => ?_, fun hregistered => absurd hregistered hsocket, fun _ => htimeout,
    fun _ => ⟨htimeout, hcomplete⟩, fun _ => ⟨hstate, hclosed⟩⟩, nofun,
    fun _ => ⟨hrequested, hcomplete⟩⟩
  cases hrequested.symm.trans htrue

theorem Managed.kill_socketPair (hs : s.Managed) {outcome : KillOutcome}
    (hg : s.handler.kill epoll outcome = some g) :
    g.socketPair ≠ .registered ∧ (g.pid ≠ none → g.socketPair = .closed) := by
  obtain ⟨-, -, hsame, hclosed⟩ := DriveHandler.kill_some hg
  cases hpid : s.handler.pid with
  | none =>
    rw [hsame hpid]
    exact ⟨fun hregistered => (hs.polled hregistered).1 hpid, fun hne => absurd hpid hne⟩
  | some pid =>
    have hclosed := hclosed (hpid ▸ nofun)
    exact ⟨hclosed ▸ nofun, fun _ => hclosed⟩

theorem Managed.kill (hs : s.Managed) (ht : s.InOrder) (hdown : s.shutDown = true)
    {outcome : KillOutcome} (hg : s.handler.kill epoll outcome = some g) :
    Managed ⟨g, s.shutDown, true⟩ ∧ InOrder ⟨g, s.shutDown, true⟩ := by
  obtain ⟨hstatus, hstate, -, -⟩ := DriveHandler.kill_some hg
  obtain ⟨hsocket, hclosed⟩ := hs.kill_socketPair hg
  obtain ⟨hrequested, hcomplete⟩ := ht.2 hdown
  have hshut := (hs.down hdown).1
  rw [hdown]
  exact atRest (hstate.trans hshut) (hstatus ▸ (hs.failed hshut).1) (hstatus ▸ hrequested)
    (hstatus ▸ hcomplete) hsocket hclosed

theorem Managed.shutdown (hs : s.Managed) {outcome : KillOutcome} {databases : Bool}
    (hg : s.handler.shutdown epoll outcome databases = some g) :
    Managed ⟨g, true, false⟩ ∧ InOrder ⟨g, true, false⟩ := by
  obtain ⟨f, hf, rfl⟩ := DriveHandler.shutdown_some hg
  obtain ⟨hsocket, hclosed⟩ := hs.kill_socketPair hf
  exact atRest rfl rfl rfl rfl hsocket hclosed

theorem next_none {call : DriveCall} (hrun : call.run s.handler = none) :
    s.next call = ⟨s.handler, s.shutDown, true⟩ := by
  rw [next, hrun]

theorem Managed.thrown (hs : s.Managed) (ht : s.InOrder) {call : DriveCall}
    (hrun : call.run s.handler = none) : (s.next call).Managed ∧ (s.next call).InOrder := by
  rw [next_none hrun]
  exact ⟨⟨hs.requested, hs.polled, hs.noTimeout, hs.failed, hs.down⟩, ht⟩

theorem Managed.not_thrown (now : Nat) (epoll : Bool) (hs : s.Managed) (hdown : s.shutDown = true)
    (hpid : s.handler.pid ≠ none) :
    ∃ g, s.handler.processSigChild now epoll .signaled = some g := by
  obtain ⟨pid, hsome⟩ := Option.ne_none_iff_exists'.mp hpid
  unfold DriveHandler.processSigChild DriveHandler.removeFile
  rw [hsome, (hs.down hdown).2 hpid]
  exact ⟨_, rfl⟩

theorem Managed.next {call : DriveCall} (hs : s.Managed) (hallowed : s.Allowed call)
    (ht : s.InOrder) (hlate : s.NotKilledLate call) :
    (s.next call).Managed ∧ (s.next call).InOrder := by
  cases hrun : call.run s.handler with
  | none => exact hs.thrown ht hrun
  | some g =>
    rw [DriveLife.next, hrun]
    cases call with
    | fork now outcome =>
      cases hrun
      have hdown : s.shutDown = false := Bool.eq_false_iff.mpr fun htrue => by
        cases (ht.2 htrue).1.symm.trans hallowed.2
      exact hs.fork hdown hallowed.2 outcome
    | processEvent now epoll received => exact hs.processEvent hallowed.2 hrun
    | processSigChild now epoll outcome =>
      change s.handler.processSigChild now epoll outcome = some g at hrun
      cases outcome with
      | exited => exact hs.exited ht hrun
      | error =>
        rw [DriveHandler.processSigChild_not_ended (.inl rfl)] at hrun
        cases hrun
        exact ⟨hs.unchanged, ht⟩
      | running =>
        rw [DriveHandler.processSigChild_not_ended (.inr rfl)] at hrun
        cases hrun
        exact ⟨hs.unchanged, ht⟩
      | signaled =>
        cases hpid : s.handler.pid with
        | none =>
          rw [DriveHandler.processSigChild_none hpid] at hrun
          cases hrun
          exact ⟨hs.unchanged, ht⟩
        | some pid =>
          have hne : s.handler.pid ≠ none := hpid ▸ nofun
          have hdown : s.shutDown = false := Bool.eq_false_iff.mpr fun htrue => hne (hlate htrue)
          obtain ⟨horder, hmanaged⟩ := Managed.signaled hne hrun
          exact ⟨hmanaged hdown, horder.mpr hdown⟩
    | processTimeout now =>
      cases hrun
      obtain ⟨t, htimeout, -⟩ := hallowed.2
      exact hs.processTimeout ht (htimeout ▸ nofun)
    | kill epoll outcome => exact hs.kill ht hallowed.2 hrun
    | shutdown epoll outcome databases => exact hs.shutdown hrun

theorem Managed.notKilledLate {call : DriveCall} (hs : s.Managed)
    (hafter : (s.next call).InOrder) : s.NotKilledLate call := by
  cases call with
  | processSigChild now epoll outcome =>
    cases outcome with
    | signaled =>
      intro hdown
      by_contra hpid
      obtain ⟨g, hrun⟩ := hs.not_thrown now epoll hdown hpid
      have hnext : s.next (.processSigChild now epoll .signaled) = ⟨g, s.shutDown, false⟩ := by
        simp only [DriveLife.next, DriveCall.run, hrun]
      rw [hnext, (Managed.signaled hpid hrun).1, hdown] at hafter
      cases hafter
    | error | running | exited => trivial
  | fork | processEvent | processTimeout | kill | shutdown => trivial

theorem managed_start : (start now).Managed :=
  ⟨fun _ => ⟨rfl, rfl⟩, nofun, fun _ => rfl, nofun, nofun⟩

theorem inOrder_start : (start now).InOrder := ⟨fun _ _ => .inl rfl, nofun⟩

/-- Under the calls of the process manager, a handler without a process asks for one until it is
shut down, and stays shut down: as long as no process is found killed after the shutdown. -/
theorem inOrder_iff {calls : List DriveCall}
    (h : AllSteps DriveLife.next Allowed (start now) calls) :
    AllStates DriveLife.next InOrder (start now) calls ↔
      AllSteps DriveLife.next NotKilledLate (start now) calls :=
  h.allStates_iff (I := Managed)
    (fun _ _ hs hallowed ht => ⟨hs.notKilledLate, fun hlate => (hs.next hallowed ht hlate).2⟩)
    (fun _ _ hs hallowed ht hlate => (hs.next hallowed ht hlate).1) managed_start inOrder_start

/-- The shutdown kills the process and fails to wait for it; it is found killed later. -/
def killedLate : List DriveCall :=
  [.fork 0 (.forked 7), .shutdown true .waitFails true, .processSigChild 1 true .signaled]

theorem fork_requested_after_shutdown : AllSteps DriveLife.next Allowed (start 0) killedLate ∧
    ¬AllStates DriveLife.next InOrder (start 0) killedLate := by
  refine ⟨by decide, fun h => ?_⟩
  exact absurd h.last (by decide)

theorem inOrder_crash_restart : AllStates DriveLife.next InOrder (start 0)
    [.fork 0 (.forked 7), .processSigChild 1 true .signaled, .fork 1 (.forked 8),
      .processEvent 2 true (.message ⟨true, 4, 1, "V1", false, 0, 0⟩),
      .processTimeout 700000, .shutdown true .killed true, .kill true .killed] :=
  (inOrder_iff (by decide)).mpr (by
    simp only [AllSteps, NotKilledLate]
    decide)

end DriveLife

end Cta.Daemon
