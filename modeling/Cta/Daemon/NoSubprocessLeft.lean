import Cta.Daemon.DriveLifeCycle
import Cta.Daemon.ProcessManager

/-! No process survives the process manager. -/
namespace Cta.Daemon
variable {h g : DriveHandler} {now : Nat} {epoll : Bool} {a : Answers}
  {pid : Option Nat} {ps : List Process}

def Process.gone (p : Process) : Bool := p.exited || p.killSent

/-- Every process is gone or is the one that the handler knows. -/
def Attended (pid : Option Nat) (ps : List Process) : Prop :=
  ∀ p ∈ ps, p.gone = true ∨ pid = some p.pid

theorem Attended.gone (hps : Attended none ps) : ∀ p ∈ ps, p.gone = true := by
  intro p hp
  cases hps p hp with
  | inl hgone => exact hgone
  | inr hpid => cases hpid

theorem attended_of_gone (hps : ∀ p ∈ ps, p.gone = true) : Attended pid ps :=
  fun p hp => .inl (hps p hp)

theorem Attended.map {f : Process → Process} (hps : Attended pid ps)
    (hpid : ∀ p, (f p).pid = p.pid) (hgone : ∀ p, p.gone = true → (f p).gone = true) :
    Attended pid (ps.map f) := by
  intro q hq
  obtain ⟨p, hp, rfl⟩ := List.mem_map.mp hq
  rw [hpid]
  exact (hps p hp).imp_left (hgone p)

theorem Attended.map_gone {f : Process → Process} (hps : Attended pid ps)
    (hgone : ∀ p, p.gone = true → (f p).gone = true)
    (hknown : ∀ p, pid = some p.pid → (f p).gone = true) : ∀ p ∈ ps.map f, p.gone = true := by
  intro q hq
  obtain ⟨p, hp, rfl⟩ := List.mem_map.mp hq
  exact (hps p hp).elim (hgone p) (hknown p)

theorem Attended.collect (hps : Attended pid ps) {outcome : WaitOutcome} :
    Attended pid (collect pid outcome ps) := by
  cases outcome with
  | error | running => exact hps
  | exited | signaled =>
    refine hps.map (fun p => by split <;> rfl) fun p hp => ?_
    split
    · rfl
    · exact hp

theorem Attended.collect_gone (hps : Attended pid ps) {outcome : WaitOutcome}
    (houtcome : outcome = .exited ∨ outcome = .signaled) :
    ∀ p ∈ Daemon.collect pid outcome ps, p.gone = true := by
  have hmap : ∀ q ∈ ps.map (fun p => if some p.pid = pid then { p with exited := true } else p),
      q.gone = true := by
    refine hps.map_gone (fun p hp => ?_) fun p hp => ?_
    · split
      · rfl
      · exact hp
    · rw [if_pos hp.symm]
      rfl
  cases houtcome with
  | inl hexited => exact hexited ▸ hmap
  | inr hsignaled => exact hsignaled ▸ hmap

theorem Attended.sendKill (hps : Attended pid ps) {outcome : KillOutcome} :
    Attended pid (sendKill pid outcome ps) := by
  cases outcome with
  | killFails => exact hps
  | waitFails | killed =>
    refine hps.map (fun p => by split <;> rfl) fun p hp => ?_
    split
    · exact Bool.or_true _
    · exact hp

theorem Attended.killAndWait (hps : Attended pid ps) :
    ∀ p ∈ killAndWait pid .killed ps, p.gone = true :=
  hps.sendKill.collect_gone (.inr rfl)

theorem attended_addProcess (hps : ∀ p ∈ ps, p.gone = true) :
    Attended pid (addProcess pid ps) := by
  intro p hp
  cases List.mem_append.mp hp with
  | inl hold => exact .inl (hps p hold)
  | inr hnew =>
    cases pid with
    | none => cases hnew
    | some n =>
      have heq : p = ⟨n, false, false⟩ := by simpa using hnew
      exact .inr (heq ▸ rfl)

/-- A fork is requested, and a shutdown complete, without a process only. -/
def Settled (pid : Option Nat) (status : ProcessingStatus) : Prop :=
  (status.forkRequested = true → pid = none ∧ status.shutdownComplete = false) ∧
    (status.shutdownComplete = true → pid = none)

theorem settled_none {status : ProcessingStatus}
    (hstatus : status.forkRequested = true → status.shutdownComplete = false) :
    Settled none status := ⟨fun hrequested => ⟨rfl, hstatus hrequested⟩, fun _ => rfl⟩

theorem Settled.congr {status other : ProcessingStatus} (hs : Settled pid status)
    (hrequested : other.forkRequested = status.forkRequested)
    (hcomplete : other.shutdownComplete = status.shutdownComplete) : Settled pid other := by
  unfold Settled
  rw [hrequested, hcomplete]
  exact hs

namespace DriveHandler

theorem processSigChild_settled {outcome : WaitOutcome} (hs : Settled h.pid h.processingStatus)
    (hps : Attended h.pid ps) (hg : h.processSigChild now epoll outcome = some g) :
    Settled g.pid g.processingStatus ∧ Attended g.pid (collect h.pid outcome ps) := by
  cases hpid : h.pid with
  | none =>
    rw [processSigChild_none hpid] at hg
    cases hg
    rw [hpid] at hs hps ⊢
    exact ⟨hs, hps.collect⟩
  | some pid =>
    rw [hpid] at hps
    cases outcome with
    | error =>
      rw [processSigChild_not_ended (.inl rfl)] at hg
      cases hg
      exact ⟨hs, hpid ▸ hps⟩
    | running =>
      rw [processSigChild_not_ended (.inr rfl)] at hg
      cases hg
      exact ⟨hs, hpid ▸ hps⟩
    | exited =>
      unfold processSigChild at hg
      rw [hpid] at hg
      obtain ⟨f, hf, rfl⟩ := Option.map_eq_some_iff.mp hg
      have hgone := hps.collect_gone (.inl rfl)
      split
      · exact ⟨settled_none fun _ => rfl, attended_of_gone hgone⟩
      · exact ⟨settled_none nofun, attended_of_gone hgone⟩
    | signaled =>
      unfold processSigChild at hg
      rw [hpid] at hg
      obtain ⟨f, hf, rfl⟩ := Option.map_eq_some_iff.mp hg
      exact ⟨settled_none fun _ => rfl, attended_of_gone (hps.collect_gone (.inr rfl))⟩

theorem kill_killed (hg : h.kill epoll .killed = some g) : g.pid = none := by
  unfold kill at hg
  cases hpid : h.pid with
  | none =>
    rw [hpid] at hg
    cases hg
    exact hpid
  | some pid =>
    rw [hpid] at hg
    obtain ⟨f, -, rfl⟩ := Option.map_eq_some_iff.mp hg
    rfl

theorem shutdown_settled {databases : Bool} (hps : Attended h.pid ps)
    (hg : h.shutdown epoll .killed databases = some g) :
    Settled g.pid g.processingStatus ∧ Attended g.pid (killAndWait h.pid .killed ps) := by
  obtain ⟨f, hf, rfl⟩ := shutdown_some hg
  have hpid : f.exitShutdown.pid = none := (kill_killed hf : f.pid = none)
  rw [hpid]
  exact ⟨settled_none nofun, attended_of_gone hps.killAndWait⟩

theorem fork_settled (now : Nat) {outcome : ForkOutcome}
    (hadded : ∀ pid, outcome ≠ .addFileFails pid)
    (hs : Settled h.pid h.processingStatus) (hrequested : h.processingStatus.forkRequested = true)
    (hps : Attended h.pid ps) :
    Settled (h.fork now outcome).pid (h.fork now outcome).processingStatus
      ∧ Attended (h.fork now outcome).pid (addProcess (h.forks outcome) ps) := by
  obtain ⟨hpid, hcomplete⟩ := hs.1 hrequested
  rw [hpid] at hps
  have hgone := hps.gone
  have hfailed : ∀ f : DriveHandler, f.pid = none →
      Settled f.forkFailed.pid f.forkFailed.processingStatus ∧
        Attended f.forkFailed.pid (addProcess none ps) := by
    intro f hf
    have hf : f.forkFailed.pid = none := hf
    rw [hf]
    exact ⟨settled_none nofun, attended_addProcess hgone⟩
  unfold fork forks
  split
  · exact hfailed _ hpid
  · cases outcome with
    | socketPairFails => exact hfailed _ hpid
    | forkFails => exact hfailed _ rfl
    | addFileFails pid => exact absurd rfl (hadded pid)
    | forked pid =>
      refine ⟨⟨nofun, fun htrue => ?_⟩, attended_addProcess hgone⟩
      cases hcomplete.symm.trans htrue

theorem processTimeout_settled {outcome : KillOutcome} (hs : Settled h.pid h.processingStatus)
    (hps : Attended h.pid ps) : Settled (h.processTimeout now).pid
      (h.processTimeout now).processingStatus ∧
      Attended (h.processTimeout now).pid (sendKill h.pid outcome ps) := by
  cases hpid : h.pid with
  | none =>
    have hreset : (h.processTimeout now).pid = none := by
      unfold processTimeout
      rw [hpid]
      rfl
    rw [hpid] at hps
    rw [hreset]
    refine ⟨settled_none fun htrue => ?_, hps.sendKill⟩
    cases (processTimeout_none hpid).symm.trans htrue
  | some pid =>
    rw [processTimeout_some hpid]
    exact ⟨hs.congr rfl rfl, hpid ▸ hps.sendKill⟩

theorem processEvent_settled {received : Received} (hs : Settled h.pid h.processingStatus)
    (hps : Attended h.pid ps) (hg : h.processEvent now epoll received = some g) :
    Settled g.pid g.processingStatus ∧ Attended g.pid ps := by
  have hsame : SameProcess g h ∨ (g.pid = h.pid ∧ g.processingStatus = h.processingStatus) := by
    cases received with
    | message m =>
      cases hg
      exact .inl ((sameProcess_processMessage (h := { h with lastHeartBeatTime := now }) now m).trans
        ⟨rfl, rfl, rfl, rfl⟩)
    | disconnected => exact .inr (removeFile_some hg ▸ ⟨rfl, rfl⟩)
    | failed =>
      cases hg
      exact .inr ⟨rfl, rfl⟩
  cases hsame with
  | inl hsame =>
    rw [hsame.pid]
    exact ⟨hs.congr hsame.forkRequested hsame.shutdownComplete, hps⟩
  | inr hsame =>
    rw [hsame.1, hsame.2]
    exact ⟨hs, hps⟩

end DriveHandler

namespace MaintenanceHandler
variable {m : MaintenanceHandler}

theorem processSigChild_same {outcome : WaitOutcome}
    (hsame : m.pid = none ∨ outcome = .error ∨ outcome = .running) :
    m.processSigChild outcome = m := by
  unfold processSigChild
  cases hpid : m.pid with
  | none => rfl
  | some pid =>
    cases hsame with
    | inl hnone => cases hpid.symm.trans hnone
    | inr houtcome =>
      cases houtcome with
      | inl herror => rw [herror]
      | inr hrunning => rw [hrunning]

theorem processSigChild_settled {outcome : WaitOutcome} (hs : Settled m.pid m.processingStatus)
    (hps : Attended m.pid ps) : Settled (m.processSigChild outcome).pid
      (m.processSigChild outcome).processingStatus ∧
      Attended (m.processSigChild outcome).pid (collect m.pid outcome ps) := by
  by_cases hsame : m.pid = none ∨ outcome = .error ∨ outcome = .running
  · rw [processSigChild_same hsame]
    exact ⟨hs, hps.collect⟩
  · obtain ⟨hpid, hended⟩ := not_or.mp hsame
    obtain ⟨pid, hpid⟩ := Option.ne_none_iff_exists'.mp hpid
    have hcomplete : m.processingStatus.shutdownComplete = false := by
      refine Bool.eq_false_iff.mpr fun htrue => ?_
      cases hpid.symm.trans (hs.2 htrue)
    have hgone : ∀ p ∈ collect m.pid outcome ps, p.gone = true :=
      hps.collect_gone (by cases outcome <;> simp_all)
    have hnone : (m.processSigChild outcome).pid = none ∧
        ((m.processSigChild outcome).processingStatus.forkRequested = true →
          (m.processSigChild outcome).processingStatus.shutdownComplete = false) := by
      unfold processSigChild
      rw [hpid]
      cases outcome with
      | error | running => simp at hended
      | exited | signaled =>
        simp only
        split
        · exact ⟨rfl, nofun⟩
        · exact ⟨rfl, fun _ => hcomplete⟩
    rw [hnone.1]
    exact ⟨settled_none hnone.2, attended_of_gone hgone⟩

theorem fork_settled (outcome : MaintenanceForkOutcome) (hs : Settled m.pid m.processingStatus)
    (hrequested : m.processingStatus.forkRequested = true) (hps : Attended m.pid ps) :
    Settled (m.fork outcome).pid (m.fork outcome).processingStatus ∧
      Attended (m.fork outcome).pid (addProcess outcome.forks ps) := by
  obtain ⟨hpid, hcomplete⟩ := hs.1 hrequested
  rw [hpid] at hps
  have hgone := hps.gone
  cases outcome with
  | socketPairFails =>
    have hf : m.forkFailed.pid = none := hpid
    exact ⟨hf ▸ settled_none nofun, hf ▸ attended_addProcess hgone⟩
  | forkFails => exact ⟨settled_none nofun, attended_addProcess hgone⟩
  | forked pid =>
    refine ⟨⟨nofun, fun htrue => ?_⟩, attended_addProcess hgone⟩
    cases hcomplete.symm.trans htrue

theorem processSigChild_nextTimeout {outcome : WaitOutcome}
    (hm : m.processingStatus.nextTimeout = none) :
    (m.processSigChild outcome).processingStatus.nextTimeout = none := by
  unfold processSigChild
  cases m.pid with
  | none => exact hm
  | some pid =>
    cases outcome with
    | error | running => exact hm
    | exited | signaled =>
      simp only
      split <;> rfl

theorem fork_nextTimeout (outcome : MaintenanceForkOutcome)
    (hm : m.processingStatus.nextTimeout = none) :
    (m.fork outcome).processingStatus.nextTimeout = none := by
  cases outcome with
  | socketPairFails | forkFails => rfl
  | forked pid => exact hm

theorem shutdown_some {sends : Bool} {n : MaintenanceHandler} (hn : m.shutdown sends = some n) :
    n = { m with shutdownInProgress := true } := by
  unfold shutdown at hn
  split at hn
  · cases hn
  · exact (Option.some.inj hn).symm

end MaintenanceHandler

namespace Subprocess
variable {s t : Subprocess}

/-- The last status is the one that the handler would give. -/
def Agrees (s : Subprocess) : Prop :=
  match s.handler with
  | .drive h => Settled h.pid h.processingStatus ∧
    s.status.forkRequested = h.processingStatus.forkRequested ∧
    s.status.shutdownComplete = h.processingStatus.shutdownComplete
  | .maintenance m => Settled m.pid m.processingStatus ∧
    m.processingStatus.nextTimeout = none ∧ s.status.nextTimeout = none ∧
    s.status.forkRequested = m.processingStatus.forkRequested ∧
    s.status.shutdownComplete = m.processingStatus.shutdownComplete
  | .signal _ => True

/-- Every process that the handler forked is gone, or the handler knows it. -/
structure Cared (s : Subprocess) : Prop where
  agrees : s.Agrees
  attended : Attended s.handler.pid s.processes

theorem cared_ofDrive (h : Settled g.pid g.processingStatus ∧ Attended g.pid ps) :
    (ofDrive g ps).Cared := ⟨⟨h.1, rfl, rfl⟩, h.2⟩

theorem cared_ofMaintenance {m : MaintenanceHandler} (hm : m.processingStatus.nextTimeout = none)
    (h : Settled m.pid m.processingStatus ∧ Attended m.pid ps) : (ofMaintenance m ps).Cared :=
  ⟨⟨h.1, hm, hm, rfl, rfl⟩, h.2⟩

theorem Cared.drive {status : ProcessingStatus} (hs : Cared ⟨.drive h, status, ps⟩) :
    Settled h.pid h.processingStatus ∧ Attended h.pid ps := ⟨hs.agrees.1, hs.attended⟩

theorem Cared.maintenance {m : MaintenanceHandler} {status : ProcessingStatus}
    (hs : Cared ⟨.maintenance m, status, ps⟩) : Settled m.pid m.processingStatus ∧
      Attended m.pid ps := ⟨hs.agrees.1, hs.attended⟩

theorem Cared.gone_of_complete (hs : s.Cared) (hcomplete : s.status.shutdownComplete = true) :
    ∀ p ∈ s.processes, p.gone = true := by
  obtain ⟨handler, status, ps⟩ := s
  cases handler with
  | drive h =>
    have hpid := hs.drive.1.2 (hs.agrees.2.2.symm.trans hcomplete)
    exact Attended.gone (hpid ▸ hs.drive.2)
  | maintenance m =>
    have hpid := hs.maintenance.1.2 (hs.agrees.2.2.2.2.symm.trans hcomplete)
    exact Attended.gone (hpid ▸ hs.maintenance.2)
  | signal x => exact Attended.gone hs.attended

theorem Cared.processSigChild (hs : s.Cared) (ht : s.processSigChild a = some t) : t.Cared := by
  obtain ⟨handler, status, ps⟩ := s
  cases handler with
  | drive h =>
    obtain ⟨g, hg, rfl⟩ := Option.map_eq_some_iff.mp ht
    exact cared_ofDrive (DriveHandler.processSigChild_settled hs.drive.1 hs.drive.2 hg)
  | maintenance m =>
    cases ht
    exact cared_ofMaintenance (MaintenanceHandler.processSigChild_nextTimeout hs.agrees.2.1)
      (MaintenanceHandler.processSigChild_settled hs.maintenance.1 hs.maintenance.2)
  | signal x =>
    cases ht
    exact ⟨trivial, hs.attended⟩

theorem Cared.shutdown (hs : s.Cared) (hkill : a.kill = .killed) (ht : s.shutdown a = some t) :
    t.Cared := by
  obtain ⟨handler, status, ps⟩ := s
  cases handler with
  | drive h =>
    obtain ⟨g, hg, rfl⟩ := Option.map_eq_some_iff.mp ht
    rw [hkill] at hg ⊢
    exact cared_ofDrive (DriveHandler.shutdown_settled hs.drive.2 hg)
  | maintenance m =>
    obtain ⟨n, hn, rfl⟩ := Option.map_eq_some_iff.mp ht
    have hn := MaintenanceHandler.shutdown_some hn
    subst hn
    exact cared_ofMaintenance hs.agrees.2.1 hs.maintenance
  | signal x =>
    cases ht
    exact ⟨trivial, hs.attended⟩

theorem Cared.kill (hs : s.Cared) (hkill : a.kill = .killed) (ht : s.kill a = some t) :
    ∀ p ∈ t.processes, p.gone = true := by
  obtain ⟨handler, status, ps⟩ := s
  cases handler with
  | drive h =>
    obtain ⟨g, hg, rfl⟩ := Option.map_eq_some_iff.mp ht
    rw [hkill]
    exact hs.drive.2.killAndWait
  | maintenance m =>
    cases ht
    rw [hkill]
    exact hs.maintenance.2.killAndWait
  | signal x =>
    cases ht
    exact Attended.gone hs.attended

theorem Cared.fork (hs : s.Cared) (hadded : ∀ pid, a.fork ≠ .addFileFails pid)
    (hrequested : s.status.forkRequested = true) (ht : s.fork a = some t) : t.Cared := by
  obtain ⟨handler, status, ps⟩ := s
  cases handler with
  | drive h =>
    cases ht
    have hrequested := hs.agrees.2.1.symm.trans hrequested
    obtain ⟨hsettled, hps⟩ := DriveHandler.fork_settled a.now hadded hs.drive.1 hrequested
      hs.drive.2
    exact ⟨⟨hsettled, rfl, rfl⟩, hps⟩
  | maintenance m =>
    cases ht
    have hrequested := hs.agrees.2.2.2.1.symm.trans hrequested
    obtain ⟨hsettled, hps⟩ := MaintenanceHandler.fork_settled a.maintenanceFork
      hs.maintenance.1 hrequested hs.maintenance.2
    have htimeout := MaintenanceHandler.fork_nextTimeout a.maintenanceFork
      hs.agrees.2.1
    exact ⟨⟨hsettled, htimeout, htimeout, rfl, rfl⟩, hps⟩
  | signal x => cases ht

theorem Cared.processTimeout (hs : s.Cared) (htimeout : s.status.nextTimeout ≠ none) :
    (s.processTimeout a).Cared := by
  obtain ⟨handler, status, ps⟩ := s
  cases handler with
  | drive h => exact cared_ofDrive (DriveHandler.processTimeout_settled hs.drive.1 hs.drive.2)
  | maintenance m => exact absurd hs.agrees.2.2.1 htimeout
  | signal x => exact ⟨trivial, hs.attended⟩

theorem Cared.processEvent (hs : s.Cared) (ht : s.processEvent a = some t) : t.Cared := by
  obtain ⟨handler, status, ps⟩ := s
  cases handler with
  | drive h =>
    obtain ⟨g, hg, rfl⟩ := Option.map_eq_some_iff.mp ht
    exact cared_ofDrive (DriveHandler.processEvent_settled hs.drive.1 hs.drive.2 hg)
  | maintenance m =>
    cases ht
    exact cared_ofMaintenance hs.agrees.2.1 hs.maintenance
  | signal x =>
    cases ht
    exact ⟨trivial, hs.attended⟩

end Subprocess

theorem onEach_all {call : Subprocess → Answers → Option Subprocess} {answers : Nat → Answers}
    {P Q : Subprocess → Prop} {G : Answers → Prop}
    (hcall : ∀ s a t, P s → G a → call s a = some t → Q t) (hanswers : ∀ i, G (answers i))
    {ss ts : List Subprocess} (hss : ∀ s ∈ ss, P s) (hts : onEach call answers ss = some ts) :
    ∀ t ∈ ts, Q t := by
  induction ss generalizing answers ts with
  | nil =>
    rw [onEach, Option.some.injEq] at hts
    subst hts
    exact fun t ht => absurd ht List.not_mem_nil
  | cons s ss ih =>
    rw [onEach] at hts
    obtain ⟨t, ht, hts⟩ := Option.bind_eq_some_iff.mp hts
    obtain ⟨us, hus, rfl⟩ := Option.map_eq_some_iff.mp hts
    have hfirst := hcall s _ t (hss s List.mem_cons_self) (hanswers 0) ht
    have hrest := ih (fun i => hanswers (i + 1)) (fun s hs => hss s (List.mem_cons_of_mem _ hs)) hus
    exact List.forall_mem_cons.mpr ⟨hfirst, hrest⟩

namespace ProcessManager
variable {ss ts : List Subprocess}

def AllCared (ss : List Subprocess) : Prop := ∀ s ∈ ss, s.Cared

/-- Every process that was forked exited or was sent a kill. -/
def NoneLeft (ss : List Subprocess) : Prop := ∀ s ∈ ss, ∀ p ∈ s.processes, p.gone = true

instance (ss : List Subprocess) : Decidable (NoneLeft ss) :=
  inferInstanceAs (Decidable (∀ s ∈ ss, ∀ p ∈ s.processes, _))

/-- `kill` and `waitpid` succeed where a handler kills its process and waits for it. -/
def Kills (it : Iteration) : Prop :=
  (∀ i, (it.shutdown i).kill = .killed) ∧ ∀ i, (it.kill i).kill = .killed

/-- The socket of a process that was forked is polled. -/
def AddsFiles (it : Iteration) : Prop := ∀ i pid, (it.fork i).fork ≠ .addFileFails pid

def Progress.Fine : Progress → Prop
  | .thrown => True
  | .returned ss => NoneLeft ss
  | .goesOn ss => AllCared ss

theorem Progress.Fine.andThen {x : Progress} (hx : Fine x) {f : List Subprocess → Progress}
    (hf : ∀ ss, AllCared ss → Fine (f ss)) : Fine (x.andThen f) := by
  cases x with
  | thrown => trivial
  | returned ss => exact hx
  | goesOn ss => exact hf ss hx

theorem exitIfComplete_fine (hss : AllCared ss) : Progress.Fine (exitIfComplete ss) := by
  unfold exitIfComplete
  split
  · rename_i hall
    intro s hs
    exact (hss s hs).gone_of_complete (List.all_eq_true.mp hall s hs)
  · exact hss

theorem runSigChildManagement_fine {answers : Nat → Answers} (hss : AllCared ss) :
    Progress.Fine (runSigChildManagement answers ss) := by
  unfold runSigChildManagement
  split
  · cases hts : onEach Subprocess.processSigChild answers ss with
    | none => trivial
    | some ts =>
      exact exitIfComplete_fine (onEach_all (G := fun _ => True)
        (fun s a t hs _ ht => hs.processSigChild ht) (fun _ => trivial) hss hts)
  · exact exitIfComplete_fine hss

theorem runShutdownManagement_fine {answers : Nat → Answers} (hss : AllCared ss)
    (hkill : ∀ i, (answers i).kill = .killed) :
    Progress.Fine (runShutdownManagement answers ss) := by
  unfold runShutdownManagement
  split
  · cases hts : onEach Subprocess.shutdown answers ss with
    | none => trivial
    | some ts =>
      exact exitIfComplete_fine (onEach_all (G := fun a => a.kill = .killed)
        (fun s a t hs hkill ht => hs.shutdown hkill ht) hkill hss hts)
  · exact exitIfComplete_fine hss

theorem runKillManagement_fine {answers : Nat → Answers} (hss : AllCared ss)
    (hkill : ∀ i, (answers i).kill = .killed) : Progress.Fine (runKillManagement answers ss) := by
  unfold runKillManagement
  split
  · cases hts : onEach Subprocess.kill answers ss with
    | none => trivial
    | some ts =>
      exact onEach_all (G := fun a => a.kill = .killed)
        (fun s a t hs hkill ht => hs.kill hkill ht) hkill hss hts
  · exact hss

theorem runForkManagement_fine {answers : Nat → Answers} (hss : AllCared ss)
    (hadds : ∀ i pid, (answers i).fork ≠ .addFileFails pid) :
    Progress.Fine (runForkManagement answers ss) := by
  unfold runForkManagement
  cases hts : onEach (fun s a => if s.status.forkRequested then s.fork a else some s) answers ss with
  | none => trivial
  | some ts =>
    refine onEach_all (G := fun a => ∀ pid, a.fork ≠ .addFileFails pid)
      (fun s a t hs hadded ht => ?_) hadds hss hts
    split at ht
    · rename_i hrequested
      exact hs.fork hadded hrequested ht
    · exact Option.some.inj ht ▸ hs

theorem runTimeouts_cared (answers : Nat → Answers) (hss : AllCared ss) :
    AllCared (runTimeouts answers ss).1 := by
  induction ss generalizing answers with
  | nil => exact hss
  | cons s ss ih =>
    obtain ⟨hs, hrest⟩ := List.forall_mem_cons.mp hss
    rw [runTimeouts]
    split
    · rename_i hpast
      have ht : (s.processTimeout (answers 0)).Cared := by
        refine hs.processTimeout fun hnone => ?_
        simp [hnone] at hpast
      simp only
      split
      · exact List.forall_mem_cons.mpr ⟨ht, hrest⟩
      · exact List.forall_mem_cons.mpr ⟨ht, ih _ hrest⟩
    · exact List.forall_mem_cons.mpr ⟨hs, ih _ hrest⟩

theorem runEventLoop_fine {it : Iteration} (hss : AllCared ss) :
    Progress.Fine (runEventLoop it ss) := by
  have hts := runTimeouts_cared it.timeout hss
  unfold runEventLoop
  simp only
  split
  · exact hts
  · split
    · trivial
    · cases hus : onEach (fun s a => if a.ready && s.polled then s.processEvent a else some s)
          it.event (runTimeouts it.timeout ss).1 with
      | none => trivial
      | some us =>
        refine onEach_all (G := fun _ => True) (fun s a t hs _ ht => ?_) (fun _ => trivial) hts hus
        split at ht
        · exact hs.processEvent ht
        · exact Option.some.inj ht ▸ hs

theorem runOnce_fine {it : Iteration} (hkills : Kills it) (hadds : AddsFiles it)
    (hss : AllCared ss) : Progress.Fine (runOnce it ss) :=
  (runSigChildManagement_fine hss).andThen fun _ hss =>
    (runShutdownManagement_fine hss hkills.1).andThen fun _ hss =>
      (runKillManagement_fine hss hkills.2).andThen fun _ hss =>
        (runForkManagement_fine hss hadds).andThen fun _ hss => runEventLoop_fine hss

theorem run_fine {its : List Iteration} (hkills : ∀ it ∈ its, Kills it)
    (hadds : ∀ it ∈ its, AddsFiles it) (hss : AllCared ss) : Progress.Fine (run its ss) := by
  induction its generalizing ss with
  | nil => exact hss
  | cons it its ih =>
    obtain ⟨hkill, hkills⟩ := List.forall_mem_cons.mp hkills
    obtain ⟨hadd, hadds⟩ := List.forall_mem_cons.mp hadds
    exact (runOnce_fine hkill hadd hss).andThen fun _ hss => ih hkills hadds hss

/-- A handler before it is added to the process manager. -/
inductive New : Handler → Prop
  | drive (now : Nat) : New (.drive (.initial now))
  | maintenance : New (.maintenance .initial)
  | signal (timeoutDuration : Nat) : New (.signal { timeoutDuration := timeoutDuration })

theorem New.cared {handler : Handler} (hnew : New handler) :
    (Subprocess.addHandler handler).Cared := by
  cases hnew with
  | drive now => exact ⟨⟨settled_none fun _ => rfl, rfl, rfl⟩, nofun⟩
  | maintenance => exact ⟨⟨settled_none fun _ => rfl, rfl, rfl, rfl, rfl⟩, nofun⟩
  | signal timeoutDuration => exact ⟨trivial, nofun⟩

/-- When the process manager returns, no process that it forked is left, unless a file could not
be added to those it polls. -/
theorem none_left_of_returned {handlers : List Handler} {its : List Iteration}
    (hnew : ∀ handler ∈ handlers, New handler) (hkills : ∀ it ∈ its, Kills it)
    (hadds : ∀ it ∈ its, AddsFiles it)
    (h : run its (handlers.map Subprocess.addHandler) = .returned ss) : NoneLeft ss := by
  have hcared : AllCared (handlers.map Subprocess.addHandler) := by
    intro s hs
    obtain ⟨handler, hhandler, rfl⟩ := List.mem_map.mp hs
    exact (hnew handler hhandler).cared
  have hfine := run_fine hkills hadds hcared
  rw [h] at hfine
  exact hfine

/-- The process of a drive is forked, and its file is not added; the signal handler and the drive
handler have both completed their shutdown. -/
def fileNotAdded : List Iteration := [{ fork := fun _ => { fork := .addFileFails 7 } }, {}]

theorem process_left_without_file : (∀ it ∈ fileNotAdded, Kills it) ∧
    ¬∀ ss, run fileNotAdded ([.signal {}, .drive (.initial 0)].map Subprocess.addHandler) =
      .returned ss → NoneLeft ss := by
  refine ⟨by simp [fileNotAdded, Kills], fun h => ?_⟩
  have hreturned : (match run fileNotAdded
      ([.signal {}, .drive (.initial 0)].map Subprocess.addHandler) with
    | .returned ss => !decide (NoneLeft ss)
    | _ => false) = true := by decide +kernel
  split at hreturned
  · rename_i ss hrun
    simp [h ss hrun] at hreturned
  · cases hreturned

/-- A drive process and a maintenance process are forked, and a shutdown is requested; the first
is killed and the second exits. -/
def orderlyShutdown : List Iteration :=
  [{ fork := fun _ => { fork := .forked 7, maintenanceFork := .forked 8 }
     event := fun _ => { ready := true, signal := .SIGTERM } },
    { event := fun _ => { ready := true, signal := .SIGCHLD } },
    { sigChild := fun _ => { wait := .exited } }]

def threeHandlers : List Handler :=
  [.signal { timeoutDuration := minutes 9 }, .drive (.initial 0), .maintenance .initial]

theorem none_left_orderly_shutdown : ∃ ss,
    run orderlyShutdown (threeHandlers.map Subprocess.addHandler) = .returned ss ∧
      NoneLeft ss := by
  have hnew : ∀ handler ∈ threeHandlers, New handler :=
    List.forall_mem_cons.mpr ⟨.signal _, List.forall_mem_cons.mpr ⟨.drive 0,
      List.forall_mem_singleton.mpr .maintenance⟩⟩
  have hkills : ∀ it ∈ orderlyShutdown, Kills it := by
    simp [orderlyShutdown, Kills]
  have hadds : ∀ it ∈ orderlyShutdown, AddsFiles it := by
    simp [orderlyShutdown, AddsFiles]
  exact ⟨_, rfl, none_left_of_returned hnew hkills hadds rfl⟩

end ProcessManager

end Cta.Daemon
