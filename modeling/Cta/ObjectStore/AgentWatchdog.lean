import Cta.Lib.Runs
import Mathlib.Tactic.Linarith

/-! The watch that a garbage collector keeps on an agent: the heartbeat has to move before a timeout
is over. -/
namespace Cta.ObjectStore.AgentWatchdog
open Cta.Lib.Runs

structure GcData where
  heartbeat : Nat
  needsGC : Bool

/-- What `checkAlive` has read and not compared yet is in `newGCData`: none, if the agent is gone.
The timer is started before the heartbeat is read for the first time. -/
inductive Watchdog where
  | starting (timer timeout : Nat)
  | watching (timer timeout heartbeatCounter : Nat) (newGCData : Option (Option GcData))

structure State where
  now : Nat
  agent : Option GcData
  watchdog : Option Watchdog := none
  declaredDead : Bool := false
  lastBump : Nat
  readAt : Nat := 0
  counterReadAt : Nat := 0

inductive Event where
  | elapse (duration : Nat)
  | bumpHeartbeat
  | setNeedsGarbageCollection
  | removeAgent
  | startWatch (timeout : Nat)
  | readFirst
  | trimGoneTarget
  | read
  | compare

def checkAlive (s : State) (timer timeout heartbeatCounter : Nat) (newGCData : GcData) : State :=
  if newGCData.needsGC = true ∨
      newGCData.heartbeat = heartbeatCounter ∧ timeout < s.now - timer then
    { s with watchdog := none, declaredDead := true }
  else if newGCData.heartbeat ≠ heartbeatCounter then
    { s with watchdog := some (.watching s.now timeout newGCData.heartbeat none)
             counterReadAt := s.readAt }
  else { s with watchdog := some (.watching timer timeout heartbeatCounter none) }

def next (s : State) : Event → State
  | .elapse duration => { s with now := s.now + duration }
  | .bumpHeartbeat =>
    match s.agent with
    | some a => { s with agent := some { a with heartbeat := a.heartbeat + 1 }, lastBump := s.now }
    | none => s
  | .setNeedsGarbageCollection => { s with agent := s.agent.map ({ · with needsGC := true }) }
  | .removeAgent => { s with agent := none }
  | .startWatch timeout =>
    if s.watchdog.isNone then { s with watchdog := some (.starting s.now timeout) } else s
  | .readFirst =>
    match s.watchdog, s.agent with
    | some (.starting timer timeout), some a =>
      { s with watchdog := some (.watching timer timeout a.heartbeat none)
               counterReadAt := s.now }
    | _, _ => s
  | .trimGoneTarget => if s.agent.isNone then { s with watchdog := none } else s
  | .read =>
    match s.watchdog with
    | some (.watching timer timeout heartbeatCounter _) =>
      { s with watchdog := some (.watching timer timeout heartbeatCounter (some s.agent))
               readAt := s.now }
    | _ => s
  | .compare =>
    match s.watchdog with
    | some (.watching timer timeout heartbeatCounter (some (some newGCData))) =>
      checkAlive s timer timeout heartbeatCounter newGCData
    | some (.watching timer timeout heartbeatCounter (some none)) =>
      { s with watchdog := some (.watching timer timeout heartbeatCounter none) }
    | _ => s

def Timely (period latency : Nat) (s : State) : Event → Prop
  | .setNeedsGarbageCollection => False
  | .startWatch timeout => period + 2 * latency ≤ timeout
  | .readFirst => ∀ timer timeout, s.watchdog = some (.starting timer timeout) →
      s.now ≤ timer + latency
  | .read => s.now ≤ s.lastBump + period
  | .compare => s.now ≤ s.readAt + latency
  | _ => True

def Behind (s : State) (heartbeat readAt : Nat) : Prop :=
  ∀ a ∈ s.agent, heartbeat < a.heartbeat ∨ heartbeat = a.heartbeat ∧ s.lastBump ≤ readAt

structure Watched (period latency : Nat) (s : State) : Prop where
  alive : s.declaredDead = false
  notAsked : ∀ a ∈ s.agent, a.needsGC = false
  past : s.lastBump ≤ s.now ∧ s.readAt ≤ s.now
  timeout : ∀ timer timeout, s.watchdog = some (.starting timer timeout) →
    period + 2 * latency ≤ timeout
  counter : ∀ timer timeout c data, s.watchdog = some (.watching timer timeout c data) →
    period + 2 * latency ≤ timeout ∧ s.counterReadAt ≤ timer + latency ∧
      Behind s c s.counterReadAt
  data : ∀ timer timeout c d, s.watchdog = some (.watching timer timeout c (some (some d))) →
    d.needsGC = false ∧ Behind s d.heartbeat s.readAt ∧
      (d.heartbeat = c → s.readAt ≤ s.counterReadAt + period)

section
variable {s : State} {period latency : Nat}

theorem Behind.bump {a : GcData} {heartbeat readAt : Nat} (h : Behind s heartbeat readAt)
    (ha : s.agent = some a) :
    Behind { s with agent := some { a with heartbeat := a.heartbeat + 1 }, lastBump := s.now }
      heartbeat readAt := by
  rintro _ ⟨⟩
  obtain hlt | ⟨heq, -⟩ := h a ha
  · exact .inl (Nat.lt_succ_of_lt hlt)
  · exact .inl (heq ▸ Nat.lt_succ_self _)

theorem behind_now {a : GcData} (ha : s.agent = some a) {readAt : Nat} (h : s.lastBump ≤ readAt) :
    Behind s a.heartbeat readAt := by
  intro b hb
  obtain rfl : a = b := by simpa [ha] using hb
  exact .inr ⟨rfl, h⟩

theorem Watched.compare (h : Watched period latency s) (he : s.now ≤ s.readAt + latency)
    {timer timeout c : Nat} {d : GcData}
    (hw : s.watchdog = some (.watching timer timeout c (some (some d)))) :
    Watched period latency (checkAlive s timer timeout c d) := by
  obtain ⟨htimeout, htimer, hcounter⟩ := h.counter _ _ _ _ hw
  obtain ⟨hneeds, hbehind, hsame⟩ := h.data _ _ _ _ hw
  have hpast := h.past
  unfold checkAlive
  split_ifs with hdead hmoved
  · obtain hgc | ⟨heq, hlt⟩ := hdead
    · simp [hneeds] at hgc
    · have := hsame heq
      omega
  · refine ⟨h.alive, h.notAsked, hpast, nofun, ?_, nofun⟩
    rintro _ _ _ _ ⟨⟩
    exact ⟨htimeout, by simp only; omega, hbehind⟩
  · refine ⟨h.alive, h.notAsked, hpast, nofun, ?_, nofun⟩
    rintro _ _ _ _ ⟨⟩
    exact ⟨htimeout, htimer, hcounter⟩

theorem Watched.next (h : Watched period latency s) {e : Event} (he : Timely period latency s e) :
    Watched period latency (AgentWatchdog.next s e) := by
  have hpast := h.past
  cases e with
  | elapse duration =>
    refine ⟨h.alive, h.notAsked, ?_, h.timeout, h.counter, h.data⟩
    simp only [AgentWatchdog.next]
    omega
  | bumpHeartbeat =>
    rw [AgentWatchdog.next]
    split
    · next a ha =>
      refine ⟨h.alive, ?_, ⟨le_rfl, hpast.2⟩, h.timeout, fun _ _ _ _ hw => ?_, fun _ _ _ _ hw => ?_⟩
      · rintro _ ⟨⟩
        exact h.notAsked a ha
      · obtain ⟨htimeout, htimer, hcounter⟩ := h.counter _ _ _ _ hw
        exact ⟨htimeout, htimer, hcounter.bump ha⟩
      · obtain ⟨hneeds, hbehind, hsame⟩ := h.data _ _ _ _ hw
        exact ⟨hneeds, hbehind.bump ha, hsame⟩
    · exact h
  | setNeedsGarbageCollection => exact he.elim
  | removeAgent =>
    refine ⟨h.alive, nofun, hpast, h.timeout, fun _ _ _ _ hw => ?_, fun _ _ _ _ hw => ?_⟩
    · obtain ⟨htimeout, htimer, -⟩ := h.counter _ _ _ _ hw
      exact ⟨htimeout, htimer, nofun⟩
    · obtain ⟨hneeds, -, hsame⟩ := h.data _ _ _ _ hw
      exact ⟨hneeds, nofun, hsame⟩
  | startWatch timeout =>
    rw [AgentWatchdog.next]
    split_ifs
    · refine ⟨h.alive, h.notAsked, hpast, ?_, nofun, nofun⟩
      rintro _ _ ⟨⟩
      exact he
    · exact h
  | readFirst =>
    rw [AgentWatchdog.next]
    split
    · next timer timeout a hw ha =>
      refine ⟨h.alive, h.notAsked, hpast, nofun, ?_, nofun⟩
      rintro _ _ _ _ ⟨⟩
      exact ⟨h.timeout _ _ hw, he _ _ hw, behind_now ha hpast.1⟩
    · exact h
  | trimGoneTarget =>
    rw [AgentWatchdog.next]
    split_ifs
    · exact ⟨h.alive, h.notAsked, hpast, nofun, nofun, nofun⟩
    · exact h
  | read =>
    rw [AgentWatchdog.next]
    split
    · next timer timeout c _ hw =>
      obtain ⟨htimeout, htimer, hcounter⟩ := h.counter _ _ _ _ hw
      refine ⟨h.alive, h.notAsked, ⟨hpast.1, le_rfl⟩, nofun, ?_, ?_⟩
      · rintro _ _ _ _ ⟨⟩
        exact ⟨htimeout, htimer, hcounter⟩
      · intro _ _ _ d hd
        simp only [Option.some.injEq, Watchdog.watching.injEq] at hd
        obtain ⟨rfl, rfl, rfl, hd⟩ := hd
        refine ⟨h.notAsked d hd, behind_now hd hpast.1, fun heq => ?_⟩
        obtain hlt | ⟨-, hbump⟩ := hcounter d hd
        · omega
        · exact he.trans (Nat.add_le_add_right hbump _)
    · exact h
  | compare =>
    rw [AgentWatchdog.next]
    split
    · next hw => exact h.compare he hw
    · next timer timeout c hw =>
      refine ⟨h.alive, h.notAsked, hpast, nofun, ?_, nofun⟩
      rintro _ _ _ _ ⟨⟩
      exact h.counter _ _ _ _ hw
    · exact h

/-- An agent that moves its heartbeat in time is not declared dead. -/
theorem timely_not_declaredDead {now : Nat} {agent : GcData} (ha : agent.needsGC = false)
    {events : List Event}
    (h : AllSteps AgentWatchdog.next (Timely period latency)
      { now, agent := some agent, lastBump := now } events) :
    AllStates AgentWatchdog.next (·.declaredDead = false)
      { now, agent := some agent, lastBump := now } events := by
  refine h.allStates (I := Watched period latency) (fun _ _ hi he => hi.next he)
    (fun _ hi => hi.alive) ?_
  refine ⟨rfl, ?_, ⟨le_rfl, Nat.zero_le _⟩, nofun, nofun, nofun⟩
  rintro _ ⟨⟩
  exact ha

theorem timely_not_declaredDead_once : AllStates AgentWatchdog.next (·.declaredDead = false)
    ⟨0, some ⟨3, false⟩, none, false, 0, 0, 0⟩
    [.startWatch 30, .elapse 2, .readFirst, .elapse 18, .bumpHeartbeat, .elapse 19, .read,
      .compare] := by
  refine timely_not_declaredDead rfl (show AllSteps _ (Timely 20 5) _ _ from
    ⟨(by decide : 20 + 2 * 5 ≤ 30), trivial, ?_, trivial, trivial, trivial,
      (by decide : 39 ≤ 20 + 20), (by decide : 39 ≤ 39 + 5), trivial⟩)
  rintro _ _ ⟨⟩
  decide

def Seen (timer timeout heartbeat : Nat) (s : State) : Prop :=
  s.declaredDead = true ∨ (∃ a, s.agent = some a ∧ a.heartbeat = heartbeat) ∧
    ∃ data, s.watchdog = some (.watching timer timeout heartbeat data) ∧
      ∀ d, data = some d → ∃ a, d = some a ∧ a.heartbeat = heartbeat

def Silent : Event → Prop
  | .bumpHeartbeat | .removeAgent => False
  | _ => True

theorem declaredDead_next (h : s.declaredDead = true) (e : Event) :
    (AgentWatchdog.next s e).declaredDead = true := by
  cases e <;> simp only [AgentWatchdog.next, checkAlive]
  all_goals (repeat' split) <;> simp [h]

theorem Seen.next {timer timeout heartbeat : Nat} (h : Seen timer timeout heartbeat s) {e : Event}
    (he : Silent e) : Seen timer timeout heartbeat (AgentWatchdog.next s e) := by
  obtain hdead | ⟨⟨a, ha, hbeat⟩, data, hw, hdata⟩ := h
  · exact .inl (declaredDead_next hdead e)
  · cases e with
    | bumpHeartbeat | removeAgent => exact he.elim
    | elapse duration => exact .inr ⟨⟨a, ha, hbeat⟩, data, hw, hdata⟩
    | setNeedsGarbageCollection =>
      have ha' : (AgentWatchdog.next s .setNeedsGarbageCollection).agent =
          some { a with needsGC := true } := by simp [AgentWatchdog.next, ha]
      exact .inr ⟨⟨_, ha', hbeat⟩, data, hw, hdata⟩
    | startWatch _ | readFirst | trimGoneTarget =>
      simpa [AgentWatchdog.next, hw, ha] using .inr ⟨⟨a, ha, hbeat⟩, data, hw, hdata⟩
    | read =>
      simp only [AgentWatchdog.next, hw]
      exact .inr ⟨⟨a, ha, hbeat⟩, _, rfl, fun d hd => ⟨a, by simpa [ha] using hd.symm, hbeat⟩⟩
    | compare =>
      cases data with
      | none => simpa [AgentWatchdog.next, hw] using .inr ⟨⟨a, ha, hbeat⟩, none, hw, hdata⟩
      | some d =>
        obtain ⟨b, rfl, hb⟩ := hdata d rfl
        simp only [AgentWatchdog.next, hw, checkAlive, hb, ne_eq, not_true_eq_false, if_false]
        split_ifs
        · exact .inl rfl
        · exact .inr ⟨⟨a, ha, hbeat⟩, none, rfl, nofun⟩

/-- Once the watchdog has seen its last heartbeat, an agent that stops is declared dead by the first
check after the timeout. -/
theorem silent_declaredDead {timer timeout heartbeat : Nat} {events : List Event}
    (h : Seen timer timeout heartbeat s) (he : ∀ e ∈ events, Silent e)
    (hlate : timeout < (events.foldl AgentWatchdog.next s).now - timer) :
    ((events ++ [Event.read, Event.compare]).foldl AgentWatchdog.next s).declaredDead = true := by
  have hseen : Seen timer timeout heartbeat (events.foldl AgentWatchdog.next s) := by
    clear hlate
    induction events generalizing s with
    | nil => exact h
    | cons e events ih =>
      exact ih (h.next (he e List.mem_cons_self)) fun e' he' => he e' (List.mem_cons_of_mem e he')
  rw [List.foldl_append]
  obtain hdead | ⟨⟨a, ha, hbeat⟩, data, hw, -⟩ := hseen
  · exact declaredDead_next (declaredDead_next hdead .read) .compare
  · simp [AgentWatchdog.next, hw, ha, checkAlive, hbeat, hlate]

theorem silent_declaredDead_twice :
    ((([.read, .elapse 5] : List Event) ++ [Event.read, Event.compare]).foldl AgentWatchdog.next
      ⟨28, some ⟨3, false⟩, some (.watching 2 30 3 none), false, 2, 2, 2⟩).declaredDead = true :=
  silent_declaredDead (.inr ⟨⟨_, rfl, rfl⟩, none, rfl, nofun⟩)
    (by simp [Silent]) (by decide : 30 < 28 + 5 - 2)

end

end Cta.ObjectStore.AgentWatchdog
