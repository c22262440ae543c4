import Cta.Lib.Runs
import Mathlib.Logic.Function.Basic

/-! Agents, their register, and the collectors that take over dead agents: one step for each
commit to the store. -/
namespace Cta.ObjectStore.CleanupDeadAgent

abbrev AgentName := Nat

/-- What an ownership list points to: another agent, or an object of another type. -/
inductive Owned where
  | agent (name : AgentName)
  | other (n : Nat)
  deriving DecidableEq, Repr

inductive AgentOwner where
  | agentRegister
  | agent (name : AgentName)
  deriving DecidableEq, Repr

structure Agent where
  owner : AgentOwner
  ownedObjects : List Owned
  beingGarbageCollected : Bool
  deriving DecidableEq, Repr

def Agent.removeFromOwnership (a : Agent) (gone : List Owned) : Agent :=
  { a with ownedObjects := a.ownedObjects.filter (· ∉ gone) }

inductive Life where
  | unborn
  | registered
  | running
  | removed
  | dead
  deriving DecidableEq, Repr

/-- Where a process is in `cleanupDeadAgent`, by its last commit. The lists are of agents in
the ownership list of the dead one: still to be read without a lock, gone, owned by somebody
else, and left for `lockFetchAndUpdateOtherObjects`. -/
inductive Cleanup where
  | idle
  | added (dead : AgentName)
  | taken (dead : AgentName)
  | fetching (dead : AgentName) (toRead gone skipped others : List AgentName)
  | sorting (dead : AgentName) (skipped others : List AgentName)
  | updating (dead : AgentName) (others : List AgentName)
  | untracked (dead other : AgentName) (others : List AgentName)
  | relinquishing (dead other : AgentName) (others : List AgentName)
  | unregistering (dead : AgentName)
  | disowning (dead : AgentName)
  deriving DecidableEq, Repr

/-- `lock` says which process holds the exclusive lock of an agent object. `lockedAt` counts
the locks taken for cleanups; the code has no such count. -/
structure State where
  agents : List AgentName
  untrackedAgents : List AgentName
  objects : AgentName → Option Agent
  lock : AgentName → Option AgentName
  life : AgentName → Life
  cleanup : AgentName → Cleanup
  lockedAt : AgentName → Nat
  clock : Nat

def State.setObject (s : State) (n : AgentName) (a : Option Agent) : State :=
  { s with objects := Function.update s.objects n a }

def State.setCleanup (s : State) (c : AgentName) (k : Cleanup) : State :=
  { s with cleanup := Function.update s.cleanup c k }

def State.setLock (s : State) (n : AgentName) (holder : Option AgentName) : State :=
  { s with lock := Function.update s.lock n holder }

def State.releaseAll (s : State) (c : AgentName) : State :=
  { s with lock := fun n => if s.lock n = some c then none else s.lock n }

/-- `AgentReference::queueAndExecuteAction`: the process stops if its agent is being garbage
collected, and waits while somebody else has the lock. -/
def State.queueAndExecuteAction (s : State) (n : AgentName) (f : List Owned → List Owned) :
    Option State :=
  match s.objects n with
  | some a =>
    if s.life n = .running ∧ s.lock n = none ∧ a.beingGarbageCollected = false then
      some (s.setObject n (some { a with ownedObjects := f a.ownedObjects }))
    else none
  | none => none

def addOwned (x : Owned) (owned : List Owned) : List Owned :=
  if x ∈ owned then owned else x :: owned

def removeOwned (x : Owned) (owned : List Owned) : List Owned :=
  owned.filter (· ≠ x)

def State.registerSelf (s : State) (n : AgentName) : Option State :=
  if s.life n = .unborn then
    some { s with agents := n :: s.agents, untrackedAgents := n :: s.untrackedAgents,
                  life := Function.update s.life n .registered }
  else none

def State.insertSelf (s : State) (n : AgentName) : Option State :=
  if s.life n = .registered then
    some { s.setObject n (some ⟨.agentRegister, [], false⟩) with
      life := Function.update s.life n .running }
  else none

def State.removeAgent (s : State) (n : AgentName) : State :=
  { s with agents := s.agents.filter (· ≠ n),
           untrackedAgents := s.untrackedAgents.filter (· ≠ n) }

def State.removeSelf (s : State) (n : AgentName) : Option State :=
  match s.objects n with
  | some a =>
    if s.life n = .running ∧ s.lock n = none ∧ s.cleanup n = .idle ∧ a.ownedObjects = [] then
      some { s.setObject n none with life := Function.update s.life n .removed }
    else none
  | none => none

def State.unregisterSelf (s : State) (n : AgentName) : Option State :=
  if s.life n = .removed then
    some { s.removeAgent n with life := Function.update s.life n .dead }
  else none

/-- The dead agent is locked and belongs to the register; it is added to the ownership list
of the collector. -/
def State.addDead (s : State) (c d : AgentName) : Option State :=
  match s.objects d with
  | some a =>
    if s.cleanup c = .idle ∧ c ≠ d ∧ s.lock d = none ∧ a.owner = .agentRegister then
      (s.queueAndExecuteAction c (addOwned (.agent d))).map fun s =>
        { (s.setLock d (some c)).setCleanup c (.added d) with
          lockedAt := Function.update s.lockedAt d (s.clock + 1), clock := s.clock + 1 }
    else none
  | none => none

def State.takeDead (s : State) (c : AgentName) : Option State :=
  match s.cleanup c with
  | .added d =>
    match s.objects d with
    | some a =>
      some ((s.setObject d
        (some { a with owner := .agent c, beingGarbageCollected := true })).setCleanup c (.taken d))
    | none => none
  | _ => none

def agentsIn (owned : List Owned) : List AgentName :=
  owned.filterMap fun x => match x with
    | .agent e => some e
    | .other _ => none

def State.trackDead (s : State) (c : AgentName) : Option State :=
  match s.cleanup c with
  | .taken d =>
    match s.objects d with
    | some a =>
      if d ∈ s.agents then
        some ({ s with untrackedAgents := s.untrackedAgents.filter (· ≠ d) }.setCleanup c
          (.fetching d (agentsIn a.ownedObjects) [] [] []))
      else none
    | none => none
  | _ => none

def State.fetchOwned (s : State) (c e : AgentName) : Option State :=
  match s.cleanup c with
  | .fetching d toRead gone skipped others =>
    if e ∈ toRead then
      let toRead := toRead.filter (· ≠ e)
      some (s.setCleanup c (match s.objects e with
        | none => .fetching d toRead (e :: gone) skipped others
        | some a =>
          if a.owner = .agent d then .fetching d toRead gone skipped (others ++ [e])
          else .fetching d toRead gone (e :: skipped) others))
    else none
  | _ => none

def State.skipFetch (s : State) (c e : AgentName) : Option State :=
  match s.cleanup c with
  | .fetching d toRead gone skipped others =>
    some (s.setCleanup c (.fetching d (toRead.filter (· ≠ e)) gone skipped others))
  | _ => none

def State.commitGone (s : State) (c : AgentName) : Option State :=
  match s.cleanup c with
  | .fetching d [] gone skipped others =>
    some ((s.setObject d ((s.objects d).map fun a =>
      a.removeFromOwnership (gone.map .agent))).setCleanup c (.sorting d skipped others))
  | _ => none

def State.commitSkipped (s : State) (c : AgentName) : Option State :=
  match s.cleanup c with
  | .sorting d skipped others =>
    some ((s.setObject d ((s.objects d).map fun a =>
      a.removeFromOwnership (skipped.map .agent))).setCleanup c (.updating d others))
  | _ => none

def State.commitRequeued (s : State) (c x : Nat) : Option State :=
  match s.cleanup c with
  | .updating d others =>
    some ((s.setObject d ((s.objects d).map fun a =>
      a.removeFromOwnership [.other x])).setCleanup c (.updating d others))
  | _ => none

def State.untrackOther (s : State) (c : AgentName) : Option State :=
  match s.cleanup c with
  | .updating d (e :: others) =>
    match s.objects e with
    | some a =>
      if s.lock e = none ∧ a.owner = .agent d ∧ e ∈ s.agents then
        some (({ s with untrackedAgents :=
            if e ∈ s.untrackedAgents then s.untrackedAgents
            else s.untrackedAgents ++ [e] }.setLock e (some c)).setCleanup c
          (.untracked d e others))
      else none
    | none => none
  | _ => none

def State.returnOther (s : State) (c : AgentName) : Option State :=
  match s.cleanup c with
  | .untracked d e others =>
    match s.objects e with
    | some a =>
      some (((s.setObject e (some { a with owner := .agentRegister })).setLock e none).setCleanup c
        (.relinquishing d e others))
    | none => none
  | _ => none

def State.passOther (s : State) (c : AgentName) : Option State :=
  match s.cleanup c with
  | .updating d (e :: others) =>
    match s.objects e with
    | some a =>
      if s.lock e = none ∧ a.owner ≠ .agent d then
        some (s.setCleanup c (.relinquishing d e others))
      else none
    | none => some (s.setCleanup c (.relinquishing d e others))
  | _ => none

def State.relinquishOther (s : State) (c : AgentName) : Option State :=
  match s.cleanup c with
  | .relinquishing d e others =>
    some ((s.setObject d ((s.objects d).map fun a =>
      a.removeFromOwnership [.agent e])).setCleanup c (.updating d others))
  | _ => none

def State.removeDead (s : State) (c : AgentName) : Option State :=
  match s.cleanup c with
  | .updating d [] =>
    match s.objects d with
    | some a =>
      if a.ownedObjects = [] then
        some (((s.setObject d none).setLock d none).setCleanup c (.unregistering d))
      else none
    | none => none
  | _ => none

def State.unregisterDead (s : State) (c : AgentName) : Option State :=
  match s.cleanup c with
  | .unregistering d => some ((s.removeAgent d).setCleanup c (.disowning d))
  | _ => none

def State.disownDead (s : State) (c : AgentName) : Option State :=
  match s.cleanup c with
  | .disowning d =>
    (s.queueAndExecuteAction c (removeOwned (.agent d))).map fun s => s.setCleanup c .idle
  | _ => none

inductive Event where
  | registerSelf (n : AgentName)
  | insertSelf (n : AgentName)
  | own (n : AgentName) (x : Nat)
  | disown (n : AgentName) (x : Nat)
  | removeSelf (n : AgentName)
  | unregisterSelf (n : AgentName)
  | addDead (c d : AgentName)
  | takeDead (c : AgentName)
  | trackDead (c : AgentName)
  | fetchOwned (c e : AgentName)
  | skipFetch (c e : AgentName)
  | commitGone (c : AgentName)
  | commitSkipped (c : AgentName)
  | commitRequeued (c : AgentName) (x : Nat)
  | untrackOther (c : AgentName)
  | returnOther (c : AgentName)
  | passOther (c : AgentName)
  | relinquishOther (c : AgentName)
  | removeDead (c : AgentName)
  | unregisterDead (c : AgentName)
  | disownDead (c : AgentName)
  /-- An exception ends the cleanup. -/
  | abort (c : AgentName)
  | crash (c : AgentName)
  deriving DecidableEq, Repr

/-- `none`: the process waits for a lock, has stopped, or is somewhere else. -/
def next (s : State) : Event → Option State
  | .registerSelf n => s.registerSelf n
  | .insertSelf n => s.insertSelf n
  | .own n x => s.queueAndExecuteAction n (addOwned (.other x))
  | .disown n x => s.queueAndExecuteAction n (removeOwned (.other x))
  | .removeSelf n => s.removeSelf n
  | .unregisterSelf n => s.unregisterSelf n
  | .addDead c d => s.addDead c d
  | .takeDead c => s.takeDead c
  | .trackDead c => s.trackDead c
  | .fetchOwned c e => s.fetchOwned c e
  | .skipFetch c e => s.skipFetch c e
  | .commitGone c => s.commitGone c
  | .commitSkipped c => s.commitSkipped c
  | .commitRequeued c x => s.commitRequeued c x
  | .untrackOther c => s.untrackOther c
  | .returnOther c => s.returnOther c
  | .passOther c => s.passOther c
  | .relinquishOther c => s.relinquishOther c
  | .removeDead c => s.removeDead c
  | .unregisterDead c => s.unregisterDead c
  | .disownDead c => s.disownDead c
  | .abort c => some ((s.releaseAll c).setCleanup c .idle)
  | .crash c =>
    some { (s.releaseAll c).setCleanup c .idle with life := Function.update s.life c .dead }

def step (s : State) (e : Event) : State := (next s e).getD s

end Cta.ObjectStore.CleanupDeadAgent
