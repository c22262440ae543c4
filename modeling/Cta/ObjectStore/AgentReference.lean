import Mathlib.Data.Finset.Sort

/-! The reference to an agent. Threads queue additions to its ownership, removals and heartbeats,
and the first thread of each queue executes all actions in it with one commit. -/
namespace Cta.ObjectStore.AgentReference
variable {α ε : Type}

@[ext] structure Agent (α : Type) where
  heartbeat : UInt64
  ownedobjects : List α
  deriving DecidableEq, Repr

inductive Action (α : Type) where
  | add (objectAddress : α)
  | addBatch (objectAddressSet : List α)
  | remove (objectAddress : α)
  | removeBatch (objectAddressSet : List α)
  | heartbeat
  deriving DecidableEq, Repr

/-- The action is one of `m_ownerShipModifyingOperations`. -/
def Action.modifies : Action α → Bool
  | heartbeat => false
  | _ => true

namespace Agent

def bumpHeartbeat (agent : Agent α) : Agent α := { agent with heartbeat := agent.heartbeat + 1 }

variable [LinearOrder α]

def getOwnershipSet (agent : Agent α) : Finset α := agent.ownedobjects.toFinset

def resetOwnership (agent : Agent α) (ownershipSet : Finset α) : Agent α :=
  { agent with ownedobjects := ownershipSet.sort }

end Agent

section
variable [LinearOrder α]

def appyAction (s : Agent α × Finset α) : Action α → Agent α × Finset α
  | .add objectAddress => (s.1, insert objectAddress s.2)
  | .addBatch objectAddressSet =>
    (s.1, objectAddressSet.foldl (fun ownershipSet oa => insert oa ownershipSet) s.2)
  | .remove objectAddress => (s.1, s.2.erase objectAddress)
  | .removeBatch objectAddressSet => (s.1, objectAddressSet.foldl Finset.erase s.2)
  | .heartbeat => (s.1.bumpHeartbeat, s.2)

/-- What is done with a fetched object. The ownership is only recorded if an action is about it. -/
def applyBatch (agent : Agent α) (actions : List (Action α)) : Agent α :=
  let ownershipModification := actions.any (·.modifies)
  let ownershipSet := if ownershipModification then agent.getOwnershipSet else ∅
  let (agent, ownershipSet) := actions.foldl appyAction (agent, ownershipSet)
  if ownershipModification then agent.resetOwnership ownershipSet else agent

def applyOne (agent : Agent α) (action : Action α) : Agent α := applyBatch agent [action]

end

/-- Calls are numbered as they enter, under `m_currentQueueMutex`. -/
structure Call (α : Type) where
  id : ℕ
  action : Action α
  deriving DecidableEq, Repr

inductive Outcome (ε : Type) where
  | committed
  | threw (e : ε)
  deriving DecidableEq, Repr

inductive Stage (α ε : Type) where
  /-- Before `futureForThisQueue.get()` has returned. -/
  | waiting
  | awake
  /-- The queue is not the listed one, which is an exception. -/
  | notListed
  /-- The queue is not listed any more. -/
  | closed
  /-- The actions are applied to what was fetched under the lock. -/
  | fetched (agent : Agent α)
  | ended (outcome : Outcome ε)
  /-- The token is passed, and these threads are left to be released. -/
  | releasing (outcome : Outcome ε) (left : List (Call α))
  | returned (outcome : Outcome ε)
  deriving DecidableEq, Repr

/-- A queue, with the promises that its thread waits for and fulfils. -/
structure ActionQueue (α ε : Type) where
  action : Call α
  queue : List (Call α)
  promiseForThisQueue : ℕ
  promiseForNextQueue : ℕ
  stage : Stage α ε
  deriving DecidableEq, Repr

def ActionQueue.calls (q : ActionQueue α ε) : List (Call α) := q.action :: q.queue

def ActionQueue.actions (q : ActionQueue α ε) : List (Action α) := q.calls.map (·.action)

/-- `agent` is in the object store. Promises are numbered, and `promises` of them were made.
`calls` entered, and `results` are what their promises were set to. -/
structure State (α ε : Type) where
  agent : Agent α
  currentQueue : Option ℕ := none
  nextQueueExecutionPromise : ℕ := 0
  promises : ℕ := 1
  fulfilled : List ℕ := [0]
  queues : List (ActionQueue α ε) := []
  calls : List (Call α) := []
  results : List (ℕ × Outcome ε) := []
  exited : Bool := false
  deriving DecidableEq, Repr

inductive Event (α ε : Type) where
  | call (action : Action α)
  | wake (k : ℕ)
  | close (k : ℕ)
  | fetch (k : ℕ)
  /-- The object is being garbage collected, and the process ends. -/
  | exit (k : ℕ)
  | commit (k : ℕ)
  /-- Anything from the lock to the commit throws. -/
  | throwing (k : ℕ) (e : ε)
  | pass (k : ℕ)
  | release (k : ℕ)
  | finish (k : ℕ)
  deriving DecidableEq, Repr

namespace State
variable (s : State α ε)

def setStage (k : ℕ) (q : ActionQueue α ε) (stage : Stage α ε) : State α ε :=
  { s with queues := s.queues.set k { q with stage := stage } }

def call (action : Action α) : Option (State α ε) :=
  let c : Call α := ⟨s.calls.length, action⟩
  match s.currentQueue with
  | some k => (s.queues[k]?).map fun q =>
    { s with
      queues := s.queues.set k { q with queue := q.queue ++ [c] }
      calls := s.calls ++ [c] }
  | none => some { s with
      currentQueue := some s.queues.length
      nextQueueExecutionPromise := s.promises
      promises := s.promises + 1
      queues := s.queues ++ [{
        action := c, queue := [], promiseForThisQueue := s.nextQueueExecutionPromise
        promiseForNextQueue := s.promises, stage := .waiting }]
      calls := s.calls ++ [c] }

def serve [LinearOrder α] (k : ℕ) (q : ActionQueue α ε) : Event α ε → Option (State α ε)
  | .wake _ =>
    match q.stage with
    | .waiting =>
      if q.promiseForThisQueue ∈ s.fulfilled then some (s.setStage k q .awake) else none
    | _ => none
  | .close _ =>
    match q.stage with
    | .awake =>
      if s.currentQueue = some k then some { s.setStage k q .closed with currentQueue := none }
      else some (s.setStage k q .notListed)
    | _ => none
  | .fetch _ =>
    match q.stage with
    | .closed => some (s.setStage k q (.fetched (applyBatch s.agent q.actions)))
    | _ => none
  | .exit _ =>
    match q.stage with
    | .closed => some { s with exited := true }
    | _ => none
  | .commit _ =>
    match q.stage with
    | .fetched agent => some { s.setStage k q (.ended .committed) with agent := agent }
    | _ => none
  | .throwing _ e =>
    match q.stage with
    | .closed | .fetched _ => some (s.setStage k q (.ended (.threw e)))
    | _ => none
  | .pass _ =>
    match q.stage with
    | .ended outcome =>
      some { s.setStage k q (.releasing outcome q.queue) with
        fulfilled := q.promiseForNextQueue :: s.fulfilled }
    | _ => none
  | .release _ =>
    match q.stage with
    | .releasing outcome (c :: left) =>
      some { s.setStage k q (.releasing outcome left) with
        results := (c.id, outcome) :: s.results }
    | _ => none
  | .finish _ =>
    match q.stage with
    | .releasing outcome [] =>
      some { s.setStage k q (.returned outcome) with
        results := (q.action.id, outcome) :: s.results }
    | _ => none
  | .call _ => none

end State

def Event.queue : Event α ε → Option ℕ
  | call _ => none
  | wake k | close k | fetch k | exit k | commit k | throwing k _ | pass k | release k
  | finish k => some k

def step [LinearOrder α] (s : State α ε) (e : Event α ε) : Option (State α ε) :=
  if s.exited then none
  else match e.queue, e with
    | none, .call action => s.call action
    | none, _ => none
    | some k, e => (s.queues[k]?).bind fun q => s.serve k q e

def run [LinearOrder α] (s : State α ε) : List (Event α ε) → Option (State α ε)
  | [] => some s
  | e :: events => (step s e).bind fun t => run t events

/-- The constructor fulfils the promise for the first queue. -/
def start (agent : Agent α) : State α ε := { agent := agent }

section
variable [LinearOrder α] {agent : Agent α} {actions : List (Action α)} {action : Action α}
  {ownershipSet : Finset α}

theorem appyAction_fst (s : Agent α × Finset α) (action : Action α) :
    (appyAction s action).1 = if action.modifies then s.1 else s.1.bumpHeartbeat := by
  cases action <;> rfl

theorem appyAction_snd_of_not_modifies (s : Agent α × Finset α) (h : action.modifies = false) :
    (appyAction s action).2 = s.2 := by
  cases action with
  | heartbeat => rfl
  | _ => cases h

theorem appyAction_snd_congr {s t : Agent α × Finset α} (h : s.2 = t.2) (action : Action α) :
    (appyAction s action).2 = (appyAction t action).2 := by
  cases action <;> simp only [appyAction, h]

theorem foldl_appyAction (actions : List (Action α)) {s t : Agent α × Finset α} :
    (s.1 = t.1 → (actions.foldl appyAction s).1 = (actions.foldl appyAction t).1) ∧
      (s.2 = t.2 → (actions.foldl appyAction s).2 = (actions.foldl appyAction t).2) := by
  induction actions generalizing s t with
  | nil => exact ⟨id, id⟩
  | cons action actions ih =>
    refine ⟨fun h => ih.1 ?_, fun h => ih.2 (appyAction_snd_congr h action)⟩
    rw [appyAction_fst, appyAction_fst, h]

theorem foldl_appyAction_of_not_modifies (h : actions.any (·.modifies) = false)
    (s : Agent α × Finset α) : (actions.foldl appyAction s).2 = s.2 := by
  induction actions generalizing s with
  | nil => rfl
  | cons action actions ih =>
    obtain ⟨haction, hactions⟩ := Bool.or_eq_false_iff.mp (List.any_cons ▸ h)
    rw [List.foldl_cons, ih hactions, appyAction_snd_of_not_modifies s haction]

theorem foldl_appyAction_ownedobjects (actions : List (Action α)) (s : Agent α × Finset α) :
    (actions.foldl appyAction s).1.ownedobjects = s.1.ownedobjects := by
  induction actions generalizing s with
  | nil => rfl
  | cons action actions ih =>
    rw [List.foldl_cons, ih, appyAction_fst]
    split <;> rfl

theorem applyBatch_heartbeat (ownershipSet : Finset α) : (applyBatch agent actions).heartbeat =
    (actions.foldl appyAction (agent, ownershipSet)).1.heartbeat := by
  simp only [applyBatch]
  split
  · change (actions.foldl appyAction (agent, agent.getOwnershipSet)).1.heartbeat = _
    exact congrArg Agent.heartbeat ((foldl_appyAction actions).1 rfl)
  · exact congrArg Agent.heartbeat ((foldl_appyAction actions).1 rfl)

theorem applyBatch_ownedobjects : (applyBatch agent actions).ownedobjects =
    if actions.any (·.modifies) then
      (actions.foldl appyAction (agent, agent.getOwnershipSet)).2.sort
    else agent.ownedobjects := by
  simp only [applyBatch]
  split
  · rfl
  · exact foldl_appyAction_ownedobjects actions _

theorem applyBatch_ownershipSet : (applyBatch agent actions).getOwnershipSet =
    (actions.foldl appyAction (agent, agent.getOwnershipSet)).2 := by
  rw [Agent.getOwnershipSet, applyBatch_ownedobjects]
  split
  · exact Finset.sort_toFinset _ _
  · rename_i hnone
    exact (foldl_appyAction_of_not_modifies (Bool.eq_false_iff.mpr hnone)
      (agent, agent.getOwnershipSet)).symm

theorem applyBatch_append (agent : Agent α) (actions : List (Action α)) (action : Action α) :
    applyBatch agent (actions ++ [action]) = applyOne (applyBatch agent actions) action := by
  have hset : (appyAction (actions.foldl appyAction (agent, agent.getOwnershipSet)) action).2 =
      (appyAction (applyBatch agent actions, (applyBatch agent actions).getOwnershipSet)
        action).2 :=
    appyAction_snd_congr applyBatch_ownershipSet.symm action
  apply Agent.ext
  · rw [applyOne, applyBatch_heartbeat ∅, applyBatch_heartbeat ∅, List.foldl_append,
      List.foldl_cons, List.foldl_nil, List.foldl_cons, List.foldl_nil, appyAction_fst,
      appyAction_fst]
    split
    · exact (applyBatch_heartbeat ∅).symm
    · exact congrArg (· + 1) (applyBatch_heartbeat ∅).symm
  · rw [applyOne, applyBatch_ownedobjects, applyBatch_ownedobjects, List.foldl_append,
      List.foldl_cons, List.foldl_nil, List.foldl_cons, List.foldl_nil, hset, List.any_append,
      List.any_cons, List.any_nil, Bool.or_false]
    by_cases haction : action.modifies = true
    · simp only [haction, Bool.or_true, if_true]
    · have hnone := Bool.eq_false_iff.mpr haction
      rw [hnone, Bool.or_false, appyAction_snd_of_not_modifies _ hnone, applyBatch_ownershipSet,
        applyBatch_ownedobjects]
      rfl

theorem applyBatch_eq_foldl (agent : Agent α) (actions : List (Action α)) :
    applyBatch agent actions = actions.foldl applyOne agent := by
  induction actions using List.reverseRecOn with
  | nil => rfl
  | append_singleton actions action ih =>
    rw [applyBatch_append, ih, List.foldl_append, List.foldl_cons, List.foldl_nil]

end

end Cta.ObjectStore.AgentReference
