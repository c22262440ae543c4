import Mathlib.Data.Nat.Notation
import Mathlib.Logic.Function.Basic

/-! The queues in memory that threads share to add requests to a queue of the object store. The
thread that makes one adds all the requests in it, and all of them hold the lock afterwards. -/
namespace Cta.Scheduler.MemQueues
variable {ι ε : Type}

structure MemQueueRequest (ι : Type) where
  id : ℕ
  queueIndex : ι
  deriving DecidableEq, Repr

/-- What a call comes to: it returns the `SharedQueueLock` of its batch, or it throws what the batch
did, or one of the exceptions of `sharedAddToNewQueue` itself. -/
inductive Outcome (ε : Type) where
  | returned
  | threw (e : ε)
  | internal (message : String)
  deriving DecidableEq, Repr

inductive Reached where
  | unlocked | locked | added
  deriving DecidableEq, Repr

structure StoreFailure (ε : Type) where
  exception : ε
  reached : Reached
  deriving DecidableEq, Repr

inductive Stage (ι ε : Type) where
  /-- Before `futureFromPredecessor.get()` has returned. -/
  | waiting
  | awake
  /-- One of the checks has thrown. -/
  | broken (message : String)
  /-- The queue is not listed any more. -/
  | adding (reached : Reached)
  /-- The jobs are added, and these threads are left to be released. -/
  | releasing (left : List (MemQueueRequest ι))
  | returned
  /-- The destructor has unlocked the object and set the promise, and takes the global mutex. -/
  | trimming
  | finished
  /-- The exception destroys the `SharedQueueLock`. -/
  | unwinding (failure : StoreFailure ε)
  | unwindingTrim (failure : StoreFailure ε)
  | propagating (failure : StoreFailure ε) (left : List (MemQueueRequest ι))
  | threw (failure : StoreFailure ε)
  deriving DecidableEq, Repr

/-- A queue, with the call that made it and the future of its predecessor. `holders` are the calls
whose callers have a reference to the `SharedQueueLock`. -/
structure MemQueue (ι ε : Type) where
  queueIndex : ι
  request : MemQueueRequest ι
  m_requests : List (MemQueueRequest ι)
  futureFromPredecessor : Option ℕ
  stage : Stage ι ε
  holders : List ℕ
  deriving DecidableEq, Repr

def MemQueue.calls (q : MemQueue ι ε) : List (MemQueueRequest ι) := q.request :: q.m_requests

def Stage.fulfilled : Stage ι ε → Bool
  | trimming | finished | unwindingTrim _ | propagating .. | threw _ => true
  | _ => false

/-- Queues are numbered, and promises and futures are those of the queue with the number. `jobs` are
those that `addJobsAndCommit` was given, `calls` those that entered, and `results` what they came
to. -/
structure State (ι ε : Type) where
  g_queues : ι → Option ℕ := fun _ => none
  g_promises : ι → Option ℕ := fun _ => none
  g_futures : ι → Option ℕ := fun _ => none
  queues : List (MemQueue ι ε) := []
  calls : List (MemQueueRequest ι) := []
  jobs : List (MemQueueRequest ι) := []
  results : List (ℕ × Outcome ε) := []
  exited : Bool := false

inductive Event (ι ε : Type) where
  | call (queueIndex : ι)
  | wake (k : ℕ)
  | close (k : ℕ)
  | lock (k : ℕ)
  | add (k : ℕ)
  /-- Anything from the lock to the last log message throws. -/
  | throwing (k : ℕ) (e : ε)
  | succeed (k : ℕ)
  | release (k : ℕ)
  | finish (k : ℕ)
  /-- The caller of this call lets the `SharedQueueLock` go. -/
  | drop (k : ℕ) (id : ℕ)
  | destroy (k : ℕ)
  /-- The object cannot be unlocked: the destructor throws, and the process ends. -/
  | terminate (k : ℕ)
  | trim (k : ℕ)
  | propagate (k : ℕ)
  | rethrow (k : ℕ)
  deriving DecidableEq, Repr

namespace State
variable (s : State ι ε)

def setStage (k : ℕ) (q : MemQueue ι ε) (stage : Stage ι ε) : State ι ε :=
  { s with queues := s.queues.set k { q with stage := stage } }

variable [DecidableEq ι]

def sharedAddToNewQueue (c : MemQueueRequest ι) : State ι ε :=
  let s := { s with calls := s.calls ++ [c] }
  let broken (message : String) : State ι ε :=
    { s with results := (c.id, .internal message) :: s.results }
  if (s.g_queues c.queueIndex).isSome then
    broken "In MemQueue::sharedAddToNewQueue(): the queue is present, while it should not!"
  else
    let k := s.queues.length
    let q : MemQueue ι ε := ⟨c.queueIndex, c, [], none, .waiting, []⟩
    let listed (q : MemQueue ι ε) (s : State ι ε) : State ι ε := { s with
      g_queues := Function.update s.g_queues c.queueIndex (some k), queues := s.queues ++ [q] }
    let promised (s : State ι ε) : State ι ε := { s with
      g_promises := Function.update s.g_promises c.queueIndex (some k)
      g_futures := Function.update s.g_futures c.queueIndex (some k) }
    match s.g_promises c.queueIndex, s.g_futures c.queueIndex with
    | some _, none =>
      let message := "In MemQueue::sharedAddToNewQueue(): the future is not present, while it " ++
        "should!"
      listed { q with stage := .broken message } (broken message)
    | some _, some predecessor =>
      promised (listed { q with futureFromPredecessor := some predecessor } s)
    | none, _ => promised (listed q s)

def sharedAddToQueue (queueIndex : ι) : Option (State ι ε) :=
  let c : MemQueueRequest ι := ⟨s.calls.length, queueIndex⟩
  match s.g_queues queueIndex with
  | none => some (s.sharedAddToNewQueue c)
  | some k => (s.queues[k]?).map fun q => { s with
      queues := s.queues.set k { q with m_requests := q.m_requests ++ [c] }
      calls := s.calls ++ [c] }

def ready (q : MemQueue ι ε) : Bool :=
  match q.futureFromPredecessor with
  | none => true
  | some predecessor => (s.queues[predecessor]?).any (·.stage.fulfilled)

def close (k : ℕ) (q : MemQueue ι ε) : State ι ε :=
  let broken (message : String) : State ι ε :=
    { s.setStage k q (.broken message) with
      results := (q.request.id, .internal message) :: s.results }
  match s.g_queues q.queueIndex with
  | none => broken "In MemQueue::sharedAddToNewQueue(): the queue is not present, while it should!"
  | some listed =>
    if listed = k then { s.setStage k q (.adding .unlocked) with
      g_queues := Function.update s.g_queues q.queueIndex none }
    else broken "In MemQueue::sharedAddToNewQueue(): the queue is not ours, while it should!"

def trim (k : ℕ) (queueIndex : ι) : State ι ε :=
  if s.g_promises queueIndex = some k then { s with
    g_futures := Function.update s.g_futures queueIndex none
    g_promises := Function.update s.g_promises queueIndex none }
  else s

def serve (k : ℕ) (q : MemQueue ι ε) : Event ι ε → Option (State ι ε)
  | .wake _ =>
    match q.stage with
    | .waiting => if s.ready q then some (s.setStage k q .awake) else none
    | _ => none
  | .close _ =>
    match q.stage with
    | .awake => some (s.close k q)
    | _ => none
  | .lock _ =>
    match q.stage with
    | .adding .unlocked => some (s.setStage k q (.adding .locked))
    | _ => none
  | .add _ =>
    match q.stage with
    | .adding .locked =>
      some { s.setStage k q (.adding .added) with jobs := s.jobs ++ q.calls }
    | _ => none
  | .throwing _ e =>
    match q.stage with
    | .adding reached => some (s.setStage k q (.unwinding ⟨e, reached⟩))
    | _ => none
  | .succeed _ =>
    match q.stage with
    | .adding .added => some (s.setStage k q (.releasing q.m_requests))
    | _ => none
  | .release _ =>
    match q.stage with
    | .releasing (c :: left) =>
      some { s.setStage k { q with holders := c.id :: q.holders } (.releasing left) with
        results := (c.id, .returned) :: s.results }
    | _ => none
  | .finish _ =>
    match q.stage with
    | .releasing [] =>
      some { s.setStage k { q with holders := q.request.id :: q.holders } .returned with
        results := (q.request.id, .returned) :: s.results }
    | _ => none
  | .drop _ id =>
    if id ∈ q.holders then
      some (s.setStage k { q with holders := q.holders.erase id } q.stage)
    else none
  | .destroy _ =>
    match q.stage with
    | .returned => if q.holders = [] then some (s.setStage k q .trimming) else none
    | .unwinding failure =>
      -- without a lock, the maps are not trimmed
      if failure.reached = .unlocked then
        some (s.setStage k q (.propagating failure q.m_requests))
      else some (s.setStage k q (.unwindingTrim failure))
    | _ => none
  | .terminate _ =>
    match q.stage with
    | .returned => if q.holders = [] then some { s with exited := true } else none
    | .unwinding failure =>
      if failure.reached = .unlocked then none else some { s with exited := true }
    | _ => none
  | .trim _ =>
    match q.stage with
    | .trimming => some ((s.trim k q.queueIndex).setStage k q .finished)
    | .unwindingTrim failure =>
      some ((s.trim k q.queueIndex).setStage k q (.propagating failure q.m_requests))
    | _ => none
  | .propagate _ =>
    match q.stage with
    | .propagating failure (c :: left) =>
      some { s.setStage k q (.propagating failure left) with
        results := (c.id, .threw failure.exception) :: s.results }
    | _ => none
  | .rethrow _ =>
    match q.stage with
    | .propagating failure [] =>
      some { s.setStage k q (.threw failure) with
        results := (q.request.id, .threw failure.exception) :: s.results }
    | _ => none
  | .call _ => none

end State

def Event.queue : Event ι ε → Option ℕ
  | call _ => none
  | wake k | close k | lock k | add k | throwing k _ | succeed k | release k | finish k | drop k _
  | destroy k | terminate k | trim k | propagate k | rethrow k => some k

def step [DecidableEq ι] (s : State ι ε) (e : Event ι ε) : Option (State ι ε) :=
  if s.exited then none
  else match e.queue, e with
    | none, .call queueIndex => s.sharedAddToQueue queueIndex
    | none, _ => none
    | some k, e => (s.queues[k]?).bind fun q => s.serve k q e

def run [DecidableEq ι] (s : State ι ε) : List (Event ι ε) → Option (State ι ε)
  | [] => some s
  | e :: events => (step s e).bind fun t => run t events

end Cta.Scheduler.MemQueues
