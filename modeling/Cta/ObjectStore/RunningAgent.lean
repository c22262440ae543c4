import Cta.Lib.Runs
import Mathlib.Logic.Function.Basic

/-! An agent that still works while a garbage collector cleans it up: its operations on the
queues, and `cleanupDeadAgent` on its object, one step for each commit to the store. -/
namespace Cta.ObjectStore.RunningAgent

inductive Request where
  | archiveRequest (n : Nat)
  | retrieveRequest (n : Nat)
  deriving DecidableEq, Repr

inductive Job where
  | archiveJob (request copyNb : Nat)
  | retrieveJob (request : Nat)
  deriving DecidableEq, Repr

def Job.request : Job → Request
  | .archiveJob r _ => .archiveRequest r
  | .retrieveJob r => .retrieveRequest r

def Job.isRetrieve : Job → Bool
  | .archiveJob _ _ => false
  | .retrieveJob _ => true

abbrev QueueName := Nat

inductive Owner where
  | queue (q : QueueName)
  | agent
  | otherAgent (n : Nat)
  deriving DecidableEq, Repr

/-- What the operations read of the requests and never change: the copies and the tape pool
of the jobs, and which of them have a status that implies queueing. -/
structure Requests where
  copyNbs : Nat → List Nat
  tapePool : Job → Nat
  impliesQueueing : Job → Bool

def Requests.dumpJobs (R : Requests) : Request → List Job
  | .archiveRequest r => (R.copyNbs r).map (.archiveJob r)
  | .retrieveRequest r => [.retrieveJob r]

structure Agent where
  ownership : List Request
  beingGarbageCollected : Bool
  deriving DecidableEq, Repr

def Agent.addToOwnership (a : Agent) (rs : List Request) : Agent :=
  { a with ownership := a.ownership ++ rs.filter (· ∉ a.ownership) }

def Agent.removeFromOwnership (a : Agent) (rs : List Request) : Agent :=
  { a with ownership := a.ownership.filter (· ∉ rs) }

/-- Where a thread of the agent is, by its last commit. A pop has its candidates, those whose
owner is still to be updated and those that turned out not to belong to the queue; a
`referenceAndSwitchOwnership` has the same of its elements. `unowning` has yet to take
requests off the ownership list. -/
inductive Operation where
  | idle
  | popping (q : QueueName) (candidates toUpdate failed : List Job)
  | referencing (q : QueueName) (elements toUpdate failed : List Job)
  | unowning (requests : List Request)
  deriving DecidableEq, Repr

/-- Where the collector is. `toRequeue` are the jobs that its reads without a lock found owned
by the agent and queueable; a batch has the jobs picked from these and those it adds. -/
inductive Collector where
  | watching
  | fetching (toRead gone skipped : List Request) (toRequeue : List Job)
  | sorting (skipped : List Request) (toRequeue : List Job)
  | updating (toRequeue : List Job)
  | requeueing (q : QueueName) (picked batch toUpdate failed toRequeue : List Job)
  | relinquishing (requests : List Request) (toRequeue : List Job)
  | collecting (j : Job) (q : QueueName) (toRequeue : List Job)
  | stopped
  deriving DecidableEq, Repr

def Collector.active : Collector → Bool
  | .watching | .stopped => false
  | _ => true

inductive Holder where
  | operation (i : Nat)
  | collector
  deriving DecidableEq, Repr

/-- `owner` has an entry for each existing job. `passedOver` remembers which requests the
collector took for gone or not owned; the code has no such list. -/
structure State where
  owner : Job → Option Owner
  references : QueueName → List Job
  lock : QueueName → Option Holder
  agent : Option Agent
  otherAgents : Nat → Option Agent
  processRuns : Bool
  operations : Nat → Operation
  collector : Collector
  passedOver : List Request

def State.setOwner (s : State) (j : Job) (o : Owner) : State :=
  { s with owner := Function.update s.owner j (some o) }

def State.setReferences (s : State) (q : QueueName) (js : List Job) : State :=
  { s with references := Function.update s.references q js }

def State.setLock (s : State) (q : QueueName) (h : Option Holder) : State :=
  { s with lock := Function.update s.lock q h }

def State.setOperation (s : State) (i : Nat) (o : Operation) : State :=
  { s with operations := Function.update s.operations i o }

def State.setCollector (s : State) (c : Collector) : State := { s with collector := c }

def State.setAgent (s : State) (a : Option Agent) : State := { s with agent := a }

def requestsOf (js : List Job) : List Request := js.map Job.request

def State.removeReferences (s : State) (q : QueueName) (js : List Job) : State :=
  s.setReferences q ((s.references q).filter (·.request ∉ requestsOf js))

def State.jobsToReallyAdd (s : State) (q : QueueName) (js : List Job) : List Job :=
  js.filter (·.request ∉ requestsOf (s.references q))

/-- `asyncUpdateJobOwner`, with `none` for `WrongPreviousOwner` and `NoSuchObject`. Only the
one of archive requests accepts that the job has the new owner already. -/
def State.updateJobOwner (s : State) (j : Job) (owner previousOwner : Owner) : Option State :=
  if s.owner j = some previousOwner then some (s.setOwner j owner)
  else if j.isRetrieve = false ∧ s.owner j = some owner then some s
  else none

def State.endProcess (s : State) : State :=
  { s with processRuns := false
           operations := fun _ => .idle
           lock := fun q => if s.lock q = some .collector then s.lock q else none }

/-- `AgentReference::queueAndExecuteAction`, which waits while the collector has the lock. The
process ends if the agent is being garbage collected, or is gone. -/
def State.queueAndExecuteAction (s : State) (f : Agent → Agent) (k : State → State) :
    Option State :=
  if s.collector.active then none
  else match s.agent with
    | some a =>
      if a.beingGarbageCollected then some s.endProcess
      else some (k (s.setAgent (some (f a))))
    | none => some s.endProcess

def State.locked (s : State) (r : Request) : Bool :=
  match s.collector with
  | .collecting j _ _ => j.request = r
  | _ => false

def State.pop (s : State) (i : Nat) (q : QueueName) (candidates : List Job) : Option State :=
  if s.operations i = .idle ∧ s.lock q = none ∧ ∀ j ∈ candidates, j ∈ s.references q then
    s.queueAndExecuteAction (·.addToOwnership (requestsOf candidates)) fun t =>
      (t.setLock q (some (.operation i))).setOperation i (.popping q candidates candidates [])
  else none

def State.popUpdate (s : State) (i : Nat) (j : Job) : Option State :=
  match s.operations i with
  | .popping q candidates toUpdate failed =>
    if j ∈ toUpdate ∧ s.locked j.request = false then
      match s.updateJobOwner j .agent (.queue q) with
      | some t => some (t.setOperation i (.popping q candidates (toUpdate.erase j) failed))
      | none => some (s.setOperation i (.popping q candidates (toUpdate.erase j) (j :: failed)))
    else none
  | _ => none

def State.popDereference (s : State) (i : Nat) : Option State :=
  match s.operations i with
  | .popping q candidates [] failed =>
    some (((s.removeReferences q candidates).setLock q none).setOperation i
      (if failed = [] then .idle else .unowning (requestsOf failed)))
  | _ => none

def State.reference (s : State) (i : Nat) (q : QueueName) (elements : List Job) : Option State :=
  if s.operations i = .idle ∧ s.lock q = none then
    some (((s.setReferences q (s.references q ++ elements)).setLock q
      (some (.operation i))).setOperation i (.referencing q elements elements []))
  else none

def State.referenceUpdate (s : State) (i : Nat) (j : Job) : Option State :=
  match s.operations i with
  | .referencing q elements toUpdate failed =>
    if j ∈ toUpdate ∧ s.locked j.request = false then
      match s.updateJobOwner j (.queue q) .agent with
      | some t => some (t.setOperation i (.referencing q elements (toUpdate.erase j) failed))
      | none => some (s.setOperation i (.referencing q elements (toUpdate.erase j) (j :: failed)))
    else none
  | _ => none

def transferedElements (elements failed : List Job) : List Request :=
  (requestsOf elements).filter (· ∉ requestsOf failed)

/-- The references of the failed elements are removed and the queue is released. With failures
and nothing transferred the agent's list is left alone. -/
def State.referenceEnd (s : State) (i : Nat) : Option State :=
  match s.operations i with
  | .referencing q elements [] failed =>
    some (((s.removeReferences q failed).setLock q none).setOperation i
      (if failed ≠ [] ∧ transferedElements elements failed = [] then .idle
       else .unowning (transferedElements elements failed)))
  | _ => none

def State.unown (s : State) (i : Nat) : Option State :=
  match s.operations i with
  | .unowning requests =>
    s.queueAndExecuteAction (·.removeFromOwnership requests) fun t => t.setOperation i .idle
  | _ => none

def State.mark (s : State) : Option State :=
  match s.collector, s.agent with
  | .watching, some a =>
    some ((s.setAgent (some { a with beingGarbageCollected := true })).setCollector
      (.fetching a.ownership [] [] []))
  | _, _ => none

/-- One read without a lock, and what `sortFetchedObjects` makes of it. A request whose jobs
are owned but not queueable stays as it is. -/
def State.fetchOwned (R : Requests) (s : State) (r : Request) : Option State :=
  match s.collector with
  | .fetching toRead gone skipped toRequeue =>
    if r ∈ toRead then
      let jobs := R.dumpJobs r
      let owned := jobs.filter (s.owner · = some .agent)
      if jobs.all (s.owner · = none) then
        some { s.setCollector (.fetching (toRead.erase r) (r :: gone) skipped toRequeue) with
          passedOver := r :: s.passedOver }
      else if owned = [] then
        some { s.setCollector (.fetching (toRead.erase r) gone (r :: skipped) toRequeue) with
          passedOver := r :: s.passedOver }
      else
        some (s.setCollector (.fetching (toRead.erase r) gone skipped
          (toRequeue ++ owned.filter fun j => j.isRetrieve || R.impliesQueueing j)))
    else none
  | _ => none

def State.skipFetch (s : State) (r : Request) : Option State :=
  match s.collector with
  | .fetching toRead gone skipped toRequeue =>
    some (s.setCollector (.fetching (toRead.erase r) gone skipped toRequeue))
  | _ => none

def State.removeFromOwnership (s : State) (rs : List Request) : State :=
  s.setAgent (s.agent.map (·.removeFromOwnership rs))

def State.commitGone (s : State) : Option State :=
  match s.collector with
  | .fetching [] gone skipped toRequeue =>
    some ((s.removeFromOwnership gone).setCollector (.sorting skipped toRequeue))
  | _ => none

def State.commitSkipped (s : State) : Option State :=
  match s.collector with
  | .sorting skipped toRequeue =>
    some ((s.removeFromOwnership skipped).setCollector (.updating toRequeue))
  | _ => none

def State.addReferencesIfNecessary (s : State) (q : QueueName) (js : List Job) : State :=
  (s.setReferences q (s.references q ++ s.jobsToReallyAdd q js)).setLock q (some .collector)

def Requests.jobsToAdd (R : Requests) (tapePool : Nat) (picked : List Job) : List Job :=
  picked.flatMap fun j => (R.dumpJobs j.request).filter (R.tapePool · = tapePool)

def State.requeueArchive (R : Requests) (s : State) (q : QueueName) (tapePool : Nat)
    (picked : List Job) : Option State :=
  match s.collector with
  | .updating toRequeue =>
    if s.lock q = none ∧
        ∀ j ∈ picked, j ∈ toRequeue ∧ j.isRetrieve = false ∧ R.tapePool j = tapePool then
      let batch := R.jobsToAdd tapePool picked
      some ((s.addReferencesIfNecessary q batch).setCollector
        (.requeueing q picked batch batch [] (toRequeue.filter (· ∉ picked))))
    else none
  | _ => none

def lastUses (picked toRequeue : List Job) : List Request :=
  (requestsOf picked).filter (· ∉ requestsOf toRequeue)

def State.requeueRetrieve (s : State) (q : QueueName) (picked : List Job) : Option State :=
  match s.collector with
  | .updating toRequeue =>
    if s.lock q = none ∧ ∀ j ∈ picked, j ∈ toRequeue ∧ j.isRetrieve = true then
      let left := toRequeue.filter (· ∉ picked)
      some ((s.addReferencesIfNecessary q picked).setCollector
        (if s.jobsToReallyAdd q picked = [] then .relinquishing (lastUses picked left) left
         else .requeueing q picked picked picked [] left))
    else none
  | _ => none

def State.requeueUpdate (s : State) (j : Job) : Option State :=
  match s.collector with
  | .requeueing q picked batch toUpdate failed toRequeue =>
    if j ∈ toUpdate then
      match s.updateJobOwner j (.queue q) .agent with
      | some t => some (t.setCollector
          (.requeueing q picked batch (toUpdate.erase j) failed toRequeue))
      | none => some (s.setCollector
          (.requeueing q picked batch (toUpdate.erase j) (j :: failed) toRequeue))
    else none
  | _ => none

def State.releaseQueues (s : State) : State :=
  { s with lock := fun q => if s.lock q = some .collector then none else s.lock q }

/-- The references of the failed jobs are removed. An archive queue is released here, a
retrieve queue after the commit of the agent. -/
def State.endRequeue (s : State) : Option State :=
  match s.collector with
  | .requeueing q picked _ [] failed toRequeue =>
    let t := s.removeReferences q failed
    some ((if picked.any Job.isRetrieve then t else t.releaseQueues).setCollector
      (.relinquishing (lastUses picked toRequeue) toRequeue))
  | _ => none

def State.relinquish (s : State) : Option State :=
  match s.collector with
  | .relinquishing requests toRequeue =>
    some ((s.removeFromOwnership requests).releaseQueues.setCollector (.updating toRequeue))
  | _ => none

/-- `RetrieveRequest::garbageCollect` for a request without a tape to go to, on the locked
request, up to the new reference. The owner is compared and nothing follows from it. -/
def State.garbageCollect (s : State) (j : Job) (q : QueueName) : Option State :=
  match s.collector with
  | .updating toRequeue =>
    if s.lock q = none ∧ j ∈ toRequeue ∧ j.isRetrieve = true then
      some ((s.addReferencesIfNecessary q [j]).setCollector
        (.collecting j q (toRequeue.filter (· ≠ j))))
    else none
  | _ => none

def State.garbageCollectOwner (s : State) : Option State :=
  match s.collector with
  | .collecting j q toRequeue =>
    some ((s.setOwner j (.queue q)).releaseQueues.setCollector
      (.relinquishing [j.request] toRequeue))
  | _ => none

def State.removeAgent (s : State) : Option State :=
  match s.collector, s.agent with
  | .updating [], some a =>
    if a.ownership = [] then some ((s.setAgent none).setCollector .stopped) else none
  | _, _ => none

inductive Event where
  | pop (i : Nat) (q : QueueName) (candidates : List Job)
  | popUpdate (i : Nat) (j : Job)
  | popDereference (i : Nat)
  | reference (i : Nat) (q : QueueName) (elements : List Job)
  | referenceUpdate (i : Nat) (j : Job)
  | referenceEnd (i : Nat)
  | unown (i : Nat)
  | crash
  | mark
  | fetchOwned (r : Request)
  | skipFetch (r : Request)
  | commitGone
  | commitSkipped
  | requeueArchive (q : QueueName) (tapePool : Nat) (picked : List Job)
  | requeueRetrieve (q : QueueName) (picked : List Job)
  | requeueUpdate (j : Job)
  | endRequeue
  | relinquish
  | garbageCollect (j : Job) (q : QueueName)
  | garbageCollectOwner
  | removeAgent
  /-- An exception ends the cleanup. -/
  | abort
  deriving DecidableEq, Repr

def State.whileRunning (s : State) (t : Option State) : Option State :=
  if s.processRuns then t else none

def next (R : Requests) (s : State) : Event → Option State
  | .pop i q candidates => s.whileRunning (s.pop i q candidates)
  | .popUpdate i j => s.whileRunning (s.popUpdate i j)
  | .popDereference i => s.whileRunning (s.popDereference i)
  | .reference i q elements => s.whileRunning (s.reference i q elements)
  | .referenceUpdate i j => s.whileRunning (s.referenceUpdate i j)
  | .referenceEnd i => s.whileRunning (s.referenceEnd i)
  | .unown i => s.whileRunning (s.unown i)
  | .crash => some s.endProcess
  | .mark => s.mark
  | .fetchOwned r => s.fetchOwned R r
  | .skipFetch r => s.skipFetch r
  | .commitGone => s.commitGone
  | .commitSkipped => s.commitSkipped
  | .requeueArchive q tapePool picked => s.requeueArchive R q tapePool picked
  | .requeueRetrieve q picked => s.requeueRetrieve q picked
  | .requeueUpdate j => s.requeueUpdate j
  | .endRequeue => s.endRequeue
  | .relinquish => s.relinquish
  | .garbageCollect j q => s.garbageCollect j q
  | .garbageCollectOwner => s.garbageCollectOwner
  | .removeAgent => s.removeAgent
  | .abort => some (s.releaseQueues.setCollector .stopped)

def step (R : Requests) (s : State) (e : Event) : State := (next R s e).getD s

end Cta.ObjectStore.RunningAgent
