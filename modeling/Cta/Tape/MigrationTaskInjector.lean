import Cta.Lib.Runs
import Cta.Scheduler.ArchiveMount
import Mathlib.Algebra.Ring.Nat

/-! How a migration session gets its work: the injector's thread and the disk readers. -/
namespace Cta.Tape.MigrationTaskInjector
open Cta.Scheduler.ArchiveMount (ArchiveJob)
open Cta.Lib.Runs

structure Config where
  maxFiles : Nat
  maxBytes : Nat
  nbThread : Nat

structure Request where
  filesRequested : Nat
  bytesRequested : Nat
  lastCall : Bool
  isEnd : Bool
  deriving DecidableEq, Repr

def Request.finish : Request := ⟨0, 0, true, true⟩

/-- Where `WorkerThread::run` is: before it looks at the error flag, in `pop`, behind it, pushing
the tasks of a batch (and whether the session ends then), pushing end markers, or in the loop that
discards requests. -/
inductive Worker where
  | checking
  | waiting
  | gotRequest (req : Request)
  | injecting (jobs : List ArchiveJob) (ends : Bool)
  | signalling (markers : Nat)
  | draining
  | finished
  deriving DecidableEq, Repr

/-- Where `DiskReadWorkerThread::run` is: in `popGetSize`, with what it popped and the number of
tasks that were left then, with a task, or behind the loop. -/
inductive Reader where
  | popping
  | popped (value : Option ArchiveJob) (remaining : Nat)
  | executing (job : ArchiveJob)
  | ending
  | ended
  deriving DecidableEq, Repr

structure State where
  worker : Worker
  requests : List Request
  diskTasks : List (Option ArchiveJob)
  readers : List Reader
  nbActiveThread : Nat
  tapeTasks : List (Option ArchiveJob)
  errorFlag : Bool
  tapeCleaned : Bool
  deriving DecidableEq, Repr

variable (c : Config)

def State.requestInjection (s : State) (lastCall : Bool) : State :=
  { s with requests := s.requests ++ [⟨c.maxFiles, c.maxBytes, lastCall, false⟩] }

def State.pushTasks (s : State) (job : ArchiveJob) : State :=
  { s with tapeTasks := s.tapeTasks ++ [some job]
           diskTasks := if job.fileSize ≠ 0 then s.diskTasks ++ [some job] else s.diskTasks }

def injectBulkMigrations (s : State) (jobs : List ArchiveJob) : State :=
  jobs.foldl State.pushTasks s

/-- The session before its threads start, if there is something to migrate. -/
def synchronousInjection (batch : Option (List ArchiveJob)) : Option State :=
  match batch with
  | none | some [] => none
  | some jobs =>
    some (injectBulkMigrations
      ⟨.checking, [], [], List.replicate c.nbThread .popping, c.nbThread, [], false, false⟩ jobs)

def State.signalEndDataMovement (s : State) : State :=
  { s with tapeTasks := s.tapeTasks ++ [none], worker := .signalling c.nbThread }

def bytes (jobs : List ArchiveJob) : Nat := (jobs.map (·.fileSize)).sum % 2 ^ 64

def endsSession (req : Request) (jobs : List ArchiveJob) : Bool :=
  if jobs = [] then req.lastCall
  else jobs.length < req.filesRequested / 2 && bytes jobs < req.bytesRequested

def State.gotBatch (s : State) (req : Request) : Option (List ArchiveJob) → State
  | none => s.signalEndDataMovement c
  | some [] =>
    if endsSession req [] then s.signalEndDataMovement c else { s with worker := .checking }
  | some jobs => { s with worker := .injecting jobs (endsSession req jobs) }

inductive Event where
  /-- A task of the session fails. -/
  | setErrorFlag
  /-- The worker goes on. -/
  | worker
  /-- `getNextJobBatch` returns, or throws. -/
  | nextJobBatch (batch : Option (List ArchiveJob))
  | reader (i : Nat)
  /-- The tape writer's cleaning begins: it popped the end marker, or failed. -/
  | tapeCleaning
  deriving DecidableEq, Repr

def State.workerStep (s : State) : State :=
  match s.worker with
  | .checking =>
    if s.errorFlag then s.signalEndDataMovement c else { s with worker := .waiting }
  | .waiting =>
    match s.requests with
    | [] => s
    | req :: requests => { s with worker := .gotRequest req, requests := requests }
  | .gotRequest _ => s
  | .injecting [] ends =>
    if ends then s.signalEndDataMovement c else { s with worker := .checking }
  | .injecting (job :: jobs) ends => { s.pushTasks job with worker := .injecting jobs ends }
  | .signalling 0 => { s with worker := .draining }
  | .signalling (n + 1) =>
    { s with diskTasks := s.diskTasks ++ [none], worker := .signalling n }
  | .draining =>
    match s.requests with
    | [] => s
    | req :: requests =>
      { s with worker := if req.isEnd then .finished else .draining, requests := requests }
  | .finished => s

def State.requestMore (s : State) (remaining : Nat) : State :=
  if remaining = 0 then s.requestInjection c true
  else if remaining + 1 = c.maxFiles / 2 then s.requestInjection c false
  else s

def State.readerStep (s : State) (i : Nat) : Reader → State
  | .popping =>
    match s.diskTasks with
    | [] => s
    | value :: tasks =>
      { s with diskTasks := tasks, readers := s.readers.set i (.popped value tasks.length) }
  | .popped value remaining =>
    let reader := match value with
      | some job => .executing job
      | none => .ending
    { s.requestMore c remaining with readers := s.readers.set i reader }
  | .executing _ => { s with readers := s.readers.set i .popping }
  | .ending =>
    -- the last thread turns off the light
    { s with readers := s.readers.set i .ended
             nbActiveThread := s.nbActiveThread - 1
             requests := if s.nbActiveThread - 1 = 0 then s.requests ++ [.finish] else s.requests }
  | .ended => s

def next (s : State) : Event → State
  | .setErrorFlag => { s with errorFlag := true }
  | .worker => s.workerStep c
  | .nextJobBatch batch =>
    match s.worker with
    | .gotRequest req => s.gotBatch c req batch
    | _ => s
  | .reader i =>
    match s.readers[i]? with
    | some r => s.readerStep c i r
    | none => s
  | .tapeCleaning =>
    if s.tapeCleaned then s
    else { s with tapeCleaned := true, requests := s.requests ++ [.finish] }

def Reader.busy : Reader → Bool
  | .popped _ _ | .executing _ => true
  | _ => false

/-- While the worker waits for a request and has not signalled the end, some task or end marker is
queued or running, or a request is pending. -/
def NotStalled (s : State) : Prop :=
  s.worker = .waiting →
    s.diskTasks ≠ [] ∨ (∃ r ∈ s.readers, r.busy = true) ∨ s.requests ≠ []

def Reader.requests : Reader → Bool
  | .popped _ remaining => remaining = 0 || remaining + 1 = c.maxFiles / 2
  | _ => false

/-- A task is queued, a request is pending, or a reader is about to make one. -/
def Live (s : State) : Prop :=
  s.diskTasks ≠ [] ∨ s.requests ≠ [] ∨ ∃ r ∈ s.readers, r.requests c = true

def HasDiskTask (jobs : List ArchiveJob) : Prop := ∃ job ∈ jobs, job.fileSize ≠ 0

/-- A batch that does not end the session has a file that is not empty, or something else is left
to do. -/
def Proper (s : State) : Event → Prop
  | .nextJobBatch (some jobs) => ∀ req, s.worker = .gotRequest req →
      endsSession req jobs = true ∨ HasDiskTask jobs ∨ Live c s
  | _ => True

variable {c} {s : State}

theorem live_diskTask (h : s.diskTasks ≠ []) : Live c s := .inl h

theorem live_request (h : s.requests ≠ []) : Live c s := .inr (.inl h)

def Fed (c : Config) (s : State) : Prop :=
  match s.worker with
  | .checking | .waiting => Live c s
  | .injecting jobs ends => ends = true ∨ HasDiskTask jobs ∨ Live c s
  | _ => True

theorem notStalled_of_fed (h : Fed c s) : NotStalled s := by
  intro hwaiting
  unfold Fed at h
  rw [hwaiting] at h
  cases h with
  | inl h => exact .inl h
  | inr h =>
    cases h with
    | inl h => exact .inr (.inr h)
    | inr h =>
      obtain ⟨r, hr, hbusy⟩ := h
      refine .inr (.inl ⟨r, hr, ?_⟩)
      cases r with
      | popped value remaining => rfl
      | _ => cases hbusy

theorem Fed.of_live {s' : State} (h : Fed c s) (hworker : s'.worker = s.worker)
    (hlive : Live c s → Live c s') : Fed c s' := by
  unfold Fed at *
  rw [hworker]
  cases hw : s.worker with
  | checking =>
    rw [hw] at h
    exact hlive h
  | waiting =>
    rw [hw] at h
    exact hlive h
  | injecting jobs ends =>
    rw [hw] at h
    exact h.imp_right (Or.imp_right hlive)
  | _ => trivial

theorem set_requests {i : Nat} {r r' : Reader} (hr : s.readers[i]? = some r)
    (h : ∃ x ∈ s.readers, x.requests c = true) (hnot : r.requests c = false) :
    ∃ x ∈ s.readers.set i r', x.requests c = true := by
  obtain ⟨x, hx, hrequests⟩ := h
  obtain ⟨j, hj⟩ := List.getElem?_of_mem hx
  have hij : i ≠ j := by
    rintro rfl
    have hsame : r = x := Option.some.inj (hr.symm.trans hj)
    rw [hsame, hrequests] at hnot
    cases hnot
  refine ⟨x, List.mem_of_getElem? (i := j) ?_, hrequests⟩
  rw [List.getElem?_set_ne hij]
  exact hj

theorem set_self {i : Nat} {r r' : Reader} (hr : s.readers[i]? = some r) :
    r' ∈ s.readers.set i r' := by
  have hlt := (List.getElem?_eq_some_iff.mp hr).1
  exact List.mem_of_getElem? (i := i) (List.getElem?_set_self hlt)

theorem requestMore_requests (remaining : Nat)
    (h : (Reader.popped none remaining).requests c = true) :
    (s.requestMore c remaining).requests ≠ [] := by
  unfold State.requestMore
  simp only [Reader.requests, Bool.or_eq_true, decide_eq_true_eq] at h
  split
  · simp [State.requestInjection]
  · next hne =>
    rw [if_pos (h.resolve_left hne)]
    simp [State.requestInjection]

theorem live_of_same {s' : State} (h : Live c s) (htasks : s'.diskTasks = s.diskTasks)
    (hrequests : s'.requests = s.requests) (hreaders : s'.readers = s.readers) : Live c s' := by
  unfold Live at *
  rw [htasks, hrequests, hreaders]
  exact h

theorem pushTasks_live (job : ArchiveJob) (h : job.fileSize ≠ 0 ∨ Live c s) :
    Live c (s.pushTasks job) := by
  unfold State.pushTasks
  by_cases hsize : job.fileSize ≠ 0
  · exact live_diskTask (by simp [hsize])
  · exact live_of_same (h.resolve_left hsize) (if_neg hsize) rfl rfl

theorem injectBulkMigrations_live (jobs : List ArchiveJob) (h : HasDiskTask jobs ∨ Live c s) :
    Live c (injectBulkMigrations s jobs) := by
  induction jobs generalizing s with
  | nil => exact h.resolve_left (by simp [HasDiskTask])
  | cons job jobs ih =>
    refine ih ?_
    cases h with
    | inl h =>
      obtain ⟨j, hj, hsize⟩ := h
      cases List.mem_cons.mp hj with
      | inl hj => exact .inr (pushTasks_live job (.inl (hj ▸ hsize)))
      | inr hj => exact .inl ⟨j, hj, hsize⟩
    | inr h => exact .inr (pushTasks_live job (.inr h))

theorem workerStep_fed (h : Fed c s) : Fed c (s.workerStep c) := by
  unfold State.workerStep
  unfold Fed at h
  cases hw : s.worker with
  | checking =>
    rw [hw] at h
    simp only
    split
    · trivial
    · exact live_of_same h rfl rfl rfl
  | waiting =>
    rw [hw] at h
    cases s.requests with
    | nil =>
      simp only
      unfold Fed
      rw [hw]
      exact h
    | cons req requests => trivial
  | gotRequest req =>
    simp only
    unfold Fed
    rw [hw]
    trivial
  | injecting jobs ends =>
    rw [hw] at h
    cases jobs with
    | nil =>
      simp only
      split
      · trivial
      · next hends =>
        have hlive : Live c s := by
          have hnone : ¬HasDiskTask [] := by simp [HasDiskTask]
          exact (h.resolve_left hends).resolve_left hnone
        exact live_of_same hlive rfl rfl rfl
    | cons job jobs =>
      simp only
      unfold Fed
      cases h with
      | inl h => exact .inl h
      | inr h =>
        refine .inr ?_
        have hpush : ∀ {s' : State}, Live c s' → s'.diskTasks = (s.pushTasks job).diskTasks →
            s'.requests = s.requests → s'.readers = s.readers →
            Live c { s.pushTasks job with worker := .injecting jobs ends } := by
          intro s' hlive h1 h2 h3
          exact live_of_same hlive h1.symm h2.symm h3.symm
        cases h with
        | inl h =>
          obtain ⟨j, hj, hsize⟩ := h
          cases List.mem_cons.mp hj with
          | inl hj =>
            exact .inr (hpush (pushTasks_live job (.inl (hj ▸ hsize))) rfl rfl rfl)
          | inr hj => exact .inl ⟨j, hj, hsize⟩
        | inr h => exact .inr (hpush (pushTasks_live job (.inr h)) rfl rfl rfl)
  | signalling n =>
    cases n with
    | zero => trivial
    | succ n => trivial
  | draining =>
    cases s.requests with
    | nil =>
      simp only
      unfold Fed
      rw [hw]
      trivial
    | cons req requests =>
      simp only
      unfold Fed
      cases req.isEnd <;> trivial
  | finished =>
    simp only
    unfold Fed
    rw [hw]
    trivial

theorem readerStep_live {i : Nat} {r : Reader} (hr : s.readers[i]? = some r) (h : Live c s) :
    Live c (s.readerStep c i r) := by
  have hother : ∀ {s' : State} {r' : Reader}, r.requests c = false →
      (∃ x ∈ s.readers, x.requests c = true) → s'.readers = s.readers.set i r' → Live c s' := by
    intro s' r' hnot hex hreaders
    refine .inr (.inr ?_)
    rw [hreaders]
    exact set_requests hr hex hnot
  cases r with
  | popping =>
    simp only [State.readerStep]
    cases htasks : s.diskTasks with
    | nil => exact h
    | cons value tasks =>
      cases tasks with
      | nil =>
        -- the queue is empty now, so this reader makes a request
        exact .inr (.inr ⟨_, set_self hr, by simp [Reader.requests]⟩)
      | cons value' tasks => exact live_diskTask (by simp)
  | popped value remaining =>
    simp only [State.readerStep]
    cases hrequests : (Reader.popped value remaining).requests c with
    | true => exact live_request (requestMore_requests remaining hrequests)
    | false =>
      have hnone : ¬(remaining = 0 ∨ remaining + 1 = c.maxFiles / 2) := by
        simpa [Reader.requests] using hrequests
      have hsame : s.requestMore c remaining = s := by
        unfold State.requestMore
        rw [if_neg fun h0 => hnone (.inl h0), if_neg fun h1 => hnone (.inr h1)]
      rw [hsame]
      cases h with
      | inl h => exact live_diskTask h
      | inr h =>
        cases h with
        | inl h => exact live_request h
        | inr h => exact hother hrequests h rfl
  | executing job =>
    cases h with
    | inl h => exact live_diskTask h
    | inr h =>
      cases h with
      | inl h => exact live_request h
      | inr h => exact hother rfl h rfl
  | ending =>
    simp only [State.readerStep]
    cases h with
    | inl h => exact live_diskTask h
    | inr h =>
      cases h with
      | inl h =>
        refine live_request ?_
        simp only
        split
        · simp
        · exact h
      | inr h => exact hother rfl h rfl
  | ended => exact h

theorem readerStep_worker (i : Nat) (r : Reader) : (s.readerStep c i r).worker = s.worker := by
  have hrequest : ∀ remaining, (s.requestMore c remaining).worker = s.worker := by
    intro remaining
    unfold State.requestMore
    split
    · rfl
    · split <;> rfl
  cases r with
  | popping =>
    simp only [State.readerStep]
    cases s.diskTasks <;> rfl
  | popped value remaining => exact hrequest remaining
  | _ => rfl

theorem gotBatch_fed (req : Request) (jobs : List ArchiveJob)
    (h : endsSession req jobs = true ∨ HasDiskTask jobs ∨ Live c s) :
    Fed c (s.gotBatch c req (some jobs)) := by
  cases jobs with
  | nil =>
    simp only [State.gotBatch]
    split
    · trivial
    · next hends =>
      have hnone : ¬HasDiskTask [] := by simp [HasDiskTask]
      have hlive := (h.resolve_left hends).resolve_left hnone
      exact live_of_same hlive rfl rfl rfl
  | cons job jobs =>
    cases h with
    | inl h => exact .inl h
    | inr h => exact .inr (h.imp_right fun h => live_of_same h rfl rfl rfl)

theorem next_fed (e : Event) (hp : Proper c s e) (h : Fed c s) : Fed c (next c s e) := by
  cases e with
  | setErrorFlag => exact h.of_live rfl fun hlive => live_of_same hlive rfl rfl rfl
  | worker => exact workerStep_fed h
  | nextJobBatch batch =>
    unfold next
    simp only
    cases hw : s.worker with
    | gotRequest req =>
      simp only
      cases batch with
      | none => trivial
      | some jobs => exact gotBatch_fed req jobs (hp req hw)
    | _ => exact h
  | reader i =>
    simp only [next]
    cases hr : s.readers[i]? with
    | none => exact h
    | some r => exact h.of_live (readerStep_worker i r) (readerStep_live hr)
  | tapeCleaning =>
    simp only [next]
    split
    · exact h
    · exact h.of_live rfl fun _ => live_request (by simp)

theorem start_fed {jobs : List ArchiveJob} (hstart : synchronousInjection c (some jobs) = some s)
    (hjobs : HasDiskTask jobs) : Fed c s := by
  have hworker : ∀ (jobs : List ArchiveJob) (s : State),
      (injectBulkMigrations s jobs).worker = s.worker := by
    intro jobs
    induction jobs with
    | nil => exact fun _ => rfl
    | cons job jobs ih => exact fun s => ih (s.pushTasks job)
  cases jobs with
  | nil => cases hstart
  | cons job jobs =>
    have hs := (Option.some.inj hstart).symm
    unfold Fed
    rw [hs, hworker]
    exact injectBulkMigrations_live _ (.inl hjobs)

/-- If the first batch has a file that is not empty, and so has every later one that neither ends
the session nor comes while something else is left to do, the session never stalls. -/
theorem never_stalls (c : Config) (jobs : List ArchiveJob) (s : State) (es : List Event)
    (hstart : synchronousInjection c (some jobs) = some s) (hjobs : HasDiskTask jobs)
    (h : AllSteps (next c) (Proper c) s es) : AllStates (next c) NotStalled s es :=
  AllSteps.allStates (fun _ e hfed hp => next_fed e hp hfed) (fun _ => notStalled_of_fed)
    (start_fed hstart hjobs) h

def small : Config := ⟨4, 100, 1⟩

def firstFile : ArchiveJob := ⟨1, 1, 4⟩

def answered (batch : List ArchiveJob) : List Event :=
  [.reader 0, .reader 0, .worker, .worker, .nextJobBatch (some batch), .reader 0]

def started : State :=
  ⟨.checking, [], [some firstFile], [.popping], 1, [some firstFile], false, false⟩

theorem goes_on :
    AllStates (next small) NotStalled started (answered [⟨2, 2, 0⟩, ⟨3, 3, 5⟩]) := by
  refine never_stalls small [firstFile] started _ rfl ⟨firstFile, by simp, by decide⟩ ?_
  have hfile : HasDiskTask [⟨2, 2, 0⟩, ⟨3, 3, 5⟩] := ⟨⟨3, 3, 5⟩, by simp, by decide⟩
  exact ⟨trivial, trivial, trivial, trivial, fun _ _ => .inr (.inl hfile), trivial, trivial⟩

/-- Behind a batch of two empty files the worker waits for a request that nobody makes. -/
theorem stalls_behind_empty_files :
    synchronousInjection small (some [firstFile]) = some started ∧
      ¬AllStates (next small) NotStalled started
        (answered [⟨2, 2, 0⟩, ⟨3, 3, 0⟩] ++ [.worker, .worker, .worker, .worker]) := by
  refine ⟨rfl, fun h => ?_⟩
  have hlast := h.last
  cases hlast rfl with
  | inl h => exact h rfl
  | inr h =>
    cases h with
    | inl h =>
      obtain ⟨r, hr, hbusy⟩ := h
      obtain rfl := List.mem_singleton.mp hr
      cases hbusy
    | inr h => exact h rfl

end Cta.Tape.MigrationTaskInjector
