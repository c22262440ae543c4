import Cta.ObjectStore.IndividualCollection

/-! When the collection of an object of another owner changes nothing. -/
namespace Cta.ObjectStore.IndividualCollection
open Cta.Lib.Transactions Cta.Lib.Triples
open GarbageCollector (RetrieveJobStatus JobQueueType QueueId getQueueType)

def Object.OwnedBy (presumedOwner : Address) : Object → Prop
  | .archiveRequest r => ∃ j ∈ r.jobs, j.owner = presumedOwner
  | .retrieveRequest r => r.owner = presumedOwner
  | .repackRequest r => r.owner = presumedOwner
  | .agent a => a.owner = presumedOwner
  | .archiveQueue q => q.owner = presumedOwner

/-- Whatever fails and whatever the others answer, the object and the queues stay as they are. -/
def LeavesAlone (agentReference presumedOwner : Address) (s : Store) (o : Object) : Prop :=
  ∀ e, (after (garbageCollectDispatcher e agentReference presumedOwner o) s).object = s.object ∧
    (after (garbageCollectDispatcher e agentReference presumedOwner o) s).queues = s.queues

namespace RetrieveRequest
variable (r : RetrieveRequest)

def Lost (j : RetrieveJob) : Prop := j.status = .toTransfer ∧ r.tapeFile j.copyNb = none

/-- A job that is reported to a repack request, and whose copy has a tape file. -/
def Reported (j : RetrieveJob) : Prop :=
  (j.status = .toReportToRepackForSuccess ∨ j.status = .toReportToRepackForFailure) ∧
    r.tapeFile j.copyNb ≠ none

def LostFirst (jobs : List RetrieveJob) : Prop :=
  ∃ before j after, jobs = before ++ j :: after ∧ r.Lost j ∧ ∀ k ∈ before, ¬r.Reported k

def QueuedIn (address : Address) (qs : Queues) (id : QueueId) : Prop :=
  ∃ queue, retrieve.find qs id = some queue ∧ queue.address = r.owner ∧
    address ∈ queue.elements.map retrieve.address

/-- A retrieve request is left alone if its collection throws before it writes, or finds the request
in the queue where it would be put. -/
inductive Harmless (address : Address) (qs : Queues) : Prop
  | lostJob (h : r.LostFirst r.jobs)
  | noTape (hjobs : ∀ j ∈ r.jobs, ¬r.Lost j ∧ ¬r.Reported j)
      (hactive : r.tapeFile r.activeCopyNb = none)
      (hbest : (∃ j ∈ r.jobs, j.status = .toTransfer) → ∀ vid, r.bestJob vid = none)
  | queued (hjobs : ∀ j ∈ r.jobs, ¬r.Reported j) (hstatus : ∀ j ∈ r.jobs, j.status ≠ .toTransfer)
      (file : TapeFile) (hactive : r.tapeFile r.activeCopyNb = some file)
      (hqueued : r.QueuedIn address qs
        (file.vid, getQueueType false (r.jobs.map (·.toRetrieveJob))))

end RetrieveRequest

/-- The types that check the owner are always left alone. -/
def Object.Harmless (agentReference address : Address) (qs : Queues) : Object → Prop
  | .archiveRequest _ | .agent _ | .archiveQueue _ => True
  | .retrieveRequest r => r.Harmless address qs
  | .repackRequest r => r.owner = agentReference ∧ ∃ failure, r.getQueueType = .error failure

structure Untouched (s₀ s : Store) : Prop where
  object : s.object = s₀.object
  queues : s.queues = s₀.queues
  address : s.address = s₀.address

theorem Untouched.refl (s : Store) : Untouched s s := ⟨rfl, rfl, rfl⟩

/-- What the program does, it does not do to the object or to the queues. -/
def Keeps {α : Type} (s₀ : Store) (x : Program α) : Prop :=
  Triple (Untouched s₀) x (fun _ => Untouched s₀) fun _ => Untouched s₀

section
variable {α β : Type} {s₀ s : Store} {e : Surroundings}

theorem Keeps.after {x : Program α} (h : Keeps s₀ x) (hs : Untouched s₀ s) :
    Untouched s₀ (Lib.Transactions.after x s) := by
  cases hx : x s with
  | ok a t =>
    rw [after_ok hx]
    exact h.of_ok hs hx
  | error f t =>
    rw [after_error hx]
    exact h.of_error hs hx

theorem Keeps.pure (a : α) : Keeps s₀ (Pure.pure a) := Triple.pure fun _ hs => hs

theorem Keeps.throw (f : Failure) : Keeps s₀ (throw f : Program α) := Triple.throw fun _ hs => hs

theorem Keeps.bind {x : Program α} {f : α → Program β} (hx : Keeps s₀ x)
    (hf : ∀ a, Keeps s₀ (f a)) : Keeps s₀ (x >>= f) := Triple.bind hx hf

theorem Keeps.observing {x : Program α} (h : Keeps s₀ x) : Keeps s₀ (observing x) := by
  intro s hs
  cases hx : x s with
  | ok a t =>
    rw [observing_ok hx]
    exact h.of_ok hs hx
  | error f t =>
    rw [observing_error hx]
    exact h.of_error hs hx

theorem Keeps.attempt (e : Surroundings) : Keeps s₀ (attempt e) := by
  intro s hs
  unfold IndividualCollection.attempt
  cases e.fails s.operations with
  | none => exact ⟨hs.object, hs.queues, hs.address⟩
  | some f => exact ⟨hs.object, hs.queues, hs.address⟩

theorem log_run (message : String) (s : Store) :
    log message s = .ok () { s with logs := s.logs ++ [message] } := rfl

theorem Keeps.log (message : String) : Keeps s₀ (log message) :=
  Triple.modify fun _ hs => ⟨hs.object, hs.queues, hs.address⟩

theorem Keeps.commit {o : Object} (h : s₀.object = some o) : Keeps s₀ (commit e o) :=
  (Keeps.attempt e).bind fun _ => Triple.modify fun _ hs => ⟨h.symm, hs.queues, hs.address⟩

theorem Keeps.ofResult (x : Except Failure α) : Keeps s₀ (ofResult x) := by
  cases x with
  | ok a => exact fun _ hs => hs
  | error f => exact fun _ hs => hs

theorem ArchiveRequest.collectJobs_foreign {r : ArchiveRequest} {presumedOwner : Address}
    {before jobs : List ArchiveJob} (h : ∀ j ∈ jobs, j.owner ≠ presumedOwner) :
    ArchiveRequest.collectJobs e presumedOwner r before jobs = pure false := by
  induction jobs generalizing before with
  | nil => rfl
  | cons j jobs ih =>
    rw [ArchiveRequest.collectJobs, if_neg fun hj => h j List.mem_cons_self hj.2,
      ih fun k hk => h k (List.mem_cons_of_mem j hk)]

theorem ArchiveRequest.keeps {r : ArchiveRequest} {presumedOwner : Address}
    (h : ∀ j ∈ r.jobs, j.owner ≠ presumedOwner) : Keeps s₀ (r.garbageCollect e presumedOwner) := by
  unfold ArchiveRequest.garbageCollect
  rw [ArchiveRequest.collectJobs_foreign h]
  exact (Keeps.pure false).bind fun _ => Triple.ite (fun _ => Keeps.log _) fun _ => Keeps.pure _

theorem Agent.keeps {a : Agent} {presumedOwner : Address} (h : a.owner ≠ presumedOwner) :
    Keeps s₀ (a.garbageCollect e presumedOwner) := by
  unfold Agent.garbageCollect
  rw [if_neg h]
  exact Keeps.pure _

theorem ArchiveQueue.keeps {q : ArchiveQueue} {presumedOwner : Address}
    (h : q.owner ≠ presumedOwner) : Keeps s₀ (q.garbageCollect e presumedOwner) := by
  unfold ArchiveQueue.garbageCollect
  rw [if_pos h.symm]
  exact Keeps.pure _

namespace QueueKind
variable {Key Element : Type} [DecidableEq Key] {k : QueueKind Key Element} {id : Key}
  {queue : JobQueue Element}

theorem keeps_getLockedAndFetched (h : k.find s₀.queues id = some queue) :
    Triple (Untouched s₀) (k.getLockedAndFetched e id)
      (fun a s => a = queue.address ∧ Untouched s₀ s) fun _ => Untouched s₀ := by
  refine Triple.bind (Keeps.attempt e) fun _ => Triple.get_bind fun s hs => ?_
  rw [hs.queues, h]
  exact Triple.bind (Keeps.attempt e) fun _ => Triple.pure fun _ hs => ⟨rfl, hs⟩

theorem keeps_addJobsIfNecessaryAndCommit {job : Element} (h : k.find s₀.queues id = some queue)
    (hmem : k.address job ∈ queue.elements.map k.address) :
    Keeps s₀ (k.addJobsIfNecessaryAndCommit e id [job]) := by
  refine (Keeps.attempt e).bind fun _ => Triple.get_bind fun s hs => ?_
  have hnone : [job].filter (k.address · ∉
      ((k.find s.queues id).map (·.elements.map k.address)).getD []) = [] := by
    rw [hs.queues, h]
    simpa using hmem
  simp only [hnone]
  exact Keeps.pure ()

end QueueKind

namespace RetrieveRequest
variable {r : RetrieveRequest} {address : Address} {jobs : List RetrieveJob} {j : RetrieveJob}

theorem lostFirst_cons : r.LostFirst (j :: jobs) ↔ r.Lost j ∨ ¬r.Reported j ∧ r.LostFirst jobs := by
  constructor
  · rintro ⟨before, k, after, hsplit, hlost, hbefore⟩
    cases before with
    | nil =>
      obtain ⟨rfl, -⟩ := List.cons.inj hsplit
      exact .inl hlost
    | cons x before =>
      obtain ⟨rfl, htail⟩ := List.cons.inj hsplit
      exact .inr ⟨hbefore j List.mem_cons_self, before, k, after, htail, hlost,
        fun x hx => hbefore x (List.mem_cons_of_mem j hx)⟩
  · rintro (hlost | ⟨hreported, before, k, after, rfl, hlost, hbefore⟩)
    · exact ⟨[], j, jobs, rfl, hlost, fun _ hk => absurd hk List.not_mem_nil⟩
    · exact ⟨j :: before, k, after, rfl, hlost, List.forall_mem_cons.mpr ⟨hreported, hbefore⟩⟩

/-- What the loop over some jobs finds, with the candidates of those before. -/
inductive Found (r : RetrieveRequest) (vids : Finset String) (jobs : List RetrieveJob) :
    Except Failure Scan → Prop
  | lost (failure : Failure) (h : r.LostFirst jobs) : Found r vids jobs (.error failure)
  | reported (file : TapeFile) (j : RetrieveJob) (hfirst : ¬r.LostFirst jobs) (hj : j ∈ jobs)
      (hreported : r.Reported j) (hfile : r.tapeFile j.copyNb = some file) :
      Found r vids jobs (.ok (.reportToRepack file))
  | candidates (vids' : Finset String) (hjobs : ∀ j ∈ jobs, ¬r.Lost j ∧ ¬r.Reported j)
      (hempty : vids' = ∅ ↔ vids = ∅ ∧ ∀ j ∈ jobs, j.status ≠ .toTransfer) :
      Found r vids jobs (.ok (.candidateVids vids'))

theorem Found.cons {vids vids₁ : Finset String} {x : Except Failure Scan}
    (h : r.Found vids₁ jobs x) (hlost : ¬r.Lost j) (hreported : ¬r.Reported j)
    (hvids : vids₁ = ∅ ↔ vids = ∅ ∧ j.status ≠ .toTransfer) : r.Found vids (j :: jobs) x := by
  cases h with
  | lost failure h => exact .lost failure (lostFirst_cons.mpr (.inr ⟨hreported, h⟩))
  | reported file k hfirst hk hkreported hfile =>
    refine .reported file k ?_ (List.mem_cons_of_mem j hk) hkreported hfile
    rw [lostFirst_cons]
    rintro (h | ⟨-, h⟩)
    · exact hlost h
    · exact hfirst h
  | candidates vids' hjobs hempty =>
    refine .candidates vids' (List.forall_mem_cons.mpr ⟨⟨hlost, hreported⟩, hjobs⟩) ?_
    rw [hempty, hvids, List.forall_mem_cons, and_assoc]

theorem scan_found (r : RetrieveRequest) (vids : Finset String) (jobs : List RetrieveJob) :
    r.Found vids jobs (r.scan vids jobs) := by
  induction jobs generalizing vids with
  | nil => exact .candidates vids (fun _ hj => absurd hj List.not_mem_nil) (by simp)
  | cons j jobs ih =>
    cases hfile : r.tapeFile j.copyNb with
    | none =>
      have hreported : ¬r.Reported j := fun h => h.2 hfile
      cases hstatus : j.status with
      | toTransfer =>
        simp only [scan, hstatus, hfile]
        exact .lost .exception (lostFirst_cons.mpr (.inl ⟨hstatus, hfile⟩))
      | toReportToUserForFailure | failed | toReportToRepackForSuccess
      | toReportToRepackForFailure =>
        simp only [scan, hstatus, hfile]
        exact (ih vids).cons (by simp [Lost, hstatus]) hreported (by simp [hstatus])
    | some file =>
      have hlost : ¬r.Lost j := fun h => by simp [h.2] at hfile
      cases hstatus : j.status with
      | toTransfer =>
        simp only [scan, hstatus, hfile]
        exact (ih _).cons hlost (by simp [Reported, hstatus]) (by simp [hstatus])
      | toReportToUserForFailure | failed =>
        simp only [scan, hstatus]
        exact (ih vids).cons hlost (by simp [Reported, hstatus]) (by simp [hstatus])
      | toReportToRepackForSuccess | toReportToRepackForFailure =>
        have hreported : r.Reported j := ⟨by simp [hstatus], by simp [hfile]⟩
        simp only [scan, hstatus, hfile]
        refine .reported file j ?_ List.mem_cons_self hreported hfile
        rw [lostFirst_cons]
        rintro (h | ⟨h, -⟩)
        · exact hlost h
        · exact h hreported

theorem keeps_queueForFailure_of_none (h : r.tapeFile r.activeCopyNb = none) :
    Keeps s₀ (r.queueForFailure e) := by
  have hfile : ({ r with jobs := r.jobs.map (failJob e.localTimeAndHost) } :
      RetrieveRequest).tapeFile r.activeCopyNb = none := h
  simp only [queueForFailure, hfile]
  exact Keeps.throw _

theorem map_failJob (s : String) (h : ∀ j ∈ r.jobs, j.status ≠ .toTransfer) :
    r.jobs.map (failJob s) = r.jobs := by
  have hid : r.jobs.map (failJob s) = r.jobs.map id :=
    List.map_congr_left fun j hj => if_neg (h j hj)
  rw [hid, List.map_id]

theorem keeps_queueForFailure_of_queued (hobject : s₀.object = some (.retrieveRequest r))
    (hstatus : ∀ j ∈ r.jobs, j.status ≠ .toTransfer) {file : TapeFile}
    (hactive : r.tapeFile r.activeCopyNb = some file) (hqueued : r.QueuedIn s₀.address s₀.queues
      (file.vid, getQueueType false (r.jobs.map (·.toRetrieveJob)))) :
    Keeps s₀ (r.queueForFailure e) := by
  obtain ⟨queue, hfind, howner, hmem⟩ := hqueued
  simp only [queueForFailure, map_failJob _ hstatus, hactive]
  refine Triple.bind (QueueKind.keeps_getLockedAndFetched hfind) fun a => ?_
  refine Triple.and_pre fun ha => Triple.get_bind fun s hs => ?_
  rw [hs.address]
  refine (QueueKind.keeps_addJobsIfNecessaryAndCommit hfind ?_).bind fun _ => ?_
  · exact hmem
  · rw [ha, howner]
    exact Keeps.commit hobject

theorem keeps_queueForTransfer {vid : String} (h : r.bestJob vid = none) :
    Keeps s₀ (r.queueForTransfer e vid) := by
  rw [queueForTransfer, h]
  exact Keeps.throw _

theorem Harmless.keeps_requeue (hobject : s₀.object = some (.retrieveRequest r))
    (h : r.Harmless s₀.address s₀.queues) : Keeps s₀ (r.requeue e) := by
  have hfound := r.scan_found ∅ r.jobs
  unfold requeue
  cases hscan : r.scan ∅ r.jobs with
  | error failure => exact Keeps.throw _
  | ok result =>
    rw [hscan] at hfound
    cases hfound with
    | reported file j hfirst hj hreported hfile =>
      cases h with
      | lostJob h => exact absurd h hfirst
      | noTape hjobs => exact absurd hreported (hjobs j hj).2
      | queued hjobs => exact absurd hreported (hjobs j hj)
    | candidates vids hjobs hempty =>
      have hempty : vids = ∅ ↔ ∀ j ∈ r.jobs, j.status ≠ .toTransfer := by simpa using hempty
      cases h with
      | lostJob h =>
        obtain ⟨before, j, after, hsplit, hlost, -⟩ := h
        exact absurd hlost (hjobs j (by simp [hsplit])).1
      | queued _ hstatus file hactive hqueued =>
        simp only [hempty.mpr hstatus, if_true]
        exact keeps_queueForFailure_of_queued hobject hstatus hactive hqueued
      | noTape _ hactive hbest =>
        refine Triple.ite (fun _ => keeps_queueForFailure_of_none hactive) fun hvids => ?_
        rw [hempty] at hvids
        push Not at hvids
        cases e.selectBestRetrieveQueue vids r.forceDisabledTape with
        | ok vid => exact keeps_queueForTransfer (hbest hvids vid)
        | error failure =>
          cases failure with
          | noTapeAvailableForRetrieve => exact keeps_queueForFailure_of_none hactive
          | _ => exact Keeps.throw _

theorem Harmless.keeps (hobject : s₀.object = some (.retrieveRequest r))
    (h : r.Harmless s₀.address s₀.queues) (presumedOwner : Address) :
    Keeps s₀ (r.garbageCollect e presumedOwner) := by
  unfold garbageCollect
  split_ifs
  · exact (Keeps.log _).bind fun _ => h.keeps_requeue hobject
  · exact h.keeps_requeue hobject

end RetrieveRequest

namespace RepackRequest
variable {r : RepackRequest} {failure : Failure}

theorem getQueueType_error (h : r.getQueueType = .error failure) : failure = .exception := by
  unfold getQueueType at h
  cases hmode : !r.moveMode && !r.addCopiesMode <;> cases hstatus : r.status <;>
    cases hfinished : r.isExpandFinished <;> simp_all

theorem keeps (hobject : s₀.object = some (.repackRequest r))
    (h : r.getQueueType = .error failure) : Keeps s₀ (r.garbageCollect e r.owner) := by
  obtain rfl := getQueueType_error h
  unfold garbageCollect
  refine (Keeps.attempt e).bind fun _ => ?_
  refine Keeps.bind (Triple.modify fun _ hs => ⟨hs.object, hs.queues, hs.address⟩) fun _ => ?_
  intro s hs
  have hfind : ({ r with owner := r.owner } : RepackRequest).findQueue e s =
      .error .exception s := by
    unfold findQueue
    exact bind_error (ofResult_error h) _
  rw [bind_ok (observing_error hfind)]
  exact Keeps.commit hobject s hs

end RepackRequest

section
variable (he : ∀ n, e.fails n = none)
include he

theorem attempt_calm (s : Store) :
    attempt e s = .ok () { s with operations := s.operations + 1 } := by
  rw [attempt, he]

theorem commit_calm (o : Object) (s : Store) : commit e o s =
    .ok () { s with operations := s.operations + 1, object := some o } := by
  rw [commit, bind_ok (attempt_calm he s)]
  rfl

end

namespace QueueKind
variable {Key Element : Type} [DecidableEq Key] {k : QueueKind Key Element} {id : Key}
  {queue : JobQueue Element}

theorem lookup_map (f : List Element → List Element) (qs : List (Key × JobQueue Element)) :
    (qs.map fun x => if x.1 = id then (x.1, { x.2 with elements := f x.2.elements }) else x).lookup
      id = (qs.lookup id).map fun q => { q with elements := f q.elements } := by
  induction qs with
  | nil => rfl
  | cons x qs ih =>
    obtain ⟨key, queue⟩ := x
    by_cases hkey : key = id
    · simp [hkey]
    · have hne : (id == key) = false := by simpa using Ne.symm hkey
      simp only [List.map_cons, if_neg hkey, List.lookup_cons, hne, ih]

theorem find_mapElements (f : List Element → List Element) (qs : Queues) :
    k.find (k.mapElements id f qs) id =
      (k.find qs id).map fun q => { q with elements := f q.elements } := by
  rw [find, mapElements, k.queues_mutableQueues]
  exact lookup_map f _

theorem find_append {qs : Queues} (h : k.find qs id = none) :
    k.find (k.mutableQueues (· ++ [(id, queue)]) qs) id = some queue := by
  rw [find, k.queues_mutableQueues, List.lookup_append]
  rw [find] at h
  simp [h]

theorem getLockedAndFetched_calm (he : ∀ n, e.fails n = none) (k : QueueKind Key Element)
    (id : Key) (s : Store) : ∃ queue t, k.getLockedAndFetched e id s = .ok queue.address t ∧
      t.object = s.object ∧ t.address = s.address ∧ k.find t.queues id = some queue ∧
      ∀ q, k.find s.queues id = some q → q = queue := by
  unfold getLockedAndFetched
  rw [bind_ok (attempt_calm he s), bind_ok (get_run _)]
  dsimp only
  cases hfind : k.find s.queues id with
  | some queue =>
    exact ⟨queue, _, bind_ok (attempt_calm he _) _, rfl, rfl, hfind,
      fun q hq => (Option.some.inj hq).symm⟩
  | none =>
    exact ⟨⟨e.nextId (k.nameHeader id), []⟩, _,
      (bind_ok (modify_run _ _) _).trans (bind_ok (attempt_calm he _) _), rfl, rfl,
      find_append hfind, fun q hq => by simp at hq⟩

theorem addJobsAndCommit_calm (he : ∀ n, e.fails n = none) {jobs : List Element}
    (hjobs : jobs ≠ []) (hfind : k.find s.queues id = some queue) :
    ∃ t, k.addJobsAndCommit e id jobs s = .ok () t ∧ t.object = s.object ∧
      t.address = s.address ∧
      k.find t.queues id = some { queue with elements := queue.elements ++ jobs } := by
  rw [addJobsAndCommit, if_neg hjobs]
  refine ⟨_, bind_ok (attempt_calm he s) _, rfl, rfl, ?_⟩
  exact (find_mapElements (· ++ jobs) s.queues).trans (by rw [hfind, Option.map_some])

theorem addJobsIfNecessaryAndCommit_calm (he : ∀ n, e.fails n = none) (job : Element)
    (hfind : k.find s.queues id = some queue) :
    ∃ queue' t, k.addJobsIfNecessaryAndCommit e id [job] s = .ok () t ∧ t.object = s.object ∧
      t.address = s.address ∧ k.find t.queues id = some queue' ∧
      queue'.address = queue.address ∧ k.address job ∈ queue'.elements.map k.address := by
  unfold addJobsIfNecessaryAndCommit
  rw [bind_ok (attempt_calm he s), bind_ok (get_run _)]
  simp only [hfind, Option.map_some, Option.getD_some]
  by_cases hmem : k.address job ∈ queue.elements.map k.address
  · have hnone : [job].filter (k.address · ∉ queue.elements.map k.address) = [] := by
      simpa using hmem
    rw [hnone]
    exact ⟨queue, _, rfl, rfl, rfl, hfind, rfl, hmem⟩
  · have hall : [job].filter (k.address · ∉ queue.elements.map k.address) = [job] := by
      simpa using hmem
    rw [hall]
    obtain ⟨t, hrun, hobject, haddress, hadded⟩ := addJobsAndCommit_calm (k := k)
      (s := { s with operations := s.operations + 1 }) he (List.cons_ne_nil job []) hfind
    exact ⟨_, t, hrun, hobject, haddress, hadded, rfl, by simp⟩

theorem queues_ne {qs : Queues} {jobs : List Element} (hjobs : jobs ≠ [])
    (h : ∀ q, k.find s.queues id = some q → q = queue)
    (hfind : k.find qs id = some { queue with elements := queue.elements ++ jobs }) :
    qs ≠ s.queues := by
  rintro rfl
  have hsame := congrArg JobQueue.elements (h _ hfind)
  exact hjobs (List.append_right_eq_self.mp hsame)

end QueueKind

theorem requeue_calm (he : ∀ n, e.fails n = none) (id : QueueId)
    (job : Address → RetrieveQueue.JobToAdd) (hjob : ∀ a, (job a).retrieveRequestAddress = a)
    (o : Address → Object) (s : Store) : ∃ queue t,
      (do let queueAddress ← retrieve.getLockedAndFetched e id
          retrieve.addJobsIfNecessaryAndCommit e id [job (← get).address]
          commit e (o queueAddress) : Program Unit) s = .ok () t ∧
        t.object = some (o queue.address) ∧ retrieve.find t.queues id = some queue ∧
        s.address ∈ queue.elements.map retrieve.address := by
  obtain ⟨queue, t1, hrun1, -, haddress1, hfind1, -⟩ := retrieve.getLockedAndFetched_calm he id s
  obtain ⟨queue', t2, hrun2, -, -, hfind2, hqueue, hmem⟩ :=
    QueueKind.addJobsIfNecessaryAndCommit_calm he (job t1.address) hfind1
  have hmem : t1.address ∈ queue'.elements.map retrieve.address := hjob t1.address ▸ hmem
  rw [haddress1] at hmem
  refine ⟨queue',
    { t2 with operations := t2.operations + 1, object := some (o queue.address) },
    ?_, ?_, hfind2, hmem⟩
  · rw [bind_ok hrun1, bind_ok (get_run _), bind_ok hrun2, commit_calm he]
  · rw [hqueue]

namespace RetrieveRequest
variable {r : RetrieveRequest} {file : TapeFile}

theorem status_of_map_failJob {localTimeAndHost : String}
    (h : r.jobs.map (failJob localTimeAndHost) = r.jobs) :
    ∀ j ∈ r.jobs, j.status ≠ .toTransfer := by
  intro j hj hstatus
  have hsame : failJob localTimeAndHost j = j :=
    List.map_inj_left.mp (h.trans (List.map_id _).symm) j hj
  have hfailed : (failJob localTimeAndHost j).status = .toReportToUserForFailure := by
    simp [failJob, hstatus]
  rw [hsame, hstatus] at hfailed
  cases hfailed

theorem queued_of_queueForFailure (he : ∀ n, e.fails n = none)
    (hactive : r.tapeFile r.activeCopyNb = some file)
    (hobject : (after (r.queueForFailure e) s).object = some (.retrieveRequest r))
    (hqueues : (after (r.queueForFailure e) s).queues = s.queues) :
    (∀ j ∈ r.jobs, j.status ≠ .toTransfer) ∧ r.QueuedIn s.address s.queues
      (file.vid, getQueueType false (r.jobs.map (·.toRetrieveJob))) := by
  have hfile : ({ r with jobs := r.jobs.map (failJob e.localTimeAndHost) } :
      RetrieveRequest).tapeFile r.activeCopyNb = some file := hactive
  obtain ⟨queue, t, hrun, ht, hfind, hmem⟩ := requeue_calm he (file.vid, getQueueType false
      ((r.jobs.map (failJob e.localTimeAndHost)).map (·.toRetrieveJob)))
    (fun a => ⟨r.activeCopyNb, file.fSeq, a, r.fileSize, { name := "" }, r.entryLogTime,
      r.activity, none⟩) (fun _ => rfl)
    (fun a => .retrieveRequest { r with
      jobs := r.jobs.map (failJob e.localTimeAndHost), owner := a }) s
  have hrun : r.queueForFailure e s = .ok () t := by
    simp only [queueForFailure, hfile]
    exact hrun
  rw [after_ok hrun] at hobject hqueues
  have hsame := Object.retrieveRequest.inj (Option.some.inj (ht.symm.trans hobject))
  have hjobs : r.jobs.map (failJob e.localTimeAndHost) = r.jobs := congrArg jobs hsame
  have howner : queue.address = r.owner := congrArg owner hsame
  rw [hjobs, hqueues] at hfind
  exact ⟨status_of_map_failJob hjobs, queue, hfind, howner, hmem⟩

theorem tapeFile_of_bestJob {vid : String} {job : RetrieveJob}
    (h : r.bestJob vid = some (file, job)) : r.tapeFile job.copyNb ≠ none := by
  simp only [bestJob, Option.bind_eq_bind, Option.bind_eq_some_iff] at h
  obtain ⟨file', hfile, job', hjob, heq⟩ := h
  obtain ⟨rfl, rfl⟩ := Prod.mk.inj (Option.some.inj heq)
  have hcopy : job'.copyNb = file'.copyNb := by simpa using List.find?_some hjob
  intro hnone
  have hall := List.find?_eq_none.mp hnone file' (List.mem_of_find?_eq_some hfile)
  exact hall (by simp [hcopy])

theorem active_of_queueForTransfer (he : ∀ n, e.fails n = none) {vid : String} {job : RetrieveJob}
    (hbest : r.bestJob vid = some (file, job))
    (hobject : (after (r.queueForTransfer e vid) s).object = some (.retrieveRequest r)) :
    r.tapeFile r.activeCopyNb ≠ none := by
  obtain ⟨queue, t, hrun, ht, -, -⟩ := requeue_calm he (vid, .jobsToTransferForUser)
    (fun a => ⟨file.copyNb, file.fSeq, a, r.fileSize, r.mountPolicy, r.entryLogTime, r.activity,
      r.diskSystemName⟩) (fun _ => rfl)
    (fun a => .retrieveRequest { r with activeCopyNb := job.copyNb, owner := a }) s
  have hrun : r.queueForTransfer e vid s = .ok () t := by
    simp only [queueForTransfer, hbest]
    exact hrun
  rw [after_ok hrun] at hobject
  have hsame := Object.retrieveRequest.inj (Option.some.inj (ht.symm.trans hobject))
  have hactive : job.copyNb = r.activeCopyNb := congrArg activeCopyNb hsame
  rw [← hactive]
  exact tapeFile_of_bestJob hbest

theorem asyncUpdateJobOwner_calm (he : ∀ n, e.fails n = none) (copyNb : Nat) (owner : Address)
    (hobject : s.object = some (.retrieveRequest r)) (hjob : r.jobs.any (·.copyNb = copyNb)) :
    ∃ t, asyncUpdateJobOwner e copyNb owner r.owner s = .ok () t ∧ t.queues = s.queues := by
  unfold asyncUpdateJobOwner
  rw [bind_ok (attempt_calm he s), bind_ok (get_run _)]
  simp only [hobject, ne_eq, not_true_eq_false, if_false, hjob, if_true]
  exact ⟨_, rfl, rfl⟩

/-- A job that is reported to a repack request is added to the queue even if it is there. -/
theorem queues_ne_of_requeueForReportToRepack (he : ∀ n, e.fails n = none)
    (hobject : s.object = some (.retrieveRequest r)) {j : RetrieveJob} (hj : j ∈ r.jobs)
    (hfile : r.tapeFile j.copyNb = some file) :
    (after (r.requeueForReportToRepack e file) s).queues ≠ s.queues := by
  have hcopy : file.copyNb = j.copyNb := by simpa using List.find?_some hfile
  obtain ⟨job, hjob⟩ : ∃ job, r.jobs.find? (·.copyNb = file.copyNb) = some job := by
    rw [← Option.isSome_iff_exists, List.find?_isSome]
    exact ⟨j, hj, by simp [hcopy]⟩
  have hany : r.jobs.any (·.copyNb = file.copyNb) = true :=
    List.any_eq_true.mpr ⟨j, hj, by simp [hcopy]⟩
  obtain ⟨id, jobToAdd, hinsert, hcopyNb⟩ : ∃ id jobToAdd,
      r.insertRetrieveRequest s.address e.time file = .ok (id, jobToAdd) ∧
        jobToAdd.copyNb = file.copyNb := by
    simp only [insertRetrieveRequest, hjob]
    exact ⟨_, _, rfl, rfl⟩
  obtain ⟨queue, t1, hrun1, hobject1, -, hfind1, hsame⟩ :=
    retrieve.getLockedAndFetched_calm he id s
  obtain ⟨t2, hrun2, hobject2, -, hfind2⟩ :=
    QueueKind.addJobsAndCommit_calm he (List.cons_ne_nil jobToAdd []) hfind1
  obtain ⟨t3, hrun3, hqueues3⟩ := asyncUpdateJobOwner_calm he jobToAdd.copyNb
    queue.address (hobject2.trans (hobject1.trans hobject)) (by rw [hcopyNb, hany])
  have hrun : r.requeueForReportToRepack e file s = .ok () { t3 with
      operations := t3.operations + 1
      ownership := t3.ownership.erase jobToAdd.retrieveRequestAddress } := by
    unfold requeueForReportToRepack
    rw [bind_ok (get_run _), bind_ok (ofResult_eq_ok.mpr ⟨hinsert, rfl⟩)]
    simp only [flushAll]
    rw [bind_ok hrun1, bind_ok hrun2, bind_ok (observing_ok hrun3)]
    exact bind_ok (attempt_calm he t3) _
  rw [after_ok hrun]
  refine QueueKind.queues_ne (List.cons_ne_nil jobToAdd []) hsame ?_
  rw [← hfind2, ← hqueues3]

end RetrieveRequest

namespace RepackRequest

/-- The collector becomes the owner, and a request that has a queue is added to it. -/
theorem garbageCollect_calm (he : ∀ n, e.fails n = none) (r : RepackRequest)
    (agentReference : Address) (s : Store) :
    ∃ t, r.garbageCollect e agentReference s = .ok () t ∧
      t.object = some (.repackRequest { r with owner := agentReference }) ∧
      ∀ queueType, r.getQueueType = .ok queueType → t.queues ≠ s.queues := by
  unfold garbageCollect
  rw [bind_ok (attempt_calm he s), bind_ok (modify_run _ _)]
  dsimp only
  generalize hs₁ : ({ s with
    operations := s.operations + 1, ownership := insert s.address s.ownership } : Store) = s₁
  have hqueues : s₁.queues = s.queues := by rw [← hs₁]
  cases htype : r.getQueueType with
  | error failure =>
    obtain rfl := getQueueType_error htype
    have hfind : ({ r with owner := agentReference } : RepackRequest).findQueue e s₁ =
        .error .exception s₁ := bind_error (ofResult_error htype) _
    rw [bind_ok (observing_error hfind)]
    exact ⟨_, commit_calm he _ _, rfl, fun _ h => by cases h⟩
  | ok queueType =>
    obtain ⟨queue, t1, hrun1, -, -, hfind1, hsame⟩ :=
      repack.getLockedAndFetched_calm he queueType s₁
    have hfind : ({ r with owner := agentReference } : RepackRequest).findQueue e s₁ =
        .ok queueType t1 :=
      (bind_ok (ofResult_eq_ok.mpr ⟨htype, rfl⟩) _).trans (bind_ok hrun1 _)
    obtain ⟨t2, hrun2, -, -, hfind2⟩ :=
      QueueKind.addJobsAndCommit_calm he (List.cons_ne_nil t1.address []) hfind1
    rw [bind_ok (observing_ok hfind)]
    dsimp only
    rw [bind_ok (get_run _), bind_ok (observing_ok hrun2)]
    refine ⟨_, commit_calm he _ _, rfl, fun _ _ => ?_⟩
    rw [← hqueues]
    exact QueueKind.queues_ne (List.cons_ne_nil t1.address []) hsame hfind2

end RepackRequest

end

def calm (selectBestRetrieveQueue : Finset String → Bool → Except Failure String) :
    Surroundings where
  fails _ := none
  selectBestRetrieveQueue
  nextId name := name
  time := 0
  localTimeAndHost := ""

section
variable {agentReference presumedOwner : Address} {s : Store}

theorem RetrieveRequest.after_garbageCollect {r : RetrieveRequest} (e : Surroundings)
    (hforeign : r.owner ≠ presumedOwner) : ∃ s₁, Untouched s s₁ ∧
      after (r.garbageCollect e presumedOwner) s = after (r.requeue e) s₁ := by
  unfold garbageCollect
  rw [if_pos hforeign]
  refine ⟨_, ?_, after_congr (bind_ok (log_run _ s) _)⟩
  exact ⟨rfl, rfl, rfl⟩

theorem RetrieveRequest.harmless_of_leavesAlone {r : RetrieveRequest}
    (hobject : s.object = some (.retrieveRequest r)) (hforeign : r.owner ≠ presumedOwner)
    (h : LeavesAlone agentReference presumedOwner s (.retrieveRequest r)) :
    r.Harmless s.address s.queues := by
  have hrequeue : ∀ e, ∃ s₁, Untouched s s₁ ∧ (after (r.requeue e) s₁).object = s₁.object ∧
      (after (r.requeue e) s₁).queues = s₁.queues := by
    intro e
    obtain ⟨s₁, hs₁, heq⟩ := after_garbageCollect (s := s) e hforeign
    obtain ⟨ho, hq⟩ := h e
    rw [garbageCollectDispatcher, heq] at ho hq
    exact ⟨s₁, hs₁, ho.trans hs₁.object.symm, hq.trans hs₁.queues.symm⟩
  have hfound := r.scan_found ∅ r.jobs
  cases hscan : r.scan ∅ r.jobs with
  | error failure =>
    rw [hscan] at hfound
    cases hfound with
    | lost _ h => exact .lostJob h
  | ok result =>
    rw [hscan] at hfound
    cases hfound with
    | reported file j hfirst hj hreported hfile =>
      obtain ⟨s₁, hs₁, -, hqueues⟩ := hrequeue (calm fun _ _ => .error .exception)
      simp only [requeue, hscan] at hqueues
      exact absurd hqueues (queues_ne_of_requeueForReportToRepack (fun _ => rfl)
        (hs₁.object.trans hobject) hj hfile)
    | candidates vids hjobs hempty =>
      have hempty : vids = ∅ ↔ ∀ j ∈ r.jobs, j.status ≠ .toTransfer := by simpa using hempty
      cases hactive : r.tapeFile r.activeCopyNb with
      | some file =>
        -- The answer that no tape is available leads to the queue of the failed requests.
        obtain ⟨s₁, hs₁, ho, hq⟩ :=
          hrequeue (calm fun _ _ => .error .noTapeAvailableForRetrieve)
        have hfailure : r.requeue (calm fun _ _ => .error .noTapeAvailableForRetrieve) =
            r.queueForFailure (calm fun _ _ => .error .noTapeAvailableForRetrieve) := by
          simp only [requeue, hscan, calm, ite_self]
        rw [hfailure] at ho hq
        obtain ⟨hstatus, hqueued⟩ := queued_of_queueForFailure (fun _ => rfl) hactive
          (ho.trans (hs₁.object.trans hobject)) hq
        rw [hs₁.address, hs₁.queues] at hqueued
        exact .queued (fun j hj => (hjobs j hj).2) hstatus file hactive hqueued
      | none =>
        refine .noTape hjobs hactive fun htransfer vid => ?_
        by_contra hbest
        obtain ⟨⟨file, job⟩, hbest⟩ := Option.ne_none_iff_exists'.mp hbest
        obtain ⟨s₁, hs₁, ho, -⟩ := hrequeue (calm fun _ _ => .ok vid)
        have hvids : vids ≠ ∅ := by
          rw [Ne, hempty]
          push Not
          exact htransfer
        have htransfer : r.requeue (calm fun _ _ => .ok vid) =
            r.queueForTransfer (calm fun _ _ => .ok vid) vid := by
          simp only [requeue, hscan, calm, if_neg hvids]
        rw [htransfer] at ho
        exact active_of_queueForTransfer (fun _ => rfl) hbest
          (ho.trans (hs₁.object.trans hobject)) hactive

theorem RepackRequest.harmless_of_leavesAlone {r : RepackRequest}
    (hobject : s.object = some (.repackRequest r))
    (h : LeavesAlone agentReference presumedOwner s (.repackRequest r)) :
    r.owner = agentReference ∧ ∃ failure, r.getQueueType = .error failure := by
  obtain ⟨t, hrun, ht, hne⟩ := garbageCollect_calm (e := calm fun _ _ => .error .exception)
    (fun _ => rfl) r agentReference s
  obtain ⟨ho, hq⟩ := h (calm fun _ _ => .error .exception)
  rw [garbageCollectDispatcher, after_ok hrun] at ho hq
  have hsame := Object.repackRequest.inj (Option.some.inj (ht.symm.trans (ho.trans hobject)))
  refine ⟨(congrArg owner hsame).symm, ?_⟩
  cases htype : r.getQueueType with
  | ok queueType => exact absurd hq (hne queueType htype)
  | error failure => exact ⟨failure, rfl⟩

/-- An object of another owner is left alone if and only if its type checks the owner, or nothing
is left to be done for it. -/
theorem leavesAlone_iff_harmless {o : Object} (hobject : s.object = some o)
    (hforeign : ¬o.OwnedBy presumedOwner) :
    LeavesAlone agentReference presumedOwner s o ↔
      o.Harmless agentReference s.address s.queues := by
  have hkeeps : ∀ o, (∀ e, Keeps s (garbageCollectDispatcher e agentReference presumedOwner o)) →
      LeavesAlone agentReference presumedOwner s o := fun o h e =>
    ⟨((h e).after (.refl s)).object, ((h e).after (.refl s)).queues⟩
  cases o with
  | archiveRequest r =>
    have howners : ∀ j ∈ r.jobs, j.owner ≠ presumedOwner := fun j hj heq => hforeign ⟨j, hj, heq⟩
    exact iff_of_true (hkeeps _ fun e => ArchiveRequest.keeps howners) trivial
  | agent a => exact iff_of_true (hkeeps _ fun e => Agent.keeps hforeign) trivial
  | archiveQueue q => exact iff_of_true (hkeeps _ fun e => ArchiveQueue.keeps hforeign) trivial
  | retrieveRequest r =>
    exact ⟨RetrieveRequest.harmless_of_leavesAlone hobject hforeign,
      fun h => hkeeps _ fun e => RetrieveRequest.Harmless.keeps hobject h presumedOwner⟩
  | repackRequest r =>
    refine ⟨RepackRequest.harmless_of_leavesAlone hobject, ?_⟩
    rintro ⟨rfl, failure, hfailure⟩
    exact hkeeps _ fun e => RepackRequest.keeps hobject hfailure

end

def storeOf (o : Object) : Store where
  address := "request"
  object := some o
  queues := {}
  rootEntry := "root"
  agentRegister := ⟨"agentRegister", [], []⟩
  ownership := ∅

def popped : RetrieveRequest where
  owner := "live"
  jobs := [⟨⟨1, .toTransfer⟩, []⟩]
  tapeFiles := [⟨"V1", 1, 7⟩]
  activeCopyNb := 1
  fileSize := 100
  mountPolicy := { name := "policy" }
  entryLogTime := 0
  activity := none
  diskSystemName := none
  repackRequestAddress := ""
  forceDisabledTape := false

def expanding : RepackRequest := ⟨"live", .running, true, true, false⟩

/-- The live agent loses both, and the retrieve request is queued behind its back. -/
theorem foreign_requests_taken :
    ¬(Object.retrieveRequest popped).OwnedBy "dead" ∧
      ¬(Object.repackRequest expanding).OwnedBy "dead" ∧
      (after (garbageCollectDispatcher (calm fun _ _ => .ok "V1") "collector" "dead"
        (.retrieveRequest popped)) (storeOf (.retrieveRequest popped))).object =
          some (.retrieveRequest { popped with owner := "RetrieveQueueToTransferForUser-V1" }) ∧
      (after (garbageCollectDispatcher (calm fun _ _ => .ok "V1") "collector" "dead"
        (.repackRequest expanding)) (storeOf (.repackRequest expanding))).object =
          some (.repackRequest { expanding with owner := "collector" }) ∧
      ¬LeavesAlone "collector" "dead" (storeOf (.retrieveRequest popped))
        (.retrieveRequest popped) ∧
      ¬LeavesAlone "collector" "dead" (storeOf (.repackRequest expanding))
        (.repackRequest expanding) := by
  have hretrieve : (after (garbageCollectDispatcher (calm fun _ _ => .ok "V1") "collector" "dead"
      (.retrieveRequest popped)) (storeOf (.retrieveRequest popped))).object =
        some (.retrieveRequest { popped with owner := "RetrieveQueueToTransferForUser-V1" }) := by
    decide +kernel
  have hrepack : (after (garbageCollectDispatcher (calm fun _ _ => .ok "V1") "collector" "dead"
      (.repackRequest expanding)) (storeOf (.repackRequest expanding))).object =
        some (.repackRequest { expanding with owner := "collector" }) := by
    decide +kernel
  have hlive : "live" ≠ "dead" := by decide
  refine ⟨hlive, hlive, hretrieve, hrepack, fun h => ?_, fun h => ?_⟩
  · exact absurd (hretrieve.symm.trans (h _).1) (by decide +kernel)
  · exact absurd (hrepack.symm.trans (h _).1) (by decide +kernel)

/-- The collector has the request already, and its status has no queue. -/
theorem expanding_left_alone :
    LeavesAlone "live" "dead" (storeOf (.repackRequest expanding)) (.repackRequest expanding) := by
  have hforeign : ¬(Object.repackRequest expanding).OwnedBy "dead" :=
    (by decide : "live" ≠ "dead")
  exact (leavesAlone_iff_harmless rfl hforeign).mpr ⟨rfl, .exception, rfl⟩

end Cta.ObjectStore.IndividualCollection
