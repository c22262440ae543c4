import Cta.ObjectStore.JobOwners
import Cta.Lib.Runs
import Mathlib.Data.List.Nodup
import Mathlib.Logic.Function.Basic

/-! Which job of an archive request reports to the user. -/
namespace Cta.ObjectStore.ArchiveRequestReport
open Cta.Lib.Runs

structure Job where
  copyNb : Nat
  status : ArchiveJobStatus
  totalRetries : UInt32
  maxTotalRetries : UInt32
  retriesWithinMount : UInt32
  maxRetriesWithinMount : UInt32
  lastMountWithFailure : Nat
  deriving DecidableEq, Repr

structure Request where
  jobs : List Job
  reportDecided : Bool
  isRepack : Bool
  deriving DecidableEq, Repr

inductive JobEvent where
  | transferFailed
  | reportFailed
  deriving DecidableEq, Repr

inductive NextStep where
  | nothing
  | enqueueForTransferForUser
  | enqueueForTransferForRepack
  | enqueueForReportForUser
  | enqueueForReportForRepack
  | storeInFailedJobsContainer
  deriving DecidableEq, Repr

structure EnqueueingNextStep where
  nextStatus : ArchiveJobStatus
  nextStep : NextStep
  deriving DecidableEq, Repr

/-- The loops over the jobs that change the first one of a copy and leave there. `none` is
the exception after the loop. -/
def changeJob (copyNumber : Nat) (g : Job → Job) : List Job → Option (Job × List Job)
  | [] => none
  | j :: js =>
    if j.copyNb = copyNumber then some (g j, g j :: js)
    else (changeJob copyNumber g js).map fun p => (p.1, j :: p.2)

def Request.setJobStatus (copyNumber : Nat) (status : ArchiveJobStatus) (r : Request) :
    Option Request :=
  (changeJob copyNumber (fun j => { j with status }) r.jobs).map fun p => { r with jobs := p.2 }

/-- `ArchiveRequest::determineNextStep`. An unexpected status of the job is only warned about. -/
def Request.determineNextStep (copyNumberUpdated : Nat) (jobEvent : JobEvent) (r : Request) :
    Option (EnqueueingNextStep × Request) :=
  if r.jobs.all (·.copyNb ≠ copyNumberUpdated) then none
  else match jobEvent with
  | .transferFailed =>
    if !r.reportDecided then
      some (if r.isRepack then ⟨.toReportToRepackForFailure, .enqueueForReportForRepack⟩
          else ⟨.toReportToUserForFailure, .enqueueForReportForUser⟩,
        { r with reportDecided := true })
    else
      some (if r.isRepack then ⟨.toReportToRepackForFailure, .enqueueForReportForRepack⟩
          else ⟨.failed, .storeInFailedJobsContainer⟩, r)
  | .reportFailed => some (⟨.failed, .storeInFailedJobsContainer⟩, r)

def Job.countFailure (mountId : Nat) (j : Job) : Job :=
  if j.lastMountWithFailure = mountId then
    { j with retriesWithinMount := j.retriesWithinMount + 1, totalRetries := j.totalRetries + 1 }
  else
    { j with retriesWithinMount := 1, lastMountWithFailure := mountId,
             totalRetries := j.totalRetries + 1 }

def Request.addTransferFailure (copyNumber mountId : Nat) (r : Request) :
    Option (EnqueueingNextStep × Request) :=
  match changeJob copyNumber (Job.countFailure mountId) r.jobs with
  | none => none
  | some (j, jobs) =>
    let r := { r with jobs }
    if j.maxTotalRetries ≤ j.totalRetries then r.determineNextStep copyNumber .transferFailed
    else
      some (⟨if r.isRepack then .toTransferForRepack else .toTransferForUser,
        -- The job comes back to this mount or stays owned by the session, to be collected.
        if j.maxRetriesWithinMount ≤ j.retriesWithinMount then .nothing
        else if r.isRepack then .enqueueForTransferForRepack
        else .enqueueForTransferForUser⟩, r)

/-- What `OStoreDB::ArchiveJob::failTransfer` commits on the request it locked and fetched. -/
def Request.failTransfer (copyNumber mountId : Nat) (r : Request) : Option Request :=
  match r.addTransferFailure copyNumber mountId with
  | none => none
  | some (next, r) => r.setJobStatus copyNumber next.nextStatus

def Request.otherJobsToTransfer (copyNumber : Nat) (r : Request) : Bool :=
  r.jobs.any fun j => j.copyNb ≠ copyNumber ∧ j.status = .toTransferForUser

/-- The callback of `ArchiveRequest::asyncUpdateTransferSuccessful`. It works on the stored
request, but the decision flag is the one of the mount's own copy, `m_payload`. -/
def Request.updateTransferSuccessful (ownReportDecided : Bool) (copyNumber : Nat) (r : Request) :
    Option Request :=
  if !r.isRepack then
    r.setJobStatus copyNumber
      (if r.otherJobsToTransfer copyNumber || ownReportDecided then .complete
       else .toReportToUserForTransfer)
  else r.setJobStatus copyNumber .toReportToRepackForSuccess

def ToReportToUser (st : ArchiveJobStatus) : Prop :=
  st = .toReportToUserForTransfer ∨ st = .toReportToUserForFailure

instance (st : ArchiveJobStatus) : Decidable (ToReportToUser st) :=
  inferInstanceAs (Decidable (_ ∨ _))

def newReports (before after : List Job) : List (Nat × ArchiveJobStatus) :=
  (before.zip after).filterMap fun p =>
    if ToReportToUser p.2.status ∧ p.1.status ≠ p.2.status then some (p.2.copyNb, p.2.status)
    else none

/-- `ownReportDecided` is the flag in the copy of the request that the mount of each job has,
`reports` every report a job ever entered, `transferred` the copies that reached tape. -/
structure State where
  request : Request
  ownReportDecided : Nat → Bool
  reports : List (Nat × ArchiveJobStatus)
  transferred : List Nat

inductive Event where
  /-- A job goes to a mount, which has not read the request. -/
  | mount (copyNumber : Nat)
  /-- The mount of a job reads the request. -/
  | fetch (copyNumber : Nat)
  | succeed (copyNumber : Nat)
  | fail (copyNumber mountId : Nat)
  deriving DecidableEq, Repr

def State.commit (s : State) (r : Request) : State :=
  { s with request := r, reports := s.reports ++ newReports s.request.jobs r.jobs }

def step (s : State) : Event → State
  | .mount c => { s with ownReportDecided := Function.update s.ownReportDecided c false }
  | .fetch c =>
    { s with ownReportDecided :=
        Function.update s.ownReportDecided c s.request.reportDecided }
  | .succeed c =>
    match s.request.updateTransferSuccessful (s.ownReportDecided c) c with
    | none => s
    | some r => { s.commit r with transferred := c :: s.transferred }
  | .fail c mountId =>
    match s.request.failTransfer c mountId with
    | none => s
    | some r =>
      { s.commit r with
        ownReportDecided := Function.update s.ownReportDecided c r.reportDecided }

structure Queued (s : State) : Prop where
  nodup : (s.request.jobs.map Job.copyNb).Nodup
  toTransfer : ∀ j ∈ s.request.jobs, j.status = .toTransferForUser
  user : s.request.isRepack = false
  undecided : s.request.reportDecided = false
  unread : ∀ c, s.ownReportDecided c = false
  reports : s.reports = []
  transferred : s.transferred = []

def Pending (s : State) : Event → Prop
  | .succeed c => ∃ j ∈ s.request.jobs, j.copyNb = c ∧ j.status = .toTransferForUser
  | .fail c _ => ∃ j ∈ s.request.jobs, j.copyNb = c ∧ j.status = .toTransferForUser
  | _ => True

instance (s : State) : ∀ e, Decidable (Pending s e)
  | .succeed _ => inferInstanceAs (Decidable (∃ j ∈ _, _))
  | .fail _ _ => inferInstanceAs (Decidable (∃ j ∈ _, _))
  | .mount _ => inferInstanceAs (Decidable True)
  | .fetch _ => inferInstanceAs (Decidable True)

def OneReport (s : State) : Prop :=
  s.reports.length ≤ 1 ∧
    ((∃ p ∈ s.reports, p.2 = .toReportToUserForTransfer) →
      ∀ j ∈ s.request.jobs, j.copyNb ∈ s.transferred)

instance (s : State) : Decidable (OneReport s) :=
  inferInstanceAs (Decidable (_ ∧ (_ → _)))

def Fresh (s : State) : Event → Prop
  | .succeed c => s.request.reportDecided = true →
      s.request.otherJobsToTransfer c = true ∨ s.ownReportDecided c = true
  | _ => True

instance (s : State) : ∀ e, Decidable (Fresh s e)
  | .succeed _ => inferInstanceAs (Decidable (_ → _ ∨ _))
  | .fail _ _ => inferInstanceAs (Decidable True)
  | .mount _ => inferInstanceAs (Decidable True)
  | .fetch _ => inferInstanceAs (Decidable True)

theorem changeJob_eq {c : Nat} {g : Job → Job} {jobs : List Job}
    (hn : (jobs.map Job.copyNb).Nodup) {j : Job} (hj : j ∈ jobs) (hc : j.copyNb = c) :
    ∃ pre post, jobs = pre ++ j :: post ∧ (∀ i ∈ pre ++ post, i.copyNb ≠ c) ∧
      changeJob c g jobs = some (g j, pre ++ g j :: post) := by
  induction jobs with
  | nil => cases hj
  | cons i is ih =>
    rw [List.map_cons, List.nodup_cons] at hn
    by_cases hi : i.copyNb = c
    · have hji : j = i := by
        cases List.mem_cons.mp hj with
        | inl h => exact h
        | inr h =>
          rw [hi, ← hc] at hn
          exact absurd (List.mem_map_of_mem h) hn.1
      subst hji
      refine ⟨[], is, rfl, fun k hk hkc => ?_, by simp [changeJob, hi]⟩
      rw [hi, ← hkc] at hn
      exact hn.1 (List.mem_map_of_mem hk)
    · have hji : j ∈ is := by
        cases List.mem_cons.mp hj with
        | inl h => exact absurd (h ▸ hc) hi
        | inr h => exact h
      obtain ⟨pre, post, rfl, hother, heq⟩ := ih hn.2 hji
      refine ⟨i :: pre, post, rfl, ?_, by simp [changeJob, hi, heq]⟩
      intro k hk
      cases List.mem_cons.mp hk with
      | inl h => exact h ▸ hi
      | inr h => exact hother k h

theorem changeJob_again {c : Nat} {g : Job → Job} {pre post : List Job} {j : Job}
    (hother : ∀ i ∈ pre ++ post, i.copyNb ≠ c) (hc : j.copyNb = c) :
    changeJob c g (pre ++ j :: post) = some (g j, pre ++ g j :: post) := by
  induction pre with
  | nil => simp [changeJob, hc]
  | cons i is ih =>
    have hi : i.copyNb ≠ c := hother i (by simp)
    simp [changeJob, hi, ih fun k hk => hother k (by simp at hk ⊢; tauto)]

@[simp] theorem newReports_refl (jobs : List Job) : newReports jobs jobs = [] := by
  induction jobs with
  | nil => rfl
  | cons j js ih =>
    simp only [newReports] at ih
    simp [newReports, ih]

theorem newReports_change (pre post : List Job) (j j' : Job) :
    newReports (pre ++ j :: post) (pre ++ j' :: post) =
      if ToReportToUser j'.status ∧ j.status ≠ j'.status then [(j'.copyNb, j'.status)]
      else [] := by
  have hpre := newReports_refl pre
  have hpost := newReports_refl post
  simp only [newReports] at hpre hpost
  simp only [newReports, List.zip_append rfl, List.filterMap_append, hpre, List.zip_cons_cons,
    List.filterMap_cons, hpost, List.nil_append]
  split <;> simp_all

@[simp] theorem countFailure_copyNb (m : Nat) (j : Job) :
    (j.countFailure m).copyNb = j.copyNb := by
  unfold Job.countFailure
  split <;> rfl

theorem otherJobsToTransfer_iff {c : Nat} {r : Request} {pre post : List Job} {j : Job}
    (hr : r.jobs = pre ++ j :: post) (hother : ∀ i ∈ pre ++ post, i.copyNb ≠ c)
    (hc : j.copyNb = c) :
    r.otherJobsToTransfer c = true ↔ ∃ i ∈ pre ++ post, i.status = .toTransferForUser := by
  have hpre : ∀ i ∈ pre, i.copyNb ≠ c := fun i hi => hother i (by simp [hi])
  have hpost : ∀ i ∈ post, i.copyNb ≠ c := fun i hi => hother i (by simp [hi])
  simp only [Request.otherJobsToTransfer, hr, List.any_eq_true, decide_eq_true_eq]
  constructor
  · rintro ⟨i, hi, hne, hst⟩
    have : i ≠ j := fun h => hne (h ▸ hc)
    exact ⟨i, by simp at hi ⊢; tauto, hst⟩
  · rintro ⟨i, hi, hst⟩
    exact ⟨i, by simp at hi ⊢; tauto, hother i hi, hst⟩

/-- A job of a user's request is given another status, and the other jobs stay. -/
structure Moves (s s' : State) (c : Nat) (j j' : Job) (pre post : List Job) : Prop where
  jobs : s.request.jobs = pre ++ j :: post
  jobs' : s'.request.jobs = pre ++ j' :: post
  others : ∀ i ∈ pre ++ post, i.copyNb ≠ c
  copyNb : j.copyNb = c
  copyNb' : j'.copyNb = c
  toTransfer : j.status = .toTransferForUser
  user : s'.request.isRepack = s.request.isRepack
  reports : s'.reports = s.reports ++ if ToReportToUser j'.status then [(c, j'.status)] else []

theorem succeed_moves {s : State} (hn : (s.request.jobs.map Job.copyNb).Nodup)
    (hu : s.request.isRepack = false) {c : Nat} (hp : Pending s (.succeed c)) :
    ∃ j j' pre post, Moves s (step s (.succeed c)) c j j' pre post ∧
      (step s (.succeed c)).request.reportDecided = s.request.reportDecided ∧
      (step s (.succeed c)).ownReportDecided = s.ownReportDecided ∧
      (step s (.succeed c)).transferred = c :: s.transferred ∧
      j'.status = if s.request.otherJobsToTransfer c || s.ownReportDecided c then .complete
        else .toReportToUserForTransfer := by
  obtain ⟨j, hj, hc, hst⟩ := hp
  let st : ArchiveJobStatus :=
    if s.request.otherJobsToTransfer c || s.ownReportDecided c then .complete
    else .toReportToUserForTransfer
  obtain ⟨pre, post, hjobs, hother, hch⟩ :=
    changeJob_eq (g := fun j => { j with status := st }) hn hj hc
  have hupd : s.request.updateTransferSuccessful (s.ownReportDecided c) c =
      some { s.request with jobs := pre ++ { j with status := st } :: post } := by
    simp only [Request.updateTransferSuccessful, hu, Bool.not_false, if_true,
      Request.setJobStatus]
    exact congrArg _ hch
  have hne : j.status ≠ st := by
    rw [hst]
    simp only [st]
    split <;> decide
  refine ⟨j, { j with status := st }, pre, post, ⟨hjobs, ?_, hother, hc, hc, hst, ?_, ?_⟩,
    ?_, ?_, ?_, rfl⟩
  all_goals simp only [step, hupd, State.commit]
  rw [hjobs, newReports_change]
  simp [hne, hc]

theorem fail_moves {s : State} (hn : (s.request.jobs.map Job.copyNb).Nodup)
    (hu : s.request.isRepack = false) {c m : Nat} (hp : Pending s (.fail c m)) :
    ∃ j j' pre post, Moves s (step s (.fail c m)) c j j' pre post ∧
      (step s (.fail c m)).ownReportDecided =
        Function.update s.ownReportDecided c (step s (.fail c m)).request.reportDecided ∧
      (step s (.fail c m)).transferred = s.transferred ∧
      ((j'.status = .toTransferForUser ∧
          (step s (.fail c m)).request.reportDecided = s.request.reportDecided) ∨
        (j'.status = .toReportToUserForFailure ∧ s.request.reportDecided = false ∧
          (step s (.fail c m)).request.reportDecided = true) ∨
        (j'.status = .failed ∧ s.request.reportDecided = true ∧
          (step s (.fail c m)).request.reportDecided = true)) := by
  obtain ⟨j, hj, hc, hst⟩ := hp
  obtain ⟨pre, post, hjobs, hother, hch⟩ := changeJob_eq (g := Job.countFailure m) hn hj hc
  -- the failure is counted, the next status is decided, and then it is set
  have hset (st : ArchiveJobStatus) (d : Bool) :
      Request.setJobStatus c st ⟨pre ++ j.countFailure m :: post, d, s.request.isRepack⟩ =
        some ⟨pre ++ { j.countFailure m with status := st } :: post, d, s.request.isRepack⟩ := by
    rw [Request.setJobStatus, changeJob_again hother (by simp [hc])]
    rfl
  have hfound : ¬ ((pre ++ j.countFailure m :: post).all (·.copyNb ≠ c)) = true := by
    simp [hc]
  have hmoves (st : ArchiveJobStatus) (d : Bool)
      (hupd : s.request.failTransfer c m =
        some ⟨pre ++ { j.countFailure m with status := st } :: post, d, s.request.isRepack⟩)
      (hne : ToReportToUser st → j.status ≠ st) :
      Moves s (step s (.fail c m)) c j { j.countFailure m with status := st } pre post ∧
        (step s (.fail c m)).ownReportDecided =
          Function.update s.ownReportDecided c (step s (.fail c m)).request.reportDecided ∧
        (step s (.fail c m)).transferred = s.transferred ∧
        (step s (.fail c m)).request.reportDecided = d := by
    refine ⟨⟨hjobs, ?_, hother, hc, by simp [hc], hst, ?_, ?_⟩, ?_, ?_, ?_⟩
    all_goals simp only [step, hupd, State.commit]
    rw [hjobs, newReports_change]
    by_cases hr : ToReportToUser st
    · simp [hr, hne hr, hc]
    · simp [hr]
  by_cases hmax : (j.countFailure m).maxTotalRetries ≤ (j.countFailure m).totalRetries
  · cases hd : s.request.reportDecided with
    | false =>
      have hupd : s.request.failTransfer c m =
          some ⟨pre ++ { j.countFailure m with status := .toReportToUserForFailure } :: post,
            true, s.request.isRepack⟩ := by
        rw [← hset]
        simp only [Request.failTransfer, Request.addTransferFailure, hch, hmax, if_true,
          Request.determineNextStep, hfound, hd, Bool.not_false, hu]
        simp
      obtain ⟨hm, hown, ht, hd'⟩ := hmoves _ _ hupd (fun _ => by simp [hst])
      exact ⟨_, _, _, _, hm, hown, ht, Or.inr (Or.inl ⟨rfl, rfl, hd'⟩)⟩
    | true =>
      have hupd : s.request.failTransfer c m =
          some ⟨pre ++ { j.countFailure m with status := .failed } :: post,
            true, s.request.isRepack⟩ := by
        rw [← hset]
        simp only [Request.failTransfer, Request.addTransferFailure, hch, hmax, if_true,
          Request.determineNextStep, hfound, hd, Bool.not_true, hu]
        simp
      obtain ⟨hm, hown, ht, hd'⟩ := hmoves _ _ hupd (fun _ => by simp [hst])
      exact ⟨_, _, _, _, hm, hown, ht, Or.inr (Or.inr ⟨rfl, rfl, hd'⟩)⟩
  · have hupd : s.request.failTransfer c m =
        some ⟨pre ++ { j.countFailure m with status := .toTransferForUser } :: post,
          s.request.reportDecided, s.request.isRepack⟩ := by
      rw [← hset]
      simp only [Request.failTransfer, Request.addTransferFailure, hch, hmax, if_false, hu]
      simp
    obtain ⟨hm, hown, ht, hd'⟩ := hmoves _ _ hupd (fun h => absurd h (by decide))
    exact ⟨_, _, _, _, hm, hown, ht, Or.inl ⟨rfl, hd'⟩⟩

/-- As long as nothing is decided, the jobs not on tape are still to transfer; a report is
decided, or entered by the last job. -/
structure Sound (s : State) : Prop where
  nodup : (s.request.jobs.map Job.copyNb).Nodup
  user : s.request.isRepack = false
  one : s.reports.length ≤ 1
  decided : s.request.reportDecided = true → s.reports ≠ []
  own : ∀ c, s.ownReportDecided c = true → s.request.reportDecided = true
  last : s.request.reportDecided = false → s.reports ≠ [] →
    ∀ j ∈ s.request.jobs, j.status ≠ .toTransferForUser
  pending : s.request.reportDecided = false →
    ∀ j ∈ s.request.jobs, j.status = .toTransferForUser ∨ j.copyNb ∈ s.transferred
  success : (∃ p ∈ s.reports, p.2 = .toReportToUserForTransfer) →
    ∀ j ∈ s.request.jobs, j.copyNb ∈ s.transferred

theorem Queued.sound {s : State} (h : Queued s) : Sound s where
  nodup := h.nodup
  user := h.user
  one := by simp [h.reports]
  decided := by simp [h.undecided]
  own c hc := by simp [h.unread c] at hc
  last _ hr := absurd h.reports hr
  pending _ j hj := Or.inl (h.toTransfer j hj)
  success := by simp [h.reports]

theorem Moves.nodup {s s' : State} {c : Nat} {j j' : Job} {pre post : List Job}
    (h : Moves s s' c j j' pre post) (hn : (s.request.jobs.map Job.copyNb).Nodup) :
    (s'.request.jobs.map Job.copyNb).Nodup := by
  rw [h.jobs', List.map_append, List.map_cons, h.copyNb', ← h.copyNb, ← List.map_cons,
    ← List.map_append, ← h.jobs]
  exact hn

theorem Moves.mem' {s s' : State} {c : Nat} {j j' : Job} {pre post : List Job}
    (h : Moves s s' c j j' pre post) {i : Job} (hi : i ∈ s'.request.jobs) :
    i = j' ∨ (i ∈ pre ++ post ∧ i ∈ s.request.jobs) := by
  rw [h.jobs'] at hi
  rw [h.jobs]
  simp only [List.mem_append, List.mem_cons] at hi ⊢
  tauto

theorem Moves.mem {s s' : State} {c : Nat} {j j' : Job} {pre post : List Job}
    (h : Moves s s' c j j' pre post) : j ∈ s.request.jobs := by
  simp [h.jobs]

theorem Moves.reports_of_not {s s' : State} {c : Nat} {j j' : Job} {pre post : List Job}
    (h : Moves s s' c j j' pre post) (hj : ¬ ToReportToUser j'.status) :
    s'.reports = s.reports := by
  simp [h.reports, hj]

theorem Moves.unreported {s s' : State} {c : Nat} {j j' : Job} {pre post : List Job}
    (h : Moves s s' c j j' pre post) (hs : Sound s) (hd : s.request.reportDecided = false) :
    s.reports = [] := by
  by_contra hr
  exact hs.last hd hr j h.mem h.toTransfer

theorem Sound.of_read {s : State} (hs : Sound s) (c : Nat) {b : Bool}
    (hb : b = true → s.request.reportDecided = true) :
    Sound { s with ownReportDecided := Function.update s.ownReportDecided c b } where
  nodup := hs.nodup
  user := hs.user
  one := hs.one
  decided := hs.decided
  own d hd := by
    by_cases h : d = c
    · subst h
      exact hb (by simpa using hd)
    · exact hs.own d (by simpa [Function.update_of_ne h] using hd)
  last := hs.last
  pending := hs.pending
  success := hs.success

theorem Sound.succeed {s : State} (hs : Sound s) {c : Nat} (hp : Pending s (.succeed c))
    (hf : Fresh s (.succeed c)) : Sound (step s (.succeed c)) := by
  obtain ⟨j, j', pre, post, hm, hd, hown, ht, hst⟩ := succeed_moves hs.nodup hs.user hp
  have hmem {i : Job} (hi : i ∈ (step s (.succeed c)).request.jobs)
      (hold : i ∈ pre ++ post → i ∈ s.request.jobs → i.copyNb ∈ s.transferred) :
      i.copyNb ∈ (step s (.succeed c)).transferred := by
    rw [ht]
    cases hm.mem' hi with
    | inl h => simp [h, hm.copyNb']
    | inr h => exact List.mem_cons_of_mem c (hold h.1 h.2)
  by_cases hquiet : s.request.otherJobsToTransfer c = true ∨ s.ownReportDecided c = true
  · have hst' : j'.status = .complete := by
      rw [hst]
      simp [hquiet]
    have hreports := hm.reports_of_not (by rw [hst']; decide)
    refine ⟨hm.nodup hs.nodup, hm.user.trans hs.user, ?_, ?_, ?_, ?_, ?_, ?_⟩
    · exact hreports ▸ hs.one
    · rw [hd, hreports]
      exact hs.decided
    · rw [hd, hown]
      exact hs.own
    · rw [hd, hreports]
      intro h hr i hi
      cases hm.mem' hi with
      | inl h => simp [h, hst']
      | inr h' => exact hs.last h hr i h'.2
    · rw [hd, ht]
      intro h i hi
      cases hm.mem' hi with
      | inl h => exact Or.inr (by simp [h, hm.copyNb'])
      | inr h' => exact (hs.pending h i h'.2).imp_right (List.mem_cons_of_mem c)
    · rw [hreports]
      intro h i hi
      exact hmem hi fun _ hi => hs.success h i hi
  · have hund : s.request.reportDecided = false := by
      by_contra h
      exact hquiet (hf (by simpa using h))
    have hnone := hm.unreported hs hund
    have hothers : ∀ i ∈ pre ++ post, i.status ≠ .toTransferForUser := by
      intro i hi h
      exact hquiet (Or.inl ((otherJobsToTransfer_iff hm.jobs hm.others hm.copyNb).mpr ⟨i, hi, h⟩))
    have hst' : j'.status = .toReportToUserForTransfer := by
      rw [not_or] at hquiet
      rw [hst]
      simp [hquiet.1, hquiet.2]
    refine ⟨hm.nodup hs.nodup, hm.user.trans hs.user, ?_, ?_, ?_, ?_, ?_, ?_⟩
    · rw [hm.reports, hnone]
      split <;> simp
    · simp [hd, hund]
    · rw [hd, hown]
      exact hs.own
    · intro _ _ i hi
      cases hm.mem' hi with
      | inl h => simp [h, hst']
      | inr h => exact hothers i h.1
    · intro _ i hi
      exact Or.inr (hmem hi fun ho hi => (hs.pending hund i hi).resolve_left (hothers i ho))
    · intro _ i hi
      exact hmem hi fun ho hi => (hs.pending hund i hi).resolve_left (hothers i ho)

theorem Sound.fail {s : State} (hs : Sound s) {c m : Nat} (hp : Pending s (.fail c m)) :
    Sound (step s (.fail c m)) := by
  obtain ⟨j, j', pre, post, hm, hown, ht, hcase⟩ := fail_moves hs.nodup hs.user hp
  have howns (hle : s.request.reportDecided = true →
      (step s (.fail c m)).request.reportDecided = true) (d : Nat)
      (h : (step s (.fail c m)).ownReportDecided d = true) :
      (step s (.fail c m)).request.reportDecided = true := by
    rw [hown] at h
    by_cases hdc : d = c
    · subst hdc
      simpa using h
    · rw [Function.update_of_ne hdc] at h
      exact hle (hs.own d h)
  have hold {i : Job} (hi : i ∈ (step s (.fail c m)).request.jobs) :
      ∃ k ∈ s.request.jobs, k.copyNb = i.copyNb := by
    cases hm.mem' hi with
    | inl h => exact ⟨j, hm.mem, by rw [h, hm.copyNb, hm.copyNb']⟩
    | inr h => exact ⟨i, h.2, rfl⟩
  have hsuccess (h : ∃ p ∈ s.reports, p.2 = ArchiveJobStatus.toReportToUserForTransfer) (i : Job)
      (hi : i ∈ (step s (.fail c m)).request.jobs) :
      i.copyNb ∈ (step s (.fail c m)).transferred := by
    obtain ⟨k, hk, hc⟩ := hold hi
    rw [ht, ← hc]
    exact hs.success h k hk
  rcases hcase with ⟨hst, hd⟩ | ⟨hst, hd, hd'⟩ | ⟨hst, hd, hd'⟩
  · have hreports := hm.reports_of_not (by rw [hst]; decide)
    refine ⟨hm.nodup hs.nodup, hm.user.trans hs.user, ?_, ?_, howns fun h => hd ▸ h, ?_, ?_, ?_⟩
    · exact hreports ▸ hs.one
    · rw [hd, hreports]
      exact hs.decided
    · rw [hd, hreports]
      intro h hr
      exact absurd (hm.unreported hs h) hr
    · rw [hd, ht]
      intro h i hi
      cases hm.mem' hi with
      | inl h => exact Or.inl (by simp [h, hst])
      | inr h' => exact hs.pending h i h'.2
    · rw [hreports]
      exact hsuccess
  · have hreports : (step s (.fail c m)).reports = [(c, .toReportToUserForFailure)] := by
      rw [hm.reports, hm.unreported hs hd, hst]
      rfl
    refine ⟨hm.nodup hs.nodup, hm.user.trans hs.user, ?_, ?_, howns fun _ => hd', ?_, ?_, ?_⟩
    · simp [hreports]
    · simp [hreports]
    · simp [hd']
    · simp [hd']
    · simp [hreports]
  · have hreports := hm.reports_of_not (by rw [hst]; decide)
    refine ⟨hm.nodup hs.nodup, hm.user.trans hs.user, ?_, ?_, howns fun _ => hd', ?_, ?_, ?_⟩
    · exact hreports ▸ hs.one
    · rw [hreports]
      exact fun _ => hs.decided hd
    · simp [hd']
    · simp [hd']
    · rw [hreports]
      exact hsuccess

theorem Sound.step {s : State} (hs : Sound s) {e : Event} (hp : Pending s e) (hf : Fresh s e) :
    Sound (step s e) := by
  cases e with
  | mount c => exact hs.of_read c (by simp)
  | fetch c => exact hs.of_read c id
  | succeed c => exact hs.succeed hp hf
  | fail c m => exact hs.fail hp

theorem Sound.oneReport {s : State} (hs : Sound s) : OneReport s :=
  ⟨hs.one, hs.success⟩

theorem not_oneReport_of_stale {s : State} (hs : Sound s) {e : Event} (hp : Pending s e)
    (hf : ¬ Fresh s e) : ¬ OneReport (step s e) := by
  cases e with
  | mount c => exact absurd trivial hf
  | fetch c => exact absurd trivial hf
  | fail c m => exact absurd trivial hf
  | succeed c =>
    obtain ⟨j, j', pre, post, hm, -, -, -, hst⟩ := succeed_moves hs.nodup hs.user hp
    simp only [Fresh, Classical.not_imp, not_or] at hf
    have hst' : j'.status = .toReportToUserForTransfer := by
      rw [hst]
      simp [hf.2.1, hf.2.2]
    intro h
    have hlen := h.1
    rw [hm.reports, hst'] at hlen
    simp [ToReportToUser] at hlen
    exact absurd hlen (hs.decided hf.1)

/-- The user is told once, and the truth, in the runs in which no mount reports the last
copy without having seen that a failure was decided, and in no other. -/
theorem oneReport_iff_fresh (s : State) (es : List Event) (hs : Queued s)
    (hp : AllSteps step Pending s es) :
    AllStates step OneReport s es ↔ AllSteps step Fresh s es := by
  have hsound := hs.sound
  clear hs
  induction es generalizing s with
  | nil => exact ⟨fun _ => trivial, fun _ => hsound.oneReport⟩
  | cons e es ih =>
    by_cases hf : Fresh s e
    · have hi := ih (step s e) hp.2 (hsound.step hp.1 hf)
      exact ⟨fun h => ⟨hf, hi.mp h.2⟩, fun h => ⟨hsound.oneReport, hi.mpr h.2⟩⟩
    · have hbad := not_oneReport_of_stale hsound hp.1 hf
      constructor
      · intro h
        cases es with
        | nil => exact absurd h.2 hbad
        | cons d ds => exact absurd h.2.1 hbad
      · exact fun h => absurd h.1 hf

def twoCopies : State where
  request := ⟨[⟨1, .toTransferForUser, 0, 1, 0, 1, 0⟩, ⟨2, .toTransferForUser, 0, 1, 0, 1, 0⟩],
    false, false⟩
  ownReportDecided := fun _ => false
  reports := []
  transferred := []

theorem twoCopies_queued : Queued twoCopies where
  nodup := by decide
  toTransfer := by decide
  user := rfl
  undecided := rfl
  unread _ := rfl
  reports := rfl
  transferred := rfl

theorem oneReport_iff_fresh_twoCopies :
    AllStates step OneReport twoCopies [.mount 1, .fail 2 7, .fetch 1, .succeed 1] ↔
      AllSteps step Fresh twoCopies [.mount 1, .fail 2 7, .fetch 1, .succeed 1] :=
  oneReport_iff_fresh twoCopies _ twoCopies_queued (by decide)

/-- Copy 2 fails for good while the mount of copy 1 works: the user is told of the failure
and then of a success, though copy 2 is not on tape. -/
theorem twoCopies_reported_twice :
    Queued twoCopies ∧
      AllSteps step Pending twoCopies [.mount 1, .fetch 1, .fail 2 7, .succeed 1] ∧
      (([.mount 1, .fetch 1, .fail 2 7, .succeed 1] : List Event).foldl step twoCopies).reports =
        [(2, .toReportToUserForFailure), (1, .toReportToUserForTransfer)] ∧
      ¬ AllStates step OneReport twoCopies [.mount 1, .fetch 1, .fail 2 7, .succeed 1] :=
  ⟨twoCopies_queued, by decide, by decide, fun h => absurd (AllStates.last h) (by decide)⟩

end Cta.ObjectStore.ArchiveRequestReport
