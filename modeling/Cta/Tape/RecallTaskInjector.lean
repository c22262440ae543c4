import Mathlib.Data.List.Basic
import Cta.Lib.Runs
import Mathlib.Algebra.Ring.Nat

/-! The recall task injector: jobs from the queue to the tasks of the session. -/
namespace Cta.Tape.RecallTaskInjector
open Cta.Lib.Runs

structure RetrieveJob where
  archiveFileID : Nat
  fileSize : Nat
  diskSystemName : Option String
  deriving DecidableEq, Repr

def uint64 (n : Nat) : Nat := n % 2 ^ 64

def subUint64 (a b : Nat) : Nat := (a + 2 ^ 64 - b % 2 ^ 64) % 2 ^ 64

structure RaoManager where
  useRAO : Bool
  maxFilesSupported : Option Nat
  hasUDS : Bool
  raoOrder : List Nat
  deriving DecidableEq, Repr

inductive Reservation
  | reserved | refused
  /-- `std::out_of_range`: there is no such disk system any more. -/
  | outOfRange
  | otherException
  deriving DecidableEq, Repr

/-- How a call ended, if it did not return: by an exception, or on a null job. -/
inductive Ending
  | exception | nullJob
  deriving DecidableEq, Repr

/-- `jobs` has a null slot for each job released from it. `received` are all the jobs that were
fetched. Then what the injector passed on: the batches of tasks for the disk threads and for the
tape thread, the jobs requeued, and the jobs that an exception destroyed, which are left to the
agent that owns them. -/
structure Injector where
  maxBatchFiles : Nat
  maxBatchBytes : Nat
  jobs : List (Option RetrieveJob) := []
  files : Nat := 0
  bytes : Nat := 0
  fetched : Nat := 0
  promiseFirstTaskInjectedSet : Bool := false
  diskSpaceReservationFailed : Bool := false
  received : List RetrieveJob := []
  diskWriter : List (List RetrieveJob) := []
  tapeReader : List (List RetrieveJob) := []
  requeued : List RetrieveJob := []
  leftToAgent : List RetrieveJob := []
  ending : Option Ending := none
  deriving DecidableEq, Repr

def addRequest (requests : List (String × Nat)) (job : RetrieveJob) : List (String × Nat) :=
  match job.diskSystemName with
  | none => requests
  | some name =>
    if requests.any (·.1 == name) then
      requests.map fun r => if r.1 = name then (r.1, uint64 (r.2 + job.fileSize)) else r
    else requests ++ [(name, job.fileSize)]

def diskSpaceReservation (batch : List RetrieveJob) : List (String × Nat) :=
  batch.foldl addRequest []

namespace Injector

def pending (s : Injector) : List RetrieveJob := s.jobs.filterMap id

def release (s : Injector) (index : Nat) (job : RetrieveJob) : Injector :=
  { s with
    jobs := s.jobs.set index none
    files := subUint64 s.files 1
    bytes := subUint64 s.bytes job.fileSize }

def takeBatch (s : Injector) (nFiles nBytes : Nat) :
    List Nat → Option (List RetrieveJob × Injector)
  | [] => some ([], s)
  | index :: rest =>
    if nFiles < s.maxBatchFiles ∧ nBytes < s.maxBatchBytes then
      match s.jobs[index]? with
      | some (some job) =>
        ((s.release index job).takeBatch (uint64 (nFiles + 1)) (uint64 (nBytes + job.fileSize))
          rest).map fun x => (job :: x.1, x.2)
      | _ => none
    else some ([], s)

def requeueJobBatch (s : Injector) (requeues : Bool) : Injector :=
  if requeues then { s with jobs := [], requeued := s.requeued ++ s.pending }
  else { s with
    jobs := [], leftToAgent := s.leftToAgent ++ s.pending, ending := some .exception }

def reserveSpaceForNextJobBatch (s : Injector) (nextJobBatch : List RetrieveJob)
    (reserveDiskSpace : List (String × Nat) → Reservation) (requeues : Bool) : Bool × Injector :=
  match reserveDiskSpace (diskSpaceReservation nextJobBatch) with
  | .reserved | .outOfRange => (true, s)
  | .refused =>
    let t := { s with jobs := s.jobs ++ nextJobBatch.map some }.requeueJobBatch requeues
    if requeues then
      (false, { t with files := 0, bytes := 0, diskSpaceReservationFailed := true })
    else (false, t)
  | .otherException =>
    (false, { s with
      leftToAgent := s.leftToAgent ++ nextJobBatch, ending := some .exception })

def order (s : Injector) (rao : RaoManager) : List Nat :=
  (if rao.useRAO then rao.raoOrder else List.range s.jobs.length).take (s.jobs.length % 2 ^ 32)

def injectBulkRecalls (s : Injector) (rao : RaoManager)
    (reserveDiskSpace : List (String × Nat) → Reservation) (requeues : Bool) : Injector :=
  match s.takeBatch 0 0 (s.order rao) with
  | none => { s with ending := some .nullJob }
  | some (retrieveJobsBatch, t) =>
    let (reservationSuccess, u) :=
      t.reserveSpaceForNextJobBatch retrieveJobsBatch reserveDiskSpace requeues
    if reservationSuccess then
      { u with
        diskWriter := u.diskWriter ++ [retrieveJobsBatch]
        tapeReader := u.tapeReader ++ [retrieveJobsBatch]
        promiseFirstTaskInjectedSet := u.promiseFirstTaskInjectedSet || retrieveJobsBatch ≠ []
        jobs := u.jobs.filter (·.isSome) }
    else u

def addJob (s : Injector) (job : RetrieveJob) : Injector :=
  { s with
    jobs := s.jobs ++ [some job]
    files := uint64 (s.files + 1)
    bytes := uint64 (s.bytes + job.fileSize)
    received := s.received ++ [job] }

def reqFiles (s : Injector) (rao : RaoManager) : Nat :=
  if rao.useRAO then rao.maxFilesSupported.getD s.maxBatchFiles else s.maxBatchFiles

def reqSize (s : Injector) (rao : RaoManager) : Nat :=
  if rao.useRAO && rao.hasUDS then 2 ^ 50 else s.maxBatchBytes

/-- The state with what is returned: that there is work, and `noFilesToRecall`.
`getNextJobBatch` answers with jobs or an exception. -/
def synchronousFetch (s : Injector) (rao : RaoManager)
    (getNextJobBatch : Nat → Nat → Option (List RetrieveJob)) : Injector × Bool × Bool :=
  if s.reqFiles rao ≤ s.files then (s, true, true)
  else if s.reqSize rao ≤ s.bytes then (s, true, true)
  else match getNextJobBatch (s.reqFiles rao - s.files) (s.reqSize rao - s.bytes) with
    | none => (s, false, true)
    | some jobsList =>
      let t := { jobsList.foldl addJob s with fetched := jobsList.length % 2 ^ 32 }
      (t, !t.jobs.isEmpty, jobsList.isEmpty)

end Injector

inductive Call
  | synchronousFetch (rao : RaoManager) (getNextJobBatch : Nat → Nat → Option (List RetrieveJob))
  | injectBulkRecalls (rao : RaoManager) (reserveDiskSpace : List (String × Nat) → Reservation)
      (requeues : Bool)

namespace Injector
variable {s t : Injector}

def next (s : Injector) : Call → Injector
  | .synchronousFetch rao getNextJobBatch => (s.synchronousFetch rao getNextJobBatch).1
  | .injectBulkRecalls rao reserveDiskSpace requeues =>
    s.injectBulkRecalls rao reserveDiskSpace requeues

/-- No call follows an exception, and the RAO order is a permutation of the job indices. -/
def Allowed (s : Injector) (call : Call) : Prop :=
  s.ending = none ∧
    match call with
    | .synchronousFetch _ _ => True
    | .injectBulkRecalls rao _ _ =>
      rao.useRAO = true → rao.raoOrder.Perm (List.range s.jobs.length)

def bytesOf (jobs : List RetrieveJob) : Nat := (jobs.map (·.fileSize)).sum

def Counted (s : Injector) : Prop :=
  s.files = uint64 s.pending.length ∧ s.bytes = uint64 (bytesOf s.pending)

def WithinLimits (maxFiles maxBytes nFiles nBytes : Nat) (batch : List RetrieveJob) : Prop :=
  ∀ front job, front ++ [job] <+: batch →
    nFiles + front.length < maxFiles ∧ uint64 (nBytes + bytesOf front) < maxBytes

/-- The jobs are counted, and each job that was received is pending, or has its two tasks, or was
requeued, or is left to the agent after an exception; the batches respect the limits. -/
structure Accounted (s : Injector) : Prop where
  counted : s.ending = none → s.Counted
  jobs : s.received.Perm (s.pending ++ s.diskWriter.flatten ++ s.requeued ++ s.leftToAgent)
  noneLeft : s.ending = none → s.leftToAgent = []
  tasks : s.tapeReader = s.diskWriter
  limits : ∀ batch ∈ s.diskWriter, WithinLimits s.maxBatchFiles s.maxBatchBytes 0 0 batch
  noNullJob : s.ending ≠ some .nullJob

theorem filterMap_set {l : List (Option RetrieveJob)} {i : Nat} {job : RetrieveJob}
    (hi : l[i]? = some (some job)) :
    (l.filterMap id).Perm (job :: (l.set i none).filterMap id) := by
  induction l generalizing i with
  | nil => simp at hi
  | cons x l ih =>
    cases i with
    | zero =>
      have hx : x = some job := by simpa using hi
      subst hx
      simp
    | succ i =>
      have hperm := ih (i := i) (by simpa using hi)
      cases x with
      | none => simpa using hperm
      | some other =>
        have hswap := (hperm.cons other).trans (List.Perm.swap job other _)
        simpa using hswap

theorem subUint64_uint64 {k n : Nat} : subUint64 (uint64 (k + n)) k = uint64 n := by
  unfold subUint64 uint64
  omega

theorem bytesOf_perm {jobs others : List RetrieveJob} (h : jobs.Perm others) :
    bytesOf jobs = bytesOf others := (h.map _).sum_nat

theorem release_counted {i : Nat} {job : RetrieveJob} (hs : s.Counted)
    (hi : s.jobs[i]? = some (some job)) : (s.release i job).Counted := by
  have hperm : s.pending.Perm (job :: (s.release i job).pending) := filterMap_set hi
  have hlength : s.pending.length = 1 + (s.release i job).pending.length := by
    rw [hperm.length_eq, List.length_cons, Nat.add_comm]
  have hbytes : bytesOf s.pending = job.fileSize + bytesOf (s.release i job).pending :=
    bytesOf_perm hperm
  obtain ⟨hfiles, hsize⟩ := hs
  rw [hlength] at hfiles
  rw [hbytes] at hsize
  exact ⟨(congrArg (subUint64 · 1) hfiles).trans subUint64_uint64,
    (congrArg (subUint64 · job.fileSize) hsize).trans subUint64_uint64⟩

theorem withinLimits_cons {maxFiles maxBytes nFiles nBytes : Nat} {job : RetrieveJob}
    {batch : List RetrieveJob} (hlimit : nFiles < maxFiles ∧ nBytes < maxBytes)
    (hbytes : uint64 nBytes = nBytes)
    (hbatch : WithinLimits maxFiles maxBytes (nFiles + 1) (uint64 (nBytes + job.fileSize)) batch) :
    WithinLimits maxFiles maxBytes nFiles nBytes (job :: batch) := by
  intro front last hprefix
  cases front with
  | nil => exact ⟨hlimit.1, hbytes.symm ▸ hlimit.2⟩
  | cons first front =>
    obtain ⟨rfl, htail⟩ := List.cons_prefix_cons.mp hprefix
    obtain ⟨hfiles, hsize⟩ := hbatch front last htail
    refine ⟨?_, ?_⟩
    · rw [List.length_cons]
      omega
    · rwa [uint64, uint64, Nat.mod_add_mod, Nat.add_assoc] at hsize

theorem takeBatch_spec (s : Injector) (order : List Nat) (nFiles nBytes : Nat)
    (hnodup : order.Nodup)
    (hjobs : ∀ i ∈ order, ∃ job, s.jobs[i]? = some (some job)) (hs : s.Counted)
    (hfiles : nFiles + order.length < 2 ^ 64) (hbytes : uint64 nBytes = nBytes) :
    ∃ batch t, s.takeBatch nFiles nBytes order = some (batch, t) ∧ t.Counted ∧
      s.pending.Perm (batch ++ t.pending) ∧
      WithinLimits s.maxBatchFiles s.maxBatchBytes nFiles nBytes batch ∧
      t = { s with jobs := t.jobs, files := t.files, bytes := t.bytes } := by
  induction order generalizing s nFiles nBytes with
  | nil => exact ⟨[], s, rfl, hs, List.Perm.refl _, fun front _ h => by simp at h, rfl⟩
  | cons i rest ih =>
    obtain ⟨hi, hnodup⟩ := List.nodup_cons.mp hnodup
    rw [takeBatch]
    by_cases hlimit : nFiles < s.maxBatchFiles ∧ nBytes < s.maxBatchBytes
    · obtain ⟨job, hjob⟩ := hjobs i List.mem_cons_self
      have hother : ∀ j ∈ rest, ∃ job', (s.release i job).jobs[j]? = some (some job') := by
        intro j hj
        have hne : i ≠ j := fun heq => hi (heq ▸ hj)
        obtain ⟨job', hjob'⟩ := hjobs j (List.mem_cons_of_mem i hj)
        exact ⟨job', by rw [release, List.getElem?_set_ne hne, hjob']⟩
      have hnext : uint64 (nFiles + 1) = nFiles + 1 := by
        rw [List.length_cons] at hfiles
        exact Nat.mod_eq_of_lt (by omega)
      obtain ⟨batch, t, ht, hcounted, hperm, hwithin, hframe⟩ := ih (s.release i job)
        (uint64 (nFiles + 1)) (uint64 (nBytes + job.fileSize)) hnodup hother
        (release_counted hs hjob) (by rw [hnext]; rw [List.length_cons] at hfiles; omega)
        (Nat.mod_mod _ _)
      rw [if_pos hlimit, hjob]
      simp only [ht, Option.map_some]
      refine ⟨job :: batch, t, rfl, hcounted, ?_, ?_, hframe⟩
      · exact (filterMap_set hjob).trans (hperm.cons job)
      · rw [hnext] at hwithin
        exact withinLimits_cons hlimit hbytes hwithin
    · rw [if_neg hlimit]
      exact ⟨[], s, rfl, hs, List.Perm.refl _, fun front _ h => by simp at h, rfl⟩

structure Sound (s : Injector) : Prop where
  accounted : s.Accounted
  full : s.ending = none → ∀ slot ∈ s.jobs, slot.isSome = true

theorem order_spec {rao : RaoManager}
    (horder : rao.useRAO = true → rao.raoOrder.Perm (List.range s.jobs.length)) :
    (s.order rao).Nodup ∧ (∀ i ∈ s.order rao, i < s.jobs.length) ∧
      (s.order rao).length < 2 ^ 64 := by
  have hperm : (if rao.useRAO then rao.raoOrder else List.range s.jobs.length).Perm
      (List.range s.jobs.length) := by
    split
    · rename_i huse
      exact horder huse
    · exact List.Perm.refl _
  refine ⟨?_, fun i hi => ?_, ?_⟩
  · exact (hperm.nodup_iff.mpr List.nodup_range).sublist (List.take_sublist _ _)
  · exact List.mem_range.mp (hperm.mem_iff.mp (List.mem_of_mem_take hi))
  · have hlength := List.length_take_le (s.jobs.length % 2 ^ 32)
      (if rao.useRAO then rao.raoOrder else List.range s.jobs.length)
    unfold order
    omega

theorem Sound.takeBatch (hs : s.Sound) (hending : s.ending = none) {rao : RaoManager}
    (horder : rao.useRAO = true → rao.raoOrder.Perm (List.range s.jobs.length)) :
    ∃ batch jobs files bytes, s.takeBatch 0 0 (s.order rao) =
      some (batch, { s with jobs := jobs, files := files, bytes := bytes }) ∧
      Counted { s with jobs := jobs, files := files, bytes := bytes } ∧
      s.pending.Perm (batch ++ jobs.filterMap id) ∧
      WithinLimits s.maxBatchFiles s.maxBatchBytes 0 0 batch := by
  obtain ⟨hnodup, hrange, hlength⟩ := order_spec horder
  have hjobs : ∀ i ∈ s.order rao, ∃ job, s.jobs[i]? = some (some job) := by
    intro i hi
    have hlt := hrange i hi
    have hsome := hs.full hending _ (List.getElem_mem hlt)
    obtain ⟨job, hjob⟩ := Option.isSome_iff_exists.mp hsome
    exact ⟨job, by rw [List.getElem?_eq_getElem hlt, hjob]⟩
  obtain ⟨batch, t, ht, hcounted, hperm, hwithin, hframe⟩ :=
    takeBatch_spec s (s.order rao) 0 0 hnodup hjobs (hs.accounted.counted hending) (by omega) rfl
  generalize t.jobs = jobs, t.files = files, t.bytes = bytes at hframe
  subst hframe
  exact ⟨batch, jobs, files, bytes, ht, hcounted, hperm, hwithin⟩

theorem filterMap_filter {l : List (Option RetrieveJob)} :
    (l.filter (·.isSome)).filterMap id = l.filterMap id := by
  induction l with
  | nil => rfl
  | cons x l ih =>
    cases x with
    | none => simpa using ih
    | some job => simpa using ih

theorem Sound.injectBulkRecalls (hs : s.Sound) (hending : s.ending = none) {rao : RaoManager}
    (horder : rao.useRAO = true → rao.raoOrder.Perm (List.range s.jobs.length))
    (reserveDiskSpace : List (String × Nat) → Reservation) (requeues : Bool) :
    (s.injectBulkRecalls rao reserveDiskSpace requeues).Sound := by
  obtain ⟨batch, jobs, files, bytes, htake, hcounted, hperm, hwithin⟩ := hs.takeBatch hending horder
  have hleft := hs.accounted.noneLeft hending
  have hreceived : s.received.Perm (batch ++ jobs.filterMap id ++ s.diskWriter.flatten ++
      s.requeued ++ s.leftToAgent) :=
    hs.accounted.jobs.trans (((hperm.append_right _).append_right _).append_right _)
  have hinjected : Sound { s with
      jobs := jobs.filter (·.isSome), files := files, bytes := bytes
      promiseFirstTaskInjectedSet := s.promiseFirstTaskInjectedSet || batch ≠ []
      diskWriter := s.diskWriter ++ [batch], tapeReader := s.tapeReader ++ [batch] } := by
    refine ⟨⟨fun _ => ?_, ?_, hs.accounted.noneLeft, ?_, ?_, hs.accounted.noNullJob⟩,
      fun _ slot hslot => (List.mem_filter.mp hslot).2⟩
    · simpa only [Counted, pending, filterMap_filter] using hcounted
    · refine hreceived.trans (List.perm_iff_count.mpr fun job => ?_)
      simp only [pending, filterMap_filter, List.flatten_append, List.flatten_singleton,
        List.count_append]
      omega
    · simp only [hs.accounted.tasks]
    · intro b hb
      cases List.mem_append.mp hb with
      | inl hold => exact hs.accounted.limits b hold
      | inr hnew => exact List.mem_singleton.mp hnew ▸ hwithin
  have hpending : (jobs ++ batch.map some).filterMap id = jobs.filterMap id ++ batch := by
    simp [List.filterMap_append, List.filterMap_map]
  unfold Injector.injectBulkRecalls
  rw [htake]
  cases hreserve : reserveDiskSpace (diskSpaceReservation batch) with
  | reserved =>
    simp only [reserveSpaceForNextJobBatch, hreserve]
    exact hinjected
  | outOfRange =>
    simp only [reserveSpaceForNextJobBatch, hreserve]
    exact hinjected
  | refused =>
    cases requeues with
    | true =>
      simp only [reserveSpaceForNextJobBatch, hreserve, requeueJobBatch, if_true,
        Bool.false_eq_true, if_false]
      refine ⟨⟨fun _ => ⟨rfl, rfl⟩, ?_, hs.accounted.noneLeft, hs.accounted.tasks,
        hs.accounted.limits, hs.accounted.noNullJob⟩, fun _ slot hslot => ?_⟩
      · refine hreceived.trans (List.perm_iff_count.mpr fun job => ?_)
        simp only [pending, hpending, List.count_append, List.filterMap_nil, List.count_nil]
        omega
      · exact absurd hslot List.not_mem_nil
    | false =>
      simp only [reserveSpaceForNextJobBatch, hreserve, requeueJobBatch, Bool.false_eq_true,
        if_false]
      refine ⟨⟨nofun, ?_, nofun, hs.accounted.tasks, hs.accounted.limits, nofun⟩, nofun⟩
      refine hreceived.trans (List.perm_iff_count.mpr fun job => ?_)
      simp only [pending, hpending, List.count_append, List.filterMap_nil, List.count_nil]
      omega
  | otherException =>
    simp only [reserveSpaceForNextJobBatch, hreserve, Bool.false_eq_true, if_false]
    refine ⟨⟨nofun, ?_, nofun, hs.accounted.tasks, hs.accounted.limits, nofun⟩, nofun⟩
    refine hreceived.trans (List.perm_iff_count.mpr fun job => ?_)
    simp only [pending, List.count_append]
    omega

theorem addJob_sound {job : RetrieveJob} (hs : s.Sound) : (s.addJob job).Sound := by
  have hpending : (s.addJob job).pending = s.pending ++ [job] := by
    simp [pending, addJob, List.filterMap_append]
  refine ⟨⟨fun hending => ?_, ?_, hs.accounted.noneLeft, hs.accounted.tasks, hs.accounted.limits,
    hs.accounted.noNullJob⟩, fun hending slot hslot => ?_⟩
  · obtain ⟨hfiles, hbytes⟩ := hs.accounted.counted hending
    rw [Counted, hpending]
    refine ⟨?_, ?_⟩
    · simp only [addJob, hfiles, uint64, List.length_append, List.length_singleton,
        Nat.mod_add_mod]
    · simp only [addJob, hbytes, uint64, bytesOf, List.map_append, List.sum_append,
        List.map_singleton, List.sum_singleton, Nat.mod_add_mod]
  · rw [hpending]
    refine (hs.accounted.jobs.append_right [job]).trans (List.perm_iff_count.mpr fun other => ?_)
    simp only [addJob, List.count_append]
    omega
  · cases List.mem_append.mp hslot with
    | inl hold => exact hs.full hending slot hold
    | inr hnew => exact List.mem_singleton.mp hnew ▸ rfl

theorem Sound.synchronousFetch (hs : s.Sound) (rao : RaoManager)
    (getNextJobBatch : Nat → Nat → Option (List RetrieveJob)) :
    (s.synchronousFetch rao getNextJobBatch).1.Sound := by
  have hjobs : ∀ jobsList : List RetrieveJob, (jobsList.foldl addJob s).Sound := by
    intro jobsList
    induction jobsList generalizing s with
    | nil => exact hs
    | cons job jobsList ih => exact ih (addJob_sound hs)
  unfold Injector.synchronousFetch
  simp only
  split
  · exact hs
  · split
    · exact hs
    · split
      · exact hs
      · rename_i jobsList _
        have hall := hjobs jobsList
        exact ⟨⟨hall.accounted.counted, hall.accounted.jobs, hall.accounted.noneLeft,
          hall.accounted.tasks, hall.accounted.limits, hall.accounted.noNullJob⟩, hall.full⟩

theorem Sound.next (hs : s.Sound) {call : Call} (hallowed : s.Allowed call) :
    (s.next call).Sound := by
  cases call with
  | synchronousFetch rao getNextJobBatch => exact hs.synchronousFetch rao getNextJobBatch
  | injectBulkRecalls rao reserveDiskSpace requeues =>
    exact hs.injectBulkRecalls hallowed.1 hallowed.2 reserveDiskSpace requeues

def start (maxBatchFiles maxBatchBytes : Nat) : Injector :=
  { maxBatchFiles := maxBatchFiles, maxBatchBytes := maxBatchBytes }

theorem sound_start {maxBatchFiles maxBatchBytes : Nat} :
    (start maxBatchFiles maxBatchBytes).Sound :=
  ⟨⟨fun _ => ⟨rfl, rfl⟩, List.Perm.refl _, fun _ => rfl, rfl, nofun, nofun⟩, nofun⟩

/-- In every run of calls the jobs are accounted for, until an exception ends the calls. -/
theorem jobs_accounted {maxBatchFiles maxBatchBytes : Nat} {calls : List Call}
    (h : AllSteps Injector.next Allowed (start maxBatchFiles maxBatchBytes) calls) :
    AllStates Injector.next Accounted (start maxBatchFiles maxBatchBytes) calls :=
  h.allStates (fun _ _ hs hallowed => hs.next hallowed) (fun _ hs => hs.accounted) sound_start

/-- A fetch of two jobs and the injection of the first; a fetch of one more, then the disk system is
full and the two pending jobs are requeued. -/
theorem jobs_accounted_fetch_requeue :
    let job (id : Nat) : RetrieveJob := ⟨id, 600, some "eos"⟩
    let rao : RaoManager := ⟨true, some 30, false, [1, 0]⟩
    let calls : List Call :=
      [.synchronousFetch rao fun _ _ => some [job 1, job 2],
        .injectBulkRecalls rao (fun _ => .reserved) true,
        .synchronousFetch rao fun _ _ => some [job 3],
        .injectBulkRecalls rao (fun _ => .refused) true]
    AllStates Injector.next Accounted (start 1 1000) calls :=
  jobs_accounted ⟨⟨rfl, trivial⟩, ⟨rfl, by decide⟩, ⟨rfl, trivial⟩, ⟨rfl, by decide⟩, trivial⟩

structure Claimed (s : Injector) : Prop where
  counted : s.Counted
  jobs : s.received.Perm (s.pending ++ s.diskWriter.flatten ++ s.requeued)
  tasks : s.tapeReader = s.diskWriter
  limits : ∀ batch ∈ s.diskWriter, WithinLimits s.maxBatchFiles s.maxBatchBytes 0 0 batch

/-- When the reservation throws, the jobs of the batch are in none of the three. -/
theorem not_claimed_reservation_throws :
    let rao : RaoManager := ⟨false, none, false, []⟩
    let calls : List Call :=
      [.synchronousFetch rao fun _ _ => some [⟨1, 600, some "eos"⟩],
        .injectBulkRecalls rao (fun _ => .otherException) true]
    AllSteps Injector.next Allowed (start 10 1000) calls ∧
      ¬ AllStates Injector.next Claimed (start 10 1000) calls := by
  intro rao calls
  refine ⟨⟨⟨rfl, trivial⟩, ⟨rfl, by decide⟩, trivial⟩, fun h => ?_⟩
  have hperm := h.last.jobs
  exact absurd hperm.length_eq (by decide)

end Injector

end Cta.Tape.RecallTaskInjector
