import Cta.Lib.SortedByKey
import Cta.ObjectStore.ShardRemoval

/-! Shards of a retrieve queue: jobs kept in fSeq order with their total size. -/
namespace Cta.ObjectStore
open StoreError Cta.Lib.Sequence Cta.Lib.SortedByKey

namespace RetrieveQueue

structure JobToAdd where
  copyNb : Nat
  fSeq : Nat
  retrieveRequestAddress : Address
  fileSize : UInt64
  policy : MountPolicy
  startTime : Int64
  activity : Option String := none
  diskSystemName : Option String := none
  deriving DecidableEq, Repr

end RetrieveQueue

open RetrieveQueue (JobToAdd)

structure RetrieveJobPointer where
  size : UInt64
  address : Address
  copyNb : Nat
  fSeq : Nat
  priority : Nat
  minRetrieveRequestAge : Nat
  startTime : UInt64
  mountPolicyName : String
  activity : Option String
  destinationDiskSystemName : Option String
  deriving DecidableEq, Repr

structure RetrieveQueueShard where
  retrieveJobs : List RetrieveJobPointer
  retrieveJobsTotalSize : UInt64
  deriving DecidableEq, Repr

namespace RetrieveQueueShard

structure JobInfo where
  size : UInt64
  address : Address
  copyNb : Nat
  priority : Nat
  minRetrieveRequestAge : Nat
  startTime : Int64
  fSeq : Nat
  mountPolicyName : String
  activity : Option String
  diskSystemName : Option String
  deriving DecidableEq, Repr

structure JobsSummary where
  jobs : Nat := 0
  bytes : UInt64 := 0
  minFseq : Nat := 0
  maxFseq : Nat := 0
  deriving DecidableEq, Repr

abbrev RemovalResult := ShardRemoval.RemovalResult JobInfo

def initialized : RetrieveQueueShard := ⟨[], 0⟩

def rebuild (s : RetrieveQueueShard) : RetrieveQueueShard :=
  { s with retrieveJobsTotalSize := (s.retrieveJobs.map (·.size)).sum }

end RetrieveQueueShard

namespace RetrieveQueue

def JobToAdd.toPointer (j : JobToAdd) : RetrieveJobPointer where
  size := j.fileSize
  address := j.retrieveRequestAddress
  copyNb := j.copyNb
  fSeq := j.fSeq
  priority := j.policy.retrievePriority
  minRetrieveRequestAge := j.policy.retrieveMinRequestAge
  startTime := j.startTime.toUInt64
  mountPolicyName := j.policy.name
  activity := j.activity
  destinationDiskSystemName := j.diskSystemName

end RetrieveQueue

namespace RetrieveJobPointer

def toJobToAdd (p : RetrieveJobPointer) : JobToAdd where
  copyNb := p.copyNb
  fSeq := p.fSeq
  retrieveRequestAddress := p.address
  fileSize := p.size
  policy := { name := p.mountPolicyName, retrievePriority := p.priority,
              retrieveMinRequestAge := p.minRetrieveRequestAge }
  startTime := p.startTime.toInt64
  activity := p.activity
  diskSystemName := p.destinationDiskSystemName

@[simp] theorem toPointer_toJobToAdd (p : RetrieveJobPointer) :
    p.toJobToAdd.toPointer = p := by
  simp [toJobToAdd, JobToAdd.toPointer]

def toInfo (p : RetrieveJobPointer) : RetrieveQueueShard.JobInfo where
  size := p.size
  address := p.address
  copyNb := p.copyNb
  priority := p.priority
  minRetrieveRequestAge := p.minRetrieveRequestAge
  startTime := p.startTime.toInt64
  fSeq := p.fSeq
  mountPolicyName := p.mountPolicyName
  activity := p.activity
  diskSystemName := p.destinationDiskSystemName

end RetrieveJobPointer

namespace RetrieveQueueShard

/-- As for a removed job, with the copy number narrowed to 16 bits. -/
def dumpJobs (s : RetrieveQueueShard) : List JobInfo :=
  s.retrieveJobs.map fun p => { p.toInfo with copyNb := p.copyNb % 2^16 }

def dumpJobsToAdd (s : RetrieveQueueShard) : List JobToAdd :=
  s.retrieveJobs.map RetrieveJobPointer.toJobToAdd

/-- Reads the first and the last job: out of range when there is none. -/
def getJobsSummary (s : RetrieveQueueShard) : Except StoreError JobsSummary :=
  match s.retrieveJobs.head?, s.retrieveJobs.getLast? with
  | some a, some b =>
    if b.fSeq < a.fSeq then .error wrongShardOrdering
    else .ok ⟨s.retrieveJobs.length, s.retrieveJobsTotalSize, a.fSeq, b.fSeq⟩
  | _, _ => .error outOfRange

def JobsToAddSet.insert (j : JobToAdd) (l : List JobToAdd) : List JobToAdd :=
  insertUpper (·.fSeq) j l

def JobsToAddSet.ofList (js : List JobToAdd) : List JobToAdd :=
  insertUpperAll (·.fSeq) js []

def addJob (s : RetrieveQueueShard) (j : JobToAdd) : RetrieveQueueShard where
  retrieveJobs := sinkDown (·.fSeq) s.retrieveJobs.length (s.retrieveJobs ++ [j.toPointer])
  retrieveJobsTotalSize := s.retrieveJobsTotalSize + j.fileSize

def addJobsInPlace (s : RetrieveQueueShard) (js : List JobToAdd) : RetrieveQueueShard :=
  js.foldl addJob s

/-- The stored jobs and the batch are copied to two multisets with hinted insertions,
then the second is inserted in the first. -/
def addJobsThroughCopy (s : RetrieveQueueShard) (js : List JobToAdd) : RetrieveQueueShard :=
  let jobsSet := insertHintAll (·.fSeq) s.retrieveJobs 0 []
  let serializedJobsToAdd := insertHintAll (·.fSeq) (js.map JobToAdd.toPointer) 0 []
  { retrieveJobs := insertUpperAll (·.fSeq) serializedJobsToAdd jobsSet
    retrieveJobsTotalSize := js.foldl (fun t j => t + j.fileSize) s.retrieveJobsTotalSize }

/-- Bisection for the number of stored jobs that the first inserted job has to pass. -/
def bisect (f : Nat → Nat) (N limit : Nat) : Nat → Nat → Nat → Nat → Option Nat
  | 0, _, _, _ => none
  | fuel+1, iminmin, iminmax, imin =>
    if limit < f imin then
      let imin' := (iminmin + imin) / 2
      if imin' = 0 then some (if f 0 ≤ limit then N - 1 else N)
      else bisect f N limit fuel iminmin imin imin'
    else if N - 1 ≤ imin then some (if f (N - 1) ≤ limit then 0 else 1)
    else if limit < f (imin + 1) then some (N - imin - 1)
    else if imin + 1 = N - 1 then some 0
    else bisect f N limit fuel imin iminmax ((imin + iminmax) / 2)

def fSeqAt (jobs : List RetrieveJobPointer) (i : Nat) : Nat := (jobs[i]?.map (·.fSeq)).getD 0

def countToPass (jobs : List RetrieveJobPointer) (limit : Nat) : Option Nat :=
  let N := jobs.length
  if N = 0 then some 0
  else if N = 1 then some (if fSeqAt jobs 0 ≤ limit then 0 else 1)
  else bisect (fSeqAt jobs) N limit N 0 (N - 1) (N / 2)

/-- The batch is already ordered; the cheaper of the two insertions is taken. -/
def addJobsBatch (s : RetrieveQueueShard) (js : List JobToAdd) : Option RetrieveQueueShard :=
  match js with
  | [] => some s
  | j :: _ =>
    (countToPass s.retrieveJobs j.fSeq).map fun Np =>
      let k := js.length
      if 2 * s.retrieveJobs.length + 3 * k < 3 * (k + 1) * Np / 2 then addJobsThroughCopy s js
      else addJobsInPlace s js

def jobFields : ShardRemoval.JobFields RetrieveJobPointer JobInfo :=
  ⟨(·.address), (·.size), RetrieveJobPointer.toInfo⟩

def removeJobs (s : RetrieveQueueShard) (jobsToRemove : List Address) :
    RetrieveQueueShard × RemovalResult :=
  let r := ShardRemoval.removeJobs jobFields s.retrieveJobs s.retrieveJobsTotalSize jobsToRemove
  (⟨r.jobs, r.jobsTotalSize⟩, r.result)

def bytesOf (l : List RetrieveJobPointer) : UInt64 := (l.map (·.size)).sum

theorem bytesOf_append (l m : List RetrieveJobPointer) :
    bytesOf (l ++ m) = bytesOf l + bytesOf m := by
  simp [bytesOf]

theorem bytesOf_perm {l m : List RetrieveJobPointer} (h : l.Perm m) : bytesOf l = bytesOf m :=
  (h.map _).sum_eq

structure Coherent (s : RetrieveQueueShard) : Prop where
  sorted : SortedBy (·.fSeq) s.retrieveJobs
  total : s.retrieveJobsTotalSize = bytesOf s.retrieveJobs

theorem coherent_initialized : Coherent initialized := ⟨List.Pairwise.nil, rfl⟩

/-- Both insertions end in a coherent shard with the batch added. -/
def Inserted (s s' : RetrieveQueueShard) (js : List JobToAdd) : Prop :=
  Coherent s' ∧ s'.retrieveJobs.Perm (js.map JobToAdd.toPointer ++ s.retrieveJobs)

theorem addJob_inserted {s : RetrieveQueueShard} (j : JobToAdd) (h : Coherent s) :
    Inserted s (s.addJob j) [j] := by
  obtain ⟨us, vs, hx, he, hu, hv⟩ := sinkDown_append s.retrieveJobs j.toPointer h.sorted
  have hp : (us ++ j.toPointer :: vs).Perm (j.toPointer :: s.retrieveJobs) := by
    rw [hx]; exact List.perm_middle
  refine ⟨⟨?_, ?_⟩, ?_⟩
  · simp only [addJob, he]
    exact sortedBy_insert (hx ▸ h.sorted) hu fun v hvm => Nat.le_of_lt (hv v hvm)
  · simp only [addJob, he]
    rw [bytesOf_perm hp, h.total]
    simp [bytesOf, JobToAdd.toPointer, add_comm]
  · simpa [addJob, he] using hp

theorem addJobsInPlace_inserted {s : RetrieveQueueShard} (js : List JobToAdd) (h : Coherent s) :
    Inserted s (s.addJobsInPlace js) js := by
  induction js generalizing s with
  | nil => exact ⟨h, List.Perm.refl _⟩
  | cons j js ih =>
    obtain ⟨h1, p1⟩ := addJob_inserted j h
    obtain ⟨h2, p2⟩ := ih h1
    refine ⟨h2, p2.trans ?_⟩
    exact (p1.append_left _).trans List.perm_middle

theorem foldl_fileSize (js : List JobToAdd) (t : UInt64) :
    js.foldl (fun t j => t + j.fileSize) t = t + bytesOf (js.map JobToAdd.toPointer) := by
  induction js generalizing t with
  | nil => simp [bytesOf]
  | cons j js ih =>
    rw [List.foldl_cons, ih]
    simp [bytesOf, JobToAdd.toPointer, add_assoc]

theorem addJobsThroughCopy_inserted {s : RetrieveQueueShard} (js : List JobToAdd)
    (h : Coherent s) : Inserted s (s.addJobsThroughCopy js) js := by
  have hp : (s.addJobsThroughCopy js).retrieveJobs.Perm
      (js.map JobToAdd.toPointer ++ s.retrieveJobs) := by
    refine (insertUpperAll_perm _ _ _).trans (List.Perm.append ?_ ?_)
    · simpa using insertHintAll_perm (js.map JobToAdd.toPointer) 0 []
    · simpa using insertHintAll_perm s.retrieveJobs 0 []
  refine ⟨⟨?_, ?_⟩, hp⟩
  · exact insertUpperAll_sorted _ _ (insertHintAll_sorted _ _ _ List.Pairwise.nil)
  · rw [bytesOf_perm hp, bytesOf_append]
    simp only [addJobsThroughCopy, foldl_fileSize, h.total, add_comm]

/-- The search interval shrinks at every round, so it ends within its own length.
The bounds remember on which side of the limit they were last seen. -/
theorem bisect_isSome (f : Nat → Nat) (N limit fuel iminmin iminmax imin : Nat)
    (hlo : iminmin < imin ∨ imin = iminmin ∧ iminmax = imin + 1) (hpos : 0 < imin)
    (hhi : imin < iminmax ∨ iminmin = 0 ∧ imin = 1 ∧ iminmax = 1) (hN : iminmax ≤ N - 1)
    (hmax : iminmax < N - 1 → limit < f iminmax) (hmin : 0 < iminmin → f iminmin ≤ limit)
    (hfuel : iminmax - iminmin ≤ fuel) :
    (bisect f N limit fuel iminmin iminmax imin).isSome := by
  induction fuel generalizing iminmin iminmax imin with
  | zero => omega
  | succ fuel ih =>
    unfold bisect
    by_cases h1 : limit < f imin
    · have hlt : iminmin < imin := by
        rcases hlo with h | ⟨h, _⟩
        · exact h
        · have := hmin (by omega)
          rw [← h] at this
          omega
      simp only [if_pos h1]
      by_cases h2 : (iminmin + imin) / 2 = 0
      · simp [h2]
      · simp only [if_neg h2]
        exact ih iminmin imin _ (by omega) (by omega) (by omega) (by omega) (fun _ => h1) hmin
          (by omega)
    · simp only [if_neg h1]
      by_cases h2 : N - 1 ≤ imin
      · simp [h2]
      · simp only [if_neg h2]
        by_cases h3 : limit < f (imin + 1)
        · simp [h3]
        · simp only [if_neg h3]
          by_cases h4 : imin + 1 = N - 1
          · simp [h4]
          · simp only [if_neg h4]
            -- the upper bound was seen above the limit, so it is not imin nor its successor
            have h5 : imin ≠ iminmax := fun he => h1 (he ▸ hmax (by omega))
            have h6 : imin + 1 ≠ iminmax := fun he => h3 (he ▸ hmax (by omega))
            exact ih imin iminmax _ (by omega) (by omega) (by omega) hN hmax
              (fun _ => Nat.not_lt.mp h1) (by omega)

theorem countToPass_isSome (jobs : List RetrieveJobPointer) (limit : Nat) :
    (countToPass jobs limit).isSome := by
  unfold countToPass
  by_cases h0 : jobs.length = 0
  · simp [h0]
  · by_cases h1 : jobs.length = 1
    · simp [h1]
    · simp only [if_neg h0, if_neg h1]
      apply bisect_isSome <;> omega

theorem addJobsBatch_inserted {s : RetrieveQueueShard} (js : List JobToAdd) (h : Coherent s) :
    ∃ s', s.addJobsBatch js = some s' ∧ Inserted s s' js := by
  cases js with
  | nil => exact ⟨s, rfl, h, List.Perm.refl _⟩
  | cons j js =>
    obtain ⟨n, hn⟩ := Option.isSome_iff_exists.mp (countToPass_isSome s.retrieveJobs j.fSeq)
    simp only [addJobsBatch, hn, Option.map_some, Option.some.injEq, exists_eq_left']
    split_ifs
    · exact addJobsThroughCopy_inserted _ h
    · exact addJobsInPlace_inserted _ h

theorem JobsToAddSet.ofList_perm (js : List JobToAdd) : (JobsToAddSet.ofList js).Perm js := by
  have h := insertUpperAll_perm (fun j : JobToAdd => j.fSeq) js []
  simpa [JobsToAddSet.ofList] using h

theorem getJobsSummary_ok {s : RetrieveQueueShard} (h : Coherent s) (hne : s.retrieveJobs ≠ []) :
    ∃ a b, s.retrieveJobs.head? = some a ∧ s.retrieveJobs.getLast? = some b ∧ a.fSeq ≤ b.fSeq ∧
      (∀ j ∈ s.retrieveJobs, a.fSeq ≤ j.fSeq ∧ j.fSeq ≤ b.fSeq) ∧
      s.getJobsSummary =
        .ok ⟨s.retrieveJobs.length, s.retrieveJobsTotalSize, a.fSeq, b.fSeq⟩ := by
  have hs := h.sorted
  obtain ⟨a, l, hl⟩ := List.exists_cons_of_ne_nil hne
  obtain ⟨m, b, hm⟩ := List.eq_nil_or_concat' s.retrieveJobs |>.resolve_left hne
  have hhead : s.retrieveJobs.head? = some a := by rw [hl]; rfl
  have hlast : s.retrieveJobs.getLast? = some b := by rw [hm]; exact List.getLast?_concat
  have hmin : ∀ j ∈ s.retrieveJobs, a.fSeq ≤ j.fSeq := by
    intro j hj
    rw [hl] at hs hj
    rcases List.mem_cons.mp hj with rfl | hj
    · exact Nat.le_refl _
    · exact (List.pairwise_cons.mp hs).1 j hj
  have hmax : ∀ j ∈ s.retrieveJobs, j.fSeq ≤ b.fSeq := by
    intro j hj
    rw [hm] at hs hj
    rcases List.mem_append.mp hj with hj | hj
    · exact (List.pairwise_append.mp hs).2.2 j hj b (by simp)
    · simp [List.mem_singleton.mp hj]
  have hab : a.fSeq ≤ b.fSeq := hmin b (by rw [hm]; simp)
  refine ⟨a, b, hhead, hlast, hab, fun j hj => ⟨hmin j hj, hmax j hj⟩, ?_⟩
  simp [getJobsSummary, hhead, hlast, Nat.not_lt.mpr hab]

def kept (s : RetrieveQueueShard) (as : List Address) : List RetrieveJobPointer :=
  s.retrieveJobs.filter fun p => decide (p.address ∉ as)

def gone (s : RetrieveQueueShard) (as : List Address) : List RetrieveJobPointer :=
  s.retrieveJobs.filter fun p => decide (p.address ∈ as)

theorem kept_gone_perm (s : RetrieveQueueShard) (as : List Address) :
    (gone s as ++ kept s as).Perm s.retrieveJobs := by
  simpa [gone, kept] using List.filter_append_perm (fun p => decide (p.address ∈ as)) s.retrieveJobs

/-- The outcome of a removal in terms of the shard it is made from. -/
structure Removed (s : RetrieveQueueShard) (as : List Address)
    (r : RetrieveQueueShard × RemovalResult) : Prop where
  jobs : r.1.retrieveJobs = kept s as
  total : r.1.retrieveJobsTotalSize = s.retrieveJobsTotalSize - bytesOf (gone s as)
  removedJobs : ∃ out : List RetrieveJobPointer,
    r.2.removedJobs = out.map RetrieveJobPointer.toInfo ∧ out.Perm (gone s as)
  jobsRemoved : r.2.jobsRemoved = (gone s as).length
  bytesRemoved : r.2.bytesRemoved = bytesOf (gone s as)
  jobsAfter : r.2.jobsAfter = (kept s as).length
  bytesAfter : r.2.bytesAfter = s.retrieveJobsTotalSize - bytesOf (gone s as)

theorem removeJobs_removed (s : RetrieveQueueShard) (as : List Address) :
    Removed s as (s.removeJobs as) := by
  have h := ShardRemoval.removeJobs_outcome (f := jobFields) s.retrieveJobs
    s.retrieveJobsTotalSize as
  exact ⟨h.left, h.jobsTotal, h.removedJobs, h.jobsRemoved, h.bytesRemoved, h.jobsAfter,
    h.bytesAfter⟩

theorem Removed.coherent {s : RetrieveQueueShard} {as : List Address}
    {r : RetrieveQueueShard × RemovalResult} (h : Removed s as r) (hs : Coherent s) :
    Coherent r.1 where
  sorted := by rw [h.jobs]; exact hs.sorted.filter _
  total := by
    rw [h.total, h.jobs, hs.total, ← bytesOf_perm (kept_gone_perm s as), bytesOf_append]
    abel

end RetrieveQueueShard
end Cta.ObjectStore
