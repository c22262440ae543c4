import Cta.Lib.Sequence
import Cta.ObjectStore.Base
import Mathlib.Algebra.BigOperators.Group.List.Basic
import Mathlib.Data.UInt

/-! Candidates to be popped: a queue is scanned shard after shard until enough jobs are found,
and what is left behind is counted. Archive and retrieve queues differ in the jobs they skip. -/
namespace Cta.ObjectStore
open StoreError Cta.Lib.Sequence

namespace CandidateList

structure JobView (J D : Type) where
  size : J → UInt64
  skipped : J → Bool
  dump : J → D

structure CandidateJobList (D : Type) where
  remainingFilesAfterCandidates : Nat := 0
  remainingBytesAfterCandidates : UInt64 := 0
  candidateFiles : Nat := 0
  candidateBytes : UInt64 := 0
  candidates : List D := []
  deriving DecidableEq, Repr

structure Shard (J : Type) where
  jobs : List J
  jobsTotalSize : UInt64

structure ShardPointer where
  address : ShardAddress
  shardJobsCount : Nat
  shardBytesCount : UInt64

section
variable {J D : Type} (v : JobView J D)

def CandidateJobList.take (ret : CandidateJobList D) (j : J) : CandidateJobList D :=
  { ret with
    candidates := ret.candidates ++ [v.dump j]
    candidateBytes := ret.candidateBytes + v.size j
    candidateFiles := ret.candidateFiles + 1 }

def CandidateJobList.visit (ret : CandidateJobList D) (j : J) : CandidateJobList D :=
  let ret := if v.skipped j then ret else ret.take v j
  { ret with
    remainingBytesAfterCandidates := ret.remainingBytesAfterCandidates - v.size j
    remainingFilesAfterCandidates := sub64 ret.remainingFilesAfterCandidates 1 }

def scanJobs (maxBytes : UInt64) (maxFiles : Nat) :
    List J → CandidateJobList D → CandidateJobList D
  | [], ret => ret
  | j :: js, ret =>
    let ret := ret.visit v j
    if maxBytes ≤ ret.candidateBytes ∨ maxFiles ≤ ret.candidateFiles then ret
    else scanJobs maxBytes maxFiles js ret

def getCandidateJobList (maxBytes : UInt64) (maxFiles : Nat) (s : Shard J) : CandidateJobList D :=
  scanJobs v maxBytes maxFiles s.jobs
    { remainingBytesAfterCandidates := s.jobsTotalSize
      remainingFilesAfterCandidates := s.jobs.length }

/-- The candidates of one more shard. The remaining jobs are overwritten: the shards before have
no candidate left. -/
def CandidateJobList.extend (ret shardCandidates : CandidateJobList D) : CandidateJobList D where
  candidateBytes := ret.candidateBytes + shardCandidates.candidateBytes
  candidateFiles := ret.candidateFiles + shardCandidates.candidateFiles
  remainingBytesAfterCandidates := shardCandidates.remainingBytesAfterCandidates
  remainingFilesAfterCandidates := shardCandidates.remainingFilesAfterCandidates
  candidates := ret.candidates ++ shardCandidates.candidates

def CandidateJobList.leave (ret : CandidateJobList D) (q : ShardPointer) : CandidateJobList D :=
  { ret with
    remainingBytesAfterCandidates := ret.remainingBytesAfterCandidates + q.shardBytesCount
    remainingFilesAfterCandidates := ret.remainingFilesAfterCandidates + q.shardJobsCount }

def getCandidateList (maxBytes : UInt64) (maxFiles : Nat)
    (fetch : ShardAddress → Option (Shard J)) :
    List ShardPointer → CandidateJobList D → Except StoreError (CandidateJobList D)
  | [], ret => .ok ret
  | q :: qs, ret =>
    if ret.candidateBytes < maxBytes ∧ ret.candidateFiles < maxFiles then
      match fetch q.address with
      | none => .error noSuchObject
      | some s =>
        getCandidateList maxBytes maxFiles fetch qs
          (ret.extend (getCandidateJobList v (maxBytes - ret.candidateBytes)
            (maxFiles - ret.candidateFiles) s))
    else getCandidateList maxBytes maxFiles fetch qs (ret.leave q)

def bytesOf (js : List J) : Nat := (js.map fun j => (v.size j).toNat).sum

@[simp] theorem bytesOf_nil : bytesOf v [] = 0 := rfl

@[simp] theorem bytesOf_cons (j : J) (js : List J) :
    bytesOf v (j :: js) = (v.size j).toNat + bytesOf v js := by
  simp [bytesOf]

@[simp] theorem bytesOf_append (js ks : List J) :
    bytesOf v (js ++ ks) = bytesOf v js + bytesOf v ks := by
  simp [bytesOf]

def notSkipped (js : List J) : List J := js.filter fun j => !v.skipped j

@[simp] theorem notSkipped_append (js ks : List J) :
    notSkipped v (js ++ ks) = notSkipped v js ++ notSkipped v ks := by
  simp [notSkipped]

theorem bytesOf_notSkipped_le (js : List J) : bytesOf v (notSkipped v js) ≤ bytesOf v js := by
  induction js with
  | nil => simp [notSkipped]
  | cons j js ih =>
    rw [notSkipped] at ih ⊢
    cases hj : v.skipped j <;> simp [hj] <;> omega

def Reached (maxBytes : UInt64) (maxFiles : Nat) (js : List J) : Prop :=
  maxBytes.toNat ≤ bytesOf v js ∨ maxFiles ≤ js.length

/-- The list of a scan that went over the first jobs and left the others. -/
structure Lists (visited rest : List J) (ret : CandidateJobList D) : Prop where
  candidates : ret.candidates = (notSkipped v visited).map v.dump
  candidateFiles : ret.candidateFiles = (notSkipped v visited).length
  candidateBytes : ret.candidateBytes.toNat = bytesOf v (notSkipped v visited)
  remainingFiles : ret.remainingFilesAfterCandidates = rest.length
  remainingBytes : ret.remainingBytesAfterCandidates.toNat = bytesOf v rest

theorem toNat_sum_size {js : List J} (h : bytesOf v js < 2 ^ 64) :
    ((js.map v.size).sum).toNat = bytesOf v js := by
  induction js with
  | nil => rfl
  | cons j js ih =>
    rw [bytesOf_cons] at h ⊢
    rw [List.map_cons, List.sum_cons, UInt64.toNat_add, ih (by omega), Nat.mod_eq_of_lt h]

variable {v}

theorem lists_start {js : List J} {size : UInt64} (h : size.toNat = bytesOf v js) :
    Lists v [] js { remainingBytesAfterCandidates := size,
                    remainingFilesAfterCandidates := js.length } :=
  ⟨rfl, rfl, rfl, rfl, h⟩

theorem Lists.reached_iff {visited rest : List J} {ret : CandidateJobList D}
    (h : Lists v visited rest ret) (maxBytes : UInt64) (maxFiles : Nat) :
    maxBytes ≤ ret.candidateBytes ∨ maxFiles ≤ ret.candidateFiles ↔
      Reached v maxBytes maxFiles (notSkipped v visited) := by
  rw [Reached, UInt64.le_iff_toNat_le, h.candidateBytes, h.candidateFiles]

theorem Lists.visit {visited rest : List J} {j : J} {ret : CandidateJobList D}
    (h : Lists v visited (j :: rest) ret) (hfit : bytesOf v (visited ++ j :: rest) < 2 ^ 64) :
    Lists v (visited ++ [j]) rest (ret.visit v j) := by
  have hle := bytesOf_notSkipped_le v visited
  have hbytes := h.remainingBytes
  have hfiles := h.remainingFiles
  simp only [bytesOf_append, bytesOf_cons, List.length_cons] at hfit hbytes hfiles
  have hbytes' : (ret.remainingBytesAfterCandidates - v.size j).toNat = bytesOf v rest := by
    rw [UInt64.toNat_sub_of_le _ _ (UInt64.le_iff_toNat_le.mpr (by omega))]
    omega
  have hfiles' : sub64 ret.remainingFilesAfterCandidates 1 = rest.length := by
    rw [sub64_of_le (by omega), hfiles, Nat.add_sub_cancel]
  cases hj : v.skipped j with
  | true =>
    have hsame : notSkipped v (visited ++ [j]) = notSkipped v visited := by simp [notSkipped, hj]
    refine ⟨?_, ?_, ?_, ?_, ?_⟩ <;> simp only [CandidateJobList.visit, hj, if_true, hsame]
    · exact h.candidates
    · exact h.candidateFiles
    · exact h.candidateBytes
    · exact hfiles'
    · exact hbytes'
  | false =>
    have hmore : notSkipped v (visited ++ [j]) = notSkipped v visited ++ [j] := by
      simp [notSkipped, hj]
    refine ⟨?_, ?_, ?_, ?_, ?_⟩ <;>
      simp only [CandidateJobList.visit, CandidateJobList.take, hj, Bool.false_eq_true, if_false,
        hmore]
    · simp [h.candidates]
    · simp [h.candidateFiles]
    · rw [UInt64.toNat_add, h.candidateBytes, bytesOf_append, bytesOf_cons, bytesOf_nil]
      omega
    · exact hfiles'
    · exact hbytes'

abbrev Enough (v : JobView J D) (maxBytes : UInt64) (maxFiles : Nat) : List J → List J → Prop :=
  ShortestPrefix fun js => Reached v maxBytes maxFiles (notSkipped v js)

theorem scanJobs_spec {maxBytes : UInt64} {maxFiles : Nat} {js visited : List J}
    {ret : CandidateJobList D} (h : Lists v visited js ret)
    (hfit : bytesOf v (visited ++ js) < 2 ^ 64)
    (hbefore : ∀ zs, zs <+: visited → ¬Reached v maxBytes maxFiles (notSkipped v zs)) :
    ∃ seen rest, visited ++ js = seen ++ rest ∧ Enough v maxBytes maxFiles seen (visited ++ js) ∧
      Lists v seen rest (scanJobs v maxBytes maxFiles js ret) := by
  induction js generalizing visited ret with
  | nil =>
    rw [List.append_nil]
    exact ⟨visited, [], (List.append_nil visited).symm,
      ⟨List.prefix_refl visited, fun zs hzs hz => absurd hz (hbefore zs hzs), .inr rfl⟩, h⟩
  | cons j js ih =>
    have hnow := h.visit hfit
    have hcons : visited ++ j :: js = (visited ++ [j]) ++ js := by simp
    by_cases hlimit : Reached v maxBytes maxFiles (notSkipped v (visited ++ [j]))
    · refine ⟨visited ++ [j], js, hcons, ?_, ?_⟩
      · rw [hcons]
        have hupto : Enough v maxBytes maxFiles (visited ++ [j]) (visited ++ [j]) := by
          refine ⟨List.prefix_refl _, fun zs hzs hz => ?_, .inl hlimit⟩
          cases List.prefix_concat_iff.mp hzs with
          | inl hall => rw [hall]
          | inr hzs => exact absurd hz (hbefore zs hzs)
        exact hupto.append_right hlimit js
      · rw [scanJobs, if_pos ((hnow.reached_iff maxBytes maxFiles).mpr hlimit)]
        exact hnow
    · rw [scanJobs, if_neg (fun hr => hlimit ((hnow.reached_iff maxBytes maxFiles).mp hr)), hcons]
      refine ih hnow (hcons ▸ hfit) fun zs hzs hz => ?_
      cases List.prefix_concat_iff.mp hzs with
      | inl hall => exact hlimit (hall ▸ hz)
      | inr hzs => exact hbefore zs hzs hz

/-- A shard whose total is that of its jobs is scanned up to the first job that reaches a limit. -/
theorem getCandidateJobList_spec {maxBytes : UInt64} {maxFiles : Nat} {s : Shard J}
    (hbytes : 0 < maxBytes) (hfiles : 0 < maxFiles)
    (htotal : s.jobsTotalSize.toNat = bytesOf v s.jobs) :
    ∃ seen rest, s.jobs = seen ++ rest ∧ Enough v maxBytes maxFiles seen s.jobs ∧
      Lists v seen rest (getCandidateJobList v maxBytes maxFiles s) := by
  have hstart : Lists v [] s.jobs (_ : CandidateJobList D) := lists_start htotal
  have hfit : bytesOf v ([] ++ s.jobs) < 2 ^ 64 := by
    rw [List.nil_append, ← htotal]
    exact s.jobsTotalSize.toNat_lt
  refine scanJobs_spec hstart hfit fun zs hzs hreached => ?_
  obtain rfl := List.prefix_nil.mp hzs
  have hpos : 0 < maxBytes.toNat := by simpa [UInt64.lt_iff_toNat_lt] using hbytes
  rcases hreached with hb | hf
  · simp [notSkipped] at hb
    omega
  · simp [notSkipped] at hf
    omega

/-- The jobs of the shards that are pointed to, in the order of the pointers. -/
def jobsIn (fetch : ShardAddress → Option (Shard J)) (qs : List ShardPointer) : List J :=
  qs.flatMap fun q => ((fetch q.address).map (·.jobs)).getD []

/-- The shard is there, and its counters and those of its pointer are right. -/
def Described (v : JobView J D) (fetch : ShardAddress → Option (Shard J)) (q : ShardPointer) :
    Prop :=
  ∃ s, fetch q.address = some s ∧ q.shardJobsCount = s.jobs.length ∧
    q.shardBytesCount = s.jobsTotalSize ∧ s.jobsTotalSize.toNat = bytesOf v s.jobs

theorem jobsIn_cons {fetch : ShardAddress → Option (Shard J)} {q : ShardPointer}
    {qs : List ShardPointer} {s : Shard J} (h : fetch q.address = some s) :
    jobsIn fetch (q :: qs) = s.jobs ++ jobsIn fetch qs := by
  simp [jobsIn, h]

theorem bytesOf_le_jobsIn (v : JobView J D) {fetch : ShardAddress → Option (Shard J)}
    {q : ShardPointer} {qs : List ShardPointer} {s : Shard J} (hq : q ∈ qs)
    (h : fetch q.address = some s) : bytesOf v s.jobs ≤ bytesOf v (jobsIn fetch qs) := by
  obtain ⟨before, after, rfl⟩ := List.append_of_mem hq
  have hsplit : jobsIn fetch (before ++ q :: after) =
      jobsIn fetch before ++ (s.jobs ++ jobsIn fetch after) := by
    rw [← jobsIn_cons h]
    exact List.flatMap_append
  rw [hsplit, bytesOf_append, bytesOf_append]
  omega

section
variable {maxBytes : UInt64} {maxFiles : Nat} {visited rest : List J} {ret : CandidateJobList D}

theorem Lists.residual_iff (h : Lists v visited rest ret) (hbytes : ret.candidateBytes < maxBytes)
    (hfiles : ret.candidateFiles < maxFiles) (js : List J) :
    Reached v (maxBytes - ret.candidateBytes) (maxFiles - ret.candidateFiles) (notSkipped v js) ↔
      Reached v maxBytes maxFiles (notSkipped v (visited ++ js)) := by
  have hlt := UInt64.lt_iff_toNat_lt.mp hbytes
  rw [Reached, Reached, UInt64.toNat_sub_of_le _ _ (UInt64.le_iff_toNat_le.mpr hlt.le),
    h.candidateBytes, h.candidateFiles, notSkipped_append, bytesOf_append, List.length_append]
  rw [h.candidateBytes] at hlt
  rw [h.candidateFiles] at hfiles
  omega

theorem Lists.extend {seen left : List J} {shardCandidates : CandidateJobList D}
    (h : Lists v visited rest ret) (hs : Lists v seen left shardCandidates)
    (hfit : bytesOf v (visited ++ seen) < 2 ^ 64) :
    Lists v (visited ++ seen) left (ret.extend shardCandidates) := by
  have hle := bytesOf_notSkipped_le v (visited ++ seen)
  rw [notSkipped_append, bytesOf_append] at hle
  refine ⟨?_, ?_, ?_, hs.remainingFiles, hs.remainingBytes⟩
  · simp [CandidateJobList.extend, h.candidates, hs.candidates]
  · simp [CandidateJobList.extend, h.candidateFiles, hs.candidateFiles]
  · simp only [CandidateJobList.extend, UInt64.toNat_add, h.candidateBytes, hs.candidateBytes,
      notSkipped_append, bytesOf_append]
    omega

theorem Lists.leave {q : ShardPointer} {js : List J} (h : Lists v visited rest ret)
    (hfit : bytesOf v (rest ++ js) < 2 ^ 64) (hcount : q.shardJobsCount = js.length)
    (hbytes : q.shardBytesCount.toNat = bytesOf v js) :
    Lists v visited (rest ++ js) (ret.leave q) := by
  refine ⟨h.candidates, h.candidateFiles, h.candidateBytes, ?_, ?_⟩
  · simp [CandidateJobList.leave, h.remainingFiles, hcount]
  · simp only [CandidateJobList.leave, UInt64.toNat_add, h.remainingBytes, hbytes]
    rw [bytesOf_append] at hfit ⊢
    omega

theorem getCandidateList_spec {fetch : ShardAddress → Option (Shard J)} {qs : List ShardPointer}
    (h : Lists v visited rest ret) (henough : Enough v maxBytes maxFiles visited (visited ++ rest))
    (hqs : ∀ q ∈ qs, Described v fetch q)
    (hfit : bytesOf v (visited ++ rest ++ jobsIn fetch qs) < 2 ^ 64) :
    ∃ l seen left, getCandidateList v maxBytes maxFiles fetch qs ret = .ok l ∧
      visited ++ rest ++ jobsIn fetch qs = seen ++ left ∧
      Enough v maxBytes maxFiles seen (visited ++ rest ++ jobsIn fetch qs) ∧
      Lists v seen left l := by
  induction qs generalizing visited rest ret with
  | nil =>
    have hnone : visited ++ rest ++ jobsIn fetch [] = visited ++ rest := by simp [jobsIn]
    rw [hnone]
    exact ⟨ret, visited, rest, rfl, rfl, henough, h⟩
  | cons q qs ih =>
    obtain ⟨s, hs, hcount, hbytes, htotal⟩ := hqs q List.mem_cons_self
    have hqs' : ∀ r ∈ qs, Described v fetch r := fun r hr => hqs r (List.mem_cons_of_mem q hr)
    rw [jobsIn_cons hs, ← List.append_assoc] at hfit ⊢
    by_cases hmore : ret.candidateBytes < maxBytes ∧ ret.candidateFiles < maxFiles
    · -- no limit is reached yet, so nothing was left behind
      have hnot : ¬Reached v maxBytes maxFiles (notSkipped v visited) := by
        rw [← h.reached_iff, not_or, UInt64.not_le, Nat.not_le]
        exact hmore
      obtain ⟨hall, hbefore⟩ := henough.none_of_not hnot
      obtain rfl : rest = [] := by simpa using hall
      rw [List.append_nil] at hfit hbefore ⊢
      have hpos : 0 < maxBytes - ret.candidateBytes := by
        have hlt := UInt64.lt_iff_toNat_lt.mp hmore.1
        rw [UInt64.lt_iff_toNat_lt,
          UInt64.toNat_sub_of_le _ _ (UInt64.le_iff_toNat_le.mpr hlt.le)]
        simpa using hlt
      obtain ⟨seen, left, hsplit, hseen, hlists⟩ := getCandidateJobList_spec (v := v) hpos
        (Nat.sub_pos_of_lt hmore.2) htotal
      have hstop : Enough v maxBytes maxFiles (visited ++ seen) (visited ++ s.jobs) := by
        refine ShortestPrefix.append_left hbefore ?_
        simpa only [Enough, h.residual_iff hmore.1 hmore.2] using hseen
      rw [hsplit, ← List.append_assoc] at hfit hstop ⊢
      have hfit' : bytesOf v (visited ++ seen) < 2 ^ 64 := by
        rw [bytesOf_append, bytesOf_append] at hfit
        omega
      rw [getCandidateList, if_pos hmore, hs]
      exact ih (h.extend hlists hfit') hstop hqs' hfit
    · have hreached : Reached v maxBytes maxFiles (notSkipped v visited) := by
        rw [← h.reached_iff]
        rcases not_and_or.mp hmore with hb | hf
        · exact .inl (UInt64.not_lt.mp hb)
        · exact .inr (Nat.not_lt.mp hf)
      have hfit' : bytesOf v (rest ++ s.jobs) < 2 ^ 64 := by
        simp only [bytesOf_append] at hfit ⊢
        omega
      have hstop := henough.append_right hreached s.jobs
      rw [List.append_assoc visited rest s.jobs] at hfit hstop ⊢
      rw [getCandidateList, if_neg hmore]
      exact ih (h.leave hfit' hcount (by rw [hbytes, htotal])) hstop hqs' hfit

end

structure Exact (v : JobView J D) (maxBytes : UInt64) (maxFiles : Nat) (jobs visited rest : List J)
    (l : CandidateJobList D) : Prop where
  queued : jobs = visited ++ rest
  enough : Enough v maxBytes maxFiles visited jobs
  lists : Lists v visited rest l

theorem Exact.shortest {maxBytes : UInt64} {maxFiles : Nat} {jobs visited rest : List J}
    {l : CandidateJobList D} (h : Exact v maxBytes maxFiles jobs visited rest l) :
    ShortestPrefix (Reached v maxBytes maxFiles) (notSkipped v visited) (notSkipped v jobs) :=
  h.enough.filter

/-- A candidate list of the jobs: the shortest list of first jobs not skipped that reaches a limit,
with what is behind the last job visited counted as remaining. -/
def CandidatesOf (v : JobView J D) (maxBytes : UInt64) (maxFiles : Nat) (jobs : List J)
    (l : CandidateJobList D) : Prop :=
  ∃ visited rest, Exact v maxBytes maxFiles jobs visited rest l ∧
    ShortestPrefix (Reached v maxBytes maxFiles) (notSkipped v visited) (notSkipped v jobs)

theorem getCandidateList_exact {fetch : ShardAddress → Option (Shard J)} {qs : List ShardPointer}
    (hqs : ∀ q ∈ qs, Described v fetch q) (hfit : bytesOf v (jobsIn fetch qs) < 2 ^ 64)
    (maxBytes : UInt64) (maxFiles : Nat) :
    ∃ l, getCandidateList v maxBytes maxFiles fetch qs {} = .ok l ∧
      CandidatesOf v maxBytes maxFiles (jobsIn fetch qs) l := by
  have hstart : Lists v [] [] ({} : CandidateJobList D) := ⟨rfl, rfl, rfl, rfl, rfl⟩
  have hnone : Enough v maxBytes maxFiles [] ([] ++ []) :=
    ⟨List.prefix_refl [], fun _ _ _ => List.nil_prefix, .inr rfl⟩
  obtain ⟨l, visited, rest, hrun, hsplit, henough, hlists⟩ :=
    getCandidateList_spec hstart hnone hqs hfit
  have hexact : Exact v maxBytes maxFiles (jobsIn fetch qs) visited rest l :=
    ⟨hsplit, henough, hlists⟩
  exact ⟨l, hrun, visited, rest, hexact, hexact.shortest⟩

/-- The totals of the shards are those of their jobs when all the jobs fit in a counter. -/
theorem getCandidateList_of_totals {fetch : ShardAddress → Option (Shard J)}
    {qs : List ShardPointer}
    (hqs : ∀ q ∈ qs, ∃ s, fetch q.address = some s ∧ q.shardJobsCount = s.jobs.length ∧
      q.shardBytesCount = s.jobsTotalSize ∧ s.jobsTotalSize = (s.jobs.map v.size).sum)
    (hfit : bytesOf v (jobsIn fetch qs) < 2 ^ 64) (maxBytes : UInt64) (maxFiles : Nat) :
    ∃ l, getCandidateList v maxBytes maxFiles fetch qs {} = .ok l ∧
      CandidatesOf v maxBytes maxFiles (jobsIn fetch qs) l := by
  refine getCandidateList_exact (fun q hq => ?_) hfit maxBytes maxFiles
  obtain ⟨s, hs, hcount, hbytes, htotal⟩ := hqs q hq
  have hle := bytesOf_le_jobsIn v hq hs
  refine ⟨s, hs, hcount, hbytes, ?_⟩
  rw [htotal]
  exact toNat_sum_size v (Nat.lt_of_le_of_lt hle hfit)

end
end CandidateList
end Cta.ObjectStore
