import Cta.Scheduler.RetrieveFailure

/-! Which failures of a retrieve job leave its request queued or reported. -/
namespace Cta.Scheduler.RetrieveFailure
open Cta.Lib.Triples Cta.Lib.Transactions
open Cta.ObjectStore.GarbageCollector (RetrieveJobStatus JobQueueType QueueId RequestOwner TapeFile)

section
variable {g : Statistics} {r : RetrieveRequest} {job : FailingJob} {s : Store}
  {P : Option RetrieveRequest → Prop}
  {copyNb mountId : Nat} {failureReason : String} {force : Bool} {vids : List String}

theorem find?_copyNb {jobs : List RetrieveJob} (hnodup : (jobs.map (·.copyNb)).Nodup)
    {j : RetrieveJob} : jobs.find? (·.copyNb = copyNb) = some j ↔ j ∈ jobs ∧ j.copyNb = copyNb := by
  induction jobs with
  | nil => simp
  | cons first rest ih =>
    rw [List.map_cons, List.nodup_cons] at hnodup
    rw [List.find?_cons, List.mem_cons]
    by_cases hfirst : first.copyNb = copyNb
    · simp only [hfirst, decide_true, Option.some.injEq]
      constructor
      · rintro rfl
        exact ⟨.inl rfl, hfirst⟩
      · rintro ⟨rfl | hj, hcopy⟩
        · rfl
        · exact absurd (List.mem_map.mpr ⟨j, hj, hcopy.trans hfirst.symm⟩) hnodup.1
    · simp only [hfirst, decide_false, ih hnodup.2]
      constructor
      · rintro ⟨hj, hcopy⟩
        exact ⟨.inr hj, hcopy⟩
      · rintro ⟨rfl | hj, hcopy⟩
        · exact absurd hcopy hfirst
        · exact ⟨hj, hcopy⟩

theorem getJobStatus_eq_ok (hnodup : (r.jobs.map (·.copyNb)).Nodup) {status : RetrieveJobStatus} :
    r.getJobStatus copyNb = .ok status ↔ ∃ j ∈ r.jobs, j.copyNb = copyNb ∧ j.status = status := by
  unfold RetrieveRequest.getJobStatus
  cases h : r.jobs.find? (·.copyNb = copyNb) with
  | none =>
    rw [List.find?_eq_none] at h
    constructor
    · nofun
    · rintro ⟨j, hj, hcopy, -⟩
      exact absurd (decide_eq_true hcopy) (h j hj)
  | some j =>
    obtain ⟨hj, hcopy⟩ := (find?_copyNb hnodup).mp h
    constructor
    · rintro ⟨⟩
      exact ⟨j, hj, hcopy, rfl⟩
    · rintro ⟨other, hother, hcopy, rfl⟩
      rw [(find?_copyNb hnodup).mpr ⟨hother, hcopy⟩] at h
      cases h
      rfl

theorem vidsWithStatus_eq (hnodup : (r.jobs.map (·.copyNb)).Nodup) (status : RetrieveJobStatus)
    {tapeFiles : List TapeFile} (h : ∀ tf ∈ tapeFiles, tf.copyNb ∈ r.jobs.map (·.copyNb)) :
    r.vidsWithStatus status tapeFiles = .ok ((tapeFiles.filter fun tf =>
      r.jobs.any fun j => j.copyNb = tf.copyNb ∧ j.status = status).map (·.vid)) := by
  induction tapeFiles with
  | nil => rfl
  | cons tf rest ih =>
    obtain ⟨htf, hrest⟩ := List.forall_mem_cons.mp h
    obtain ⟨j, hj, hcopy⟩ := List.mem_map.mp htf
    have hstatus := (getJobStatus_eq_ok hnodup).mpr ⟨j, hj, hcopy, rfl⟩
    have hiff : (r.jobs.any fun other => other.copyNb = tf.copyNb ∧ other.status = status) =
        decide (j.status = status) := by
      rw [Bool.eq_iff_iff, decide_eq_true_iff]
      simp only [List.any_eq_true, decide_eq_true_eq]
      rw [← getJobStatus_eq_ok hnodup, hstatus, Except.ok.injEq]
    rw [RetrieveRequest.vidsWithStatus, hstatus, ih hrest, List.filter_cons, hiff]
    by_cases hs : j.status = status
    · simp [hs, bind, Except.bind, pure, Except.pure]
    · simp [hs, bind, Except.bind, pure, Except.pure]

theorem setStatus_eq {jobs : List RetrieveJob} (hnodup : (jobs.map (·.copyNb)).Nodup)
    (h : copyNb ∈ jobs.map (·.copyNb)) (status : RetrieveJobStatus) :
    RetrieveRequest.setStatus copyNb status jobs =
      .ok (jobs.map fun j => if j.copyNb = copyNb then { j with status } else j) := by
  induction jobs with
  | nil => exact absurd h List.not_mem_nil
  | cons first rest ih =>
    rw [List.map_cons, List.nodup_cons] at hnodup
    rw [RetrieveRequest.setStatus, List.map_cons]
    by_cases hfirst : first.copyNb = copyNb
    · have hrest : rest.map (fun j => if j.copyNb = copyNb then { j with status } else j) =
          rest := by
        refine (List.map_congr_left fun j hj => if_neg fun hcopy => hnodup.1 ?_).trans
          (List.map_id rest)
        exact List.mem_map.mpr ⟨j, hj, hcopy.trans hfirst.symm⟩
      rw [if_pos hfirst, if_pos hfirst, hrest]
    · have hmem : copyNb ∈ rest.map (·.copyNb) :=
        (List.mem_cons.mp h).resolve_left fun hcopy => hfirst hcopy.symm
      rw [if_neg hfirst, if_neg hfirst, ih hnodup.2 hmem]
      rfl

theorem totalRetriesOf_map {f : RetrieveJob → RetrieveJob} (h : ∀ j, (f j).copyNb = j.copyNb) :
    RetrieveRequest.totalRetriesOf { r with jobs := r.jobs.map f } copyNb =
      (r.jobs.find? (·.copyNb = copyNb)).map fun j => (f j).totalRetries := by
  have hf : ((fun j : RetrieveJob => decide (j.copyNb = copyNb)) ∘ f) =
      fun j => decide (j.copyNb = copyNb) := funext fun j => by
    simp only [Function.comp_apply, h]
  simp only [RetrieveRequest.totalRetriesOf, List.find?_map, hf, Option.map_map]
  rfl

theorem totalRetriesOf_withFailure :
    (r.withFailure copyNb mountId failureReason).totalRetriesOf copyNb =
      (r.totalRetriesOf copyNb).map (· + 1) := by
  rw [RetrieveRequest.withFailure, totalRetriesOf_map fun j => ?_, RetrieveRequest.totalRetriesOf,
    Option.map_map]
  · cases hj : r.jobs.find? (·.copyNb = copyNb) with
    | none => rfl
    | some j =>
      have hcopy : j.copyNb = copyNb := by simpa using List.find?_some hj
      simp [hcopy, RetrieveJob.addFailure]
  · split
    · rfl
    · rfl

theorem exists_totalRetriesOf (h : copyNb ∈ r.jobs.map (·.copyNb)) :
    ∃ n, r.totalRetriesOf copyNb = some n := by
  obtain ⟨j, hj, hcopy⟩ := List.mem_map.mp h
  cases hfind : r.jobs.find? (·.copyNb = copyNb) with
  | none => exact absurd (decide_eq_true hcopy) (List.find?_eq_none.mp hfind j hj)
  | some other => exact ⟨other.totalRetries, by rw [RetrieveRequest.totalRetriesOf, hfind]; rfl⟩

/-- A request that did not count the failure is not the one with the failure. -/
theorem withFailure_ne (h : copyNb ∈ r.jobs.map (·.copyNb)) {other : RetrieveRequest}
    (hother : other.totalRetriesOf copyNb = r.totalRetriesOf copyNb) :
    other ≠ r.withFailure copyNb mountId failureReason := by
  rintro rfl
  obtain ⟨n, hn⟩ := exists_totalRetriesOf h
  rw [totalRetriesOf_withFailure, hn] at hother
  simp at hother

theorem setJobStatus_eq (hnodup : (r.jobs.map (·.copyNb)).Nodup)
    (h : copyNb ∈ r.jobs.map (·.copyNb)) (status : RetrieveJobStatus) :
    r.setJobStatus copyNb status = .ok { r with jobs := r.jobs.map fun j =>
      if j.copyNb = copyNb then { j with status } else j } := by
  rw [RetrieveRequest.setJobStatus, setStatus_eq hnodup h]
  rfl

theorem determineNextStep_eq (h : copyNb ∈ r.jobs.map (·.copyNb)) :
    r.determineNextStep copyNb =
      .ok (if r.isRepack then ⟨.toReportToRepackForFailure, .enqueueForReportForRepack⟩
        else ⟨.toReportToUserForFailure, .enqueueForReportForUser⟩) := by
  obtain ⟨j, hj, hcopy⟩ := List.mem_map.mp h
  exact if_pos (List.any_eq_true.mpr ⟨j, hj, decide_eq_true hcopy⟩)

/-- When the first job is of another copy, the failure of this one is not counted. -/
theorem addTransferFailure_other (mountId : Nat) (failureReason : String)
    {first : RetrieveJob} {rest : List RetrieveJob} (hjobs : r.jobs = first :: rest)
    (hfirst : first.copyNb ≠ copyNb)
    (h : copyNb ∈ r.jobs.map (·.copyNb)) :
    ∃ next, r.addTransferFailure copyNb mountId failureReason = .ok (r, next) := by
  have hr : { r with jobs := first :: rest } = r := by rw [← hjobs]
  unfold RetrieveRequest.addTransferFailure
  rw [hjobs]
  simp only [hfirst, if_false, hr, determineNextStep_eq h]
  split
  · exact ⟨_, rfl⟩
  · split
    · exact ⟨_, rfl⟩
    · exact ⟨_, rfl⟩

theorem exhausted_first {first : RetrieveJob} {rest : List RetrieveJob}
    (hjobs : r.jobs = first :: rest) (hfirst : first.copyNb = copyNb)
    (hnodup : (r.jobs.map (·.copyNb)).Nodup) :
    r.exhausted copyNb = true ↔
      r.isVerifyOnly = true ∨ first.maxTotalRetries ≤ first.totalRetries + 1 := by
  have hrest : ∀ j ∈ rest, j.copyNb ≠ copyNb := by
    rw [hjobs, List.map_cons, List.nodup_cons] at hnodup
    exact fun j hj hcopy => hnodup.1 (List.mem_map.mpr ⟨j, hj, hcopy.trans hfirst.symm⟩)
  have hany : (rest.any fun j =>
      j.copyNb = copyNb ∧ j.maxTotalRetries ≤ j.totalRetries + 1) = false := by
    rw [List.any_eq_false]
    simpa using fun j hj hcopy => absurd hcopy (hrest j hj)
  rw [RetrieveRequest.exhausted, hjobs, List.any_cons, hany]
  simp [hfirst]

structure FailedStep (r : RetrieveRequest) (copyNb : Nat) (step : NextStep) : Prop where
  user : r.exhausted copyNb = true → r.isRepack = false → step = .enqueueForReportForUser
  repack : r.exhausted copyNb = true → r.isRepack = true → step = .enqueueForReportForRepack
  retry : r.exhausted copyNb = false → step = .nothing ∨ step = .enqueueForTransferForUser

theorem next_of_exhausted (h : r.exhausted copyNb = true) :
    ∃ step, FailedStep r copyNb step ∧
      (if r.isRepack then ⟨.toReportToRepackForFailure, .enqueueForReportForRepack⟩
        else ⟨.toReportToUserForFailure, .enqueueForReportForUser⟩ : EnqueueingNextStep) =
      ⟨r.failedStatus copyNb, step⟩ := by
  cases hrepack : r.isRepack with
  | true => exact ⟨.enqueueForReportForRepack, ⟨by simp [hrepack], fun _ _ => rfl, by simp [h]⟩,
      by simp [RetrieveRequest.failedStatus, h, hrepack]⟩
  | false => exact ⟨.enqueueForReportForUser, ⟨fun _ _ => rfl, by simp [hrepack], by simp [h]⟩,
      by simp [RetrieveRequest.failedStatus, h, hrepack]⟩

theorem addTransferFailure_first (mountId : Nat) (failureReason : String)
    {first : RetrieveJob} {rest : List RetrieveJob} (hjobs : r.jobs = first :: rest)
    (hfirst : first.copyNb = copyNb)
    (hnodup : (r.jobs.map (·.copyNb)).Nodup) :
    ∃ step, FailedStep r copyNb step ∧ r.addTransferFailure copyNb mountId failureReason =
      .ok ({ r with jobs := first.addFailure mountId failureReason :: rest },
        ⟨r.failedStatus copyNb, step⟩) := by
  have hiff := exhausted_first hjobs hfirst hnodup
  have hdetermine : RetrieveRequest.determineNextStep
      { r with jobs := first.addFailure mountId failureReason :: rest } copyNb = _ :=
    determineNextStep_eq (List.mem_map.mpr ⟨_, List.mem_cons_self, hfirst⟩)
  have hretries : (first.addFailure mountId failureReason).totalRetries = first.totalRetries + 1 :=
    rfl
  have hmax : (first.addFailure mountId failureReason).maxTotalRetries = first.maxTotalRetries :=
    rfl
  unfold RetrieveRequest.addTransferFailure
  rw [hjobs]
  simp only [hfirst, if_true, hdetermine, hretries, hmax]
  by_cases hexhausted : r.exhausted copyNb = true
  · obtain ⟨step, hstep, hnext⟩ := next_of_exhausted hexhausted
    refine ⟨step, hstep, ?_⟩
    rw [hnext]
    cases hiff.mp hexhausted with
    | inl hverify => exact if_pos hverify
    | inr hmany =>
      rw [if_neg (UInt32.not_lt.mpr hmany), ite_self]
      rfl
  · have hstatus : r.failedStatus copyNb = .toTransfer := if_neg hexhausted
    have hfew := hexhausted
    rw [hiff, not_or, UInt32.not_le] at hfew
    rw [if_neg hfew.1, if_pos hfew.2, hstatus]
    refine ⟨_, ⟨fun h => absurd h hexhausted, fun h => absurd h hexhausted, fun _ => ?_⟩, rfl⟩
    split
    · exact .inr rfl
    · exact .inl rfl

theorem setJobStatus_addFailure (mountId : Nat) (failureReason : String)
    {first : RetrieveJob} {rest : List RetrieveJob} (hjobs : r.jobs = first :: rest)
    (hfirst : first.copyNb = copyNb)
    (hnodup : (r.jobs.map (·.copyNb)).Nodup) :
    RetrieveRequest.setJobStatus { r with
      jobs := first.addFailure mountId failureReason :: rest } copyNb (r.failedStatus copyNb) =
      .ok (r.withFailure copyNb mountId failureReason) := by
  have hnodup' : ((first.addFailure mountId failureReason :: rest).map (·.copyNb)).Nodup := by
    rwa [hjobs] at hnodup
  have hmem : copyNb ∈ (first.addFailure mountId failureReason :: rest).map (·.copyNb) :=
    List.mem_map.mpr ⟨_, List.mem_cons_self, hfirst⟩
  rw [setJobStatus_eq hnodup' hmem, RetrieveRequest.withFailure, hjobs, List.map_cons,
    List.map_cons, if_pos hfirst, if_pos (show (first.addFailure mountId _).copyNb = _ from hfirst)]
  rw [List.map_cons, List.nodup_cons] at hnodup'
  have hrest : ∀ j ∈ rest, j.copyNb ≠ copyNb := fun j hj hcopy =>
    hnodup'.1 (List.mem_map.mpr ⟨j, hj, hcopy.trans hfirst.symm⟩)
  have hmap : ∀ f : RetrieveJob → RetrieveJob,
      (rest.map fun j => if j.copyNb = copyNb then f j else j) = rest := fun f =>
    (List.map_congr_left fun j hj => if_neg (hrest j hj)).trans (List.map_id rest)
  rw [hmap, hmap]

theorem commitRequest_ok (h : job.commit = .ok ⟨⟩) (r : RetrieveRequest) (s : Store) :
    job.commitRequest r s = .ok ⟨⟩ { s with request := some r } := by
  rw [FailingJob.commitRequest, exec_eq_ok, h]
  rfl

theorem commitRequest_keeps (h : job.commit = .ok ⟨⟩ → P (some r)) :
    Keeps (fun s => P s.request) (job.commitRequest r) := by
  refine Keeps.exec fun s a t hs ht => ?_
  cases hcommit : job.commit with
  | error e =>
    rw [hcommit] at ht
    cases ht
  | ok u =>
    rw [hcommit] at ht
    cases ht
    exact h hcommit

theorem referenceAndSwitchOwnership_keeps (queue : QueueId) (copyNb : Nat) :
    Keeps (fun s => P s.request) (job.referenceAndSwitchOwnership queue copyNb) := by
  refine Keeps.exec fun s a t hs ht => ?_
  split at ht
  · cases hswitch : job.switchOwnership with
    | error e =>
      rw [hswitch] at ht
      cases ht
    | ok u =>
      rw [hswitch] at ht
      cases ht
      exact hs
  · cases ht

theorem enqueueForReportForRepack_keeps :
    Keeps (fun s => P s.request) (job.enqueueForReportForRepack r) :=
  Keeps.check.bind fun _ => (referenceAndSwitchOwnership_keeps _ _).ignoring

theorem applyDecision_keeps (h : job.commit = .ok ⟨⟩ → P (some r)) (step : NextStep) :
    Keeps (fun s => P s.request) (job.applyDecision r step) := by
  have hcommit : Keeps (fun s => P s.request) (job.commitRequest r) := commitRequest_keeps h
  cases step with
  | nothing => exact hcommit
  | enqueueForReportForUser =>
    exact Keeps.ofResult.bind fun vids => Keeps.check.bind fun _ => Keeps.ofResult.bind fun vid =>
      Keeps.ofResult.bind fun tf => hcommit.bind fun _ => referenceAndSwitchOwnership_keeps _ _
  | enqueueForReportForRepack => exact enqueueForReportForRepack_keeps
  | enqueueForTransferForUser =>
    exact Keeps.ofResult.bind fun vids => Keeps.check.bind fun _ => hcommit.bind fun _ =>
      Keeps.ofResult.bind fun vid => Keeps.ofResult.bind fun tf =>
        referenceAndSwitchOwnership_keeps _ _

theorem withFailure_copies :
    (r.withFailure copyNb mountId failureReason).jobs.map (·.copyNb) = r.jobs.map (·.copyNb) := by
  rw [RetrieveRequest.withFailure, List.map_map]
  refine List.map_congr_left fun j _ => ?_
  rw [Function.comp_apply]
  split
  · rfl
  · rfl

theorem RetrieveRequest.WellFormed.withFailure (h : r.WellFormed) :
    (r.withFailure copyNb mountId failureReason).WellFormed where
  copies := withFailure_copies.trans h.copies
  nodup := withFailure_copies.symm ▸ h.nodup

theorem candidateVids_eq (h : r.WellFormed) (status : RetrieveJobStatus) :
    r.candidateVids status = .ok (((r.tapeFiles.filter fun tf => r.jobs.any fun j =>
      j.copyNb = tf.copyNb ∧ j.status = status).map (·.vid)).dedup.insertionSort (· ≤ ·)) := by
  rw [RetrieveRequest.candidateVids, vidsWithStatus_eq h.nodup]
  · rfl
  · intro tf htf
    exact h.copies ▸ List.mem_map_of_mem htf

/-- The copy that failed has its new status, the others have the one they had. -/
theorem any_withFailure (hcopy : copyNb ∈ r.jobs.map (·.copyNb)) {other : Nat}
    {status : RetrieveJobStatus} :
    ((r.withFailure copyNb mountId failureReason).jobs.any fun j =>
      j.copyNb = other ∧ j.status = status) =
      if other = copyNb then decide (r.failedStatus copyNb = status)
      else r.jobs.any fun j => j.copyNb = other ∧ j.status = status := by
  rw [RetrieveRequest.withFailure, List.any_map, Bool.eq_iff_iff]
  obtain ⟨j, hj, hjcopy⟩ := List.mem_map.mp hcopy
  by_cases hother : other = copyNb
  · rw [if_pos hother, decide_eq_true_iff]
    simp only [List.any_eq_true, Function.comp_apply, decide_eq_true_eq, hother]
    constructor
    · rintro ⟨i, -, hi, hstatus⟩
      by_cases hicopy : i.copyNb = copyNb
      · rwa [if_pos hicopy] at hstatus
      · rw [if_neg hicopy] at hi
        exact absurd hi hicopy
    · intro hstatus
      refine ⟨j, hj, ?_⟩
      rw [if_pos hjcopy]
      exact ⟨hjcopy, hstatus⟩
  · rw [if_neg hother]
    simp only [List.any_eq_true, Function.comp_apply, decide_eq_true_eq]
    refine exists_congr fun i => and_congr_right fun _ => ?_
    by_cases hicopy : i.copyNb = copyNb
    · rw [if_pos hicopy]
      refine iff_of_false (fun h => hother ?_) fun h => hother (h.1.symm.trans hicopy)
      exact h.1.symm.trans hicopy
    · rw [if_neg hicopy]

theorem candidateVids_report (mountId : Nat) (failureReason : String) (h : r.WellFormed)
    (hcopy : copyNb ∈ r.jobs.map (·.copyNb))
    (hexhausted : r.exhausted copyNb = true) (huser : r.isRepack = false) :
    (r.withFailure copyNb mountId failureReason).candidateVids .toReportToUserForFailure =
      .ok (r.reportVids copyNb) := by
  have hstatus : r.failedStatus copyNb = .toReportToUserForFailure := by
    simp [RetrieveRequest.failedStatus, hexhausted, huser]
  rw [candidateVids_eq h.withFailure, RetrieveRequest.reportVids]
  simp only [any_withFailure hcopy, hstatus, decide_true]
  have hfilter : ∀ tf : TapeFile, (if tf.copyNb = copyNb then true else r.jobs.any fun j =>
      j.copyNb = tf.copyNb ∧ j.status = .toReportToUserForFailure) =
      decide (tf.copyNb = copyNb ∨ (r.jobs.any fun j =>
        j.copyNb = tf.copyNb ∧ j.status = .toReportToUserForFailure) = true) := fun tf => by
    by_cases htf : tf.copyNb = copyNb
    · simp [htf]
    · rw [if_neg htf, Bool.eq_iff_iff, decide_eq_true_iff, or_iff_right htf]
  simp only [hfilter]
  rfl

theorem candidateVids_ne_nil (mountId : Nat) (failureReason : String) (h : r.WellFormed)
    (hcopy : copyNb ∈ r.jobs.map (·.copyNb)) :
    ∃ vids, vids ≠ [] ∧ (r.withFailure copyNb mountId failureReason).candidateVids
      (r.failedStatus copyNb) = .ok vids := by
  refine ⟨_, ?_, candidateVids_eq h.withFailure _⟩
  obtain ⟨tf, htf, htfcopy⟩ := List.mem_map.mp (h.copies ▸ hcopy)
  refine List.ne_nil_of_mem (a := tf.vid) ?_
  rw [List.mem_insertionSort, List.mem_dedup]
  refine List.mem_map_of_mem (List.mem_filter.mpr ⟨htf, ?_⟩)
  rw [any_withFailure hcopy, if_pos htfcopy]
  exact decide_eq_true rfl

theorem failTransfer_eq (h : job.Owns s r)
    (hrelease : job.diskSystemName.isSome → job.releaseDiskSpace = .ok ⟨⟩)
    (hlock : job.lock = .ok ⟨⟩) {added failed : RetrieveRequest} {next : EnqueueingNextStep}
    (hadd : r.addTransferFailure job.selectedCopyNb job.mountId job.failureReason =
      .ok (added, next))
    (hset : added.setJobStatus job.selectedCopyNb next.nextStatus = .ok failed) :
    job.failTransfer s = job.applyDecision failed next.nextStep s := by
  have hrelease' : (if job.diskSystemName.isSome then job.releaseDiskSpace else .ok ⟨⟩) =
      .ok ⟨⟩ := by
    split
    · next hsome => exact hrelease hsome
    · rfl
  have hfetch : FailingJob.fetch s = .ok r s := by
    rw [FailingJob.fetch, exec_eq_ok, h.request]
  have howned : check job.jobOwned Failure.jobNotOwned s = .ok ⟨⟩ s :=
    check_eq_ok.mpr ⟨h.jobOwned, rfl⟩
  rw [FailingJob.failTransfer, bind_ok howned,
    bind_ok (ofResult_eq_ok.mpr ⟨hrelease', rfl⟩), bind_ok (ofResult_eq_ok.mpr ⟨hlock, rfl⟩),
    bind_ok hfetch, bind_ok (ofResult_eq_ok.mpr ⟨hadd, rfl⟩)]
  exact bind_ok (ofResult_eq_ok.mpr ⟨hset, rfl⟩) _

theorem not_recorded (h : job.Owns s r) {t : Store} {other : RetrieveRequest}
    (hother : other.totalRetriesOf job.selectedCopyNb = r.totalRetriesOf job.selectedCopyNb)
    (ht : t.request = some other) : ¬job.Recorded r t := fun hrecorded =>
  withFailure_ne h.copy hother (Option.some.inj (ht.symm.trans hrecorded.request))

theorem not_recorded_of_early (h : job.Owns s r)
    (hearly : ¬((job.diskSystemName.isSome → job.releaseDiskSpace = .ok ⟨⟩) ∧
      job.lock = .ok ⟨⟩)) : ¬job.Recorded r (job.after s) := by
  refine not_recorded h rfl ?_
  have howned : check job.jobOwned Failure.jobNotOwned s = .ok ⟨⟩ s :=
    check_eq_ok.mpr ⟨h.jobOwned, rfl⟩
  cases hrelease : (if job.diskSystemName.isSome then job.releaseDiskSpace else .ok ⟨⟩) with
  | error e =>
    have hend : job.failTransfer s = .error e s := by
      rw [FailingJob.failTransfer, bind_ok howned, bind_error (ofResult_error hrelease)]
    rw [FailingJob.after, after_error hend, h.request]
  | ok u =>
    cases hlock : job.lock with
    | error e =>
      have hend : job.failTransfer s = .error e s := by
        rw [FailingJob.failTransfer, bind_ok howned, bind_ok (ofResult_eq_ok.mpr ⟨hrelease, rfl⟩),
          bind_error (ofResult_error hlock)]
      rw [FailingJob.after, after_error hend, h.request]
    | ok u =>
      refine absurd ⟨fun hsome => ?_, hlock⟩ hearly
      rwa [if_pos hsome] at hrelease

theorem not_recorded_of_other (h : job.Owns s r)
    (hrelease : job.diskSystemName.isSome → job.releaseDiskSpace = .ok ⟨⟩)
    (hlock : job.lock = .ok ⟨⟩) {first : RetrieveJob} {rest : List RetrieveJob}
    (hjobs : r.jobs = first :: rest) (hfirst : first.copyNb ≠ job.selectedCopyNb) :
    ¬job.Recorded r (job.after s) := by
  obtain ⟨next, hadd⟩ := addTransferFailure_other job.mountId job.failureReason hjobs hfirst h.copy
  have hset := setJobStatus_eq h.wellFormed.nodup h.copy next.nextStatus
  let uncounted : Option RetrieveRequest → Prop := fun request => ∃ other, request = some other ∧
    other.totalRetriesOf job.selectedCopyNb = r.totalRetriesOf job.selectedCopyNb
  have hcounted : uncounted (some { r with jobs := r.jobs.map fun j =>
      if j.copyNb = job.selectedCopyNb then { j with status := next.nextStatus } else j }) := by
    refine ⟨_, rfl, (totalRetriesOf_map fun j => ?_).trans ?_⟩
    · split
      · rfl
      · rfl
    · refine congrArg (Option.map · _) (funext fun j => ?_)
      split
      · rfl
      · rfl
  have hkeeps : Keeps (fun t => uncounted t.request) (job.applyDecision _ next.nextStep) :=
    applyDecision_keeps (fun _ => hcounted) next.nextStep
  obtain ⟨other, hrequest, hother⟩ := hkeeps.after (s := s) ⟨r, h.request, rfl⟩
  refine not_recorded h hother ?_
  rwa [FailingJob.after, after_congr (failTransfer_eq h hrelease hlock hadd hset)]

theorem applyDecision_retry (h : job.Owns s r) {step : NextStep}
    (hstep : step = .nothing ∨ step = .enqueueForTransferForUser)
    (hstatus : r.failedStatus job.selectedCopyNb = .toTransfer) (hcommit : job.commit = .ok ⟨⟩) :
    (after (job.applyDecision (r.withFailure job.selectedCopyNb job.mountId job.failureReason)
      step) s).request = some (r.withFailure job.selectedCopyNb job.mountId job.failureReason) := by
  have hwrite := commitRequest_ok hcommit
    (r.withFailure job.selectedCopyNb job.mountId job.failureReason) s
  cases hstep with
  | inl hnothing =>
    rw [hnothing, FailingJob.applyDecision, after_ok hwrite]
  | inr htransfer =>
    obtain ⟨vids, hne, hvids⟩ := candidateVids_ne_nil job.mountId job.failureReason
      h.wellFormed h.copy
    have hnonempty : check (!vids.isEmpty) Failure.exception s = .ok ⟨⟩ s :=
      check_eq_ok.mpr ⟨by simpa using hne, rfl⟩
    rw [hstatus] at hvids
    rw [htransfer, FailingJob.applyDecision, FailingJob.enqueueForTransferForUser,
      after_congr ((bind_ok (ofResult_eq_ok.mpr ⟨hvids, rfl⟩) _).trans
        ((bind_ok hnonempty _).trans (bind_ok hwrite _)))]
    have hkeeps : Keeps (fun t => t.request =
        some (r.withFailure job.selectedCopyNb job.mountId job.failureReason)) (do
        let bestVid ← ofResult (job.statistics.selectBestRetrieveQueue vids r.forceDisabledTape)
        let tf ← ofResult (FailingJob.tapeFileOf
          (r.withFailure job.selectedCopyNb job.mountId job.failureReason) bestVid)
        job.referenceAndSwitchOwnership (bestVid, .jobsToTransferForUser) tf.copyNb) :=
      Keeps.ofResult.bind fun vid => Keeps.ofResult.bind fun tf =>
        referenceAndSwitchOwnership_keeps (P := fun request => request = some _) _ _
    exact hkeeps.after rfl

theorem reportVids_subset : ∀ vid ∈ r.reportVids copyNb, vid ∈ r.tapeFiles.map (·.vid) := by
  intro vid hvid
  rw [RetrieveRequest.reportVids, List.mem_insertionSort, List.mem_dedup] at hvid
  obtain ⟨tf, htf, rfl⟩ := List.mem_map.mp hvid
  exact List.mem_map_of_mem (List.mem_of_mem_filter htf)

theorem tapeFileOf_eq_ok {vid : String} :
    (∃ tf, FailingJob.tapeFileOf r vid = .ok tf) ↔ vid ∈ r.tapeFiles.map (·.vid) := by
  unfold FailingJob.tapeFileOf
  cases h : r.tapeFiles.find? (·.vid = vid) with
  | none =>
    refine iff_of_false (by simp) fun hvid => ?_
    obtain ⟨tf, htf, hvid⟩ := List.mem_map.mp hvid
    exact List.find?_eq_none.mp h tf htf (decide_eq_true hvid)
  | some tf =>
    refine iff_of_true ⟨tf, rfl⟩ (List.mem_map.mpr ⟨tf, List.mem_of_find?_eq_some h, ?_⟩)
    simpa using List.find?_some h

theorem mem_of_tapeFileOf {vid : String} {tf : TapeFile}
    (h : FailingJob.tapeFileOf r vid = .ok tf) : tf ∈ r.tapeFiles := by
  unfold FailingJob.tapeFileOf at h
  split at h
  · next other hfind =>
    cases h
    exact List.mem_of_find?_eq_some hfind
  · cases h

theorem referenceAndSwitchOwnership_ok (howner : s.owner = .agent job.agent)
    (h : job.switchOwnership = .ok ⟨⟩) (queue : QueueId) (copyNb : Nat) :
    job.referenceAndSwitchOwnership queue copyNb s = .ok ⟨⟩ { s with
      owner := .queue queue
      references := Function.update s.references queue (s.references queue ++ [copyNb]) } := by
  rw [FailingJob.referenceAndSwitchOwnership, exec_eq_ok, if_pos howner, h]
  rfl

theorem referenceAndSwitchOwnership_error {e : Failure} (howner : s.owner = .agent job.agent)
    (h : job.switchOwnership = .error e) (queue : QueueId) (copyNb : Nat) :
    job.referenceAndSwitchOwnership queue copyNb s = .error e s := by
  rw [FailingJob.referenceAndSwitchOwnership, exec, if_pos howner, h]
  rfl

theorem commit_and_queue (h : job.Owns s r) (huser : r.isRepack = false)
    (hexhausted : r.exhausted job.selectedCopyNb = true) (hcommit : job.commit = .ok ⟨⟩)
    {tf : TapeFile} (htf : tf ∈ r.tapeFiles) :
    job.Recorded r (after (do
      job.commitRequest (r.withFailure job.selectedCopyNb job.mountId job.failureReason)
      job.referenceAndSwitchOwnership (tf.vid, .jobsToReportToUser) tf.copyNb) s) ↔
      job.switchOwnership = .ok ⟨⟩ := by
  have howner : ({ s with request := some (r.withFailure job.selectedCopyNb job.mountId
      job.failureReason) } : Store).owner = .agent job.agent := h.owner
  rw [after_congr (bind_ok (commitRequest_ok hcommit _ s) _)]
  cases hswitch : job.switchOwnership with
  | error e =>
    rw [after_error (referenceAndSwitchOwnership_error howner hswitch _ _)]
    refine iff_of_false (fun hrecorded => ?_) (by simp)
    obtain ⟨other, -, howner, -⟩ := hrecorded.queued huser hexhausted
    cases h.owner.symm.trans howner
  | ok u =>
    rw [after_ok (referenceAndSwitchOwnership_ok howner hswitch _ _)]
    refine iff_of_true ⟨rfl, fun _ _ => ⟨tf, htf, rfl, ?_⟩⟩ rfl
    simp

theorem applyDecision_report (h : job.Owns s r) (huser : r.isRepack = false)
    (hexhausted : r.exhausted job.selectedCopyNb = true) (hcommit : job.commit = .ok ⟨⟩) :
    job.Recorded r (after (job.applyDecision (r.withFailure job.selectedCopyNb job.mountId
      job.failureReason) .enqueueForReportForUser) s) ↔
      job.statistics.Finds (r.reportVids job.selectedCopyNb) (r.tapeFiles.map (·.vid)) ∧
        job.switchOwnership = .ok ⟨⟩ := by
  have hvids := candidateVids_report job.mountId job.failureReason
    h.wellFormed h.copy hexhausted huser
  have hnonempty : check (!(r.reportVids job.selectedCopyNb).isEmpty) Failure.exception s =
      .ok ⟨⟩ s := by
    obtain ⟨vids, hne, hcandidates⟩ := candidateVids_ne_nil job.mountId job.failureReason
      h.wellFormed h.copy
    have hstatus : r.failedStatus job.selectedCopyNb = .toReportToUserForFailure := by
      simp [RetrieveRequest.failedStatus, hexhausted, huser]
    rw [hstatus, hvids] at hcandidates
    exact check_eq_ok.mpr ⟨by simpa [Except.ok.inj hcandidates] using hne, rfl⟩
  rw [← selectBestRetrieveQueue_iff reportVids_subset]
  have hstart : job.applyDecision (r.withFailure job.selectedCopyNb job.mountId
      job.failureReason) .enqueueForReportForUser s = _ :=
    (bind_ok (ofResult_eq_ok.mpr ⟨hvids, rfl⟩) _).trans (bind_ok hnonempty _)
  rw [after_congr hstart]
  cases hselect : job.statistics.selectBestRetrieveQueue (r.reportVids job.selectedCopyNb)
    false with
  | error e =>
    rw [after_error (bind_error (ofResult_error rfl) _)]
    refine iff_of_false (not_recorded h rfl h.request) ?_
    rintro ⟨⟨vid, -, hvid⟩, -⟩
    cases hvid
  | ok vid =>
    rw [after_congr (bind_ok (ofResult_eq_ok.mpr ⟨rfl, rfl⟩) _)]
    have hfound : (∃ v ∈ r.tapeFiles.map (·.vid), (Except.ok vid : Except Failure String) = .ok v) ↔
        vid ∈ r.tapeFiles.map (·.vid) := by
      constructor
      · rintro ⟨v, hv, ⟨⟩⟩
        exact hv
      · exact fun hv => ⟨vid, hv, rfl⟩
    rw [hfound, ← tapeFileOf_eq_ok]
    cases htf : FailingJob.tapeFileOf r vid with
    | error e =>
      have htf' : FailingJob.tapeFileOf
        (r.withFailure job.selectedCopyNb job.mountId job.failureReason) vid = .error e := htf
      rw [after_error (bind_error (ofResult_error htf') _)]
      refine iff_of_false (not_recorded h rfl h.request) ?_
      rintro ⟨⟨tf, htf⟩, -⟩
      cases htf
    | ok tf =>
      have htf' : FailingJob.tapeFileOf
        (r.withFailure job.selectedCopyNb job.mountId job.failureReason) vid = .ok tf := htf
      rw [after_congr (bind_ok (ofResult_eq_ok.mpr ⟨htf', rfl⟩) _),
        commit_and_queue h huser hexhausted hcommit (mem_of_tapeFileOf htf)]
      exact (and_iff_right ⟨tf, rfl⟩).symm

/-- What each decision comes to when the failure of the first copy is counted. -/
theorem applyDecision_iff (h : job.Owns s r) {step : NextStep}
    (hstep : FailedStep r job.selectedCopyNb step) :
    job.Recorded r (after (job.applyDecision (r.withFailure job.selectedCopyNb job.mountId
      job.failureReason) step) s) ↔
      job.commit = .ok ⟨⟩ ∧ (r.exhausted job.selectedCopyNb = true → r.isRepack = false ∧
        job.statistics.Finds (r.reportVids job.selectedCopyNb) (r.tapeFiles.map (·.vid)) ∧
        job.switchOwnership = .ok ⟨⟩) := by
  cases hcommit : job.commit with
  | error e =>
    have hkeeps : Keeps (fun t : Store => t.request = some r) (job.applyDecision
        (r.withFailure job.selectedCopyNb job.mountId job.failureReason) step) :=
      applyDecision_keeps (P := (· = some r)) (fun hok => absurd (hcommit.symm.trans hok) (by simp))
        step
    exact iff_of_false (not_recorded h rfl (hkeeps.after h.request)) (by simp)
  | ok u =>
    cases hexhausted : r.exhausted job.selectedCopyNb with
    | false =>
      have hstatus : r.failedStatus job.selectedCopyNb = .toTransfer := by
        simp [RetrieveRequest.failedStatus, hexhausted]
      refine iff_of_true ⟨applyDecision_retry h (hstep.retry hexhausted) hstatus hcommit, ?_⟩
        ⟨rfl, nofun⟩
      exact fun _ hyes => absurd (hexhausted.symm.trans hyes) (by simp)
    | true =>
      cases hrepack : r.isRepack with
      | true =>
        rw [hstep.repack hexhausted hrepack]
        have hkeeps : Keeps (fun t : Store => t.request = some r) (job.enqueueForReportForRepack
            (r.withFailure job.selectedCopyNb job.mountId job.failureReason)) :=
          enqueueForReportForRepack_keeps (P := (· = some r))
        exact iff_of_false (not_recorded h rfl (hkeeps.after h.request)) (by simp)
      | false =>
        rw [hstep.user hexhausted hrepack, applyDecision_report h hrepack hexhausted hcommit]
        simp

end

/-- A failure is recorded unless a call fails before the commit, the copy is not the first of the
request, the request is a repack's that will not be retried, or no queue is found to report it. -/
theorem recorded_iff {job : FailingJob} {s : Store} {r : RetrieveRequest} (h : job.Owns s r) :
    job.Recorded r (job.after s) ↔ job.Records r := by
  by_cases hearly : (job.diskSystemName.isSome → job.releaseDiskSpace = .ok ⟨⟩) ∧ job.lock = .ok ⟨⟩
  · obtain ⟨hrelease, hlock⟩ := hearly
    cases hjobs : r.jobs with
    | nil => exact absurd h.copy (by simp [hjobs])
    | cons first rest =>
      by_cases hfirst : first.copyNb = job.selectedCopyNb
      · obtain ⟨step, hstep, hadd⟩ := addTransferFailure_first job.mountId
          job.failureReason hjobs hfirst h.wellFormed.nodup
        have hset := setJobStatus_addFailure job.mountId job.failureReason hjobs hfirst
          h.wellFormed.nodup
        rw [FailingJob.after, after_congr (failTransfer_eq h hrelease hlock hadd hset),
          applyDecision_iff h hstep]
        constructor
        · rintro ⟨hcommit, hend⟩
          exact {
            releaseDiskSpace := hrelease
            lock := hlock
            commit := hcommit
            first := by simp [hjobs, hfirst]
            user := fun hexhausted => (hend hexhausted).1
            queue := fun hexhausted => (hend hexhausted).2 }
        · exact fun hrecords => ⟨hrecords.commit, fun hexhausted =>
            ⟨hrecords.user hexhausted, hrecords.queue hexhausted⟩⟩
      · refine iff_of_false (not_recorded_of_other h hrelease hlock hjobs hfirst) fun hrecords => ?_
        have hhead := hrecords.first
        rw [hjobs] at hhead
        exact hfirst (Option.some.inj hhead)
  · refine iff_of_false (not_recorded_of_early h hearly) fun hrecords => hearly ?_
    exact ⟨hrecords.releaseDiskSpace, hrecords.lock⟩

/-- A request of a user for a file with one copy, which has failed as often as given. -/
def oneCopyRequest (totalRetries : UInt32) : RetrieveRequest where
  jobs := [{
    copyNb := 1
    maxTotalRetries := 6
    maxRetriesWithinMount := 3
    retriesWithinMount := 0
    totalRetries
    lastMountWithFailure := 0
    failureLogs := []
    status := .toTransfer }]
  isVerifyOnly := false
  isRepack := false
  repackRequestAddress := ""
  forceDisabledTape := false
  tapeFiles := [{ vid := "V00001", copyNb := 1 }]

/-- Its job, with the tape in this state and nothing else that goes wrong. -/
def oneCopyJob (state : TapeState) : FailingJob where
  jobOwned := true
  agent := "agent"
  selectedCopyNb := 1
  mountId := 7
  failureReason := "read error"
  diskSystemName := none
  releaseDiskSpace := .ok ⟨⟩
  lock := .ok ⟨⟩
  commit := .ok ⟨⟩
  statistics := {
    cache := fun _ => none
    updated := fun vid => ⟨⟨vid, 0, 0, 0⟩, state, false, 0⟩
    now := 0
    getTapesByVid := fun vid => .ok [(vid, state)]
    getRetrieveQueueStatistics := fun vid => .ok [⟨vid, 0, 0, 0⟩]
    sort := id
    perm := fun stats => .refl stats
    random := 0 }
  switchOwnership := .ok ⟨⟩

def ownedStore (r : RetrieveRequest) : Store where
  request := some r
  owner := .agent "agent"
  references := fun _ => []

theorem oneCopyJob_owns (state : TapeState) (totalRetries : UInt32) :
    (oneCopyJob state).Owns (ownedStore (oneCopyRequest totalRetries))
      (oneCopyRequest totalRetries) where
  jobOwned := rfl
  request := rfl
  owner := rfl
  wellFormed := ⟨rfl, by simp [oneCopyRequest]⟩
  copy := List.mem_singleton.mpr rfl

theorem recorded_iff_first_failure :
    (oneCopyJob .disabled).Recorded (oneCopyRequest 0)
      ((oneCopyJob .disabled).after (ownedStore (oneCopyRequest 0))) := by
  refine (recorded_iff (oneCopyJob_owns .disabled 0)).mpr ⟨nofun, rfl, rfl, rfl, ?_, ?_⟩
  · exact fun h => absurd h (by decide)
  · exact fun h => absurd h (by decide)

/-- The last failure of a user's request is forgotten when its tape has been disabled. -/
theorem last_failure_forgotten :
    (oneCopyJob .disabled).Owns (ownedStore (oneCopyRequest 5)) (oneCopyRequest 5) ∧
      ¬(oneCopyJob .disabled).Recorded (oneCopyRequest 5)
        ((oneCopyJob .disabled).after (ownedStore (oneCopyRequest 5))) := by
  have howns := oneCopyJob_owns .disabled 5
  have hrequest : ((oneCopyJob .disabled).after (ownedStore (oneCopyRequest 5))).request =
      some (oneCopyRequest 5) := by decide +kernel
  exact ⟨howns, not_recorded howns rfl hrequest⟩

end Cta.Scheduler.RetrieveFailure
