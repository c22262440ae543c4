import Cta.Lib.GroupedByKey
import Mathlib.Data.String.Basic

/-! Queueing of the jobs of a batch in the queues that wait to be reported or have failed. -/
namespace Cta.Scheduler.ReportQueueing
open Cta.Lib.GroupedByKey

structure ArchiveJob where
  archiveRequest : String
  copyNb : Nat
  repackRequestAddress : String
  isRepack : Bool
  deriving DecidableEq, Repr

structure InsertedElement where
  archiveRequest : String
  copyNb : Nat
  deriving DecidableEq, Repr

/-- How `referenceAndSwitchOwnership` ends; `exception`: a `cta::exception::Exception`. -/
inductive Outcome
  | queued | noSuchObject | ownershipSwitchFailure (failedElements : List InsertedElement)
  | exception | otherException
  deriving DecidableEq, Repr

def Outcome.isOwnershipSwitchFailure : Outcome → Bool
  | .ownershipSwitchFailure _ => true
  | .queued | .noSuchObject | .exception | .otherException => false

def maxRetries : Nat := 10

/-- The attempts to queue a list, each with its elements, and whether an exception leaves the
function; `none`: there is no end within `fuel` attempts. The label `retry` stands before the
declaration of `currentTotalRetries`. -/
def retry (outcomes : Nat → Outcome) :
    Nat → Nat → List InsertedElement → Option (List (List InsertedElement) × Bool)
  | 0, _, _ => none
  | fuel + 1, attempt, list =>
    let currentTotalRetries := 0
    match outcomes attempt with
    | .queued | .noSuchObject | .exception => some ([list], false)
    | .otherException => some ([list], true)
    | .ownershipSwitchFailure failedElements =>
      let remaining := list.filter (· ∈ failedElements)
      if currentTotalRetries + 1 ≤ maxRetries then
        (retry outcomes fuel (attempt + 1) remaining).map fun r => (list :: r.1, r.2)
      else some ([list], true)

def queueLists (outcomes : String → Nat → Outcome) (fuel : Nat) :
    List (String × List InsertedElement) → Option (List (String × List (List InsertedElement)))
  | [] => some []
  | (repackRequestAddress, list) :: rest =>
    match retry (outcomes repackRequestAddress) fuel 0 list with
    | none => none
    | some (attempts, true) => some [(repackRequestAddress, attempts)]
    | some (attempts, false) =>
      (queueLists outcomes fuel rest).map ((repackRequestAddress, attempts) :: ·)

def insertedElementsLists (jobs : List ArchiveJob) : List (String × List InsertedElement) :=
  grouped ((jobs.filter (·.isRepack)).map fun j =>
    (j.repackRequestAddress, ⟨j.archiveRequest, j.copyNb⟩))

def queueForReportingToRepack (outcomes : String → Nat → Outcome) (fuel : Nat)
    (jobs : List ArchiveJob) : Option (List (String × List (List InsertedElement))) :=
  queueLists outcomes fuel (insertedElementsLists jobs)

def OnlyFailed (outcomes : Nat → Outcome) : Nat → List (List InsertedElement) → Prop
  | attempt, list :: next :: attempts =>
    (∃ failedElements, outcomes attempt = .ownershipSwitchFailure failedElements ∧
      ∀ e ∈ next, e ∈ list ∧ e ∈ failedElements) ∧
    OnlyFailed outcomes (attempt + 1) (next :: attempts)
  | _, _ => True

def BoundedRetries (outcomes : String → Nat → Outcome) (jobs : List ArchiveJob) : Prop :=
  ∃ fuel queued, queueForReportingToRepack outcomes fuel jobs = some queued ∧
    (queued.map Prod.fst).Nodup ∧
    ∀ q ∈ queued, q.2.length ≤ maxRetries + 1 ∧ OnlyFailed (outcomes q.1) 0 q.2

def EndsAt (outcomes : Nat → Outcome) (n : Nat) : Prop :=
  (∀ k < n, (outcomes k).isOwnershipSwitchFailure = true) ∧
    (outcomes n).isOwnershipSwitchFailure = false

/-- For each address, up to one whose attempts end with an exception that is not CTA's, one of the
first attempts does not fail to switch ownerships. -/
def EndsWithinRetries (outcomes : String → Nat → Outcome) :
    List (String × List InsertedElement) → Prop
  | [] => True
  | (repackRequestAddress, _) :: rest =>
    ∃ n ≤ maxRetries, EndsAt (outcomes repackRequestAddress) n ∧
    (outcomes repackRequestAddress n ≠ .otherException → EndsWithinRetries outcomes rest)

section
variable {outcomes : Nat → Outcome} {fuel attempt n : Nat} {list : List InsertedElement}

theorem endsAt_zero : EndsAt outcomes 0 ↔ (outcomes 0).isOwnershipSwitchFailure = false :=
  ⟨fun h => h.2, fun h => ⟨fun _ hk => absurd hk (Nat.not_lt_zero _), h⟩⟩

theorem endsAt_succ : EndsAt outcomes (n + 1) ↔
    (outcomes 0).isOwnershipSwitchFailure = true ∧ EndsAt (fun k => outcomes (k + 1)) n := by
  constructor
  · intro h
    exact ⟨h.1 0 n.succ_pos, fun k hk => h.1 (k + 1) (Nat.succ_lt_succ hk), h.2⟩
  · intro h
    refine ⟨fun k hk => ?_, h.2.2⟩
    cases k with
    | zero => exact h.1
    | succ k => exact h.2.1 k (Nat.lt_of_succ_lt_succ hk)

theorem retry_failed {failedElements : List InsertedElement}
    (h : outcomes attempt = .ownershipSwitchFailure failedElements) :
    retry outcomes (fuel + 1) attempt list =
      (retry outcomes fuel (attempt + 1) (list.filter (· ∈ failedElements))).map
        fun r => (list :: r.1, r.2) := by
  rw [retry, h]
  exact if_pos (by decide)

theorem retry_ended (h : (outcomes attempt).isOwnershipSwitchFailure = false) :
    retry outcomes (fuel + 1) attempt list =
      some ([list], decide (outcomes attempt = .otherException)) := by
  rw [retry]
  cases houtcome : outcomes attempt with
  | queued | noSuchObject | exception | otherException => rfl
  | ownershipSwitchFailure failedElements =>
    rw [houtcome] at h
    cases h

theorem retry_of_endsAt (list : List InsertedElement)
    (h : EndsAt (fun k => outcomes (attempt + k)) n) (hfuel : n < fuel) :
    ∃ attempts, retry outcomes fuel attempt list =
        some (list :: attempts, decide (outcomes (attempt + n) = .otherException)) ∧
      attempts.length = n ∧ OnlyFailed outcomes attempt (list :: attempts) := by
  induction fuel generalizing attempt list n with
  | zero => exact absurd hfuel (Nat.not_lt_zero n)
  | succ fuel ih =>
    cases n with
    | zero => exact ⟨[], retry_ended (endsAt_zero.mp h), rfl, trivial⟩
    | succ n =>
      obtain ⟨hfirst, hrest⟩ := endsAt_succ.mp h
      cases houtcome : outcomes attempt with
      | queued | noSuchObject | exception | otherException =>
        simp only [Nat.add_zero, houtcome] at hfirst
        cases hfirst
      | ownershipSwitchFailure failedElements =>
        have hshift : EndsAt (fun k => outcomes (attempt + 1 + k)) n := by
          simpa only [Nat.add_assoc, Nat.add_comm 1] using hrest
        obtain ⟨attempts, hretry, hlength, honly⟩ :=
          ih (list.filter (· ∈ failedElements)) hshift (Nat.lt_of_succ_lt_succ hfuel)
        refine ⟨list.filter (· ∈ failedElements) :: attempts, ?_, ?_, ?_, honly⟩
        · rw [retry_failed houtcome, hretry, Option.map_some, Nat.add_assoc, Nat.add_comm 1]
        · rw [List.length_cons, hlength]
        · refine ⟨failedElements, houtcome, fun e he => ?_⟩
          obtain ⟨hlist, hfailed⟩ := List.mem_filter.mp he
          exact ⟨hlist, of_decide_eq_true hfailed⟩

theorem endsAt_of_retry {r : List (List InsertedElement) × Bool}
    (h : retry outcomes fuel attempt list = some r) :
    ∃ n < fuel, EndsAt (fun k => outcomes (attempt + k)) n := by
  induction fuel generalizing attempt list r with
  | zero => cases h
  | succ fuel ih =>
    cases houtcome : (outcomes attempt).isOwnershipSwitchFailure with
    | false => exact ⟨0, fuel.succ_pos, endsAt_zero.mpr houtcome⟩
    | true =>
      cases hfailure : outcomes attempt with
      | queued | noSuchObject | exception | otherException =>
        rw [hfailure] at houtcome
        cases houtcome
      | ownershipSwitchFailure failedElements =>
        rw [retry_failed hfailure] at h
        obtain ⟨r', hr', -⟩ := Option.map_eq_some_iff.mp h
        obtain ⟨n, hn, hends⟩ := ih hr'
        refine ⟨n + 1, Nat.succ_lt_succ hn, endsAt_succ.mpr ⟨houtcome, ?_⟩⟩
        simpa only [Nat.add_assoc, Nat.add_comm 1] using hends

end

section
variable {outcomes : String → Nat → Outcome} {fuel : Nat}
  {lists : List (String × List InsertedElement)}
  {queued : List (String × List (List InsertedElement))}

theorem queueLists_cons (lists : List (String × List InsertedElement)) {address : String}
    (list : List InsertedElement) {n : Nat} (h : EndsAt (outcomes address) n) (hfuel : n < fuel) :
    ∃ attempts, attempts.length = n + 1 ∧ OnlyFailed (outcomes address) 0 attempts ∧
      queueLists outcomes fuel ((address, list) :: lists) =
        if outcomes address n = .otherException then some [(address, attempts)]
        else (queueLists outcomes fuel lists).map ((address, attempts) :: ·) := by
  have hshift : EndsAt (fun k => outcomes address (0 + k)) n := by simpa only [Nat.zero_add] using h
  obtain ⟨attempts, hretry, hlength, honly⟩ := retry_of_endsAt list hshift hfuel
  refine ⟨list :: attempts, by rw [List.length_cons, hlength], honly, ?_⟩
  rw [queueLists, hretry, Nat.zero_add]
  by_cases hthrown : outcomes address n = .otherException
  · rw [decide_eq_true hthrown, if_pos hthrown]
  · rw [decide_eq_false hthrown, if_neg hthrown]

theorem endsWithinRetries_of_queueLists (h : queueLists outcomes fuel lists = some queued)
    (hbound : ∀ q ∈ queued, q.2.length ≤ maxRetries + 1) : EndsWithinRetries outcomes lists := by
  induction lists generalizing queued with
  | nil => trivial
  | cons l lists ih =>
    obtain ⟨address, list⟩ := l
    have hends : ∃ n < fuel, EndsAt (outcomes address) n := by
      rw [queueLists] at h
      split at h
      · cases h
      all_goals
        rename_i attempts hretry
        simpa only [Nat.zero_add] using endsAt_of_retry hretry
    obtain ⟨n, hfuel, hn⟩ := hends
    obtain ⟨attempts, hlength, -, hcons⟩ :=
      queueLists_cons lists list hn hfuel
    rw [hcons] at h
    have hfirst : (address, attempts) ∈ queued ∧ (outcomes address n ≠ .otherException →
        ∃ rest, queueLists outcomes fuel lists = some rest ∧ ∀ q ∈ rest, q ∈ queued) := by
      split at h
      · rename_i hthrown
        cases h
        exact ⟨List.mem_cons_self, fun hne => absurd hthrown hne⟩
      · obtain ⟨rest, hrest, rfl⟩ := Option.map_eq_some_iff.mp h
        exact ⟨List.mem_cons_self, fun _ => ⟨rest, hrest, fun q => List.mem_cons_of_mem _⟩⟩
    have hshort := hbound _ hfirst.1
    simp only [hlength] at hshort
    refine ⟨n, Nat.le_of_succ_le_succ hshort, hn, fun hne => ?_⟩
    obtain ⟨rest, hrest, hmem⟩ := hfirst.2 hne
    exact ih hrest fun q hq => hbound q (hmem q hq)

theorem queueLists_of_endsWithinRetries (h : EndsWithinRetries outcomes lists) :
    ∃ queued, queueLists outcomes (maxRetries + 1) lists = some queued ∧
      (queued.map Prod.fst).Sublist (lists.map Prod.fst) ∧
      ∀ q ∈ queued, q.2.length ≤ maxRetries + 1 ∧ OnlyFailed (outcomes q.1) 0 q.2 := by
  induction lists with
  | nil => exact ⟨[], rfl, List.Sublist.refl _, nofun⟩
  | cons l lists ih =>
    obtain ⟨address, list⟩ := l
    obtain ⟨n, hle, hn, hrest⟩ := h
    obtain ⟨attempts, hlength, honly, hcons⟩ :=
      queueLists_cons lists list hn (Nat.lt_succ_of_le hle)
    have hfirst : attempts.length ≤ maxRetries + 1 := hlength.trans_le (Nat.succ_le_succ hle)
    rw [hcons]
    split
    · refine ⟨_, rfl, (List.nil_sublist _).cons_cons _, fun q hq => ?_⟩
      rw [List.mem_singleton.mp hq]
      exact ⟨hfirst, honly⟩
    · rename_i hne
      obtain ⟨queued, hqueued, hsublist, hall⟩ := ih (hrest hne)
      refine ⟨(address, attempts) :: queued, by rw [hqueued, Option.map_some],
        hsublist.cons_cons _, fun q hq => ?_⟩
      cases List.mem_cons.mp hq with
      | inl hsame => rw [hsame]; exact ⟨hfirst, honly⟩
      | inr hold => exact hall q hold

/-- The retries are bounded as `maxRetries` says if and only if the bound is never needed. -/
theorem boundedRetries_iff {jobs : List ArchiveJob} :
    BoundedRetries outcomes jobs ↔ EndsWithinRetries outcomes (insertedElementsLists jobs) := by
  constructor
  · intro h
    obtain ⟨fuel, queued, hqueued, -, hall⟩ := h
    exact endsWithinRetries_of_queueLists hqueued fun q hq => (hall q hq).1
  · intro h
    obtain ⟨queued, hqueued, hsublist, hall⟩ := queueLists_of_endsWithinRetries h
    have hordered : ((insertedElementsLists jobs).map Prod.fst).Pairwise (· < ·) :=
      List.pairwise_map.mpr (ordered_grouped _)
    exact ⟨maxRetries + 1, queued, hqueued,
      (hordered.sublist hsublist).imp fun hlt => hlt.ne, hall⟩

theorem queueForReportingToRepack_endless :
    let job : ArchiveJob := ⟨"request", 1, "repack", true⟩
    let outcomes : String → Nat → Outcome :=
      fun _ _ => .ownershipSwitchFailure [⟨"request", 1⟩]
    (∀ fuel, queueForReportingToRepack outcomes fuel [job] = none) ∧
      ¬ BoundedRetries outcomes [job] := by
  intro job outcomes
  have hnone : ∀ fuel, queueForReportingToRepack outcomes fuel [job] = none := by
    intro fuel
    have hlists : insertedElementsLists [job] = [("repack", [⟨"request", 1⟩])] := rfl
    have hretry : retry (outcomes "repack") fuel 0 [⟨"request", 1⟩] = none := by
      cases hr : retry (outcomes "repack") fuel 0 [⟨"request", 1⟩] with
      | none => rfl
      | some r =>
        obtain ⟨n, -, hn⟩ := endsAt_of_retry hr
        cases hn.2
    rw [queueForReportingToRepack, hlists, queueLists, hretry]
  refine ⟨hnone, fun h => ?_⟩
  obtain ⟨fuel, queued, hqueued, -⟩ := h
  rw [hnone fuel] at hqueued
  cases hqueued

end

structure TapeFile where
  vid : String
  fSeq : Nat
  copyNb : Nat
  deriving DecidableEq, Repr

inductive ReportType
  | NoReportRequired | FailureReport | Report
  deriving DecidableEq, Repr

structure RetrieveJob where
  retrieveRequest : String
  reportType : ReportType
  tapeFiles : List TapeFile
  selectedCopyNb : Nat
  fileSize : Nat
  activity : Option String
  diskSystemName : Option String
  deriving DecidableEq, Repr

inductive Fail
  | failed | noSuchObject | exception
  deriving DecidableEq, Repr

/-- How the function ends if it does not return; `invalidIterator`: it increments the iterator of an
element it has erased. -/
inductive Ending
  | exception | invalidIterator | outOfFuel
  deriving DecidableEq, Repr

structure FailedElement where
  retrieveRequest : String
  copyNb : Nat
  fSeq : Nat
  fileSize : Nat
  activity : Option String
  diskSystemName : Option String
  deriving DecidableEq, Repr

namespace RetrieveJob

def selected (j : RetrieveJob) : Option TapeFile :=
  j.tapeFiles.find? (·.copyNb == j.selectedCopyNb % 2 ^ 8)

def element (j : RetrieveJob) (tf : TapeFile) : FailedElement :=
  ⟨j.retrieveRequest, tf.copyNb, tf.fSeq, j.fileSize, j.activity, j.diskSystemName⟩

end RetrieveJob

def failedJobs : List (RetrieveJob × Fail) → Except Ending (List (String × RetrieveJob))
  | [] => .ok []
  | (j, fail) :: jobsBatch =>
    match j.reportType with
    | .FailureReport =>
      match fail with
      | .failed =>
        match j.selected with
        | none => .error .exception
        | some tf => (failedJobs jobsBatch).map ((tf.vid, j) :: ·)
      | .noSuchObject => .error .invalidIterator
      | .exception => .error .exception
    | .NoReportRequired | .Report => failedJobs jobsBatch

/-- The search for the copy on the vid of the queue. The iterator, here what it has before it, does
not advance. -/
def findTapeFile (vid : String) : Nat → List TapeFile → Except Ending TapeFile
  | 0, _ => .error .outOfFuel
  | _ + 1, [] => .error .exception
  | fuel + 1, tf :: tapeFiles =>
    if vid = tf.vid then .ok tf else findTapeFile vid fuel (tf :: tapeFiles)

def insertedElements (fuel : Nat) (vid : String) :
    List RetrieveJob → Except Ending (List FailedElement)
  | [] => .ok []
  | j :: jobs =>
    match findTapeFile vid fuel j.tapeFiles with
    | .error ending => .error ending
    | .ok tf => (insertedElements fuel vid jobs).map (j.element tf :: ·)

/-- The calls of `referenceAndSwitchOwnership`, whose CTA exceptions are caught; `throws`: it throws
another one for this vid. -/
def queueFailed (throws : String → Bool) (fuel : Nat) :
    List (String × List RetrieveJob) → Except Ending (List (String × List FailedElement))
  | [] => .ok []
  | (vid, jobs) :: failedQueues =>
    match insertedElements fuel vid jobs with
    | .error ending => .error ending
    | .ok elements =>
      if throws vid then .error .exception
      else (queueFailed throws fuel failedQueues).map ((vid, elements) :: ·)

def setRetrieveJobBatchReportedToUser (throws : String → Bool) (fuel : Nat)
    (jobsBatch : List (RetrieveJob × Fail)) : Except Ending (List (String × List FailedElement)) :=
  match failedJobs jobsBatch with
  | .error ending => .error ending
  | .ok jobs => queueFailed throws fuel (grouped jobs)

/-- The failed jobs as they should be queued, with the vid, number and fSeq of the selected copy. -/
def selectedElements (jobsBatch : List (RetrieveJob × Fail)) : List (String × FailedElement) :=
  jobsBatch.filterMap fun j =>
    if j.1.reportType = .FailureReport then j.1.selected.map fun tf => (tf.vid, j.1.element tf)
    else none

def QueuesFailed (throws : String → Bool) (jobsBatch : List (RetrieveJob × Fail)) : Prop :=
  ∃ fuel, setRetrieveJobBatchReportedToUser throws fuel jobsBatch =
    .ok (grouped (selectedElements jobsBatch))

def FirstSelected (throws : String → Bool) (jobsBatch : List (RetrieveJob × Fail)) : Prop :=
  ∀ j ∈ jobsBatch, j.1.reportType = .FailureReport →
    j.2 = .failed ∧ ∃ tf, j.1.selected = some tf ∧ j.1.tapeFiles.head? = some tf ∧
      throws tf.vid = false

section
variable {throws : String → Bool} {fuel : Nat} {vid : String} {tf : TapeFile}
  {tapeFiles : List TapeFile} {jobs : List RetrieveJob} {jobsBatch : List (RetrieveJob × Fail)}

theorem findTapeFile_ok (h : findTapeFile vid fuel tapeFiles = .ok tf) :
    tapeFiles.head? = some tf ∧ tf.vid = vid := by
  induction fuel with
  | zero => cases h
  | succ fuel ih =>
    cases tapeFiles with
    | nil => cases h
    | cons first tapeFiles =>
      rw [findTapeFile] at h
      split at h
      · rename_i hvid
        cases h
        exact ⟨rfl, hvid.symm⟩
      · exact ih h

theorem findTapeFile_first (h : tapeFiles.head? = some tf) (hvid : tf.vid = vid) :
    findTapeFile vid 1 tapeFiles = .ok tf := by
  obtain ⟨rest, rfl⟩ := List.head?_eq_some_iff.mp h
  exact if_pos hvid.symm

def RetrieveJob.selectedElement (j : RetrieveJob) : FailedElement :=
  j.element (j.selected.getD ⟨"", 0, 0⟩)

def RetrieveJob.First (vid : String) (j : RetrieveJob) : Prop :=
  ∃ tf, j.tapeFiles.head? = some tf ∧ tf.vid = vid ∧ j.element tf = j.selectedElement

theorem first_of_insertedElements
    (h : insertedElements fuel vid jobs = .ok (jobs.map (·.selectedElement))) :
    ∀ j ∈ jobs, j.First vid := by
  induction jobs with
  | nil => exact fun _ hj => absurd hj List.not_mem_nil
  | cons j jobs ih =>
    rw [insertedElements] at h
    split at h
    · cases h
    · rename_i tf hfind
      obtain ⟨hhead, hvid⟩ := findTapeFile_ok hfind
      cases hrest : insertedElements fuel vid jobs with
      | error ending =>
        rw [hrest] at h
        cases h
      | ok elements =>
        rw [hrest, Except.map, Except.ok.injEq, List.map_cons, List.cons.injEq] at h
        rw [hrest, h.2] at ih
        exact List.forall_mem_cons.mpr ⟨⟨tf, hhead, hvid, h.1⟩, ih rfl⟩

theorem insertedElements_of_first (h : ∀ j ∈ jobs, j.First vid) :
    insertedElements 1 vid jobs = .ok (jobs.map (·.selectedElement)) := by
  induction jobs with
  | nil => rfl
  | cons j jobs ih =>
    obtain ⟨⟨tf, hhead, hvid, helement⟩, hrest⟩ := List.forall_mem_cons.mp h
    rw [insertedElements, findTapeFile_first hhead hvid]
    simp only
    rw [ih hrest, Except.map, helement, List.map_cons]

def selectedQueues (failedQueues : List (String × List RetrieveJob)) :
    List (String × List FailedElement) :=
  failedQueues.map fun g => (g.1, g.2.map (·.selectedElement))

theorem queueFailed_iff {failedQueues : List (String × List RetrieveJob)} :
    (∃ fuel, queueFailed throws fuel failedQueues = .ok (selectedQueues failedQueues)) ↔
      ∀ g ∈ failedQueues, throws g.1 = false ∧ ∀ j ∈ g.2, j.First g.1 := by
  constructor
  · rintro ⟨fuel, h⟩
    induction failedQueues with
    | nil => exact fun _ hg => absurd hg List.not_mem_nil
    | cons g failedQueues ih =>
      rw [queueFailed] at h
      split at h
      · cases h
      · rename_i elements helements
        split at h
        · cases h
        · rename_i hthrows
          cases hrest : queueFailed throws fuel failedQueues with
          | error ending =>
            rw [hrest] at h
            cases h
          | ok calls =>
            rw [hrest, Except.map, Except.ok.injEq, selectedQueues, List.map_cons,
              List.cons.injEq, Prod.mk.injEq] at h
            rw [h.1.2] at helements
            refine List.forall_mem_cons.mpr ⟨⟨Bool.eq_false_iff.mpr hthrows,
              first_of_insertedElements helements⟩, ih ?_⟩
            rw [hrest, h.2, selectedQueues]
  · intro h
    refine ⟨1, ?_⟩
    induction failedQueues with
    | nil => rfl
    | cons g failedQueues ih =>
      obtain ⟨⟨hthrows, hfirst⟩, hrest⟩ := List.forall_mem_cons.mp h
      rw [queueFailed, insertedElements_of_first hfirst]
      simp only
      rw [hthrows, if_neg Bool.false_ne_true, ih hrest, Except.map, selectedQueues,
        selectedQueues, List.map_cons]

theorem failedJobs_ok {failed : List (String × RetrieveJob)}
    (h : failedJobs jobsBatch = .ok failed) :
    selectedElements jobsBatch = failed.map (fun e => (e.1, e.2.selectedElement)) ∧
      (∀ j ∈ jobsBatch, j.1.reportType = .FailureReport →
        j.2 = .failed ∧ ∃ tf, j.1.selected = some tf ∧ (tf.vid, j.1) ∈ failed) ∧
      ∀ e ∈ failed, ∃ j ∈ jobsBatch, j.1 = e.2 ∧ j.1.reportType = .FailureReport ∧
        ∃ tf, e.2.selected = some tf ∧ tf.vid = e.1 := by
  induction jobsBatch generalizing failed with
  | nil =>
    cases h
    exact ⟨rfl, nofun, nofun⟩
  | cons j jobsBatch ih =>
    obtain ⟨j, fail⟩ := j
    unfold failedJobs at h
    cases htype : j.reportType with
    | FailureReport =>
      simp only [htype] at h
      cases fail with
      | noSuchObject | exception => cases h
      | failed =>
        cases hselected : j.selected with
        | none =>
          simp only [hselected] at h
          cases h
        | some tf =>
          cases hrest : failedJobs jobsBatch with
          | error ending =>
            simp only [hselected, hrest] at h
            cases h
          | ok rest =>
            simp only [hselected, hrest] at h
            cases h
            obtain ⟨helements, hall, hback⟩ := ih hrest
            refine ⟨?_, List.forall_mem_cons.mpr ⟨fun _ => ⟨rfl, tf, hselected,
              List.mem_cons_self⟩, fun j' hj' htype' => ?_⟩, List.forall_mem_cons.mpr
              ⟨⟨(j, .failed), List.mem_cons_self, rfl, htype, tf, hselected, rfl⟩,
                fun e he => ?_⟩⟩
            · rw [selectedElements] at helements ⊢
              rw [List.filterMap_cons, if_pos htype, hselected, helements]
              simp only [Option.map_some, List.map_cons, RetrieveJob.selectedElement, hselected,
                Option.getD_some]
            · obtain ⟨hfail, tf', htf', hmem⟩ := hall j' hj' htype'
              exact ⟨hfail, tf', htf', List.mem_cons_of_mem _ hmem⟩
            · obtain ⟨j', hj', hrest'⟩ := hback e he
              exact ⟨j', List.mem_cons_of_mem _ hj', hrest'⟩
    | NoReportRequired | Report =>
      simp only [htype] at h
      obtain ⟨helements, hall, hback⟩ := ih h
      have hother : j.reportType ≠ .FailureReport := by
        rw [htype]
        nofun
      refine ⟨?_, List.forall_mem_cons.mpr ⟨fun htype' => absurd htype' hother, hall⟩,
        fun e he => ?_⟩
      · rw [selectedElements] at helements ⊢
        rw [List.filterMap_cons, if_neg hother, helements]
      · obtain ⟨j', hj', hrest'⟩ := hback e he
        exact ⟨j', List.mem_cons_of_mem _ hj', hrest'⟩

theorem failedJobs_of_selected (h : ∀ j ∈ jobsBatch, j.1.reportType = .FailureReport →
    j.2 = .failed ∧ ∃ tf, j.1.selected = some tf) :
    ∃ failed, failedJobs jobsBatch = .ok failed := by
  induction jobsBatch with
  | nil => exact ⟨[], rfl⟩
  | cons j jobsBatch ih =>
    obtain ⟨hfirst, hrest⟩ := List.forall_mem_cons.mp h
    obtain ⟨failed, hfailed⟩ := ih hrest
    obtain ⟨j, fail⟩ := j
    unfold failedJobs
    cases htype : j.reportType with
    | FailureReport =>
      obtain ⟨hfail, tf, htf⟩ := hfirst htype
      simp only at hfail htf
      simp only [hfail, htf, hfailed]
      exact ⟨_, rfl⟩
    | NoReportRequired | Report => exact ⟨failed, hfailed⟩

/-- The failed jobs of a batch are queued for their selected copies if and only if these are the
first copies. -/
theorem queuesFailed_iff : QueuesFailed throws jobsBatch ↔ FirstSelected throws jobsBatch := by
  constructor
  · rintro ⟨fuel, h⟩ j hj htype
    rw [setRetrieveJobBatchReportedToUser] at h
    split at h
    · cases h
    · rename_i failed hfailed
      obtain ⟨helements, hall, -⟩ := failedJobs_ok hfailed
      rw [helements, grouped_map] at h
      obtain ⟨hfail, tf, hselected, hmem⟩ := hall j hj htype
      obtain ⟨queue, hqueue, hjob⟩ := mem_entries.mp ((entries_grouped failed).mem_iff.mpr hmem)
      obtain ⟨hthrows, hfirst⟩ := queueFailed_iff.mp ⟨fuel, h⟩ _ hqueue
      obtain ⟨first, hhead, hvid, helement⟩ := hfirst j.1 hjob
      have hsame : first = tf := by
        rw [RetrieveJob.selectedElement, hselected, Option.getD_some] at helement
        simp only [RetrieveJob.element, FailedElement.mk.injEq] at helement
        cases first
        cases tf
        simp_all
      exact ⟨hfail, tf, hselected, hsame ▸ hhead, hthrows⟩
  · intro h
    obtain ⟨failed, hfailed⟩ := failedJobs_of_selected fun j hj htype => by
      obtain ⟨hfail, tf, hselected, -⟩ := h j hj htype
      exact ⟨hfail, tf, hselected⟩
    obtain ⟨helements, -, hback⟩ := failedJobs_ok hfailed
    have hjob : ∀ e ∈ failed, throws e.1 = false ∧ e.2.First e.1 := by
      intro e he
      obtain ⟨j, hj, hsame, htype, tf, hselected, hvid⟩ := hback e he
      obtain ⟨-, tf', hselected', hhead, hthrows⟩ := h j hj htype
      rw [hsame] at hselected' hhead
      cases hselected.symm.trans hselected'
      rw [hvid] at hthrows
      refine ⟨hthrows, tf, hhead, hvid, ?_⟩
      rw [RetrieveJob.selectedElement, hselected, Option.getD_some]
    have hfirst : ∀ g ∈ grouped failed, throws g.1 = false ∧ ∀ j ∈ g.2, j.First g.1 := by
      intro g hg
      have hmem (j : RetrieveJob) (hj : j ∈ g.2) : (g.1, j) ∈ failed :=
        (entries_grouped failed).mem_iff.mp (mem_entries.mpr ⟨g.2, hg, hj⟩)
      obtain ⟨j, hj⟩ := List.exists_mem_of_ne_nil _ (grouped_ne_nil failed g hg)
      exact ⟨(hjob _ (hmem j hj)).1, fun j hj => (hjob _ (hmem j hj)).2⟩
    obtain ⟨fuel, hqueue⟩ := queueFailed_iff.mpr hfirst
    refine ⟨fuel, ?_⟩
    rw [setRetrieveJobBatchReportedToUser, hfailed, helements, grouped_map]
    exact hqueue

theorem setRetrieveJobBatchReportedToUser_endless :
    let job : RetrieveJob :=
      ⟨"request", .FailureReport, [⟨"V1", 1, 1⟩, ⟨"V2", 5, 2⟩], 2, 1000, none, none⟩
    (∀ fuel, setRetrieveJobBatchReportedToUser (fun _ => false) fuel [(job, .failed)] =
      .error .outOfFuel) ∧ ¬ QueuesFailed (fun _ => false) [(job, .failed)] := by
  intro job
  have hendless : ∀ fuel, setRetrieveJobBatchReportedToUser (fun _ => false) fuel
      [(job, .failed)] = .error .outOfFuel := by
    intro fuel
    have hsearch : findTapeFile "V2" fuel job.tapeFiles = .error .outOfFuel := by
      induction fuel with
      | zero => rfl
      | succ fuel ih => exact ih
    have hjobs : failedJobs [(job, .failed)] = .ok [("V2", job)] := rfl
    have hgrouped : grouped [("V2", job)] = [("V2", [job])] := rfl
    rw [setRetrieveJobBatchReportedToUser, hjobs]
    simp only
    rw [hgrouped, queueFailed, insertedElements, hsearch]
  refine ⟨hendless, fun h => ?_⟩
  obtain ⟨fuel, h⟩ := h
  rw [hendless fuel] at h
  cases h

end

end Cta.Scheduler.ReportQueueing
