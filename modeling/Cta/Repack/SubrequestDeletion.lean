import Cta.Repack.ReportBatch
import Cta.Repack.Status

/-! Archive requests that a batch of archive reports deletes, and those it records as deleted. -/
namespace Cta.Repack
open Cta.ObjectStore (Address ArchiveJobStatus)

variable {archiveFileSize : Address → Option Nat} {r q : RepackRequest}

structure ArchiveBatch where
  subrequestList : List ArchiveSubrequestInfo
  distinct : (subrequestList.map fun s => (s.fSeq, s.archivedCopyNb)).Nodup

inductive ArchiveOutcome where
  | success
  | failure
  deriving DecidableEq, Repr

def ArchiveOutcome.kind : ArchiveOutcome → ReportKind
  | .success => .archiveSuccesses
  | .failure => .archiveFailures

/-- Some sibling is not finished, nor about to be finished by this batch. -/
def moreJobsToDo (jobOwnerUpdatersList : List ArchiveSubrequestInfo)
    (sri : ArchiveSubrequestInfo) : Prop :=
  ∃ j ∈ sri.archiveJobsStatusMap, j.1 ≠ sri.archivedCopyNb ∧ Unfinished j.2 ∧
    ¬ ∃ jou ∈ jobOwnerUpdatersList,
      jou.archiveFileID = sri.archiveFileID ∧ jou.archivedCopyNb = j.1

instance (jobOwnerUpdatersList : List ArchiveSubrequestInfo) (sri : ArchiveSubrequestInfo) :
    Decidable (moreJobsToDo jobOwnerUpdatersList sri) := List.decidableBEx _ _

/-- Files whose archive request is deleted. The requests exist and the updates of the object
store succeed. -/
def deletedFiles (jobOwnerUpdatersList : List ArchiveSubrequestInfo) :
    List ArchiveSubrequestInfo → List Nat
  | [] => []
  | sri :: sris =>
    if moreJobsToDo jobOwnerUpdatersList sri then
      deletedFiles (jobOwnerUpdatersList ++ [sri]) sris
    else sri.archiveFileID :: deletedFiles jobOwnerUpdatersList sris

/-- Some job of the file has all its unfinished siblings reported before it. -/
def Closes (before sris : List ArchiveSubrequestInfo) (archiveFileID : Nat) : Prop :=
  ∃ sris₁ sri sris₂, sris = sris₁ ++ sri :: sris₂ ∧ sri.archiveFileID = archiveFileID ∧
    ∀ j ∈ sri.archiveJobsStatusMap, j.1 ≠ sri.archivedCopyNb → Unfinished j.2 →
      ∃ u ∈ before ++ sris₁, u.archiveFileID = archiveFileID ∧ u.archivedCopyNb = j.1

theorem closes_nil (before : List ArchiveSubrequestInfo) (f : Nat) : ¬ Closes before [] f := by
  rintro ⟨sris₁, sri, sris₂, h, -⟩
  simp at h

theorem closes_cons (before : List ArchiveSubrequestInfo) (sri : ArchiveSubrequestInfo)
    (sris : List ArchiveSubrequestInfo) (f : Nat) :
    Closes before (sri :: sris) f ↔
      sri.archiveFileID = f ∧ ¬ moreJobsToDo before sri ∨ Closes (before ++ [sri]) sris f := by
  constructor
  · rintro ⟨sris₁, t, sris₂, h, hf, hall⟩
    cases sris₁ with
    | nil =>
      simp only [List.nil_append, List.cons.injEq] at h
      obtain ⟨rfl, rfl⟩ := h
      refine .inl ⟨hf, fun ⟨j, hj, hne, hun, hnot⟩ => hnot ?_⟩
      obtain ⟨u, hu, huf, huc⟩ := hall j hj hne hun
      exact ⟨u, by simpa using hu, huf.trans hf.symm, huc⟩
    | cons s sris₁ =>
      simp only [List.cons_append, List.cons.injEq] at h
      obtain ⟨rfl, rfl⟩ := h
      exact .inr ⟨sris₁, t, sris₂, rfl, hf, by simpa using hall⟩
  · intro h
    cases h with
    | inl h =>
      refine ⟨[], sri, sris, rfl, h.1, fun j hj hne hun => ?_⟩
      by_contra hnot
      refine h.2 ⟨j, hj, hne, hun, fun ⟨u, hu, huf, huc⟩ => hnot ?_⟩
      exact ⟨u, by simpa using hu, huf.trans h.1, huc⟩
    | inr h =>
      obtain ⟨sris₁, t, sris₂, rfl, hf, hall⟩ := h
      exact ⟨sri :: sris₁, t, sris₂, rfl, hf, by simpa using hall⟩

theorem closes_other {before : List ArchiveSubrequestInfo} {sri : ArchiveSubrequestInfo}
    {sris : List ArchiveSubrequestInfo} {f : Nat} (hne : sri.archiveFileID ≠ f) :
    Closes (before ++ [sri]) sris f ↔ Closes before sris f := by
  unfold Closes
  have hmem : ∀ sris₁ c, (∃ u ∈ before ++ [sri] ++ sris₁,
      u.archiveFileID = f ∧ u.archivedCopyNb = c) ↔
      ∃ u ∈ before ++ sris₁, u.archiveFileID = f ∧ u.archivedCopyNb = c := by
    intro sris₁ c
    constructor
    · rintro ⟨u, hu, huf, huc⟩
      refine ⟨u, ?_, huf, huc⟩
      have husri : u ≠ sri := fun he => hne (he ▸ huf)
      simpa [husri] using hu
    · rintro ⟨u, hu, huf, huc⟩
      refine ⟨u, ?_, huf, huc⟩
      simp only [List.mem_append, List.mem_singleton] at hu ⊢
      exact hu.imp_left .inl
  simp only [hmem]

theorem mem_deletedFiles_iff (updaters sris : List ArchiveSubrequestInfo) (f : Nat) :
    f ∈ deletedFiles updaters sris ↔ Closes updaters sris f := by
  induction sris generalizing updaters with
  | nil => simp [deletedFiles, closes_nil]
  | cons sri sris ih =>
    rw [closes_cons]
    unfold deletedFiles
    split
    · next hmore =>
      rw [ih]
      simp [hmore]
    · next hmore =>
      by_cases hf : sri.archiveFileID = f
      · simp [hf, hmore]
      · rw [closes_other hf, List.mem_cons, ih]
        simp [hf, Ne.symm hf]

def ArchiveOutcome.mark (o : ArchiveOutcome) (s : SubrequestStatistics) : Bool :=
  match o with
  | .success => s.subrequestDeleted
  | .failure => true

theorem accountReport_other {x : Report} {f : Nat} (h : accountReport archiveFileSize r x = .ok q)
    (hf : f ≠ x.statistics.fSeq) : q.subrequests f = r.subrequests f := by
  unfold accountReport at h
  cases hp : r.subrequests x.statistics.fSeq with
  | none => simp [hp] at h
  | some p =>
    simp only [hp] at h
    cases ha : accountOf archiveFileSize x.kind r p x.statistics with
    | error e => simp [ha] at h
    | ok o =>
      cases o with
      | none =>
        simp only [ha, Except.ok.injEq] at h
        rw [h]
      | some rp =>
        simp only [ha, Except.ok.injEq] at h
        have htable : rp.1.subrequests = r.subrequests := by
          obtain ⟨kind, s⟩ := x
          cases kind with
          | retrieveSuccesses =>
            simp only [accountOf, accountRetrieveSuccess] at ha
            split_ifs at ha <;> cases ha <;> rfl
          | retrieveFailures =>
            simp only [accountOf, accountRetrieveFailure] at ha
            split_ifs at ha
            · cases ha
            · cases ha
              rfl
          | archiveSuccesses =>
            simp only [accountOf, accountArchiveSuccess] at ha
            split_ifs at ha
            · cases ha
            · cases hsize : archiveFileSize p.address with
              | none => simp [hsize] at ha
              | some fileSize =>
                simp only [hsize] at ha
                cases ha
                rfl
          | archiveFailures =>
            simp only [accountOf, accountArchiveFailure] at ha
            split_ifs at ha
            · cases ha
            · cases ha
              rfl
        rw [← h]
        simp [RepackRequest.setPointer, hf, htable]

theorem accountReport_mark {o : ArchiveOutcome} {s : SubrequestStatistics}
    (h : accountReport archiveFileSize r ⟨o.kind, s⟩ = .ok q)
    (hnew : ¬ r.Accounted (.archive s.fSeq s.copyNb)) :
    ∃ p, q.subrequests s.fSeq = some p ∧ p.subrequestDeleted = o.mark s := by
  unfold accountReport at h
  cases hp : r.subrequests s.fSeq with
  | none => simp [hp] at h
  | some p =>
    have hiff := accounted_iff (k := .archive s.fSeq s.copyNb) hp
    have hnot : s.copyNb ∉ p.archiveCopyNbsAccounted := fun hc => hnew (hiff.mpr hc)
    simp only [hp] at h
    cases o with
    | success =>
      cases hsize : archiveFileSize p.address with
      | none => simp [ArchiveOutcome.kind, accountOf, accountArchiveSuccess, hnot, hsize] at h
      | some fileSize =>
        simp only [ArchiveOutcome.kind, accountOf, accountArchiveSuccess, hnot, hsize, if_false,
          Except.ok.injEq] at h
        rw [← h]
        exact ⟨_, Function.update_self _ _ _, rfl⟩
    | failure =>
      simp only [ArchiveOutcome.kind, accountOf, accountArchiveFailure, hnot, if_false,
        Except.ok.injEq] at h
      rw [← h]
      exact ⟨_, Function.update_self _ _ _, rfl⟩

theorem accountReports_entry_kept {o : ArchiveOutcome} {ss : List SubrequestStatistics} {f : Nat}
    (h : accountReports archiveFileSize r (ss.map (⟨o.kind, ·⟩)) = .ok q)
    (hold : ∀ s ∈ ss, s.fSeq = f → r.Accounted (.archive s.fSeq s.copyNb)) :
    q.subrequests f = r.subrequests f := by
  induction ss generalizing r with
  | nil =>
    cases h
    rfl
  | cons s ss ih =>
    cases h1 : accountReport archiveFileSize r ⟨o.kind, s⟩ with
    | error e => simp [accountReports, h1, Except.bind] at h
    | ok r1 =>
      simp only [List.map_cons, accountReports, h1, Except.bind] at h
      have hkey : (Report.mk o.kind s).key = .archive s.fSeq s.copyNb := by cases o <;> rfl
      cases accountReport_cases h1 with
      | inl hsame =>
        rw [hsame.2] at h
        exact ih h fun t ht => hold t (List.mem_cons_of_mem s ht)
      | inr hcounts =>
        have hf : s.fSeq ≠ f := fun hf =>
          hcounts.fresh (hkey ▸ hold s List.mem_cons_self hf)
        rw [ih h fun t ht htf => (hcounts.accounted _).mpr
          (.inl (hold t (List.mem_cons_of_mem s ht) htf))]
        exact accountReport_other h1 hf.symm

theorem accountReports_entry_set {o : ArchiveOutcome} {s : SubrequestStatistics}
    {ss₁ ss₂ : List SubrequestStatistics}
    (h : accountReports archiveFileSize r ((ss₁ ++ s :: ss₂).map (⟨o.kind, ·⟩)) = .ok q)
    (hnew : ¬ r.Accounted (.archive s.fSeq s.copyNb))
    (honce : ∀ t ∈ ss₁, (t.fSeq, t.copyNb) ≠ (s.fSeq, s.copyNb))
    (hold : ∀ t ∈ ss₂, t.fSeq = s.fSeq → r.Accounted (.archive t.fSeq t.copyNb)) :
    ∃ p, q.subrequests s.fSeq = some p ∧ p.subrequestDeleted = o.mark s := by
  rw [List.map_append, accountReports_append] at h
  cases h1 : accountReports archiveFileSize r (ss₁.map (⟨o.kind, ·⟩)) with
  | error e => simp [h1, Except.bind] at h
  | ok r1 =>
    simp only [h1, Except.bind, List.map_cons, accountReports] at h
    cases h2 : accountReport archiveFileSize r1 ⟨o.kind, s⟩ with
    | error e => simp [h2] at h
    | ok r2 =>
      simp only [h2] at h
      have hkeys : ∀ t : SubrequestStatistics,
          (Report.mk o.kind t).key = .archive t.fSeq t.copyNb := by
        intro t
        cases o <;> rfl
      have hnew1 : ¬ r1.Accounted (.archive s.fSeq s.copyNb) := by
        rw [accountReports_accounted h1]
        rintro (hs | hs)
        · exact hnew hs
        · simp only [List.map_map, List.mem_map, Function.comp_apply, hkeys,
            ReportKey.archive.injEq] at hs
          obtain ⟨t, ht, hf, hc⟩ := hs
          exact honce t ht (Prod.ext hf hc)
      obtain ⟨p, hp, hmark⟩ := accountReport_mark h2 hnew1
      refine ⟨p, ?_, hmark⟩
      rw [← hp]
      refine accountReports_entry_kept h fun t ht htf => ?_
      have hmono : r1.Accounted (.archive t.fSeq t.copyNb) :=
        (accountReports_accounted h1 _).mpr (.inl (hold t ht htf))
      cases accountReport_cases h2 with
      | inl hsame => rwa [hsame.2]
      | inr hcounts => exact (hcounts.accounted _).mpr (.inl hmono)

def RecordedDeleted (r : RepackRequest) (fSeq : Nat) : Prop :=
  ∃ p, r.subrequests fSeq = some p ∧ p.subrequestDeleted = true

def lastNew (r : RepackRequest) (fSeq : Nat) :
    List ArchiveSubrequestInfo → Option ArchiveSubrequestInfo
  | [] => none
  | s :: sris =>
    match lastNew r fSeq sris with
    | some t => some t
    | none =>
      if s.fSeq = fSeq ∧ ¬ r.Accounted (.archive s.fSeq s.archivedCopyNb) then some s else none

theorem lastNew_eq_none {fSeq : Nat} {sris : List ArchiveSubrequestInfo}
    (h : lastNew r fSeq sris = none) :
    ∀ t ∈ sris, t.fSeq = fSeq → r.Accounted (.archive t.fSeq t.archivedCopyNb) := by
  induction sris with
  | nil => simp
  | cons s sris ih =>
    unfold lastNew at h
    cases hrest : lastNew r fSeq sris with
    | some t => simp [hrest] at h
    | none =>
      simp only [hrest] at h
      split_ifs at h with hs
      intro t ht htf
      cases List.mem_cons.mp ht with
      | inl he =>
        subst he
        by_contra hnew
        exact hs ⟨htf, hnew⟩
      | inr ht => exact ih hrest t ht htf

theorem lastNew_eq_some {fSeq : Nat} {sris : List ArchiveSubrequestInfo}
    {t : ArchiveSubrequestInfo} (h : lastNew r fSeq sris = some t) :
    t.fSeq = fSeq ∧ ¬ r.Accounted (.archive t.fSeq t.archivedCopyNb) ∧
      ∃ sris₁ sris₂, sris = sris₁ ++ t :: sris₂ ∧
        ∀ u ∈ sris₂, u.fSeq = fSeq → r.Accounted (.archive u.fSeq u.archivedCopyNb) := by
  induction sris with
  | nil => simp [lastNew] at h
  | cons s sris ih =>
    unfold lastNew at h
    cases hrest : lastNew r fSeq sris with
    | some u =>
      simp only [hrest, Option.some.injEq] at h
      subst h
      obtain ⟨hf, hnew, sris₁, sris₂, rfl, hall⟩ := ih hrest
      exact ⟨hf, hnew, s :: sris₁, sris₂, rfl, hall⟩
    | none =>
      simp only [hrest] at h
      split_ifs at h with hs
      cases h
      exact ⟨hs.1, hs.2, [], sris, rfl, lastNew_eq_none hrest⟩

def FirstSiblingFinished (sri : ArchiveSubrequestInfo) : Prop :=
  ∃ j, sri.archiveJobsStatusMap.find? (·.1 ≠ sri.archivedCopyNb) = some j ∧ ¬ Unfinished j.2

theorem siblingFinished_iff (sri : ArchiveSubrequestInfo) :
    siblingFinished sri.archivedCopyNb sri.archiveJobsStatusMap = true ↔
      FirstSiblingFinished sri := by
  unfold FirstSiblingFinished
  induction sri.archiveJobsStatusMap with
  | nil => simp [siblingFinished]
  | cons j js ih =>
    unfold siblingFinished
    by_cases hj : j.1 = sri.archivedCopyNb
    · simpa [hj] using ih
    · by_cases hun : Unfinished j.2
      · simp [hj, hun]
      · simp [hj, hun]

def Records (o : ArchiveOutcome) (r : RepackRequest) (sris : List ArchiveSubrequestInfo)
    (s : ArchiveSubrequestInfo) : Prop :=
  match lastNew r s.fSeq sris, o with
  | none, _ => RecordedDeleted r s.fSeq
  | some t, .success => FirstSiblingFinished t
  | some _, .failure => True

theorem report_entry {k : ReportKind} {ss : List SubrequestStatistics}
    (h : report archiveFileSize k r ss = .ok q) :
    ∃ q', accountReports archiveFileSize r (ss.map (⟨k, ·⟩)) = .ok q' ∧
      q.subrequests = q'.subrequests := by
  obtain ⟨q', hq', status, rfl⟩ := report_sameBooks h
  exact ⟨q', hq', rfl⟩

theorem recordedDeleted_iff {o : ArchiveOutcome} {b : ArchiveBatch}
    (h : report archiveFileSize o.kind r (prepareReport b.subrequestList) = .ok q)
    (s : ArchiveSubrequestInfo) :
    RecordedDeleted q s.fSeq ↔ Records o r b.subrequestList s := by
  obtain ⟨q', hq', htable⟩ := report_entry h
  unfold RecordedDeleted
  rw [htable]
  unfold Records
  cases hlast : lastNew r s.fSeq b.subrequestList with
  | none =>
    have hkept : q'.subrequests s.fSeq = r.subrequests s.fSeq := by
      refine accountReports_entry_kept hq' fun st hst hf => ?_
      obtain ⟨t, ht, rfl⟩ := List.mem_map.mp hst
      exact lastNew_eq_none hlast t ht hf
    rw [hkept]
    rfl
  | some t =>
    obtain ⟨hf, hnew, sris₁, sris₂, hsplit, hall⟩ := lastNew_eq_some hlast
    have hdistinct := b.distinct
    rw [hsplit, prepareReport, List.map_append, List.map_cons] at hq'
    rw [hsplit, List.map_append, List.map_cons] at hdistinct
    have hset := accountReports_entry_set hq' hnew (fun st hst => ?_) fun st hst hstf => ?_
    · obtain ⟨p, hp, hmark⟩ := hset
      simp only at hp
      rw [hf] at hp
      simp only [hp, Option.some.injEq, exists_eq_left', hmark]
      cases o with
      | success => exact siblingFinished_iff t
      | failure => simp [ArchiveOutcome.mark]
    · obtain ⟨u, hu, rfl⟩ := List.mem_map.mp hst
      have hapart := (List.nodup_append.mp hdistinct).2.2
      exact hapart _ (List.mem_map_of_mem hu) _ List.mem_cons_self
    · obtain ⟨u, hu, rfl⟩ := List.mem_map.mp hst
      exact hall u hu (hstf.trans hf)

/-- The flag of the file of a job ends up right. If no job of the file is new, it has to be right
already; a failure needs the request to be done with; of a success the first sibling has to tell
whether it is. -/
def FlagFits (o : ArchiveOutcome) (r : RepackRequest) (sris : List ArchiveSubrequestInfo)
    (s : ArchiveSubrequestInfo) : Prop :=
  match lastNew r s.fSeq sris, o with
  | none, _ => RecordedDeleted r s.fSeq ↔ Closes [] sris s.archiveFileID
  | some t, .success => FirstSiblingFinished t ↔ Closes [] sris s.archiveFileID
  | some _, .failure => Closes [] sris s.archiveFileID

/-- A batch records as deleted exactly what it deletes, if and only if the flag fits for each of
its files. -/
theorem recorded_iff_deleted_iff {o : ArchiveOutcome} {b : ArchiveBatch}
    (h : report archiveFileSize o.kind r (prepareReport b.subrequestList) = .ok q) :
    (∀ s ∈ b.subrequestList,
      (RecordedDeleted q s.fSeq ↔ s.archiveFileID ∈ deletedFiles [] b.subrequestList)) ↔
      ∀ s ∈ b.subrequestList, FlagFits o r b.subrequestList s := by
  refine forall₂_congr fun s hs => ?_
  rw [recordedDeleted_iff h, mem_deletedFiles_iff]
  unfold Records FlagFits
  cases lastNew r s.fSeq b.subrequestList with
  | none => rfl
  | some t =>
    cases o with
    | success => rfl
    | failure => simp

def secondCopy : ArchiveBatch where
  subrequestList := [⟨42, 7, 10, 2, [(1, .complete), (2, .toReportToRepackForSuccess)], "V1"⟩]
  distinct := by decide

theorem recorded_iff_deleted_iff_secondCopy :
    ∃ q, report (fun _ => some 10) .archiveSuccesses oneFile
        (prepareReport secondCopy.subrequestList) = .ok q ∧
      (RecordedDeleted q 7 ↔ 42 ∈ deletedFiles [] secondCopy.subrequestList) := by
  have hfits : ∀ s ∈ secondCopy.subrequestList,
      FlagFits .success oneFile secondCopy.subrequestList s := by
    intro s hs
    rw [List.mem_singleton.mp hs]
    refine iff_of_true ⟨_, rfl, by decide⟩ ?_
    rw [← mem_deletedFiles_iff]
    decide
  have hq : ∃ q, report (fun _ => some 10) ArchiveOutcome.success.kind oneFile
      (prepareReport secondCopy.subrequestList) = .ok q := ⟨_, rfl⟩
  obtain ⟨q, hq⟩ := hq
  exact ⟨q, hq, (recorded_iff_deleted_iff hq).mpr hfits _ List.mem_cons_self⟩

def onlyCopy : ArchiveBatch where
  subrequestList := [⟨42, 7, 10, 1, [(1, .toReportToRepackForSuccess)], "V1"⟩]
  distinct := by decide

theorem onlyCopy_deletion_not_recorded :
    ∃ q, report (fun _ => some 10) .archiveSuccesses oneFile
        (prepareReport onlyCopy.subrequestList) = .ok q ∧
      42 ∈ deletedFiles [] onlyCopy.subrequestList ∧ ¬ RecordedDeleted q 7 := by
  refine ⟨_, rfl, by decide, fun ⟨p, hp, hd⟩ => ?_⟩
  cases hp
  cases hd

end Cta.Repack
