import Cta.Repack.Accounting
import Mathlib.Data.Finset.Union
import Mathlib.Data.Finset.Card
import Mathlib.Algebra.Order.BigOperators.Group.Finset

/-! The status of a repack request: what the expansion prepares and what the reports make
of it. -/
namespace Cta.Repack
open Cta.ObjectStore (Address)
open Cta.Lib.Runs

def Report.retrievedFiles (x : Report) : Nat :=
  match x.kind with
  | .retrieveSuccesses => if x.statistics.hasUserProvidedFile then 0 else x.statistics.files
  | .retrieveFailures | .archiveSuccesses | .archiveFailures => 0

def Report.archivedFiles (x : Report) : Nat :=
  match x.kind with
  | .archiveSuccesses => x.statistics.files
  | .retrieveSuccesses | .retrieveFailures | .archiveFailures => 0

/-- What reports can do to the data the status depends on. -/
structure Grows (r q : RepackRequest) : Prop where
  started : q.isExpandStarted = r.isExpandStarted
  finished : q.isExpandFinished = r.isExpandFinished
  totalRetrieve : q.totalFilesToRetrieve = r.totalFilesToRetrieve
  totalArchive : q.totalFilesToArchive = r.totalFilesToArchive
  failedToCreate : q.failedToCreateArchiveReq = r.failedToCreateArchiveReq
  retrieved : r.retrievedFiles ≤ q.retrievedFiles
  failedToRetrieve : r.failedToRetrieveFiles ≤ q.failedToRetrieveFiles
  archived : r.archivedFiles ≤ q.archivedFiles
  failedToArchive : r.failedToArchiveFiles ≤ q.failedToArchiveFiles

theorem Grows.refl (r : RepackRequest) : Grows r r :=
  ⟨rfl, rfl, rfl, rfl, rfl, le_rfl, le_rfl, le_rfl, le_rfl⟩

theorem Grows.trans {r q t : RepackRequest} (h : Grows r q) (h' : Grows q t) : Grows r t where
  started := h'.started.trans h.started
  finished := h'.finished.trans h.finished
  totalRetrieve := h'.totalRetrieve.trans h.totalRetrieve
  totalArchive := h'.totalArchive.trans h.totalArchive
  failedToCreate := h'.failedToCreate.trans h.failedToCreate
  retrieved := h.retrieved.trans h'.retrieved
  failedToRetrieve := h.failedToRetrieve.trans h'.failedToRetrieve
  archived := h.archived.trans h'.archived
  failedToArchive := h.failedToArchive.trans h'.failedToArchive

/-- One report on its own: what it does to the counters it concerns. -/
structure Moves (r : RepackRequest) (x : Report) (q : RepackRequest) : Prop extends Grows r q where
  retrieved_eq : q.retrievedFiles = r.retrievedFiles + x.retrievedFiles
  archived_eq : q.archivedFiles = r.archivedFiles + x.archivedFiles

variable {archiveFileSize : Address → Option Nat} {r q : RepackRequest} {x : Report}

theorem accountOf_moves {k : ReportKind} {s : SubrequestStatistics} {p p' : SubRequestPointer}
    (h : accountOf archiveFileSize k r p s = .ok (some (q, p'))) : Moves r ⟨k, s⟩ q := by
  cases k with
  | retrieveSuccesses =>
    simp only [accountOf, accountRetrieveSuccess] at h
    split_ifs at h with ha hu
    · cases h
    · cases h
      exact ⟨Grows.refl r, by simp [Report.retrievedFiles, hu], rfl⟩
    · cases h
      exact ⟨⟨rfl, rfl, rfl, rfl, rfl, Nat.le_add_right _ _, le_rfl, le_rfl, le_rfl⟩,
        by simp [Report.retrievedFiles, hu], rfl⟩
  | retrieveFailures =>
    simp only [accountOf, accountRetrieveFailure] at h
    split_ifs at h
    · cases h
    · cases h
      exact ⟨⟨rfl, rfl, rfl, rfl, rfl, le_rfl, Nat.le_add_right _ _, le_rfl, le_rfl⟩, rfl, rfl⟩
  | archiveSuccesses =>
    simp only [accountOf, accountArchiveSuccess] at h
    split_ifs at h
    · cases h
    · cases hsize : archiveFileSize p.address with
      | none => simp [hsize] at h
      | some fileSize =>
        simp only [hsize] at h
        cases h
        exact ⟨⟨rfl, rfl, rfl, rfl, rfl, le_rfl, le_rfl, Nat.le_add_right _ _, le_rfl⟩, rfl, rfl⟩
  | archiveFailures =>
    simp only [accountOf, accountArchiveFailure] at h
    split_ifs at h
    · cases h
    · cases h
      exact ⟨⟨rfl, rfl, rfl, rfl, rfl, le_rfl, le_rfl, le_rfl, Nat.le_add_right _ _⟩, rfl, rfl⟩

/-- A report that is new to the table moves the counters; the others do nothing. -/
theorem accountReport_moves (h : accountReport archiveFileSize r x = .ok q) :
    r.Accounted x.key ∧ q = r ∨
      ¬ r.Accounted x.key ∧ Moves r x q ∧ ∀ k, q.Accounted k ↔ r.Accounted k ∨ k = x.key := by
  cases accountReport_cases h with
  | inl hsame => exact .inl hsame
  | inr hcounts =>
    refine .inr ⟨hcounts.fresh, ?_, hcounts.accounted⟩
    unfold accountReport at h
    cases hp : r.subrequests x.statistics.fSeq with
    | none => simp [hp] at h
    | some p =>
      simp only [hp] at h
      cases ha : accountOf archiveFileSize x.kind r p x.statistics with
      | error e => simp [ha] at h
      | ok o =>
        cases o with
        | none =>
          -- unchanged, though the key is new: not possible
          simp only [ha, Except.ok.injEq] at h
          subst h
          exact absurd ((hcounts.accounted x.key).mpr (.inr rfl)) hcounts.fresh
        | some rp =>
          simp only [ha, Except.ok.injEq] at h
          have hm := accountOf_moves ha
          subst h
          exact ⟨⟨hm.started, hm.finished, hm.totalRetrieve, hm.totalArchive, hm.failedToCreate,
            hm.retrieved, hm.failedToRetrieve, hm.archived, hm.failedToArchive⟩,
            hm.retrieved_eq, hm.archived_eq⟩

theorem accountReports_grows {xs : List Report}
    (h : accountReports archiveFileSize r xs = .ok q) : Grows r q := by
  induction xs generalizing r with
  | nil =>
    cases h
    exact .refl q
  | cons x xs ih =>
    cases h1 : accountReport archiveFileSize r x with
    | error e => simp [accountReports, h1, Except.bind] at h
    | ok r1 =>
      simp only [accountReports, h1, Except.bind] at h
      have hrest : Grows r1 q := ih h
      cases accountReport_moves h1 with
      | inl hsame =>
        rw [hsame.2] at hrest
        exact hrest
      | inr hmoves => exact hmoves.2.1.toGrows.trans hrest

theorem accountAll_unchanged {account : Account} {ss : List SubrequestStatistics}
    (h : accountAll account r ss = .ok (q, false)) : q = r := by
  induction ss generalizing r with
  | nil =>
    cases h
    rfl
  | cons s ss ih =>
    unfold accountAll at h
    cases hp : r.subrequests s.fSeq with
    | none => simp [hp] at h
    | some p =>
      simp only [hp] at h
      cases ha : account r p s with
      | error e => simp [ha] at h
      | ok o =>
        cases o with
        | none =>
          simp only [ha] at h
          exact ih h
        | some rp =>
          simp only [ha] at h
          cases hrest : accountAll account (rp.1.setPointer s.fSeq rp.2) ss with
          | error e => simp [hrest, Except.map] at h
          | ok q' => simp [hrest, Except.map] at h

theorem newStatus_eq_complete_iff (hs : r.isExpandStarted) :
    r.newStatus = .complete ↔
      r.isExpandFinished ∧ r.ReachedEnd ∧ r.failedToRetrieveFiles = 0 ∧
        r.failedToArchiveFiles = 0 := by
  unfold RepackRequest.newStatus
  simp only [hs, if_true]
  split_ifs with he hf
  · simp only [false_iff]
    omega
  · simp only [true_iff]
    exact ⟨he.1, he.2, by omega, by omega⟩
  · simp only [false_iff]
    exact fun h => he ⟨h.1, h.2.1⟩
  · simp only [false_iff]
    exact fun h => he ⟨h.1, h.2.1⟩

theorem newStatus_eq_failed_iff (hs : r.isExpandStarted) :
    r.newStatus = .failed ↔
      r.isExpandFinished ∧ r.ReachedEnd ∧
        (r.failedToRetrieveFiles ≠ 0 ∨ r.failedToArchiveFiles ≠ 0) := by
  unfold RepackRequest.newStatus
  simp only [hs, if_true]
  split_ifs with he hf
  · simp only [true_iff]
    exact ⟨he.1, he.2, hf⟩
  · simp only [false_iff]
    exact fun h => hf h.2.2
  · simp only [false_iff]
    exact fun h => he ⟨h.1, h.2.1⟩
  · simp only [false_iff]
    exact fun h => he ⟨h.1, h.2.1⟩

theorem Grows.reachedEnd (h : Grows r q) (hr : r.ReachedEnd) : q.ReachedEnd := by
  have := h.totalRetrieve
  have := h.totalArchive
  have := h.failedToCreate
  have := h.retrieved
  have := h.failedToRetrieve
  have := h.archived
  have := h.failedToArchive
  unfold RepackRequest.ReachedEnd at hr ⊢
  omega

theorem Grows.newStatus_failed (h : Grows r q) (hs : r.isExpandStarted)
    (hr : r.newStatus = .failed) : q.newStatus = .failed := by
  rw [newStatus_eq_failed_iff hs] at hr
  rw [newStatus_eq_failed_iff (h.started ▸ hs)]
  have hretrieve := h.failedToRetrieve
  have harchive := h.failedToArchive
  refine ⟨h.finished ▸ hr.1, h.reachedEnd hr.2.1, ?_⟩
  cases hr.2.2 with
  | inl hne => exact .inl (by omega)
  | inr hne => exact .inr (by omega)

/-- Retrievals that are to be done: not those of the files that the user provides. -/
def toRetrieve (subs : List Subrequest) : Finset ReportKey :=
  ((subs.filter (! ·.hasUserProvidedFile)).map (ReportKey.retrieve ·.fSeq)).toFinset

def toArchive : List Subrequest → Finset ReportKey
  | [] => ∅
  | s :: subs => s.copyNbsToRearchive.image (.archive s.fSeq) ∪ toArchive subs

theorem mem_toRetrieve {subs : List Subrequest} {s : Subrequest} (hs : s ∈ subs)
    (hu : s.hasUserProvidedFile = false) : .retrieve s.fSeq ∈ toRetrieve subs := by
  simp only [toRetrieve, List.mem_toFinset]
  exact List.mem_map_of_mem (List.mem_filter.mpr ⟨hs, by simp [hu]⟩)

theorem mem_toArchive {subs : List Subrequest} {s : Subrequest} {c : Nat} (hs : s ∈ subs)
    (hc : c ∈ s.copyNbsToRearchive) : .archive s.fSeq c ∈ toArchive subs := by
  induction subs with
  | nil => cases hs
  | cons t subs ih =>
    simp only [toArchive, Finset.mem_union]
    cases List.mem_cons.mp hs with
    | inl he =>
      subst he
      exact .inl (Finset.mem_image_of_mem _ hc)
    | inr hs => exact .inr (ih hs)

theorem card_toRetrieve_append (subs new : List Subrequest) :
    (toRetrieve (subs ++ new)).card ≤
      (toRetrieve subs).card + (new.filter (! ·.hasUserProvidedFile)).length := by
  have heq : toRetrieve (subs ++ new) = toRetrieve subs ∪ toRetrieve new := by
    simp [toRetrieve, List.toFinset_append]
  have hnew : (toRetrieve new).card ≤ (new.filter (! ·.hasUserProvidedFile)).length :=
    (List.toFinset_card_le _).trans (by simp)
  rw [heq]
  exact (Finset.card_union_le _ _).trans (Nat.add_le_add_left hnew _)

theorem toArchive_append (subs new : List Subrequest) :
    toArchive (subs ++ new) = toArchive subs ∪ toArchive new := by
  induction subs with
  | nil => simp [toArchive]
  | cons s subs ih => simp [toArchive, ih, Finset.union_assoc]

theorem card_toArchive_le (subs : List Subrequest) :
    (toArchive subs).card ≤ (subs.map (·.copyNbsToRearchive.card)).sum := by
  induction subs with
  | nil => simp [toArchive]
  | cons s subs ih =>
    have himage := Finset.card_image_le (s := s.copyNbsToRearchive) (f := ReportKey.archive s.fSeq)
    have hunion := Finset.card_union_le (s.copyNbsToRearchive.image (.archive s.fSeq))
      (toArchive subs)
    simp only [toArchive, List.map_cons, List.sum_cons]
    omega

theorem card_toArchive_append (subs new : List Subrequest) :
    (toArchive (subs ++ new)).card ≤
      (toArchive subs).card + (new.map (·.copyNbsToRearchive.card)).sum := by
  rw [toArchive_append]
  exact (Finset.card_union_le _ _).trans (Nat.add_le_add_left (card_toArchive_le new) _)

instance SubRequestPointer.Accounted.decidable (p : SubRequestPointer) :
    ∀ k, Decidable (p.Accounted k)
  | .retrieve _ => inferInstanceAs (Decidable (p.retrieveAccounted = true))
  | .archive _ c => inferInstanceAs (Decidable (c ∈ p.archiveCopyNbsAccounted))

instance RepackRequest.Accounted.decidable (r : RepackRequest) (k : ReportKey) :
    Decidable (r.Accounted k) :=
  match h : r.subrequests k.fSeq with
  | none => isFalse fun ⟨_, hp, _⟩ => by simp [h] at hp
  | some p => decidable_of_iff (p.Accounted k) (accounted_iff h).symm

def RepackRequest.accountedOf (r : RepackRequest) (keys : Finset ReportKey) : Finset ReportKey :=
  keys.filter r.Accounted

def About (subs : List Subrequest) (x : Report) : Prop :=
  ∃ s ∈ subs, s.fSeq = x.statistics.fSeq ∧ x.statistics.files = 1 ∧
    match x.kind with
    | .retrieveSuccesses => x.statistics.hasUserProvidedFile = s.hasUserProvidedFile
    | .retrieveFailures => True
    | .archiveSuccesses | .archiveFailures => x.statistics.copyNb ∈ s.copyNbsToRearchive

/-- Copies of the file are accounted only after its retrieval. -/
def RetrievalFirst (r : RepackRequest) (fSeq : Nat) : Prop :=
  ∀ c, r.Accounted (.archive fSeq c) → r.Accounted (.retrieve fSeq)

/-- A file that the user provides is reported as retrieved before its copies are reported: the
archive request is only created then. -/
def AfterRetrieval (subs : List Subrequest) (r : RepackRequest) (x : Report) : Prop :=
  match x.key with
  | .retrieve _ => True
  | .archive f _ =>
    ∀ s ∈ subs, s.fSeq = f → s.hasUserProvidedFile → r.Accounted (.retrieve f)

/-- The counters of successes do not run ahead of the table. -/
structure Counted (subs : List Subrequest) (r : RepackRequest) : Prop where
  retrieved : r.retrievedFiles ≤ (r.accountedOf (toRetrieve subs)).card
  archived : r.archivedFiles ≤ (r.accountedOf (toArchive subs)).card
  retrievalFirst : ∀ s ∈ subs, s.hasUserProvidedFile → RetrievalFirst r s.fSeq

theorem card_accountedOf {keys : Finset ReportKey} {k : ReportKey} (hk : ¬ r.Accounted k)
    (hq : ∀ k', q.Accounted k' ↔ r.Accounted k' ∨ k' = k) :
    (q.accountedOf keys).card = (r.accountedOf keys).card + if k ∈ keys then 1 else 0 := by
  have heq : q.accountedOf keys = r.accountedOf keys ∪ keys.filter (· = k) := by
    ext k'
    simp only [RepackRequest.accountedOf, Finset.mem_filter, Finset.mem_union, hq, and_or_left]
  have hdisjoint : Disjoint (r.accountedOf keys) (keys.filter (· = k)) := by
    refine Finset.disjoint_filter.mpr fun k' _ ha he => ?_
    exact hk (he ▸ ha)
  rw [heq, Finset.card_union_of_disjoint hdisjoint, Finset.filter_eq']
  split <;> simp

theorem About.retrievedFiles_le {subs : List Subrequest} (h : About subs x) :
    x.retrievedFiles ≤ if x.key ∈ toRetrieve subs then 1 else 0 := by
  obtain ⟨kind, st⟩ := x
  obtain ⟨s, hs, hf, hfiles, hkind⟩ := h
  cases kind with
  | retrieveSuccesses =>
    simp only at hf hfiles hkind
    cases hu : s.hasUserProvidedFile with
    | true => simp [Report.retrievedFiles, hkind, hu]
    | false =>
      have hmem := mem_toRetrieve hs hu
      rw [hf] at hmem
      simp [Report.retrievedFiles, Report.key, hmem, hfiles, hkind, hu]
  | retrieveFailures => exact Nat.zero_le _
  | archiveSuccesses => exact Nat.zero_le _
  | archiveFailures => exact Nat.zero_le _

theorem About.archivedFiles_le {subs : List Subrequest} (h : About subs x) :
    x.archivedFiles ≤ if x.key ∈ toArchive subs then 1 else 0 := by
  obtain ⟨kind, st⟩ := x
  obtain ⟨s, hs, hf, hfiles, hkind⟩ := h
  cases kind with
  | retrieveSuccesses => exact Nat.zero_le _
  | retrieveFailures => exact Nat.zero_le _
  | archiveSuccesses =>
    simp only at hf hfiles hkind
    have hmem := mem_toArchive hs hkind
    rw [hf] at hmem
    simp [Report.archivedFiles, Report.key, hmem, hfiles]
  | archiveFailures => exact Nat.zero_le _

theorem Counted.accountReport {subs : List Subrequest} (hr : Counted subs r) (hx : About subs x)
    (hafter : AfterRetrieval subs r x) (h : Repack.accountReport archiveFileSize r x = .ok q) :
    Counted subs q := by
  cases accountReport_moves h with
  | inl hsame => exact hsame.2 ▸ hr
  | inr hmoves =>
    obtain ⟨hfresh, hm, hacc⟩ := hmoves
    have hretrieve := hx.retrievedFiles_le
    have harchive := hx.archivedFiles_le
    refine ⟨?_, ?_, fun s hs hu c hfc => ?_⟩
    · rw [hm.retrieved_eq, card_accountedOf hfresh hacc]
      exact Nat.add_le_add hr.retrieved hretrieve
    · rw [hm.archived_eq, card_accountedOf hfresh hacc]
      exact Nat.add_le_add hr.archived harchive
    · rw [hacc] at hfc ⊢
      cases hfc with
      | inl hfc => exact .inl (hr.retrievalFirst s hs hu c hfc)
      | inr hkey =>
        rw [AfterRetrieval, ← hkey] at hafter
        exact .inl (hafter s hs rfl hu)

theorem accountReport_accounted_mono {k : ReportKey} (h : accountReport archiveFileSize r x = .ok q)
    (hk : r.Accounted k) : q.Accounted k := by
  cases accountReport_moves h with
  | inl hsame => exact hsame.2 ▸ hk
  | inr hmoves => exact (hmoves.2.2 k).mpr (.inl hk)

theorem AfterRetrieval.mono {subs : List Subrequest} (h : AfterRetrieval subs r x)
    (hq : ∀ k, r.Accounted k → q.Accounted k) : AfterRetrieval subs q x := by
  unfold AfterRetrieval at h ⊢
  cases hk : x.key with
  | retrieve f => trivial
  | archive f c =>
    rw [hk] at h
    exact fun s hs hf hu => hq _ (h s hs hf hu)

theorem Counted.accountReports {subs : List Subrequest} {xs : List Report} (hr : Counted subs r)
    (hx : ∀ x ∈ xs, About subs x ∧ AfterRetrieval subs r x)
    (h : Repack.accountReports archiveFileSize r xs = .ok q) : Counted subs q := by
  induction xs generalizing r with
  | nil =>
    cases h
    exact hr
  | cons x xs ih =>
    cases h1 : Repack.accountReport archiveFileSize r x with
    | error e => simp [Repack.accountReports, h1, Except.bind] at h
    | ok r1 =>
      simp only [Repack.accountReports, h1, Except.bind] at h
      have hx1 := hx x List.mem_cons_self
      refine ih (hr.accountReport hx1.1 hx1.2 h1) (fun y hy => ?_) h
      have hy1 := hx y (List.mem_cons_of_mem x hy)
      exact ⟨hy1.1, hy1.2.mono fun k => accountReport_accounted_mono h1⟩

/-- A repack request with the sub-requests that its expansion added. -/
structure Expansion where
  request : RepackRequest := {}
  subs : List Subrequest := []

def Expansion.report (archiveFileSize : Address → Option Nat) (e : Expansion) (c : Call) :
    Expansion :=
  { e with request := e.request.call archiveFileSize c }

/-- Totals that count the new sub-requests on top of the earlier ones. -/
def TotalsCover (r : RepackRequest) (new : List Subrequest) (t : TotalStatsFiles) : Prop :=
  r.totalFilesToRetrieve + (new.filter (! ·.hasUserProvidedFile)).length ≤
      t.totalFilesToRetrieve ∧
    r.totalFilesToArchive + (new.map (·.copyNbsToRearchive.card)).sum ≤ t.totalFilesToArchive

instance (r : RepackRequest) (new : List Subrequest) (t : TotalStatsFiles) :
    Decidable (TotalsCover r new t) := inferInstanceAs (Decidable (_ ∧ _))

def Expansion.Planned (e : Expansion) (c : Call) : Prop :=
  ∀ s ∈ c.statistics, About e.subs ⟨c.kind, s⟩ ∧ AfterRetrieval e.subs e.request ⟨c.kind, s⟩

inductive Expansion.Step (archiveFileSize : Address → Option Nat) : Expansion → Expansion → Prop
  | start (e : Expansion) (hf : e.request.isExpandFinished = false) :
    Step archiveFileSize e { e with request := e.request.setExpandStartedAndChangeStatus }
  | addSubrequests (e : Expansion) (new : List Subrequest) (nextId : Nat → Address)
      (t : TotalStatsFiles) (hs : e.request.isExpandStarted)
      (hf : e.request.isExpandFinished = false) (ht : TotalsCover e.request new t)
      (hnew : ∀ s ∈ new, s.copyNbsToRearchive.Nonempty ∧
        (s.hasUserProvidedFile → RetrievalFirst e.request s.fSeq)) :
    Step archiveFileSize e
      { request :=
          (e.request.getOrPrepareSubrequestInfo (new.map Subrequest.fSeq) nextId).setTotalStats t
        subs := e.subs ++ new }
  | creationFailures (e : Expansion) (failed : List Subrequest) (hs : e.request.isExpandStarted)
      (hf : e.request.isExpandFinished = false) :
    Step archiveFileSize e { e with request := reportRetrieveCreationFailures e.request failed }
  | finish (e : Expansion) (hs : e.request.isExpandStarted) :
    Step archiveFileSize e { e with request := e.request.expandDone }
  | report (e : Expansion) (c : Call) (hc : e.Planned c) :
    Step archiveFileSize e (e.report archiveFileSize c)

def Expansion.Fresh (e : Expansion) : Prop := e = {}

structure Expansion.Books (e : Expansion) : Prop extends Counted e.subs e.request where
  totalRetrieve : (toRetrieve e.subs).card ≤ e.request.totalFilesToRetrieve
  totalArchive : (toArchive e.subs).card ≤ e.request.totalFilesToArchive
  copies : ∀ s ∈ e.subs, s.copyNbsToRearchive.Nonempty
  creation : e.request.failedToCreateArchiveReq = 0 ∨ e.request.failedToRetrieveFiles ≠ 0
  startedFirst : e.request.isExpandFinished → e.request.isExpandStarted
  status : e.request.status = e.request.newStatus

theorem setStatus_newStatus (r : RepackRequest) : r.setStatus.newStatus = r.newStatus := by
  by_cases hs : r.isExpandStarted
  · have hs' : r.setStatus.isExpandStarted := hs
    unfold RepackRequest.newStatus
    rw [if_pos hs, if_pos hs']
    rfl
  · have hsame : r.setStatus.newStatus = r.setStatus.status := if_neg hs
    rw [hsame]
    rfl

theorem Counted.setStatus {subs : List Subrequest} (h : Counted subs r) :
    Counted subs r.setStatus := ⟨h.retrieved, h.archived, h.retrievalFirst⟩

theorem getOrPrepareSubrequestInfo_accounted (r : RepackRequest) (fSeqs : List Nat)
    (nextId : Nat → Address) (k : ReportKey) :
    (r.getOrPrepareSubrequestInfo fSeqs nextId).Accounted k ↔ r.Accounted k := by
  unfold RepackRequest.Accounted RepackRequest.getOrPrepareSubrequestInfo
  cases hp : r.subrequests k.fSeq with
  | some p => simp [hp]
  | none =>
    simp only [hp, Option.ite_none_right_eq_some]
    constructor
    · rintro ⟨p, ⟨-, hp'⟩, hacc⟩
      cases hp'
      cases k with
      | retrieve f => simp [SubRequestPointer.Accounted] at hacc
      | archive f c => simp [SubRequestPointer.Accounted] at hacc
    · rintro ⟨p, hp', -⟩
      cases hp'

theorem accountedOf_subset {keys keys' : Finset ReportKey} (h : keys ⊆ keys')
    (hq : ∀ k, r.Accounted k → q.Accounted k) : r.accountedOf keys ⊆ q.accountedOf keys' := by
  intro k hk
  simp only [RepackRequest.accountedOf, Finset.mem_filter] at hk ⊢
  exact ⟨h hk.1, hq k hk.2⟩

theorem toRetrieve_subset (subs new : List Subrequest) :
    toRetrieve subs ⊆ toRetrieve (subs ++ new) := by
  simp only [toRetrieve, List.filter_append, List.map_append, List.toFinset_append]
  exact Finset.subset_union_left

theorem toArchive_subset (subs new : List Subrequest) :
    toArchive subs ⊆ toArchive (subs ++ new) := by
  rw [toArchive_append]
  exact Finset.subset_union_left

theorem Expansion.Books.addSubrequests {e : Expansion} (h : e.Books) {new : List Subrequest}
    (nextId : Nat → Address) {t : TotalStatsFiles} (hs : e.request.isExpandStarted)
    (hf : e.request.isExpandFinished = false) (ht : TotalsCover e.request new t)
    (hnew : ∀ s ∈ new, s.copyNbsToRearchive.Nonempty ∧
      (s.hasUserProvidedFile → RetrievalFirst e.request s.fSeq)) :
    Expansion.Books
      { request :=
          (e.request.getOrPrepareSubrequestInfo (new.map Subrequest.fSeq) nextId).setTotalStats t
        subs := e.subs ++ new } where
  retrieved := h.retrieved.trans (Finset.card_le_card (accountedOf_subset (toRetrieve_subset _ _)
    fun k => (getOrPrepareSubrequestInfo_accounted e.request _ nextId k).mpr))
  archived := h.archived.trans (Finset.card_le_card (accountedOf_subset (toArchive_subset _ _)
    fun k => (getOrPrepareSubrequestInfo_accounted e.request _ nextId k).mpr))
  retrievalFirst := fun s hs hu c hc => by
    have hold := getOrPrepareSubrequestInfo_accounted e.request (new.map Subrequest.fSeq) nextId
    have hfirst : RetrievalFirst e.request s.fSeq := by
      cases List.mem_append.mp hs with
      | inl hs => exact h.retrievalFirst s hs hu
      | inr hs => exact (hnew s hs).2 hu
    exact (hold _).mpr (hfirst c ((hold _).mp hc))
  totalRetrieve := (card_toRetrieve_append _ _).trans
    ((Nat.add_le_add_right h.totalRetrieve _).trans ht.1)
  totalArchive := (card_toArchive_append _ _).trans
    ((Nat.add_le_add_right h.totalArchive _).trans ht.2)
  copies := fun s hs => by
    cases List.mem_append.mp hs with
    | inl hold => exact h.copies s hold
    | inr hs => exact (hnew s hs).1
  creation := h.creation
  startedFirst := fun _ => hs
  status := by
    -- before the end the totals do not matter
    have hstatus := h.status
    simpa [RepackRequest.newStatus, RepackRequest.setTotalStats,
      RepackRequest.getOrPrepareSubrequestInfo, hs, hf] using hstatus

theorem Expansion.Books.creationFailures {e : Expansion} (h : e.Books) (failed : List Subrequest)
    (hs : e.request.isExpandStarted) :
    Expansion.Books { e with request := reportRetrieveCreationFailures e.request failed } where
  retrieved := h.retrieved
  archived := h.archived
  retrievalFirst := h.retrievalFirst
  totalRetrieve := h.totalRetrieve
  totalArchive := h.totalArchive
  copies := h.copies
  creation := by
    cases failed with
    | nil => simpa [reportRetrieveCreationFailures, reportArchiveCreationFailures,
        RepackRequest.setStatus] using h.creation
    | cons s failed =>
      refine .inr ?_
      simp only [reportRetrieveCreationFailures, reportArchiveCreationFailures,
        RepackRequest.setStatus, List.length_cons]
      omega
  startedFirst := fun _ => hs
  status := (setStatus_newStatus _).symm

theorem Expansion.Books.setStatus {e : Expansion} (h : e.Books)
    (started finished : Bool) (hfirst : finished → started) :
    Expansion.Books { e with
      request := { e.request with
        isExpandStarted := started
        isExpandFinished := finished }.setStatus } where
  retrieved := h.retrieved
  archived := h.archived
  retrievalFirst := h.retrievalFirst
  totalRetrieve := h.totalRetrieve
  totalArchive := h.totalArchive
  copies := h.copies
  creation := h.creation
  startedFirst := hfirst
  status := (setStatus_newStatus _).symm

theorem call_cases (archiveFileSize : Address → Option Nat) (r : RepackRequest) (c : Call) :
    r.call archiveFileSize c = r ∨
      ∃ q, accountReports archiveFileSize r (c.statistics.map (⟨c.kind, ·⟩)) = .ok q ∧
        r.call archiveFileSize c = q.setStatus := by
  unfold RepackRequest.call
  cases hq : Repack.report archiveFileSize c.kind r c.statistics with
  | error e => exact .inl rfl
  | ok q =>
    obtain ⟨q', u, ha, rfl⟩ := report_ok hq
    cases u with
    | false => exact .inl (accountAll_unchanged ha)
    | true => exact .inr ⟨q', accountAll_reports ha, rfl⟩

theorem Expansion.Books.report {e : Expansion} (h : e.Books) {c : Call} (hc : e.Planned c) :
    (e.report archiveFileSize c).Books := by
  unfold Expansion.report
  cases call_cases archiveFileSize e.request c with
  | inl hsame =>
    rw [hsame]
    exact h
  | inr hcall =>
    obtain ⟨q, hq, hset⟩ := hcall
    rw [hset]
    have hgrows := accountReports_grows hq
    have hcounted : Counted e.subs q := by
      refine h.toCounted.accountReports (fun x hx => ?_) hq
      obtain ⟨s, hs, rfl⟩ := List.mem_map.mp hx
      exact hc s hs
    exact
      { hcounted.setStatus with
        totalRetrieve := h.totalRetrieve.trans hgrows.totalRetrieve.ge
        totalArchive := h.totalArchive.trans hgrows.totalArchive.ge
        copies := h.copies
        creation := by
          have hfailed := hgrows.failedToRetrieve
          have hcreate := hgrows.failedToCreate
          cases h.creation with
          | inl hzero => exact .inl (hcreate.trans hzero)
          | inr hne => exact .inr (by simp only [RepackRequest.setStatus]; omega)
        startedFirst := fun hf => by
          have hstarted := h.startedFirst (hgrows.finished.symm.trans hf)
          exact hgrows.started.trans hstarted
        status := (setStatus_newStatus q).symm }

theorem Expansion.Step.books {e e' : Expansion} (hstep : Expansion.Step archiveFileSize e e')
    (h : e.Books) : e'.Books := by
  cases hstep with
  | start hf => exact h.setStatus true e.request.isExpandFinished fun _ => rfl
  | addSubrequests new nextId t hs hf ht hnew => exact h.addSubrequests nextId hs hf ht hnew
  | creationFailures failed hs hf => exact h.creationFailures failed hs
  | finish hs => exact h.setStatus e.request.isExpandStarted true fun _ => hs
  | report c hc => exact h.report hc

theorem Expansion.Fresh.books {e : Expansion} (h : e.Fresh) : e.Books := by
  subst h
  exact
    { retrieved := Nat.zero_le _
      archived := Nat.zero_le _
      retrievalFirst := fun s hs => by cases hs
      totalRetrieve := le_rfl
      totalArchive := le_rfl
      copies := fun s hs => by cases hs
      creation := .inl rfl
      startedFirst := fun hf => by cases hf
      status := rfl }

theorem Expansion.reachable_books {e : Expansion}
    (h : Reachable Expansion.Fresh (Expansion.Step archiveFileSize) e) : e.Books :=
  h.invariant (fun _ => Expansion.Fresh.books) fun _ _ hb hs => hs.books hb

def Done (r : RepackRequest) (s : Subrequest) : Prop :=
  r.Accounted (.retrieve s.fSeq) ∧ ∀ c ∈ s.copyNbsToRearchive, r.Accounted (.archive s.fSeq c)

theorem accounted_of_card {keys : Finset ReportKey} (h : keys.card ≤ (r.accountedOf keys).card)
    {k : ReportKey} (hk : k ∈ keys) : r.Accounted k := by
  have heq : r.accountedOf keys = keys :=
    Finset.eq_of_subset_of_card_le (Finset.filter_subset _ _) h
  rw [← heq] at hk
  exact (Finset.mem_filter.mp hk).2

theorem Expansion.Books.done_of_complete {e : Expansion} (h : e.Books)
    (hf : e.request.isExpandFinished) (hc : e.request.status = .complete) :
    (∀ s ∈ e.subs, Done e.request s) ∧ e.request.failedToRetrieveFiles = 0 ∧
      e.request.failedToArchiveFiles = 0 ∧ e.request.failedToCreateArchiveReq = 0 := by
  rw [h.status, newStatus_eq_complete_iff (h.startedFirst hf)] at hc
  obtain ⟨-, hend, hretrieve, harchive⟩ := hc
  have hcreate : e.request.failedToCreateArchiveReq = 0 :=
    h.creation.resolve_right fun hne => hne hretrieve
  have hretrievals : (toRetrieve e.subs).card ≤
    (e.request.accountedOf (toRetrieve e.subs)).card := by
    have := h.totalRetrieve
    have := h.retrieved
    have := hend.1
    omega
  have harchives : (toArchive e.subs).card ≤ (e.request.accountedOf (toArchive e.subs)).card := by
    have := h.totalArchive
    have := h.archived
    have := hend.2
    omega
  refine ⟨fun s hs => ?_, hretrieve, harchive, hcreate⟩
  have hcopies : ∀ c ∈ s.copyNbsToRearchive, e.request.Accounted (.archive s.fSeq c) :=
    fun c hc => accounted_of_card harchives (mem_toArchive hs hc)
  refine ⟨?_, hcopies⟩
  cases hu : s.hasUserProvidedFile with
  | false => exact accounted_of_card hretrievals (mem_toRetrieve hs hu)
  | true =>
    obtain ⟨c, hc⟩ := h.copies s hs
    exact h.retrievalFirst s hs hu c (hcopies c hc)

theorem call_of_done {e : Expansion} (hdone : ∀ s ∈ e.subs, Done e.request s) {c : Call}
    (hc : e.Planned c) : e.request.call archiveFileSize c = e.request := by
  have hall : ∀ s ∈ c.statistics, e.request.Accounted (Report.mk c.kind s).key := by
    intro st hst
    obtain ⟨⟨s, hs, hf, -, hkind⟩, -⟩ := hc st hst
    obtain ⟨hretrieve, hcopies⟩ := hdone s hs
    rw [hf] at hretrieve hcopies
    obtain ⟨kind, statistics⟩ := c
    cases kind with
    | retrieveSuccesses => exact hretrieve
    | retrieveFailures => exact hretrieve
    | archiveSuccesses => exact hcopies _ hkind
    | archiveFailures => exact hcopies _ hkind
  unfold RepackRequest.call
  rw [report_eq, reportWith, accountAll_of_accounted hall]
  rfl

theorem call_grows (archiveFileSize : Address → Option Nat) (r : RepackRequest) (c : Call) :
    Grows r (r.call archiveFileSize c) := by
  cases call_cases archiveFileSize r c with
  | inl hsame =>
    rw [hsame]
    exact .refl r
  | inr hcall =>
    obtain ⟨q, hq, hset⟩ := hcall
    rw [hset]
    have h := accountReports_grows hq
    exact ⟨h.started, h.finished, h.totalRetrieve, h.totalArchive, h.failedToCreate, h.retrieved,
      h.failedToRetrieve, h.archived, h.failedToArchive⟩

theorem Expansion.Books.report_final (archiveFileSize : Address → Option Nat) {e : Expansion}
    (h : e.Books) {c : Call} (hc : e.Planned c) (hf : e.request.isExpandFinished) :
    (e.request.status = .complete → (e.report archiveFileSize c).request.status = .complete) ∧
      (e.request.status = .failed → (e.report archiveFileSize c).request.status = .failed) := by
  refine ⟨fun hcomplete => ?_, fun hfailed => ?_⟩
  · have hsame : e.request.call archiveFileSize c = e.request :=
      call_of_done (h.done_of_complete hf hcomplete).1 hc
    rw [Expansion.report, hsame]
    exact hcomplete
  · have hbooks : (e.report archiveFileSize c).Books := h.report hc
    rw [hbooks.status]
    rw [h.status] at hfailed
    exact (call_grows archiveFileSize e.request c).newStatus_failed (h.startedFirst hf) hfailed

theorem Expansion.Books.reports_final {e : Expansion} (h : e.Books)
    (hf : e.request.isExpandFinished) {cs : List Call}
    (hcs : AllSteps (Expansion.report archiveFileSize) Expansion.Planned e cs) :
    (cs.foldl (Expansion.report archiveFileSize) e).Books ∧
      (cs.foldl (Expansion.report archiveFileSize) e).request.isExpandFinished ∧
      (e.request.status = .complete →
        (cs.foldl (Expansion.report archiveFileSize) e).request.status = .complete) ∧
      (e.request.status = .failed →
        (cs.foldl (Expansion.report archiveFileSize) e).request.status = .failed) := by
  induction cs generalizing e with
  | nil => exact ⟨h, hf, id, id⟩
  | cons c cs ih =>
    have hfinal := h.report_final archiveFileSize hcs.1 hf
    have hf' : (e.report archiveFileSize c).request.isExpandFinished :=
      (call_grows archiveFileSize e.request c).finished.trans hf
    obtain ⟨hbooks, hfinished, hcomplete, hfailed⟩ := ih (h.report hcs.1) hf' hcs.2
    exact ⟨hbooks, hfinished, fun hs => hcomplete (hfinal.1 hs), fun hs => hfailed (hfinal.2 hs)⟩

/-- Once the expansion is finished, reports leave a final status alone, and the request is only
complete when every sub-request is accounted and nothing failed. -/
theorem status_final_and_truthful {archiveFileSize : Address → Option Nat} {e : Expansion}
    (he : Reachable Expansion.Fresh (Expansion.Step archiveFileSize) e)
    (hf : e.request.isExpandFinished) (cs : List Call)
    (hcs : AllSteps (Expansion.report archiveFileSize) Expansion.Planned e cs) :
    let e' := cs.foldl (Expansion.report archiveFileSize) e
    (e.request.status = .complete → e'.request.status = .complete) ∧
      (e.request.status = .failed → e'.request.status = .failed) ∧
      (e'.request.status = .complete →
        (∀ s ∈ e'.subs, Done e'.request s) ∧ e'.request.failedToRetrieveFiles = 0 ∧
          e'.request.failedToArchiveFiles = 0 ∧ e'.request.failedToCreateArchiveReq = 0) := by
  obtain ⟨hbooks, hfinished, hcomplete, hfailed⟩ :=
    (Expansion.reachable_books he).reports_final hf hcs
  exact ⟨hcomplete, hfailed, fun hs => hbooks.done_of_complete hfinished hs⟩

def expandedWith (s : Subrequest) (t : TotalStatsFiles) : Expansion where
  request := ((({} : RepackRequest).setExpandStartedAndChangeStatus.getOrPrepareSubrequestInfo
    [s.fSeq] fun _ => "sub").setTotalStats t).expandDone
  subs := [s]

theorem expandedWith_reachable (archiveFileSize : Address → Option Nat) (s : Subrequest)
    (t : TotalStatsFiles) (hs : s.copyNbsToRearchive.Nonempty) (ht : TotalsCover {} [s] t) :
    Reachable Expansion.Fresh (Expansion.Step archiveFileSize) (expandedWith s t) := by
  have hnew : ∀ s' ∈ [s], s'.copyNbsToRearchive.Nonempty ∧ (s'.hasUserProvidedFile →
      RetrievalFirst ({} : RepackRequest).setExpandStartedAndChangeStatus s'.fSeq) := by
    intro s' hs'
    rw [List.mem_singleton.mp hs']
    exact ⟨hs, fun _ c ⟨_, hp, _⟩ => by cases hp⟩
  exact .step (.step (.step (.init rfl) (.start _ rfl))
    (.addSubrequests _ [s] (fun _ => "sub") t rfl rfl ht hnew)) (.finish _ rfl)

def movedFile : Expansion :=
  expandedWith { fSeq := 7, fileSize := 10, copyNbsToRearchive := {1} }
    { totalFilesToRetrieve := 1, totalFilesToArchive := 1 }

def movedFileCalls : List Call :=
  [⟨.retrieveSuccesses, [{ fSeq := 7, bytes := 10 }]⟩,
    ⟨.archiveSuccesses, [{ fSeq := 7, bytes := 10, copyNb := 1 }]⟩]

theorem status_final_and_truthful_movedFile :
    let e := movedFileCalls.foldl (Expansion.report fun _ => some 10) movedFile
    e.request.status = .complete ∧ ∀ s ∈ e.subs, Done e.request s := by
  have hreach : Reachable Expansion.Fresh (Expansion.Step fun _ => some 10) movedFile :=
    expandedWith_reachable _ _ _ (by decide) (by decide)
  have hcs : AllSteps (Expansion.report fun _ => some 10) Expansion.Planned movedFile
      movedFileCalls := by
    refine ⟨fun s hs => ?_, fun s hs => ?_, trivial⟩
    · rw [List.mem_singleton.mp hs]
      exact ⟨⟨_, List.mem_singleton.mpr rfl, rfl, rfl, rfl⟩, trivial⟩
    · rw [List.mem_singleton.mp hs]
      refine ⟨⟨_, List.mem_singleton.mpr rfl, rfl, rfl, by decide⟩, fun s hs _ hu => ?_⟩
      rw [List.mem_singleton.mp hs] at hu
      cases hu
  have h := status_final_and_truthful hreach rfl movedFileCalls hcs
  have hcomplete : (movedFileCalls.foldl (Expansion.report fun _ => some 10) movedFile).request.status =
      .complete := by decide
  exact ⟨hcomplete, (h.2.2 hcomplete).1⟩

/-- A file that is in the buffer already: it is not counted among the files to retrieve. -/
def providedFile : Expansion :=
  expandedWith { fSeq := 7, fileSize := 10, copyNbsToRearchive := {1}, hasUserProvidedFile := true }
    { totalFilesToArchive := 1, userProvidedFiles := 1 }

/-- Its copy reported first makes the request complete, with the retrieval not accounted; a
retrieve failure then makes it failed. -/
theorem providedFile_leaves_complete :
    Reachable Expansion.Fresh (Expansion.Step fun _ => some 10) providedFile ∧
      providedFile.request.isExpandFinished ∧
      About providedFile.subs ⟨.archiveSuccesses, { fSeq := 7, bytes := 10, copyNb := 1 }⟩ ∧
      About providedFile.subs ⟨.retrieveFailures, { fSeq := 7, bytes := 10 }⟩ ∧
      let e := providedFile.report (fun _ => some 10)
        ⟨.archiveSuccesses, [{ fSeq := 7, bytes := 10, copyNb := 1 }]⟩
      let e' := e.report (fun _ => some 10) ⟨.retrieveFailures, [{ fSeq := 7, bytes := 10 }]⟩
      e.request.status = .complete ∧ ¬ e.request.Accounted (.retrieve 7) ∧
        e'.request.status = .failed := by
  refine ⟨expandedWith_reachable _ _ _ (by decide) (by decide), rfl, ?_, ?_, ?_⟩
  · exact ⟨_, List.mem_singleton.mpr rfl, rfl, rfl, by decide⟩
  · exact ⟨_, List.mem_singleton.mpr rfl, rfl, rfl, trivial⟩
  · decide

end Cta.Repack
