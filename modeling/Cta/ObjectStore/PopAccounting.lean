import Cta.ObjectStore.Popping

/-! What a pop returns, and what is left of its criteria at every round. -/
namespace Cta.ObjectStore.Popping
open Cta.Lib.Sequence
open CandidateList (JobView Reached notSkipped getCandidateJobList_spec)
open PopNextBatch (Results Decisions decisions failedOwnershipSwitchElements toDereference
  mem_toDereference mem_foldl_sort unexpectedException_of_other)

/-- Where the loop stands before each round. -/
inductive Head (k : Kind) (popCriteria : PopCriteria) (cont : Container)
    (outcomes : Nat → Outcome) : Nat → PopState → Prop
  | start : Head k popCriteria cont outcomes 0 (startPop popCriteria cont)
  | next {n : Nat} {s s' : PopState} : Head k popCriteria cont outcomes n s →
      s.goesOn popCriteria = true → popRound k (outcomes n) s = some s' →
      Head k popCriteria cont outcomes (n + 1) s'

def bytesOf (es : List PoppedElement) : Nat := (es.map (·.bytes.toNat)).sum

/-- The summary is that of the elements, the rest of the criteria is unfulfilled, and the elements
go beyond the criteria by less than the last one. -/
structure Accounted (popCriteria : PopCriteria) (s : PopState) : Prop where
  files : s.ret.summary.files.toNat = s.ret.elements.length
  bytes : s.ret.summary.bytes.toNat = bytesOf s.ret.elements
  unfulfilled : s.unfulfilledCriteria = popCriteria.less s.ret.summary
  noUnderflow : s.goesOn popCriteria = true →
    s.unfulfilledCriteria.files.toNat + s.ret.elements.length = popCriteria.files.toNat ∧
      s.unfulfilledCriteria.bytes.toNat + bytesOf s.ret.elements = popCriteria.bytes.toNat
  atMost : s.ret.elements.length ≤ popCriteria.files.toNat
  overshoot : ∀ es e, s.ret.elements = es ++ [e] →
    bytesOf s.ret.elements < popCriteria.bytes.toNat + e.bytes.toNat

/-- The accounts are right at every round, and the loop ends and returns what it stands at. -/
structure PopsExactly (k : Kind) (popCriteria : PopCriteria) (cont : Container)
    (outcomes : Nat → Outcome) : Prop where
  rounds : ∀ n s, Head k popCriteria cont outcomes n s → Accounted popCriteria s
  returns : ∃ rounds n s, Head k popCriteria cont outcomes n s ∧
    popNextBatch k popCriteria cont outcomes rounds = some s.ret

/-- The bytes count: the queue is not for repack, or there is nothing to pop or to count. -/
def BytesCount (k : Kind) (popCriteria : PopCriteria) (cont : Container) : Prop :=
  k ≠ .archiveForRepack ∨ popCriteria.files = 0 ∨ popCriteria.bytes = 0 ∨
    ∀ j ∈ cont.jobs, j.size = 0

def Kind.summaryOf (k : Kind) (es : List PoppedElement) : PoppedElementsSummary where
  files := (es.map fun e => (k.getElementSummary e).files).sum
  bytes := (es.map fun e => (k.getElementSummary e).bytes).sum

section
variable {k : Kind} {es fs : List PoppedElement} {s t u : PoppedElementsSummary}

@[simp] theorem add_files : (s + t).files = s.files + t.files := rfl

@[simp] theorem add_bytes : (s + t).bytes = s.bytes + t.bytes := rfl

@[simp] theorem sub_files : (s - t).files = s.files - t.files := rfl

@[simp] theorem sub_bytes : (s - t).bytes = s.bytes - t.bytes := rfl

theorem add_summaryOf_nil : s + k.summaryOf [] = s := by
  ext <;> simp [Kind.summaryOf]

theorem summaryOf_append : k.summaryOf (es ++ fs) = k.summaryOf es + k.summaryOf fs := by
  ext <;> simp [Kind.summaryOf]

theorem summaryOf_filter (es : List PoppedElement) (p : PoppedElement → Bool) :
    k.summaryOf es = k.summaryOf (es.filter p) + k.summaryOf (es.filter fun e => !p e) := by
  induction es with
  | nil => rfl
  | cons e es ih =>
    rw [PoppedElementsSummary.ext_iff] at ih ⊢
    simp only [Kind.summaryOf, add_files, add_bytes, List.map_cons, List.sum_cons] at ih ⊢
    rw [ih.1, ih.2]
    cases h : p e <;> simp [h] <;> constructor <;> abel

theorem foldl_sub : es.foldl (fun b e => b - k.getElementSummary e) s = s - k.summaryOf es := by
  induction es generalizing s with
  | nil => ext <;> simp [Kind.summaryOf]
  | cons e es ih =>
    rw [List.foldl_cons, ih]
    ext <;> simp [Kind.summaryOf, sub_sub]

theorem foldl_push {b : PoppedElementsBatch} (hk : k ≠ .archiveForRepack) :
    es.foldl PoppedElementsBatch.push b = ⟨b.elements ++ es, b.summary + k.summaryOf es⟩ := by
  have hone : ∀ e, k.getElementSummary e = ⟨1, e.bytes⟩ := by
    intro e
    cases k with
    | retrieve => rfl
    | archiveForUser => rfl
    | archiveForRepack => exact absurd rfl hk
  induction es generalizing b with
  | nil =>
    rw [List.append_nil, add_summaryOf_nil]
    rfl
  | cons e es ih =>
    rw [List.foldl_cons, ih, PoppedElementsBatch.push, List.append_assoc, List.singleton_append]
    congr 1
    ext <;> simp [Kind.summaryOf, hone, add_assoc]

theorem foldl_pushFile {b : PoppedElementsBatch} :
    es.foldl PoppedElementsBatch.pushFile b =
      ⟨b.elements ++ es, b.summary + Kind.summaryOf .archiveForRepack es⟩ := by
  induction es generalizing b with
  | nil =>
    rw [List.append_nil, add_summaryOf_nil]
    rfl
  | cons e es ih =>
    rw [List.foldl_cons, ih, PoppedElementsBatch.pushFile, List.append_assoc, List.singleton_append]
    congr 1
    ext <;> simp [Kind.summaryOf, Kind.getElementSummary, add_assoc]

theorem withoutFailed_summary {b : PoppedElementsBatch} {results : Results}
    (hb : b.summary = k.summaryOf b.elements) :
    (k.withoutFailed b results).summary = k.summaryOf (k.withoutFailed b results).elements := by
  have hsplit := summaryOf_filter (k := k) b.elements fun e =>
    decide (e.address ∈ (decisions results).elementsNotToReport)
  simp only [Kind.withoutFailed, foldl_sub, hb]
  rw [hsplit]
  simp only [decide_not]
  ext <;> simp

end

section
variable {J D : Type} {v : JobView J D} {maxBytes : UInt64} {maxFiles : Nat} {jobs : List J}

/-- The candidates are the first jobs not skipped, up to the one that reaches a limit. -/
theorem getCandidateList_shortest (maxBytes : UInt64) (maxFiles : Nat)
    (hfit : CandidateList.bytesOf v jobs < 2 ^ 64) :
    ∃ js, ShortestPrefix (Reached v maxBytes maxFiles) js (notSkipped v jobs) ∧
      (getCandidateList v maxBytes maxFiles jobs).candidates = js.map v.dump := by
  by_cases hpos : 0 < maxBytes ∧ 0 < maxFiles
  · obtain ⟨seen, rest, hsplit, henough, hlists⟩ := getCandidateJobList_spec
      (s := ⟨jobs, (jobs.map v.size).sum⟩) hpos.1 hpos.2 (CandidateList.toNat_sum_size v hfit)
    refine ⟨notSkipped v seen, henough.filter, ?_⟩
    rw [getCandidateList, if_pos hpos]
    exact hlists.candidates
  · refine ⟨[], shortestPrefix_nil ?_ _, ?_⟩
    · rw [Reached]
      rw [not_and_or, UInt64.not_lt, Nat.not_lt, UInt64.le_iff_toNat_le] at hpos
      simpa using hpos
    · rw [getCandidateList, if_neg hpos]
      rfl

theorem not_reached_before {js js' all : List J} {j : J}
    (h : ShortestPrefix (Reached v maxBytes maxFiles) js all) (hjs : js = js' ++ [j]) :
    CandidateList.bytesOf v js' < maxBytes.toNat ∧ js'.length < maxFiles := by
  have hnot : ¬Reached v maxBytes maxFiles js' := by
    intro hreached
    have hpre : js' <+: js := hjs ▸ List.prefix_append js' [j]
    have hle := (h.least js' (hpre.trans h.isPrefix) hreached).length_le
    simp [hjs] at hle
  rw [Reached, not_or, Nat.not_le, Nat.not_le] at hnot
  exact hnot

structure Chosen (v : JobView QueuedJob PoppedElement) (maxBytes : UInt64) (maxFiles : Nat)
    (jobs : List QueuedJob) (es : List PoppedElement) : Prop where
  queued : ∃ js : List QueuedJob, js.Sublist jobs ∧ es = js.map QueuedJob.toElement
  before : ∀ fs e, es = fs ++ [e] → bytesOf fs < maxBytes.toNat ∧ fs.length < maxFiles
  none : es = [] → notSkipped v jobs = []

theorem getCandidateList_chosen {v : JobView QueuedJob PoppedElement} {jobs : List QueuedJob}
    (hsize : v.size = QueuedJob.size) (hdump : v.dump = QueuedJob.toElement)
    (hbytes : 0 < maxBytes) (hfiles : 0 < maxFiles)
    (hfit : (jobs.map (·.size.toNat)).sum < 2 ^ 64) :
    Chosen v maxBytes maxFiles jobs (getCandidateList v maxBytes maxFiles jobs).candidates := by
  have hsum : ∀ js, CandidateList.bytesOf v js = (js.map (·.size.toNat)).sum := by
    intro js
    rw [CandidateList.bytesOf, hsize]
  obtain ⟨js, hshort, hcand⟩ := getCandidateList_shortest (v := v) maxBytes maxFiles
    ((hsum jobs).trans_lt hfit)
  rw [hcand, hdump]
  refine ⟨⟨js, hshort.isPrefix.sublist.trans List.filter_sublist, rfl⟩, fun fs e hes => ?_,
    fun hnil => ?_⟩
  · obtain ⟨js', rest, rfl, rfl, hrest⟩ := List.map_eq_append_iff.mp hes
    obtain ⟨j, js'', rfl, -, hnil⟩ := List.map_eq_cons_iff.mp hrest
    obtain rfl := List.map_eq_nil_iff.mp hnil
    obtain ⟨h1, h2⟩ := not_reached_before hshort rfl
    rw [hsum] at h1
    rw [bytesOf, List.map_map, List.length_map]
    exact ⟨h1, h2⟩
  · obtain rfl := List.map_eq_nil_iff.mp hnil
    refine (hshort.reaches.resolve_left fun hreached => ?_).symm
    rw [Reached] at hreached
    have hpos := UInt64.lt_iff_toNat_lt.mp hbytes
    simp [CandidateList.bytesOf] at hreached hpos
    omega

end

def Kind.maxBytes (k : Kind) (pc : PopCriteria) : UInt64 :=
  if k = .archiveForRepack then 0xffffffffffffffff else pc.bytes

/-- The candidates offered to a pop, and the queue they are from. -/
structure Offered (k : Kind) (pc : PopCriteria) (elementsToSkip : List Address) (cont : Container)
    (offer : PoppedElementsBatch × Container) : Prop where
  jobs : offer.2.jobs = cont.jobs
  summary : offer.1.summary = k.summaryOf offer.1.elements
  queued : ∃ js : List QueuedJob, js.Sublist cont.jobs ∧
    offer.1.elements = js.map QueuedJob.toElement
  before : ∀ es e, offer.1.elements = es ++ [e] →
    bytesOf es < (k.maxBytes pc).toNat ∧ es.length < pc.files.toNat
  none : elementsToSkip = [] → offer.1.elements = [] →
    cont.jobs = [] ∨ k = .retrieve ∧ offer.2.sleepInfo.isSome = true

theorem Chosen.offered {v : JobView QueuedJob PoppedElement} {k : Kind} {pc : PopCriteria}
    {elementsToSkip : List Address} {cont : Container} {es : List PoppedElement}
    (h : Chosen v (k.maxBytes pc) pc.files.toNat cont.jobs es)
    (hall : elementsToSkip = [] → notSkipped v cont.jobs = [] → cont.jobs = []) :
    Offered k pc elementsToSkip cont (⟨es, {} + k.summaryOf es⟩, cont) where
  jobs := rfl
  summary := by ext <;> simp
  queued := h.queued
  before := h.before
  none hskip hnil := .inl (hall hskip (h.none hnil))

section
variable {cont : Container} {pc : PopCriteria} {elementsToSkip : List Address}

theorem RetrieveQueueToTransfer.offered (now : Int64) (hbytes : 0 < pc.bytes)
    (hfiles : 0 < pc.files.toNat) (hfit : (cont.jobs.map (·.size.toNat)).sum < 2 ^ 64) :
    Offered .retrieve pc elementsToSkip cont
      (getPoppingElementsCandidates now cont pc elementsToSkip) := by
  have hchosen := getCandidateList_chosen
    (v := jobView elementsToSkip (pc.diskSystemsToSkip.map (·.name))) rfl rfl hbytes hfiles hfit
  unfold getPoppingElementsCandidates
  cases hds : pc.diskSystemsToSkip with
  | nil =>
    rw [hds] at hchosen
    dsimp only
    rw [foldl_push (k := .retrieve) (by decide)]
    refine Chosen.offered hchosen ?_
    rintro rfl hnone
    simpa [notSkipped, jobView] using hnone
  | cons ds rest =>
    rw [hds] at hchosen
    dsimp only
    split
    · refine ⟨rfl, ?_, ⟨[], List.nil_sublist _, rfl⟩, by simp, fun _ _ => .inr ⟨rfl, rfl⟩⟩
      ext <;> simp [Kind.summaryOf]
    · next hawake =>
      rw [foldl_push (k := .retrieve) (by decide)]
      refine ⟨rfl, by ext <;> simp, hchosen.queued, hchosen.before, fun hskip hnil => .inl ?_⟩
      by_contra hne
      exact hawake ⟨hnil, fun hlen => hne (List.length_eq_zero_iff.mp hlen), hskip⟩

theorem archiveJobView_none (hskip : elementsToSkip = [])
    (hnone : notSkipped (archiveJobView elementsToSkip) cont.jobs = []) : cont.jobs = [] := by
  subst hskip
  simpa [notSkipped, archiveJobView] using hnone

theorem offered (k : Kind) (pc : PopCriteria) (now : Int64) (elementsToSkip : List Address)
    (hbytes : 0 < pc.bytes) (hfiles : 0 < pc.files.toNat) (hfit : (cont.jobs.map (·.size.toNat)).sum < 2 ^ 64) :
    Offered k pc elementsToSkip cont
      (k.getPoppingElementsCandidates now cont pc elementsToSkip) := by
  cases k with
  | retrieve => exact RetrieveQueueToTransfer.offered now hbytes hfiles hfit
  | archiveForUser =>
    have hchosen := getCandidateList_chosen (v := archiveJobView elementsToSkip) rfl rfl hbytes
      hfiles hfit
    rw [Kind.getPoppingElementsCandidates,
      ArchiveQueueToTransferForUser.getPoppingElementsCandidates,
      foldl_push (k := .archiveForUser) (by decide)]
    exact Chosen.offered hchosen archiveJobView_none
  | archiveForRepack =>
    have hchosen := getCandidateList_chosen (v := archiveJobView elementsToSkip) rfl rfl
      (show (0 : UInt64) < 0xffffffffffffffff by decide) hfiles hfit
    rw [Kind.getPoppingElementsCandidates,
      ArchiveQueueToTransferForRepack.getPoppingElementsCandidates, foldl_pushFile]
    exact Chosen.offered hchosen archiveJobView_none

end

section
variable {J D : Type} {v : JobView J D} {w : JobView QueuedJob PoppedElement} {f : J → QueuedJob}
  {maxBytes : UInt64} {maxFiles : Nat} {jobs : List J} {l : CandidateList.CandidateJobList D}

/-- A candidate list cut over the shards is the one of the jobs in a row. -/
theorem candidates_in_a_row (h : CandidateList.CandidatesOf v maxBytes maxFiles jobs l)
    (hsize : ∀ j, w.size (f j) = v.size j) (hskip : ∀ j, w.skipped (f j) = v.skipped j)
    (hfit : CandidateList.bytesOf v jobs < 2 ^ 64) :
    ∃ js : List J, l.candidates = js.map v.dump ∧
      (getCandidateList w maxBytes maxFiles (jobs.map f)).candidates =
        js.map fun j => w.dump (f j) := by
  have hbytes : ∀ zs : List J, CandidateList.bytesOf w (zs.map f) = CandidateList.bytesOf v zs := by
    intro zs
    simp [CandidateList.bytesOf, Function.comp_def, hsize]
  have hskipped : notSkipped w (jobs.map f) = (notSkipped v jobs).map f := by
    rw [notSkipped, List.filter_map]
    simp only [Function.comp_def, hskip]
    rfl
  obtain ⟨visited, rest, hexact, hshort⟩ := h
  have hfits : CandidateList.bytesOf w (jobs.map f) < 2 ^ 64 := by rwa [hbytes]
  obtain ⟨ks, hks, hrow⟩ := getCandidateList_shortest maxBytes maxFiles hfits
  have hsame : ks = (notSkipped v visited).map f := by
    rw [hskipped] at hks
    have hreached : (fun zs : List J => Reached w maxBytes maxFiles (zs.map f)) =
        Reached v maxBytes maxFiles := by
      funext zs
      rw [Reached, Reached, hbytes, List.length_map]
    exact hks.unique (ShortestPrefix.map (hreached ▸ hshort))
  refine ⟨notSkipped v visited, hexact.lists.candidates, ?_⟩
  rw [hrow, hsame, List.map_map]
  rfl

end

def ofRetrieveJob (j : RetrieveJobPointer) : QueuedJob :=
  ⟨j.address, j.copyNb % 2^16, j.size, j.destinationDiskSystemName⟩

def ofArchiveJob (j : ArchiveJobPointer) : QueuedJob := { j with copyNb := j.copyNb % 2^16 }

/-- The retrieve queue with its shards offers the candidates of its jobs in a row. -/
theorem retrieve_candidates_in_a_row {p : RetrieveQueue}
    {parts : ShardAddress → Option RetrieveQueueShard} (h : p.ShardsCoherent parts)
    (maxBytes : UInt64) (maxFiles : Nat) (elementsToSkip : List Address)
    (diskSystemsToSkip : List String) :
    ∃ l, p.getCandidateList parts maxBytes maxFiles elementsToSkip diskSystemsToSkip = .ok l ∧
      (getCandidateList (jobView elementsToSkip diskSystemsToSkip) maxBytes maxFiles
        ((p.queuedJobs parts).map ofRetrieveJob)).candidates =
        l.candidates.map fun cjfq => ⟨cjfq.address, cjfq.copyNb, cjfq.size⟩ := by
  obtain ⟨l, hrun, hl⟩ := h.candidates maxBytes maxFiles elementsToSkip diskSystemsToSkip
  obtain ⟨js, hjs, hrow⟩ := candidates_in_a_row
    (w := jobView elementsToSkip diskSystemsToSkip) (f := ofRetrieveJob) hl (fun _ => rfl)
    (fun _ => rfl) h.fits
  refine ⟨l, hrun, ?_⟩
  rw [hrow, hjs, List.map_map]
  rfl

theorem retrieve_candidates_in_a_row_two_shards :
    ∃ l, twoShardQueue.getCandidateList twoShards 5 100 ["a"] [] = .ok l ∧
      (getCandidateList (jobView ["a"] []) 5 100
        ((twoShardQueue.queuedJobs twoShards).map ofRetrieveJob)).candidates =
        l.candidates.map fun cjfq => ⟨cjfq.address, cjfq.copyNb, cjfq.size⟩ := by
  refine retrieve_candidates_in_a_row ⟨?_, ?_, ?_⟩ 5 100 ["a"] []
  · simp only [twoShardQueue, List.forall_mem_cons]
    refine ⟨⟨_, rfl, rfl, rfl, ?_, rfl⟩, ⟨_, rfl, rfl, rfl, ?_, rfl⟩, by simp⟩
    · simp [Lib.SortedByKey.SortedBy]
    · simp [Lib.SortedByKey.SortedBy, RetrieveQueue.JobToAdd.toPointer, RetrieveQueue.recallJob]
  · decide
  · decide

theorem archive_candidates_in_a_row {p : ArchiveQueue}
    {parts : ShardAddress → Option ArchiveQueueShard} (h : p.ShardsCoherent parts)
    (maxBytes : UInt64) (maxFiles : Nat) (elementsToSkip : List Address) :
    ∃ l, p.getCandidateList parts maxBytes maxFiles elementsToSkip = .ok l ∧
      (getCandidateList (archiveJobView elementsToSkip) maxBytes maxFiles
        ((p.queuedJobs parts).map ofArchiveJob)).candidates =
        l.candidates.map fun cjfq => ⟨cjfq.address, cjfq.copyNb, cjfq.size⟩ := by
  obtain ⟨l, hrun, hl⟩ := h.candidates maxBytes maxFiles elementsToSkip
  obtain ⟨js, hjs, hrow⟩ := candidates_in_a_row
    (w := archiveJobView elementsToSkip) (f := ofArchiveJob) hl (fun _ => rfl)
    (fun _ => rfl) h.fits
  refine ⟨l, hrun, ?_⟩
  rw [hrow, hjs, List.map_map]
  rfl

def PopState.jobsLeft (s : PopState) : List QueuedJob := (s.container.map (·.jobs)).getD []

def jobBytes (js : List QueuedJob) : Nat := (js.map (·.size.toNat)).sum

section
variable {k : Kind} {o : Outcome} {s : PopState} {cont : Container} {b : PoppedElementsBatch}
  {offer : PoppedElementsBatch × Container} {pc : PopCriteria} {elementsToSkip : List Address}

/-- The queue after the trimming, and whether it is taken for gone. -/
def Kind.trimmed (k : Kind) (o : Outcome) (offer : PoppedElementsBatch × Container) :
    Bool × Option Container :=
  k.trimContainerIfNeeded o.removalFails
    (offer.2.removeJobsAndCommit (toDereference offer.1.addresses (o.results offer.1)))

/-- A round in one form, whether elements failed or not. -/
def PopState.afterRound (s : PopState) (k : Kind) (o : Outcome)
    (offer : PoppedElementsBatch × Container) : PopState :=
  { s.report (k.withoutFailed offer.1 (o.results offer.1)) with
    elementsToSkip := s.elementsToSkip ++
      (decisions (o.results offer.1)).elementsNotToDereferenceFromContainer
    unexpectedException :=
      s.unexpectedException || (decisions (o.results offer.1)).unexpectedException
    didTrim := if failedOwnershipSwitchElements (o.results offer.1) = [] then (k.trimmed o offer).1
      else s.didTrim
    container := (k.trimmed o offer).2 }

theorem popRound_some (h : s.container = some cont) : popRound k o s = some (s.afterRound k o
    (k.getPoppingElementsCandidates o.now cont s.unfulfilledCriteria s.elementsToSkip)) := by
  rw [popRound, h, Option.map_some, Option.some.injEq]
  dsimp only
  generalize k.getPoppingElementsCandidates o.now cont s.unfulfilledCriteria s.elementsToSkip = offer
  split
  · next hnone =>
    have hdec : decisions (o.results offer.1) = {} := by rw [decisions, hnone, List.foldl_nil]
    have hall : toDereference offer.1.addresses (o.results offer.1) = offer.1.addresses := by
      simp [toDereference, hdec]
    have hsame : k.withoutFailed offer.1 (o.results offer.1) = offer.1 := by
      simp [Kind.withoutFailed, hdec]
    simp [PopState.afterRound, Kind.trimmed, hnone, hdec, hall, hsame, PopState.report]
  · next hsome =>
    simp [PopState.afterRound, Kind.trimmed, hsome, PopState.report]

theorem trimContainerIfNeeded_jobs (fails : Bool) :
    ((k.trimContainerIfNeeded fails cont).2.map (·.jobs)).getD [] = cont.jobs := by
  by_cases hnil : cont.jobs = []
  · cases k <;> cases fails <;>
      simp [Kind.trimContainerIfNeeded, RetrieveQueue.trimContainerIfNeeded,
        ArchiveQueue.trimContainerIfNeeded, removeQueueAndCommit, hnil]
  · cases k <;>
      simp [Kind.trimContainerIfNeeded, RetrieveQueue.trimContainerIfNeeded,
        ArchiveQueue.trimContainerIfNeeded, hnil]

/-- An empty queue is taken for gone even if it cannot be removed, a sleeping one too. -/
theorem trimContainerIfNeeded_gone (cont : Container) (fails : Bool)
    (h : cont.jobs = [] ∨ k = .retrieve ∧ cont.sleepInfo.isSome = true) :
    (k.trimContainerIfNeeded fails cont).1 = true := by
  by_cases hnil : cont.jobs = []
  · cases k <;> cases fails <;>
      simp [Kind.trimContainerIfNeeded, RetrieveQueue.trimContainerIfNeeded,
        ArchiveQueue.trimContainerIfNeeded, removeQueueAndCommit, hnil]
  · obtain ⟨rfl, hsleep⟩ := h.resolve_left hnil
    simp [Kind.trimContainerIfNeeded, RetrieveQueue.trimContainerIfNeeded, hnil, hsleep]

theorem reported_dereferenced {e : PoppedElement}
    (he : e ∈ (k.withoutFailed b (o.results b)).elements) :
    e ∈ b.elements ∧ e.address ∈ toDereference b.addresses (o.results b) := by
  obtain ⟨hmem, hrep⟩ := List.mem_filter.mp he
  refine ⟨hmem, mem_toDereference.mpr ⟨List.mem_map_of_mem hmem, fun hother => ?_⟩⟩
  have hin := (mem_foldl_sort e.address (failedOwnershipSwitchElements (o.results b)) {}).2.1.mpr
    (.inr ⟨.other, PopNextBatch.mem_failed.mpr hother, by decide⟩)
  exact of_decide_eq_true hrep hin

theorem candidates_dereferenced
    (h : (decisions (o.results b)).unexpectedException = false) :
    toDereference b.addresses (o.results b) = b.addresses ∧
      (decisions (o.results b)).elementsNotToDereferenceFromContainer = [] := by
  have hno : ∀ a, (a, SwitchFailure.other) ∉ failedOwnershipSwitchElements (o.results b) := by
    intro a ha
    have := unexpectedException_of_other a _ {} (.inr ha)
    rw [← decisions, h] at this
    contradiction
  have hnil : (decisions (o.results b)).elementsNotToDereferenceFromContainer = [] := by
    refine List.eq_nil_iff_forall_not_mem.mpr fun a ha => ?_
    have hmem := (mem_foldl_sort a (failedOwnershipSwitchElements (o.results b)) {}).1.mp ha
    simp only [List.not_mem_nil, false_or] at hmem
    exact hno a hmem
  exact ⟨by simp [toDereference, hnil], hnil⟩

theorem trimmed_jobs : ((k.trimmed o offer).2.map (·.jobs)).getD [] =
    offer.2.jobs.filter fun j =>
      decide (j.address ∉ toDereference offer.1.addresses (o.results offer.1)) :=
  trimContainerIfNeeded_jobs _

theorem bytesOf_toElement (js : List QueuedJob) :
    bytesOf (js.map QueuedJob.toElement) = jobBytes js := by
  rw [bytesOf, jobBytes, List.map_map]
  rfl

theorem jobBytes_sublist {js ks : List QueuedJob} (h : js.Sublist ks) :
    jobBytes js ≤ jobBytes ks :=
  (h.map _).sum_le_sum fun _ _ => Nat.zero_le _

theorem jobBytes_filter (js : List QueuedJob) (p : QueuedJob → Bool) :
    jobBytes (js.filter p) + jobBytes (js.filter fun j => !p j) = jobBytes js := by
  induction js with
  | nil => rfl
  | cons j js ih =>
    simp only [jobBytes] at ih ⊢
    cases h : p j <;> simp [h] <;> omega

theorem reported_bytes (h : Offered k pc elementsToSkip cont offer) :
    bytesOf (k.withoutFailed offer.1 (o.results offer.1)).elements +
        jobBytes (((k.trimmed o offer).2.map (·.jobs)).getD []) ≤ jobBytes cont.jobs := by
  obtain ⟨js, hjs, hel⟩ := h.queued
  rw [trimmed_jobs, h.jobs]
  let p : QueuedJob → Bool := fun j =>
    decide (j.address ∈ toDereference offer.1.addresses (o.results offer.1))
  let r : QueuedJob → Bool := fun j =>
    decide (j.address ∉ (decisions (o.results offer.1)).elementsNotToReport)
  have hrep : (k.withoutFailed offer.1 (o.results offer.1)).elements =
      (js.filter r).map QueuedJob.toElement := by
    simp only [Kind.withoutFailed]
    rw [hel, List.filter_map]
    rfl
  have hsub : (js.filter r).Sublist (cont.jobs.filter p) := by
    have hall : (js.filter r).filter p = js.filter r := by
      refine List.filter_eq_self.mpr fun j hj => ?_
      have hj' : j.toElement ∈ (k.withoutFailed offer.1 (o.results offer.1)).elements := by
        rw [hrep]
        exact List.mem_map_of_mem hj
      exact decide_eq_true (reported_dereferenced hj').2
    rw [← hall]
    exact (List.filter_sublist.trans hjs).filter p
  have hsplit := jobBytes_filter cont.jobs p
  have hle := jobBytes_sublist hsub
  rw [hrep, bytesOf_toElement]
  simp only [p, ← decide_not] at hsplit hle ⊢
  omega

end

section
variable {k : Kind} {o : Outcome} {s : PopState} {cont : Container} {pc : PopCriteria}
  {es : List PoppedElement}

def Kind.CountsBytes (k : Kind) (e : PoppedElement) : Prop := (k.getElementSummary e).bytes = e.bytes

theorem summaryOf_files_toNat (h : es.length < 2 ^ 64) :
    (k.summaryOf es).files.toNat = es.length := by
  induction es with
  | nil => rfl
  | cons e es ih =>
    rw [List.length_cons] at h
    have hone : (k.getElementSummary e).files = 1 := by cases k <;> rfl
    have := ih (by omega)
    simp only [Kind.summaryOf, List.map_cons, List.sum_cons, hone, UInt64.toNat_add] at this ⊢
    rw [this, List.length_cons, show (1 : UInt64).toNat = 1 from rfl]
    omega

theorem summaryOf_bytes_toNat (hc : ∀ e ∈ es, k.CountsBytes e) (h : bytesOf es < 2 ^ 64) :
    (k.summaryOf es).bytes.toNat = bytesOf es := by
  induction es with
  | nil => rfl
  | cons e es ih =>
    have he := hc e List.mem_cons_self
    simp only [bytesOf, List.map_cons, List.sum_cons] at h
    have := ih (fun f hf => hc f (List.mem_cons_of_mem e hf)) (by rw [bytesOf]; omega)
    simp only [Kind.summaryOf, List.map_cons, List.sum_cons, UInt64.toNat_add] at this ⊢
    rw [this, he, bytesOf, bytesOf, List.map_cons, List.sum_cons]
    omega

structure Counting (k : Kind) (pc : PopCriteria) (s : PopState) : Prop where
  summary : s.ret.summary = k.summaryOf s.ret.elements
  unfulfilled : s.unfulfilledCriteria = pc.less s.ret.summary
  elements : ∀ e ∈ s.ret.elements, k.CountsBytes e
  left : ∀ j ∈ s.jobsLeft, k.CountsBytes j.toElement
  fits : bytesOf s.ret.elements + jobBytes s.jobsLeft < 2 ^ 64
  atMost : s.ret.elements.length ≤ pc.files.toNat
  before : ∀ es e, s.ret.elements = es ++ [e] → bytesOf es < pc.bytes.toNat
  skip : s.unexpectedException = false → s.elementsToSkip = []

theorem bytesOf_append (es fs : List PoppedElement) :
    bytesOf (es ++ fs) = bytesOf es + bytesOf fs := by
  simp [bytesOf]

theorem bytesOf_sublist {fs : List PoppedElement} (h : es.Sublist fs) : bytesOf es ≤ bytesOf fs :=
  (h.map _).sum_le_sum fun _ _ => Nat.zero_le _

theorem goesOn_iff : s.goesOn pc = true ↔ s.unexpectedException = false ∧
    s.ret.summary.bytes < pc.bytes ∧ s.ret.summary.files < pc.files ∧ s.didTrim = false := by
  simp [PopState.goesOn, PoppedElementsSummary.below, and_assoc]

theorem Counting.exact (h : Counting k pc s) :
    s.ret.summary.files.toNat = s.ret.elements.length ∧
      s.ret.summary.bytes.toNat = bytesOf s.ret.elements := by
  have hlen := h.atMost
  have hfits := h.fits
  have := pc.files.toNat_lt
  rw [h.summary]
  exact ⟨summaryOf_files_toNat (by omega), summaryOf_bytes_toNat h.elements (by omega)⟩

theorem Counting.noUnderflow (h : Counting k pc s) (hgo : s.goesOn pc = true) :
    s.unfulfilledCriteria.files.toNat + s.ret.elements.length = pc.files.toNat ∧
      s.unfulfilledCriteria.bytes.toNat + bytesOf s.ret.elements = pc.bytes.toNat := by
  obtain ⟨-, hbytes, hfiles, -⟩ := goesOn_iff.mp hgo
  obtain ⟨hf, hb⟩ := h.exact
  have hf' := UInt64.toNat_sub_of_le _ _ (UInt64.le_of_lt hfiles)
  have hb' := UInt64.toNat_sub_of_le _ _ (UInt64.le_of_lt hbytes)
  rw [UInt64.lt_iff_toNat_lt] at hbytes hfiles
  rw [h.unfulfilled]
  simp only [PopCriteria.less, hf', hb']
  omega

theorem Counting.accounted (h : Counting k pc s) : Accounted pc s where
  files := h.exact.1
  bytes := h.exact.2
  unfulfilled := h.unfulfilled
  noUnderflow := h.noUnderflow
  atMost := h.atMost
  overshoot es e hes := by
    have := h.before es e hes
    rw [hes, bytesOf_append]
    simpa [bytesOf] using this

theorem sublist_of_append_singleton {α : Type} {xs ys : List α} {x y : α}
    (h : (xs ++ [x]).Sublist (ys ++ [y])) : xs.Sublist ys := by
  have := h.reverse.tail
  simpa using this

theorem Counting.unfulfilled_pos (h : Counting k pc s) (hgo : s.goesOn pc = true) :
    0 < s.unfulfilledCriteria.bytes ∧ 0 < s.unfulfilledCriteria.files.toNat := by
  obtain ⟨-, hbytes, hfiles, -⟩ := goesOn_iff.mp hgo
  obtain ⟨hf, hb⟩ := h.exact
  obtain ⟨hf', hb'⟩ := h.noUnderflow hgo
  rw [UInt64.lt_iff_toNat_lt] at hbytes hfiles ⊢
  rw [UInt64.toNat_zero]
  omega

theorem Counting.offered (h : Counting k pc s) (hgo : s.goesOn pc = true)
    (hcont : s.container = some cont) : Offered k s.unfulfilledCriteria s.elementsToSkip cont
      (k.getPoppingElementsCandidates o.now cont s.unfulfilledCriteria s.elementsToSkip) := by
  obtain ⟨hbytes, hfiles⟩ := h.unfulfilled_pos hgo
  refine Popping.offered k _ o.now s.elementsToSkip hbytes hfiles ?_
  have := h.fits
  simp only [PopState.jobsLeft, hcont, Option.map_some, Option.getD_some, jobBytes] at this
  omega

theorem Counting.candidates_before (h : Counting k pc s) (hgo : s.goesOn pc = true)
    (hcont : s.container = some cont) {offer : PoppedElementsBatch × Container}
    (hoff : Offered k s.unfulfilledCriteria s.elementsToSkip cont offer)
    {e : PoppedElement} (hes : offer.1.elements = es ++ [e]) :
    bytesOf es < s.unfulfilledCriteria.bytes.toNat ∧
      es.length < s.unfulfilledCriteria.files.toNat := by
  obtain ⟨hbytes, hlen⟩ := hoff.before es e hes
  refine ⟨?_, hlen⟩
  by_cases hk : k = .archiveForRepack
  · -- these sizes are all zero
    subst hk
    obtain ⟨js, hjs, hel⟩ := hoff.queued
    have hzero : ∀ f ∈ es, f.bytes.toNat = 0 := by
      intro f hf
      have hf' : f ∈ js.map QueuedJob.toElement := by
        rw [← hel, hes]
        exact List.mem_append_left _ hf
      obtain ⟨j, hj, rfl⟩ := List.mem_map.mp hf'
      have hleft : j ∈ s.jobsLeft := by
        rw [PopState.jobsLeft, hcont]
        exact hjs.subset hj
      have hcount : (0 : UInt64) = j.toElement.bytes := h.left j hleft
      rw [← hcount, UInt64.toNat_zero]
    have hpos := UInt64.lt_iff_toNat_lt.mp (h.unfulfilled_pos hgo).1
    rw [UInt64.toNat_zero] at hpos
    have hsum : bytesOf es = 0 := List.sum_eq_zero (by simpa using hzero)
    omega
  · rwa [Kind.maxBytes, if_neg hk] at hbytes

theorem less_less (a b : PoppedElementsSummary) : (pc.less a).less b = pc.less (a + b) := by
  simp [PopCriteria.less, sub_sub]

theorem Counting.round (h : Counting k pc s) (hgo : s.goesOn pc = true)
    (hcont : s.container = some cont) {offer : PoppedElementsBatch × Container}
    (hoff : Offered k s.unfulfilledCriteria s.elementsToSkip cont offer) :
    Counting k pc (s.afterRound k o offer) := by
  obtain ⟨js, hjs, hel⟩ := hoff.queued
  have hjobs : s.jobsLeft = cont.jobs := by rw [PopState.jobsLeft, hcont]; rfl
  let reported := (k.withoutFailed offer.1 (o.results offer.1)).elements
  have hret : (s.afterRound k o offer).ret.elements = s.ret.elements ++ reported := rfl
  have hsub : reported.Sublist offer.1.elements := List.filter_sublist
  have hleft : (s.afterRound k o offer).jobsLeft =
      ((k.trimmed o offer).2.map (·.jobs)).getD [] := rfl
  obtain ⟨hfiles, hbytes⟩ := h.noUnderflow hgo
  refine ⟨?_, ?_, ?_, ?_, ?_, ?_, ?_, ?_⟩
  · rw [hret, summaryOf_append, ← h.summary]
    exact congrArg (s.ret.summary + ·) (withoutFailed_summary hoff.summary)
  · change s.unfulfilledCriteria.less _ = pc.less _
    rw [h.unfulfilled, less_less]
    rfl
  · rw [hret]
    intro e he
    rcases List.mem_append.mp he with he | he
    · exact h.elements e he
    · have he' := hsub.subset he
      rw [hel] at he'
      obtain ⟨j, hj, rfl⟩ := List.mem_map.mp he'
      exact h.left j (hjobs ▸ hjs.subset hj)
  · rw [hleft, trimmed_jobs, hoff.jobs, ← hjobs]
    exact fun j hj => h.left j (List.mem_of_mem_filter hj)
  · have hle := reported_bytes (o := o) hoff
    have hfits := h.fits
    rw [hret, bytesOf_append, hleft]
    rw [hjobs] at hfits
    change bytesOf reported + _ ≤ _ at hle
    omega
  · rw [hret, List.length_append]
    have hlen := hsub.length_le
    rcases List.eq_nil_or_concat' offer.1.elements with hnil | ⟨cs, c, hcs⟩
    · rw [hnil] at hlen
      simp only [List.length_nil] at hlen
      omega
    · have := (h.candidates_before hgo hcont hoff hcs).2
      rw [hcs, List.length_append, List.length_singleton] at hlen
      omega
  · intro es e hes
    rw [hret] at hes
    rcases List.eq_nil_or_concat' reported with hnil | ⟨rs, r, hrs⟩
    · rw [hnil, List.append_nil] at hes
      exact h.before es e hes
    · rw [hrs, ← List.append_assoc] at hes
      obtain ⟨rfl, -⟩ := List.append_inj' hes rfl
      rcases List.eq_nil_or_concat' offer.1.elements with hnone | ⟨cs, c, hcs⟩
      · rw [hnone, List.sublist_nil, hrs] at hsub
        simp at hsub
      · rw [hrs, hcs] at hsub
        have hle := bytesOf_sublist (sublist_of_append_singleton hsub)
        have := (h.candidates_before hgo hcont hoff hcs).1
        rw [bytesOf_append]
        omega
  · intro hno
    obtain ⟨hs, hd⟩ := Bool.or_eq_false_iff.mp
      (show (s.unexpectedException || (decisions (o.results offer.1)).unexpectedException) = false
        from hno)
    change s.elementsToSkip ++ _ = []
    rw [h.skip hs, (candidates_dereferenced hd).2]
    rfl

def PopState.size (s : PopState) : Nat := s.container.elim 0 fun c => c.jobs.length + 1

theorem size_le (s : PopState) : s.size ≤ s.jobsLeft.length + 1 := by
  cases h : s.container <;> simp [PopState.size, PopState.jobsLeft, h]

theorem Counting.progress (h : Counting k pc s) (hgo : s.goesOn pc = true)
    (hcont : s.container = some cont) {offer : PoppedElementsBatch × Container}
    (hoff : Offered k s.unfulfilledCriteria s.elementsToSkip cont offer) :
    (s.afterRound k o offer).goesOn pc = false ∨ (s.afterRound k o offer).size < s.size := by
  rw [Bool.eq_false_iff, ne_eq, goesOn_iff]
  by_cases hnil : offer.1.elements = []
  · left
    rintro ⟨-, -, -, htrim⟩
    have hnone : failedOwnershipSwitchElements (o.results offer.1) = [] := by
      simp [Outcome.results, hnil, failedOwnershipSwitchElements]
    have hkeep : offer.2.removeJobsAndCommit (toDereference offer.1.addresses
        (o.results offer.1)) = offer.2 := by
      simp [Container.removeJobsAndCommit, toDereference, PoppedElementsBatch.addresses, hnil]
    have hgone := trimContainerIfNeeded_gone (k := k) offer.2 o.removalFails
      (hoff.jobs ▸ hoff.none (h.skip (goesOn_iff.mp hgo).1) hnil)
    simp only [PopState.afterRound, hnone, if_true, Kind.trimmed, hkeep, hgone] at htrim
    contradiction
  · by_cases hexc : (decisions (o.results offer.1)).unexpectedException = true
    · left
      rintro ⟨hno, -⟩
      simp [PopState.afterRound, hexc] at hno
    · refine .inr (Nat.lt_of_le_of_lt (size_le _) ?_)
      obtain ⟨js, hjs, hel⟩ := hoff.queued
      obtain ⟨j, js', rfl⟩ := List.exists_cons_of_ne_nil (l := js) fun hjs' => by
        rw [hjs'] at hel
        exact hnil hel
      have hj : j ∈ cont.jobs := hjs.subset List.mem_cons_self
      have hlt : (s.afterRound k o offer).jobsLeft.length < cont.jobs.length := by
        change (((k.trimmed o offer).2.map (·.jobs)).getD []).length < _
        rw [trimmed_jobs, hoff.jobs, List.length_filter_lt_length_iff_exists,
          (candidates_dereferenced (Bool.not_eq_true _ ▸ hexc)).1]
        refine ⟨j, hj, ?_⟩
        simp [PoppedElementsBatch.addresses, hel, QueuedJob.toElement]
      simp only [PopState.size, hcont, Option.elim_some]
      omega

end

section
variable {k : Kind} {pc : PopCriteria} {cont : Container} {outcomes : Nat → Outcome}

theorem popLoop_returns {s : PopState} (h : Counting k pc s) {n : Nat}
    (hhead : Head k pc cont outcomes n s) : ∃ rounds m s',
      Head k pc cont outcomes m s' ∧ popLoop k pc outcomes rounds n s = some s'.ret := by
  induction hsize : s.size using Nat.strong_induction_on generalizing s n with
  | _ size ih =>
    subst hsize
    by_cases hgo : s.goesOn pc = true
    · cases hcont : s.container with
      | none =>
        refine ⟨1, n, s, hhead, ?_⟩
        simp [popLoop, hgo, popRound, hcont]
      | some c =>
        have hoff := h.offered (o := outcomes n) hgo hcont
        have hround := popRound_some (k := k) (o := outcomes n) hcont
        have hnext := Head.next hhead hgo hround
        have hcount := h.round (o := outcomes n) hgo hcont hoff
        rcases h.progress (o := outcomes n) hgo hcont hoff with hstop | hless
        · refine ⟨1, n + 1, _, hnext, ?_⟩
          simp only [popLoop, hgo, if_true, hround]
          rw [if_neg (by simp [hstop])]
        · obtain ⟨rounds, m, s', hhead', hrun⟩ := ih _ hless hcount hnext rfl
          refine ⟨rounds + 1, m, s', hhead', ?_⟩
          simp only [popLoop, hgo, if_true, hround]
          exact hrun
    · refine ⟨0, n, s, hhead, ?_⟩
      simp [popLoop, hgo]

theorem Counting.head (h : Counting k pc (startPop pc cont)) {n : Nat} {s : PopState}
    (hhead : Head k pc cont outcomes n s) : Counting k pc s := by
  induction hhead with
  | start => exact h
  | next hhead hgo hround ih =>
    rename_i n s s'
    cases hcont : s.container with
    | none => simp [popRound, hcont] at hround
    | some c =>
      rw [popRound_some hcont, Option.some.injEq] at hround
      subst hround
      exact ih.round hgo hcont (ih.offered hgo hcont)

theorem Counting.popsExactly (h : Counting k pc (startPop pc cont)) :
    PopsExactly k pc cont outcomes where
  rounds _ _ hhead := (h.head hhead).accounted
  returns := popLoop_returns h .start

/-- Every request is queued once, and the sizes add up to less than 2^64. -/
structure WellQueued (cont : Container) : Prop where
  once : (cont.jobs.map (·.address)).Nodup
  fits : (cont.jobs.map (·.size.toNat)).sum < 2 ^ 64

theorem accounted_startPop (pc : PopCriteria) (cont : Container) :
    Accounted pc (startPop pc cont) where
  files := rfl
  bytes := rfl
  unfulfilled := by simp [startPop, PopCriteria.less]
  noUnderflow _ := ⟨rfl, rfl⟩
  atMost := Nat.zero_le _
  overshoot := by simp [startPop]

theorem BytesCount.popsExactly (h : BytesCount k pc cont) (hq : WellQueued cont) :
    PopsExactly k pc cont outcomes := by
  have hcounting : (∀ j ∈ cont.jobs, k.CountsBytes j.toElement) →
      PopsExactly k pc cont outcomes := by
    intro hcount
    refine Counting.popsExactly ⟨?_, ?_, by simp [startPop], hcount, ?_, ?_, ?_, fun _ => rfl⟩
    · rfl
    · simp [startPop, PopCriteria.less]
    · simpa [startPop, PopState.jobsLeft, bytesOf, jobBytes] using hq.fits
    · exact Nat.zero_le _
    · simp [startPop]
  have hnone : pc.files = 0 ∨ pc.bytes = 0 → PopsExactly k pc cont outcomes := by
    intro hzero
    have hstop : (startPop pc cont).goesOn pc = false := by
      rw [Bool.eq_false_iff, ne_eq, goesOn_iff]
      rintro ⟨-, hbytes, hfiles, -⟩
      rcases hzero with h0 | h0 <;> simp [h0] at hbytes hfiles
    have honly : ∀ n s, Head k pc cont outcomes n s → s = startPop pc cont := by
      intro n s hhead
      induction hhead with
      | start => rfl
      | next _ hgo _ ih =>
        rw [ih, hstop] at hgo
        contradiction
    refine ⟨fun n s hhead => honly n s hhead ▸ accounted_startPop pc cont, 0, 0, _, .start, ?_⟩
    simp [popNextBatch, popLoop, hstop]
  rcases h with hk | hfiles | hbytes | hsizes
  · refine hcounting fun j _ => ?_
    cases k with
    | retrieve => rfl
    | archiveForUser => rfl
    | archiveForRepack => exact absurd rfl hk
  · exact hnone (.inl hfiles)
  · exact hnone (.inr hbytes)
  · refine hcounting fun j hj => ?_
    have hsize : j.toElement.bytes = 0 := hsizes j hj
    cases k <;> simp [Kind.CountsBytes, Kind.getElementSummary, hsize]

def allGoneBut (a : Address) : Outcome where
  failure e := if e.address = a then none else some .noSuchObject

theorem unexpectedException_of_no_other (fs : List (Address × SwitchFailure)) (d : Decisions)
    (h : ∀ x ∈ fs, x.2 ≠ .other) :
    (fs.foldl Decisions.sort d).unexpectedException = d.unexpectedException := by
  induction fs generalizing d with
  | nil => rfl
  | cons x fs ih =>
    obtain ⟨a, f⟩ := x
    rw [List.foldl_cons, ih _ fun y hy => h y (List.mem_cons_of_mem _ hy)]
    have hf : f ≠ .other := h (a, f) List.mem_cons_self
    cases f with
    | noSuchObject => rfl
    | wrongPreviousOwner => rfl
    | couldNotUnlock => rfl
    | other => exact absurd rfl hf

theorem mem_failed_allGoneBut {a : Address} {b : PoppedElementsBatch} {c : Address}
    {f : SwitchFailure} : (c, f) ∈ failedOwnershipSwitchElements ((allGoneBut a).results b) ↔
      (c ∈ b.addresses ∧ c ≠ a) ∧ f = .noSuchObject := by
  rw [PopNextBatch.mem_failed]
  simp only [Outcome.results, allGoneBut, PoppedElementsBatch.addresses, List.mem_map,
    Prod.mk.injEq]
  constructor
  · rintro ⟨e, he, rfl, hf⟩
    split at hf
    · contradiction
    · next hne => exact ⟨⟨⟨e, he, rfl⟩, hne⟩, (Option.some.inj hf).symm⟩
  · rintro ⟨⟨⟨e, he, rfl⟩, hne⟩, rfl⟩
    exact ⟨e, he, rfl, if_neg hne⟩

theorem decisions_allGoneBut (a : Address) (b : PoppedElementsBatch) :
    (decisions ((allGoneBut a).results b)).unexpectedException = false ∧
      ∀ c, c ∈ (decisions ((allGoneBut a).results b)).elementsNotToReport ↔
        c ∈ b.addresses ∧ c ≠ a := by
  refine ⟨unexpectedException_of_no_other _ {} fun x hx => ?_, fun c => ?_⟩
  · rw [(mem_failed_allGoneBut.mp hx).2]
    decide
  · rw [decisions, (mem_foldl_sort c _ {}).2.1]
    simp only [List.not_mem_nil, false_or, mem_failed_allGoneBut]
    constructor
    · rintro ⟨f, ⟨hc, -⟩, -⟩
      exact hc
    · exact fun hc => ⟨.noSuchObject, ⟨hc, rfl⟩, by decide⟩

/-- A round in which no candidate is there leaves the pop where it started, with fewer jobs. -/
theorem afterRound_allGoneBut {a : Address} {c : Container}
    {offer : PoppedElementsBatch × Container} (hoff : Offered .archiveForRepack pc [] c offer)
    (hother : ∀ e ∈ offer.1.elements, e.address ≠ a) (hne : offer.1.elements ≠ [])
    (hleft : (offer.2.removeJobsAndCommit offer.1.addresses).jobs ≠ []) :
    (startPop pc c).afterRound .archiveForRepack (allGoneBut a) offer =
      startPop pc (offer.2.removeJobsAndCommit offer.1.addresses) := by
  obtain ⟨hexc, hrep⟩ := decisions_allGoneBut a offer.1
  obtain ⟨hall, hskip⟩ := candidates_dereferenced hexc
  have hnone : (Kind.withoutFailed .archiveForRepack offer.1
      ((allGoneBut a).results offer.1)).elements = [] := by
    refine List.filter_eq_nil_iff.mpr fun e he hkeep => of_decide_eq_true hkeep ?_
    exact (hrep _).mpr ⟨List.mem_map_of_mem he, hother e he⟩
  have hzero : (Kind.withoutFailed .archiveForRepack offer.1
      ((allGoneBut a).results offer.1)).summary = {} := by
    rw [withoutFailed_summary hoff.summary, hnone]
    rfl
  have hfailed : failedOwnershipSwitchElements ((allGoneBut a).results offer.1) ≠ [] := by
    obtain ⟨e, es, he⟩ := List.exists_cons_of_ne_nil hne
    have hmem : e ∈ offer.1.elements := by simp [he]
    exact List.ne_nil_of_mem
      (mem_failed_allGoneBut.mpr ⟨⟨List.mem_map_of_mem hmem, hother e hmem⟩, rfl⟩)
  have htrim : (Kind.trimmed .archiveForRepack (allGoneBut a) offer).2 =
      some (offer.2.removeJobsAndCommit offer.1.addresses) := by
    rw [Kind.trimmed, hall, Kind.trimContainerIfNeeded, ArchiveQueue.trimContainerIfNeeded,
      if_pos hleft]
  simp only [PopState.afterRound, PopState.report, startPop, hnone, hzero, hfailed, if_false,
    hexc, hskip, htrim]
  congr 1
  simp [PopCriteria.less]

/-- A pop that finds but one request, of a size that is not zero, does not count its bytes. -/
theorem not_accounted_repack {j : QueuedJob} (hsize : j.size ≠ 0) (hfiles : pc.files ≠ 0)
    (hbytes : pc.bytes ≠ 0) {c : Container} (hq : WellQueued c) (hj : j ∈ c.jobs) {n : Nat}
    (hhead : Head .archiveForRepack pc cont (fun _ => allGoneBut j.address) n (startPop pc c)) :
    ∃ m s, Head .archiveForRepack pc cont (fun _ => allGoneBut j.address) m s ∧
      ¬Accounted pc s := by
  induction hlen : c.jobs.length using Nat.strong_induction_on generalizing c n with
  | _ len ih =>
    subst hlen
    have hpos : 0 < pc.bytes ∧ 0 < pc.files := by
      rw [UInt64.lt_iff_toNat_lt, UInt64.lt_iff_toNat_lt, UInt64.toNat_zero]
      rw [ne_eq, ← UInt64.toNat_inj, UInt64.toNat_zero] at hfiles hbytes
      omega
    have hgo : (startPop pc c).goesOn pc = true := goesOn_iff.mpr ⟨rfl, hpos.1, hpos.2, rfl⟩
    have hcont : (startPop pc c).container = some c := rfl
    have hround := popRound_some (k := .archiveForRepack) (o := allGoneBut j.address) hcont
    have hoff := offered .archiveForRepack pc (allGoneBut j.address).now [] hpos.1
      (UInt64.lt_iff_toNat_lt.mp hpos.2) hq.fits
    have hnext := hhead.next hgo hround
    change Offered _ _ _ _ (Kind.getPoppingElementsCandidates (allGoneBut j.address).now c
      (startPop pc c).unfulfilledCriteria (startPop pc c).elementsToSkip .archiveForRepack) at hoff
    revert hoff hnext
    generalize Kind.getPoppingElementsCandidates (allGoneBut j.address).now c
      (startPop pc c).unfulfilledCriteria (startPop pc c).elementsToSkip .archiveForRepack = offer
    intro hnext hoff
    obtain ⟨hexc, hrep⟩ := decisions_allGoneBut j.address offer.1
    obtain ⟨js, hjs, hel⟩ := hoff.queued
    by_cases hmem : j ∈ js
    · -- its size is not in the summary
      refine ⟨_, _, hnext, fun hacc => ?_⟩
      have hin : j.toElement ∈ (Kind.withoutFailed .archiveForRepack offer.1
          ((allGoneBut j.address).results offer.1)).elements := by
        refine List.mem_filter.mpr ⟨hel ▸ List.mem_map_of_mem hmem, decide_eq_true fun hbad => ?_⟩
        exact ((hrep _).mp hbad).2 rfl
      have hle : j.size.toNat ≤ bytesOf ((startPop pc c).afterRound .archiveForRepack
          (allGoneBut j.address) offer).ret.elements :=
        List.le_sum_of_mem (List.mem_map_of_mem (f := (·.bytes.toNat)) hin)
      have hzero : ((startPop pc c).afterRound .archiveForRepack
          (allGoneBut j.address) offer).ret.summary.bytes = 0 := by
        change ({} + (Kind.withoutFailed .archiveForRepack offer.1 _).summary :
          PoppedElementsSummary).bytes = 0
        rw [withoutFailed_summary hoff.summary]
        simp [Kind.summaryOf, Kind.getElementSummary]
      have := hacc.bytes
      rw [hzero, UInt64.toNat_zero] at this
      rw [ne_eq, ← UInt64.toNat_inj, UInt64.toNat_zero] at hsize
      omega
    · -- none of the candidates is there, and the pop goes on as from the start
      have hother : ∀ e ∈ offer.1.elements, e.address ≠ j.address := by
        rw [hel]
        intro e he haddr
        obtain ⟨i, hi, rfl⟩ := List.mem_map.mp he
        have hij := List.inj_on_of_nodup_map hq.once (hjs.subset hi) hj haddr
        exact hmem (hij ▸ hi)
      have hstay : j ∈ (offer.2.removeJobsAndCommit offer.1.addresses).jobs := by
        refine List.mem_filter.mpr ⟨hoff.jobs ▸ hj, decide_eq_true fun hbad => ?_⟩
        obtain ⟨e, he, haddr⟩ := List.mem_map.mp hbad
        exact hother e he haddr
      have hne : offer.1.elements ≠ [] := fun hnil =>
        (hoff.none rfl hnil).elim (List.ne_nil_of_mem hj) fun h => absurd h.1 (by decide)
      rw [afterRound_allGoneBut hoff hother hne (List.ne_nil_of_mem hstay)] at hnext
      have hsub : (offer.2.removeJobsAndCommit offer.1.addresses).jobs.Sublist c.jobs := by
        rw [← hoff.jobs]
        exact List.filter_sublist
      refine ih _ ?_ ⟨(hsub.map _).nodup hq.once, ?_⟩ hstay hnext rfl
      · obtain ⟨e, es, he⟩ := List.exists_cons_of_ne_nil hne
        have hmem : e ∈ js.map QueuedJob.toElement := by
          rw [← hel, he]
          exact List.mem_cons_self
        obtain ⟨i, hi, rfl⟩ := List.mem_map.mp hmem
        rw [Container.removeJobsAndCommit, hoff.jobs, List.length_filter_lt_length_iff_exists]
        refine ⟨i, hjs.subset hi, ?_⟩
        simp [PoppedElementsBatch.addresses, he, QueuedJob.toElement]
      · exact Nat.lt_of_le_of_lt (jobBytes_sublist hsub) hq.fits

theorem pops_exactly_iff (k : Kind) (pc : PopCriteria) (cont : Container) (h : WellQueued cont) :
    (∀ outcomes, PopsExactly k pc cont outcomes) ↔ BytesCount k pc cont := by
  refine ⟨fun hpops => ?_, fun hcount _ => hcount.popsExactly h⟩
  by_contra hno
  simp only [BytesCount, not_or, not_forall, ne_eq, not_not] at hno
  obtain ⟨rfl, hfiles, hbytes, j, hj, hsize⟩ := hno
  have hstart : Head .archiveForRepack pc cont (fun _ => allGoneBut j.address) 0
      (startPop pc cont) := .start
  obtain ⟨m, s, hhead, hwrong⟩ := not_accounted_repack hsize hfiles hbytes h hj hstart
  exact hwrong ((hpops _).rounds m s hhead)

end

def fullDiskSystem : PopCriteria := { files := 10, bytes := 100, diskSystemsToSkip := [⟨"full", 60⟩] }

def mixedQueue : Container := {
  jobs := [⟨"a", 1, 10, some "free"⟩, ⟨"b", 1, 10, some "full"⟩] }

theorem pops_exactly_iff_full_disk_system :
    BytesCount .retrieve fullDiskSystem mixedQueue ∧
      ∀ outcomes, PopsExactly .retrieve fullDiskSystem mixedQueue outcomes := by
  have hcount : BytesCount .retrieve fullDiskSystem mixedQueue := .inl (by decide)
  exact ⟨hcount, (pops_exactly_iff .retrieve fullDiskSystem mixedQueue
    ⟨by decide, by decide⟩).mpr hcount⟩

def repackCriteria : PopCriteria := { files := 10, bytes := 5 }

def repackQueue : Container := { jobs := [⟨"a", 1, 10, none⟩, ⟨"b", 1, 10, none⟩] }

def nothingFails : Outcome := { failure := fun _ => none }

example : popNextBatch .archiveForRepack repackCriteria repackQueue (fun _ => nothingFails) 1 =
    some ⟨[⟨"a", 1, 10⟩, ⟨"b", 1, 10⟩], ⟨2, 0⟩⟩ := by
  decide +kernel

theorem pops_exactly_not_repackQueue :
    ¬ ∀ (k : Kind) (pc : PopCriteria) (cont : Container) (outcomes : Nat → Outcome),
      WellQueued cont → PopsExactly k pc cont outcomes := by
  intro h
  have hpops := h .archiveForRepack repackCriteria repackQueue (fun _ => nothingFails)
    ⟨by decide, by decide⟩
  have hbytes := (hpops.rounds 1 _ (.next .start (by decide) (popRound_some rfl))).bytes
  exact absurd hbytes (by decide +kernel)

end Cta.ObjectStore.Popping
