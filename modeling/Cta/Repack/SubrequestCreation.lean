import Cta.Lib.Batches
import Cta.Repack.RepackRequest
import Mathlib.Data.Finset.Dedup
import Mathlib.Data.List.Induction

/-! Creation and queueing of the sub-requests of an expanded repack request, in batches. -/
namespace Cta.Repack
open Cta.ObjectStore (Address)
open Cta.Lib.Batches

structure TapeFile where
  vid : String
  fSeq : Nat
  copyNb : Nat
  deriving DecidableEq, Repr

structure RetrieveSubrequest extends Subrequest where
  storageClass : String
  tapeFiles : List TapeFile
  deriving DecidableEq

inductive Insertion where
  | notNewObject
  | launchFailed
  | waitFailed
  | inserted
  deriving DecidableEq, Repr

/-- Tapepools of the archive routes of a storage class, the choice of a tape among some, which
fails if none is available, and the insertions. -/
structure CreationContext where
  repackVid : String
  noRecall : Bool := false
  archiveRoutesMap : String → Option (List (Nat × String))
  selectBestRetrieveQueue : RetrieveSubrequest → List String → Option String
  insertion : RetrieveSubrequest → Insertion

/-- Queue that a created request goes to: a file that the user provided is reported as
retrieved. -/
inductive DestinationQueue where
  | toReportToRepackForSuccess
  | toTransfer (vid : String)
  deriving DecidableEq, Repr

inductive Creation where
  | skipped
  | sameTapepool
  | notLaunched
  | notInserted
  | queued (queue : DestinationQueue)
  deriving DecidableEq, Repr

/-- The tape to repack if it can be read, else the best of all tapes of the file. -/
def CreationContext.bestVid (ctx : CreationContext) (rsr : RetrieveSubrequest) : Option String :=
  let candidateVids := rsr.tapeFiles.map TapeFile.vid
  if ctx.noRecall then some ctx.repackVid
  else if ctx.repackVid ∈ candidateVids ∧
      (ctx.selectBestRetrieveQueue rsr [ctx.repackVid]).isSome then some ctx.repackVid
  else ctx.selectBestRetrieveQueue rsr candidateVids

def CreationContext.create (ctx : CreationContext) (subrequestDeleted : Nat → Bool)
    (rsr : RetrieveSubrequest) : Creation :=
  if subrequestDeleted rsr.fSeq then .skipped
  else match ctx.archiveRoutesMap rsr.storageClass with
    | none => .notLaunched
    | some routes =>
      if ¬ (routes.map Prod.snd).Nodup then .sameTapepool
      else match ctx.bestVid rsr with
        | none => .notLaunched
        | some bestVid =>
          if bestVid ∉ rsr.tapeFiles.map TapeFile.vid then .notLaunched
          else match ctx.insertion rsr with
            | .notNewObject => .skipped
            | .launchFailed => .notLaunched
            | .waitFailed => .notInserted
            | .inserted =>
              .queued (if rsr.hasUserProvidedFile then .toReportToRepackForSuccess
                else .toTransfer bestVid)

inductive CreationError where
  | expandRepackRequestException
  deriving DecidableEq, Repr

def Creation.queue : Creation → Option DestinationQueue
  | .queued q => some q
  | .skipped | .sameTapepool | .notLaunched | .notInserted => none

/-- The requests of a batch that are not created: first those whose insertion is not even
launched. -/
def notCreatedOf (create : RetrieveSubrequest → Creation) (batch : List RetrieveSubrequest) :
    List RetrieveSubrequest :=
  batch.filter (create · = .notLaunched) ++ batch.filter (create · = .notInserted)

def queuesOf (create : RetrieveSubrequest → Creation) (batch : List RetrieveSubrequest) :
    List DestinationQueue :=
  batch.filterMap fun rsr => (create rsr).queue

/-- The loop over the batches. The list of requests that are not created goes on from batch to
batch, and the number that is returned is the number of queues of the sorter. -/
def addBatches (create : RetrieveSubrequest → Creation) :
    List (List RetrieveSubrequest) → RepackRequest → List RetrieveSubrequest → Nat →
      Except CreationError (RepackRequest × Nat)
  | [], r, _, nbRetrieveSubrequestsCreated => .ok (r, nbRetrieveSubrequestsCreated)
  | batch :: rest, r, notCreatedSubrequests, _ =>
    if ∃ rsr ∈ batch, create rsr = .sameTapepool then .error .expandRepackRequestException
    else
      let notCreatedSubrequests := notCreatedSubrequests ++ notCreatedOf create batch
      let r := if notCreatedSubrequests.isEmpty then r
        else reportRetrieveCreationFailures r
          (notCreatedSubrequests.map RetrieveSubrequest.toSubrequest)
      addBatches create rest r notCreatedSubrequests (queuesOf create batch).dedup.length

def RepackRequest.subrequestDeleted (r : RepackRequest) (fSeq : Nat) : Bool :=
  (r.subrequests fSeq).any SubRequestPointer.subrequestDeleted

def addSubrequestsAndUpdateStats (ctx : CreationContext) (nextId : Nat → Address)
    (totalStatsFiles : TotalStatsFiles) (r : RepackRequest)
    (repackSubrequests : List RetrieveSubrequest) : Except CreationError (RepackRequest × Nat) :=
  let r := (r.getOrPrepareSubrequestInfo (repackSubrequests.map (·.fSeq)) nextId).setTotalStats
    totalStatsFiles
  addBatches (ctx.create r.subrequestDeleted) (batches 500 (by omega) repackSubrequests) r [] 0

variable {create : RetrieveSubrequest → Creation} {bs : List (List RetrieveSubrequest)}
  {r q : RepackRequest}

def failedOf (create : RetrieveSubrequest → Creation) (l : List RetrieveSubrequest) :
    List RetrieveSubrequest :=
  l.filter fun rsr => create rsr = .notLaunched ∨ create rsr = .notInserted

theorem weight_notCreatedOf (w : RetrieveSubrequest → Nat) (l : List RetrieveSubrequest) :
    weight w (notCreatedOf create l) = weight w (failedOf create l) := by
  induction l with
  | nil => rfl
  | cons s l ih =>
    simp only [notCreatedOf, failedOf, weight_append, List.filter_cons] at ih ⊢
    cases hs : create s with
    | notLaunched =>
      simp only [weight, decide_true, if_true, reduceCtorEq, decide_false, or_false, List.map_cons,
        List.sum_cons, Bool.false_eq_true, if_false] at ih ⊢
      omega
    | notInserted =>
      simp only [weight, decide_true, if_true, reduceCtorEq, decide_false, or_true, List.map_cons,
        List.sum_cons, Bool.false_eq_true, if_false] at ih ⊢
      omega
    | skipped => simpa using ih
    | sameTapepool => simpa using ih
    | queued queue => simpa using ih

theorem weight_leftovers (w : RetrieveSubrequest → Nat) (bs : List (List RetrieveSubrequest)) :
    weight w (leftovers (notCreatedOf create) bs) = weight w (failedOf create bs.flatten) := by
  induction bs with
  | nil => rfl
  | cons b bs ih =>
    simp only [leftovers, List.flatMap_cons, weight_append, List.flatten_cons, failedOf,
      List.filter_append] at ih ⊢
    rw [ih, weight_notCreatedOf]
    rfl

def CountsFailures (counter : RepackRequest → Nat) (w : RetrieveSubrequest → Nat) : Prop :=
  ∀ r l, counter (reportRetrieveCreationFailures r (l.map RetrieveSubrequest.toSubrequest)) =
    counter r + weight w l

theorem countsFailures_files :
    CountsFailures RepackRequest.failedToRetrieveFiles fun _ => 1 := by
  intro r l
  simp [reportRetrieveCreationFailures, reportArchiveCreationFailures, RepackRequest.setStatus,
    weight]

theorem countsFailures_bytes :
    CountsFailures RepackRequest.failedToRetrieveBytes fun s => s.fileSize := by
  intro r l
  simp [reportRetrieveCreationFailures, reportArchiveCreationFailures, RepackRequest.setStatus,
    weight, Function.comp_def]

theorem countsFailures_copies :
    CountsFailures RepackRequest.failedToCreateArchiveReq fun s => s.copyNbsToRearchive.card := by
  intro r l
  simp [reportRetrieveCreationFailures, reportArchiveCreationFailures, RepackRequest.setStatus,
    weight, Function.comp_def]

theorem addBatches_counter {counter : RepackRequest → Nat} {w : RetrieveSubrequest → Nat}
    (hc : CountsFailures counter w) {notCreated : List RetrieveSubrequest} {n m : Nat}
    (h : addBatches create bs r notCreated n = .ok (q, m)) :
    counter q = counter r +
      ((handedIn (notCreatedOf create) notCreated bs).map (weight w)).sum := by
  induction bs generalizing r notCreated n with
  | nil =>
    cases h
    rfl
  | cons b bs ih =>
    simp only [addBatches] at h
    split at h
    · cases h
    · rw [ih h]
      simp only [handedIn, List.map_cons, List.sum_cons]
      split
      · next hempty =>
        rw [List.isEmpty_iff.mp hempty]
        simp
      · rw [hc]
        omega

theorem addBatches_returns {notCreated : List RetrieveSubrequest} {n m : Nat}
    (h : addBatches create bs r notCreated n = .ok (q, m)) :
    m = (bs.getLast?.map fun b => (queuesOf create b).dedup.length).getD n := by
  induction bs generalizing r notCreated n with
  | nil =>
    cases h
    rfl
  | cons b bs ih =>
    simp only [addBatches] at h
    split at h
    · cases h
    · have hrest := ih h
      cases bs with
      | nil => exact hrest
      | cons b' bs =>
        have hlast : (b' :: bs).getLast? = some ((b' :: bs).getLast (by simp)) :=
          List.getLast?_eq_some_getLast (by simp)
        rw [List.getLast?_cons_cons, hlast]
        rw [hlast] at hrest
        exact hrest

theorem addBatches_no_sameTapepool {notCreated : List RetrieveSubrequest} {n m : Nat}
    (h : addBatches create bs r notCreated n = .ok (q, m)) :
    ∀ b ∈ bs, ∀ s ∈ b, create s ≠ .sameTapepool := by
  induction bs generalizing r notCreated n with
  | nil => simp
  | cons b bs ih =>
    simp only [addBatches] at h
    split at h
    · cases h
    · next hsame =>
      intro c hc
      cases List.mem_cons.mp hc with
      | inl he =>
        subst he
        exact fun s hs he => hsame ⟨s, hs, he⟩
      | inr hc => exact ih h c hc

theorem queuesOf_flatten (bs : List (List RetrieveSubrequest)) :
    queuesOf create bs.flatten = bs.flatMap (queuesOf create) := by
  induction bs with
  | nil => rfl
  | cons b bs ih => simp [queuesOf, List.filterMap_append, ← ih]

theorem forall_skipped_iff {b : List RetrieveSubrequest}
    (h : ∀ s ∈ b, create s ≠ .sameTapepool) :
    (∀ s ∈ b, create s = .skipped) ↔ notCreatedOf create b = [] ∧ queuesOf create b = [] := by
  simp only [notCreatedOf, queuesOf, List.append_eq_nil_iff, List.filter_eq_nil_iff,
    List.filterMap_eq_nil_iff]
  constructor
  · intro hall
    exact ⟨⟨fun s hs => by simp [hall s hs], fun s hs => by simp [hall s hs]⟩,
      fun s hs => by rw [hall s hs]; rfl⟩
  · rintro ⟨⟨hlaunched, hinserted⟩, hqueued⟩ s hs
    have hl := hlaunched s hs
    have hi := hinserted s hs
    have hq := hqueued s hs
    have ht := h s hs
    cases hc : create s with
    | skipped => rfl
    | sameTapepool => exact absurd hc ht
    | notLaunched => simp [hc] at hl
    | notInserted => simp [hc] at hi
    | queued queue => simp [hc, Creation.queue] at hq

theorem length_dedup_eq_iff {κ : Type*} [DecidableEq κ] (ls : List (List κ)) (l : List κ) :
    l.dedup.length = (ls ++ [l]).flatten.length ↔ (∀ k ∈ ls, k = []) ∧ l.Nodup := by
  have hle : l.dedup.length ≤ l.length := l.dedup_sublist.length_le
  have hsum : (ls ++ [l]).flatten.length = ls.flatten.length + l.length := by simp
  rw [hsum]
  constructor
  · intro h
    have hnil : ls.flatten = [] := List.eq_nil_of_length_eq_zero (by omega)
    refine ⟨fun k hk => List.flatten_eq_nil_iff.mp hnil k hk, ?_⟩
    rw [← List.dedup_eq_self]
    exact l.dedup_sublist.eq_of_length (by omega)
  · rintro ⟨hnil, hnodup⟩
    rw [List.flatten_eq_nil_iff.mpr hnil, List.dedup_eq_self.mpr hnodup]
    simp

structure CountedExactly (create : RetrieveSubrequest → Creation)
    (subs : List RetrieveSubrequest) (r q : RepackRequest) (returned : Nat) : Prop where
  files : q.failedToRetrieveFiles = r.failedToRetrieveFiles + (failedOf create subs).length
  bytes : q.failedToRetrieveBytes =
    r.failedToRetrieveBytes + ((failedOf create subs).map (·.fileSize)).sum
  copies : q.failedToCreateArchiveReq =
    r.failedToCreateArchiveReq + ((failedOf create subs).map (·.copyNbsToRearchive.card)).sum
  queued : returned = (queuesOf create subs).length

/-- Up to the last batch nothing happens, and each sub-request that the last one queues goes to a
queue of its own. -/
def NothingButLastBatch (create : RetrieveSubrequest → Creation)
    (bs : List (List RetrieveSubrequest)) : Prop :=
  (∀ b ∈ bs.dropLast, ∀ s ∈ b, create s = .skipped) ∧
    ∀ b ∈ bs.getLast?, (queuesOf create b).Nodup

theorem addBatches_returned_iff {m : Nat} (h : addBatches create bs r [] 0 = .ok (q, m)) :
    m = (queuesOf create bs.flatten).length ↔
      (∀ b ∈ bs.dropLast, queuesOf create b = []) ∧
        ∀ b ∈ bs.getLast?, (queuesOf create b).Nodup := by
  have hm := addBatches_returns h
  cases bs using List.reverseRecOn with
  | nil => simpa [queuesOf] using hm
  | append_singleton bs b =>
    simp only [List.getLast?_concat, Option.map_some, Option.getD_some] at hm
    rw [hm, queuesOf_flatten, List.flatMap_def, List.map_append, List.map_singleton,
      length_dedup_eq_iff]
    simp

theorem addBatches_countedExactly_iff {m : Nat} (h : addBatches create bs r [] 0 = .ok (q, m)) :
    CountedExactly create bs.flatten r q m ↔ NothingButLastBatch create bs := by
  have hpool : ∀ b ∈ bs.dropLast, ∀ s ∈ b, create s ≠ .sameTapepool :=
    fun b hb => addBatches_no_sameTapepool h b (List.mem_of_mem_dropLast hb)
  have hcount : ∀ {counter w}, CountsFailures counter w →
      (∀ b ∈ bs.dropLast, notCreatedOf create b = []) →
      counter q = counter r + weight w (failedOf create bs.flatten) := by
    intro counter w hc hnone
    rw [addBatches_counter hc h, weight_handedIn hnone, weight_leftovers]
  constructor
  · intro hexact
    have hnone : ∀ b ∈ bs.dropLast, notCreatedOf create b = [] := by
      refine left_eq_nil_of_weight_handedIn (w := fun _ => 1) (fun _ => Nat.one_pos) ?_
      have hfiles := addBatches_counter countsFailures_files h
      have hsame := hexact.files
      rw [weight_leftovers]
      rw [weight_one]
      omega
    have hqueued := (addBatches_returned_iff h).mp hexact.queued
    exact ⟨fun b hb => (forall_skipped_iff (hpool b hb)).mpr ⟨hnone b hb, hqueued.1 b hb⟩,
      hqueued.2⟩
  · rintro ⟨hskipped, hnodup⟩
    have hempty := fun b hb => (forall_skipped_iff (hpool b hb)).mp (hskipped b hb)
    have hnone := fun b hb => (hempty b hb).1
    refine ⟨?_, hcount countsFailures_bytes hnone, hcount countsFailures_copies hnone, ?_⟩
    · rw [hcount countsFailures_files hnone, weight_one]
    · exact (addBatches_returned_iff h).mpr ⟨fun b hb => (hempty b hb).2, hnodup⟩

/-- Each sub-request that cannot be created is counted once, and the number that is returned is
that of the queued ones, if and only if only the last batch of 500 has anything to create and
no two of its sub-requests go to one queue. -/
theorem creationFailures_counted_once_iff {ctx : CreationContext} {nextId : Nat → Address}
    {t : TotalStatsFiles} {r q : RepackRequest} {subs : List RetrieveSubrequest} {n : Nat}
    (h : addSubrequestsAndUpdateStats ctx nextId t r subs = .ok (q, n)) :
    let create := ctx.create
      (r.getOrPrepareSubrequestInfo (subs.map (·.fSeq)) nextId).subrequestDeleted
    CountedExactly create subs r q n ↔
      NothingButLastBatch create (batches 500 (by omega) subs) := by
  have hiff := addBatches_countedExactly_iff h
  rw [flatten_batches] at hiff
  constructor
  · intro hexact
    exact hiff.mp ⟨hexact.files, hexact.bytes, hexact.copies, hexact.queued⟩
  · intro hlast
    have hexact := hiff.mpr hlast
    exact ⟨hexact.files, hexact.bytes, hexact.copies, hexact.queued⟩

theorem addBatches_completes {create : RetrieveSubrequest → Creation}
    {bs : List (List RetrieveSubrequest)} (h : ∀ b ∈ bs, ∀ s ∈ b, create s ≠ .sameTapepool)
    (r : RepackRequest) (notCreated : List RetrieveSubrequest) (n : Nat) :
    ∃ q m, addBatches create bs r notCreated n = .ok (q, m) := by
  induction bs generalizing r notCreated n with
  | nil => exact ⟨r, n, rfl⟩
  | cons b bs ih =>
    have hb : ¬ ∃ rsr ∈ b, create rsr = .sameTapepool := by
      rintro ⟨s, hs, he⟩
      exact h b List.mem_cons_self s hs he
    simp only [addBatches, if_neg hb]
    exact ih (fun c hc => h c (List.mem_cons_of_mem b hc)) _ _ _

def filesOfTape (n : Nat) : List RetrieveSubrequest :=
  (List.range n).map fun i =>
    { fSeq := i + 1, fileSize := 10, copyNbsToRearchive := {1}, storageClass := "sc"
      tapeFiles := [⟨"V1", i + 1, 1⟩] }

def routed : CreationContext where
  repackVid := "V1"
  archiveRoutesMap := fun _ => some [(1, "pool")]
  selectBestRetrieveQueue := fun _ vids => vids.head?
  insertion := fun _ => .inserted

def routedClass : CreationContext :=
  { routed with archiveRoutesMap := fun sc => if sc = "sc" then some [(1, "pool")] else none }

/-- The storage class of the second file has no archive route. -/
def oneUnrouted : List RetrieveSubrequest :=
  filesOfTape 1 ++ [{ fSeq := 2, fileSize := 10, copyNbsToRearchive := {1}, storageClass := "other"
                      tapeFiles := [⟨"V1", 2, 1⟩] }]

theorem creationFailures_counted_once_iff_oneUnrouted :
    ∃ q n, addSubrequestsAndUpdateStats routedClass (fun _ => "sub") {} {} oneUnrouted =
        .ok (q, n) ∧
      CountedExactly (routedClass.create (({} : RepackRequest).getOrPrepareSubrequestInfo [1, 2]
        fun _ => "sub").subrequestDeleted) oneUnrouted {} q n ∧
      q.failedToRetrieveFiles = 1 ∧ n = 1 := by
  have hbatches : batches 500 (by omega) oneUnrouted = [oneUnrouted] :=
    batches_of_length_le _ (by decide) (by decide)
  have hrun : ∃ q n, addSubrequestsAndUpdateStats routedClass (fun _ => "sub") {} {} oneUnrouted =
      .ok (q, n) := by
    refine addBatches_completes (fun b hb s hs => ?_) _ _ _
    rw [hbatches] at hb
    rw [List.mem_singleton.mp hb] at hs
    revert s
    decide
  obtain ⟨q, n, hq⟩ := hrun
  have hexact := (creationFailures_counted_once_iff hq).mpr (by
    rw [hbatches]
    refine ⟨by simp, fun b hb => ?_⟩
    cases hb
    decide)
  exact ⟨q, n, hq, hexact, hexact.files.trans (by decide), hexact.queued.trans (by decide)⟩

def unrouted : CreationContext := { routed with archiveRoutesMap := fun _ => none }

theorem unrouted_create (s : RetrieveSubrequest) :
    unrouted.create (fun _ => false) s = .notLaunched := by
  simp [CreationContext.create, unrouted]

theorem unrouted_addSubrequests {l : List RetrieveSubrequest} (hl : l.length = 501) :
    ∃ q n, addSubrequestsAndUpdateStats unrouted (fun _ => "sub") {} {} l = .ok (q, n) ∧
      q.failedToRetrieveFiles = 1001 := by
  let prepared := (({} : RepackRequest).getOrPrepareSubrequestInfo (l.map (·.fSeq))
    fun _ => "sub").setTotalStats {}
  have hdeleted : prepared.subrequestDeleted = fun _ => false := by
    funext f
    simp only [prepared, RepackRequest.subrequestDeleted, RepackRequest.setTotalStats,
      RepackRequest.getOrPrepareSubrequestInfo]
    split <;> rfl
  have hnot : ∀ b, notCreatedOf (unrouted.create fun _ => false) b = b := by
    intro b
    simp [notCreatedOf, unrouted_create]
  have hbatches : batches 500 (by omega) l = [l.take 500, l.drop 500] := by
    have hrest : batches 500 (by omega) (l.drop 500) = [l.drop 500] := by
      refine batches_of_length_le _ ?_ ?_
      · rw [← List.length_pos_iff, List.length_drop]
        omega
      · rw [List.length_drop]
        omega
    rw [batches_of_ne_nil _ (List.length_pos_iff.mp (by omega)), hrest]
  have hrun : ∃ q n, addBatches (unrouted.create fun _ => false) (batches 500 (by omega) l)
      prepared [] 0 = .ok (q, n) :=
    addBatches_completes (fun b _ s _ => by simp [unrouted_create]) prepared [] 0
  obtain ⟨q, n, hq⟩ := hrun
  refine ⟨q, n, ?_, ?_⟩
  · rw [← hq, ← hdeleted]
    rfl
  · rw [addBatches_counter countsFailures_files hq, hbatches]
    have hzero : prepared.failedToRetrieveFiles = 0 := rfl
    simp only [handedIn, hnot, hzero, List.nil_append, List.map_cons, List.map_nil, List.sum_cons,
      List.sum_nil, weight_append, weight_one, List.length_take, List.length_drop, hl]
    omega

theorem unrouted_counted_twice :
    ∃ q n, addSubrequestsAndUpdateStats unrouted (fun _ => "sub") {} {} (filesOfTape 501) =
        .ok (q, n) ∧
      q.failedToRetrieveFiles = 1001 ∧
      ¬ CountedExactly (unrouted.create fun _ => false) (filesOfTape 501) {} q n := by
  have hlength : (filesOfTape 501).length = 501 := by simp [filesOfTape]
  have hall : failedOf (unrouted.create fun _ => false) (filesOfTape 501) = filesOfTape 501 :=
    List.filter_eq_self.mpr fun s _ => by simp [unrouted_create]
  obtain ⟨q, n, hq, hfiles⟩ := unrouted_addSubrequests hlength
  refine ⟨q, n, hq, hfiles, fun hexact => ?_⟩
  have hcount := hexact.files
  rw [hall, hlength, hfiles] at hcount
  cases hcount

end Cta.Repack
