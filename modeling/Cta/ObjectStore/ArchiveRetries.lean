import Cta.Lib.Retries
import Cta.ObjectStore.ArchiveRequestReport

/-! How often the jobs of an archive request are retried, over any history of failures. -/
namespace Cta.ObjectStore.ArchiveRetries
open Cta.Lib.Runs Cta.Lib.Sequence Cta.ObjectStore.ArchiveRequestReport
open Cta.Lib.Retries (toNat_succ_iff)

structure Failure where
  copyNumber : Nat
  mountId : Nat
  deriving DecidableEq, Repr

/-- A request with the failures that it recorded and what was decided on each, the last one
first. -/
structure History where
  request : Request
  recorded : List (Failure × EnqueueingNextStep)

def History.add (s : History) (f : Failure) : History :=
  match s.request.addTransferFailure f.copyNumber f.mountId with
  | none => s
  | some (next, r) => ⟨r, (f, next) :: s.recorded⟩

def History.job? (s : History) (copyNumber : Nat) : Option Job :=
  s.request.jobs.find? (·.copyNb = copyNumber)

def History.recordedOf (s : History) (copyNumber : Nat) : List (Failure × EnqueueingNextStep) :=
  s.recorded.filter (·.1.copyNumber = copyNumber)

def sinceMountChange : List (Failure × EnqueueingNextStep) → Nat
  | [] => 0
  | e :: es => ((e :: es).takeWhile (·.1.mountId = e.1.mountId)).length

/-- The job goes back to be transferred, in this mount or, once collected, in another one. -/
def requeues (next : EnqueueingNextStep) : Bool :=
  next.nextStatus = .toTransferForUser ∨ next.nextStatus = .toTransferForRepack

def requeuesInMount (next : EnqueueingNextStep) : Bool :=
  next.nextStep = .enqueueForTransferForUser ∨ next.nextStep = .enqueueForTransferForRepack

/-- The counters of a job are those of the failures recorded for it, and it was not requeued more
often than it may be. -/
structure Counted (j : Job) (recorded : List (Failure × EnqueueingNextStep)) : Prop where
  total : j.totalRetries.toNat = recorded.length
  withinMount : j.retriesWithinMount.toNat = sinceMountChange recorded
  requeued : recorded.countP (requeues ·.2) ≤ j.maxTotalRetries.toNat - 1

def Bounded (s : History) : Prop :=
  ∀ copyNumber j, s.job? copyNumber = some j → Counted j (s.recordedOf copyNumber)

structure Decides (f : Failure) (jobs jobs' : List Job) (next : EnqueueingNextStep)
    (j j' : Job) : Prop where
  named : ReplacesFirst (·.copyNb = f.copyNumber) j j' jobs jobs'
  counters : j' = { j with
    totalRetries := j'.totalRetries
    retriesWithinMount := j'.retriesWithinMount
    lastMountWithFailure := j'.lastMountWithFailure }
  requeue : requeues next = true → j'.totalRetries < j'.maxTotalRetries
  inMount : requeuesInMount next = true → j'.retriesWithinMount < j'.maxRetriesWithinMount

/-- Only the counters of the named job change, and it is requeued only within its bounds. -/
def Fair (s : History) (f : Failure) : Prop :=
  match s.request.addTransferFailure f.copyNumber f.mountId with
  | none => s.job? f.copyNumber = none
  | some (next, r) => ∃ j j', Decides f s.request.jobs r.jobs next j j'

def Fresh (r : Request) : Prop := ∀ j ∈ r.jobs, j.totalRetries = 0 ∧ j.retriesWithinMount = 0

instance (r : Request) : Decidable (Fresh r) := inferInstanceAs (Decidable (∀ j ∈ r.jobs, _))

def Countable (failures : List Failure) : Prop :=
  ∀ copyNumber, (failures.filter (·.copyNumber = copyNumber)).length < 2 ^ 32

variable {s : History} {f : Failure} {copyNumber : Nat} {j : Job}

theorem changeJob_cases (copyNumber : Nat) (g : Job → Job) (jobs : List Job) :
    (changeJob copyNumber g jobs = none ∧ jobs.find? (·.copyNb = copyNumber) = none) ∨
      ∃ j jobs', changeJob copyNumber g jobs = some (g j, jobs') ∧
        ReplacesFirst (·.copyNb = copyNumber) j (g j) jobs jobs' := by
  induction jobs with
  | nil => exact .inl ⟨rfl, rfl⟩
  | cons i is ih =>
    by_cases hi : i.copyNb = copyNumber
    · exact .inr ⟨i, g i :: is, by simp [changeJob, hi], replacesFirst_head (g i) is hi⟩
    · cases ih with
      | inl hnone => exact .inl ⟨by simp [changeJob, hi, hnone.1], by simpa [hi] using hnone.2⟩
      | inr hsome =>
        obtain ⟨j, jobs', hchange, hnamed⟩ := hsome
        exact .inr ⟨j, i :: jobs', by simp [changeJob, hi, hchange], hnamed.cons hi⟩

theorem countFailure_eq (mountId : Nat) (j : Job) :
    j.countFailure mountId = { j with
      totalRetries := j.totalRetries + 1
      retriesWithinMount :=
        if j.lastMountWithFailure = mountId then j.retriesWithinMount + 1 else 1
      lastMountWithFailure := mountId } := by
  unfold Job.countFailure
  by_cases hmount : j.lastMountWithFailure = mountId
  · rw [if_pos hmount, if_pos hmount, ← hmount]
  · rw [if_neg hmount, if_neg hmount]

theorem determineNextStep_cases {r r' : Request} {next : EnqueueingNextStep}
    (h : r.determineNextStep copyNumber .transferFailed = some (next, r')) :
    r'.jobs = r.jobs ∧ requeues next = false ∧ requeuesInMount next = false := by
  unfold Request.determineNextStep at h
  split at h
  · cases h
  · simp only at h
    split at h
    · cases h
      cases r.isRepack <;> exact ⟨rfl, rfl, rfl⟩
    · cases h
      cases r.isRepack <;> exact ⟨rfl, rfl, rfl⟩

theorem countFailure_copyNb (mountId : Nat) (j : Job) :
    (j.countFailure mountId).copyNb = j.copyNb := by
  rw [countFailure_eq]

theorem addTransferFailure_cases (r : Request) (f : Failure) :
    (r.addTransferFailure f.copyNumber f.mountId = none ∧
      r.jobs.find? (·.copyNb = f.copyNumber) = none) ∨
    ∃ next r' j, r.addTransferFailure f.copyNumber f.mountId = some (next, r') ∧
      Decides f r.jobs r'.jobs next j (j.countFailure f.mountId) := by
  unfold Request.addTransferFailure
  cases changeJob_cases f.copyNumber (Job.countFailure f.mountId) r.jobs with
  | inl hnone => exact .inl ⟨by rw [hnone.1], hnone.2⟩
  | inr hsome =>
    obtain ⟨j, jobs', hchange, hnamed⟩ := hsome
    have hcounters : j.countFailure f.mountId = { j with
        totalRetries := (j.countFailure f.mountId).totalRetries
        retriesWithinMount := (j.countFailure f.mountId).retriesWithinMount
        lastMountWithFailure := (j.countFailure f.mountId).lastMountWithFailure } := by
      rw [countFailure_eq]
    refine .inr ?_
    rw [hchange]
    simp only
    split
    · obtain ⟨⟨next, r'⟩, hnext⟩ : ∃ p, Request.determineNextStep f.copyNumber .transferFailed
          { r with jobs := jobs' } = some p := by
        have hfound : (jobs'.all (·.copyNb ≠ f.copyNumber)) = false := by
          obtain ⟨before, after, -, rfl, -, hcopy⟩ := hnamed
          simp [hcopy]
        unfold Request.determineNextStep
        rw [hfound]
        cases r.reportDecided <;> exact ⟨_, rfl⟩
      obtain ⟨hsame, hrequeues, hin⟩ := determineNextStep_cases hnext
      refine ⟨next, r', j, hnext, hsame ▸ hnamed, hcounters, ?_, ?_⟩
      · exact fun h => absurd h (by simp [hrequeues])
      · exact fun h => absurd h (by simp [hin])
    · next hfew =>
      refine ⟨_, _, j, rfl, hnamed, hcounters, ?_, ?_⟩
      · exact fun _ => UInt32.not_le.mp hfew
      · intro h
        by_contra hmany
        have hle := UInt32.not_lt.mp hmany
        simp [requeuesInMount, hle] at h

/-- The counters of a job are those of its failures, the last of them in its last mount. -/
structure Tracks (j : Job) (recorded : List (Failure × EnqueueingNextStep)) : Prop where
  counted : Counted j recorded
  mount : ∀ e ∈ recorded.head?, j.lastMountWithFailure = e.1.mountId

theorem sinceMountChange_cons (e : Failure × EnqueueingNextStep)
    (es : List (Failure × EnqueueingNextStep)) :
    sinceMountChange (e :: es) =
      if es.head?.map (·.1.mountId) = some e.1.mountId then sinceMountChange es + 1 else 1 := by
  cases es with
  | nil => simp [sinceMountChange]
  | cons d ds =>
    by_cases hmount : d.1.mountId = e.1.mountId
    · simp [sinceMountChange, hmount]
    · simp [sinceMountChange, hmount]

theorem sinceMountChange_le (es : List (Failure × EnqueueingNextStep)) :
    sinceMountChange es ≤ es.length := by
  cases es with
  | nil => exact Nat.le_refl 0
  | cons e es => exact (List.takeWhile_sublist _).length_le

theorem Tracks.add {recorded : List (Failure × EnqueueingNextStep)} (h : Tracks j recorded)
    (f : Failure) {next : EnqueueingNextStep} (hfit : recorded.length + 1 < 2 ^ 32)
    (hrequeue : requeues next = true →
      (j.countFailure f.mountId).totalRetries < (j.countFailure f.mountId).maxTotalRetries) :
    Tracks (j.countFailure f.mountId) ((f, next) :: recorded) := by
  have htotal := h.counted.total
  have hwithin := h.counted.withinMount
  have hlen : (j.totalRetries + 1).toNat = recorded.length + 1 := by
    rw [(toNat_succ_iff _).mpr (by omega), htotal]
  rw [countFailure_eq] at hrequeue ⊢
  refine ⟨⟨hlen, ?_, ?_⟩, fun e he => ?_⟩
  · rw [sinceMountChange_cons]
    cases recorded with
    | nil =>
      have hzero : j.retriesWithinMount.toNat = 0 := hwithin
      simp only [List.head?_nil, Option.map_none, reduceCtorEq, if_false]
      split
      · rw [(toNat_succ_iff _).mpr (by omega), hzero]
      · rfl
    | cons e es =>
      have hmount : j.lastMountWithFailure = e.1.mountId := h.mount e rfl
      have hle := sinceMountChange_le (e :: es)
      simp only [List.head?_cons, Option.map_some, Option.some.injEq, hmount]
      split
      · rw [(toNat_succ_iff _).mpr (by omega), hwithin]
      · rfl
  · have hall : ((f, next) :: recorded).countP (requeues ·.2) ≤ recorded.length + 1 :=
      List.countP_le_length
    change _ ≤ j.maxTotalRetries.toNat - 1
    by_cases hnext : requeues next = true
    · have hlt : (j.totalRetries + 1).toNat < j.maxTotalRetries.toNat := hrequeue hnext
      omega
    · rw [List.countP_cons_of_neg (by simpa using hnext)]
      exact h.counted.requeued
  · obtain rfl : (f, next) = e := by simpa using he
    rfl

def Tracked (s : History) : Prop :=
  ∀ copyNumber j, s.job? copyNumber = some j → Tracks j (s.recordedOf copyNumber)

theorem Tracked.add (h : Tracked s) (hfit : (s.recordedOf f.copyNumber).length + 1 < 2 ^ 32) :
    Fair s f ∧ Tracked (s.add f) := by
  unfold Fair History.add
  cases addTransferFailure_cases s.request f with
  | inl hnone =>
    rw [hnone.1]
    exact ⟨hnone.2, h⟩
  | inr hsome =>
    obtain ⟨next, r, j, hadd, hdecides⟩ := hsome
    rw [hadd]
    refine ⟨⟨j, _, hdecides⟩, fun copyNumber i hi => ?_⟩
    have hnamed : s.job? f.copyNumber = some j := hdecides.named.find?_left
    have hold : j.copyNb = f.copyNumber := by simpa using List.find?_some hnamed
    have hnew : (j.countFailure f.mountId).copyNb = f.copyNumber :=
      (countFailure_copyNb f.mountId j).trans hold
    by_cases hsame : f.copyNumber = copyNumber
    · subst hsame
      obtain rfl : j.countFailure f.mountId = i :=
        Option.some.inj ((hdecides.named.find?_right hnew).symm.trans hi)
      have htracks := (h f.copyNumber j hnamed).add f hfit hdecides.requeue
      simpa [History.recordedOf] using htracks
    · have hsame' : s.job? copyNumber = some i :=
        (hdecides.named.find?_other (hold ▸ hsame) (hnew ▸ hsame)).symm.trans hi
      simpa [History.recordedOf, hsame] using h copyNumber i hsame'

theorem length_recordedOf_add (s : History) (f : Failure) (copyNumber : Nat) :
    ((s.add f).recordedOf copyNumber).length ≤
      (s.recordedOf copyNumber).length + [f].countP (·.copyNumber = copyNumber) := by
  unfold History.add
  split
  · exact Nat.le_add_right _ _
  · by_cases hsame : f.copyNumber = copyNumber
    · simp [History.recordedOf, hsame]
    · simp [History.recordedOf, hsame]

theorem Tracked.run {failures : List Failure} (h : Tracked s)
    (hfit : ∀ copyNumber, (s.recordedOf copyNumber).length +
      failures.countP (·.copyNumber = copyNumber) < 2 ^ 32) :
    AllSteps History.add Fair s failures ∧ AllStates History.add Bounded s failures := by
  have hbounded : Bounded s := fun copyNumber j hj => (h copyNumber j hj).counted
  induction failures generalizing s with
  | nil => exact ⟨trivial, hbounded⟩
  | cons f failures ih =>
    have hfirst := hfit f.copyNumber
    rw [List.countP_cons_of_pos (by simp)] at hfirst
    obtain ⟨hfair, htracked⟩ := h.add (f := f) (by omega)
    have hrest : ∀ copyNumber, ((s.add f).recordedOf copyNumber).length +
        failures.countP (·.copyNumber = copyNumber) < 2 ^ 32 := by
      intro copyNumber
      have hlen := length_recordedOf_add s f copyNumber
      have hall := hfit copyNumber
      rw [← List.singleton_append, List.countP_append] at hall
      omega
    obtain ⟨hsteps, hstates⟩ := ih htracked hrest
      fun copyNumber j hj => (htracked copyNumber j hj).counted
    exact ⟨⟨hfair, hsteps⟩, ⟨hbounded, hstates⟩⟩

theorem Fresh.tracked {r : Request} (h : Fresh r) : Tracked ⟨r, []⟩ := by
  intro copyNumber j hj
  obtain ⟨htotal, hwithin⟩ := h j (List.mem_of_find?_eq_some hj)
  exact ⟨⟨congrArg UInt32.toNat htotal, congrArg UInt32.toNat hwithin, Nat.zero_le _⟩, nofun⟩

/-- As long as the failures of each copy fit its 32-bit counter, every failure counts for the job
that it names and no other, and no job is requeued more often than it may be. -/
theorem retries_bounded {r : Request} (hfresh : Fresh r) {failures : List Failure}
    (hfit : Countable failures) :
    AllSteps History.add Fair ⟨r, []⟩ failures ∧
      AllStates History.add Bounded ⟨r, []⟩ failures := by
  refine hfresh.tracked.run fun copyNumber => ?_
  have hcount := hfit copyNumber
  rw [← List.countP_eq_length_filter] at hcount
  simpa [History.recordedOf] using hcount

def oneCopy : Request where
  jobs := [{
    copyNb := 1
    status := .toTransferForUser
    totalRetries := 0
    maxTotalRetries := 1
    retriesWithinMount := 0
    maxRetriesWithinMount := 1
    lastMountWithFailure := 0 }]
  reportDecided := false
  isRepack := false

def newCopy (copyNb : Nat) : Job where
  copyNb := copyNb
  status := .toTransferForUser
  totalRetries := 0
  maxTotalRetries := 4
  retriesWithinMount := 0
  maxRetriesWithinMount := 2
  lastMountWithFailure := 0

def twoCopies : Request where
  jobs := [newCopy 1, newCopy 2]
  reportDecided := false
  isRepack := false

/-- The first copy fails twice in mount 7 and in two further mounts, the other one once. -/
def twoCopyFailures : List Failure := [⟨1, 7⟩, ⟨2, 7⟩, ⟨1, 7⟩, ⟨1, 8⟩, ⟨1, 9⟩]

theorem retries_bounded_two_copies :
    (AllSteps History.add Fair ⟨twoCopies, []⟩ twoCopyFailures ∧
      AllStates History.add Bounded ⟨twoCopies, []⟩ twoCopyFailures) ∧
    (twoCopyFailures.foldl History.add ⟨twoCopies, []⟩).recorded.map (·.2.nextStep) =
      [.enqueueForReportForUser, .enqueueForTransferForUser, .nothing, .enqueueForTransferForUser,
        .enqueueForTransferForUser] := by
  refine ⟨retries_bounded (by decide) fun copyNumber => ?_, by decide +kernel⟩
  exact Nat.lt_of_le_of_lt (List.length_filter_le _ _) (by decide)

theorem fail_again (f : Failure) (n : Nat) (hjobs : s.request.jobs = [j])
    (hcopy : j.copyNb = f.copyNumber) :
    ∃ i, ((List.replicate n f).foldl History.add s).request.jobs = [i] ∧
      i.copyNb = f.copyNumber ∧ i.totalRetries = j.totalRetries + .ofNat n ∧
      (((List.replicate n f).foldl History.add s).recordedOf f.copyNumber).length =
        (s.recordedOf f.copyNumber).length + n := by
  induction n generalizing s j with
  | zero => exact ⟨j, hjobs, hcopy, by simp, rfl⟩
  | succ n ih =>
    rw [List.replicate_succ, List.foldl_cons]
    cases addTransferFailure_cases s.request f with
    | inl hnone => simp [hjobs, hcopy] at hnone
    | inr hsome =>
      obtain ⟨next, r, i, hadd, hdecides⟩ := hsome
      have hs : s.add f = ⟨r, (f, next) :: s.recorded⟩ := by rw [History.add, hadd]
      have hnamed := hdecides.named
      rw [hjobs] at hnamed
      obtain ⟨rfl, hafter⟩ := hnamed.eq_of_head hcopy
      have hjobs' : (s.add f).request.jobs = [i.countFailure f.mountId] := by
        rw [hs]
        exact hafter
      have hcopy' := (countFailure_copyNb f.mountId i).trans hcopy
      obtain ⟨k, hk, hkcopy, htotal, hlen⟩ := ih hjobs' hcopy'
      refine ⟨k, hk, hkcopy, ?_, ?_⟩
      · rw [htotal, countFailure_eq, UInt32.ofNat_add, UInt32.add_comm (.ofNat n), UInt32.add_assoc]
        rfl
      · rw [hlen, hs]
        simp [History.recordedOf]
        omega

theorem counter_wraps :
    ¬∀ r, Fresh r → ∀ failures, AllStates History.add Bounded ⟨r, []⟩ failures := by
  intro h
  have hlast := (h oneCopy (by decide) (List.replicate (2 ^ 32) ⟨1, 7⟩)).last
  obtain ⟨i, hjobs, hcopy, htotal, hlen⟩ :=
    fail_again (s := ⟨oneCopy, []⟩) ⟨1, 7⟩ (2 ^ 32) rfl rfl
  have hnamed : ((List.replicate (2 ^ 32) ⟨1, 7⟩).foldl History.add
      ⟨oneCopy, []⟩).job? 1 = some i := by
    rw [History.job?, hjobs]
    simp [hcopy]
  have hcounted := (hlast 1 i hnamed).total
  rw [htotal, hlen] at hcounted
  exact absurd hcounted (by decide)

end Cta.ObjectStore.ArchiveRetries
