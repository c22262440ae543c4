import Cta.ObjectStore.PopNextBatch

/-! Polling of the retrieve queues whose jobs are to be reported or have failed. -/
namespace Cta.Scheduler.ReportPolling
open Cta.ObjectStore Cta.ObjectStore.PopNextBatch

structure Queue where
  jobs : List Address
  sleeping : Bool := false
  nodup : jobs.Nodup

def Queue.removeJobs (q : Queue) (addresses : List Address) : Queue where
  jobs := q.jobs.filter (· ∉ addresses)
  sleeping := q.sleeping
  nodup := q.nodup.filter _

/-- The queues of one type in the root entry, with the queue each pointer leads to, if it is still
there, and how the switch of its owner ends for each request. -/
structure Queues where
  vids : List String
  queue : String → Option Queue
  switch : Address → Option SwitchFailure

namespace Queues

def getLockedAndFetchedNoCreate (s : Queues) (vid : String) : Option Queue × Queues :=
  if vid ∈ s.vids then
    match s.queue vid with
    | some q => (some q, s)
    | none => (none, { s with vids := s.vids.filter (· ≠ vid) })
  else (none, s)

def results (s : Queues) (candidates : List Address) : Results :=
  candidates.map fun a => (a, s.switch a)

/-- The queue is committed, and removed if it is empty; with what counts as a trim. -/
def trimContainerIfNeeded (s : Queues) (vid : String) (q : Queue) : Queues × Bool :=
  if q.jobs ≠ [] then ({ s with queue := Function.update s.queue vid (some q) }, q.sleeping)
  else
    ({ s with
        vids := s.vids.filter (· ≠ vid), queue := Function.update s.queue vid none }, true)

/-- The loop of `popNextBatch`, with the number of files it still has to pop and those it popped. -/
def popLoop (vid : String) :
    Nat → Queues → Nat → List Address → Option (List Address × Queues)
  | 0, _, _, _ => none
  | fuel + 1, s, unfulfilled, ret =>
    if unfulfilled = 0 then some (ret, s)
    else
      match s.getLockedAndFetchedNoCreate vid with
      | (none, s) => some (ret, s)
      | (some q, s) =>
        let candidates := q.jobs.take unfulfilled
        let results := s.results candidates
        if failedOwnershipSwitchElements results = [] then
          let (s, didTrim) := s.trimContainerIfNeeded vid (q.removeJobs candidates)
          if didTrim then some (ret ++ candidates, s)
          else popLoop vid fuel s (unfulfilled - candidates.length) (ret ++ candidates)
        else
          let s := (s.trimContainerIfNeeded vid
            (q.removeJobs (toDereference candidates results))).1
          let popped := toReport candidates results
          if (decisions results).unexpectedException then some (ret ++ popped, s)
          else popLoop vid fuel s (unfulfilled - popped.length) (ret ++ popped)

def popNextBatch (fuel : Nat) (s : Queues) (vid : String) (files : Nat) :
    Option (List Address × Queues) := s.popLoop vid fuel files []

/-- The loop over the queues; the list of the queues is that of the root entry fetched before. -/
def nextBatch (filesRequested : Nat) (queueList : List String) :
    Queues → Nat → Option (List Address)
  | _, 0 => none
  | s, fuel + 1 =>
    match queueList with
    | [] => some []
    | vid :: _ =>
      match s.popNextBatch (fuel + 1) vid filesRequested with
      | none => none
      | some ([], s) => nextBatch filesRequested queueList s fuel
      | some (jobs, _) => some jobs

end Queues

inductive JobQueueType
  | JobsToReportToUser | FailedJobs
  deriving DecidableEq, Repr

def getNextRetrieveJobsToReportBatch (root : JobQueueType → Queues) (filesRequested fuel : Nat) :
    Option (List Address) :=
  (root .JobsToReportToUser).nextBatch filesRequested (root .JobsToReportToUser).vids fuel

def getNextRetrieveJobsFailedBatch (root : JobQueueType → Queues) (filesRequested fuel : Nat) :
    Option (List Address) :=
  (root .FailedJobs).nextBatch filesRequested (root .FailedJobs).vids fuel

namespace Queues
variable {s t : Queues} {vid : String} {fuel n : Nat} {ret : List Address} {again : Bool}

def jobsOf (s : Queues) (vid : String) : List Address :=
  if vid ∈ s.vids then ((s.queue vid).map (·.jobs)).getD [] else []

def succeeds (s : Queues) (a : Address) : Bool :=
  s.switch a = none || s.switch a = some .couldNotUnlock

/-- The reference to the job is not a stale one, which is removed when it is a candidate. -/
def stays (s : Queues) (a : Address) : Bool :=
  s.switch a ≠ some .noSuchObject && s.switch a ≠ some .wrongPreviousOwner

def candidates (s : Queues) (vid : String) (n : Nat) : List Address := (s.jobsOf vid).take n

theorem succeeds_iff {a : Address} : s.succeeds a = true ↔ Succeeded (s.switch a) := by
  simp [succeeds, Succeeded]

theorem mem_results {as : List Address} {a : Address} {r : Option SwitchFailure} :
    (a, r) ∈ s.results as ↔ a ∈ as ∧ r = s.switch a := by
  simp only [results, List.mem_map, Prod.mk.injEq]
  constructor
  · rintro ⟨b, hb, rfl, rfl⟩
    exact ⟨hb, rfl⟩
  · rintro ⟨ha, rfl⟩
    exact ⟨a, ha, rfl, rfl⟩

theorem toReport_results {as : List Address} :
    toReport as (s.results as) = as.filter s.succeeds := by
  refine List.filter_congr fun a ha => ?_
  have hmem : a ∈ toReport as (s.results as) ↔ s.succeeds a = true := by
    rw [mem_toReport, succeeds_iff]
    constructor
    · exact fun h => h.2 _ (mem_results.mpr ⟨ha, rfl⟩)
    · intro h
      exact ⟨ha, fun r hr => (mem_results.mp hr).2 ▸ h⟩
  rw [toReport, List.mem_filter] at hmem
  rw [← Bool.coe_iff_coe, ← hmem]
  exact ⟨fun h => ⟨ha, h⟩, fun h => h.2⟩

theorem mem_toDereference_results {as : List Address} {a : Address} :
    a ∈ toDereference as (s.results as) ↔ a ∈ as ∧ s.switch a ≠ some .other := by
  rw [mem_toDereference, mem_results]
  constructor
  · exact fun h => ⟨h.1, fun hother => h.2 ⟨h.1, hother.symm⟩⟩
  · exact fun h => ⟨h.1, fun hother => h.2 hother.2.symm⟩

theorem unexpectedException_results {as : List Address} {a : Address} (ha : a ∈ as)
    (hother : s.switch a = some .other) :
    (decisions (s.results as)).unexpectedException = true :=
  unexpectedException_of_other a _ _ (.inr (mem_failed.mpr (mem_results.mpr ⟨ha, hother.symm⟩)))

theorem failed_eq_nil {as : List Address}
    (h : failedOwnershipSwitchElements (s.results as) = []) {a : Address} (ha : a ∈ as) :
    s.switch a = none := by
  cases hswitch : s.switch a with
  | none => rfl
  | some f =>
    have hmem := mem_failed.mpr (mem_results.mpr ⟨ha, hswitch.symm⟩)
    rw [h] at hmem
    cases hmem

theorem trim_spec {q : Queue} (hvid : vid ∈ s.vids) :
    (s.trimContainerIfNeeded vid q).1.jobsOf vid = q.jobs ∧
      (s.trimContainerIfNeeded vid q).1.switch = s.switch ∧
      (q.jobs = [] → (s.trimContainerIfNeeded vid q).2 = true) := by
  unfold trimContainerIfNeeded
  split
  · rename_i hne
    exact ⟨by simp [jobsOf, hvid], rfl, fun h => absurd h hne⟩
  · rename_i hempty
    exact ⟨by simpa [jobsOf] using (not_not.mp hempty).symm, rfl, fun _ => rfl⟩

/-- What a round leaves: it pops the candidates that can be popped, only those with an unexpected
failure stay, and another round follows only if the queue got shorter. -/
structure Round (s t : Queues) (vid : String) (n : Nat) (again : Bool) : Prop where
  jobs : t.jobsOf vid = (s.jobsOf vid).filter fun a =>
    a ∉ s.candidates vid n || s.switch a = some .other
  switch : t.switch = s.switch
  shorter : again = true → (t.jobsOf vid).length < (s.jobsOf vid).length

theorem length_filter_lt {l : List Address} {p : Address → Bool} {a : Address} (ha : a ∈ l)
    (hp : p a = false) : (l.filter p).length < l.length :=
  List.length_filter_lt_length_iff_exists.mpr ⟨a, ha, by simp [hp]⟩

theorem round_popped {q : Queue} (hvid : vid ∈ s.vids) (hjobs : s.jobsOf vid = q.jobs) (hn : n ≠ 0)
    (hall : ∀ a ∈ s.candidates vid n, s.switch a = none) :
    Round s (s.trimContainerIfNeeded vid (q.removeJobs (s.candidates vid n))).1 vid n
      !(s.trimContainerIfNeeded vid (q.removeJobs (s.candidates vid n))).2 := by
  obtain ⟨htrim, hswitch, hdidTrim⟩ := trim_spec (q := q.removeJobs (s.candidates vid n)) hvid
  have hleft : (q.removeJobs (s.candidates vid n)).jobs =
      q.jobs.filter (· ∉ s.candidates vid n) := rfl
  refine ⟨?_, hswitch, fun hagain => ?_⟩
  · rw [htrim, hjobs, hleft]
    refine List.filter_congr fun a _ => ?_
    by_cases ha : a ∈ s.candidates vid n
    · simp [ha, hall a ha]
    · simp [ha]
  · have hsome : q.jobs ≠ [] := by
      intro hnone
      rw [hleft, hnone] at hdidTrim
      rw [hdidTrim rfl] at hagain
      cases hagain
    obtain ⟨a, rest, hcons⟩ := List.exists_cons_of_ne_nil hsome
    have ha : a ∈ s.candidates vid n := by
      rw [candidates, hjobs, hcons]
      obtain ⟨k, rfl⟩ := Nat.exists_eq_succ_of_ne_zero hn
      exact List.mem_cons_self
    rw [htrim, hjobs, hleft]
    exact length_filter_lt (a := a) (hcons ▸ List.mem_cons_self) (by simp [ha])

theorem round_failed {q : Queue} (hvid : vid ∈ s.vids) (hjobs : s.jobsOf vid = q.jobs)
    (hfailed : failedOwnershipSwitchElements (s.results (s.candidates vid n)) ≠ []) :
    Round s (s.trimContainerIfNeeded vid (q.removeJobs (toDereference (s.candidates vid n)
        (s.results (s.candidates vid n))))).1 vid n
      !(decisions (s.results (s.candidates vid n))).unexpectedException := by
  obtain ⟨htrim, hswitch, -⟩ := trim_spec (q := q.removeJobs (toDereference (s.candidates vid n)
    (s.results (s.candidates vid n)))) hvid
  refine ⟨?_, hswitch, fun hagain => ?_⟩
  · rw [htrim, hjobs]
    refine List.filter_congr fun a _ => ?_
    rw [← Bool.coe_iff_coe]
    simp [mem_toDereference_results, imp_iff_not_or]
  · obtain ⟨⟨a, f⟩, hmem⟩ := List.exists_mem_of_ne_nil _ hfailed
    obtain ⟨ha, -⟩ := mem_results.mp (mem_failed.mp hmem)
    have hnotOther : s.switch a ≠ some .other := by
      intro hother
      rw [unexpectedException_results ha hother] at hagain
      cases hagain
    have hqueued : a ∈ q.jobs := hjobs ▸ List.mem_of_mem_take ha
    rw [htrim, hjobs]
    exact length_filter_lt hqueued (by simp [mem_toDereference_results, ha, hnotOther])

theorem popLoop_round (s : Queues) (vid : String) (fuel : Nat) (ret : List Address) (hn : n ≠ 0) :
    ∃ t again, Round s t vid n again ∧
    popLoop vid (fuel + 1) s n ret =
      if again = true then
        popLoop vid fuel t (n - ((s.candidates vid n).filter s.succeeds).length)
          (ret ++ (s.candidates vid n).filter s.succeeds)
      else some (ret ++ (s.candidates vid n).filter s.succeeds, t) := by
  rw [popLoop, if_neg hn]
  by_cases hvid : vid ∈ s.vids
  · cases hqueue : s.queue vid with
    | none =>
      have hjobs : s.jobsOf vid = [] := by simp [jobsOf, hvid, hqueue]
      refine ⟨{ s with vids := s.vids.filter (· ≠ vid) }, false, ⟨?_, rfl, nofun⟩, ?_⟩
      · simp [jobsOf, hqueue]
      · simp [getLockedAndFetchedNoCreate, hvid, hqueue, candidates, hjobs]
    | some q =>
      have hjobs : s.jobsOf vid = q.jobs := by simp [jobsOf, hvid, hqueue]
      have hcandidates : q.jobs.take n = s.candidates vid n := by rw [candidates, hjobs]
      simp only [getLockedAndFetchedNoCreate, if_pos hvid, hqueue, hcandidates]
      split
      · rename_i hnone
        have hall (a : Address) (ha : a ∈ s.candidates vid n) : s.switch a = none :=
          failed_eq_nil hnone ha
        have hpopped : (s.candidates vid n).filter s.succeeds = s.candidates vid n :=
          List.filter_eq_self.mpr fun a ha => by simp [succeeds, hall a ha]
        refine ⟨_, _, round_popped hvid hjobs hn hall, ?_⟩
        rw [hpopped]
        cases (s.trimContainerIfNeeded vid (q.removeJobs (s.candidates vid n))).2 <;> rfl
      · rename_i hfailed
        refine ⟨_, _, round_failed hvid hjobs hfailed, ?_⟩
        rw [toReport_results]
        cases (decisions (s.results (s.candidates vid n))).unexpectedException <;> rfl
  · have hjobs : s.jobsOf vid = [] := if_neg hvid
    refine ⟨s, false, ⟨by simp [hjobs], rfl, nofun⟩, ?_⟩
    simp [getLockedAndFetchedNoCreate, hvid, candidates, hjobs]

def Poppable (s : Queues) (vid : String) (n : Nat) : Prop :=
  ∃ a ∈ ((s.jobsOf vid).filter s.stays).take n, s.succeeds a = true

theorem stays_of_succeeds {a : Address} (h : s.succeeds a = true) : s.stays a = true := by
  simp only [succeeds, stays, Bool.or_eq_true, decide_eq_true_eq] at h ⊢
  cases h with
  | inl h => simp [h]
  | inr h => simp [h]

theorem stays_split : (s.jobsOf vid).filter s.stays =
    (s.candidates vid n).filter s.stays ++ ((s.jobsOf vid).drop n).filter s.stays := by
  rw [← List.filter_append, candidates, List.take_append_drop]

theorem length_candidates : (s.candidates vid n).length ≤ n := List.length_take_le _ _

theorem poppable_of_candidate {a : Address} (ha : a ∈ s.candidates vid n)
    (hs : s.succeeds a = true) : s.Poppable vid n := by
  refine ⟨a, ?_, hs⟩
  have hlength : ((s.candidates vid n).filter s.stays).length ≤ n :=
    (List.length_filter_le _ _).trans length_candidates
  rw [stays_split (n := n), List.take_append, List.take_of_length_le hlength]
  exact List.mem_append_left _ (List.mem_filter.mpr ⟨ha, stays_of_succeeds hs⟩)

theorem Round.stays (h : Round s t vid n again)
    (hnone : ∀ a ∈ s.candidates vid n, s.succeeds a = false) :
    (t.jobsOf vid).filter t.stays = (s.jobsOf vid).filter s.stays := by
  have hsame : t.stays = s.stays := by
    funext a
    rw [Queues.stays, Queues.stays, h.switch]
  rw [hsame, h.jobs, List.filter_filter]
  refine List.filter_congr fun a _ => ?_
  by_cases ha : a ∈ s.candidates vid n
  · have hfails := hnone a ha
    cases hswitch : s.switch a with
    | none => simp [succeeds, hswitch] at hfails
    | some f => cases f <;> simp_all [succeeds, Queues.stays]
  · simp [ha]

theorem Round.poppable (h : Round s t vid n again)
    (hnone : ∀ a ∈ s.candidates vid n, s.succeeds a = false) :
    t.Poppable vid n ↔ s.Poppable vid n := by
  have hsame : t.succeeds = s.succeeds := by
    funext a
    rw [succeeds, succeeds, h.switch]
  rw [Poppable, Poppable, h.stays hnone, hsame]

theorem Round.shorter_of_poppable (h : Round s t vid n again) (hs : s.Poppable vid n)
    (hnone : ∀ a ∈ s.candidates vid n, s.succeeds a = false) :
    (t.jobsOf vid).length < (s.jobsOf vid).length := by
  obtain ⟨a, ha, hsucceeds⟩ := hs
  have hstale : ∃ b ∈ s.candidates vid n, s.stays b = false := by
    by_contra hall
    simp only [not_exists, not_and, Bool.not_eq_false] at hall
    have hfirst : ((s.jobsOf vid).filter s.stays).take n = s.candidates vid n := by
      rw [stays_split (n := n), List.filter_eq_self.mpr hall]
      by_cases hlong : n ≤ (s.jobsOf vid).length
      · have hlength : (s.candidates vid n).length = n := List.length_take_of_le hlong
        rw [List.take_append_of_le_length hlength.ge, List.take_of_length_le hlength.le]
      · rw [List.drop_of_length_le (by omega), List.filter_nil, List.append_nil,
          List.take_of_length_le length_candidates]
    rw [hfirst] at ha
    rw [hnone a ha] at hsucceeds
    cases hsucceeds
  obtain ⟨b, hb, hstays⟩ := hstale
  rw [h.jobs]
  refine length_filter_lt (List.mem_of_mem_take hb) ?_
  have hnotOther : s.switch b ≠ some .other := by
    intro hother
    simp [Queues.stays, hother] at hstays
  simp [hb, hnotOther]

theorem popLoop_popped {ret' : List Address}
    (h : popLoop vid fuel s n ret = some (ret', t)) :
    t.switch = s.switch ∧ (∀ a ∈ t.jobsOf vid, a ∈ s.jobsOf vid) ∧ ∃ popped, ret' = ret ++ popped ∧
      ∀ a ∈ popped, a ∈ s.jobsOf vid ∧ s.succeeds a = true := by
  induction fuel generalizing s n ret with
  | zero => cases h
  | succ fuel ih =>
    by_cases hn : n = 0
    · rw [popLoop, if_pos hn] at h
      cases h
      exact ⟨rfl, fun _ ha => ha, [], (List.append_nil _).symm, nofun⟩
    · obtain ⟨u, again, hround, hloop⟩ := popLoop_round s vid fuel ret hn
      have hfirst : ∀ a ∈ (s.candidates vid n).filter s.succeeds,
          a ∈ s.jobsOf vid ∧ s.succeeds a = true := by
        intro a ha
        obtain ⟨hmem, hs⟩ := List.mem_filter.mp ha
        exact ⟨List.mem_of_mem_take hmem, hs⟩
      have hleft : ∀ a ∈ u.jobsOf vid, a ∈ s.jobsOf vid := by
        intro a ha
        rw [hround.jobs] at ha
        exact (List.mem_filter.mp ha).1
      rw [hloop] at h
      cases again with
      | false =>
        cases h
        exact ⟨hround.switch, hleft, _, rfl, hfirst⟩
      | true =>
        obtain ⟨hswitch, hjobs, popped, hret, hpopped⟩ := ih h
        refine ⟨hswitch.trans hround.switch, fun a ha => hleft a (hjobs a ha),
          (s.candidates vid n).filter s.succeeds ++ popped, by rw [hret, List.append_assoc],
          fun a ha => ?_⟩
        cases List.mem_append.mp ha with
        | inl hold => exact hfirst a hold
        | inr hnew =>
          obtain ⟨hmem, hs⟩ := hpopped a hnew
          rw [succeeds, hround.switch] at hs
          exact ⟨hleft a hmem, hs⟩

theorem popLoop_isSome (n : Nat) (ret : List Address) (hfuel : (s.jobsOf vid).length + 2 ≤ fuel) :
    (popLoop vid fuel s n ret).isSome = true := by
  induction fuel generalizing s n ret with
  | zero => omega
  | succ fuel ih =>
    by_cases hn : n = 0
    · rw [popLoop, if_pos hn]
      rfl
    · obtain ⟨u, again, hround, hloop⟩ := popLoop_round s vid fuel ret hn
      rw [hloop]
      cases again with
      | false => rfl
      | true =>
        have hshorter := hround.shorter rfl
        exact ih _ _ (by omega)

theorem popLoop_of_not_poppable {ret' : List Address} (hs : ¬ s.Poppable vid n)
    (h : popLoop vid fuel s n ret = some (ret', t)) : ret' = ret ∧ ¬ t.Poppable vid n := by
  induction fuel generalizing s with
  | zero => cases h
  | succ fuel ih =>
    by_cases hn : n = 0
    · rw [popLoop, if_pos hn] at h
      cases h
      exact ⟨rfl, hs⟩
    · obtain ⟨u, again, hround, hloop⟩ := popLoop_round s vid fuel ret hn
      have hnone : ∀ a ∈ s.candidates vid n, s.succeeds a = false :=
        fun a ha => Bool.eq_false_iff.mpr fun hsucceeds => hs (poppable_of_candidate ha hsucceeds)
      have hpopped : (s.candidates vid n).filter s.succeeds = [] :=
        List.filter_eq_nil_iff.mpr fun a ha => by simp [hnone a ha]
      have hu : ¬ u.Poppable vid n := fun hu => hs ((hround.poppable hnone).mp hu)
      rw [hloop, hpopped, List.append_nil, List.length_nil, Nat.sub_zero] at h
      cases again with
      | false =>
        cases h
        exact ⟨rfl, hu⟩
      | true => exact ih hu h

theorem popLoop_of_poppable {ret' : List Address} (hs : s.Poppable vid n)
    (h : popLoop vid fuel s n ret = some (ret', t)) :
    ret' ≠ ret ∨ t.Poppable vid n ∧ (t.jobsOf vid).length < (s.jobsOf vid).length := by
  induction fuel generalizing s with
  | zero => cases h
  | succ fuel ih =>
    have hn : n ≠ 0 := by
      intro hzero
      obtain ⟨a, ha, -⟩ := hs
      rw [hzero, List.take_zero] at ha
      cases ha
    obtain ⟨u, again, hround, hloop⟩ := popLoop_round s vid fuel ret hn
    by_cases hany : ∃ a ∈ s.candidates vid n, s.succeeds a = true
    · obtain ⟨a, ha, hsucceeds⟩ := hany
      have hpopped : (s.candidates vid n).filter s.succeeds ≠ [] :=
        List.ne_nil_of_mem (List.mem_filter.mpr ⟨ha, hsucceeds⟩)
      rw [hloop] at h
      cases again with
      | false =>
        cases h
        exact .inl fun hsame => hpopped (List.append_right_eq_self.mp hsame)
      | true =>
        obtain ⟨-, -, popped, hret, -⟩ := popLoop_popped h
        refine .inl fun hsame => hpopped ?_
        rw [hsame, List.append_assoc] at hret
        exact (List.append_eq_nil_iff.mp (List.append_right_eq_self.mp hret.symm)).1
    · have hnone : ∀ a ∈ s.candidates vid n, s.succeeds a = false :=
        fun a ha => Bool.eq_false_iff.mpr fun hsucceeds => hany ⟨a, ha, hsucceeds⟩
      have hpopped : (s.candidates vid n).filter s.succeeds = [] :=
        List.filter_eq_nil_iff.mpr fun a ha => by simp [hnone a ha]
      have hu : u.Poppable vid n := (hround.poppable hnone).mpr hs
      have hshorter := hround.shorter_of_poppable hs hnone
      rw [hloop, hpopped, List.append_nil, List.length_nil, Nat.sub_zero] at h
      cases again with
      | false =>
        cases h
        exact .inr ⟨hu, hshorter⟩
      | true =>
        cases ih hu h with
        | inl hret => exact .inl hret
        | inr hleft => exact .inr ⟨hleft.1, hleft.2.trans hshorter⟩

/-- A batch of one of the queues if there is a job that can be popped, and otherwise no job. -/
def RightBatch (s : Queues) (batch : List Address) : Prop :=
  if ∃ vid ∈ s.vids, ∃ a ∈ s.jobsOf vid, s.succeeds a = true then
    batch ≠ [] ∧ ∃ vid ∈ s.vids, ∀ a ∈ batch, a ∈ s.jobsOf vid ∧ s.succeeds a = true
  else batch = []

theorem nextBatch_endless {files : Nat} {vids : List String} (hs : ¬ s.Poppable vid files) :
    s.nextBatch files (vid :: vids) fuel = none := by
  induction fuel generalizing s with
  | zero => rfl
  | succ fuel ih =>
    rw [nextBatch]
    cases hpop : s.popNextBatch (fuel + 1) vid files with
    | none => rfl
    | some r =>
      obtain ⟨jobs, t⟩ := r
      obtain ⟨hjobs, ht⟩ := popLoop_of_not_poppable hs hpop
      rw [hjobs]
      exact ih ht

theorem nextBatch_of_poppable {files : Nat} (vids : List String) (hs : s.Poppable vid files)
    (hfuel : (s.jobsOf vid).length + 2 ≤ fuel) :
    ∃ batch, s.nextBatch files (vid :: vids) fuel = some batch ∧ batch ≠ [] ∧
      ∀ a ∈ batch, a ∈ s.jobsOf vid ∧ s.succeeds a = true := by
  induction fuel generalizing s with
  | zero => omega
  | succ fuel ih =>
    obtain ⟨⟨jobs, t⟩, hpop⟩ := Option.isSome_iff_exists.mp
      (popLoop_isSome files [] hfuel)
    rw [nextBatch]
    have hpop' : s.popNextBatch (fuel + 1) vid files = some (jobs, t) := hpop
    rw [hpop']
    obtain ⟨hswitch, hfewer, popped, hjobs, hpopped⟩ := popLoop_popped hpop
    rw [List.nil_append] at hjobs
    cases jobs with
    | cons a rest => exact ⟨a :: rest, rfl, List.cons_ne_nil _ _, hjobs ▸ hpopped⟩
    | nil =>
      cases popLoop_of_poppable hs hpop with
      | inl hsome => exact absurd rfl hsome
      | inr hleft =>
        obtain ⟨ht, hshorter⟩ := hleft
        obtain ⟨batch, hbatch, hne, hall⟩ := ih ht (by omega)
        refine ⟨batch, hbatch, hne, fun a ha => ?_⟩
        obtain ⟨hmem, hsucceeds⟩ := hall a ha
        rw [succeeds, hswitch] at hsucceeds
        exact ⟨hfewer a hmem, hsucceeds⟩

def Polls (s : Queues) (poll : Nat → Option (List Address)) : Prop :=
  ∃ fuel batch, poll fuel = some batch ∧ s.RightBatch batch

def FirstPoppable (s : Queues) (filesRequested : Nat) : Prop :=
  ∀ vid ∈ s.vids.head?, s.Poppable vid filesRequested

theorem polls_iff {files : Nat} :
    s.Polls (s.nextBatch files s.vids) ↔ s.FirstPoppable files := by
  constructor
  · rintro ⟨fuel, batch, hbatch, -⟩ vid hvid
    obtain ⟨vids, hvids⟩ := List.head?_eq_some_iff.mp hvid
    by_contra hs
    rw [hvids, nextBatch_endless hs] at hbatch
    cases hbatch
  · intro h
    cases hvids : s.vids with
    | nil =>
      refine ⟨1, [], rfl, ?_⟩
      rw [RightBatch, if_neg (by simp [hvids])]
    | cons vid vids =>
      have hs : s.Poppable vid files := h vid (by rw [hvids]; rfl)
      obtain ⟨batch, hbatch, hne, hall⟩ := nextBatch_of_poppable vids hs (Nat.le_refl _)
      have hvid : vid ∈ s.vids := hvids ▸ List.mem_cons_self
      obtain ⟨a, rest, hcons⟩ := List.exists_cons_of_ne_nil hne
      obtain ⟨hmem, hsucceeds⟩ := hall a (hcons ▸ List.mem_cons_self)
      refine ⟨_, batch, hbatch, ?_⟩
      rw [RightBatch, if_pos ⟨vid, hvid, a, hmem, hsucceeds⟩]
      exact ⟨hne, vid, hvid, hall⟩

end Queues

/-- The polling of the two kinds of queues ends as it should if and only if there is no queue or a
job can be popped from the first one. -/
theorem nextRetrieveJobs_iff {root : JobQueueType → Queues} {filesRequested : Nat} :
    ((root .JobsToReportToUser).Polls (getNextRetrieveJobsToReportBatch root filesRequested) ↔
      (root .JobsToReportToUser).FirstPoppable filesRequested) ∧
    ((root .FailedJobs).Polls (getNextRetrieveJobsFailedBatch root filesRequested) ↔
      (root .FailedJobs).FirstPoppable filesRequested) :=
  ⟨Queues.polls_iff, Queues.polls_iff⟩

theorem nextRetrieveJobs_endless :
    let queues : Queues :=
      { vids := ["V1", "V2"]
        queue := fun vid =>
          if vid = "V1" then some ⟨[], false, List.nodup_nil⟩
          else some ⟨["request"], false, List.nodup_singleton _⟩
        switch := fun _ => none }
    (∀ fuel, getNextRetrieveJobsToReportBatch (fun _ => queues) 500 fuel = none ∧
      getNextRetrieveJobsFailedBatch (fun _ => queues) 500 fuel = none) ∧
    ¬ queues.Polls (getNextRetrieveJobsToReportBatch (fun _ => queues) 500) ∧
    ¬ queues.Polls (getNextRetrieveJobsFailedBatch (fun _ => queues) 500) := by
  intro queues
  have hempty : ¬ queues.Poppable "V1" 500 := by
    rintro ⟨a, ha, -⟩
    exact absurd ha List.not_mem_nil
  have hendless : ∀ fuel, queues.nextBatch 500 ["V1", "V2"] fuel = none :=
    fun fuel => Queues.nextBatch_endless hempty
  have hpolls : ¬ queues.Polls (queues.nextBatch 500 ["V1", "V2"]) := by
    rintro ⟨fuel, batch, hbatch, -⟩
    rw [hendless fuel] at hbatch
    cases hbatch
  exact ⟨fun fuel => ⟨hendless fuel, hendless fuel⟩, hpolls, hpolls⟩

end Cta.Scheduler.ReportPolling
