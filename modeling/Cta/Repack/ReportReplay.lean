import Cta.Lib.Commits
import Cta.Repack.ReportBatch
import Cta.Repack.Status

/-! Reports that are made again after a crash of the reporter. -/
namespace Cta.Repack
open Cta.ObjectStore (Address)
open Cta.Lib.Commits

variable {archiveFileSize : Address → Option Nat} {r q : RepackRequest}

def SameCounters (r q : RepackRequest) : Prop :=
  ∃ status subrequests, q = { r with status, subrequests }

theorem SameCounters.refl (r : RepackRequest) : SameCounters r r := ⟨_, _, rfl⟩

theorem SameCounters.trans {t : RepackRequest} (h : SameCounters r q) (h' : SameCounters q t) :
    SameCounters r t := by
  obtain ⟨_, _, rfl⟩ := h
  obtain ⟨status, subrequests, rfl⟩ := h'
  exact ⟨status, subrequests, rfl⟩

theorem SameCounters.failedToCreate (h : SameCounters r q) :
    q.failedToCreateArchiveReq = r.failedToCreateArchiveReq := by
  obtain ⟨_, _, rfl⟩ := h
  rfl

theorem report_of_accounted {k : ReportKind} {ss : List SubrequestStatistics}
    (h : ∀ s ∈ ss, r.Accounted (Report.mk k s).key) : report archiveFileSize k r ss = .ok r := by
  rw [report_eq, reportWith, accountAll_of_accounted h]
  rfl

theorem report_accounted {k : ReportKind} {ss : List SubrequestStatistics}
    (h : report archiveFileSize k r ss = .ok q) (key : ReportKey) :
    q.Accounted key ↔ r.Accounted key ∨ ∃ s ∈ ss, (Report.mk k s).key = key := by
  obtain ⟨q', hq', hbooks⟩ := report_sameBooks h
  rw [hbooks.accounted, accountReports_accounted hq']
  simp

def commitsOf (archiveFileSize : Address → Option Nat) (cs : List Call) :
    List (RepackRequest → Except ReportError RepackRequest) :=
  cs.map fun c => (report archiveFileSize c.kind · c.statistics)

theorem runCommits_accounted {cs : List Call}
    (h : runCommits (commitsOf archiveFileSize cs) r = (q, none)) :
    (∀ key, r.Accounted key → q.Accounted key) ∧
      ∀ c ∈ cs, ∀ s ∈ c.statistics, q.Accounted (Report.mk c.kind s).key := by
  induction cs generalizing r with
  | nil =>
    cases h
    exact ⟨fun _ => id, fun c hc => by cases hc⟩
  | cons c cs ih =>
    cases hc : report archiveFileSize c.kind r c.statistics with
    | error e => simp [commitsOf, runCommits, hc] at h
    | ok r1 =>
      simp only [commitsOf, List.map_cons, runCommits, hc] at h
      obtain ⟨hmono, hall⟩ := ih h
      have hfirst := report_accounted hc
      refine ⟨fun key hk => hmono key ((hfirst key).mpr (.inl hk)), fun d hd => ?_⟩
      cases List.mem_cons.mp hd with
      | inl he =>
        subst he
        exact fun s hs => hmono _ ((hfirst _).mpr (.inr ⟨s, hs, rfl⟩))
      | inr hd => exact hall d hd

theorem commitsOf_repeatable (cs : List Call)
    (h : runCommits (commitsOf archiveFileSize cs) r = (q, none)) :
    Repeatable (commitsOf archiveFileSize cs) fun j s =>
      runCommits (commitsOf archiveFileSize (cs.take j)) r = (s, none) := by
  intro i c hi j s hij hs
  obtain ⟨d, hd, rfl⟩ : ∃ d, cs[i]? = some d ∧
      (report archiveFileSize d.kind · d.statistics) = c := by
    simpa [commitsOf, List.getElem?_map] using hi
  by_cases hlt : i < j
  · -- made already
    have hmem : d ∈ cs.take j := by
      have hget : (cs.take j)[i]? = some d := by rw [List.getElem?_take_of_lt hlt, hd]
      exact List.mem_of_getElem? hget
    refine ⟨s, report_of_accounted ((runCommits_accounted hs).2 d hmem), ?_⟩
    rw [max_eq_left (by omega)]
    exact hs
  · have hji : j = i := by omega
    subst hji
    obtain ⟨hlen, hget⟩ := List.getElem?_eq_some_iff.mp hd
    have hsplit : commitsOf archiveFileSize cs = commitsOf archiveFileSize (cs.take j) ++
        (report archiveFileSize d.kind · d.statistics) ::
          commitsOf archiveFileSize (cs.drop (j + 1)) := by
      conv_lhs => rw [← List.take_append_drop j cs, List.drop_eq_getElem_cons hlen, hget]
      simp [commitsOf]
    rw [hsplit, runCommits_append hs] at h
    cases ht : report archiveFileSize d.kind s d.statistics with
    | error e => simp [runCommits, ht] at h
    | ok t =>
      refine ⟨t, ht, ?_⟩
      have htake : commitsOf archiveFileSize (cs.take (j + 1)) =
          commitsOf archiveFileSize (cs.take j) ++
          [(report archiveFileSize d.kind · d.statistics)] := by
        simp [commitsOf, List.take_add_one, hd]
      rw [max_eq_right (by omega)]
      beta_reduce
      rw [htake, runCommits_append hs]
      simp [runCommits, ht]

/-- Reports that are all protected against double reporting are harmless when made again. -/
theorem commitsOf_replay (cs : List Call)
    (h : runCommits (commitsOf archiveFileSize cs) r = (q, none)) (stops : List Nat) :
    replay (commitsOf archiveFileSize cs) r stops = (q, none) := by
  obtain ⟨t, ht, hstage⟩ := (commitsOf_repeatable cs h).replay rfl stops
  have hall : runCommits (commitsOf archiveFileSize cs) r = (t, none) := by
    simpa [commitsOf] using hstage
  rw [ht, ← hall, h]

theorem reportSubRequestsForDeletion_sameCounters {fs : List Nat}
    (h : reportSubRequestsForDeletion r fs = .ok q) :
    SameCounters r q ∧ ∀ key, q.Accounted key ↔ r.Accounted key := by
  induction fs generalizing r with
  | nil =>
    cases h
    exact ⟨.refl q, fun _ => Iff.rfl⟩
  | cons f fs ih =>
    unfold reportSubRequestsForDeletion at h
    cases hp : r.subrequests f with
    | none => simp [hp] at h
    | some p =>
      simp only [hp] at h
      obtain ⟨hcounters, haccounted⟩ := ih h
      refine ⟨.trans ⟨r.status, _, rfl⟩ hcounters, fun key => ?_⟩
      rw [haccounted, setPointer_accounted]
      split
      · next hkey =>
        rw [accounted_iff (hkey ▸ hp)]
        cases key with
        | retrieve f' => rfl
        | archive f' c => rfl
      · rfl

theorem reportSubRequestsForDeletion_registered {fs : List Nat}
    (h : ∀ f ∈ fs, (r.subrequests f).isSome) : ∃ q, reportSubRequestsForDeletion r fs = .ok q := by
  induction fs generalizing r with
  | nil => exact ⟨r, rfl⟩
  | cons f fs ih =>
    obtain ⟨p, hp⟩ := Option.isSome_iff_exists.mp (h f List.mem_cons_self)
    simp only [reportSubRequestsForDeletion, hp]
    refine ih fun g hg => ?_
    simp only [RepackRequest.setPointer, Function.update_apply]
    split
    · rfl
    · exact h g (List.mem_cons_of_mem f hg)

def retrieveFailuresCommit (subrequestList : List Subrequest) (r : RepackRequest) :
    Except ReportError RepackRequest := do
  let r ← reportSubRequestsForDeletion r (subrequestList.map Subrequest.fSeq)
  let r := reportArchiveCreationFailures r (subrequestList.map (·.copyNbsToRearchive.card)).sum
  reportRetriveFailures r (retrieveFailureStatistics subrequestList)

theorem retrieveFailuresCommit_ok (archiveFileSize : Address → Option Nat)
    {subs : List Subrequest} (h : retrieveFailuresCommit subs r = .ok q) :
    ∃ r1, reportSubRequestsForDeletion r (subs.map Subrequest.fSeq) = .ok r1 ∧
      report archiveFileSize .retrieveFailures
        (reportArchiveCreationFailures r1 (subs.map (·.copyNbsToRearchive.card)).sum)
        (retrieveFailureStatistics subs) = .ok q := by
  unfold retrieveFailuresCommit at h
  cases h1 : reportSubRequestsForDeletion r (subs.map Subrequest.fSeq) with
  | error e => simp [h1, bind, Except.bind] at h
  | ok r1 =>
    refine ⟨r1, rfl, ?_⟩
    simp only [h1, bind, Except.bind] at h
    exact h

theorem report_failedToCreate {k : ReportKind} {ss : List SubrequestStatistics}
    (h : report archiveFileSize k r ss = .ok q) :
    q.failedToCreateArchiveReq = r.failedToCreateArchiveReq := by
  obtain ⟨q', hq', status, rfl⟩ := report_sameBooks h
  exact (accountReports_grows hq').failedToCreate

theorem retrieveFailuresCommit_failedToCreate {subs : List Subrequest}
    (h : retrieveFailuresCommit subs r = .ok q) :
    q.failedToCreateArchiveReq =
      r.failedToCreateArchiveReq + (subs.map (·.copyNbsToRearchive.card)).sum := by
  obtain ⟨r1, h1, hq⟩ := retrieveFailuresCommit_ok (fun _ => none) h
  have hsame := (reportSubRequestsForDeletion_sameCounters h1).1.failedToCreate
  rw [report_failedToCreate hq]
  simp [reportArchiveCreationFailures, hsame]

theorem retrieveFailuresCommit_accounted {subs : List Subrequest}
    (h : retrieveFailuresCommit subs r = .ok q) : ∀ s ∈ subs, q.Accounted (.retrieve s.fSeq) := by
  obtain ⟨r1, -, hq⟩ := retrieveFailuresCommit_ok (fun _ => none) h
  intro s hs
  exact (report_accounted hq _).mpr (.inr ⟨_, List.mem_map_of_mem hs, rfl⟩)

theorem retrieveFailuresCommit_again {subs : List Subrequest}
    (hnone : (subs.map (·.copyNbsToRearchive.card)).sum = 0)
    (h : ∀ s ∈ subs, r.Accounted (.retrieve s.fSeq)) :
    ∃ q, retrieveFailuresCommit subs r = .ok q ∧ SameCounters r q := by
  have hregistered : ∀ f ∈ subs.map Subrequest.fSeq, (r.subrequests f).isSome := by
    intro f hf
    obtain ⟨s, hs, rfl⟩ := List.mem_map.mp hf
    obtain ⟨p, hp, -⟩ := h s hs
    exact Option.isSome_of_eq_some hp
  obtain ⟨r1, h1⟩ := reportSubRequestsForDeletion_registered hregistered
  obtain ⟨hsame, haccounted⟩ := reportSubRequestsForDeletion_sameCounters h1
  refine ⟨r1, ?_, hsame⟩
  have hall : ∀ s ∈ retrieveFailureStatistics subs,
      r1.Accounted (Report.mk .retrieveFailures s).key := by
    intro s hs
    obtain ⟨sub, hsub, rfl⟩ := List.mem_map.mp hs
    exact (haccounted _).mpr (h sub hsub)
  have hreport : report (fun _ => none) .retrieveFailures r1 (retrieveFailureStatistics subs) =
      .ok r1 := report_of_accounted hall
  simp only [retrieveFailuresCommit, h1, bind, Except.bind, hnone, reportArchiveCreationFailures,
    Nat.add_zero]
  exact hreport

theorem retrieveFailuresCommit_repeatable {subs : List Subrequest}
    (hnone : (subs.map (·.copyNbsToRearchive.card)).sum = 0)
    (h : retrieveFailuresCommit subs r = .ok q) :
    Repeatable [retrieveFailuresCommit subs] fun j s =>
      j = 0 ∧ s = r ∨ 0 < j ∧ SameCounters q s ∧
      ∀ sub ∈ subs, s.Accounted (.retrieve sub.fSeq) := by
  intro i c hi j s hij hs
  obtain ⟨rfl, rfl⟩ : i = 0 ∧ retrieveFailuresCommit subs = c := by
    cases i with
    | zero => simpa using hi
    | succ i => simp at hi
  cases hs with
  | inl hfirst =>
    obtain ⟨rfl, rfl⟩ := hfirst
    exact ⟨q, h, .inr ⟨by omega, .refl q, retrieveFailuresCommit_accounted h⟩⟩
  | inr hlater =>
    obtain ⟨-, hsame, haccounted⟩ := hlater
    obtain ⟨t, ht, hsame'⟩ := retrieveFailuresCommit_again hnone haccounted
    exact ⟨t, ht, .inr ⟨by omega, hsame.trans hsame', retrieveFailuresCommit_accounted ht⟩⟩

def ReportBatch.archiveCreationFailures : ReportBatch → Nat
  | .retrieveFailures subrequestList => (subrequestList.map (·.copyNbsToRearchive.card)).sum
  | .retrieveSuccesses _ _ | .archiveSuccesses _ | .archiveFailures _ => 0

/-- However the reporter stops and starts again, the counters end as after one report. -/
def ReplayHarmless (archiveFileSize : Address → Option Nat) (b : ReportBatch)
    (r q : RepackRequest) : Prop :=
  ∀ stops, ∃ t, replay (b.commits archiveFileSize) r stops = (t, none) ∧ SameCounters q t

theorem replayHarmless_of_calls {b : ReportBatch} (cs : List Call)
    (hb : b.commits archiveFileSize = commitsOf archiveFileSize cs)
    (h : runCommits (b.commits archiveFileSize) r = (q, none)) :
    ReplayHarmless archiveFileSize b r q := by
  intro stops
  rw [hb] at h ⊢
  exact ⟨q, commitsOf_replay cs h stops, .refl q⟩

/-- Reporting again is harmless but for the copies that a failed retrieval keeps from being
created. -/
theorem replayHarmless_iff {b : ReportBatch}
    (h : runCommits (b.commits archiveFileSize) r = (q, none)) :
    ReplayHarmless archiveFileSize b r q ↔ b.archiveCreationFailures = 0 := by
  cases b with
  | retrieveSuccesses subs failed =>
    refine iff_of_true ?_ rfl
    refine replayHarmless_of_calls (⟨.retrieveSuccesses, retrieveStatistics subs⟩ ::
      if failed.isEmpty then [] else [⟨.archiveFailures, failedArchiveStatistics failed⟩]) ?_ h
    cases failed with
    | nil => rfl
    | cons s failed => rfl
  | archiveSuccesses subs =>
    refine iff_of_true ?_ rfl
    exact replayHarmless_of_calls [⟨.archiveSuccesses, prepareReport subs⟩] rfl h
  | archiveFailures subs =>
    refine iff_of_true ?_ rfl
    exact replayHarmless_of_calls [⟨.archiveFailures, prepareReport subs⟩] rfl h
  | retrieveFailures subs =>
    have hcommits : (ReportBatch.retrieveFailures subs).commits archiveFileSize =
        [retrieveFailuresCommit subs] := rfl
    rw [hcommits] at h
    have hq : retrieveFailuresCommit subs r = .ok q := by
      cases hc : retrieveFailuresCommit subs r with
      | error e => simp [runCommits, hc] at h
      | ok t =>
        simp only [runCommits, hc, Prod.mk.injEq, and_true] at h
        rw [h]
    constructor
    · intro hharmless
      -- one crash after the commit
      obtain ⟨t, ht, hsame⟩ := hharmless [1]
      have hagain : runCommits [retrieveFailuresCommit subs] q = (t, none) := by
        simpa [replay, hcommits, runCommits, hq] using ht
      have ht : retrieveFailuresCommit subs q = .ok t := by
        cases hc : retrieveFailuresCommit subs q with
        | error e => simp [runCommits, hc] at hagain
        | ok u =>
          simp only [runCommits, hc, Prod.mk.injEq, and_true] at hagain
          rw [hagain]
      have hcount := retrieveFailuresCommit_failedToCreate ht
      have hkept := hsame.failedToCreate
      simp only [ReportBatch.archiveCreationFailures]
      omega
    · intro hnone stops
      obtain ⟨t, ht, hstage⟩ :=
        (retrieveFailuresCommit_repeatable hnone hq).replay (.inl ⟨rfl, rfl⟩) stops
      refine ⟨t, ht, ?_⟩
      cases hstage with
      | inl hzero => exact absurd hzero.1 (by simp)
      | inr hlater => exact hlater.2.1

def oneFileRetrieved : ReportBatch :=
  .retrieveSuccesses [{ fSeq := 7, fileSize := 10, copyNbsToRearchive := {1, 2} }] []

theorem replayHarmless_iff_oneFileRetrieved :
    ReplayHarmless (fun _ => some 10) oneFileRetrieved oneFile
      (runCommits (oneFileRetrieved.commits fun _ => some 10) oneFile).1 :=
  (replayHarmless_iff (Prod.ext rfl rfl)).mpr rfl

def oneFileNotRetrieved : ReportBatch :=
  .retrieveFailures [{ fSeq := 7, fileSize := 10, copyNbsToRearchive := {1, 2} }]

/-- The two copies of one file are counted again with every report. -/
theorem oneFileNotRetrieved_counted_again :
    let q := (runCommits (oneFileNotRetrieved.commits fun _ => some 10) oneFile).1
    let t := (replay (oneFileNotRetrieved.commits fun _ => some 10) oneFile [1]).1
    q.failedToCreateArchiveReq = 2 ∧ t.failedToCreateArchiveReq = 4 ∧
      ¬ ReplayHarmless (fun _ => some 10) oneFileNotRetrieved oneFile q := by
  refine ⟨by decide, by decide, fun h => ?_⟩
  obtain ⟨t, ht, hsame⟩ := h [1]
  have htwice : (replay (oneFileNotRetrieved.commits fun _ => some 10) oneFile
      [1]).1.failedToCreateArchiveReq = 4 := by decide
  rw [ht] at htwice
  have honce : (runCommits (oneFileNotRetrieved.commits fun _ => some 10)
      oneFile).1.failedToCreateArchiveReq = 2 := by decide
  have hkept := hsame.failedToCreate
  simp only at htwice
  omega

end Cta.Repack
