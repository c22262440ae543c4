import Cta.Lib.Runs
import Cta.Repack.RepackRequest
import Mathlib.Algebra.BigOperators.Group.List.Basic
import Mathlib.Data.List.Flatten
import Mathlib.Data.List.Nodup
import Mathlib.Algebra.Ring.Nat

/-! Reports of sub-requests, one by one: each is accounted once, however the reports are
grouped into calls. -/
namespace Cta.Repack
open Cta.ObjectStore (Address)
open Cta.Lib.Runs

/-- What is accounted: the retrieval of a file or one of its copies. -/
inductive ReportKey where
  | retrieve (fSeq : Nat)
  | archive (fSeq copyNb : Nat)
  deriving DecidableEq, Repr

structure Report where
  kind : ReportKind
  statistics : SubrequestStatistics
  deriving DecidableEq, Repr

def Report.key (x : Report) : ReportKey :=
  match x.kind with
  | .retrieveSuccesses | .retrieveFailures => .retrieve x.statistics.fSeq
  | .archiveSuccesses | .archiveFailures => .archive x.statistics.fSeq x.statistics.copyNb

def SubRequestPointer.Accounted (p : SubRequestPointer) : ReportKey → Prop
  | .retrieve _ => p.retrieveAccounted = true
  | .archive _ copyNb => copyNb ∈ p.archiveCopyNbsAccounted

def ReportKey.fSeq : ReportKey → Nat
  | .retrieve fSeq | .archive fSeq _ => fSeq

def RepackRequest.Accounted (r : RepackRequest) (k : ReportKey) : Prop :=
  ∃ p, r.subrequests k.fSeq = some p ∧ p.Accounted k

/-- What a report adds to the retrieved and failed-to-retrieve files. A file provided by the
user is not retrieved. -/
def Report.retrieveFiles (x : Report) : Nat :=
  match x.kind with
  | .retrieveSuccesses => if x.statistics.hasUserProvidedFile then 0 else x.statistics.files
  | .retrieveFailures => x.statistics.files
  | .archiveSuccesses | .archiveFailures => 0

def Report.retrieveBytes (x : Report) : Nat :=
  match x.kind with
  | .retrieveSuccesses => if x.statistics.hasUserProvidedFile then 0 else x.statistics.bytes
  | .retrieveFailures => x.statistics.bytes
  | .archiveSuccesses | .archiveFailures => 0

def Report.archiveFiles (x : Report) : Nat :=
  match x.kind with
  | .retrieveSuccesses | .retrieveFailures => 0
  | .archiveSuccesses | .archiveFailures => x.statistics.files

def Report.archiveBytes (x : Report) : Nat :=
  match x.kind with
  | .retrieveSuccesses | .retrieveFailures => 0
  | .archiveSuccesses | .archiveFailures => x.statistics.bytes

variable (archiveFileSize : Address → Option Nat)

def accountOf : ReportKind → Account
  | .retrieveSuccesses => accountRetrieveSuccess
  | .retrieveFailures => accountRetrieveFailure
  | .archiveSuccesses => accountArchiveSuccess archiveFileSize
  | .archiveFailures => accountArchiveFailure

theorem report_eq (k : ReportKind) : report archiveFileSize k =
    reportWith (accountOf archiveFileSize k) := by
  cases k <;> rfl

def accountReport (r : RepackRequest) (x : Report) : Except ReportError RepackRequest :=
  match r.subrequests x.statistics.fSeq with
  | none => .error .unknownFSeq
  | some p =>
    match accountOf archiveFileSize x.kind r p x.statistics with
    | .error e => .error e
    | .ok none => .ok r
    | .ok (some (r', p')) => .ok (r'.setPointer x.statistics.fSeq p')

def accountReports : RepackRequest → List Report → Except ReportError RepackRequest
  | r, [] => .ok r
  | r, x :: xs => (accountReport archiveFileSize r x).bind (accountReports · xs)

variable {archiveFileSize} {r q : RepackRequest} {x : Report}

/-- A report that is accounted adds to the counters what it says and marks its key. -/
structure Counts (r : RepackRequest) (x : Report) (q : RepackRequest) : Prop where
  fresh : ¬ r.Accounted x.key
  retrieveFiles : q.retrievedFiles + q.failedToRetrieveFiles =
    r.retrievedFiles + r.failedToRetrieveFiles + x.retrieveFiles
  retrieveBytes : q.retrievedBytes + q.failedToRetrieveBytes =
    r.retrievedBytes + r.failedToRetrieveBytes + x.retrieveBytes
  archiveFiles : q.archivedFiles + q.failedToArchiveFiles =
    r.archivedFiles + r.failedToArchiveFiles + x.archiveFiles
  archiveBytes : q.archivedBytes + q.failedToArchiveBytes =
    r.archivedBytes + r.failedToArchiveBytes + x.archiveBytes
  accounted : ∀ k, q.Accounted k ↔ r.Accounted k ∨ k = x.key

theorem accounted_iff {k : ReportKey} {p : SubRequestPointer} (hp : r.subrequests k.fSeq = some p) :
    r.Accounted k ↔ p.Accounted k := by
  simp [RepackRequest.Accounted, hp]

theorem setPointer_accounted (r : RepackRequest) (fSeq : Nat) (p : SubRequestPointer)
    (k : ReportKey) :
    (r.setPointer fSeq p).Accounted k ↔
      if k.fSeq = fSeq then p.Accounted k else r.Accounted k := by
  by_cases h : k.fSeq = fSeq
  · simp [RepackRequest.Accounted, RepackRequest.setPointer, h]
  · simp [RepackRequest.Accounted, RepackRequest.setPointer, h]

theorem setPointer_accounts (key : ReportKey) {r' : RepackRequest} {p p' : SubRequestPointer}
    (hp : r.subrequests key.fSeq = some p) (hr : r'.subrequests = r.subrequests)
    (hp' : ∀ k, k.fSeq = key.fSeq → (p'.Accounted k ↔ p.Accounted k ∨ k = key)) (k : ReportKey) :
    (r'.setPointer key.fSeq p').Accounted k ↔ r.Accounted k ∨ k = key := by
  rw [setPointer_accounted]
  split
  · next h => rw [hp' k h, accounted_iff (h ▸ hp)]
  · next h =>
    have hne : k ≠ key := fun he => h (he ▸ rfl)
    simp [RepackRequest.Accounted, hr, hne]

theorem retrieveAccounted_iff {p : SubRequestPointer} {fSeq : Nat} (k : ReportKey)
    (hk : k.fSeq = fSeq) :
    { p with retrieveAccounted := true }.Accounted k ↔ p.Accounted k ∨ k = .retrieve fSeq := by
  cases k with
  | retrieve f =>
    simp only [ReportKey.fSeq] at hk
    simp [SubRequestPointer.Accounted, hk]
  | archive f c => simp [SubRequestPointer.Accounted]

theorem archiveAccounted_iff {p : SubRequestPointer} {fSeq copyNb : Nat} {deleted : Bool}
    (k : ReportKey) (hk : k.fSeq = fSeq) :
    { p with
      archiveCopyNbsAccounted := insert copyNb p.archiveCopyNbsAccounted
      subrequestDeleted := deleted }.Accounted k ↔ p.Accounted k ∨ k = .archive fSeq copyNb := by
  cases k with
  | retrieve f => simp [SubRequestPointer.Accounted]
  | archive f c =>
    simp only [ReportKey.fSeq] at hk
    simp only [SubRequestPointer.Accounted, Finset.mem_insert, hk, ReportKey.archive.injEq,
      true_and]
    exact or_comm

/-- A report changes nothing if it is accounted already, and counts otherwise. -/
theorem accountReport_cases (h : accountReport archiveFileSize r x = .ok q) :
    r.Accounted x.key ∧ q = r ∨ Counts r x q := by
  obtain ⟨kind, s⟩ := x
  unfold accountReport at h
  cases hp : r.subrequests s.fSeq with
  | none => simp [hp] at h
  | some p =>
    simp only [hp] at h
    cases kind with
    | retrieveSuccesses =>
      have hiff := accounted_iff (k := .retrieve s.fSeq) hp
      by_cases ha : p.retrieveAccounted
      · simp only [accountOf, accountRetrieveSuccess, ha, if_true, Except.ok.injEq] at h
        exact .inl ⟨hiff.mpr ha, h.symm⟩
      · simp only [accountOf, accountRetrieveSuccess, ha] at h
        cases h
        refine .inr ⟨fun hf => ha (hiff.mp hf), ?_, ?_, ?_, ?_,
          setPointer_accounts (.retrieve s.fSeq) hp ?_ fun k hk => retrieveAccounted_iff k hk⟩
        · simp only [RepackRequest.setPointer, Report.retrieveFiles]
          split <;> simp; omega
        · simp only [RepackRequest.setPointer, Report.retrieveBytes]
          split <;> simp; omega
        · simp only [RepackRequest.setPointer, Report.archiveFiles]
          split <;> simp
        · simp only [RepackRequest.setPointer, Report.archiveBytes]
          split <;> simp
        · split <;> rfl
    | retrieveFailures =>
      have hiff := accounted_iff (k := .retrieve s.fSeq) hp
      by_cases ha : p.retrieveAccounted
      · simp only [accountOf, accountRetrieveFailure, ha, if_true, Except.ok.injEq] at h
        exact .inl ⟨hiff.mpr ha, h.symm⟩
      · simp only [accountOf, accountRetrieveFailure, ha] at h
        cases h
        refine .inr ⟨fun hf => ha (hiff.mp hf), ?_, ?_, rfl, rfl,
          setPointer_accounts (.retrieve s.fSeq) hp rfl fun k hk => retrieveAccounted_iff k hk⟩
        · simp only [RepackRequest.setPointer, Report.retrieveFiles]
          omega
        · simp only [RepackRequest.setPointer, Report.retrieveBytes]
          omega
    | archiveSuccesses =>
      have hiff := accounted_iff (k := .archive s.fSeq s.copyNb) hp
      by_cases ha : s.copyNb ∈ p.archiveCopyNbsAccounted
      · simp only [accountOf, accountArchiveSuccess, ha, if_true, Except.ok.injEq] at h
        exact .inl ⟨hiff.mpr ha, h.symm⟩
      · cases hsize : archiveFileSize p.address with
        | none => simp [accountOf, accountArchiveSuccess, ha, hsize] at h
        | some fileSize =>
          simp only [accountOf, accountArchiveSuccess, ha, hsize, if_false] at h
          cases h
          refine .inr ⟨fun hf => ha (hiff.mp hf), rfl, rfl, ?_, ?_,
            setPointer_accounts (.archive s.fSeq s.copyNb) hp rfl
              fun k hk => archiveAccounted_iff k hk⟩
          · simp only [RepackRequest.setPointer, Report.archiveFiles]
            omega
          · simp only [RepackRequest.setPointer, Report.archiveBytes]
            omega
    | archiveFailures =>
      have hiff := accounted_iff (k := .archive s.fSeq s.copyNb) hp
      by_cases ha : s.copyNb ∈ p.archiveCopyNbsAccounted
      · simp only [accountOf, accountArchiveFailure, ha, if_true, Except.ok.injEq] at h
        exact .inl ⟨hiff.mpr ha, h.symm⟩
      · simp only [accountOf, accountArchiveFailure, ha, if_false] at h
        cases h
        refine .inr ⟨fun hf => ha (hiff.mp hf), rfl, rfl, ?_, ?_,
          setPointer_accounts (.archive s.fSeq s.copyNb) hp rfl
            fun k hk => archiveAccounted_iff k hk⟩
        · simp only [RepackRequest.setPointer, Report.archiveFiles]
          omega
        · simp only [RepackRequest.setPointer, Report.archiveBytes]
          omega

/-- The reports of a list that count, with what they add. -/
structure CountedOnce (r q : RepackRequest) (xs counted : List Report) : Prop where
  reported : counted.Sublist xs
  once : (counted.map Report.key).Nodup
  fresh : ∀ x ∈ counted, ¬ r.Accounted x.key
  retrieveFiles : q.retrievedFiles + q.failedToRetrieveFiles =
    r.retrievedFiles + r.failedToRetrieveFiles + (counted.map Report.retrieveFiles).sum
  retrieveBytes : q.retrievedBytes + q.failedToRetrieveBytes =
    r.retrievedBytes + r.failedToRetrieveBytes + (counted.map Report.retrieveBytes).sum
  archiveFiles : q.archivedFiles + q.failedToArchiveFiles =
    r.archivedFiles + r.failedToArchiveFiles + (counted.map Report.archiveFiles).sum
  archiveBytes : q.archivedBytes + q.failedToArchiveBytes =
    r.archivedBytes + r.failedToArchiveBytes + (counted.map Report.archiveBytes).sum

theorem CountedOnce.refl (r : RepackRequest) (xs : List Report) : CountedOnce r r xs [] :=
  ⟨List.nil_sublist xs, List.nodup_nil, by simp, rfl, rfl, rfl, rfl⟩

theorem Counts.cons {xs counted : List Report} {q' : RepackRequest} (h : Counts r x q)
    (hc : CountedOnce q q' xs counted) : CountedOnce r q' (x :: xs) (x :: counted) where
  reported := hc.reported.cons_cons x
  once := by
    rw [List.map_cons, List.nodup_cons]
    refine ⟨fun hm => ?_, hc.once⟩
    obtain ⟨y, hy, he⟩ := List.mem_map.mp hm
    exact hc.fresh y hy ((h.accounted y.key).mpr (.inr he))
  fresh := by
    intro y hy
    cases List.mem_cons.mp hy with
    | inl he => exact he ▸ h.fresh
    | inr hm => exact fun ha => hc.fresh y hm ((h.accounted y.key).mpr (.inl ha))
  retrieveFiles := by
    rw [hc.retrieveFiles, h.retrieveFiles, List.map_cons, List.sum_cons, Nat.add_assoc]
  retrieveBytes := by
    rw [hc.retrieveBytes, h.retrieveBytes, List.map_cons, List.sum_cons, Nat.add_assoc]
  archiveFiles := by
    rw [hc.archiveFiles, h.archiveFiles, List.map_cons, List.sum_cons, Nat.add_assoc]
  archiveBytes := by
    rw [hc.archiveBytes, h.archiveBytes, List.map_cons, List.sum_cons, Nat.add_assoc]

theorem accountReports_countedOnce {xs : List Report}
    (h : accountReports archiveFileSize r xs = .ok q) : ∃ counted, CountedOnce r q xs counted := by
  induction xs generalizing r with
  | nil =>
    cases h
    exact ⟨[], .refl _ []⟩
  | cons x xs ih =>
    cases hx : accountReport archiveFileSize r x with
    | error e => simp [accountReports, hx, Except.bind] at h
    | ok r' =>
      simp only [accountReports, hx, Except.bind] at h
      obtain ⟨counted, hc⟩ := ih h
      cases accountReport_cases hx with
      | inl hold =>
        rw [hold.2] at hc
        exact ⟨counted, { hc with reported := hc.reported.cons x }⟩
      | inr hnew => exact ⟨x :: counted, hnew.cons hc⟩

theorem accountReports_accounted {xs : List Report}
    (h : accountReports archiveFileSize r xs = .ok q) (k : ReportKey) :
    q.Accounted k ↔ r.Accounted k ∨ k ∈ xs.map Report.key := by
  induction xs generalizing r with
  | nil =>
    cases h
    simp
  | cons x xs ih =>
    cases hx : accountReport archiveFileSize r x with
    | error e => simp [accountReports, hx, Except.bind] at h
    | ok r' =>
      simp only [accountReports, hx, Except.bind] at h
      rw [ih h, List.map_cons, List.mem_cons]
      cases accountReport_cases hx with
      | inl hold =>
        rw [hold.2]
        constructor
        · exact fun hk => hk.imp id .inr
        · intro hk
          cases hk with
          | inl hk => exact .inl hk
          | inr hk =>
            cases hk with
            | inl he => exact .inl (he ▸ hold.1)
            | inr hm => exact .inr hm
      | inr hnew => rw [hnew.accounted k, or_assoc]

theorem accountAll_reports {k : ReportKind} {ss : List SubrequestStatistics} {u : Bool}
    (h : accountAll (accountOf archiveFileSize k) r ss = .ok (q, u)) :
    accountReports archiveFileSize r (ss.map (⟨k, ·⟩)) = .ok q := by
  induction ss generalizing r q u with
  | nil =>
    cases h
    rfl
  | cons s ss ih =>
    unfold accountAll at h
    cases hp : r.subrequests s.fSeq with
    | none => simp [hp] at h
    | some p =>
      simp only [hp] at h
      cases ha : accountOf archiveFileSize k r p s with
      | error e => simp [ha] at h
      | ok o =>
        cases o with
        | none =>
          simp only [ha] at h
          simp only [List.map_cons, accountReports, accountReport, hp, ha, Except.bind]
          exact ih h
        | some rp =>
          simp only [ha] at h
          cases hrest : accountAll (accountOf archiveFileSize k)
            (rp.1.setPointer s.fSeq rp.2) ss with
          | error e => simp [hrest, Except.map] at h
          | ok q' =>
            simp only [hrest, Except.map, Except.ok.injEq, Prod.mk.injEq] at h
            simp only [List.map_cons, accountReports, accountReport, hp, ha, Except.bind]
            rw [← h.1]
            exact ih hrest

theorem accountOf_accounted {k : ReportKind} {p : SubRequestPointer} {s : SubrequestStatistics}
    (h : p.Accounted (Report.mk k s).key) : accountOf archiveFileSize k r p s = .ok none := by
  cases k with
  | retrieveSuccesses => exact if_pos h
  | retrieveFailures => exact if_pos h
  | archiveSuccesses => exact if_pos h
  | archiveFailures => exact if_pos h

theorem accountAll_of_accounted {k : ReportKind} {ss : List SubrequestStatistics}
    (h : ∀ s ∈ ss, r.Accounted (Report.mk k s).key) :
    accountAll (accountOf archiveFileSize k) r ss = .ok (r, false) := by
  induction ss with
  | nil => rfl
  | cons s ss ih =>
    obtain ⟨p, hp, ha⟩ := h s List.mem_cons_self
    have hfseq : (Report.mk k s).key.fSeq = s.fSeq := by cases k <;> rfl
    rw [hfseq] at hp
    simp only [accountAll, hp, accountOf_accounted ha]
    exact ih fun t ht => h t (List.mem_cons_of_mem s ht)

theorem report_ok {k : ReportKind} {ss : List SubrequestStatistics}
    (h : report archiveFileSize k r ss = .ok q) :
    ∃ q' u, accountAll (accountOf archiveFileSize k) r ss = .ok (q', u) ∧
      q = if u then q'.setStatus else q' := by
  rw [report_eq, reportWith] at h
  cases ha : accountAll (accountOf archiveFileSize k) r ss with
  | error e => simp [ha, Except.map] at h
  | ok o =>
    simp only [ha, Except.map, Except.ok.injEq] at h
    exact ⟨o.1, o.2, rfl, h.symm⟩

def SameBooks (r q : RepackRequest) : Prop := ∃ status, q = { r with status }

theorem SameBooks.refl (r : RepackRequest) : SameBooks r r := ⟨r.status, rfl⟩

theorem SameBooks.symm (h : SameBooks r q) : SameBooks q r := by
  obtain ⟨status, rfl⟩ := h
  exact ⟨r.status, rfl⟩

theorem SameBooks.trans {r' : RepackRequest} (h : SameBooks r q) (h' : SameBooks q r') :
    SameBooks r r' := by
  obtain ⟨status, rfl⟩ := h
  obtain ⟨status', rfl⟩ := h'
  exact ⟨status', rfl⟩

theorem SameBooks.accounted (h : SameBooks r q) (k : ReportKey) :
    q.Accounted k ↔ r.Accounted k := by
  obtain ⟨status, rfl⟩ := h
  rfl

theorem SameBooks.countedOnce {r' : RepackRequest} {xs counted : List Report} (h : SameBooks q r')
    (hc : CountedOnce r q xs counted) : CountedOnce r r' xs counted := by
  obtain ⟨status, rfl⟩ := h
  exact ⟨hc.reported, hc.once, hc.fresh, hc.retrieveFiles, hc.retrieveBytes, hc.archiveFiles,
    hc.archiveBytes⟩

theorem accountOf_status (k : ReportKind) (r : RepackRequest) (p : SubRequestPointer)
    (s : SubrequestStatistics) (status : RepackStatus) :
    accountOf archiveFileSize k { r with status } p s =
      (accountOf archiveFileSize k r p s).map
        (Option.map fun rp => ({ rp.1 with status }, rp.2)) := by
  cases k with
  | retrieveSuccesses =>
    simp only [accountOf, accountRetrieveSuccess]
    split_ifs <;> rfl
  | retrieveFailures =>
    simp only [accountOf, accountRetrieveFailure]
    split_ifs <;> rfl
  | archiveSuccesses =>
    simp only [accountOf, accountArchiveSuccess]
    split_ifs
    · rfl
    · cases archiveFileSize p.address <;> rfl
  | archiveFailures =>
    simp only [accountOf, accountArchiveFailure]
    split_ifs <;> rfl

theorem SameBooks.accountReport {r' : RepackRequest} (h : SameBooks r r')
    (hx : Repack.accountReport archiveFileSize r x = .ok q) :
    ∃ q', Repack.accountReport archiveFileSize r' x = .ok q' ∧ SameBooks q q' := by
  obtain ⟨status, rfl⟩ := h
  unfold Repack.accountReport at hx ⊢
  cases hp : r.subrequests x.statistics.fSeq with
  | none => simp [hp] at hx
  | some p =>
    simp only [hp, accountOf_status] at hx ⊢
    cases ha : accountOf archiveFileSize x.kind r p x.statistics with
    | error e => simp [ha] at hx
    | ok o =>
      cases o with
      | none =>
        simp only [ha, Except.ok.injEq] at hx
        exact ⟨{ r with status }, rfl, status, by rw [hx]⟩
      | some rp =>
        simp only [ha, Except.ok.injEq] at hx
        subst hx
        exact ⟨_, rfl, status, rfl⟩

theorem SameBooks.accountReports {r' : RepackRequest} {xs : List Report} (h : SameBooks r r')
    (hx : Repack.accountReports archiveFileSize r xs = .ok q) :
    ∃ q', Repack.accountReports archiveFileSize r' xs = .ok q' ∧ SameBooks q q' := by
  induction xs generalizing r r' with
  | nil =>
    cases hx
    exact ⟨r', rfl, h⟩
  | cons x xs ih =>
    cases h1 : Repack.accountReport archiveFileSize r x with
    | error e => simp [Repack.accountReports, h1, Except.bind] at hx
    | ok r1 =>
      simp only [Repack.accountReports, h1, Except.bind] at hx
      obtain ⟨r1', h1', hb⟩ := h.accountReport h1
      simp only [Repack.accountReports, h1', Except.bind]
      exact ih hb hx

theorem accountReports_append (r : RepackRequest) (xs ys : List Report) :
    accountReports archiveFileSize r (xs ++ ys) =
      (accountReports archiveFileSize r xs).bind (accountReports archiveFileSize · ys) := by
  induction xs generalizing r with
  | nil => rfl
  | cons x xs ih =>
    cases h : accountReport archiveFileSize r x with
    | error e => simp [accountReports, h, Except.bind]
    | ok r' => simp [accountReports, h, Except.bind, ih]

structure Call where
  kind : ReportKind
  statistics : List SubrequestStatistics

def RepackRequest.call (archiveFileSize : Address → Option Nat) (r : RepackRequest) (c : Call) :
    RepackRequest :=
  match report archiveFileSize c.kind r c.statistics with
  | .ok q => q
  | .error _ => r

def reportsOf (cs : List Call) : List Report :=
  cs.flatMap fun c => c.statistics.map (⟨c.kind, ·⟩)

def Completes (archiveFileSize : Address → Option Nat) : RepackRequest → List Call → Prop :=
  AllSteps (RepackRequest.call archiveFileSize) fun r c =>
    (report archiveFileSize c.kind r c.statistics).isOk

theorem report_sameBooks {k : ReportKind} {ss : List SubrequestStatistics}
    (h : report archiveFileSize k r ss = .ok q) :
    ∃ q', accountReports archiveFileSize r (ss.map (⟨k, ·⟩)) = .ok q' ∧ SameBooks q' q := by
  obtain ⟨q', u, ha, rfl⟩ := report_ok h
  refine ⟨q', accountAll_reports ha, ?_⟩
  cases u with
  | false => exact .refl q'
  | true => exact ⟨q'.newStatus, rfl⟩

theorem calls_sameBooks (archiveFileSize : Address → Option Nat) (cs : List Call)
    (r : RepackRequest) :
    ∃ ds q, ds.Sublist cs ∧ accountReports archiveFileSize r (reportsOf ds) = .ok q ∧
      SameBooks q (cs.foldl (RepackRequest.call archiveFileSize) r) ∧
      (Completes archiveFileSize r cs → ds = cs) := by
  induction cs generalizing r with
  | nil => exact ⟨[], r, .slnil, rfl, .refl r, fun _ => rfl⟩
  | cons c cs ih =>
    obtain ⟨ds, q, hsub, hq, hbooks, hall⟩ := ih (r.call archiveFileSize c)
    cases hc : report archiveFileSize c.kind r c.statistics with
    | error e =>
      have hcall : r.call archiveFileSize c = r := by simp [RepackRequest.call, hc]
      rw [hcall] at hq hbooks
      refine ⟨ds, q, hsub.cons c, hq, by simpa [hcall] using hbooks, fun h => ?_⟩
      simp [Completes, AllSteps, hc, Except.isOk, Except.toBool] at h
    | ok r1 =>
      have hcall : r.call archiveFileSize c = r1 := by simp [RepackRequest.call, hc]
      rw [hcall] at hq hbooks hall
      obtain ⟨r1', h1, hb1⟩ := report_sameBooks hc
      obtain ⟨q', hq', hb⟩ := hb1.symm.accountReports hq
      refine ⟨c :: ds, q', hsub.cons_cons c, ?_, ?_, fun h => ?_⟩
      · rw [reportsOf, List.flatMap_cons, accountReports_append, h1]
        exact hq'
      · rw [List.foldl_cons, hcall]
        exact hb.symm.trans hbooks
      · have hrest : Completes archiveFileSize (r.call archiveFileSize c) cs := h.2
        rw [hcall] at hrest
        rw [hall hrest]

/-- Each retrieval and each copy is counted at most once, over any calls; a repeated call
changes nothing; and what is accounted in the end only depends on what was reported. -/
theorem reports_counted_once (archiveFileSize : Address → Option Nat) (r : RepackRequest)
    (cs : List Call) :
    (∃ counted, CountedOnce r (cs.foldl (RepackRequest.call archiveFileSize) r) (reportsOf cs)
      counted) ∧
    (∀ k ss q,
      report archiveFileSize k (cs.foldl (RepackRequest.call archiveFileSize) r) ss = .ok q →
        report archiveFileSize k q ss = .ok q) ∧
    ∀ ds, (reportsOf ds).Perm (reportsOf cs) → Completes archiveFileSize r cs →
      Completes archiveFileSize r ds → ∀ k,
        (ds.foldl (RepackRequest.call archiveFileSize) r).Accounted k ↔
          (cs.foldl (RepackRequest.call archiveFileSize) r).Accounted k := by
  refine ⟨?_, ?_, ?_⟩
  · obtain ⟨ds, q, hsub, hq, hbooks, -⟩ := calls_sameBooks archiveFileSize cs r
    obtain ⟨counted, hc⟩ := accountReports_countedOnce hq
    have hreports : (reportsOf ds).Sublist (reportsOf cs) := hsub.flatMap _
    exact ⟨counted, hbooks.countedOnce { hc with reported := hc.reported.trans hreports }⟩
  · intro k ss q h
    obtain ⟨q', hq', hbooks⟩ := report_sameBooks h
    have hall : ∀ s ∈ ss, q.Accounted (Report.mk k s).key := by
      intro s hs
      rw [hbooks.accounted, accountReports_accounted hq']
      exact .inr (List.mem_map_of_mem (List.mem_map_of_mem hs))
    rw [report_eq, reportWith, accountAll_of_accounted hall]
    rfl
  · intro ds hperm hcs hds k
    obtain ⟨cs', q, -, hq, hbooks, hall⟩ := calls_sameBooks archiveFileSize cs r
    obtain ⟨ds', q', -, hq', hbooks', hall'⟩ :=
      calls_sameBooks archiveFileSize ds r
    rw [hall hcs] at hq
    rw [hall' hds] at hq'
    rw [hbooks.accounted, hbooks'.accounted, accountReports_accounted hq,
      accountReports_accounted hq', (hperm.map Report.key).mem_iff]

/-- A table of one file, with the reports of its retrieval and of its two copies. -/
def oneFile : RepackRequest where
  isExpandStarted := true
  isExpandFinished := true
  totalFilesToRetrieve := 1
  totalFilesToArchive := 2
  subrequests := fun f => if f = 7 then some { address := "sub" } else none

def oneFileCalls : List Call :=
  [⟨.retrieveSuccesses, [{ fSeq := 7, bytes := 10 }]⟩,
    ⟨.archiveSuccesses, [{ fSeq := 7, bytes := 10, copyNb := 1 }]⟩,
    ⟨.archiveFailures,
      [{ fSeq := 7, bytes := 10, copyNb := 2 }, { fSeq := 7, bytes := 10, copyNb := 1 }]⟩]

/-- The same reports, the failures one by one and first. -/
def oneFileRegrouped : List Call :=
  [⟨.archiveFailures, [{ fSeq := 7, bytes := 10, copyNb := 2 }]⟩,
    ⟨.archiveFailures, [{ fSeq := 7, bytes := 10, copyNb := 1 }]⟩,
    ⟨.retrieveSuccesses, [{ fSeq := 7, bytes := 10 }]⟩,
    ⟨.archiveSuccesses, [{ fSeq := 7, bytes := 10, copyNb := 1 }]⟩]

theorem reports_counted_once_oneFile :
    (∃ counted, CountedOnce oneFile
      (oneFileCalls.foldl (RepackRequest.call fun _ => some 10) oneFile) (reportsOf oneFileCalls)
      counted) ∧
    (reportsOf oneFileRegrouped).Perm (reportsOf oneFileCalls) ∧
    Completes (fun _ => some 10) oneFile oneFileCalls ∧
    Completes (fun _ => some 10) oneFile oneFileRegrouped ∧
    ∀ k, (oneFileRegrouped.foldl (RepackRequest.call fun _ => some 10) oneFile).Accounted k ↔
      (oneFileCalls.foldl (RepackRequest.call fun _ => some 10) oneFile).Accounted k := by
  have hperm : (reportsOf oneFileRegrouped).Perm (reportsOf oneFileCalls) := by decide
  have hcs : Completes (fun _ => some 10) oneFile oneFileCalls := by
    unfold Completes
    decide
  have hds : Completes (fun _ => some 10) oneFile oneFileRegrouped := by
    unfold Completes
    decide
  obtain ⟨h1, -, h3⟩ := reports_counted_once (fun _ => some 10) oneFile oneFileCalls
  exact ⟨h1, hperm, hcs, hds, h3 oneFileRegrouped hperm hcs hds⟩

def twoFiles : RepackRequest :=
  { oneFile with
    totalFilesToRetrieve := 2
    totalFilesToArchive := 2
    subrequests := fun f =>
      if f = 7 then some { address := "gone" } else if f = 8 then some { address := "sub" }
      else none }

/-- The report of a file whose archive request is gone throws, and takes the other one with it that
came in the same call. -/
theorem grouping_matters : ¬∀ (archiveFileSize : Address → Option Nat) (r : RepackRequest)
    (cs ds : List Call), (∀ x ∈ reportsOf cs, (r.subrequests x.statistics.fSeq).isSome) →
      reportsOf ds = reportsOf cs → ∀ k,
        (ds.foldl (RepackRequest.call archiveFileSize) r).Accounted k ↔
          (cs.foldl (RepackRequest.call archiveFileSize) r).Accounted k := by
  intro h
  have hiff := h (fun a => if a = "sub" then some 10 else none) twoFiles
    [⟨.archiveSuccesses, [{ fSeq := 8, bytes := 10, copyNb := 1 }]⟩,
      ⟨.archiveSuccesses, [{ fSeq := 7, bytes := 10, copyNb := 1 }]⟩]
    [⟨.archiveSuccesses,
      [{ fSeq := 8, bytes := 10, copyNb := 1 }, { fSeq := 7, bytes := 10, copyNb := 1 }]⟩]
    (by decide) rfl (.archive 8 1)
  obtain ⟨p, hp, hcounted⟩ := hiff.mpr ⟨_, rfl, Finset.mem_insert_self _ _⟩
  cases hp
  exact absurd hcounted (Finset.notMem_empty 1)

end Cta.Repack
