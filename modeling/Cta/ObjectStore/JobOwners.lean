import Cta.ObjectStore.Base
import Mathlib.Logic.Basic
import Mathlib.Tactic.SplitIfs

/-! Owners of requests, and the update that switches one owner for another. -/
namespace Cta.ObjectStore

inductive Owner where
  | container
  | agent (name : Address)
  deriving DecidableEq, Repr

/-- How the switch of one owner fails, as the callers tell the cases apart. -/
inductive SwitchFailure where
  | noSuchObject
  | wrongPreviousOwner
  | couldNotUnlock
  | other
  deriving DecidableEq, Repr

/-- The owner is a name of any kind: of the container at hand or an agent, or of one of
several queues. -/
structure RetrieveRequest (ω : Type) where
  owner : ω
  copyNbs : List Nat
  deriving DecidableEq, Repr

/-- The callback of `RetrieveRequest::asyncUpdateJobOwner`: the owner is the request's. -/
def RetrieveRequest.updateJobOwner {ω : Type} [DecidableEq ω] (copyNumber : Nat)
    (owner previousOwner : ω) (r : RetrieveRequest ω) :
    Except SwitchFailure (RetrieveRequest ω) :=
  if r.owner ≠ previousOwner then .error .wrongPreviousOwner
  else if copyNumber ∈ r.copyNbs then .ok { r with owner }
  else .error .wrongPreviousOwner

inductive ArchiveJobStatus where
  | toTransferForUser
  | toReportToUserForTransfer
  | complete
  | toReportToUserForFailure
  | failed
  | abandoned
  | toTransferForRepack
  | toReportToRepackForSuccess
  | toReportToRepackForFailure
  deriving DecidableEq, Repr

structure ArchiveJob where
  copyNb : Nat
  owner : Owner
  status : ArchiveJobStatus
  deriving DecidableEq, Repr

structure ArchiveRequest where
  jobs : List ArchiveJob
  deriving DecidableEq, Repr

def ArchiveJob.switchIn (copyNumber : Nat) (owner previousOwner : Owner)
    (newStatus : Option ArchiveJobStatus) : List ArchiveJob → Except SwitchFailure (List ArchiveJob)
  | [] => .error .wrongPreviousOwner
  | j :: js =>
    if j.copyNb = copyNumber then
      if j.owner ≠ owner ∧ j.owner ≠ previousOwner then .error .wrongPreviousOwner
      else .ok ({ j with owner, status := newStatus.getD j.status } :: js)
    else (switchIn copyNumber owner previousOwner newStatus js).map (j :: ·)

def ArchiveRequest.updateJobOwner (copyNumber : Nat) (owner previousOwner : Owner)
    (newStatus : Option ArchiveJobStatus) (r : ArchiveRequest) :
    Except SwitchFailure ArchiveRequest :=
  (ArchiveJob.switchIn copyNumber owner previousOwner newStatus r.jobs).map .mk

structure JobOwners (Obj : Type) where
  ownerOf : Nat → Obj → Option Owner
  switch : Nat → Owner → Owner → Obj → Except SwitchFailure Obj
  switch_ok : ∀ {c new prev o o'}, switch c new prev o = .ok o' →
    (ownerOf c o = some prev ∨ ownerOf c o = some new) ∧ ownerOf c o' = some new
  switch_other : ∀ {c c' new prev o o'}, switch c new prev o = .ok o' →
    ownerOf c' o' = ownerOf c' o ∨ (ownerOf c' o).isSome ∧ ownerOf c' o' = some new
  switch_error : ∀ {c new prev o e}, switch c new prev o = .error e →
    e = .wrongPreviousOwner ∧ ownerOf c o ≠ some prev

def retrieveRequests : JobOwners (RetrieveRequest Owner) where
  ownerOf c r := if c ∈ r.copyNbs then some r.owner else none
  switch := RetrieveRequest.updateJobOwner
  switch_ok := by
    intro c new prev r r' h
    unfold RetrieveRequest.updateJobOwner at h
    split_ifs at h with hp hc
    cases h
    simp only [hc, if_true]
    exact ⟨.inl (by rw [not_not.mp hp]), trivial⟩
  switch_other := by
    intro c c' new prev r r' h
    unfold RetrieveRequest.updateJobOwner at h
    split_ifs at h with hp hc
    cases h
    by_cases hc' : c' ∈ r.copyNbs
    · exact .inr (by simp [hc'])
    · exact .inl (by simp [hc'])
  switch_error := by
    intro c new prev r e h
    unfold RetrieveRequest.updateJobOwner at h
    split_ifs at h with hp hc
    · cases h
      refine ⟨rfl, ?_⟩
      split_ifs
      · simpa using hp
      · simp
    · cases h
      simp [hc]

def ArchiveJob.ownerIn (copyNumber : Nat) : List ArchiveJob → Option Owner
  | [] => none
  | j :: js => if j.copyNb = copyNumber then some j.owner else ownerIn copyNumber js

theorem ArchiveJob.switchIn_ok {c : Nat} {new prev : Owner} {st : Option ArchiveJobStatus}
    {js js' : List ArchiveJob} (h : switchIn c new prev st js = .ok js') :
    (ownerIn c js = some prev ∨ ownerIn c js = some new) ∧ ownerIn c js' = some new := by
  induction js generalizing js' with
  | nil => cases h
  | cons j js ih =>
    unfold switchIn at h
    split_ifs at h with hc ho
    · cases h
      simp only [ownerIn, hc, if_true, Option.some.injEq, and_true]
      by_cases hn : j.owner = new
      · exact .inr hn
      · exact .inl (not_not.mp fun hp => ho ⟨hn, hp⟩)
    · cases hr : switchIn c new prev st js with
      | error e => simp [hr, Except.map] at h
      | ok js1 =>
        simp only [hr, Except.map, Except.ok.injEq] at h
        subst h
        simp only [ownerIn, hc, if_false]
        exact ih hr

theorem ArchiveJob.switchIn_other {c c' : Nat} {new prev : Owner} {st : Option ArchiveJobStatus}
    {js js' : List ArchiveJob} (h : switchIn c new prev st js = .ok js') :
    ownerIn c' js' = ownerIn c' js ∨ (ownerIn c' js).isSome ∧ ownerIn c' js' = some new := by
  induction js generalizing js' with
  | nil => cases h
  | cons j js ih =>
    unfold switchIn at h
    split_ifs at h with hc ho
    · cases h
      by_cases hc' : j.copyNb = c'
      · exact .inr (by simp [ownerIn, hc'])
      · exact .inl (by simp [ownerIn, hc'])
    · cases hr : switchIn c new prev st js with
      | error e => simp [hr, Except.map] at h
      | ok js1 =>
        simp only [hr, Except.map, Except.ok.injEq] at h
        subst h
        by_cases hc' : j.copyNb = c'
        · exact .inl (by simp [ownerIn, hc'])
        · simp only [ownerIn, hc', if_false]
          exact ih hr

theorem ArchiveJob.switchIn_error {c : Nat} {new prev : Owner} {st : Option ArchiveJobStatus}
    {js : List ArchiveJob} {e : SwitchFailure} (h : switchIn c new prev st js = .error e) :
    e = .wrongPreviousOwner ∧ ownerIn c js ≠ some prev := by
  induction js with
  | nil =>
    cases h
    simp [ownerIn]
  | cons j js ih =>
    unfold switchIn at h
    split_ifs at h with hc ho
    · cases h
      simp only [ownerIn, hc, if_true, ne_eq, Option.some.injEq, true_and]
      exact ho.2
    · cases hr : switchIn c new prev st js with
      | error e' =>
        simp only [hr, Except.map, Except.error.injEq] at h
        subst h
        simp only [ownerIn, hc, if_false]
        exact ih hr
      | ok js1 => simp [hr, Except.map] at h

def archiveRequests (newStatus : Option ArchiveJobStatus) : JobOwners ArchiveRequest where
  ownerOf c r := ArchiveJob.ownerIn c r.jobs
  switch c new prev r := r.updateJobOwner c new prev newStatus
  switch_ok := by
    intro c new prev r r' h
    unfold ArchiveRequest.updateJobOwner at h
    cases hr : ArchiveJob.switchIn c new prev newStatus r.jobs with
    | error e => simp [hr, Except.map] at h
    | ok js =>
      simp only [hr, Except.map, Except.ok.injEq] at h
      subst h
      exact ArchiveJob.switchIn_ok hr
  switch_other := by
    intro c c' new prev r r' h
    unfold ArchiveRequest.updateJobOwner at h
    cases hr : ArchiveJob.switchIn c new prev newStatus r.jobs with
    | error e => simp [hr, Except.map] at h
    | ok js =>
      simp only [hr, Except.map, Except.ok.injEq] at h
      subst h
      exact ArchiveJob.switchIn_other hr
  switch_error := by
    intro c new prev r e h
    unfold ArchiveRequest.updateJobOwner at h
    cases hr : ArchiveJob.switchIn c new prev newStatus r.jobs with
    | error e' =>
      simp only [hr, Except.map, Except.error.injEq] at h
      subst h
      exact ArchiveJob.switchIn_error hr
    | ok js => simp [hr, Except.map] at h

/-- One asynchronous update of an owner: what it reports and what it leaves. An update
that is committed but not unlocked has taken effect; any other failure changes nothing. A
request that is there but cannot be read may be reported like one that is not. -/
inductive Switched {Obj : Type} (K : JobOwners Obj) (c : Nat) (new prev : Owner) :
    Option Obj → Option SwitchFailure → Option Obj → Prop
  | done {o o' : Obj} : K.switch c new prev o = .ok o' →
      Switched K c new prev (some o) none (some o')
  | couldNotUnlock {o o' : Obj} : K.switch c new prev o = .ok o' →
      Switched K c new prev (some o) (some .couldNotUnlock) (some o')
  | refused {o : Obj} {e : SwitchFailure} : K.switch c new prev o = .error e →
      Switched K c new prev (some o) (some e) (some o)
  | absent : Switched K c new prev none (some .noSuchObject) none
  | unread (o : Obj) : Switched K c new prev (some o) (some .noSuchObject) (some o)
  | failed (x : Option Obj) : Switched K c new prev x (some .other) x

def Succeeded (r : Option SwitchFailure) : Prop := r = none ∨ r = some .couldNotUnlock

section
variable {Obj : Type} {K : JobOwners Obj} {c : Nat} {new prev : Owner} {x x' : Option Obj}
  {r : Option SwitchFailure}

theorem Switched.owner_of_succeeded (h : Switched K c new prev x r x') (hr : Succeeded r) :
    (x.bind (K.ownerOf c) = some prev ∨ x.bind (K.ownerOf c) = some new) ∧
      x'.bind (K.ownerOf c) = some new := by
  cases h with
  | done h => exact K.switch_ok h
  | couldNotUnlock h => exact K.switch_ok h
  | refused h =>
    rw [(K.switch_error h).1] at hr
    cases hr with
    | inl hr => cases hr
    | inr hr => cases hr
  | absent =>
    cases hr with
    | inl hr => cases hr
    | inr hr => cases hr
  | unread =>
    cases hr with
    | inl hr => cases hr
    | inr hr => cases hr
  | failed =>
    cases hr with
    | inl hr => cases hr
    | inr hr => cases hr

theorem Switched.unchanged (h : Switched K c new prev x r x') (hr : ¬ Succeeded r) : x' = x := by
  cases h with
  | done h => exact absurd (.inl rfl) hr
  | couldNotUnlock h => exact absurd (.inr rfl) hr
  | refused h => rfl
  | absent => rfl
  | unread => rfl
  | failed => rfl

theorem Switched.not_owned (h : Switched K c new prev x r x')
    (hr : r = some .wrongPreviousOwner) : x.bind (K.ownerOf c) ≠ some prev := by
  cases h with
  | done h => cases hr
  | couldNotUnlock h => cases hr
  | refused h => exact (K.switch_error h).2
  | absent => cases hr
  | unread => cases hr
  | failed => cases hr

theorem Switched.other_copy (h : Switched K c new prev x r x') (c' : Nat) :
    x'.bind (K.ownerOf c') = x.bind (K.ownerOf c') ∨
      (x.bind (K.ownerOf c')).isSome ∧ x'.bind (K.ownerOf c') = some new := by
  cases h with
  | done h => exact K.switch_other h
  | couldNotUnlock h => exact K.switch_other h
  | refused h => exact .inl rfl
  | absent => exact .inl rfl
  | unread => exact .inl rfl
  | failed => exact .inl rfl

end
end Cta.ObjectStore
