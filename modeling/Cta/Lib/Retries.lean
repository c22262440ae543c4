import Cta.Lib.Runs
import Cta.Lib.Sequence

/-! Failures recorded on the jobs of a request, each of which may fail so many times. -/
namespace Cta.Lib.Retries
open Cta.Lib.Runs Cta.Lib.Sequence
variable {R J K N E : Type*}

theorem toNat_succ_iff (n : UInt32) : (n + 1).toNat = n.toNat + 1 ↔ n.toNat + 1 < 2 ^ 32 := by
  have hlt := n.toNat_lt
  rw [UInt32.toNat_add]
  change (n.toNat + 1) % 2 ^ 32 = _ ↔ _
  omega

/-- A request whose jobs are of one copy each, and how it records a failure of a copy and decides
what follows. -/
structure Recorder (R J K N E : Type*) where
  jobs : R → List J
  copyNb : J → Nat
  total : J → UInt32
  max : J → UInt32
  failedCopy : K → Nat
  record : R → K → Except E (R × N)
  noSuchJob : E
  givesUp : N → Prop

structure History (R : Type*) where
  request : R
  failed : List Nat

namespace Recorder
variable {c : Recorder R J K N E} {s : History R} {f : K}

def add (c : Recorder R J K N E) (s : History R) (f : K) : History R where
  request := match c.record s.request f with
    | .ok (r, _) => r
    | .error _ => s.request
  failed := c.failedCopy f :: s.failed

def Accounted (c : Recorder R J K N E) (s : History R) (f : K) : Prop :=
  match c.record s.request f with
  | .error e => e = c.noSuchJob ∧ ∀ j ∈ c.jobs s.request, c.copyNb j ≠ c.failedCopy f
  | .ok (r, next) => ∃ j j',
      ReplacesFirst (c.copyNb · = c.failedCopy f) j j' (c.jobs s.request) (c.jobs r) ∧
      (c.total j').toNat = (c.total j).toNat + 1 ∧
      ((c.max j).toNat ≤ (c.add s f).failed.count (c.failedCopy f) → c.givesUp next)

def OfFirstJob (c : Recorder R J K N E) (s : History R) (f : K) : Prop :=
  ∀ j ∈ (c.jobs s.request).head?, c.copyNb j = c.failedCopy f ∧ (c.total j).toNat + 1 < 2 ^ 32

/-- A recorder that looks at the first job only: if it is the one that failed the failure counts,
and else no job changes. -/
structure FirstOnly (c : Recorder R J K N E) : Prop where
  empty : ∀ r f, c.jobs r = [] → c.record r f = .error c.noSuchJob
  first : ∀ r f j rest, c.jobs r = j :: rest → c.copyNb j = c.failedCopy f →
    ∃ r' next j', c.record r f = .ok (r', next) ∧ c.jobs r' = j' :: rest ∧
      c.copyNb j' = c.copyNb j ∧ c.total j' = c.total j + 1 ∧
      (c.max j ≤ c.total j + 1 → c.givesUp next)
  other : ∀ r f j rest, c.jobs r = j :: rest → c.copyNb j ≠ c.failedCopy f →
    (∃ e, c.record r f = .error e ∧ e ≠ c.noSuchJob) ∨ ∃ next, c.record r f = .ok (r, next)

def CountsAll (c : Recorder R J K N E) (s : History R) : Prop :=
  ∀ j ∈ (c.jobs s.request).head?, s.failed.count (c.copyNb j) ≤ (c.total j).toNat

theorem FirstOnly.empty_step (hc : c.FirstOnly) (hjobs : c.jobs s.request = []) :
    c.Accounted s f ∧ c.OfFirstJob s f ∧ c.CountsAll (c.add s f) := by
  have hrecord := hc.empty s.request f hjobs
  refine ⟨?_, ?_, ?_⟩
  · rw [Accounted, hrecord]
    exact ⟨rfl, by simp [hjobs]⟩
  · simp [OfFirstJob, hjobs]
  · simp [CountsAll, add, hrecord, hjobs]

theorem FirstOnly.first_step (hc : c.FirstOnly) {j : J} {rest : List J}
    (hjobs : c.jobs s.request = j :: rest) (hcopy : c.copyNb j = c.failedCopy f)
    (h : c.CountsAll s) :
    (c.Accounted s f ↔ (c.total j).toNat + 1 < 2 ^ 32) ∧
      ((c.total j).toNat + 1 < 2 ^ 32 → c.CountsAll (c.add s f)) := by
  obtain ⟨r', next, j', hrecord, hjobs', hcopy', htotal', hmax⟩ :=
    hc.first s.request f j rest hjobs hcopy
  have hsucc := toNat_succ_iff (c.total j)
  have hfailed : s.failed.count (c.copyNb j) ≤ (c.total j).toNat := by
    simpa [CountsAll, hjobs] using h
  have hcount : (c.add s f).failed.count (c.copyNb j) = s.failed.count (c.copyNb j) + 1 := by
    simp [add, hcopy]
  refine ⟨⟨?_, fun hfit => ?_⟩, fun hfit => ?_⟩
  · intro haccounted
    rw [Accounted, hrecord, hjobs] at haccounted
    obtain ⟨i, i', hreplaces, htotal, -⟩ := haccounted
    obtain ⟨rfl, heq⟩ := hreplaces.eq_of_head hcopy
    obtain ⟨rfl, -⟩ := List.cons.inj (hjobs'.symm.trans heq)
    exact hsucc.mp (htotal' ▸ htotal)
  · rw [Accounted, hrecord, hjobs]
    simp only [hjobs']
    refine ⟨j, j', replacesFirst_head j' rest hcopy, by rw [htotal', hsucc.mpr hfit], ?_⟩
    intro hall
    refine hmax (UInt32.le_iff_toNat_le.mpr ?_)
    rw [hsucc.mpr hfit]
    rw [← hcopy, hcount] at hall
    omega
  · have hnow : c.jobs (c.add s f).request = j' :: rest := by
      simp [add, hrecord, hjobs']
    intro i hi
    rw [hnow] at hi
    obtain rfl : j' = i := by simpa using hi
    rw [hcopy', hcount, htotal', hsucc.mpr hfit]
    omega

theorem FirstOnly.not_accounted (hc : c.FirstOnly) {j : J} {rest : List J}
    (hjobs : c.jobs s.request = j :: rest) (hcopy : c.copyNb j ≠ c.failedCopy f) :
    ¬c.Accounted s f := by
  intro haccounted
  unfold Accounted at haccounted
  cases hc.other s.request f j rest hjobs hcopy with
  | inl herror =>
    obtain ⟨e, he, hne⟩ := herror
    rw [he] at haccounted
    exact hne haccounted.1
  | inr hok =>
    obtain ⟨next, hok⟩ := hok
    rw [hok] at haccounted
    obtain ⟨i, i', hreplaces, htotal, -⟩ := haccounted
    rw [hreplaces.eq_of_same] at htotal
    omega

theorem FirstOnly.accounted_step (hc : c.FirstOnly) (h : c.CountsAll s) :
    (c.Accounted s f ↔ c.OfFirstJob s f) ∧ (c.OfFirstJob s f → c.CountsAll (c.add s f)) := by
  cases hjobs : c.jobs s.request with
  | nil =>
    obtain ⟨haccounted, hfirst, hcounts⟩ := hc.empty_step (f := f) hjobs
    exact ⟨iff_of_true haccounted hfirst, fun _ => hcounts⟩
  | cons j rest =>
    by_cases hcopy : c.copyNb j = c.failedCopy f
    · have hoffirst : c.OfFirstJob s f ↔ (c.total j).toNat + 1 < 2 ^ 32 := by
        simp [OfFirstJob, hjobs, hcopy]
      rw [hoffirst]
      exact hc.first_step hjobs hcopy h
    · have hnot : ¬c.OfFirstJob s f := by simp [OfFirstJob, hjobs, hcopy]
      exact ⟨iff_of_false (hc.not_accounted hjobs hcopy) hnot, fun hfirst => absurd hfirst hnot⟩

theorem FirstOnly.accounted_iff (hc : c.FirstOnly) (r : R) (failures : List K) :
    AllSteps c.add c.Accounted ⟨r, []⟩ failures ↔ AllSteps c.add c.OfFirstJob ⟨r, []⟩ failures :=
  allSteps_iff (fun _ _ _ => hc.accounted_step) fun _ _ => Nat.zero_le _

end Recorder
end Cta.Lib.Retries
