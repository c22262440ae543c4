import Mathlib.Logic.Function.Basic

/-! Items that are marked while a worker is busy on them. The mark is put before the work starts and
taken off when it is finished, with a ticket that is never used twice. A worker may abandon the work
and leave the mark. -/
namespace Cta.Lib.BusyMarks
variable {κ ι : Type*}

structure Marks (κ ι : Type*) where
  mark : κ → Option Nat
  work : ι → Option (κ × Nat)
  next : Nat

/-- Every mark is that of a worker who is busy. -/
def Attended (m : Marks κ ι) : Prop :=
  ∀ k n, m.mark k = some n → ∃ i, m.work i = some (k, n)

/-- A worker finds the mark it put, and shares its ticket with no other one. -/
structure Consistent (m : Marks κ ι) : Prop where
  marked : ∀ i k n, m.work i = some (k, n) → m.mark k = some n
  tickets : ∀ i j k l n, m.work i = some (k, n) → m.work j = some (l, n) → i = j
  fresh : ∀ i k n, m.work i = some (k, n) → n < m.next

variable [DecidableEq ι]

/-- Those who are still busy were busy before, on other items. -/
theorem work_of_released {m : Marks κ ι} {i : ι} {k : κ} {n : Nat} (h : Consistent m)
    (hwork : m.work i = some (k, n)) {j : ι} {l : κ} {n' : Nat}
    (hj : Function.update m.work i none j = some (l, n')) :
    j ≠ i ∧ l ≠ k ∧ m.work j = some (l, n') := by
  have hne : j ≠ i := by
    rintro rfl
    simp at hj
  rw [Function.update_of_ne hne] at hj
  refine ⟨hne, ?_, hj⟩
  rintro rfl
  have hsame := (h.marked i l n hwork).symm.trans (h.marked j l n' hj)
  obtain rfl := Option.some.inj hsame
  exact hne (h.tickets j i l l n hj hwork)

def Marks.abandon (m : Marks κ ι) (i : ι) : Marks κ ι :=
  { m with work := Function.update m.work i none }

theorem not_attended_abandon {m : Marks κ ι} {i : ι} {k : κ} {n : Nat} (h : Consistent m)
    (hwork : m.work i = some (k, n)) : ¬Attended (m.abandon i) := by
  intro hattended
  obtain ⟨j, hj⟩ := hattended k n (h.marked i k n hwork)
  exact (work_of_released h hwork hj).2.1 rfl

variable [DecidableEq κ]

def Marks.start (m : Marks κ ι) (i : ι) (k : κ) : Marks κ ι where
  mark := Function.update m.mark k (some m.next)
  work := Function.update m.work i (some (k, m.next))
  next := m.next + 1

def Marks.finish (m : Marks κ ι) (i : ι) (k : κ) : Marks κ ι :=
  { m with mark := Function.update m.mark k none, work := Function.update m.work i none }

@[simp] theorem Marks.start_mark (m : Marks κ ι) (i : ι) (k : κ) :
    (m.start i k).mark = Function.update m.mark k (some m.next) := rfl

@[simp] theorem Marks.start_work (m : Marks κ ι) (i : ι) (k : κ) :
    (m.start i k).work = Function.update m.work i (some (k, m.next)) := rfl

@[simp] theorem Marks.finish_mark (m : Marks κ ι) (i : ι) (k : κ) :
    (m.finish i k).mark = Function.update m.mark k none := rfl

@[simp] theorem Marks.finish_work (m : Marks κ ι) (i : ι) (k : κ) :
    (m.finish i k).work = Function.update m.work i none := rfl

section
variable {m : Marks κ ι} {i : ι} {k : κ} {n : Nat}

theorem Consistent.start (h : Consistent m) (hk : m.mark k = none) : Consistent (m.start i k) := by
  have hother : ∀ j l n, (m.start i k).work j = some (l, n) →
      j = i ∧ l = k ∧ n = m.next ∨ j ≠ i ∧ m.work j = some (l, n) := by
    intro j l n hwork
    by_cases hj : j = i
    · subst hj
      rw [Marks.start_work, Function.update_self, Option.some.injEq, Prod.mk.injEq] at hwork
      exact .inl ⟨rfl, hwork.1.symm, hwork.2.symm⟩
    · rw [Marks.start_work, Function.update_of_ne hj] at hwork
      exact .inr ⟨hj, hwork⟩
  refine ⟨?_, ?_, ?_⟩
  · intro j l n hwork
    rcases hother j l n hwork with ⟨-, rfl, rfl⟩ | ⟨-, hwork⟩
    · exact Function.update_self _ _ _
    · have hmark := h.marked j l n hwork
      have hl : l ≠ k := by
        rintro rfl
        simp [hk] at hmark
      exact (Function.update_of_ne hl _ _).trans hmark
  · intro j j' l l' n hwork hwork'
    rcases hother j l n hwork with ⟨hj, -, hn⟩ | ⟨-, hbusy⟩ <;>
      rcases hother j' l' n hwork' with ⟨hj', -, hn'⟩ | ⟨-, hbusy'⟩
    · exact hj.trans hj'.symm
    · have := h.fresh j' l' n hbusy'
      omega
    · have := h.fresh j l n hbusy
      omega
    · exact h.tickets j j' l l' n hbusy hbusy'
  · intro j l n hwork
    rcases hother j l n hwork with ⟨-, -, rfl⟩ | ⟨-, hwork⟩
    · exact Nat.lt_succ_self _
    · exact Nat.lt_succ_of_lt (h.fresh j l n hwork)

theorem Consistent.finish (h : Consistent m) (hwork : m.work i = some (k, n)) :
    Consistent (m.finish i k) := by
  refine ⟨?_, ?_, ?_⟩
  · intro j l n' hj
    obtain ⟨-, hl, hj⟩ := work_of_released h hwork hj
    exact (Function.update_of_ne hl _ _).trans (h.marked j l n' hj)
  · intro j j' l l' n' hj hj'
    obtain ⟨-, -, hj⟩ := work_of_released h hwork hj
    obtain ⟨-, -, hj'⟩ := work_of_released h hwork hj'
    exact h.tickets j j' l l' n' hj hj'
  · intro j l n' hj
    obtain ⟨-, -, hj⟩ := work_of_released h hwork hj
    exact h.fresh j l n' hj

theorem Attended.start (h : Attended m) (hi : m.work i = none) : Attended (m.start i k) := by
  intro l n hmark
  by_cases hl : l = k
  · subst hl
    rw [Marks.start_mark, Function.update_self] at hmark
    exact ⟨i, by rw [Marks.start_work, Function.update_self, Option.some.inj hmark]⟩
  · rw [Marks.start_mark, Function.update_of_ne hl] at hmark
    obtain ⟨j, hj⟩ := h l n hmark
    have hne : j ≠ i := by
      rintro rfl
      simp [hi] at hj
    exact ⟨j, by rw [Marks.start_work, Function.update_of_ne hne, hj]⟩

theorem Attended.finish (h : Attended m) (hwork : m.work i = some (k, n)) :
    Attended (m.finish i k) := by
  intro l n' hmark
  by_cases hl : l = k
  · subst hl
    simp at hmark
  · rw [Marks.finish_mark, Function.update_of_ne hl] at hmark
    obtain ⟨j, hj⟩ := h l n' hmark
    have hne : j ≠ i := by
      rintro rfl
      rw [hwork, Option.some.injEq, Prod.mk.injEq] at hj
      exact hl hj.1.symm
    exact ⟨j, by rw [Marks.finish_work, Function.update_of_ne hne, hj]⟩

end

end Cta.Lib.BusyMarks
