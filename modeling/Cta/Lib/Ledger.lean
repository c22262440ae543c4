import Mathlib.Data.List.Count
import Mathlib.Data.List.Perm.Basic

/-! Counts that givers place on receivers, kept entry by entry. -/
namespace Cta.Lib.Ledger
variable {κ ω : Type*}

def takeBack [DecidableEq κ] (k : κ) (entries : List (κ × ω)) : List (κ × ω) :=
  entries.filter fun e => e.1 ≠ k

theorem mem_takeBack [DecidableEq κ] {k : κ} {entries : List (κ × ω)} {e : κ × ω} :
    e ∈ takeBack k entries ↔ e ∈ entries ∧ e.1 ≠ k := by
  simp [takeBack]

section
variable [DecidableEq ω] {kind : κ → Bool} {entries : List (κ × ω)} {k : κ} {o a b : ω}

/-- How many entries of givers of one kind are on a receiver. -/
def count (kind : κ → Bool) (entries : List (κ × ω)) (o : ω) : Nat :=
  entries.countP fun e => e.2 = o ∧ kind e.1

def move (a b : ω) (entries : List (κ × ω)) : List (κ × ω) :=
  entries.map fun e => if e.2 = a then (e.1, b) else e

theorem count_cons (e : κ × ω) (entries : List (κ × ω)) (o : ω) :
    count kind (e :: entries) o =
      count kind entries o + if e.2 = o ∧ kind e.1 then 1 else 0 := by
  simp [count, List.countP_cons]

theorem count_eq_zero (h : ∀ e ∈ entries, e.2 ≠ o) : count kind entries o = 0 := by
  simp only [count, List.countP_eq_zero, decide_eq_true_eq, not_and]
  exact fun e he ho => absurd ho (h e he)

theorem exists_of_count_ne_zero (h : count kind entries o ≠ 0) :
    ∃ e ∈ entries, e.2 = o ∧ kind e.1 = true := by
  obtain ⟨e, he, hp⟩ := List.countP_pos_iff.mp (Nat.pos_of_ne_zero h)
  exact ⟨e, he, by simpa using hp⟩

theorem count_map (os : List ω) :
    count kind (os.map fun o => (k, o)) o = if kind k then os.count o else 0 := by
  induction os with
  | nil => simp [count]
  | cons x xs ih =>
    rw [List.map_cons, count_cons, ih, List.count_cons]
    by_cases hx : x = o <;> by_cases hk : kind k = true <;> simp [hx, hk]

theorem mem_move {e : κ × ω} (h : e ∈ move a b entries) :
    (e ∈ entries ∧ e.2 ≠ a) ∨ (e.2 = b ∧ (e.1, a) ∈ entries) := by
  obtain ⟨d, hd, rfl⟩ := List.mem_map.mp h
  by_cases hda : d.2 = a
  · subst hda
    simp [hd]
  · simp [hda, hd]

theorem count_move (h : ∀ e ∈ entries, e.2 ≠ b) (o : ω) :
    count kind (move a b entries) o =
      if o = a then 0 else if o = b then count kind entries a else count kind entries o := by
  induction entries with
  | nil => simp [count, move]
  | cons e es ih =>
    rw [move, List.map_cons, count_cons, count_cons, count_cons, ← move,
      ih fun d hd => h d (List.mem_cons_of_mem e hd)]
    have hb : e.2 ≠ b := h e List.mem_cons_self
    by_cases hea : e.2 = a
    · have hab : b ≠ a := fun h => hb (hea.trans h.symm)
      by_cases hoa : o = a
      · simp [hea, hoa, hab]
      · by_cases hob : o = b
        · simp [hea, hob, hab]
        · simp [hea, hoa, hob, Ne.symm hoa, Ne.symm hob]
    · by_cases hoa : o = a
      · simp [hea, hoa]
      · by_cases hob : o = b
        · subst hob
          simp [hea, hoa, hb]
        · simp [hea, hoa, hob]

end

section
variable [DecidableEq κ] [DecidableEq ω] {kind : κ → Bool} {entries : List (κ × ω)} {k : κ}

/-- The entries of a giver are on these receivers, as many times as these are listed. -/
def Gave (k : κ) (os : List ω) (entries : List (κ × ω)) : Prop :=
  (entries.filter fun e => e.1 = k).Perm (os.map fun o => (k, o))

instance (k : κ) (os : List ω) (entries : List (κ × ω)) : Decidable (Gave k os entries) :=
  inferInstanceAs (Decidable (List.Perm _ _))

theorem count_takeBack {os : List ω} (h : Gave k os entries) (o : ω) :
    count kind entries o =
      count kind (takeBack k entries) o + if kind k then os.count o else 0 := by
  rw [← count_map (k := k) os, count, count, count, takeBack, ← List.Perm.countP_eq _ h]
  have hsplit := List.filter_append_perm (fun e => decide (e.1 = k)) entries
  rw [← List.Perm.countP_eq _ hsplit, List.countP_append, Nat.add_comm]
  congr 2
  simp

end

end Cta.Lib.Ledger
