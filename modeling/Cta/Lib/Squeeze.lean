import Mathlib.Data.List.Basic
import Mathlib.Data.List.TakeWhile

/-! Runs of elements with a property, each of which becomes a single element. -/
namespace Cta.Lib.Squeeze
variable {α : Type*} (p : α → Bool) (b : α) {a : α} {l : List α}

/-- Each maximal run of elements with the property becomes the single element. -/
def squeeze : List α → List α
  | [] => []
  | a :: l => if p a then b :: squeeze (l.dropWhile p) else a :: squeeze l
termination_by l => l.length
decreasing_by
  · have hle : (l.dropWhile p).length ≤ l.length := (List.dropWhile_sublist p).length_le
    exact Nat.lt_succ_of_le hle
  · exact Nat.lt_succ_self _

@[simp] theorem squeeze_nil : squeeze p b [] = [] := by rw [squeeze]

variable {p}

theorem squeeze_cons_of_pos (h : p a) (l : List α) :
    squeeze p b (a :: l) = b :: squeeze p b (l.dropWhile p) := by
  rw [squeeze, if_pos h]

theorem squeeze_cons_of_neg (h : ¬ p a) (l : List α) :
    squeeze p b (a :: l) = a :: squeeze p b l := by
  rw [squeeze, if_neg h]

theorem squeeze_eq_self (h : ∀ a ∈ l, ¬ p a) : squeeze p b l = l := by
  induction l with
  | nil => exact squeeze_nil p b
  | cons a l ih =>
    obtain ⟨ha, hl⟩ := List.forall_mem_cons.mp h
    rw [squeeze_cons_of_neg b ha, ih hl]

def EndsIn (p : α → Bool) (l : List α) : Prop := ∃ a ∈ l.getLast?, p a

theorem not_endsIn_nil : ¬ EndsIn p [] := by simp [EndsIn]

theorem endsIn_concat : EndsIn p (l ++ [a]) ↔ p a := by simp [EndsIn]

theorem endsIn_cons (hl : l ≠ []) : EndsIn p (a :: l) ↔ EndsIn p l := by
  obtain ⟨c, l, rfl⟩ := List.exists_cons_of_ne_nil hl
  rw [EndsIn, List.getLast?_cons_cons]
  rfl

theorem endsIn_dropWhile (hl : l.dropWhile p ≠ []) : EndsIn p (l.dropWhile p) ↔ EndsIn p l := by
  have hlast := List.getLast?_append_of_ne_nil (l.takeWhile p) hl
  rw [List.takeWhile_append_dropWhile] at hlast
  rw [EndsIn, EndsIn, hlast]

theorem endsIn_of_all (h : ∀ a ∈ l, p a) (hl : l ≠ []) : EndsIn p l :=
  ⟨l.getLast hl, List.getLast?_eq_some_getLast hl, h _ (List.getLast_mem hl)⟩

theorem squeeze_concat_of_neg (h : ¬ p a) (l : List α) :
    squeeze p b (l ++ [a]) = squeeze p b l ++ [a] := by
  induction l using squeeze.induct p with
  | case1 => rw [List.nil_append, squeeze_cons_of_neg b h, squeeze_nil, List.nil_append]
  | case2 c l hc ih =>
    rw [List.cons_append, squeeze_cons_of_pos b hc, squeeze_cons_of_pos b hc, List.cons_append]
    rw [List.dropWhile_append]
    split
    · next hnil =>
      rw [List.isEmpty_iff.mp hnil, List.dropWhile_cons_of_neg h, squeeze_cons_of_neg b h,
        squeeze_nil, List.nil_append]
    · rw [ih]
  | case3 c l hc ih =>
    rw [List.cons_append, squeeze_cons_of_neg b hc, squeeze_cons_of_neg b hc, ih, List.cons_append]

/-- A run begins with an element that no other stands before. -/
theorem squeeze_concat_of_pos (h : p a) (hl : ¬ EndsIn p l) :
    squeeze p b (l ++ [a]) = squeeze p b l ++ [b] := by
  induction l using squeeze.induct p with
  | case1 => simp [squeeze_cons_of_pos b h]
  | case2 c l hc ih =>
    have hne : l.dropWhile p ≠ [] := by
      intro hnil
      have hall := List.dropWhile_eq_nil_iff.mp hnil
      exact hl (endsIn_of_all (List.forall_mem_cons.mpr ⟨hc, hall⟩) (List.cons_ne_nil c l))
    have hl' : l ≠ [] := fun hnil => hne (by rw [hnil, List.dropWhile_nil])
    rw [endsIn_cons hl', ← endsIn_dropWhile hne] at hl
    rw [List.cons_append, squeeze_cons_of_pos b hc, squeeze_cons_of_pos b hc, List.dropWhile_append,
      if_neg (by simpa using hne), ih hl, List.cons_append]
  | case3 c l hc ih =>
    rw [List.cons_append, squeeze_cons_of_neg b hc, squeeze_cons_of_neg b hc, List.cons_append]
    by_cases hnil : l = []
    · subst hnil
      rw [ih not_endsIn_nil]
    · rw [ih ((endsIn_cons hnil).not.mp hl)]

theorem squeeze_concat_of_endsIn (h : p a) (hl : EndsIn p l) :
    squeeze p b (l ++ [a]) = squeeze p b l := by
  induction l using squeeze.induct p with
  | case1 => exact absurd hl not_endsIn_nil
  | case2 c l hc ih =>
    rw [List.cons_append, squeeze_cons_of_pos b hc, squeeze_cons_of_pos b hc, List.dropWhile_append]
    by_cases hnil : l.dropWhile p = []
    · rw [hnil, if_pos List.isEmpty_nil, List.dropWhile_cons_of_pos h, List.dropWhile_nil]
    · have hl' : l ≠ [] := fun h0 => hnil (by rw [h0, List.dropWhile_nil])
      rw [endsIn_cons hl', ← endsIn_dropWhile hnil] at hl
      rw [if_neg (by simpa using hnil), ih hl]
  | case3 c l hc ih =>
    have hl' : l ≠ [] := by
      rintro rfl
      exact hc (endsIn_concat (l := []).mp hl)
    rw [List.cons_append, squeeze_cons_of_neg b hc, squeeze_cons_of_neg b hc,
      ih ((endsIn_cons hl').mp hl)]

end Cta.Lib.Squeeze
