import Mathlib.Data.List.Basic
import Mathlib.Algebra.BigOperators.Group.List.Basic
import Mathlib.Tactic.Linarith

/-! A list worked off in batches, with a list of leftovers that grows from batch to batch and is
handed in again at the end of each. -/
namespace Cta.Lib.Batches
variable {α : Type*}

/-- Batches of a size that is not zero; the last one may be shorter. -/
def batches (size : Nat) (h : 0 < size) (l : List α) : List (List α) :=
  if l.isEmpty then [] else l.take size :: batches size h (l.drop size)
termination_by l.length
decreasing_by
  cases l with
  | nil => simp_all
  | cons a l => simp only [List.length_drop, List.length_cons]; omega

theorem batches_eq (size : Nat) (h : 0 < size) (l : List α) :
    batches size h l =
      if l.isEmpty then [] else l.take size :: batches size h (l.drop size) := by
  rw [batches]

theorem batches_nil (size : Nat) (h : 0 < size) : batches size h ([] : List α) = [] := by
  rw [batches_eq, if_pos List.isEmpty_nil]

theorem batches_of_ne_nil {size : Nat} (h : 0 < size) {l : List α} (hl : l ≠ []) :
    batches size h l = l.take size :: batches size h (l.drop size) := by
  rw [batches_eq, if_neg (by simpa using hl)]

theorem batches_of_length_le {size : Nat} (h : 0 < size) {l : List α} (hl : l ≠ [])
    (hlen : l.length ≤ size) : batches size h l = [l] := by
  rw [batches_of_ne_nil h hl, List.take_of_length_le hlen, List.drop_of_length_le hlen,
    batches_nil]

theorem flatten_batches (size : Nat) (h : 0 < size) (l : List α) :
    (batches size h l).flatten = l := by
  induction l using batches.induct size h with
  | case1 l hl => simp [List.isEmpty_iff.mp hl, batches_nil]
  | case2 l hl ih =>
    have hne : l ≠ [] := by simpa using hl
    rw [batches_of_ne_nil h hne, List.flatten_cons, ih, List.take_append_drop]

/-- What is handed in at the end of each batch: all the leftovers up to then. -/
def handedIn (left : List α → List α) : List α → List (List α) → List (List α)
  | _, [] => []
  | acc, b :: bs => (acc ++ left b) :: handedIn left (acc ++ left b) bs

def leftovers (left : List α → List α) (bs : List (List α)) : List α := bs.flatMap left

def weight (w : α → Nat) (l : List α) : Nat := (l.map w).sum

@[simp] theorem weight_append (w : α → Nat) (l m : List α) :
    weight w (l ++ m) = weight w l + weight w m := by simp [weight]

@[simp] theorem weight_nil (w : α → Nat) : weight w ([] : List α) = 0 := rfl

theorem weight_one (l : List α) : weight (fun _ => 1) l = l.length := by simp [weight]

variable {left : List α → List α} {w : α → Nat}

theorem weight_handedIn {bs : List (List α)} (h : ∀ b ∈ bs.dropLast, left b = []) :
    ((handedIn left [] bs).map (weight w)).sum = weight w (leftovers left bs) := by
  induction bs with
  | nil => rfl
  | cons b bs ih =>
    cases bs with
    | nil => simp [handedIn, leftovers]
    | cons b' bs =>
      have hb : left b = [] := h b (by simp)
      have hrest := ih fun c hc => h c (by simp [hc])
      simp only [handedIn, leftovers, List.flatMap_cons, hb, List.append_nil, List.nil_append,
        List.map_cons, List.sum_cons, weight_nil, Nat.zero_add] at hrest ⊢
      exact hrest

theorem weight_le_handedIn (left : List α → List α) (w : α → Nat) (acc : List α)
    {bs : List (List α)} (hne : bs ≠ []) :
    weight w acc + weight w (leftovers left bs) ≤ ((handedIn left acc bs).map (weight w)).sum := by
  induction bs generalizing acc with
  | nil => exact absurd rfl hne
  | cons b bs ih =>
    cases bs with
    | nil => simp [handedIn, leftovers]
    | cons b' bs =>
      have hrest := ih (acc ++ left b) (by simp)
      simp only [handedIn, leftovers, List.flatMap_cons, List.map_cons, List.sum_cons,
        weight_append] at hrest ⊢
      omega

theorem left_eq_nil_of_weight_handedIn (hw : ∀ a, 0 < w a) {bs : List (List α)}
    (h : ((handedIn left [] bs).map (weight w)).sum = weight w (leftovers left bs)) :
    ∀ b ∈ bs.dropLast, left b = [] := by
  induction bs with
  | nil => simp
  | cons b bs ih =>
    cases bs with
    | nil => simp
    | cons b' bs =>
      have hle := weight_le_handedIn left w (left b) (List.cons_ne_nil b' bs)
      have hb : left b = [] := by
        cases hl : left b with
        | nil => rfl
        | cons a l =>
          have ha := hw a
          simp only [handedIn, leftovers, List.flatMap_cons, List.map_cons, List.sum_cons,
            weight_append, List.nil_append, hl] at h hle
          simp only [weight, List.map_cons, List.sum_cons] at h hle
          omega
      have hrest : ((handedIn left [] (b' :: bs)).map (weight w)).sum =
          weight w (leftovers left (b' :: bs)) := by
        simp only [handedIn, leftovers, List.flatMap_cons, hb, List.append_nil, List.nil_append,
          List.map_cons, List.sum_cons, weight_nil, Nat.zero_add] at h ⊢
        exact h
      intro c hc
      cases List.mem_cons.mp (by simpa using hc : c ∈ b :: (b' :: bs).dropLast) with
      | inl he => exact he ▸ hb
      | inr hc => exact ih hrest c hc

end Cta.Lib.Batches
