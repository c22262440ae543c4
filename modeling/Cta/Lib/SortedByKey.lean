import Cta.Lib.Sequence
import Mathlib.Data.List.TakeWhile
import Mathlib.Data.List.Pairwise

/-! Lists sorted by a numeric key, and the three insertions used on them: by swaps
from the end, at the upper bound of the key, and next to a hint. -/
namespace Cta.Lib.SortedByKey
open Cta.Lib.Sequence
variable {α : Type*} {key : α → Nat}

def SortedBy (key : α → Nat) (l : List α) : Prop := l.Pairwise fun a b => key a ≤ key b

theorem sortedBy_insert {us vs : List α} {x : α} (h : SortedBy key (us ++ vs))
    (hu : ∀ u ∈ us, key u ≤ key x) (hv : ∀ v ∈ vs, key x ≤ key v) :
    SortedBy key (us ++ x :: vs) := by
  obtain ⟨h1, h2, h3⟩ := List.pairwise_append.mp h
  refine List.pairwise_append.mpr ⟨h1, List.pairwise_cons.mpr ⟨hv, h2⟩, ?_⟩
  intro u hum v hvm
  rcases List.mem_cons.mp hvm with rfl | hvm
  · exact hu u hum
  · exact h3 u hum v hvm

/-- Swap the entry after position n down while its key is smaller than its neighbour's. -/
def sinkDown (key : α → Nat) : Nat → List α → List α
  | 0, l => l
  | n+1, l =>
    match l[n]?, l[n+1]? with
    | some b, some a => if key a < key b then sinkDown key n (swapAdjacent n l) else l
    | _, _ => l

theorem sinkDown_append (xs : List α) (x : α) (h : SortedBy key xs) :
    ∃ us vs, xs = us ++ vs ∧ sinkDown key xs.length (xs ++ [x]) = us ++ x :: vs ∧
      (∀ u ∈ us, key u ≤ key x) ∧ ∀ v ∈ vs, key x < key v := by
  have main : ∀ (xs ys : List α), SortedBy key xs →
      ∃ us vs, xs = us ++ vs ∧ sinkDown key xs.length (xs ++ x :: ys) = us ++ x :: (vs ++ ys) ∧
        (∀ u ∈ us, key u ≤ key x) ∧ ∀ v ∈ vs, key x < key v := by
    intro xs
    induction xs using List.reverseRecOn with
    | nil => exact fun ys _ => ⟨[], [], rfl, rfl, by simp, by simp⟩
    | append_singleton xs b ih =>
      intro ys hs
      have hb : (xs ++ [b] ++ x :: ys)[xs.length]? = some b := by simp
      have hx : (xs ++ [b] ++ x :: ys)[xs.length + 1]? = some x := by simp
      rw [List.length_append, List.length_singleton, sinkDown, hb, hx]
      obtain ⟨hs1, _, hs3⟩ := List.pairwise_append.mp hs
      by_cases hlt : key x < key b
      · obtain ⟨us, vs, hv, he, hu1, hv1⟩ := ih (b :: ys) hs1
        refine ⟨us, vs ++ [b], by simp [hv], ?_, hu1, ?_⟩
        · have hsw := swapAdjacent_append xs b x ys
          simp only [if_pos hlt]
          rw [show xs ++ [b] ++ x :: ys = xs ++ b :: x :: ys by simp, hsw, he]
          simp
        · intro v hvm
          rcases List.mem_append.mp hvm with hvm | hvm
          · exact hv1 v hvm
          · simpa [List.mem_singleton.mp hvm] using hlt
      · refine ⟨xs ++ [b], [], by simp, by simp [if_neg hlt], ?_, by simp⟩
        intro u hu
        rcases List.mem_append.mp hu with hu | hu
        · have := hs3 u hu b (by simp)
          omega
        · have hub : u = b := by simpa using hu
          subst hub
          omega
  obtain ⟨us, vs, h1, h2, h3, h4⟩ := main xs [] h
  exact ⟨us, vs, h1, by simpa using h2, h3, h4⟩

def lowerBound (key : α → Nat) (k : Nat) (l : List α) : Nat :=
  (l.takeWhile fun a => decide (key a < k)).length

def upperBound (key : α → Nat) (k : Nat) (l : List α) : Nat :=
  (l.takeWhile fun a => decide (key a ≤ k)).length

def insertUpper (key : α → Nat) (x : α) (l : List α) : List α :=
  l.take (upperBound key (key x) l) ++ x :: l.drop (upperBound key (key x) l)

/-- Insertion with a hint: as close as the order allows to the position just before
the hint. The position taken is returned with the list. -/
def insertHint (key : α → Nat) (hint : Nat) (x : α) (l : List α) : List α × Nat :=
  let q := max (lowerBound key (key x) l) (min hint (upperBound key (key x) l))
  (l.take q ++ x :: l.drop q, q)

theorem lowerBound_le_upperBound (k : Nat) (l : List α) :
    lowerBound key k l ≤ upperBound key k l := by
  unfold lowerBound upperBound
  induction l with
  | nil => simp
  | cons a l ih =>
    by_cases h : key a < k
    · have h' : key a ≤ k := by omega
      simpa [List.takeWhile_cons, h, h'] using ih
    · simp [List.takeWhile_cons, h]

theorem key_le_of_mem_take {q k : Nat} {l : List α} (h : q ≤ upperBound key k l) :
    ∀ u ∈ l.take q, key u ≤ k := by
  intro u hu
  have hp : l.take q <+: l.takeWhile fun a => decide (key a ≤ k) := by
    have hw := List.takeWhile_prefix (l := l) fun a => decide (key a ≤ k)
    have ht := List.take_prefix q l
    exact List.prefix_of_prefix_length_le ht hw (by
      rw [List.length_take]; exact Nat.le_trans (Nat.min_le_left _ _) h)
  simpa using List.mem_takeWhile_imp (hp.subset hu)

theorem le_key_of_mem_drop {q k : Nat} {l : List α} (hs : SortedBy key l)
    (h : lowerBound key k l ≤ q) : ∀ v ∈ l.drop q, k ≤ key v := by
  have main : ∀ l : List α, SortedBy key l → ∀ v ∈ l.drop (lowerBound key k l), k ≤ key v := by
    intro l
    induction l with
    | nil => simp
    | cons a l ih =>
      intro hs v hv
      obtain ⟨ha, hl⟩ := List.pairwise_cons.mp hs
      by_cases hk : key a < k
      · exact ih hl v (by simpa [lowerBound, List.takeWhile_cons, hk] using hv)
      · have hv' : v = a ∨ v ∈ l := by
          simpa [lowerBound, List.takeWhile_cons, hk] using hv
        rcases hv' with rfl | hv'
        · omega
        · have := ha v hv'
          omega
  intro v hv
  apply main l hs v
  have hd : l.drop q = (l.drop (lowerBound key k l)).drop (q - lowerBound key k l) := by
    rw [List.drop_drop]
    congr 1
    omega
  rw [hd] at hv
  exact List.mem_of_mem_drop hv

theorem insertAt_sorted {q : Nat} {x : α} {l : List α} (hs : SortedBy key l)
    (h1 : lowerBound key (key x) l ≤ q) (h2 : q ≤ upperBound key (key x) l) :
    SortedBy key (l.take q ++ x :: l.drop q) :=
  sortedBy_insert (by rwa [List.take_append_drop]) (key_le_of_mem_take h2)
    (le_key_of_mem_drop hs h1)

theorem insertAt_perm (q : Nat) (x : α) (l : List α) :
    (l.take q ++ x :: l.drop q).Perm (x :: l) := by
  have h : (l.take q ++ x :: l.drop q).Perm (x :: (l.take q ++ l.drop q)) := List.perm_middle
  rwa [List.take_append_drop] at h

theorem insertUpper_sorted {x : α} {l : List α} (hs : SortedBy key l) :
    SortedBy key (insertUpper key x l) :=
  insertAt_sorted hs (lowerBound_le_upperBound _ _) (Nat.le_refl _)

theorem insertUpper_perm (x : α) (l : List α) : (insertUpper key x l).Perm (x :: l) :=
  insertAt_perm _ x l

theorem insertHint_sorted {hint : Nat} {x : α} {l : List α} (hs : SortedBy key l) :
    SortedBy key (insertHint key hint x l).1 := by
  apply insertAt_sorted hs
  · exact Nat.le_max_left _ _
  · exact Nat.max_le.mpr ⟨lowerBound_le_upperBound _ _, Nat.min_le_right _ _⟩

theorem insertHint_perm (hint : Nat) (x : α) (l : List α) :
    (insertHint key hint x l).1.Perm (x :: l) :=
  insertAt_perm _ x l

/-- Insert the entries of a list one by one, each hinted by the one before it. -/
def insertHintAll (key : α → Nat) : List α → Nat → List α → List α
  | [], _, l => l
  | x :: xs, hint, l =>
    let r := insertHint key hint x l
    insertHintAll key xs r.2 r.1

theorem insertHintAll_sorted (xs : List α) (hint : Nat) (l : List α) (hs : SortedBy key l) :
    SortedBy key (insertHintAll key xs hint l) := by
  induction xs generalizing hint l with
  | nil => exact hs
  | cons x xs ih => exact ih _ _ (insertHint_sorted hs)

theorem insertHintAll_perm (xs : List α) (hint : Nat) (l : List α) :
    (insertHintAll key xs hint l).Perm (xs ++ l) := by
  induction xs generalizing hint l with
  | nil => exact List.Perm.refl _
  | cons x xs ih =>
    refine (ih _ _).trans ?_
    exact ((insertHint_perm hint x l).append_left xs).trans List.perm_middle

/-- Insert the entries of a list one by one at their upper bounds. -/
def insertUpperAll (key : α → Nat) (xs l : List α) : List α :=
  xs.foldl (fun l x => insertUpper key x l) l

theorem insertUpperAll_sorted (xs l : List α) (hs : SortedBy key l) :
    SortedBy key (insertUpperAll key xs l) := by
  induction xs generalizing l with
  | nil => exact hs
  | cons x xs ih => exact ih _ (insertUpper_sorted hs)

theorem insertUpperAll_perm (key : α → Nat) (xs l : List α) :
    (insertUpperAll key xs l).Perm (xs ++ l) := by
  induction xs generalizing l with
  | nil => exact List.Perm.refl _
  | cons x xs ih =>
    refine (ih (insertUpper key x l)).trans ?_
    exact ((insertUpper_perm x l).append_left xs).trans List.perm_middle

def ofKey (key : α → Nat) (k : Nat) (l : List α) : List α := l.filter fun a => key a = k

theorem ofKey_append (k : Nat) (l m : List α) :
    ofKey key k (l ++ m) = ofKey key k l ++ ofKey key k m := List.filter_append _ _

theorem ofKey_eq_nil {k : Nat} {l : List α} (h : ∀ a ∈ l, key a ≠ k) : ofKey key k l = [] :=
  List.filter_eq_nil_iff.mpr fun a ha => by simpa using h a ha

theorem eq_of_ofKey {l m : List α} (hl : SortedBy key l) (hm : SortedBy key m)
    (h : ∀ k, ofKey key k l = ofKey key k m) : l = m := by
  induction l generalizing m with
  | nil =>
    cases m with
    | nil => rfl
    | cons b m => simpa [ofKey] using h (key b)
  | cons a l ih =>
    obtain ⟨ha, hl⟩ := List.pairwise_cons.mp hl
    cases m with
    | nil => simpa [ofKey] using h (key a)
    | cons b m =>
      obtain ⟨hb, hm'⟩ := List.pairwise_cons.mp hm
      have hba : key b ≤ key a := by
        have hin : a ∈ ofKey key (key a) (b :: m) := by
          rw [← h]
          simp [ofKey]
        rcases List.mem_cons.mp (List.mem_filter.mp hin).1 with rfl | hin
        · exact Nat.le_refl _
        · exact hb a hin
      have hab : key a ≤ key b := by
        have hin : b ∈ ofKey key (key b) (a :: l) := by
          rw [h]
          simp [ofKey]
        rcases List.mem_cons.mp (List.mem_filter.mp hin).1 with rfl | hin
        · exact Nat.le_refl _
        · exact ha b hin
      have hkey : key a = key b := Nat.le_antisymm hab hba
      have hfirst := h (key a)
      simp only [ofKey, List.filter_cons, hkey, decide_true, if_true, List.cons.injEq] at hfirst
      obtain ⟨rfl, -⟩ := hfirst
      refine congrArg (a :: ·) (ih hl hm' fun k => ?_)
      have hk := h k
      simp only [ofKey, List.filter_cons] at hk ⊢
      split_ifs at hk
      · exact (List.cons.inj hk).2
      · exact hk

theorem insertUpper_append {us vs : List α} {x : α} (hu : ∀ u ∈ us, key u ≤ key x)
    (hv : ∀ v ∈ vs, key x < key v) : insertUpper key x (us ++ vs) = us ++ x :: vs := by
  have hbound : upperBound key (key x) (us ++ vs) = us.length := by
    rw [upperBound, List.takeWhile_append_of_pos (by simpa using hu)]
    cases vs with
    | nil => simp
    | cons v vs =>
      rw [List.takeWhile_cons_of_neg (by simpa using hv v List.mem_cons_self), List.append_nil]
  rw [insertUpper, hbound, List.take_left, List.drop_left]

theorem sinkDown_eq_insertUpper {xs : List α} (x : α) (h : SortedBy key xs) :
    sinkDown key xs.length (xs ++ [x]) = insertUpper key x xs := by
  obtain ⟨us, vs, hx, he, hu, hv⟩ := sinkDown_append xs x h
  rw [he, hx, insertUpper_append hu hv]

theorem lt_key_of_mem_drop {k : Nat} {l : List α} (hs : SortedBy key l) :
    ∀ v ∈ l.drop (upperBound key k l), k < key v := by
  induction l with
  | nil => simp
  | cons a l ih =>
    obtain ⟨ha, hl⟩ := List.pairwise_cons.mp hs
    intro v hv
    by_cases hk : key a ≤ k
    · exact ih hl v (by simpa [upperBound, List.takeWhile_cons, hk] using hv)
    · have hv' : v = a ∨ v ∈ l := by simpa [upperBound, List.takeWhile_cons, hk] using hv
      rcases hv' with rfl | hv'
      · omega
      · have := ha v hv'
        omega

theorem ofKey_insertUpper {l : List α} (hs : SortedBy key l) (x : α) (k : Nat) :
    ofKey key k (insertUpper key x l) = ofKey key k l ++ ofKey key k [x] := by
  have hbehind := lt_key_of_mem_drop (k := key x) hs
  rw [insertUpper]
  conv_rhs => rw [← List.take_append_drop (upperBound key (key x) l) l]
  rw [ofKey_append, ofKey_append, List.append_assoc]
  congr 1
  rw [show x :: l.drop _ = [x] ++ l.drop _ from rfl, ofKey_append]
  by_cases hk : key x = k
  · have hnone : ofKey key k (l.drop (upperBound key (key x) l)) = [] :=
      ofKey_eq_nil fun v hv => by
        have := hbehind v hv
        omega
    rw [hnone, List.append_nil, List.nil_append]
  · rw [ofKey_eq_nil (k := k) (l := [x]) (by simpa using hk)]
    simp

theorem ofKey_insertUpperAll (xs : List α) {l : List α} (hs : SortedBy key l) (k : Nat) :
    ofKey key k (insertUpperAll key xs l) = ofKey key k l ++ ofKey key k xs := by
  induction xs generalizing l with
  | nil => simp [insertUpperAll, ofKey]
  | cons x xs ih =>
    have hrec := ih (insertUpper_sorted (x := x) hs)
    rw [insertUpperAll, List.foldl_cons, ← insertUpperAll, hrec, ofKey_insertUpper hs,
      List.append_assoc, ← ofKey_append]
    rfl

/-- The entries of the last key, and the hint at the first of them: the next entry of this key goes
in front of them, one of a larger key to the end. -/
theorem insertHint_last {a b : List α} {k : Nat} {x : α} (ha : ∀ u ∈ a, key u < k)
    (hb : ∀ v ∈ b, key v = k) (hx : k ≤ key x) :
    insertHint key a.length x (a ++ b) =
      if key x = k then (a ++ x :: b, a.length) else (a ++ b ++ [x], (a ++ b).length) := by
  by_cases hk : key x = k
  · have hlower : lowerBound key (key x) (a ++ b) = a.length := by
      rw [lowerBound, List.takeWhile_append_of_pos (by simpa [hk] using ha)]
      cases b with
      | nil => simp
      | cons v b =>
        rw [List.takeWhile_cons_of_neg (by simp [hb v List.mem_cons_self, hk]), List.append_nil]
    have hupper : a.length ≤ upperBound key (key x) (a ++ b) :=
      hlower ▸ lowerBound_le_upperBound _ _
    simp only [insertHint, hlower, Nat.min_eq_left hupper, Nat.max_self, if_pos hk, List.take_left,
      List.drop_left]
  · have hall : ∀ u ∈ a ++ b, key u < key x := by
      intro u hu
      rcases List.mem_append.mp hu with hu | hu
      · have := ha u hu
        omega
      · have := hb u hu
        omega
    have hlower : lowerBound key (key x) (a ++ b) = (a ++ b).length := by
      rw [lowerBound, List.takeWhile_eq_self_iff.mpr (by simpa using hall)]
    have hupper : upperBound key (key x) (a ++ b) = (a ++ b).length := by
      rw [upperBound, List.takeWhile_eq_self_iff.mpr]
      intro u hu
      simpa using Nat.le_of_lt (hall u hu)
    have hle : a.length ≤ (a ++ b).length := by simp
    simp only [insertHint, hlower, hupper, Nat.min_eq_left hle, Nat.max_eq_left hle, if_neg hk,
      List.take_length, List.drop_length]

/-- Sorted entries that are inserted with the hint at the one before end up with the equal keys
turned round. -/
theorem ofKey_insertHintAll_last {xs a b : List α} {k : Nat} (hs : SortedBy key xs)
    (ha : ∀ u ∈ a, key u < k) (hb : ∀ v ∈ b, key v = k) (hxs : ∀ x ∈ xs, k ≤ key x) (k' : Nat) :
    ofKey key k' (insertHintAll key xs a.length (a ++ b)) =
      ofKey key k' a ++ (ofKey key k' xs).reverse ++ ofKey key k' b := by
  induction xs generalizing a b k with
  | nil => simp [insertHintAll, ofKey]
  | cons x xs ih =>
    obtain ⟨hx, hs⟩ := List.pairwise_cons.mp hs
    have hkx := hxs x List.mem_cons_self
    have hcons (l : List α) : ofKey key k' (x :: l) = ofKey key k' [x] ++ ofKey key k' l :=
      ofKey_append k' [x] l
    have hsingle : (ofKey key k' [x]).reverse = ofKey key k' [x] := by
      by_cases hkey : key x = k' <;> simp [ofKey, hkey]
    rw [insertHintAll, insertHint_last ha hb hkx, hcons xs, List.reverse_append, hsingle]
    by_cases hk : key x = k
    · rw [if_pos hk]
      have hrec := ih (a := a) (b := x :: b) hs ha (by simpa [hk] using hb)
        fun y hy => hk ▸ hx y hy
      rw [hrec, hcons b]
      simp only [List.append_assoc]
    · rw [if_neg hk]
      have hlt : ∀ u ∈ a ++ b, key u < key x := by
        intro u hu
        rcases List.mem_append.mp hu with hu | hu
        · have := ha u hu
          omega
        · have := hb u hu
          omega
      have hrec := ih (a := a ++ b) (b := [x]) hs hlt (by simp) hx
      rw [hrec, ofKey_append]
      -- no two of the three parts that change places have entries of the key
      by_cases hkey : k = k'
      · have hxs' : ofKey key k' xs = [] := ofKey_eq_nil fun y hy => by
          have := hx y hy
          omega
        have hx' : ofKey key k' [x] = [] := ofKey_eq_nil fun y hy => by
          rw [List.mem_singleton.mp hy]
          omega
        simp [hxs', hx']
      · have hb' : ofKey key k' b = [] := ofKey_eq_nil fun v hv => by
          have := hb v hv
          omega
        simp [hb']

theorem ofKey_insertHintAll {xs : List α} (hs : SortedBy key xs) (k : Nat) :
    ofKey key k (insertHintAll key xs 0 []) = (ofKey key k xs).reverse := by
  have h := ofKey_insertHintAll_last (a := []) (b := []) (k := 0) hs (by simp) (by simp) (by simp) k
  simpa [ofKey] using h

end Cta.Lib.SortedByKey
