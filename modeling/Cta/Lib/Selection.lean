import Mathlib.Data.List.Pairwise
import Mathlib.Data.List.Sort
import Mathlib.Logic.Function.Basic

/-! Ranking candidates by a sort that leaves ties open, counting them by key, and trying
alternatives in order until one is accepted. -/
namespace Cta.Lib.Selection
variable {α β κ ε ρ : Type*}

section Ranked
variable {lt : α → α → Bool}

structure Sorting (lt : α → α → Bool) where
  sort : List α → List α
  perm : ∀ xs, (sort xs).Perm xs
  sorted : ∀ xs, (sort xs).Pairwise fun a b => lt b a = false

def Sorting.descending (s : Sorting lt) (xs : List α) : List α := (s.sort xs).reverse

@[simp] theorem Sorting.mem_descending {s : Sorting lt} {xs : List α} {a : α} :
    a ∈ s.descending xs ↔ a ∈ xs := by
  simp [Sorting.descending, (s.perm xs).mem_iff]

theorem Sorting.descending_pairwise (s : Sorting lt) (xs : List α) :
    (s.descending xs).Pairwise fun a b => lt a b = false :=
  List.pairwise_reverse.mpr (s.sorted xs)

def Sorting.ofKey [LinearOrder ρ] (key : α → ρ) (h : ∀ a b, lt a b = true ↔ key a < key b) :
    Sorting lt where
  sort := List.insertionSort fun a b => key a ≤ key b
  perm := List.perm_insertionSort _
  sorted := by
    intro xs
    have total : Std.Total fun a b : α => key a ≤ key b := ⟨fun a b => le_total (key a) (key b)⟩
    have trans : IsTrans α fun a b => key a ≤ key b := ⟨fun _ _ _ hab hbc => le_trans hab hbc⟩
    have hs : (xs.insertionSort fun a b => key a ≤ key b).Pairwise fun a b => key a ≤ key b :=
      List.pairwise_insertionSort _ xs
    refine hs.imp fun {a b} hab => ?_
    rw [← Bool.not_eq_true, h]
    exact not_lt.mpr hab

end Ranked

section Weak
variable {lt : α → α → Bool} {xs ys : List α} {a b c : α}

def WeakOrderOn (lt : α → α → Bool) (xs : List α) : Prop :=
  IsStrictWeakOrder {a // a ∈ xs} fun a b => lt a b = true

structure WeakSorting (lt : α → α → Bool) where
  sort : List α → List α
  perm : ∀ xs, (sort xs).Perm xs
  sorted : ∀ xs, WeakOrderOn lt xs → (sort xs).Pairwise fun a b => lt b a = false

def equivalents (lt : α → α → Bool) : List α → List α
  | [] => []
  | front :: rest => (front :: rest).filter fun a => !lt front a && !lt a front

theorem WeakOrderOn.irrefl (h : WeakOrderOn lt xs) (ha : a ∈ xs) : lt a a = false :=
  Bool.not_eq_true _ ▸ h.toIrrefl.irrefl ⟨a, ha⟩

theorem WeakOrderOn.not_lt_of_equivalent (h : WeakOrderOn lt xs) (ha : a ∈ xs) (hb : b ∈ xs)
    (hc : c ∈ xs) (hab : lt a b = false) (hba : lt b a = false) (hca : lt c a = false) :
    lt c b = false := by
  by_contra hcb
  rw [Bool.not_eq_false] at hcb
  have hac : lt a c = false := by
    by_contra hac
    rw [Bool.not_eq_false] at hac
    have := h.toIsTrans.trans ⟨a, ha⟩ ⟨c, hc⟩ ⟨b, hb⟩ hac hcb
    simp [hab] at this
  have hincomp := h.incomp_trans ⟨c, hc⟩ ⟨a, ha⟩ ⟨b, hb⟩ (by simp [hca, hac]) (by simp [hab, hba])
  simp [hcb] at hincomp

/-- After sorting, the entries equivalent to the first one are those that nothing precedes,
whatever order they came in. -/
theorem mem_equivalents_sort (s : WeakSorting lt) (h : WeakOrderOn lt xs) :
    a ∈ equivalents lt (s.sort xs) ↔ a ∈ xs ∧ ∀ b ∈ xs, lt b a = false := by
  have hmem : ∀ b, b ∈ s.sort xs ↔ b ∈ xs := fun b => (s.perm xs).mem_iff
  have hsorted := s.sorted xs h
  cases hs : s.sort xs with
  | nil =>
    simp only [hs, List.not_mem_nil, false_iff] at hmem
    simp [equivalents, hmem]
  | cons front rest =>
    rw [hs] at hsorted hmem
    have hfront : front ∈ xs := (hmem front).mp List.mem_cons_self
    have hfirst : ∀ b ∈ xs, lt b front = false := by
      intro b hb
      cases List.mem_cons.mp ((hmem b).mpr hb) with
      | inl heq => exact heq ▸ h.irrefl hb
      | inr hb => exact (List.pairwise_cons.mp hsorted).1 b hb
    rw [equivalents, List.mem_filter, hmem]
    simp only [Bool.and_eq_true, Bool.not_eq_true', and_congr_right_iff]
    intro ha
    constructor
    · rintro ⟨hfa, haf⟩ b hb
      exact h.not_lt_of_equivalent hfront ha hb hfa haf (hfirst b hb)
    · intro hall
      exact ⟨hall front hfront, hfirst a ha⟩

theorem WeakOrderOn.not_lt_trans (h : WeakOrderOn lt xs) (ha : a ∈ xs) (hb : b ∈ xs) (hc : c ∈ xs)
    (hba : lt b a = false) (hcb : lt c b = false) : lt c a = false := by
  by_contra hca
  rw [Bool.not_eq_false] at hca
  have hab : lt a b = false := by
    by_contra hab
    rw [Bool.not_eq_false] at hab
    have := h.toIsTrans.trans ⟨c, hc⟩ ⟨a, ha⟩ ⟨b, hb⟩ hca hab
    simp [hcb] at this
  simp [h.not_lt_of_equivalent hb ha hc hba hab hcb] at hca

def WeakSorting.insertion (lt : α → α → Bool) : WeakSorting lt where
  sort := List.insertionSort fun a b => lt b a = false
  perm := List.perm_insertionSort _
  sorted xs h := by
    let r : {a // a ∈ xs} → {a // a ∈ xs} → Prop := fun a b => lt b a = false
    have total : Std.Total r := by
      refine ⟨fun ⟨a, ha⟩ ⟨b, hb⟩ => ?_⟩
      by_contra! hab
      have hba := h.toIsTrans.trans ⟨a, ha⟩ ⟨b, hb⟩ ⟨a, ha⟩ (by simpa [r] using hab.2)
        (by simpa [r] using hab.1)
      simp [h.irrefl ha] at hba
    have trans : IsTrans _ r := by
      exact ⟨fun ⟨a, ha⟩ ⟨b, hb⟩ ⟨c, hc⟩ hab hbc => h.not_lt_trans ha hb hc hab hbc⟩
    have hmap : (xs.attach.insertionSort r).map Subtype.val =
        xs.insertionSort fun a b => lt b a = false := by
      rw [List.map_insertionSort r (fun a b => lt b a = false) _ _ fun a _ b _ => Iff.rfl,
        List.attach_map_subtype_val]
    rw [← hmap, List.pairwise_map]
    exact List.pairwise_insertionSort r xs.attach

def WeakSorting.leaving [DecidableEq α] (s : WeakSorting lt) {xs ys : List α} (h : ys.Perm xs)
    (hxs : ¬WeakOrderOn lt xs) : WeakSorting lt where
  sort zs := if zs = xs then ys else s.sort zs
  perm zs := by
    split_ifs with hzs
    · exact hzs ▸ h
    · exact s.perm zs
  sorted zs hzs := by
    have hne : zs ≠ xs := fun heq => hxs (heq ▸ hzs)
    rw [if_neg hne]
    exact s.sorted zs hzs

end Weak

section Tally
variable [DecidableEq κ]

def tally (key : α → κ) (xs : List α) : κ → Nat :=
  xs.foldl (fun counts x => Function.update counts (key x) (counts (key x) + 1)) fun _ => 0

theorem tally_eq_countP (key : α → κ) (xs : List α) (k : κ) :
    tally key xs k = xs.countP fun x => key x = k := by
  have main : ∀ (xs : List α) (counts : κ → Nat),
      xs.foldl (fun counts x => Function.update counts (key x) (counts (key x) + 1)) counts k =
        counts k + xs.countP fun x => key x = k := by
    intro xs
    induction xs with
    | nil => simp
    | cons x xs ih =>
      intro counts
      rw [List.foldl_cons, ih, List.countP_cons]
      by_cases hx : key x = k
      · subst hx
        simp
        omega
      · simp [Function.update_of_ne (Ne.symm hx), hx]
  simpa [tally] using main xs fun _ => 0

end Tally

/-- What comes of an alternative: it is the one, another has to be found, or the search ends. -/
inductive Answer (ε β : Type*) where
  | accepted (b : β)
  | refused
  | failed (e : ε)

/-- The alternatives tried, in order, and how the search ended: not at all while all of them
have been refused. -/
structure Search (α ε β : Type*) where
  tried : List α
  ended : Option (Except ε β)

section Trying
variable {answer : List α → α → Answer ε β} {tried xs ys : List α}

def tryInOrder (answer : List α → α → Answer ε β) : List α → List α → Search α ε β
  | tried, [] => ⟨tried, none⟩
  | tried, x :: xs =>
    match answer tried x with
    | .accepted b => ⟨tried ++ [x], some (.ok b)⟩
    | .refused => tryInOrder answer (tried ++ [x]) xs
    | .failed e => ⟨tried ++ [x], some (.error e)⟩

@[simp] theorem tryInOrder_nil : tryInOrder answer tried [] = ⟨tried, none⟩ := rfl

theorem tryInOrder_cons (x : α) (xs : List α) :
    tryInOrder answer tried (x :: xs) =
      match answer tried x with
      | .accepted b => ⟨tried ++ [x], some (.ok b)⟩
      | .refused => tryInOrder answer (tried ++ [x]) xs
      | .failed e => ⟨tried ++ [x], some (.error e)⟩ := rfl

theorem tryInOrder_append (answer : List α → α → Answer ε β) (tried xs ys : List α) :
    tryInOrder answer tried (xs ++ ys) =
      match (tryInOrder answer tried xs).ended with
      | none => tryInOrder answer (tryInOrder answer tried xs).tried ys
      | some _ => tryInOrder answer tried xs := by
  induction xs generalizing tried with
  | nil => rfl
  | cons x xs ih =>
    simp only [List.cons_append, tryInOrder_cons]
    cases answer tried x with
    | accepted b => rfl
    | refused => exact ih (tried ++ [x])
    | failed e => rfl

theorem tried_prefix (answer : List α → α → Answer ε β) (tried xs : List α) :
    ∃ ys, ys <+: xs ∧ (tryInOrder answer tried xs).tried = tried ++ ys := by
  induction xs generalizing tried with
  | nil => exact ⟨[], List.prefix_rfl, by simp⟩
  | cons x xs ih =>
    rw [tryInOrder_cons]
    cases answer tried x with
    | accepted b => exact ⟨[x], by simp, rfl⟩
    | refused =>
      obtain ⟨ys, hys, he⟩ := ih (tried ++ [x])
      exact ⟨x :: ys, by simpa using hys, by simp [he]⟩
    | failed e => exact ⟨[x], by simp, rfl⟩

theorem accepted_of_ended {tried : List α} {b : β}
    (h : (tryInOrder answer tried xs).ended = some (.ok b)) :
    ∃ l, ∃ x ∈ xs, answer l x = .accepted b := by
  induction xs generalizing tried with
  | nil => simp at h
  | cons x xs ih =>
    rw [tryInOrder_cons] at h
    cases hx : answer tried x with
    | accepted b' =>
      rw [hx] at h
      cases h
      exact ⟨tried, x, List.mem_cons_self, hx⟩
    | refused =>
      rw [hx] at h
      obtain ⟨l, y, hy, hl⟩ := ih h
      exact ⟨l, y, List.mem_cons_of_mem x hy, hl⟩
    | failed e => simp [hx] at h

theorem tried_eq_nil_iff : (tryInOrder answer [] xs).tried = [] ↔ xs = [] := by
  cases xs with
  | nil => simp
  | cons x xs =>
    rw [tryInOrder_cons]
    cases answer [] x with
    | accepted b => simp
    | refused =>
      obtain ⟨ys, -, he⟩ := tried_prefix answer ([] ++ [x]) xs
      simp only [he]
      simp
    | failed e => simp

theorem nothing_after {x y : α} {pre post : List α}
    (h : tried ++ [y] = tried ++ pre ++ x :: post) : post = [] := by
  have hl := congrArg List.length h
  simp only [List.length_append, List.length_cons, List.length_nil] at hl
  exact List.eq_nil_of_length_eq_zero (by omega)

theorem refused_of_tried {pre post : List α} {x : α}
    (h : (tryInOrder answer tried xs).tried = tried ++ pre ++ x :: post) (hp : post ≠ []) :
    answer (tried ++ pre) x = .refused := by
  induction xs generalizing tried pre with
  | nil => simp at h
  | cons y ys ih =>
    rw [tryInOrder_cons] at h
    cases hy : answer tried y with
    | accepted b => exact absurd (nothing_after (by simpa only [hy] using h)) hp
    | failed e => exact absurd (nothing_after (by simpa only [hy] using h)) hp
    | refused =>
      simp only [hy] at h
      obtain ⟨zs, -, he⟩ := tried_prefix answer (tried ++ [y]) ys
      cases pre with
      | nil =>
        rw [he] at h
        have hx : y = x := by simpa using congrArg List.head? (List.append_cancel_left
          (show tried ++ (y :: zs) = tried ++ (x :: post) by simpa using h))
        simpa [hx] using hy
      | cons a pre =>
        have ha : y = a := by
          rw [he] at h
          simpa using congrArg List.head? (List.append_cancel_left
            (show tried ++ (y :: zs) = tried ++ (a :: pre ++ x :: post) by simpa using h))
        subst ha
        have ht : tried ++ y :: pre = tried ++ [y] ++ pre := by simp
        rw [ht]
        exact ih (by simpa using h)

/-- Among alternatives that stand in an order, one that has to come before a tried one has
been tried before it, and refused. -/
theorem refused_of_before (before : α → α → Prop) {pre post : List α} {a b : α}
    (h : (tryInOrder answer [] xs).tried = pre ++ a :: post)
    (hs : xs.Pairwise fun x y => ¬ before y x) (hirr : ¬ before a a) (hb : b ∈ xs)
    (hlt : before b a) : ∃ l r, pre = l ++ b :: r ∧ answer l b = .refused := by
  obtain ⟨ys, ⟨zs, hz⟩, he⟩ := tried_prefix answer [] xs
  rw [h, List.nil_append] at he
  have hx : xs = pre ++ a :: (post ++ zs) := by simp [← hz, ← he]
  rw [hx] at hb hs
  cases List.mem_append.mp hb with
  | inl hpre =>
    obtain ⟨l, r, hl⟩ := List.append_of_mem hpre
    refine ⟨l, r, hl, ?_⟩
    have ht : (tryInOrder answer [] xs).tried = [] ++ l ++ b :: (r ++ a :: post) := by
      simp [h, hl]
    simpa using refused_of_tried ht (by simp)
  | inr hrest =>
    cases List.mem_cons.mp hrest with
    | inl hba => exact absurd (hba ▸ hlt) hirr
    | inr hafter =>
      have := (List.pairwise_cons.mp (List.pairwise_append.mp hs).2.1).1 b hafter
      exact absurd hlt this

end Trying

section Tours

def NearestFirst (closer : α → α → α → Prop) : α → List α → Prop
  | _, [] => True
  | previous, next :: rest =>
    (∀ other ∈ rest, ¬closer previous other next) ∧ NearestFirst closer next rest

end Tours

end Cta.Lib.Selection
