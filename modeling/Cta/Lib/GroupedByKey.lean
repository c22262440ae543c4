import Mathlib.Data.List.Basic
import Mathlib.Data.List.Perm.Basic
import Mathlib.Order.Lattice

/-! Lists kept under their keys, in the order of the keys. -/
namespace Cta.Lib.GroupedByKey
variable {κ α : Type*} {key : κ} {x : α} {m : List (κ × List α)}

def entries (m : List (κ × List α)) : List (κ × α) := m.flatMap fun g => g.2.map (g.1, ·)

theorem mem_entries : (key, x) ∈ entries m ↔ ∃ xs, (key, xs) ∈ m ∧ x ∈ xs := by
  simp only [entries, List.mem_flatMap, List.mem_map, Prod.mk.injEq, Prod.exists]
  constructor
  · rintro ⟨k, xs, hm, y, hy, rfl, rfl⟩
    exact ⟨xs, hm, hy⟩
  · rintro ⟨xs, hm, hx⟩
    exact ⟨key, xs, hm, x, hx, rfl, rfl⟩

variable [LinearOrder κ]

/-- The element goes to the end of the list of its key, which is made if there is none. -/
def push (key : κ) (x : α) : List (κ × List α) → List (κ × List α)
  | [] => [(key, [x])]
  | (k, xs) :: rest =>
    if key < k then (key, [x]) :: (k, xs) :: rest
    else if key = k then (k, xs ++ [x]) :: rest
    else (k, xs) :: push key x rest

theorem push_cons (k : κ) (xs : List α) (rest : List (κ × List α)) :
    push key x ((k, xs) :: rest) =
      if key < k then (key, [x]) :: (k, xs) :: rest
      else if key = k then (k, xs ++ [x]) :: rest
      else (k, xs) :: push key x rest := rfl

def grouped (keyed : List (κ × α)) : List (κ × List α) :=
  keyed.foldl (fun m e => push e.1 e.2 m) []

theorem entries_push : (entries (push key x m)).Perm ((key, x) :: entries m) := by
  induction m with
  | nil => exact List.Perm.refl _
  | cons g rest ih =>
    obtain ⟨k, xs⟩ := g
    rw [push_cons]
    split
    · exact List.Perm.refl _
    · split
      · rename_i heq
        subst heq
        simp only [entries, List.flatMap_cons, List.map_append, List.map_singleton,
          List.append_assoc, List.singleton_append]
        exact List.perm_middle
      · simp only [entries, List.flatMap_cons] at ih ⊢
        exact (ih.append_left _).trans List.perm_middle

theorem entries_grouped (keyed : List (κ × α)) : (entries (grouped keyed)).Perm keyed := by
  have main : ∀ (keyed : List (κ × α)) (m : List (κ × List α)),
      (entries (keyed.foldl (fun m e => push e.1 e.2 m) m)).Perm (entries m ++ keyed) := by
    intro keyed
    induction keyed with
    | nil => exact fun m => List.append_nil _ ▸ List.Perm.refl _
    | cons e keyed ih =>
      intro m
      exact (ih (push e.1 e.2 m)).trans
        ((entries_push.append_right keyed).trans List.perm_middle.symm)
  exact main keyed []

/-- Each key has one list, and the lists are in the order of the keys. -/
def Ordered (m : List (κ × List α)) : Prop := m.Pairwise fun g h => g.1 < h.1

theorem mem_push {g : κ × List α} (hg : g ∈ push key x m) : g.1 = key ∨ ∃ h ∈ m, g.1 = h.1 := by
  induction m with
  | nil => exact .inl (congrArg Prod.fst (List.mem_singleton.mp hg))
  | cons h rest ih =>
    rw [push_cons] at hg
    split at hg
    · cases List.mem_cons.mp hg with
      | inl hnew => exact .inl (congrArg Prod.fst hnew)
      | inr hold => exact .inr ⟨g, hold, rfl⟩
    · split at hg
      · cases List.mem_cons.mp hg with
        | inl hsame => exact .inr ⟨h, List.mem_cons_self, by rw [hsame]⟩
        | inr hold => exact .inr ⟨g, List.mem_cons_of_mem h hold, rfl⟩
      · cases List.mem_cons.mp hg with
        | inl hsame => exact .inr ⟨h, List.mem_cons_self, congrArg Prod.fst hsame⟩
        | inr hold =>
          cases ih hold with
          | inl hkey => exact .inl hkey
          | inr hrest =>
            obtain ⟨h', hh', heq⟩ := hrest
            exact .inr ⟨h', List.mem_cons_of_mem h hh', heq⟩

theorem ordered_push (hm : Ordered m) : Ordered (push key x m) := by
  induction m with
  | nil => exact List.pairwise_singleton _ _
  | cons h rest ih =>
    obtain ⟨hfirst, hrest⟩ := List.pairwise_cons.mp hm
    rw [push_cons]
    split
    · rename_i hlt
      refine List.pairwise_cons.mpr ⟨fun g hg => ?_, hm⟩
      cases List.mem_cons.mp hg with
      | inl hsame => exact hsame ▸ hlt
      | inr hold => exact hlt.trans (hfirst g hold)
    · rename_i hnlt
      split
      · exact List.pairwise_cons.mpr ⟨hfirst, hrest⟩
      · rename_i hne
        refine List.pairwise_cons.mpr ⟨fun g hg => ?_, ih hrest⟩
        cases mem_push hg with
        | inl hkey => exact hkey ▸ lt_of_le_of_ne (not_lt.mp hnlt) (Ne.symm hne)
        | inr hold =>
          obtain ⟨h', hh', heq⟩ := hold
          exact heq ▸ hfirst h' hh'

theorem ordered_grouped (keyed : List (κ × α)) : Ordered (grouped keyed) :=
  List.foldlRecOn keyed (fun m e => push e.1 e.2 m) List.Pairwise.nil
    fun _ hm _ _ => ordered_push hm

theorem grouped_ne_nil (keyed : List (κ × α)) : ∀ g ∈ grouped keyed, g.2 ≠ [] := by
  have hpush (e : κ × α) (m : List (κ × List α)) (hm : ∀ g ∈ m, g.2 ≠ []) :
      ∀ g ∈ push e.1 e.2 m, g.2 ≠ [] := by
    induction m with
    | nil => exact fun g hg => List.mem_singleton.mp hg ▸ List.cons_ne_nil _ _
    | cons h rest ih =>
      obtain ⟨hfirst, hrest⟩ := List.forall_mem_cons.mp hm
      rw [push_cons]
      split
      · exact List.forall_mem_cons.mpr ⟨List.cons_ne_nil _ _, hm⟩
      · split
        · exact List.forall_mem_cons.mpr ⟨List.append_ne_nil_of_right_ne_nil _
            (List.cons_ne_nil _ _), hrest⟩
        · exact List.forall_mem_cons.mpr ⟨hfirst, ih hrest⟩
  exact List.foldlRecOn keyed (fun m e => push e.1 e.2 m) (fun _ hg => absurd hg List.not_mem_nil)
    fun m hm e _ => hpush e m hm

theorem push_map {β : Type*} (f : α → β) :
    push key (f x) (m.map fun g => (g.1, g.2.map f)) =
      (push key x m).map fun g => (g.1, g.2.map f) := by
  induction m with
  | nil => rfl
  | cons g rest ih =>
    obtain ⟨k, xs⟩ := g
    rw [List.map_cons, push_cons, push_cons]
    split
    · rfl
    · split
      · simp only [List.map_cons, List.map_append, List.map_nil]
      · rw [ih, List.map_cons]

theorem grouped_map {β : Type*} (f : α → β) (keyed : List (κ × α)) :
    grouped (keyed.map fun e => (e.1, f e.2)) =
      (grouped keyed).map fun g => (g.1, g.2.map f) := by
  have main : ∀ (keyed : List (κ × α)) (m : List (κ × List α)),
      (keyed.map fun e => (e.1, f e.2)).foldl (fun m e => push e.1 e.2 m)
          (m.map fun g => (g.1, g.2.map f)) =
        (keyed.foldl (fun m e => push e.1 e.2 m) m).map fun g => (g.1, g.2.map f) := by
    intro keyed
    induction keyed with
    | nil => exact fun m => rfl
    | cons e keyed ih =>
      intro m
      rw [List.map_cons, List.foldl_cons, List.foldl_cons]
      simp only [push_map, ih]
  exact main keyed []

end Cta.Lib.GroupedByKey
