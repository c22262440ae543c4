import Mathlib.Algebra.Ring.Nat
import Mathlib.Algebra.Order.Group.Nat
import Mathlib.Data.List.Flatten
import Mathlib.Data.List.Nodup

/-! Numbered records. One of them changes at a time, and new ones come behind the others. -/
namespace Cta.Lib.Slots
variable {α β : Type*} {l : List α} {a a' b : α} {j k : ℕ}

theorem split_at (h : l[k]? = some a) :
    ∃ before behind, l = before ++ a :: behind ∧ before.length = k ∧
      ∀ a', l.set k a' = before ++ a' :: behind := by
  obtain ⟨hk, rfl⟩ := List.getElem?_eq_some_iff.mp h
  have hlength : (l.take k).length = k := List.length_take_of_le hk.le
  refine ⟨l.take k, l.drop (k + 1), ?_, hlength,
    fun a' => List.set_eq_take_append_cons_drop.trans (if_pos hk)⟩
  rw [← List.drop_eq_getElem_cons hk, List.take_append_drop]

/-- The record that has changed, or another one. -/
theorem getElem?_set_cases (h : (l.set k a')[j]? = some b) :
    j = k ∧ b = a' ∨ j ≠ k ∧ l[j]? = some b := by
  rw [List.getElem?_set] at h
  split at h
  · rename_i hkj
    split at h
    · exact .inl ⟨hkj.symm, (Option.some.inj h).symm⟩
    · cases h
  · rename_i hkj
    exact .inr ⟨fun h => hkj h.symm, h⟩

theorem exists_getElem?_set (hk : l[k]? = some a) (hj : l[j]? = some b) (a' : α) :
    ∃ b', (l.set k a')[j]? = some b' ∧ (j = k ∧ b = a ∧ b' = a' ∨ j ≠ k ∧ b' = b) := by
  by_cases hjk : j = k
  · subst hjk
    exact ⟨a', List.getElem?_set_self (List.getElem?_eq_some_iff.mp hk).1,
      .inl ⟨rfl, Option.some.inj (hj.symm.trans hk), rfl⟩⟩
  · exact ⟨b, by rwa [List.getElem?_set_ne fun h => hjk h.symm], .inr ⟨hjk, rfl⟩⟩

theorem getElem?_concat_cases (h : (l ++ [a])[j]? = some b) :
    j = l.length ∧ b = a ∨ j < l.length ∧ l[j]? = some b := by
  by_cases hj : j < l.length
  · exact .inr ⟨hj, by rwa [List.getElem?_append_left hj] at h⟩
  · obtain ⟨hlt, -⟩ := List.getElem?_eq_some_iff.mp h
    rw [List.length_append, List.length_singleton] at hlt
    obtain rfl : j = l.length := by omega
    rw [List.getElem?_concat_length] at h
    exact .inl ⟨rfl, (Option.some.inj h).symm⟩

theorem getElem?_concat (h : l[j]? = some b) (a : α) : (l ++ [a])[j]? = some b := by
  rwa [List.getElem?_append_left (List.getElem?_eq_some_iff.mp h).1]

/-- What a record adds to the others' comes in front, in any order. -/
theorem perm_flatMap_set {f : α → List β} {new : List β} (hk : l[k]? = some a)
    (h : (f a').Perm (new ++ f a)) : ((l.set k a').flatMap f).Perm (new ++ l.flatMap f) := by
  obtain ⟨before, behind, hl, -, hset⟩ := split_at hk
  rw [hset, hl, List.flatMap_append, List.flatMap_append, List.flatMap_cons, List.flatMap_cons]
  refine ((h.append_right _).append_left _).trans ?_
  simp only [← List.append_assoc]
  exact (List.perm_append_comm.append_right _).append_right _

theorem flatMap_set {f : α → List β} (hk : l[k]? = some a) (h : f a' = f a) :
    (l.set k a').flatMap f = l.flatMap f := by
  obtain ⟨before, behind, hl, -, hset⟩ := split_at hk
  rw [hset, hl, List.flatMap_append, List.flatMap_append, List.flatMap_cons, List.flatMap_cons, h]

theorem sum_map_set_lt {f : α → ℕ} (hk : l[k]? = some a) (h : f a' < f a) :
    ((l.set k a').map f).sum < (l.map f).sum := by
  obtain ⟨before, behind, hl, -, hset⟩ := split_at hk
  rw [hset, hl, List.map_append, List.map_append, List.map_cons, List.map_cons, List.sum_append,
    List.sum_append, List.sum_cons, List.sum_cons]
  omega

theorem eq_of_mem_of_nodup {f : α → List β} {x : β} (h : (l.flatMap f).Nodup)
    (hj : l[j]? = some a) (hk : l[k]? = some b) (hx : x ∈ f a) (hx' : x ∈ f b) : j = k := by
  have hdisjoint := List.pairwise_iff_getElem.mp (List.nodup_flatMap.mp h).2
  obtain ⟨hj', rfl⟩ := List.getElem?_eq_some_iff.mp hj
  obtain ⟨hk', rfl⟩ := List.getElem?_eq_some_iff.mp hk
  rcases lt_trichotomy j k with hlt | heq | hlt
  · exact absurd hx' (hdisjoint j k hj' hk' hlt hx)
  · exact heq
  · exact absurd hx (hdisjoint k j hk' hj' hlt hx')

end Cta.Lib.Slots
