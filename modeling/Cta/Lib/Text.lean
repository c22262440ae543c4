import Mathlib.Data.List.TakeWhile

/-! Texts as lists of characters: C strings, and the parts around a character. -/
namespace Cta.Lib.Text
variable {c d : Char} {u v l : List Char}

def cstr (text : List Char) : List Char := text.takeWhile (· != '\x00')

@[simp] theorem cstr_nil : cstr [] = [] := rfl

@[simp] theorem cstr_zero (l : List Char) : cstr ('\x00' :: l) = [] := rfl

theorem cstr_cons (hc : c ≠ '\x00') (l : List Char) : cstr (c :: l) = c :: cstr l :=
  List.takeWhile_cons_of_pos (by simpa using hc)

theorem cstr_of_notMem (h : '\x00' ∉ l) : cstr l = l := by
  apply List.takeWhile_eq_self_iff.mpr
  intro c hc
  simpa using fun h0 : c = '\x00' => h (h0 ▸ hc)

/-- What comes in front of the first occurrence of a character. -/
def before (c : Char) (text : List Char) : List Char := text.takeWhile (· != c)

/-- What comes behind the first occurrence of a character. -/
def behind (c : Char) (text : List Char) : List Char := (text.dropWhile (· != c)).tail

theorem all_ne (hu : c ∉ u) : ∀ d ∈ u, (d != c) = true := by
  intro d hd
  simpa using fun h : d = c => hu (h ▸ hd)

theorem before_append (hu : c ∉ u) (v : List Char) : before c (u ++ c :: v) = u := by
  rw [before, List.takeWhile_append_of_pos (all_ne hu), List.takeWhile_cons_of_neg (by simp),
    List.append_nil]

theorem behind_append (hu : c ∉ u) (v : List Char) : behind c (u ++ c :: v) = v := by
  rw [behind, List.dropWhile_append_of_pos (all_ne hu), List.dropWhile_cons_of_neg (by simp),
    List.tail_cons]

theorem exists_last (h : c ∈ l) : ∃ u v, l = u ++ c :: v ∧ c ∉ v := by
  obtain ⟨v, u, heq, hv⟩ := List.eq_append_cons_of_mem (List.mem_reverse.mpr h)
  refine ⟨u.reverse, v.reverse, ?_, by simpa using hv⟩
  rw [← List.reverse_reverse l, heq]
  simp

theorem length_le_last {u' v' : List Char} (h : u' ++ c :: v' = u ++ c :: v) (hv : c ∉ v) :
    u'.length ≤ u.length := by
  rcases List.append_eq_append_iff.mp h with ⟨w, rfl, -⟩ | ⟨w, rfl, hw⟩
  · simp
  · cases w with
    | nil => simp
    | cons d w =>
      obtain ⟨-, hv'⟩ := List.cons_eq_cons.mp hw
      exact absurd (hv' ▸ List.mem_append_right w List.mem_cons_self) hv

theorem last_inj {u' v' : List Char} (h : u' ++ c :: v' = u ++ c :: v) (hv : c ∉ v)
    (hv' : c ∉ v') : u' = u ∧ v' = v := by
  have hlen := Nat.le_antisymm (length_le_last h hv) (length_le_last h.symm hv')
  obtain ⟨hu, hrest⟩ := List.append_inj h hlen
  exact ⟨hu, (List.cons_eq_cons.mp hrest).2⟩

end Cta.Lib.Text
