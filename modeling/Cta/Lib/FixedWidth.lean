import Mathlib.Data.List.Basic
import Mathlib.Algebra.Ring.Nat

/-! Records whose fields have fixed widths. -/
namespace Cta.Lib.FixedWidth
variable {α : Type*} {ws : List Nat}

/-- A record with fields of these widths. -/
structure Record (α : Type*) (ws : List Nat) where
  fields : List (List α)
  widths : fields.map List.length = ws

instance [DecidableEq α] : DecidableEq (Record α ws) := fun r s =>
  decidable_of_iff (r.fields = s.fields)
    ⟨fun h => by cases r; cases s; cases h; rfl, fun h => h ▸ rfl⟩

theorem Record.ext {r s : Record α ws} (h : r.fields = s.fields) : r = s := by
  cases r
  cases s
  cases h
  rfl

def Record.field (r : Record α ws) (i : Nat) : List α := r.fields.getD i []

def Record.pack (r : Record α ws) : List α := r.fields.flatten

theorem Record.length_pack (r : Record α ws) : r.pack.length = ws.sum := by
  rw [Record.pack, List.length_flatten, r.widths]

/-- A block cut into pieces of these widths. -/
def split : List Nat → List α → List (List α)
  | [], _ => []
  | w :: ws, block => block.take w :: split ws (block.drop w)

theorem length_split (ws : List Nat) (block : List α) (h : block.length = ws.sum) :
    (split ws block).map List.length = ws := by
  induction ws generalizing block with
  | nil => rfl
  | cons w ws ih =>
    rw [List.sum_cons] at h
    have hrest : (block.drop w).length = ws.sum := by
      rw [List.length_drop]
      omega
    simp only [split, List.map_cons, List.length_take, ih _ hrest]
    congr 1
    omega

theorem split_flatten (fields : List (List α)) :
    split (fields.map List.length) fields.flatten = fields := by
  induction fields with
  | nil => rfl
  | cons field fields ih =>
    simp only [List.map_cons, split, List.flatten_cons, List.take_left, List.drop_left, ih]

def Record.unpack (block : List α) (h : block.length = ws.sum) : Record α ws :=
  ⟨split ws block, length_split ws block h⟩

theorem Record.unpack_pack (r : Record α ws) : Record.unpack r.pack r.length_pack = r := by
  refine Record.ext ?_
  obtain ⟨fields, rfl⟩ := r
  exact split_flatten fields

theorem flatten_split (ws : List Nat) (block : List α) (h : block.length = ws.sum) :
    (split ws block).flatten = block := by
  induction ws generalizing block with
  | nil => exact (List.eq_nil_of_length_eq_zero h).symm
  | cons w ws ih =>
    rw [List.sum_cons] at h
    have hrest : (block.drop w).length = ws.sum := by
      rw [List.length_drop]
      omega
    rw [split, List.flatten_cons, ih _ hrest, List.take_append_drop]

theorem Record.pack_unpack (block : List α) (h : block.length = ws.sum) :
    (Record.unpack block h).pack = block := flatten_split ws block h

theorem Record.pack_injective {r s : Record α ws} (h : r.pack = s.pack) : r = s := by
  have hr := Record.unpack_pack r
  have hs := Record.unpack_pack s
  simp only [h] at hr
  exact hr.symm.trans hs

end Cta.Lib.FixedWidth
