import Mathlib.Logic.Relation

/-! Chains along which a bounded rank grows. -/
namespace Cta.Lib.Chains
open Relation
variable {α : Type*} {up : α → α → Prop} {Last D : α → Prop} {rank : α → Nat} {bound : Nat}

/-- Whoever goes up from one member to the next comes to a last one. -/
theorem exists_last (hb : ∀ x, rank x ≤ bound)
    (hup : ∀ x, D x → Last x ∨ ∃ y, up x y ∧ D y ∧ (Last y ∨ rank x < rank y)) (x : α)
    (hx : D x) : ∃ z, ReflTransGen up x z ∧ Last z := by
  induction hn : bound - rank x using Nat.strongRecOn generalizing x with
  | ind n ih =>
    cases hup x hx with
    | inl hlast => exact ⟨x, .refl, hlast⟩
    | inr hnext =>
      obtain ⟨y, hxy, hy, hrank⟩ := hnext
      cases hrank with
      | inl hlast => exact ⟨y, .single hxy, hlast⟩
      | inr hlt =>
        have hless : bound - rank y < n := by
          have := hb y
          omega
        obtain ⟨z, hyz, hlast⟩ := ih _ hless y hy rfl
        exact ⟨z, .head hxy hyz, hlast⟩

end Cta.Lib.Chains
