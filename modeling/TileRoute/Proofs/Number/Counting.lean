import TileRoute.Number.Scalar

/-!
# Counting with scalars

Steps are counted in frames and compared with a scalar, so a claim about the comparison rests on
frame counts standing for themselves. On the rationals that is so by definition.
-/

namespace TileRoute

/-- Numbers in which every frame count stands for itself. -/
class Counting (α : Type) [Scalar α] : Prop where
  exact_ofInt : ∀ n : Nat, n ≤ maxCount → Scalar.exact (Scalar.ofInt (n : Int) : α) = .finite n

instance : Counting Rat where
  exact_ofInt _ _ := rfl

@[simp] theorem Exact.finite_le_finite {a b : Rat} : finite a ≤ finite b ↔ a ≤ b := by
  rw [Exact.le_iff, Exact.finite_lt_finite, Exact.finite.injEq]
  constructor
  · rintro (h | ⟨rfl, -⟩)
    · exact Rat.le_of_lt h
    · exact Rat.le_refl
  · intro h
    rcases Rat.le_iff_lt_or_eq.mp h with hlt | heq
    · exact .inl hlt
    · exact .inr ⟨heq, nofun⟩

namespace Scalar

variable {α : Type} [Scalar α] [Counting α]

theorem exact_zero : Scalar.exact (Scalar.zero : α) = .finite 0 :=
  Counting.exact_ofInt 0 (Nat.zero_le _)

theorem positive_iff {x : α} {q : Rat} (hq : Scalar.exact x = .finite q) :
    ¬ Scalar.Le x Scalar.zero ↔ 0 < q := by
  rw [Scalar.Le, hq, exact_zero, Exact.finite_le_finite, Rat.not_le]

end Scalar

end TileRoute
