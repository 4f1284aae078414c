import TileRoute.Number.Exact
import TileRoute.Number.Decimal

/-!
# Scalars

Effects compute with scalars: sums, differences, products and quotients in the order written, and
comparisons of what the operands stand for. The program runs on 64-bit numbers, each operation
rounded once; the same definitions run on the rationals, where nothing is rounded.
-/

namespace TileRoute

/-- Numbers that an effect can compute with. -/
class Scalar (α : Type) extends Add α, Sub α, Mul α, Div α, Neg α where
  ofInt : Int → α
  ofDecimal : Decimal → α
  abs : α → α
  exact : α → Exact

namespace Scalar

variable {α : Type} [Scalar α]

/-- The number stands for less than another. -/
def Lt (x y : α) : Prop := exact x < exact y

instance (x y : α) : Decidable (Lt x y) := inferInstanceAs (Decidable (exact x < exact y))

/-- The number stands for something, and for at most another. -/
def Le (x y : α) : Prop := exact x ≤ exact y

instance (x y : α) : Decidable (Le x y) := inferInstanceAs (Decidable (exact x ≤ exact y))

def zero : α := ofInt 0

/-- The number stands for zero; a meaningless one does not. -/
def IsZero (x : α) : Prop := exact x = .finite 0

instance (x : α) : Decidable (IsZero x) := inferInstanceAs (Decidable (exact x = .finite 0))

def clamp (lo hi x : α) : α := if Lt x lo then lo else if Lt hi x then hi else x

end Scalar

/-- 64-bit numbers, each operation rounded to the nearest, ties to the even mantissa. -/
instance : Scalar Float where
  ofInt := Float.ofInt
  ofDecimal := Decimal.toFloat
  abs := Float.abs
  exact x := Exact.ofBits x.toBits

instance : Scalar Rat where
  ofInt := fun i => (i : Rat)
  ofDecimal := Decimal.toRat
  abs := fun r => if r < 0 then -r else r
  exact := .finite

example : Scalar.Lt (0.5 : Float) 0.75 := by decide +kernel

end TileRoute
