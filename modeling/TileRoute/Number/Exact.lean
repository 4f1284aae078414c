import TileRoute.Number.Range

/-!
# What a number stands for

A number of the running program stands for a rational, for one of the two infinities or for
nothing. `Exact` is that meaning, ordered as the reals are with the infinities at the ends; a
meaningless number is neither below nor above any other. Rounding to whole numbers is defined here,
on the meaning, and never on the bits. `Binary` reads the meaning off the bits of a 64-bit number.
-/

namespace TileRoute

/-- The meaning of a number. -/
inductive Exact where
  | finite (r : Rat)
  | infinite (negative : Bool)
  | undefined
  deriving DecidableEq

namespace Exact

def Below : Exact → Exact → Prop
  | finite a, finite b => a < b
  | finite _, infinite negative => negative = false
  | infinite negative, finite _ => negative = true
  | infinite a, infinite b => a = true ∧ b = false
  | _, _ => False

instance : LT Exact := ⟨Below⟩

instance (a b : Exact) : Decidable (a < b) := by
  cases a <;> cases b <;> simp only [LT.lt, Below] <;> infer_instance

instance : LE Exact := ⟨fun a b => a < b ∨ (a = b ∧ a ≠ undefined)⟩

instance (a b : Exact) : Decidable (a ≤ b) :=
  inferInstanceAs (Decidable (a < b ∨ (a = b ∧ a ≠ undefined)))

@[simp] theorem finite_lt_finite {a b : Rat} : finite a < finite b ↔ a < b := Iff.rfl

theorem le_iff {a b : Exact} : a ≤ b ↔ a < b ∨ (a = b ∧ a ≠ undefined) := Iff.rfl

theorem not_lt_undefined (a : Exact) : ¬ a < undefined := by
  cases a <;> exact id

def isFinite : Exact → Bool
  | finite _ => true
  | _ => false

/-- The identifier nearest to the whole part; nothing counts as zero. -/
def truncate : Exact → Int
  | finite r => toIdentifier (r.num.tdiv r.den)
  | infinite negative => toIdentifier (if negative then -9223372036854775808 else 9223372036854775808)
  | undefined => 0

/-- The frame count nearest to the least whole number that is not below; nothing counts as zero. -/
def ceilCount : Exact → Nat
  | finite r => toCount r.ceil
  | infinite negative => if negative then 0 else maxCount
  | undefined => 0

end Exact

/-- The number `±mantissa · 2 ^ exponent`. -/
structure Binary where
  negative : Bool
  mantissa : Nat
  exponent : Int
  deriving DecidableEq

namespace Binary

/-- The number of fractions, two to the power 52; a mantissa with a leading bit is not below. -/
def leadingBit : Nat := 4503599627370496

def signBit (b : UInt64) : Bool := b.toNat / 9223372036854775808 == 1

def exponentField (b : UInt64) : Nat := b.toNat / leadingBit % 2048

def fraction (b : UInt64) : Nat := b.toNat % leadingBit

def ofBits (b : UInt64) : Binary where
  negative := signBit b
  mantissa := if exponentField b = 0 then fraction b else leadingBit + fraction b
  exponent := if exponentField b = 0 then -1074 else (exponentField b : Int) - 1075

def toRat (x : Binary) : Rat :=
  let signed : Int := if x.negative then -(x.mantissa : Int) else x.mantissa
  mkRat (signed * Nat.pow 2 x.exponent.toNat) (Nat.pow 2 (-x.exponent).toNat)

end Binary

/-- The meaning of a 64-bit pattern: a full exponent field marks the infinities and the
meaningless numbers. -/
def Exact.ofBits (b : UInt64) : Exact :=
  if Binary.exponentField b = 2047 then
    if Binary.fraction b = 0 then .infinite (Binary.signBit b) else .undefined
  else .finite (Binary.ofBits b).toRat

example : Exact.ofBits (3.5 : Float).toBits = .finite (7 / 2) := by decide +kernel

example : Exact.ofBits (-0.0 : Float).toBits = .finite 0 := by decide +kernel

end TileRoute
