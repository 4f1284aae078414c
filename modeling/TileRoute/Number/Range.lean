/-!
# Bounded counters

Counters saturate: frame counts and coordinates keep to 32 bits, identifiers to 64 bits. The bounds
and the saturating conversions live here, stated over `Int` and `Nat` so that `omega` sees them.
-/

namespace TileRoute

def maxCount : Nat := 4294967295

def toCount (i : Int) : Nat := min i.toNat maxCount

theorem toCount_of_le {n : Nat} (h : n ≤ maxCount) : toCount n = n := by
  simp only [toCount, Int.toNat_natCast]
  omega

/-- The nearest integer that is below a bound and not below its negative. -/
def clampSigned (bound i : Int) : Int := max (-bound) (min i (bound - 1))

def toCoordinate (i : Int) : Int := clampSigned 2147483648 i

def toIdentifier (i : Int) : Int := clampSigned 9223372036854775808 i

theorem clampSigned_of_mem {bound i : Int} (hl : -bound ≤ i) (hu : i < bound) :
    clampSigned bound i = i := by
  simp only [clampSigned]
  omega

end TileRoute
