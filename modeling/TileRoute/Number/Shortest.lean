import TileRoute.Number.Exact

/-!
# The fewest digits that read back

Every 64-bit number is read back from the decimals of an interval around it. `Binary.shortest`
finds the decimal with the fewest digits in that interval, and of those the nearest; when two are
equally near, the format of the output decides which is taken. All comparisons are exact.
-/

namespace TileRoute

inductive Tie where
  | greater
  | even
  deriving DecidableEq

/-- Orders `a · 10 ^ i` against `n · 2 ^ j`. -/
def compareScaled (a : Nat) (i : Int) (n : Nat) (j : Int) : Ordering :=
  compare (a * Nat.pow 10 i.toNat * Nat.pow 2 (-j).toNat)
    (n * Nat.pow 2 j.toNat * Nat.pow 10 (-i).toNat)

namespace Binary

/-- The neighbour below is half as far away as the neighbour above: the mantissa is the least one
and the exponent is not. -/
def narrowBelow (x : Binary) : Bool := x.mantissa == leadingBit && x.exponent != -1074

/-- Reading `digits · 10 ^ exponent` gives back the magnitude of the number: the decimal lies
between the midpoints to the neighbours, and on one only if the mantissa is even. -/
def readsBack (x : Binary) (digits : Nat) (exponent : Int) : Bool :=
  let below := 4 * x.mantissa - if x.narrowBelow then 1 else 2
  let above := 4 * x.mantissa + 2
  let inclusive := x.mantissa % 2 == 0
  let low := compareScaled digits exponent below (x.exponent - 2)
  let high := compareScaled digits exponent above (x.exponent - 2)
  (low == .gt || (inclusive && low == .eq)) && (high == .lt || (inclusive && high == .eq))

/-- The least power of ten above the magnitude, searched upwards from a bound that the binary
logarithm gives. -/
def decimalScale (x : Binary) : Int :=
  let least := ((x.exponent + x.mantissa.log2) * 30103).fdiv 100000 - 1
  let isAbove (k : Int) : Bool := compareScaled 1 k x.mantissa x.exponent == .gt
  (((List.range 4).map fun (i : Nat) => least + (i : Int)).find? isAbove).getD (least + 4)

def gridFloor (x : Binary) (e : Int) : Nat :=
  x.mantissa * Nat.pow 2 x.exponent.toNat * Nat.pow 10 (-e).toNat /
    (Nat.pow 2 (-x.exponent).toNat * Nat.pow 10 e.toNat)

/-- The neighbour of the magnitude on the grid `10 ^ e` that reads back, the nearer of two. -/
def onGrid? (x : Binary) (tie : Tie) (e : Int) : Option (Nat × Int) :=
  let low := x.gridFloor e
  match x.readsBack low e, x.readsBack (low + 1) e with
  | false, false => none
  | true, false => some (low, e)
  | false, true => some (low + 1, e)
  | true, true =>
    match compareScaled (2 * low + 1) e (2 * x.mantissa) x.exponent, tie with
    | .gt, _ => some (low, e)
    | .lt, _ => some (low + 1, e)
    | .eq, .greater => some (low + 1, e)
    | .eq, .even => some (if low % 2 = 0 then low else low + 1, e)

/-- Moves zeros at the end of the digits into the exponent, at most so many. -/
def stripZeros : Nat → Nat → Int → Nat × Int
  | 0, digits, e => (digits, e)
  | n + 1, digits, e => if digits % 10 = 0 then stripZeros n (digits / 10) (e + 1) else (digits, e)

def exactDecimal (x : Binary) : Nat × Int :=
  if x.exponent ≥ 0 then (x.mantissa * Nat.pow 2 x.exponent.toNat, 0)
  else (x.mantissa * Nat.pow 5 (-x.exponent).toNat, x.exponent)

def shortest (x : Binary) (tie : Tie) : Nat × Int :=
  if x.mantissa = 0 then (0, 0)
  else
    let scale := x.decimalScale
    let grids := (List.range 17).map fun (n : Nat) => scale - 1 - (n : Int)
    let (digits, e) := (grids.findSome? (x.onGrid? tie)).getD x.exactDecimal
    stripZeros 17 digits e

end Binary

end TileRoute
