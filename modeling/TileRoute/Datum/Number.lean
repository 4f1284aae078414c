import TileRoute.Number.Decimal

/-!
# Numbers in a scenario text

A number is a run of digits without a leading zero, with an optional minus, an optional fraction and
an optional exponent. `Lexeme` is what is written and `Lexeme.value` what it stands for: an integer
where it is written as one and fits into 64 bits, and otherwise a 64-bit number. The latter is
computed from a significand of at most 64 bits and one power of ten: the digits that no longer fit
are counted if they stand before the point and dropped if they stand behind it.
-/

namespace TileRoute.Datum

structure Lexeme where
  negative : Bool
  whole : List Char
  fraction? : Option (List Char)
  exponent? : Option (Bool × List Char)
  deriving DecidableEq

namespace Lexeme

def digits? (cs : List Char) : Option (List Char × List Char) :=
  let (run, rest) := Decimal.splitDigits cs
  if run.isEmpty then none else some (run, rest)

/-- The digits before the point: a zero alone, or digits that start with another one. -/
def whole? (cs : List Char) : Option (List Char × List Char) := do
  let (run, rest) ← digits? cs
  if run.head? = some '0' ∧ run.length ≠ 1 then none else some (run, rest)

def readFraction : List Char → Option (Option (List Char) × List Char)
  | '.' :: cs => (digits? cs).map fun (run, rest) => (some run, rest)
  | cs => some (none, cs)

def readExponent : List Char → Option (Option (Bool × List Char) × List Char)
  | c :: cs =>
    if c = 'e' ∨ c = 'E' then
      let (negative, cs) := Decimal.splitSign cs
      (digits? cs).map fun (run, rest) => (some (negative, run), rest)
    else some (none, c :: cs)
  | [] => some (none, [])

def unsigned? (negative : Bool) (cs : List Char) : Option (Lexeme × List Char) := do
  let (whole, cs) ← whole? cs
  let (fraction?, cs) ← readFraction cs
  let (exponent?, cs) ← readExponent cs
  some (⟨negative, whole, fraction?, exponent?⟩, cs)

def read? : List Char → Option (Lexeme × List Char)
  | '-' :: cs => unsigned? true cs
  | cs => unsigned? false cs

example : (read? "-1.5e+2,".toList).map (·.2) = some [','] := by decide

example : read? "01".toList = none ∧ read? "1.".toList = none ∧ read? "+1".toList = none := by
  decide

end Lexeme

inductive Numeral where
  | integer (i : Int)
  | real (x : Float)
  | beyond

def maxSignificand : Nat := 18446744073709551615

/-- Takes digits into a significand until one does not fit; what is left begins with that one. -/
def accumulate (n : Nat) : List Char → Nat × List Char
  | [] => (n, [])
  | c :: rest =>
    let next := Decimal.valueFrom n [c]
    if next ≤ maxSignificand then accumulate next rest else (n, c :: rest)

def powerOfTen (n : Nat) : Float := Decimal.toFloat ⟨false, 1, n⟩

/-- The number divided by the greatest power of ten, so many times at most, until the exponent can
be reached in one division; the quotient is zero long before the count is. -/
def divideDown : Nat → Float → Int → Float
  | 0, _, _ => 0
  | n + 1, x, e =>
    if e.natAbs ≤ 308 then x / powerOfTen e.natAbs
    else if x == 0 then x
    else divideDown n (x / powerOfTen 308) (e + 308)

def scaled? (significand : Nat) (e : Int) : Option Float :=
  let x := Float.ofNat significand
  if e < 0 then some (divideDown e.natAbs x e)
  else if e ≤ 308 then
    let y := x * powerOfTen e.natAbs
    if y.isInf then none else some y
  else if significand = 0 then some x
  else none

namespace Lexeme

def maxExponent : Nat := 2147483647

def magnitude? (l : Lexeme) (significand : Nat) (scale : Int) : Option Float :=
  match l.exponent? with
  | none => scaled? significand scale
  | some (negative, digits) =>
    let e := Decimal.valueFrom 0 digits
    if e ≤ maxExponent then scaled? significand (if negative then scale - e else scale + e)
    else if significand = 0 ∨ negative then some 0
    else none

def real (l : Lexeme) : Numeral :=
  let (whole, counted) := accumulate 0 l.whole
  let fraction := l.fraction?.getD []
  let (significand, dropped) := accumulate whole fraction
  let scale := (counted.length : Int) - (fraction.length - dropped.length : Nat)
  match l.magnitude? significand scale with
  | some x => .real (if l.negative then -x else x)
  | none => .beyond

/-- The integer that is written, if it is written as one and fits; a negative zero does not. -/
def integer? (l : Lexeme) : Option Int :=
  if l.fraction?.isSome || l.exponent?.isSome then none
  else
    let n := Decimal.valueFrom 0 l.whole
    if l.negative then if 0 < n ∧ n ≤ 9223372036854775808 then some (-(n : Int)) else none
    else if n ≤ maxSignificand then some n
    else none

def value (l : Lexeme) : Numeral :=
  match l.integer? with
  | some i => .integer i
  | none => l.real

end Lexeme

end TileRoute.Datum
