/-!
# Decimal numerals

A `Decimal` is a signed natural number of digits times a power of ten. `Decimal.ofText?` reads one:
an optional sign, digits with an optional point and at least one digit on either side of it, and an
optional exponent, which is `e` or `E`, an optional sign and at least one digit. `Decimal.toFloat`
is the nearest 64-bit number, ties to the even mantissa.
-/

namespace TileRoute

/-- The number `±digits · 10 ^ exponent`. -/
structure Decimal where
  negative : Bool
  digits : Nat
  exponent : Int
  deriving DecidableEq

namespace Decimal

def digit? (c : Char) : Option Nat :=
  if '0' ≤ c ∧ c ≤ '9' then some (c.toNat - 48) else none

def isDigit (c : Char) : Bool := (digit? c).isSome

def valueFrom (n : Nat) (cs : List Char) : Nat :=
  cs.foldl (fun n c => 10 * n + (digit? c).getD 0) n

def splitDigits (cs : List Char) : List Char × List Char :=
  (cs.takeWhile isDigit, cs.dropWhile isDigit)

/-- Splits an optional sign off: whether it is a minus, and the rest. -/
def splitSign : List Char → Bool × List Char
  | '-' :: rest => (true, rest)
  | '+' :: rest => (false, rest)
  | rest => (false, rest)

def natural? (cs : List Char) : Option Nat :=
  if !cs.isEmpty && cs.all isDigit then some (valueFrom 0 cs) else none

def exponent? : List Char → Option Int
  | [] => some 0
  | c :: rest =>
    if c = 'e' ∨ c = 'E' then
      let (negative, digits) := splitSign rest
      (natural? digits).map fun n => if negative then -(n : Int) else n
    else none

def unsigned? (negative : Bool) (cs : List Char) : Option Decimal :=
  let (whole, rest) := splitDigits cs
  let (fraction, rest) := match rest with
    | '.' :: rest => splitDigits rest
    | rest => ([], rest)
  if whole.isEmpty && fraction.isEmpty then none
  else (exponent? rest).map fun e =>
    { negative, digits := valueFrom (valueFrom 0 whole) fraction, exponent := e - fraction.length }

def ofChars? (cs : List Char) : Option Decimal :=
  unsigned? (splitSign cs).1 (splitSign cs).2

def ofText? (s : String) : Option Decimal := ofChars? s.toList

example : ofText? "-2.50e3" = some ⟨true, 250, 1⟩ := by decide

example : ofText? "." = none ∧ ofText? "1e" = none ∧ ofText? "1_0" = none := by decide

/-- The nearest 64-bit number. Powers of ten that leave the range whatever the digits are not
computed: the first bound is above every finite number, the second below half the least one. -/
def toFloat (d : Decimal) : Float :=
  let magnitude : Float :=
    if d.digits = 0 then 0
    else if d.exponent > 400 then 1 / 0
    else if d.exponent + d.digits.log2 < -400 then 0
    else Float.ofScientific d.digits (decide (d.exponent < 0)) d.exponent.natAbs
  if d.negative then -magnitude else magnitude

def toRat (d : Decimal) : Rat :=
  let signed : Int := if d.negative then -(d.digits : Int) else d.digits
  mkRat (signed * Nat.pow 10 d.exponent.toNat) (Nat.pow 10 (-d.exponent).toNat)

example : (toFloat ⟨true, 25, -1⟩).toBits = (-2.5 : Float).toBits := by decide +kernel

end Decimal

end TileRoute
