import TileRoute.Number.Shortest

/-!
# How numbers are written

A `Style` holds the decisions of one output format. Messages write every number positionally and
whole numbers without a point. Snapshots write at least one digit after the point, and turn to
scientific form where the first digit stands above `10 ^ 15` or below `10 ^ -5`.
-/

namespace TileRoute

structure Style where
  tie : Tie
  /-- Whether a number with its first digit at this power of ten is written positionally. -/
  positional : Int → Bool
  whole : String
  infinite : Bool → String
  undefined : String

namespace Style

def zeros (n : Nat) : String := String.ofList (List.replicate n '0')

def positionalText (s : Style) (digits : String) (e : Int) : String :=
  if e ≥ 0 then digits ++ zeros e.toNat ++ s.whole
  else
    let places := (-e).toNat
    let padded := zeros (places + 1 - digits.length) ++ digits
    let cut := padded.length - places
    String.ofList (padded.toList.take cut) ++ "." ++ String.ofList (padded.toList.drop cut)

def scientificText (digits : String) (e : Int) : String :=
  let tail := digits.toList.drop 1
  let power := e + (tail.length : Int)
  String.ofList (digits.toList.take 1)
    ++ (if tail.isEmpty then "" else "." ++ String.ofList tail)
    ++ (if power < 0 then "e-" else "e+") ++ toString power.natAbs

def magnitudeText (s : Style) (x : Binary) : String :=
  let (n, e) := x.shortest s.tie
  let digits := toString n
  if s.positional (e + (digits.length : Int) - 1) then s.positionalText digits e
  else scientificText digits e

def text (s : Style) (x : Float) : String :=
  let b := x.toBits
  match Exact.ofBits b with
  | .undefined => s.undefined
  | .infinite negative => s.infinite negative
  | .finite _ =>
    let x := Binary.ofBits b
    (if x.negative then "-" else "") ++ s.magnitudeText x

end Style

/-- Numbers in messages are positional, and of two equally near decimals the greater is written. -/
def messageStyle : Style where
  tie := .greater
  positional := fun _ => true
  whole := ""
  infinite := fun negative => if negative then "-inf" else "inf"
  undefined := "NaN"

/-- Numbers in snapshots have a point or an exponent, and of two equally near decimals the even one
is written. What is no number is written as nothing. -/
def snapshotStyle : Style where
  tie := .even
  positional := fun power => decide (-5 ≤ power ∧ power ≤ 15)
  whole := ".0"
  infinite := fun _ => "null"
  undefined := "null"

example : messageStyle.text 0.1 = "0.1" ∧ messageStyle.text (-0.0) = "-0" := by decide +kernel

example : snapshotStyle.text 1e16 = "1e+16" ∧ snapshotStyle.text 246.5 = "246.5" := by
  decide +kernel

end TileRoute
