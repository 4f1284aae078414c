import TileRoute.Datum.Problem
import TileRoute.Number.Range

/-!
# Reading scalars and lists out of data

Each reader takes a datum that stands where something is expected. What cannot be read at all is
malformed there; what can be read but is something else has the wrong type.
-/

namespace TileRoute.Datum

variable {β : Type}

def misfit : Datum → Problem
  | .fault => .malformed
  | .beyond => .malformed
  | .unsayable => .malformed
  | _ => .misplaced [] .invalidType

def text? : Datum → Decoded String
  | .text s => .ok s
  | d => .error d.misfit

def truth? : Datum → Decoded Bool
  | .truth b => .ok b
  | d => .error d.misfit

/-- A number; an integer is one too. -/
def real? : Datum → Decoded Float
  | .real x => .ok x
  | .integer i => .ok (Float.ofInt i)
  | d => .error d.misfit

def integer? (least greatest : Int) : Datum → Decoded Int
  | .integer i =>
    if least ≤ i ∧ i ≤ greatest then .ok i else Decoded.refuse .invalidValue
  | d => .error d.misfit

def natural? (greatest : Nat) (d : Datum) : Decoded Nat := Int.toNat <$> d.integer? 0 greatest

def count? (d : Datum) : Decoded Nat := d.natural? maxCount

def coordinate? (d : Datum) : Decoded Int := d.integer? (-2147483648) 2147483647

def identifierRange : Int × Int := (-9223372036854775808, 9223372036854775807)

def identifier? (d : Datum) : Decoded Int := d.integer? identifierRange.1 identifierRange.2

def orNull? (read : Datum → Decoded β) : Datum → Decoded (Option β)
  | .null => .ok none
  | d => some <$> read d

def itemsFrom? (read : Datum → Decoded β) : Nat → List Datum → Decoded (List β)
  | _, [] => .ok []
  | i, d :: rest => do
    let b ← (read d).under (.index i)
    let bs ← itemsFrom? read (i + 1) rest
    .ok (b :: bs)

def list? (read : Datum → Decoded β) : Datum → Decoded (List β)
  | .list items closed => do
    let bs ← itemsFrom? read 0 items
    if closed then .ok bs else .error .malformed
  | d => .error d.misfit

end TileRoute.Datum
