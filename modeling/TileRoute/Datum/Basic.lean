/-!
# Data

A `Datum` is what a scenario text holds in a place. It is read as far as the text is well formed: a
list or an object that breaks off keeps what came before and is not closed, and a `fault` stands
where nothing could be read. What is only skipped may hold texts and numbers that cannot be
represented; what is kept may not.
-/

namespace TileRoute

/-- The key of an entry: its text, if that can be read and said, and all that stands behind its
opening quote. -/
structure Key where
  name? : Option String
  source : List Char

inductive Datum where
  | null
  | truth (b : Bool)
  | integer (i : Int)
  | real (x : Float)
  | beyond
  | text (s : String)
  /-- A text with one unit of a pair without the other. -/
  | unsayable
  | list (items : List Datum) (closed : Bool)
  | object (entries : List (Key × Datum)) (closed : Bool)
  | fault

namespace Datum

mutual

def whole : Datum → Bool
  | .list items closed => closed && wholeItems items
  | .object entries closed => closed && wholeEntries entries
  | .fault => false
  | _ => true

def wholeItems : List Datum → Bool
  | [] => true
  | d :: rest => d.whole && wholeItems rest

def wholeEntries : List (Key × Datum) → Bool
  | [] => true
  | (_, d) :: rest => d.whole && wholeEntries rest

end

mutual

/-- The datum is well formed, all in it can be represented, and no more than so many lists and
objects are nested in it. -/
def storable (depth : Nat) : Datum → Bool
  | .list items closed => decide (0 < depth) && closed && storableItems (depth - 1) items
  | .object entries closed => decide (0 < depth) && closed && storableEntries (depth - 1) entries
  | .beyond => false
  | .unsayable => false
  | .fault => false
  | _ => true

def storableItems (depth : Nat) : List Datum → Bool
  | [] => true
  | d :: rest => d.storable depth && storableItems depth rest

def storableEntries (depth : Nat) : List (Key × Datum) → Bool
  | [] => true
  | (k, d) :: rest => k.name?.isSome && d.storable depth && storableEntries depth rest

end

end Datum

end TileRoute
