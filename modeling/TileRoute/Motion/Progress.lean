import TileRoute.Number.Range

/-!
# Progress signals

A command may ask that the cursor of its route stay where it is, or that the route be broken off.
The request is taken once, and a weaker request never replaces a stronger one. Beside it stands the
number of steps that the command under the cursor has made.
-/

namespace TileRoute

/-- What the cursor of a route does once the current command has run, weakest first. -/
inductive Signal where
  | advance
  /-- The same command runs again. -/
  | hold
  /-- The route ends here. -/
  | abort
  deriving DecidableEq, Repr

namespace Signal

def stronger : Signal → Signal → Signal
  | .abort, _ => .abort
  | _, .abort => .abort
  | .hold, _ => .hold
  | _, .hold => .hold
  | .advance, .advance => .advance

def name : Signal → String
  | .advance => "advance"
  | .hold => "hold"
  | .abort => "abort"

end Signal

structure Progress where
  signal : Signal := .advance
  moves : Nat := 0
  deriving DecidableEq, Repr

namespace Progress

def start : Progress := {}

def request (p : Progress) (s : Signal) : Progress := { p with signal := p.signal.stronger s }

def hold (p : Progress) : Progress := p.request .hold

def take (p : Progress) : Progress := { p with signal := .advance }

def countMove (p : Progress) : Progress := { p with moves := min (p.moves + 1) maxCount }

def resetMoves (p : Progress) : Progress := { p with moves := 0 }

end Progress

end TileRoute
