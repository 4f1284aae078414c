import TileRoute.Grid.Basic
import TileRoute.Roster
import TileRoute.Route.Basic
import TileRoute.Settings

/-!
# Scenarios

A `Scenario` describes a stage before the first tick: the map, the settings, the actors and the
parts, which say where each character stands and which route it is given.
-/

namespace TileRoute

structure MapPlan where
  width : Nat
  height : Nat
  blocked : List Tile := []
  deriving DecidableEq, Repr

def MapPlan.draw (m : MapPlan) : Except GridError Grid :=
  Grid.withBlocked? m.width m.height m.blocked

/-- How a character comes onto the stage. -/
structure Part (α : Type) where
  label : String
  start : Tile
  framesPerStep : Nat := 0
  forced : Bool := false
  opacity? : Option α := none
  searchLimit? : Option Nat := none
  route? : Option (Route α) := none

structure Scenario (α : Type) where
  map : MapPlan
  settings : Settings α
  roster : Roster := {}
  parts : List (Part α)

end TileRoute
