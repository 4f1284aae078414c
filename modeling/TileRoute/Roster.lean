/-!
# Actors and their pictures

A `Roster` maps the identifiers of actors to their pictures and lists the party by identifier. A
party member is named by its place in the party, counted from zero.
-/

namespace TileRoute

structure Portrait where
  sheet : String
  index : Nat
  deriving DecidableEq, Repr

structure Roster where
  actors : List (Int × Portrait) := []
  party : List Int := []
  deriving DecidableEq, Repr

namespace Roster

/-- Puts an entry in its place, instead of one with the same identifier. -/
def insertActor (id : Int) (p : Portrait) : List (Int × Portrait) → List (Int × Portrait)
  | [] => [(id, p)]
  | (i, q) :: rest =>
    if id < i then (id, p) :: (i, q) :: rest
    else if id = i then (id, p) :: rest
    else (i, q) :: insertActor id p rest

def addActor (r : Roster) (id : Int) (p : Portrait) : Roster :=
  { r with actors := insertActor id p r.actors }

def portrait? (r : Roster) (id : Int) : Option Portrait := r.actors.lookup id

def memberPortrait? (r : Roster) (slot : Int) : Option Portrait := do
  let id ← if slot < 0 then none else r.party[slot.toNat]?
  r.portrait? id

end Roster

end TileRoute
