import TileRoute.Grid.Basic
import TileRoute.Number.Range

/-!
# Path search

The heading from one tile to another is the first step of a walk found by a best-first search: the
agenda holds the tiles met, ordered by the steps to them and the distance from there to the goal
taken together, then by that distance alone, then by row and column. A tile is settled when it is
taken off the agenda for the first time, and a settled tile that lies within the limit puts its open
neighbours on the agenda. The search goes for the settled tile that is closest to the goal; when no
tile is closer than the start, the heading looks straight at the goal, blocked or not.
-/

namespace TileRoute.Grid

/-- The distance between two tiles as the search counts it. -/
def estimate (a b : Tile) : Nat := min (a.distance b) maxCount

/-- A tile to be settled: its distance to the goal, and the length of a walk that leads to it and
straight on. -/
structure Entry where
  tile : Tile
  distance : Nat
  total : Nat
  deriving DecidableEq, Repr

def Entry.reached (goal t : Tile) (steps : Nat) : Entry where
  tile := t
  distance := estimate t goal
  total := min (steps + estimate t goal) maxCount

/-- The entry is settled before the other. -/
def Entry.before (a b : Entry) : Bool :=
  decide <|
    a.total < b.total ∨ a.total = b.total ∧
      (a.distance < b.distance ∨ a.distance = b.distance ∧
        (a.tile.y < b.tile.y ∨ a.tile.y = b.tile.y ∧ a.tile.x < b.tile.x))

/-- Puts an entry on the agenda, behind those that it does not come before. -/
def schedule (e : Entry) : List Entry → List Entry
  | [] => [e]
  | x :: rest => if e.before x then e :: x :: rest else x :: schedule e rest

/-- What a search has found out, by place of the tiles. -/
structure Search where
  agenda : List Entry
  /-- The steps of the shortest walk found to a tile. -/
  steps : Array (Option Nat)
  /-- The place before a tile on that walk. -/
  parents : Array (Option Nat)
  settled : Array Bool
  closest : Nat
  closestDistance : Nat

namespace Search

def steps? (s : Search) (i : Nat) : Option Nat := s.steps[i]?.join

def parent? (s : Search) (i : Nat) : Option Nat := s.parents[i]?.join

def isSettled (s : Search) (i : Nat) : Bool := s.settled[i]?.getD false

def start (g : Grid) (start goal : Tile) (i : Nat) : Search where
  agenda := [.reached goal start 0]
  steps := (Array.replicate g.cells.size none).setIfInBounds i (some 0)
  parents := Array.replicate g.cells.size none
  settled := Array.replicate g.cells.size false
  closest := i
  closestDistance := estimate start goal

def settle (s : Search) (i : Nat) (distance : Nat) : Search :=
  let s := { s with settled := s.settled.setIfInBounds i true }
  if distance < s.closestDistance then { s with closest := i, closestDistance := distance } else s

def improves (s : Search) (i steps : Nat) : Bool :=
  match s.steps? i with
  | some known => decide (steps < known)
  | none => true

def reach (s : Search) (goal t : Tile) (i parent steps : Nat) : Search :=
  { s with
    agenda := schedule (.reached goal t steps) s.agenda
    steps := s.steps.setIfInBounds i (some steps)
    parents := s.parents.setIfInBounds i (some parent) }

/-- Looks from a tile in a direction: a passable neighbour that is not settled is reached unless a
walk as short is known. -/
def relax (g : Grid) (goal t : Tile) (i steps : Nat) (s : Search) (d : Direction) : Search :=
  match g.index? (t.step d) with
  | none => s
  | some j =>
    if !s.isSettled j && g.passable (t.step d) && s.improves j (steps + 1) then
      s.reach goal (t.step d) j i (steps + 1)
    else s

def expand (g : Grid) (goal : Tile) (limit : Nat) (s : Search) (t : Tile) (i : Nat) : Search :=
  match s.steps? i with
  | some steps =>
    if steps < limit then Direction.all.foldl (relax g goal t i steps) s else s
  | none => s

/-- Settles the tiles of the agenda one after the other until there is none, the goal is among them,
or so many entries have been taken. -/
def explore (g : Grid) (goal : Tile) (limit : Nat) : Nat → Search → Search
  | 0, s => s
  | entries + 1, s =>
    match s.agenda with
    | [] => s
    | e :: rest =>
      let s := { s with agenda := rest }
      match g.index? e.tile with
      | none => explore g goal limit entries s
      | some i =>
        if s.isSettled i then explore g goal limit entries s
        else
          let s := s.settle i e.distance
          if e.tile = goal then s
          else explore g goal limit entries (s.expand g goal limit e.tile i)

/-- Goes back from a place along the walk to it until the start is next, at most so many steps. -/
def firstPlace (s : Search) (start : Nat) : Nat → Nat → Nat
  | 0, i => i
  | steps + 1, i =>
    match s.parent? i with
    | none => i
    | some p => if p = start then i else firstPlace s start steps p

end Search

/-- The search from a tile in a place, run to its end: every tile is taken from the agenda at most
once for the start and once for each neighbour. -/
def search (g : Grid) (start goal : Tile) (limit : Nat) (i : Nat) : Search :=
  Search.explore g goal limit (1 + 4 * g.cells.size) (Search.start g start goal i)

/-- The first step from a tile toward another, none when it is the same tile. -/
def heading? (g : Grid) (start goal : Tile) (limit : Nat) : Option Direction :=
  if start = goal then none
  else
    match g.index? start with
    | none => start.facing goal
    | some i =>
      let s := g.search start goal limit i
      if s.closest = i then start.facing goal
      else
        let first := g.tileAt (s.firstPlace i g.cells.size s.closest)
        Direction.all.find? fun d => start.step d == first

end TileRoute.Grid
