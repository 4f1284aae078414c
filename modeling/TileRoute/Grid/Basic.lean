import TileRoute.Grid.Cells
import TileRoute.Tile

/-!
# Grids

A `Grid` is a map of `width · height` tiles, each open or blocked. The tiles are kept row by row:
the tile in column `x` and row `y` has the place `y · width + x`. Tiles outside are not passable.

The sides are numbers of 32 bits without a sign, and the coordinates of a tile have one. A side may
thus be longer than coordinates reach: there are tiles of the map only in the columns and rows below
`2 ^ 31`, and a place in one of the others has a tile with a negative coordinate.
-/

namespace TileRoute

inductive GridError where
  | emptyGrid (width height : Nat)
  | outOfBounds (tile : Tile) (width height : Nat)
  deriving DecidableEq, Repr

def GridError.message : GridError → String
  | .emptyGrid width height => s!"grid dimensions must be non-zero, got {width}x{height}"
  | .outOfBounds tile width height =>
    s!"tile ({tile.x}, {tile.y}) is outside the {width}x{height} grid"

/-- A map of open and blocked tiles, row by row. -/
structure Grid where
  width : Nat
  height : Nat
  cells : Cells

namespace Grid

def open? (width height : Nat) : Except GridError Grid :=
  if width = 0 ∨ height = 0 then .error (.emptyGrid width height)
  else .ok ⟨width, height, .opened (width * height)⟩

def contains (g : Grid) (t : Tile) : Bool :=
  decide (t.Narrow ∧ 0 ≤ t.x ∧ t.x < g.width ∧ 0 ≤ t.y ∧ t.y < g.height)

def index? (g : Grid) (t : Tile) : Option Nat :=
  if g.contains t then some (t.y.toNat * g.width + t.x.toNat) else none

def tileAt (g : Grid) (i : Nat) : Tile := ⟨coordinate (i % g.width), coordinate (i / g.width)⟩

def passable (g : Grid) (t : Tile) : Bool :=
  match g.index? t with
  | some i => g.cells.isOpen i
  | none => false

def block (g : Grid) (t : Tile) : Except GridError Grid :=
  match g.index? t with
  | some i => .ok { g with cells := g.cells.block i }
  | none => .error (.outOfBounds t g.width g.height)

def withBlocked? (width height : Nat) (blocked : List Tile) : Except GridError Grid := do
  let g ← open? width height
  blocked.foldlM block g

theorem contains_iff {g : Grid} {t : Tile} :
    g.contains t = true ↔
      t.Narrow ∧ 0 ≤ t.x ∧ t.x < g.width ∧ 0 ≤ t.y ∧ t.y < g.height := by
  simp only [contains, decide_eq_true_eq]

@[simp] theorem tileAt_x (g : Grid) (i : Nat) : (g.tileAt i).x = coordinate (i % g.width) := by
  simp only [tileAt]

@[simp] theorem tileAt_y (g : Grid) (i : Nat) : (g.tileAt i).y = coordinate (i / g.width) := by
  simp only [tileAt]

theorem index?_isSome (g : Grid) (t : Tile) : (g.index? t).isSome = g.contains t := by
  simp only [index?]
  split <;> simp_all only [Option.isSome_some, Option.isSome_none, Bool.not_eq_true]

theorem index?_of_contains {g : Grid} {t : Tile} (h : g.contains t = true) :
    g.index? t = some (t.y.toNat * g.width + t.x.toNat) := by
  simp only [index?, h, if_true]

theorem contains_of_index? {g : Grid} {t : Tile} {i : Nat} (h : g.index? t = some i) :
    g.contains t = true := by
  rw [← index?_isSome, h]
  rfl

theorem passable_contains {g : Grid} {t : Tile} (h : g.passable t = true) :
    g.contains t = true := by
  simp only [passable] at h
  split at h
  · rename_i hi
    exact contains_of_index? hi
  · cases h

end Grid

end TileRoute
