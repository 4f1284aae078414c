/-!
# Tiles and directions

The map is a square raster whose rows are counted downwards. A `Tile` names a square by column and
row, inside or outside any particular map, and a `Direction` is one of the four ways to leave it.

Coordinates are meant to have 32 bits (`Tile.Narrow`): those of a scenario text do, and no other
tile is on a map. A step or a difference is taken over all integers all the same. It has the number
that 32 bits give as long as that number is one of 32 bits: a step from a tile of a map can only
leave the range where it leaves the map as well, and two tiles of one map are never too far apart,
since no coordinate is negative there.
-/

namespace TileRoute

inductive Direction where
  | down
  | left
  | right
  | up
  deriving DecidableEq, Repr

namespace Direction

/-- All directions, in the order in which neighbours are tried. -/
def all : List Direction := [.down, .left, .right, .up]

theorem mem_all (d : Direction) : d ∈ all := by cases d <;> decide

def dx : Direction → Int
  | .left => -1
  | .right => 1
  | _ => 0

/-- Change of row of one step; rows grow downwards. -/
def dy : Direction → Int
  | .up => -1
  | .down => 1
  | _ => 0

def token : Direction → String
  | .down => "down"
  | .left => "left"
  | .right => "right"
  | .up => "up"

def ofToken? (word : String) : Option Direction := all.find? fun d => d.token == word

end Direction

/-- A square of the raster: column `x`, row `y`, which are meant to be numbers of 32 bits. -/
structure Tile where
  x : Int
  y : Int
  deriving DecidableEq, Repr

/-- The coordinate that has the lowest 32 bits of a number: the number itself below `2 ^ 31`, and a
negative one from there up to `2 ^ 32`. -/
def coordinate (n : Nat) : Int := Int.bmod n 4294967296

theorem coordinate_of_lt {n : Nat} (h : n < 2147483648) : coordinate n = n :=
  Int.bmod_eq_of_le (by omega) (by omega)

theorem coordinate_range (n : Nat) : -2147483648 ≤ coordinate n ∧ coordinate n < 2147483648 :=
  ⟨Int.le_bmod (by decide), Int.bmod_lt (by decide)⟩

theorem coordinate_of_ge {n : Nat} (hge : 2147483648 ≤ n) (hlt : n < 4294967296) :
    coordinate n = n - 4294967296 := by
  unfold coordinate
  rw [← Int.sub_bmod_right]
  exact Int.bmod_eq_of_le (by omega) (by omega)

theorem coordinate_nonneg_iff {n : Nat} (h : n < 4294967296) :
    0 ≤ coordinate n ↔ n < 2147483648 := by
  rcases Nat.lt_or_ge n 2147483648 with hlt | hge
  · rw [coordinate_of_lt hlt]
    omega
  · rw [coordinate_of_ge hge h]
    omega

namespace Tile

/-- Both coordinates are numbers of 32 bits. -/
def Narrow (t : Tile) : Prop :=
  (-2147483648 ≤ t.x ∧ t.x < 2147483648) ∧ -2147483648 ≤ t.y ∧ t.y < 2147483648

instance (t : Tile) : Decidable t.Narrow := inferInstanceAs (Decidable (_ ∧ _))

def step (t : Tile) (d : Direction) : Tile := ⟨t.x + d.dx, t.y + d.dy⟩

@[simp] theorem step_x (t : Tile) (d : Direction) : (t.step d).x = t.x + d.dx := rfl

@[simp] theorem step_y (t : Tile) (d : Direction) : (t.step d).y = t.y + d.dy := rfl

theorem step_injective (t : Tile) {d e : Direction} (h : t.step d = t.step e) : d = e := by
  have hx := congrArg Tile.x h
  have hy := congrArg Tile.y h
  cases d <;> cases e <;> simp only [step_x, step_y, Direction.dx, Direction.dy] at hx hy <;>
    first | rfl | omega

def distance (a b : Tile) : Nat := (a.x - b.x).natAbs + (a.y - b.y).natAbs

theorem distance_self (a : Tile) : a.distance a = 0 := by
  simp only [distance, Int.sub_self, Int.natAbs_zero]

theorem distance_eq_zero_iff {a b : Tile} : a.distance b = 0 ↔ a = b := by
  constructor
  · intro h
    cases a
    cases b
    simp only [distance] at h
    simp only [Tile.mk.injEq]
    omega
  · intro h
    rw [h]
    exact distance_self b

/-- The way that looks straight at a goal: along the axis on which it lies farther, along the
column when both are equally far, and nowhere when it is the same tile. Where a difference of the
coordinates has more than 32 bits, which takes a tile outside every map, this is still the way over
the integers. -/
def facing (a b : Tile) : Option Direction :=
  let dx := b.x - a.x
  let dy := b.y - a.y
  if dx.natAbs > dy.natAbs then
    some (if dx > 0 then .right else .left)
  else if dy ≠ 0 then
    some (if dy > 0 then .down else .up)
  else
    none

theorem facing_eq_none_iff {a b : Tile} : a.facing b = none ↔ a = b := by
  cases a
  cases b
  simp only [facing, Tile.mk.injEq]
  split
  · simp only [reduceCtorEq, false_iff]
    omega
  · split
    · simp only [reduceCtorEq, false_iff]
      omega
    · simp only [true_iff]
      omega

end Tile

end TileRoute
