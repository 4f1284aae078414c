import TileRoute.Grid.Search
import TileRoute.Number.Scalar
import TileRoute.Roster

/-!
# Bodies

A `Body` is a character as the map sees it: where it stands, which way it faces and what it looks
like. A step lands on the next tile at once; for as many ticks as a step has frames the picture
trails behind, and the body counts as moving.
-/

namespace TileRoute

/-- A character as the map sees it. -/
structure Body (α : Type) where
  position : Tile
  previous : Tile
  facing : Direction
  framesPerStep : Nat
  moveLeft : Nat
  jumpLeft : Nat
  /-- Frames shown, counted in 32 bits. -/
  animation : Nat
  searchLimit : Nat
  opacity : α
  portrait? : Option Portrait

namespace Body

variable {α : Type}

def defaultSearchLimit : Nat := 12

def fullOpacity [Scalar α] : α := Scalar.ofInt 255

def standing [Scalar α] (t : Tile) (framesPerStep searchLimit : Nat) : Body α where
  position := t
  previous := t
  facing := .down
  framesPerStep
  moveLeft := 0
  jumpLeft := 0
  animation := 0
  searchLimit
  opacity := fullOpacity
  portrait? := none

def withOpacity [Scalar α] (b : Body α) (opacity : α) : Body α :=
  { b with opacity := Scalar.clamp Scalar.zero fullOpacity opacity }

def withPortrait (b : Body α) (p : Portrait) : Body α := { b with portrait? := some p }

def canStep (g : Grid) (b : Body α) (d : Direction) : Bool := g.passable (b.position.step d)

/-- Faces a direction, and steps that way if the tile ahead is passable. -/
def step (g : Grid) (b : Body α) (d : Direction) : Body α :=
  if b.canStep g d then
    { b with
      facing := d
      previous := b.position
      position := b.position.step d
      moveLeft := b.framesPerStep }
  else { b with facing := d }

def heading? (g : Grid) (b : Body α) (goal : Tile) : Option Direction :=
  g.heading? b.position goal b.searchLimit

def face (b : Body α) (d : Direction) : Body α := { b with facing := d }

def jump (b : Body α) (frames : Nat) : Body α := { b with jumpLeft := frames }

theorem position_step (g : Grid) (b : Body α) (d : Direction) :
    (b.step g d).position = if b.canStep g d then b.position.step d else b.position := by
  simp only [step]
  split <;> rfl

@[simp] theorem facing_step (g : Grid) (b : Body α) (d : Direction) :
    (b.step g d).facing = d := by
  simp only [step]
  split <;> rfl

theorem moveLeft_step (g : Grid) (b : Body α) (d : Direction) :
    (b.step g d).moveLeft = if b.canStep g d then b.framesPerStep else b.moveLeft := by
  simp only [step]
  split <;> rfl

def moving (b : Body α) : Bool := decide (0 < b.moveLeft)

def jumping (b : Body α) : Bool := decide (0 < b.jumpLeft)

def updateMove (b : Body α) : Body α := { b with moveLeft := b.moveLeft - 1 }

def updateJump (b : Body α) : Body α := { b with jumpLeft := b.jumpLeft - 1 }

def updateAnimation (b : Body α) : Body α :=
  { b with animation := (b.animation + 1) % 4294967296 }

variable {β : Type} [Scalar β]

def lagging (lag : β) (source target : Int) : β :=
  Scalar.ofInt target - Scalar.ofInt (target - source) * lag

/-- Where the picture is, in tiles: on the way from the last tile to this one. -/
def scroll (b : Body α) : β × β :=
  if b.moveLeft = 0 ∨ b.framesPerStep = 0 then
    (Scalar.ofInt b.position.x, Scalar.ofInt b.position.y)
  else
    let lag : β := Scalar.ofInt b.moveLeft / Scalar.ofInt b.framesPerStep
    (lagging lag b.previous.x b.position.x, lagging lag b.previous.y b.position.y)

theorem scroll_of_not_moving {b : Body α} (h : b.moving = false) :
    (b.scroll : β × β) = (Scalar.ofInt b.position.x, Scalar.ofInt b.position.y) := by
  have hz : b.moveLeft = 0 := by
    simp only [moving, decide_eq_false_iff_not] at h
    omega
  simp only [scroll, hz, true_or, if_true]

end Body

end TileRoute
