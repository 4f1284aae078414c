import TileRoute.Stage.Basic

/-!
# Snapshots

What can be seen of a character from outside.
-/

namespace TileRoute

structure Snapshot (α : Type) where
  label : String
  position : Tile
  facing : Direction
  opacity : α
  /-- The displacement by a swing, in pixels. -/
  swing : α × α
  scrolled : α × α
  cursor? : Option Nat
  forcing : Bool
  portrait? : Option Portrait
  deriving DecidableEq

variable {α : Type} [Scalar α]

def Character.snapshot (settings : Settings α) (c : Character α) : Snapshot α where
  label := c.label
  position := c.body.position
  facing := c.body.facing
  opacity := c.body.opacity
  swing := c.motion.shake.pixels
  scrolled := c.scrolled settings
  cursor? := c.playback.route?.map fun _ => c.playback.cursor
  forcing := c.playback.forcing
  portrait? := c.body.portrait?

def Stage.snapshots (s : Stage α) : List (Snapshot α) :=
  s.characters.map (Character.snapshot s.world.settings)

omit [Scalar α] in
def Snapshot.event (time : Nat) (x : Snapshot α) : Event α :=
  .characterSeen time x.label x.position x.swing x.opacity x.cursor?

def Portrait.name (p : Portrait) : String := s!"{p.sheet}#{p.index}"

end TileRoute
