import TileRoute.Body
import TileRoute.Dice.Basic
import TileRoute.Motion.Basic
import TileRoute.Route.Basic
import TileRoute.Settings

/-!
# Characters

A `Character` is a body with its effects, its dice and the playback of its route. The playback holds
the installed route with a cursor; a forced route stands in for another, which is kept aside with
its cursor until the forced one ends.
-/

namespace TileRoute

/-- A route that has been set aside, or that there was none, with its cursor. -/
structure Saved (α : Type) where
  route? : Option (Route α)
  cursor : Nat

/-- The installed route and how far it has come. -/
structure Playback (α : Type) where
  route? : Option (Route α) := none
  cursor : Nat := 0
  forcing : Bool := false
  saved? : Option (Saved α) := none
  wait : Nat := 0
  /-- The last command was not blocked. -/
  stepped : Bool := false

namespace Playback

variable {α : Type}

def idle : Playback α := {}

/-- A step that is blocked has to be tried again. -/
def insists (p : Playback α) : Bool := p.route?.any fun r => !r.skippable

/-- A forced route is running whose end is waited for. -/
def awaited (p : Playback α) : Bool := p.forcing && p.route?.any fun r => r.awaited

def command? (p : Playback α) : Option (Command α) := p.route?.bind fun r => r.command? p.cursor

end Playback

structure Character (α : Type) where
  label : String
  body : Body α
  motion : Motion α
  playback : Playback α
  dice : Dice

namespace Character

variable {α : Type}

def mapBody (c : Character α) (f : Body α → Body α) : Character α := { c with body := f c.body }

def mapProgress (c : Character α) (f : Progress → Progress) : Character α :=
  { c with motion := { c.motion with progress := f c.motion.progress } }

def mapPlayback (c : Character α) (f : Playback α → Playback α) : Character α :=
  { c with playback := f c.playback }

variable [Scalar α]

def placed (label : String) (body : Body α) (settings : Settings α) : Character α where
  label
  body
  motion := .still
  playback := .idle
  dice := .ofSeed settings.seed?

/-- The body is at rest and no effect keeps the route waiting. -/
def stopping (c : Character α) : Bool :=
  !c.body.moving && !c.body.jumping && !c.motion.holdsStop

def idle (c : Character α) : Bool :=
  c.playback.route?.isNone && !c.motion.shake.active && !c.motion.fade.active && c.stopping

def scrolled (c : Character α) (settings : Settings α) : α × α :=
  let base : α × α := c.body.scroll
  let swing := c.motion.shake.scroll settings.tileWidth settings.tileHeight
  (base.1 + swing.1, base.2 + swing.2)

omit [Scalar α] in
/-- Steps in a direction if the way is free, faces it in any case, and takes note of which it was. -/
def stepIn (g : Grid) (c : Character α) (d : Direction) : Character α :=
  { c with
    body := c.body.step g d
    playback := { c.playback with stepped := c.body.canStep g d } }

end Character

end TileRoute
