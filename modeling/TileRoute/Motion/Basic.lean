import TileRoute.Motion.Shake
import TileRoute.Motion.Fade
import TileRoute.Motion.Progress

/-!
# Motion

What goes on at a character beside its steps: a swing, a ramp of the opacity and the progress of the
command under the cursor. A swing, and a ramp that blocks, keep the route waiting.
-/

namespace TileRoute

structure Motion (α : Type) where
  shake : Shake α
  fade : Fade α
  progress : Progress

namespace Motion

variable {α : Type} [Scalar α]

def still : Motion α where
  shake := .still
  fade := .none
  progress := .start

/-- An effect keeps the route waiting. -/
def holdsStop (m : Motion α) : Bool := m.shake.active || (m.fade.blocks && m.fade.active)

end Motion

end TileRoute
