import TileRoute.Call.Basic

/-!
# Fading

A fade changes the opacity of a character by the same step in each of its ticks. Its duration may be
fractional: the ticks are the whole number not below it, and the step is the span divided by the
duration itself. The opacity is not kept here.
-/

namespace TileRoute

structure Fade (α : Type) where
  ramp : Ramp
  step : α
  remaining : Nat
  blocks : Bool

namespace Fade

variable {α : Type} [Scalar α]

def none : Fade α where
  ramp := .appear
  step := Scalar.zero
  remaining := 0
  blocks := false

/-- The number of ticks of a duration; a duration that is not positive has none. -/
def ticks (duration : α) : Nat :=
  if Scalar.Lt Scalar.zero duration then (Scalar.exact duration).ceilCount else 0

def lasting (ramp : Ramp) (duration span : α) (blocks : Bool) : Fade α where
  ramp
  step := if ticks duration = 0 then Scalar.zero else span / duration
  remaining := ticks duration
  blocks

omit [Scalar α] in
def active (f : Fade α) : Bool := decide (0 < f.remaining)

def change? (f : Fade α) : Option α :=
  if f.active then
    some (match f.ramp with
      | .appear => f.step
      | .vanish => -f.step)
  else .none

def update (f : Fade α) : Fade α := { f with remaining := f.remaining - 1 }

end Fade

end TileRoute
