import TileRoute.Call.Basic

/-!
# Shaking

A shaking character swings along one screen axis. The offset grows by a fixed step each tick, turns
back beyond twice the power, and goes on after the duration is over until it lands on zero or
crosses it: a shake ends at exactly zero.
-/

namespace TileRoute

structure Shake (α : Type) where
  axis : Axis
  power : α
  speed : α
  /-- Ticks left of the duration, negative when the swing outlasts it. -/
  remaining : Int
  /-- The swing goes toward lower offsets. -/
  back : Bool
  offset : α

namespace Shake

variable {α : Type} [Scalar α]

def still : Shake α where
  axis := .vertical
  power := Scalar.zero
  speed := Scalar.zero
  remaining := 0
  back := false
  offset := Scalar.zero

def start (s : Shake α) (axis : Axis) (power speed : α) (duration : Int) : Shake α :=
  { s with axis, power, speed, remaining := duration, back := false }

omit [Scalar α] in
@[simp] theorem offset_start (s : Shake α) (axis : Axis) (power speed : α) (duration : Int) :
    (s.start axis power speed duration).offset = s.offset := rfl

/-- The duration is not over, or the offset has not come back to zero. -/
def active (s : Shake α) : Bool := decide (0 < s.remaining ∨ ¬ Scalar.IsZero s.offset)

def sign (s : Shake α) : Int := if s.back then -1 else 1

def change (s : Shake α) : α :=
  s.power * s.speed * Scalar.ofInt s.sign / Scalar.ofInt 10

def stride (s : Shake α) : α := Scalar.abs (s.power * s.speed / Scalar.ofInt 10)

def bound (s : Shake α) : α := s.power * Scalar.ofInt 2

/-- The next change would cross zero, and the duration is over with this tick. -/
def arrives (s : Shake α) : Bool :=
  decide (s.remaining ≤ 1 ∧ Scalar.Lt (s.offset * (s.offset + s.change)) Scalar.zero)

def nextOffset (s : Shake α) : α := if s.arrives then Scalar.zero else s.offset + s.change

/-- Which way the swing goes once its offset is `x`: it turns beyond the bound on either side. -/
def turnsBack (s : Shake α) (x : α) : Bool :=
  if Scalar.Lt x (-s.bound) then false
  else if Scalar.Lt s.bound x then true
  else s.back

/-- One tick of a swing; a character that is not shaking stays as it is. -/
def update (s : Shake α) : Shake α :=
  if s.active then
    { s with
      offset := s.nextOffset
      back := s.turnsBack s.nextOffset
      remaining := toCoordinate (s.remaining - 1) }
  else s

theorem update_of_not_active {s : Shake α} (h : s.active = false) : s.update = s := by
  simp only [update, h, Bool.false_eq_true, if_false]

def pixels (s : Shake α) : α × α :=
  match s.axis with
  | .horizontal => (s.offset, Scalar.zero)
  | .vertical => (Scalar.zero, s.offset)

def scroll (s : Shake α) (tileWidth tileHeight : α) : α × α :=
  (s.pixels.1 / tileWidth, s.pixels.2 / tileHeight)

end Shake

end TileRoute
