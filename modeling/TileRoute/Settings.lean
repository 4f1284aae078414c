import TileRoute.Number.Scalar

/-!
# Settings

The sizes that effects are measured in, and the seed of the random waits.
-/

namespace TileRoute

structure Settings (α : Type) where
  tileWidth : α
  tileHeight : α
  opacitySpan : α
  seed? : Option Nat

namespace Settings

variable {α : Type} [Scalar α]

def standard : Settings α where
  tileWidth := Scalar.ofInt 48
  tileHeight := Scalar.ofInt 48
  opacitySpan := Scalar.ofInt 255
  seed? := none

end Settings

end TileRoute
