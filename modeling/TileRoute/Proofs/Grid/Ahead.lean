import Mathlib.Tactic.Ring
import TileRoute.Grid.Basic

/-!
# Straight ahead

How far the way straight ahead of a tile is passable, and how far the border of the map is.
-/

namespace TileRoute

/-- The tile so many steps ahead. -/
def Tile.ahead (t : Tile) (d : Direction) (k : Nat) : Tile := ⟨t.x + k * d.dx, t.y + k * d.dy⟩

theorem Tile.ahead_zero (t : Tile) (d : Direction) : t.ahead d 0 = t := by
  simp only [ahead, Int.natCast_zero, Int.zero_mul, Int.add_zero]

theorem Tile.ahead_succ (t : Tile) (d : Direction) (k : Nat) :
    t.ahead d (k + 1) = (t.step d).ahead d k := by
  have hx : t.x + (k + 1 : Nat) * d.dx = t.x + d.dx + k * d.dx := by
    push_cast
    ring
  have hy : t.y + (k + 1 : Nat) * d.dy = t.y + d.dy + k * d.dy := by
    push_cast
    ring
  unfold ahead step
  rw [hx, hy]

theorem Tile.step_ahead (t : Tile) (d : Direction) (k : Nat) :
    (t.ahead d k).step d = t.ahead d (k + 1) := by
  have hx : t.x + k * d.dx + d.dx = t.x + (k + 1 : Nat) * d.dx := by
    push_cast
    ring
  have hy : t.y + k * d.dy + d.dy = t.y + (k + 1 : Nat) * d.dy := by
    push_cast
    ring
  unfold ahead step
  rw [hx, hy]

theorem Tile.ahead_ahead (t : Tile) (d : Direction) (j k : Nat) :
    (t.ahead d j).ahead d k = t.ahead d (j + k) := by
  have hx : t.x + j * d.dx + k * d.dx = t.x + (j + k : Nat) * d.dx := by
    push_cast
    ring
  have hy : t.y + j * d.dy + k * d.dy = t.y + (j + k : Nat) * d.dy := by
    push_cast
    ring
  unfold ahead
  rw [hx, hy]

namespace Grid

/-- The passable tiles straight ahead up to the first that is not, at most so many. -/
def clear (g : Grid) (t : Tile) (d : Direction) : Nat → Nat
  | 0 => 0
  | n + 1 => if g.passable (t.step d) then g.clear (t.step d) d n + 1 else 0

theorem passable_ahead {g : Grid} {t : Tile} {d : Direction} {n i : Nat}
    (h : i < g.clear t d n) : g.passable (t.ahead d (i + 1)) = true := by
  induction n generalizing t i with
  | zero => cases h
  | succ n ih =>
    unfold clear at h
    split at h
    · rename_i hp
      rw [Tile.ahead_succ]
      cases i with
      | zero =>
        rw [Tile.ahead_zero]
        exact hp
      | succ i => exact ih (by omega)
    · cases h

theorem blocked_ahead {g : Grid} {t : Tile} {d : Direction} {n : Nat}
    (h : g.clear t d n < n) : g.passable (t.ahead d (g.clear t d n + 1)) = false := by
  induction n generalizing t with
  | zero => cases h
  | succ n ih =>
    unfold clear at h ⊢
    rw [Tile.ahead_succ]
    split at h
    · rename_i hp
      rw [if_pos hp]
      exact ih (by omega)
    · rename_i hp
      rw [if_neg hp, Tile.ahead_zero]
      exact Bool.not_eq_true _ ▸ hp

/-- The steps from a tile to the border of the map. -/
def room (g : Grid) (t : Tile) : Direction → Nat
  | .down => (g.height - 1 - t.y).toNat
  | .left => t.x.toNat
  | .right => (g.width - 1 - t.x).toNat
  | .up => t.y.toNat

theorem room_step {g : Grid} {t : Tile} {d : Direction} (ht : g.contains t = true)
    (hp : g.passable (t.step d) = true) : g.room (t.step d) d + 1 = g.room t d := by
  have hs := (contains_iff.mp (passable_contains hp)).2
  have hc := (contains_iff.mp ht).2
  cases d <;> simp only [room, Tile.step_x, Tile.step_y, Direction.dx, Direction.dy] at hs ⊢ <;>
    omega

theorem room_lt {g : Grid} {t : Tile} (d : Direction) {m : Nat} (ht : g.contains t = true)
    (hw : g.width ≤ m) (hh : g.height ≤ m) : g.room t d < m := by
  have hc := (contains_iff.mp ht).2
  cases d <;> simp only [room] <;> omega

theorem le_room {g : Grid} {t : Tile} {d : Direction} {n : Nat} (ht : g.contains t = true)
    (hfree : ∀ k < n, g.passable (t.ahead d (k + 1)) = true) : n ≤ g.room t d := by
  induction n generalizing t with
  | zero => exact Nat.zero_le _
  | succ n ih =>
    have hp : g.passable (t.step d) = true := by
      have hfirst := hfree 0 (Nat.succ_pos n)
      rw [Tile.ahead_succ, Tile.ahead_zero] at hfirst
      exact hfirst
    have hrest : n ≤ g.room (t.step d) d := ih (passable_contains hp) fun k hk => by
      rw [← Tile.ahead_succ]
      exact hfree (k + 1) (Nat.succ_lt_succ hk)
    have hroom := room_step ht hp
    omega

end Grid

end TileRoute
