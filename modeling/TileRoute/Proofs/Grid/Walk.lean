import Mathlib.Tactic.Common
import TileRoute.Grid.Search
import TileRoute.Logged

/-!
# Walks on a map

A map that has been drawn has one cell for each of its tiles, so places and tiles of the map stand
for each other. A `Walk` leads from a tile over passable tiles to another in a number of steps; the
tile that it starts from need not be passable.
-/

namespace TileRoute

theorem Tile.distance_le_step (t goal : Tile) (d : Direction) :
    t.distance goal ≤ (t.step d).distance goal + 1 := by
  unfold distance
  rw [step_x, step_y]
  cases d <;> simp only [Direction.dx, Direction.dy] <;> omega

/-- A step the way that looks straight at the goal comes closer to it. -/
theorem Tile.distance_facing {t goal : Tile} {d : Direction} (h : t.facing goal = some d) :
    (t.step d).distance goal + 1 = t.distance goal := by
  simp only [facing] at h
  unfold distance
  rw [step_x, step_y]
  split at h
  · cases h
    split <;> simp only [Direction.dx, Direction.dy] <;> omega
  · split at h
    · cases h
      split <;> simp only [Direction.dx, Direction.dy] <;> omega
    · cases h

namespace Grid

/-- The map has one cell for each tile. -/
structure Sound (g : Grid) : Prop where
  size : g.cells.size = g.width * g.height

theorem sound_open {width height : Nat} {g : Grid} (h : open? width height = .ok g) :
    g.Sound := by
  unfold open? at h
  split at h
  · cases h
  · cases h
    exact ⟨Cells.size_opened _⟩

theorem sound_block {g b : Grid} {t : Tile} (hg : g.Sound) (h : g.block t = .ok b) :
    b.Sound := by
  unfold block at h
  split at h
  · cases h
    refine ⟨?_⟩
    change (g.cells.block _).size = g.width * g.height
    rw [Cells.size_block, hg.size]
  · cases h

theorem sound_blockAll {blocked : List Tile} {g b : Grid} (hg : g.Sound)
    (h : blocked.foldlM block g = .ok b) : b.Sound := by
  induction blocked generalizing g with
  | nil =>
    cases h
    exact hg
  | cons t rest ih =>
    rw [List.foldlM_cons] at h
    obtain ⟨m, hm, hrest⟩ := ok_of_bind h
    exact ih (sound_block hg hm) hrest

/-- Every map that can be drawn has one cell for each tile. -/
theorem sound_withBlocked {width height : Nat} {blocked : List Tile} {g : Grid}
    (h : withBlocked? width height blocked = .ok g) : g.Sound := by
  obtain ⟨o, ho, hblocked⟩ := ok_of_bind h
  exact sound_blockAll (sound_open ho) hblocked

/-- The place of a tile of the map. -/
def place (g : Grid) (t : Tile) : Nat := t.y.toNat * g.width + t.x.toNat

variable {g : Grid} {a b t goal : Tile}

theorem index?_eq_place (h : g.contains t = true) : g.index? t = some (g.place t) :=
  index?_of_contains h

theorem tileAt_place (h : g.contains t = true) : g.tileAt (g.place t) = t := by
  obtain ⟨⟨hnx, hny⟩, hx, hxw, hy, hyh⟩ := contains_iff.mp h
  have hlt : t.x.toNat < g.width := by omega
  have hm : (t.y.toNat * g.width + t.x.toNat) % g.width = t.x.toNat := by
    rw [Nat.mul_add_mod_self_right, Nat.mod_eq_of_lt hlt]
  have hd : (t.y.toNat * g.width + t.x.toNat) / g.width = t.y.toNat := by
    rw [Nat.mul_comm, Nat.mul_add_div (by omega), Nat.div_eq_of_lt hlt, Nat.add_zero]
  unfold tileAt place
  rw [hm, hd, coordinate_of_lt (by omega), coordinate_of_lt (by omega), Int.toNat_of_nonneg hx,
    Int.toNat_of_nonneg hy]

theorem place_inj (ha : g.contains a = true) (hb : g.contains b = true)
    (h : g.place a = g.place b) : a = b := by
  rw [← tileAt_place ha, h, tileAt_place hb]

theorem place_lt (hg : g.Sound) (h : g.contains t = true) : g.place t < g.cells.size := by
  obtain ⟨-, hx, hxw, hy, hyh⟩ := contains_iff.mp h
  have hrow : (t.y.toNat + 1) * g.width ≤ g.height * g.width :=
    Nat.mul_le_mul_right _ (by omega)
  rw [Nat.add_mul, Nat.one_mul] at hrow
  unfold place
  rw [hg.size, Nat.mul_comm g.width]
  omega

/-- A walk over passable tiles in so many steps. -/
inductive Walk (g : Grid) (a : Tile) : Nat → Tile → Prop
  | stay : Walk g a 0 a
  | step {n : Nat} {t : Tile} (d : Direction) (h : Walk g a n t)
      (hp : g.passable (t.step d) = true) : Walk g a (n + 1) (t.step d)

namespace Walk

variable {n m : Nat}

theorem eq_of_zero (h : Walk g a 0 t) : t = a := by
  cases h
  rfl

theorem contains (h : Walk g a n t) (ha : g.contains a = true) : g.contains t = true := by
  cases h with
  | stay => exact ha
  | step d h hp => exact passable_contains hp

theorem passable (h : Walk g a (n + 1) t) : g.passable t = true := by
  cases h with
  | step d h hp => exact hp

end Walk

end Grid

end TileRoute
