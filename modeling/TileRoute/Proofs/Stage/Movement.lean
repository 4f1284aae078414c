import TileRoute.Proofs.Character.Gait
import TileRoute.Proofs.Stage.Cast

/-!
# Safe movement

On the stage of an accepted scenario everyone starts at rest on a passable tile. From there on, with
whatever routes, nobody leaves the passable tiles of the map, and nobody's picture jumps.
-/

namespace TileRoute.Stage

variable {α : Type} [Scalar α]

theorem gait_enter (w : World α) (p : Part α) :
    (enter w p).value.body.gait = ⟨p.start, p.start, .down, p.framesPerStep, 0⟩ := by
  unfold enter
  dsimp only
  split
  · cases p.route? with
    | none =>
      rw [Character.value_force_none]
      cases p.opacity? <;> rfl
    | some r =>
      rw [Character.value_force_some]
      cases p.opacity? <;> rfl
  · rw [Character.value_install]
    cases p.opacity? <;> rfl

theorem afoot_enter {w : World α} {p : Part α} (h : Scenario.Sound w.grid p) :
    Gait.Afoot w.grid (enter w p).value.body.gait := by
  rw [gait_enter]
  refine ⟨h.2, Nat.zero_le _, fun hm => ?_⟩
  exact absurd hm (Nat.lt_irrefl 0)

/-- Every body on the stage is on its feet. -/
def Afoot (s : Stage α) : Prop := ∀ c ∈ s.characters, Gait.Afoot s.world.grid c.body.gait

theorem Afoot.tick {s : Stage α} (h : s.Afoot) : s.tick.value.Afoot := by
  intro d hd
  rw [characters_tick] at hd
  obtain ⟨c, hc, rfl⟩ := List.mem_map.mp hd
  exact (Character.treads_tick s.world c).afoot (h c hc)

theorem Afoot.ticks {s : Stage α} (h : s.Afoot) (n : Nat) : (ticks n s).Afoot := by
  induction n with
  | zero => exact h
  | succ n ih =>
    rw [ticks_succ]
    exact ih.tick

theorem length_ticks (n : Nat) (s : Stage α) :
    (ticks n s).characters.length = s.characters.length := by
  rw [characters_ticks, List.length_map]

/-- The cast of a scenario moves over the map without leaving it and without a jump. -/
structure MovesSafely (s : Scenario α) (g : Grid) : Prop where
  map : s.map.draw = .ok g
  stage : ofScenario s = .ok (onGrid s g)
  cast : ∀ n, (ticks n (onGrid s g).value).characters.length = s.parts.length
  secure : ∀ n, ∀ c ∈ (ticks n (onGrid s g).value).characters, c.body.Secure g
  paces : ∀ (n i : Nat) (c : Character α), (ticks n (onGrid s g).value).characters[i]? = some c →
    ∃ d, (ticks (n + 1) (onGrid s g).value).characters[i]? = some d ∧ c.body.Paces d.body

theorem cast_moves_safely {s : Scenario α} (h : s.check = .ok ()) : ∃ g, MovesSafely s g := by
  obtain ⟨g, hd, hf⟩ := Scenario.check_eq_ok_iff.mp h
  obtain ⟨-, hsound, -⟩ := Scenario.flaw?_eq_none_iff.mp hf
  have hstart : (onGrid s g).value.Afoot := by
    intro c hc
    rw [characters_onGrid] at hc
    obtain ⟨p, hp, rfl⟩ := List.mem_map.mp hc
    exact afoot_enter (hsound p hp)
  refine ⟨g, hd, ofScenario_of_draw hd, ?_, ?_, ?_⟩
  · intro n
    rw [length_ticks, characters_onGrid, List.length_map]
  · intro n c hc
    have hafoot := hstart.ticks n c hc
    rw [world_ticks] at hafoot
    exact hafoot.secure
  · intro n i c hc
    have hafoot := hstart.ticks n c (List.mem_of_getElem? hc)
    refine ⟨(c.tick (ticks n (onGrid s g).value).world).value, ?_, ?_⟩
    · rw [ticks_succ, characters_tick, List.getElem?_map, hc]
      rfl
    · exact (Character.treads_tick _ c).paces hafoot

/-- A hunter that has to go around a block, and a drifter that runs against the edge of the map. -/
def chase : Scenario Float where
  map := { width := 3, height := 2, blocked := [⟨1, 0⟩] }
  settings := { Settings.standard with seed? := some 5 }
  parts :=
    [ { label := "hunter", start := ⟨0, 0⟩, framesPerStep := 4
        route? := some { commands := [.script "TOWARD_TARGET 2 0"] } },
      { label := "drifter", start := ⟨2, 1⟩
        route? := some { commands := [.step .left, .step .down], repeats := true } } ]

theorem cast_moves_safely_chase : chase.check = .ok () ∧ ∃ g, MovesSafely chase g := by
  have h : chase.check = .ok () := by
    refine Scenario.check_eq_ok_iff.mpr ⟨_, rfl, ?_⟩
    decide +kernel
  exact ⟨h, cast_moves_safely h⟩

end TileRoute.Stage
