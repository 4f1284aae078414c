import Mathlib.Algebra.Order.Field.Rat
import Mathlib.Tactic.Linarith
import Mathlib.Tactic.Ring
import TileRoute.Proofs.Character.Turn
import TileRoute.Proofs.Grid.Pursuit

/-!
# Gaits

The gait of a body is where it stands and came from, which way it faces and how many frames of its
step are left: all that the place of its picture depends on. A command changes the gait only of a
body at rest, by a turn or a step, and a frame draws a step on. So a body stays on passable tiles,
and its picture goes from tile to tile without a jump.
-/

namespace TileRoute

variable {α : Type}

structure Gait where
  position : Tile
  previous : Tile
  facing : Direction
  framesPerStep : Nat
  moveLeft : Nat

def Body.gait (b : Body α) : Gait :=
  ⟨b.position, b.previous, b.facing, b.framesPerStep, b.moveLeft⟩

namespace Gait

def face (a : Gait) (d : Direction) : Gait := { a with facing := d }

def stride (a : Gait) (d : Direction) : Gait :=
  { a with
    position := a.position.step d
    previous := a.position
    facing := d
    moveLeft := a.framesPerStep }

def creep (a : Gait) : Gait := { a with moveLeft := a.moveLeft - 1 }

theorem creep_of_rest {a : Gait} (h : a.moveLeft = 0) : a.creep = a := by
  unfold creep
  rw [h, Nat.zero_sub, ← h]

/-- What a command makes of a body at rest. -/
inductive Acts (g : Grid) (a : Gait) : Gait → Prop
  | still : Acts g a a
  | face (d : Direction) : Acts g a (a.face d)
  | stride (d : Direction) (hp : g.passable (a.position.step d) = true) : Acts g a (a.stride d)

/-- What a tick makes of a body. -/
inductive Treads (g : Grid) (a : Gait) : Gait → Prop
  | still : Treads g a a
  | creep (hm : 0 < a.moveLeft) : Treads g a a.creep
  | face (d : Direction) (hr : a.moveLeft = 0) : Treads g a (a.face d)
  | stride (d : Direction) (hr : a.moveLeft = 0) (hp : g.passable (a.position.step d) = true) :
      Treads g a (a.stride d)
  | strideOn (d : Direction) (hr : a.moveLeft = 0)
      (hp : g.passable (a.position.step d) = true) : Treads g a (a.stride d).creep

theorem treads_creep {g : Grid} (a : Gait) : Treads g a a.creep := by
  rcases Nat.eq_zero_or_pos a.moveLeft with h | h
  · rw [creep_of_rest h]
    exact .still
  · exact .creep h

theorem Acts.treads {g : Grid} {a b : Gait} (h : Acts g a b) (hr : a.moveLeft = 0) :
    Treads g a b ∧ Treads g a b.creep := by
  cases h with
  | still => exact ⟨.still, treads_creep a⟩
  | face d =>
    have hc : (a.face d).creep = a.face d := creep_of_rest hr
    rw [hc]
    exact ⟨.face d hr, .face d hr⟩
  | stride d hp => exact ⟨.stride d hr hp, .strideOn d hr hp⟩

/-- A body is on its feet: it stands on a passable tile, and the step that it is making leads there
the way it faces. -/
structure Afoot (g : Grid) (a : Gait) : Prop where
  tile : g.passable a.position = true
  frames : a.moveLeft ≤ a.framesPerStep
  way : 0 < a.moveLeft → a.position = a.previous.step a.facing

variable {g : Grid} {a b : Gait} {d : Direction}

theorem Afoot.creep (h : Afoot g a) : Afoot g a.creep where
  tile := h.tile
  frames := Nat.le_trans (Nat.sub_le _ _) h.frames
  way hm := h.way (Nat.lt_of_lt_of_le hm (Nat.sub_le _ _))

theorem afoot_stride (hp : g.passable (a.position.step d) = true) : Afoot g (a.stride d) where
  tile := hp
  frames := Nat.le_refl _
  way _ := rfl

theorem Treads.afoot (h : Treads g a b) (ha : Afoot g a) : Afoot g b := by
  cases h with
  | still => exact ha
  | creep => exact ha.creep
  | face d hr =>
    refine ⟨ha.tile, ha.frames, fun hm => ?_⟩
    have hz : (a.face d).moveLeft = 0 := hr
    omega
  | stride d hr hp => exact afoot_stride hp
  | strideOn d hr hp => exact (afoot_stride hp).creep

theorem Treads.framesPerStep (h : Treads g a b) : b.framesPerStep = a.framesPerStep := by
  cases h <;> rfl

theorem Treads.position (h : Treads g a b) :
    b.position = a.position ∨ b.position = a.position.step b.facing := by
  cases h with
  | still => exact .inl rfl
  | creep => exact .inl rfl
  | face => exact .inl rfl
  | stride => exact .inr rfl
  | strideOn => exact .inr rfl

/-- The share of its step that a body has still to be drawn on. -/
def lag (a : Gait) : Rat := a.moveLeft / a.framesPerStep

def picture (a : Gait) : Rat × Rat :=
  (a.position.x - (a.position.x - a.previous.x : Int) * a.lag,
    a.position.y - (a.position.y - a.previous.y : Int) * a.lag)

theorem lag_of_rest (h : a.moveLeft = 0) : a.lag = 0 := by
  unfold lag
  rw [h, Nat.cast_zero, zero_div]

theorem lag_nonneg (a : Gait) : 0 ≤ a.lag := div_nonneg (Nat.cast_nonneg _) (Nat.cast_nonneg _)

theorem lag_le_one (h : a.moveLeft ≤ a.framesPerStep) : a.lag ≤ 1 :=
  div_le_one_of_le₀ (Nat.cast_le.mpr h) (Nat.cast_nonneg _)

theorem Afoot.picture_eq (h : Afoot g a) :
    a.picture =
      (a.position.x - a.facing.dx * a.lag, a.position.y - a.facing.dy * a.lag) := by
  unfold picture
  rcases Nat.eq_zero_or_pos a.moveLeft with hr | hm
  · simp only [lag_of_rest hr, mul_zero]
  · have hx : a.position.x - a.previous.x = a.facing.dx := by
      rw [h.way hm, Tile.step_x]
      omega
    have hy : a.position.y - a.previous.y = a.facing.dy := by
      rw [h.way hm, Tile.step_y]
      omega
    rw [hx, hy]

theorem lag_creep (h : 0 < a.moveLeft) : a.creep.lag = a.lag - 1 / a.framesPerStep := by
  show ((a.moveLeft - 1 : Nat) : Rat) / a.framesPerStep = a.moveLeft / a.framesPerStep - _
  rw [Nat.cast_pred h, sub_div]

theorem lag_stride (h : 0 < a.framesPerStep) : (a.stride d).lag = 1 :=
  div_self (Nat.cast_ne_zero.mpr (Nat.ne_of_gt h))

/-- The place so far away in a direction. -/
def shift (q : Rat × Rat) (d : Direction) (far : Rat) : Rat × Rat :=
  (q.1 + d.dx * far, q.2 + d.dy * far)

/-- How far a frame of a step draws the picture on. -/
def share (a : Gait) : Rat := 1 / (max 1 a.framesPerStep : Nat)

theorem share_of_pos (h : 0 < a.framesPerStep) : a.share = 1 / a.framesPerStep := by
  unfold share
  rw [Nat.max_eq_right h]

theorem share_of_zero (h : a.framesPerStep = 0) : a.share = 1 := by
  unfold share
  rw [h, Nat.max_eq_left (Nat.zero_le 1), Nat.cast_one, div_one]

theorem Afoot.picture_creep (h : Afoot g a) (hm : 0 < a.moveLeft) :
    a.creep.picture = shift a.picture a.facing a.share := by
  have hf : 0 < a.framesPerStep := Nat.lt_of_lt_of_le hm h.frames
  rw [h.creep.picture_eq, h.picture_eq, lag_creep hm, share_of_pos hf]
  unfold shift Gait.creep
  apply Prod.ext
  · dsimp only
    ring
  · dsimp only
    ring

/-- A step that has frames starts where the picture is; one without frames is over at once. -/
theorem picture_stride (hr : a.moveLeft = 0) (hp : g.passable (a.position.step d) = true) :
    (0 < a.framesPerStep → (a.stride d).picture = a.picture) ∧
      (a.framesPerStep = 0 → (a.stride d).picture = shift a.picture d a.share) := by
  have hx : ((a.stride d).position.x : Rat) = a.position.x + d.dx := by
    show ((a.position.x + d.dx : Int) : Rat) = _
    rw [Int.cast_add]
  have hy : ((a.stride d).position.y : Rat) = a.position.y + d.dy := by
    show ((a.position.y + d.dy : Int) : Rat) = _
    rw [Int.cast_add]
  have hstand : a.picture = (↑a.position.x, ↑a.position.y) := by
    unfold picture
    rw [lag_of_rest hr, mul_zero, mul_zero, sub_zero, sub_zero]
  have hway : (a.stride d).facing = d := rfl
  rw [(afoot_stride hp).picture_eq, hstand, hx, hy, hway]
  refine ⟨fun hf => ?_, fun hf => ?_⟩
  · rw [lag_stride hf, mul_one, mul_one, add_sub_cancel_right, add_sub_cancel_right]
  · have hz : (a.stride d).lag = 0 := lag_of_rest hf
    unfold shift
    rw [hz, share_of_zero hf, mul_zero, mul_zero, sub_zero, sub_zero, mul_one, mul_one]

theorem Treads.picture (h : Treads g a b) (ha : Afoot g a) :
    b.picture = a.picture ∨ b.picture = shift a.picture b.facing a.share := by
  cases h with
  | still => exact .inl rfl
  | creep hm => exact .inr (ha.picture_creep hm)
  | face d hr =>
    have hz : (a.face d).lag = 0 := lag_of_rest hr
    left
    unfold Gait.picture
    rw [hz, lag_of_rest hr, mul_zero, mul_zero, mul_zero, mul_zero]
    rfl
  | stride d hr hp =>
    obtain ⟨hlong, hshort⟩ := picture_stride hr hp
    rcases Nat.eq_zero_or_pos a.framesPerStep with hf | hf
    · exact .inr (hshort hf)
    · exact .inl (hlong hf)
  | strideOn d hr hp =>
    obtain ⟨hlong, hshort⟩ := picture_stride hr hp
    right
    rcases Nat.eq_zero_or_pos a.framesPerStep with hf | hf
    · rw [creep_of_rest (a := a.stride d) hf]
      exact hshort hf
    · rw [(afoot_stride hp).picture_creep hf, hlong hf]
      rfl

/-- The picture lies between the last tile and this one. -/
theorem Afoot.segment (h : Afoot g a) :
    ∃ t : Rat, 0 ≤ t ∧ t ≤ 1 ∧
      a.picture =
        (a.previous.x + (a.position.x - a.previous.x) * t,
          a.previous.y + (a.position.y - a.previous.y) * t) := by
  have hle := lag_le_one h.frames
  have hge := a.lag_nonneg
  refine ⟨1 - a.lag, by linarith, by linarith, ?_⟩
  unfold picture
  rw [Int.cast_sub, Int.cast_sub]
  apply Prod.ext
  · dsimp only
    ring
  · dsimp only
    ring

end Gait

theorem Body.scroll_eq_picture (b : Body α) : (b.scroll : Rat × Rat) = b.gait.picture := by
  unfold Body.scroll
  split
  · rename_i h
    have hz : b.gait.lag = 0 := by
      rcases h with h | h
      · exact Gait.lag_of_rest h
      · show (b.moveLeft : Rat) / (b.framesPerStep : Nat) = 0
        rw [h, Nat.cast_zero, div_zero]
    unfold Gait.picture
    rw [hz, mul_zero, mul_zero, sub_zero, sub_zero]
    rfl
  · rfl

/-- The body stands on the map, and its picture is between the last tile and this one. -/
structure Body.Secure (g : Grid) (b : Body α) : Prop where
  inside : g.contains b.position = true
  tile : g.passable b.position = true
  frames : b.moveLeft ≤ b.framesPerStep
  segment : ∃ t : Rat, 0 ≤ t ∧ t ≤ 1 ∧
    (b.scroll : Rat × Rat) =
      (b.previous.x + (b.position.x - b.previous.x) * t,
        b.previous.y + (b.position.y - b.previous.y) * t)
  settled : b.moving = false → (b.scroll : Rat × Rat) = (↑b.position.x, ↑b.position.y)

/-- From the one body to the other it is a tile at most, the way that the other faces, and its
picture stays or is drawn on by the share of a frame that way. -/
structure Body.Paces (b e : Body α) : Prop where
  framesPerStep : e.framesPerStep = b.framesPerStep
  position : e.position = b.position ∨ e.position = b.position.step e.facing
  picture : (e.scroll : Rat × Rat) = b.scroll ∨
    (e.scroll : Rat × Rat) =
      Gait.shift b.scroll e.facing (1 / (max 1 b.framesPerStep : Nat))

theorem Gait.Afoot.secure {g : Grid} {b : Body α} (h : Afoot g b.gait) : b.Secure g where
  inside := Grid.passable_contains h.tile
  tile := h.tile
  frames := h.frames
  segment := by
    rw [b.scroll_eq_picture]
    exact h.segment
  settled hm := Body.scroll_of_not_moving hm

theorem Gait.Treads.paces {g : Grid} {b e : Body α} (h : Treads g b.gait e.gait)
    (hb : Afoot g b.gait) : b.Paces e where
  framesPerStep := h.framesPerStep
  position := h.position
  picture := by
    rw [b.scroll_eq_picture, e.scroll_eq_picture]
    exact h.picture hb

theorem Body.acts_step (g : Grid) (b : Body α) (d : Direction) :
    Gait.Acts g b.gait (b.step g d).gait := by
  unfold Body.step
  cases hc : b.canStep g d with
  | true => exact .stride d hc
  | false => exact .face d

namespace Character

theorem acts_approach (g : Grid) (c : Character α) (goal : Tile) :
    Gait.Acts g c.body.gait (c.approach g goal).body.gait := by
  rw [body_approach]
  unfold Body.seek
  split
  · exact .still
  · exact c.body.acts_step g _

theorem gait_showPortrait (c : Character α) (portrait? : Option Portrait) (missing : Event α) :
    (c.showPortrait portrait? missing).value.body.gait = c.body.gait := by
  cases portrait? <;> rfl

variable [Scalar α] {w : World α} {c : Character α}

theorem acts_walk (g : Grid) (c : Character α) (d : Direction) (count : α) :
    Gait.Acts g c.body.gait (c.walk g d count).body.gait := by
  unfold walk
  dsimp only
  split
  · split <;> exact c.body.acts_step g d
  · split <;> exact c.body.acts_step g d

theorem Ran.acts {asked : Call α} {done : Logged (Event α) (Character α)}
    (h : Ran w c asked done) : Gait.Acts w.grid c.body.gait done.value.body.gait := by
  cases h with
  | walk d count => exact acts_walk w.grid c d _
  | shake => exact .still
  | fade ramp duration blocks done _ _ _ hf =>
    obtain ⟨-, rfl⟩ := startFade_eq_ok hf
    exact .still
  | actorImage id =>
    show Gait.Acts _ _ (c.showPortrait _ _).value.body.gait
    rw [gait_showPortrait]
    exact .still
  | memberImage slot =>
    show Gait.Acts _ _ (c.showPortrait _ _).value.body.gait
    rw [gait_showPortrait]
    exact .still
  | approach x y => exact acts_approach w.grid c _
  | randomWait least limit d _ _ _ hr =>
    obtain ⟨-, rfl⟩ := randomWait_eq_ok hr
    exact .still

theorem acts_perform (w : World α) (c : Character α) (command : Command α) :
    Gait.Acts w.grid c.body.gait (c.perform w command).value.body.gait := by
  cases command with
  | call asked =>
    simp only [perform]
    cases h : c.invoke w asked with
    | ok done => exact (ran_of_invoke h).acts
    | error e => exact .still
  | step d => exact c.body.acts_step w.grid d
  | turn d => exact .face d
  | finish => exact .still
  | wait frames => exact .still
  | script text => exact .still

omit [Scalar α] in
theorem body_finish (c : Character α) : c.finish.value.body = c.body := by
  unfold finish
  split <;> rfl

omit [Scalar α] in
theorem body_moveCursor (c : Character α) : c.moveCursor.body = c.body := by
  unfold moveCursor
  split
  · rfl
  · split <;> rfl

omit [Scalar α] in
theorem body_advance (c : Character α) : c.advance.value.body = c.body := by
  unfold advance
  dsimp only
  split
  · rfl
  · exact body_finish (c.mapProgress Progress.take)
  · exact body_moveCursor (c.mapProgress Progress.take)

omit [Scalar α] in
theorem body_endRoute (c : Character α) (r : Route α) : (c.endRoute r).value.body = c.body := by
  unfold endRoute
  split
  · rfl
  · exact body_finish c

theorem rest_of_stopping (h : c.stopping = true) : c.body.moveLeft = 0 := by
  unfold stopping Body.moving at h
  simp only [Bool.and_eq_true, Bool.not_eq_true', decide_eq_false_iff_not] at h
  omega

/-- The route part of a tick leaves a body that is not at rest alone. -/
theorem acts_follow (w : World α) (c : Character α) :
    (c.follow w).value.body.gait = c.body.gait ∨
      c.body.moveLeft = 0 ∧ Gait.Acts w.grid c.body.gait (c.follow w).value.body.gait := by
  generalize hd : c.follow w = done
  have ht : Turn w c done := hd ▸ turn_follow w c
  cases ht with
  | busy => exact .inl rfl
  | free => exact .inl rfl
  | waiting => exact .inl rfl
  | ending r => exact .inl (congrArg Body.gait (body_endRoute c.attempt r))
  | running r command hs =>
    refine .inr ⟨rest_of_stopping hs, ?_⟩
    rw [Logged.value_bind, body_advance]
    exact acts_perform w c.attempt command

theorem gait_frame (c : Character α) :
    c.frame.body.gait = c.body.gait ∨ c.frame.body.gait = c.body.gait.creep := by
  have hr : c.frame.body.gait = c.animate.body.gait := by
    unfold frame ramp
    split <;> rfl
  rw [hr]
  unfold animate
  split
  · exact .inl rfl
  · split
    · exact .inl rfl
    · split
      · exact .inr rfl
      · exact .inl rfl

theorem treads_tick (w : World α) (c : Character α) :
    Gait.Treads w.grid c.body.gait (c.tick w).value.body.gait := by
  rw [value_tick]
  rcases acts_follow w c with hf | ⟨hr, ha⟩
  · rcases gait_frame (c.follow w).value with h | h
    · rw [h, hf]
      exact .still
    · rw [h, hf]
      exact Gait.treads_creep c.body.gait
  · obtain ⟨hstill, hcreep⟩ := ha.treads hr
    rcases gait_frame (c.follow w).value with h | h
    · rw [h]
      exact hstill
    · rw [h]
      exact hcreep

end Character

end TileRoute
