import Mathlib.Tactic.Common
import TileRoute.Proofs.Character.Operation

/-!
# What a command does not see

Of the playback a command reads only whether a blocked step has to be tried again, and it sets only
the wait and the flag of a blocked step. A change that leaves these alone can be made before the
command or after it. The frames of a tick look at no part of the playback, nor at the progress of a
command.
-/

namespace TileRoute

variable {α : Type}

/-- The change leaves alone what a command reads, and what it sets. -/
structure Playback.Unseen (f : Playback α → Playback α) : Prop where
  insists : ∀ q, (f q).insists = q.insists
  stepped : ∀ q b, f { q with stepped := b } = { f q with stepped := b }
  wait : ∀ q n, f { q with wait := n } = { f q with wait := n }

namespace Character

variable {f : Playback α → Playback α}

@[simp] theorem body_mapPlayback (c : Character α) : (c.mapPlayback f).body = c.body := rfl

@[simp] theorem motion_mapPlayback (c : Character α) : (c.mapPlayback f).motion = c.motion := rfl

@[simp] theorem body_mapProgress (c : Character α) (f : Progress → Progress) :
    (c.mapProgress f).body = c.body := rfl

@[simp] theorem shake_mapProgress (c : Character α) (f : Progress → Progress) :
    (c.mapProgress f).motion.shake = c.motion.shake := rfl

@[simp] theorem fade_mapProgress (c : Character α) (f : Progress → Progress) :
    (c.mapProgress f).motion.fade = c.motion.fade := rfl

theorem stepIn_mapPlayback (hf : Playback.Unseen f) (g : Grid) (c : Character α)
    (d : Direction) : (c.mapPlayback f).stepIn g d = (c.stepIn g d).mapPlayback f := by
  have hs := hf.stepped c.playback (c.body.canStep g d)
  exact congrArg (fun q => { c with body := c.body.step g d, playback := q }) hs.symm

theorem approach_mapPlayback (hf : Playback.Unseen f) (g : Grid) (c : Character α)
    (goal : Tile) : (c.mapPlayback f).approach g goal = (c.approach g goal).mapPlayback f := by
  unfold approach
  rw [body_mapPlayback]
  cases c.body.heading? g goal with
  | none => rfl
  | some d =>
    dsimp only
    rw [stepIn_mapPlayback hf, body_mapPlayback]
    split <;> rfl

theorem showPortrait_mapPlayback (c : Character α) (portrait? : Option Portrait)
    (missing : Event α) :
    (c.mapPlayback f).showPortrait portrait? missing =
      (mapPlayback · f) <$> c.showPortrait portrait? missing := by
  cases portrait? <;> rfl

theorem randomWait_mapPlayback (hf : Playback.Unseen f) (c : Character α) (least limit : Int) :
    (c.mapPlayback f).randomWait least limit =
      (mapPlayback · f) <$> c.randomWait least limit := by
  have hd : (c.mapPlayback f).dice = c.dice := rfl
  unfold randomWait
  rw [hd]
  split
  · rfl
  · generalize drawWait c.dice least limit = drawn
    have hw := hf.wait c.playback drawn.1
    exact congrArg (fun q => Except.ok { c with playback := q, dice := drawn.2 }) hw.symm

variable [Scalar α]

theorem walk_mapPlayback (hf : Playback.Unseen f) (g : Grid) (c : Character α) (d : Direction)
    (count : α) : (c.mapPlayback f).walk g d count = (c.walk g d count).mapPlayback f := by
  have hi : (c.mapPlayback f).playback.insists = c.playback.insists := hf.insists c.playback
  unfold walk
  rw [stepIn_mapPlayback hf, hi, body_mapPlayback]
  dsimp only
  split
  · show ite (Scalar.Lt (Scalar.ofInt ((c.stepIn g d).mapProgress
      Progress.countMove).motion.progress.moves) count) _ _ = _
    split <;> rfl
  · split <;> rfl

theorem startFade_mapPlayback (c : Character α) (span : α) (ramp : Ramp) (duration : α)
    (blocks : Bool) :
    (c.mapPlayback f).startFade span ramp duration blocks =
      ((mapPlayback · f) <$> ·) <$> c.startFade span ramp duration blocks := by
  unfold startFade
  split <;> rfl

/-- A call runs to the same end, or fails in the same way. -/
theorem invoke_mapPlayback (hf : Playback.Unseen f) (w : World α) (c : Character α)
    (asked : Call α) :
    (c.mapPlayback f).invoke w asked = ((mapPlayback · f) <$> ·) <$> c.invoke w asked := by
  cases ha : asked.action with
  | walk d =>
    simp only [invoke, ha, map_bind, map_pure, walk_mapPlayback hf]
    rfl
  | shake axis =>
    simp only [invoke, ha, map_bind, map_pure]
    rfl
  | fade ramp =>
    simp only [invoke, ha, map_bind, startFade_mapPlayback]
  | actorImage =>
    simp only [invoke, ha, map_bind, map_pure, showActor, showPortrait_mapPlayback]
    rfl
  | memberImage =>
    simp only [invoke, ha, map_bind, map_pure, showMember, showPortrait_mapPlayback]
    rfl
  | approach =>
    simp only [invoke, ha, map_bind, map_pure, approach_mapPlayback hf]
    rfl
  | randomWait =>
    simp only [invoke, ha, map_bind, randomWait_mapPlayback hf, Functor.map_map]
    rfl

theorem request_mapPlayback (hf : Playback.Unseen f) (w : World α) (c : Character α)
    (asked : Request α) :
    (c.mapPlayback f).request w asked = (mapPlayback · f) <$> c.request w asked := by
  cases asked with
  | call asked =>
    simp only [request, invoke_mapPlayback hf]
    cases c.invoke w asked <;> rfl
  | walk d count => exact congrArg pure (walk_mapPlayback hf w.grid c d count)
  | shake axis power speed duration => rfl
  | fade ramp duration blocks =>
    simp only [request, startFade_mapPlayback]
    cases c.startFade w.settings.opacitySpan ramp duration blocks <;> rfl
  | actorImage id => exact showPortrait_mapPlayback c _ _
  | memberImage slot => exact showPortrait_mapPlayback c _ _
  | approach goal => exact congrArg pure (approach_mapPlayback hf w.grid c goal)
  | randomWait least limit =>
    simp only [request, randomWait_mapPlayback hf]
    cases c.randomWait least limit <;> rfl
  | body change => rfl

/-- A command does the same to the character. What it reports may differ, since a call that cannot
run is reported with the cursor. -/
theorem perform_mapPlayback (hf : Playback.Unseen f) (w : World α) (c : Character α)
    (command : Command α) :
    ((c.mapPlayback f).perform w command).value =
      (c.perform w command).value.mapPlayback f := by
  cases command with
  | step d => exact stepIn_mapPlayback hf w.grid c d
  | wait frames =>
    have hw := hf.wait c.playback (frames - 1)
    exact congrArg (fun q => { c with playback := q }) hw.symm
  | call asked =>
    simp only [perform, invoke_mapPlayback hf]
    cases c.invoke w asked <;> rfl
  | finish => rfl
  | turn d => rfl
  | script text => rfl

theorem animate_mapPlayback (f : Playback α → Playback α) (c : Character α) :
    (c.mapPlayback f).animate = c.animate.mapPlayback f := by
  unfold animate
  rw [body_mapPlayback, motion_mapPlayback]
  split
  · rfl
  · split
    · rfl
    · split <;> rfl

theorem ramp_mapPlayback (f : Playback α → Playback α) (c : Character α) :
    (c.mapPlayback f).ramp = c.ramp.mapPlayback f := by
  unfold ramp
  rw [motion_mapPlayback]
  split <;> rfl

theorem frame_mapPlayback (f : Playback α → Playback α) (c : Character α) :
    (c.mapPlayback f).frame = c.frame.mapPlayback f := by
  unfold frame
  rw [animate_mapPlayback]
  exact ramp_mapPlayback f (c.animate.mapBody Body.updateAnimation)

theorem animate_mapProgress (f : Progress → Progress) (c : Character α) :
    (c.mapProgress f).animate = c.animate.mapProgress f := by
  unfold animate
  rw [shake_mapProgress, body_mapProgress]
  split
  · rfl
  · split
    · rfl
    · split <;> rfl

theorem ramp_mapProgress (f : Progress → Progress) (c : Character α) :
    (c.mapProgress f).ramp = c.ramp.mapProgress f := by
  unfold ramp
  rw [fade_mapProgress]
  split <;> rfl

theorem frame_mapProgress (f : Progress → Progress) (c : Character α) :
    (c.mapProgress f).frame = c.frame.mapProgress f := by
  unfold frame
  rw [animate_mapProgress]
  exact ramp_mapProgress f (c.animate.mapBody Body.updateAnimation)

end Character

end TileRoute
