import TileRoute.Proofs.Character.Gait
import TileRoute.Proofs.Character.Held
import TileRoute.Proofs.Character.Interlude
import TileRoute.Proofs.Character.Until
import TileRoute.Proofs.Route.Follow

/-!
# Detours

A forced route that only turns, waits and hands on lines comes to its end, if the swing that is going
on comes to rest and the route does not start over. It leaves the body on the tile on which it was
when the route was forced.
-/

namespace TileRoute

variable {α : Type}

/-- The command neither steps nor calls. -/
def Command.Stationary : Command α → Prop
  | .turn _ | .wait _ | .script _ | .finish => True
  | .step _ | .call _ => False

variable [Scalar α]

theorem Command.Stationary.passes {command : Command α} (h : command.Stationary)
    (hf : command ≠ .finish) (w : World α) (c : Character α) : command.Passes w c := by
  cases command with
  | finish => exact hf rfl
  | turn d => trivial
  | wait frames => trivial
  | script text => trivial
  | step d => exact h.elim
  | call asked => exact h.elim

namespace Character

variable {w : World α} {c : Character α} {r g : Route α} {command : Command α} {l : Lexicon}
  {kept : Saved α} {t : Tile}

omit [Scalar α] in
theorem shake_finish (c : Character α) : c.finish.value.motion.shake = c.motion.shake := by
  unfold finish
  split <;> rfl

omit [Scalar α] in
theorem shake_advance (c : Character α) : c.advance.value.motion.shake = c.motion.shake := by
  have hmove : ∀ d : Character α, d.moveCursor.motion.shake = d.motion.shake := by
    intro d
    unfold moveCursor
    split
    · rfl
    · split <;> rfl
  unfold advance
  dsimp only
  split
  · rfl
  · exact shake_finish (c.mapProgress Progress.take)
  · exact hmove (c.mapProgress Progress.take)

omit [Scalar α] in
theorem shake_endRoute (c : Character α) (r : Route α) :
    (c.endRoute r).value.motion.shake = c.motion.shake := by
  unfold endRoute
  split
  · rfl
  · exact shake_finish c

theorem position_frame (c : Character α) : c.frame.body.position = c.body.position :=
  congrArg Pose.position (pose_frame c).1

theorem pose_tick_of_ready (hready : c.ready = true) (hr : c.playback.route? = some r)
    (hc : r.command? c.playback.cursor = some command) (hf : command ≠ .finish) :
    (c.tick w).value.body.pose = (c.attempt.perform w command).value.body.pose := by
  rw [value_tick, (pose_frame _).1, follow_of_ready hready hr hc hf, Logged.value_bind,
    body_advance]

theorem body_tick_of_ready (hready : c.ready = true) (hr : c.playback.route? = some r)
    (hc : r.command? c.playback.cursor = some command) (hf : command ≠ .finish) :
    (c.tick w).value.body.position = (c.attempt.perform w command).value.body.position ∧
      (c.tick w).value.motion.shake =
        (c.attempt.perform w command).value.motion.shake.update := by
  refine ⟨congrArg Pose.position (pose_tick_of_ready hready hr hc hf), ?_⟩
  rw [value_tick, shake_frame, follow_of_ready hready hr hc hf, Logged.value_bind, shake_advance]

theorem body_tick_of_ending (hready : c.ready = true) (hr : c.playback.route? = some r)
    (he : r.EndsAt c.playback.cursor) :
    (c.tick w).value.body.position = c.body.position ∧
      (c.tick w).value.motion.shake = c.motion.shake.update := by
  rw [value_tick, position_frame, shake_frame, follow_of_ending hready hr he, body_endRoute,
    shake_endRoute]
  exact ⟨rfl, rfl⟩

theorem body_tick_of_unready (h : c.ready = false) (hr : c.playback.route?.isSome = true) :
    (c.tick w).value.body.position = c.body.position ∧
      (c.tick w).value.motion.shake = c.motion.shake.update := by
  have hp := (tick_unready w h).1.position
  exact ⟨hp, shake_tick_of_unready h hr⟩

theorem body_perform_stationary (h : command.Stationary) :
    (c.attempt.perform w command).value.body.position = c.body.position ∧
      (c.attempt.perform w command).value.motion.shake = c.motion.shake := by
  cases command with
  | finish => exact ⟨rfl, rfl⟩
  | turn d => exact ⟨rfl, rfl⟩
  | wait frames => exact ⟨rfl, rfl⟩
  | script text => exact ⟨rfl, rfl⟩
  | step d => exact h.elim
  | call asked => exact h.elim

/-- A forced route plays while the body stands on this tile. -/
structure Detour (l : Lexicon) (kept : Saved α) (g : Route α) (t : Tile) (c : Character α) :
    Prop where
  standsIn : StandsIn l kept g c
  position : c.body.position = t
  rests : c.motion.shake.Rests

/-- The forced route has given way, and the body still stands on this tile. -/
structure BackOn (kept : Saved α) (t : Tile) (c : Character α) : Prop where
  givenBack : GivenBack kept c
  position : c.body.position = t
  rests : c.motion.shake.Rests

theorem Detour.tick_unready (h : Detour w.lexicon kept g t c) (hready : c.ready = false) :
    Detour w.lexicon kept g t (c.tick w).value := by
  have hsame := samePlace_tick_of_unready w hready
  have hm : (c.tick w).value.motion.progress = c.motion.progress :=
    (Character.tick_unready w hready).1.progress
  obtain ⟨hp, hs⟩ := body_tick_of_unready (w := w) hready
    (Option.isSome_of_eq_some h.standsIn.route?)
  refine ⟨h.standsIn.of_sameRoute hsame.sameRoute ?_, hp.trans h.position, hs ▸ h.rests.update⟩
  rw [hm]
  exact h.standsIn.signal

theorem Detour.tick_ending (h : Detour w.lexicon kept g t c) (hn : g.repeats = false)
    (hready : c.ready = true) (he : (g.compile w.lexicon).EndsAt c.playback.cursor) :
    BackOn kept t (c.tick w).value := by
  have hr := h.standsIn.route?
  have hrep : (g.compile w.lexicon).repeats = false := (flags_compile w.lexicon g).1.trans hn
  have hend : c.attempt.endRoute (g.compile w.lexicon) = c.attempt.finish := by
    simp only [endRoute, hrep, Bool.false_eq_true, if_false]
  have hforced : c.attempt.playback.forcing = true := h.standsIn.forcing
  have hfree : (c.tick w).value.playback.forcing = false := by
    rw [value_tick, playback_frame, follow_of_ending hready hr he, hend, finish_forced hforced]
    rfl
  obtain ⟨hp, hs⟩ := body_tick_of_ending (w := w) hready hr he
  rcases h.standsIn.tick with hstill | hback
  · cases hfree.symm.trans hstill.forcing
  · exact ⟨hback, hp.trans h.position, hs ▸ h.rests.update⟩

theorem Detour.tick_running (h : Detour w.lexicon kept g t c) (hn : g.repeats = false)
    (hready : c.ready = true)
    (hc : (g.compile w.lexicon).command? c.playback.cursor = some command)
    (hs : command.Stationary) (hf : command ≠ .finish) :
    Detour w.lexicon kept g t (c.tick w).value ∧
      (c.tick w).value.playback.cursor = c.playback.cursor + 1 := by
  have hr := h.standsIn.route?
  have hrep : (g.compile w.lexicon).repeats = false := (flags_compile w.lexicon g).1.trans hn
  have hl := (letsGo_iff_of_passes (r := g.compile w.lexicon) (hs.passes hf w c)).mpr
    h.standsIn.signal
  obtain ⟨hsame, hcursor, hm⟩ := tick_of_letsGo hready hr hc hf hl
  obtain ⟨hp, hshake⟩ := body_tick_of_ready (w := w) hready hr hc hf
  obtain ⟨hstill, hcalm⟩ := body_perform_stationary (w := w) (c := c) hs
  refine ⟨⟨h.standsIn.of_sameRoute hsame (congrArg Progress.signal hm), ?_, ?_⟩, ?_⟩
  · exact (hp.trans hstill).trans h.position
  · rw [hshake, hcalm]
    exact h.rests.update
  · rcases nextCursor_cases (g.compile w.lexicon) c.playback.cursor with ⟨-, hloop, -⟩ | ⟨hnext, -⟩
    · cases hrep.symm.trans hloop
    · exact hcursor.trans hnext

theorem Detour.over (h : Detour w.lexicon kept g t c) (hn : g.repeats = false)
    (hg : ∀ command ∈ (g.compile w.lexicon).commands, command.Stationary) :
    Until w (Detour w.lexicon kept g t) (BackOn kept t) c := by
  -- The cursor goes on with every command, so there are fewer and fewer commands left.
  refine until_of_commands
    (fun d => (g.compile w.lexicon).length - d.playback.cursor) ?wait ?route ?rests ?run h
  case wait =>
    intro d hd hready
    refine ⟨hd.tick_unready hready, ?_⟩
    rw [(samePlace_tick_of_unready w hready).cursor]
  case route => exact fun d hd => Option.isSome_of_eq_some hd.standsIn.route?
  case rests => exact fun d hd => hd.rests
  case run =>
    intro d hd hready
    by_cases he : (g.compile w.lexicon).EndsAt d.playback.cursor
    · exact .inl (hd.tick_ending hn hready he)
    · obtain ⟨command, hc⟩ := Option.ne_none_iff_exists'.mp fun hnone => he (.inl hnone)
      have hf : command ≠ .finish := fun hfin => he (.inr (hfin ▸ hc))
      have hs := hg command (List.mem_of_getElem? hc)
      obtain ⟨hstill, hnext⟩ := hd.tick_running hn hready hc hs hf
      have hlt := Route.lt_of_command? hc
      exact .inr ⟨hstill, by omega⟩

end Character

end TileRoute
