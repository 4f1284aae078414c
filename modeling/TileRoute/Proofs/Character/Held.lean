import TileRoute.Proofs.Character.Count

/-!
# A hold that was asked for outside the route

A walk or an approach holds the cursor on itself, in the tick in which the route runs it. Asked for
from outside it asks for the same, but then there is no command to hold, and the next command to run
takes the hold for its own. A command that neither is blocked nor asks for another run lets go of the
cursor exactly if nothing of that kind is left over when it runs, in any state that a character can
get into.
-/

namespace TileRoute

variable {α : Type} [Scalar α]

/-- In this tick the command is not blocked, and does not ask for another run. -/
def Command.Passes (w : World α) (c : Character α) : Command α → Prop
  | .turn _ | .wait _ | .script _ => True
  | .step d => c.body.canStep w.grid d = true
  | .call asked => ∃ error, c.attempt.invoke w asked = .error error
  | .finish => False

theorem Command.Passes.ne_finish {w : World α} {c : Character α} {command : Command α}
    (h : command.Passes w c) : command ≠ .finish := by
  rintro rfl
  exact h

namespace Character

variable {w : World α} {c : Character α} {r : Route α} {command : Command α}

theorem perform_passes (h : command.Passes w c) :
    (c.attempt.perform w command).value.motion.progress = c.motion.progress ∧
      (c.attempt.perform w command).value.playback.stepped = true := by
  cases command with
  | finish => exact h.elim
  | step d => exact ⟨rfl, h⟩
  | turn d => exact ⟨rfl, rfl⟩
  | wait frames => exact ⟨rfl, rfl⟩
  | script text => exact ⟨rfl, rfl⟩
  | call asked =>
    obtain ⟨error, he⟩ := h
    simp only [perform, he]
    exact ⟨rfl, rfl⟩

theorem letsGo_iff_of_passes (h : command.Passes w c) :
    (c.attempt.perform w command).value.LetsGo r ↔ c.motion.progress.signal = .advance := by
  obtain ⟨hm, hstep⟩ := perform_passes h
  have hs : (c.attempt.perform w command).value.motion.progress.signal =
      c.motion.progress.signal := congrArg Progress.signal hm
  refine ⟨fun hl => hs.symm.trans hl.signal, fun ha => ⟨hs.trans ha, ?_⟩⟩
  rw [hstep, Bool.true_or]

theorem ne_abort_of_stronger {s t : Signal} (hs : s ≠ .abort) (ht : t = s ∨ t = s.stronger .hold) :
    t ≠ .abort := by
  rcases ht with rfl | rfl
  · exact hs
  · cases s with
    | advance => decide
    | hold => decide
    | abort => exact absurd rfl hs

omit [Scalar α] in
theorem signal_hold {p : Progress} (h : p.signal ≠ .abort) : p.hold.signal = .hold := by
  change p.signal.stronger .hold = .hold
  cases hs : p.signal with
  | advance => rfl
  | hold => rfl
  | abort => exact absurd hs h

theorem signal_request (w : World α) (c : Character α) (asked : Request α) :
    (c.request w asked).value.motion.progress.signal = c.motion.progress.signal ∨
      (c.request w asked).value.motion.progress.signal =
        c.motion.progress.signal.stronger .hold := by
  cases asked with
  | call asked =>
    simp only [request]
    cases h : c.invoke w asked with
    | ok done => exact (ran_of_invoke h).signal
    | error e => exact .inl rfl
  | walk d count => exact signal_walk w.grid c d count
  | shake axis power speed duration => exact .inl rfl
  | fade ramp duration blocks =>
    simp only [request]
    cases h : c.startFade w.settings.opacitySpan ramp duration blocks with
    | ok done =>
      obtain ⟨-, rfl⟩ := startFade_eq_ok h
      exact .inl rfl
    | error e => exact .inl rfl
  | actorImage id => exact .inl (congrArg Progress.signal (progress_showPortrait c _ _))
  | memberImage slot => exact .inl (congrArg Progress.signal (progress_showPortrait c _ _))
  | approach goal => exact signal_approach w.grid c goal
  | randomWait least limit =>
    simp only [request]
    cases h : c.randomWait least limit with
    | ok done =>
      obtain ⟨-, rfl⟩ := randomWait_eq_ok h
      exact .inl rfl
    | error e => exact .inl rfl
  | body change => exact .inl rfl

theorem signal_tick_ne_abort (w : World α) (h : c.motion.progress.signal ≠ .abort) :
    (c.tick w).value.motion.progress.signal ≠ .abort := by
  have hadvance : Signal.advance ≠ .abort := by decide
  cases hr : c.playback.route? with
  | none =>
    rw [(tick_free hr).2.1]
    exact h
  | some r =>
    cases course_tick w hr h with
    | resting _ _ hm =>
      rw [hm]
      exact h
    | again _ _ _ _ hs =>
      rw [hs]
      exact hadvance
    | onward _ _ _ _ _ _ hm =>
      rw [hm]
      exact hadvance
    | around _ _ _ _ hm =>
      rw [hm]
      exact h
    | ended _ _ _ hm =>
      rw [hm]
      exact hadvance

theorem signal_operate_ne_abort (w : World α) (op : Operation α)
    (h : c.motion.progress.signal ≠ .abort) :
    (c.operate w op).value.motion.progress.signal ≠ .abort := by
  have hstart : Progress.start.signal ≠ .abort := by decide
  cases op with
  | install route? =>
    show (c.install w.lexicon route?).value.motion.progress.signal ≠ .abort
    rw [value_install]
    exact hstart
  | force route? =>
    cases route? with
    | none => exact h
    | some r => exact hstart
  | tick => exact signal_tick_ne_abort w h
  | request asked => exact ne_abort_of_stronger h (signal_request w c asked)

theorem Reachable.signal_ne_abort (h : Reachable c) : c.motion.progress.signal ≠ .abort := by
  induction h with
  | placed label body settings =>
    show Progress.start.signal ≠ .abort
    decide
  | operate h w op ih => exact signal_operate_ne_abort w op ih

theorem signal_tick_of_ready (hab : c.motion.progress.signal ≠ .abort) (hready : c.ready = true)
    (hr : c.playback.route? = some r) (hc : r.command? c.playback.cursor = some command)
    (hf : command ≠ .finish) : (c.tick w).value.motion.progress.signal = .advance := by
  by_cases hl : (c.attempt.perform w command).value.LetsGo r
  · obtain ⟨-, -, hm⟩ := tick_of_letsGo hready hr hc hf hl
    rw [hm]
    rfl
  · obtain ⟨-, hm⟩ := tick_of_holdsOn hab hready hr hc hf hl
    rw [hm]
    rfl

/-- A command that is not blocked and asks for no other run is left behind in its tick, exactly if
nothing was asked for before it, or else going on from it is to come back to it. After the tick
nothing is asked for any more. -/
theorem left_iff_unheld (h : Reachable c) (hready : c.ready = true)
    (hr : c.playback.route? = some r) (hc : r.command? c.playback.cursor = some command)
    (hp : command.Passes w c) :
    (SameRoute c (c.tick w).value ∧
        (c.tick w).value.playback.cursor = nextCursor r c.playback.cursor ↔
      c.motion.progress.signal = .advance ∨
        nextCursor r c.playback.cursor = c.playback.cursor) ∧
      (c.tick w).value.motion.progress.signal = .advance := by
  have hab := h.signal_ne_abort
  have hl : (c.attempt.perform w command).value.LetsGo r ↔ c.motion.progress.signal = .advance :=
    letsGo_iff_of_passes hp
  have hheld : c.motion.progress.signal ≠ .advance → SamePlace c (c.tick w).value := fun hs =>
    (tick_of_holdsOn hab hready hr hc hp.ne_finish fun hgo => hs (hl.mp hgo)).1
  refine ⟨⟨?_, ?_⟩, signal_tick_of_ready hab hready hr hc hp.ne_finish⟩
  · rintro ⟨-, hnext⟩
    by_cases hs : c.motion.progress.signal = .advance
    · exact .inl hs
    · exact .inr (hnext.symm.trans (hheld hs).cursor)
  · intro hor
    by_cases hs : c.motion.progress.signal = .advance
    · obtain ⟨hsame, hnext, -⟩ := tick_of_letsGo hready hr hc hp.ne_finish (hl.mpr hs)
      exact ⟨hsame, hnext⟩
    · have hback := (hor.resolve_left hs).symm
      exact ⟨(hheld hs).sameRoute, (hheld hs).cursor.trans hback⟩

def lookout : Route Float := { commands := [.turn .left, .turn .up] }

/-- Before a sentry gets to look around it is asked for the first of three steps. -/
def nudged : Character Float :=
  ((placed "sentry" (Body.standing ⟨0, 0⟩ 0 0) passage.settings).run passage
    [.install (some lookout), .request (.walk .right 3)]).value

theorem left_iff_unheld_nudged :
    Reachable nudged ∧ nudged.ready = true ∧
      nudged.playback.route? = some (lookout.compile passage.lexicon) ∧
        (lookout.compile passage.lexicon).command? nudged.playback.cursor = some (.turn .left) ∧
          (Command.turn .left).Passes passage nudged ∧
            (nudged.tick passage).value.playback.cursor ≠
                nextCursor (lookout.compile passage.lexicon) nudged.playback.cursor ∧
              (nudged.tick passage).value.motion.progress.signal = .advance := by
  have h : Reachable nudged := (Reachable.placed _ _ _).run passage _
  have hready : nudged.ready = true := by decide +kernel
  have hr : nudged.playback.route? = some (lookout.compile passage.lexicon) := by decide +kernel
  have hc : (lookout.compile passage.lexicon).command? nudged.playback.cursor =
      some (.turn .left) := by decide +kernel
  have hs : nudged.motion.progress.signal ≠ .advance := by decide +kernel
  have hnext : nextCursor (lookout.compile passage.lexicon) nudged.playback.cursor ≠
      nudged.playback.cursor := by decide +kernel
  have hp : (Command.turn .left).Passes passage nudged := trivial
  obtain ⟨hiff, htaken⟩ := left_iff_unheld h hready hr hc hp
  refine ⟨h, hready, hr, hc, hp, fun hleft => ?_, htaken⟩
  have hsame : SameRoute nudged (nudged.tick passage).value := by
    refine ⟨by decide +kernel, by decide +kernel, ?_⟩
    have hbefore : nudged.playback.saved?.isNone = true := by decide +kernel
    have hafter : (nudged.tick passage).value.playback.saved?.isNone = true := by decide +kernel
    rw [Option.isNone_iff_eq_none.mp hbefore, Option.isNone_iff_eq_none.mp hafter]
  rcases hiff.mp ⟨hsame, hleft⟩ with hadvance | hback
  · exact hs hadvance
  · exact hnext hback

/-- The sentry turns to the left twice: the first time it takes the hold of a step that was none of
its route. -/
theorem turn_runs_twice :
    Reachable nudged ∧ nudged.ready = true ∧ nudged.playback.command? = some (.turn .left) ∧
      (nudged.tick passage).value.ready = true ∧
        (nudged.tick passage).value.playback.command? = some (.turn .left) ∧
          (nudged.ticks passage 2).value.playback.command? = some (.turn .up) :=
  ⟨(Reachable.placed _ _ _).run passage _, by decide +kernel⟩

end Character

end TileRoute
