import TileRoute.Proofs.Character.Turn

/-!
# The course of a route

What a tick does to a route that is installed, as far as the route goes: nothing, or the command
under the cursor runs and will run again, or it runs and the cursor goes on, or the route starts
over, or it is over. `Course` is that list, with the script lines that the tick hands on. No command
breaks a route off, so that a route is over only at its end.
-/

namespace TileRoute

variable {α : Type}

/-- A finish command stands under the cursor, or nothing does. -/
def Route.EndsAt (r : Route α) (cursor : Nat) : Prop :=
  r.command? cursor = none ∨ r.command? cursor = some .finish

namespace Character

variable [Scalar α]

theorem signal_walk (g : Grid) (c : Character α) (d : Direction) (count : α) :
    (c.walk g d count).motion.progress.signal = c.motion.progress.signal ∨
      (c.walk g d count).motion.progress.signal = c.motion.progress.signal.stronger .hold := by
  simp only [walk]
  split
  · split
    · exact .inr rfl
    · exact .inl rfl
  · split
    · exact .inr rfl
    · exact .inl rfl

omit [Scalar α] in
theorem signal_approach (g : Grid) (c : Character α) (goal : Tile) :
    (c.approach g goal).motion.progress.signal = c.motion.progress.signal ∨
      (c.approach g goal).motion.progress.signal = c.motion.progress.signal.stronger .hold := by
  simp only [approach]
  split
  · exact .inl rfl
  · split
    · exact .inl rfl
    · exact .inr rfl

omit [Scalar α] in
theorem progress_showPortrait (c : Character α) (portrait? : Option Portrait)
    (missing : Event α) :
    (c.showPortrait portrait? missing).value.motion.progress = c.motion.progress := by
  cases portrait? <;> rfl

theorem Ran.signal {w : World α} {c : Character α} {call : Call α}
    {done : Logged (Event α) (Character α)} (h : Ran w c call done) :
    done.value.motion.progress.signal = c.motion.progress.signal ∨
      done.value.motion.progress.signal = c.motion.progress.signal.stronger .hold := by
  cases h with
  | walk d count => exact signal_walk w.grid c d _
  | shake => exact .inl rfl
  | fade ramp duration blocks done _ _ _ hf =>
    obtain ⟨-, rfl⟩ := startFade_eq_ok hf
    exact .inl rfl
  | actorImage id => exact .inl (congrArg Progress.signal (progress_showPortrait c _ _))
  | memberImage slot => exact .inl (congrArg Progress.signal (progress_showPortrait c _ _))
  | approach x y => exact signal_approach w.grid c _
  | randomWait least limit d _ _ _ hr =>
    obtain ⟨-, rfl⟩ := randomWait_eq_ok hr
    exact .inl rfl

theorem signal_perform (w : World α) (c : Character α) (command : Command α) :
    (c.perform w command).value.motion.progress.signal = c.motion.progress.signal ∨
      (c.perform w command).value.motion.progress.signal =
        c.motion.progress.signal.stronger .hold := by
  cases command with
  | call call =>
    simp only [perform]
    cases h : c.invoke w call with
    | ok done => exact (ran_of_invoke h).signal
    | error e => exact .inl rfl
  | finish => exact .inl rfl
  | step d => exact .inl rfl
  | turn d => exact .inl rfl
  | wait frames => exact .inl rfl
  | script text => exact .inl rfl

theorem signal_perform_ne_abort {w : World α} {c : Character α} {command : Command α}
    (h : c.motion.progress.signal ≠ .abort) :
    (c.perform w command).value.motion.progress.signal ≠ .abort := by
  rcases signal_perform w c command with hs | hs
  · rw [hs]
    exact h
  · rw [hs]
    cases hc : c.motion.progress.signal with
    | advance => decide
    | hold => decide
    | abort => exact absurd hc h

/-- The same route in the stead of the same route, wherever its cursor is. -/
structure SameRoute (c d : Character α) : Prop where
  route? : d.playback.route? = c.playback.route?
  forcing : d.playback.forcing = c.playback.forcing
  saved? : d.playback.saved? = c.playback.saved?

omit [Scalar α] in
theorem SamePlace.sameRoute {c d : Character α} (h : SamePlace c d) : SameRoute c d :=
  ⟨h.route?, h.forcing, h.saved?⟩

/-- What a tick has done to the route. -/
inductive Course (r : Route α) (c : Character α) (done : Logged (Event α) (Character α)) : Prop
  | resting (hl : Event.scripts done.events = []) (hp : SamePlace c done.value)
      (hm : done.value.motion.progress = c.motion.progress)
  | again (command : Command α) (hc : r.command? c.playback.cursor = some command)
      (hl : Event.scripts done.events = (command.line?.map fun text => (c.label, text)).toList)
      (hp : SamePlace c done.value) (hs : done.value.motion.progress.signal = .advance)
      -- A script line runs again only if something else has asked for it before.
      (hn : c.motion.progress.signal = .advance → command.line? = none)
  | onward (command : Command α) (hc : r.command? c.playback.cursor = some command)
      (hf : command ≠ .finish)
      (hl : Event.scripts done.events = (command.line?.map fun text => (c.label, text)).toList)
      (hr : SameRoute c done.value)
      (hi : done.value.playback.cursor = nextCursor r c.playback.cursor)
      (hm : done.value.motion.progress = .start)
  | around (he : r.EndsAt c.playback.cursor) (hl : Event.scripts done.events = [])
      (hr : SameRoute c done.value) (hi : done.value.playback.cursor = 0)
      (hm : done.value.motion.progress = c.motion.progress.resetMoves) (hrep : r.repeats = true)
  | ended (he : r.EndsAt c.playback.cursor) (hl : Event.scripts done.events = [])
      (hd : done.value.playback = c.attempt.finish.value.playback)
      (hm : done.value.motion.progress = .start) (hw : c.playback.wait = 0)
      (hrep : r.repeats = false)

omit [Scalar α] in
theorem finish_forced {c : Character α} (h : c.playback.forcing = true) :
    c.finish.value = c.restore := by
  simp only [finish, h, if_true]

omit [Scalar α] in
theorem finish_unforced {c : Character α} (h : c.playback.forcing = false) :
    c.finish.value = c.play none := by
  simp only [finish, h, Bool.false_eq_true, if_false]

omit [Scalar α] in
theorem progress_finish (c : Character α) : c.finish.value.motion.progress = .start := by
  simp only [finish]
  split <;> rfl

omit [Scalar α] in
/-- A command that has run stays under the cursor, or the cursor goes on. -/
theorem advance_cases {c : Character α} {r : Route α} (hr : c.playback.route? = some r)
    (hs : c.motion.progress.signal ≠ .abort) :
    (c.motion.progress.signal = .hold ∨ (c.playback.stepped || r.skippable) = false) ∧
        SamePlace c c.advance.value ∧ c.advance.value.motion.progress.signal = .advance ∨
      SameRoute c c.advance.value ∧
        c.advance.value.playback.cursor = nextCursor r c.playback.cursor ∧
          c.advance.value.motion.progress = .start := by
  have hroute : (c.mapProgress Progress.take).playback.route? = some r := hr
  cases hc : c.motion.progress.signal with
  | abort => exact absurd hc hs
  | hold =>
    have ha : c.advance = pure (c.mapProgress Progress.take) := by
      simp only [advance, hc]
    rw [ha]
    exact .inl ⟨.inl rfl, ⟨rfl, rfl, rfl, rfl, rfl⟩, rfl⟩
  | advance =>
    have ha : c.advance = pure (c.mapProgress Progress.take).moveCursor := by
      simp only [advance, hc]
    rw [ha, Logged.value_pure]
    cases hg : c.playback.stepped || r.skippable with
    | false =>
      rw [moveCursor_again hroute hg]
      exact .inl ⟨.inr rfl, ⟨rfl, rfl, rfl, rfl, rfl⟩, rfl⟩
    | true =>
      rw [moveCursor_on hroute hg]
      exact .inr ⟨⟨rfl, rfl, rfl⟩, rfl, rfl⟩

theorem Turn.course {w : World α} {c : Character α} {done : Logged (Event α) (Character α)}
    {r : Route α} (h : Turn w c done) (hr : c.playback.route? = some r)
    (hs : c.motion.progress.signal ≠ .abort) : Course r c done := by
  cases h with
  | busy => exact .resting rfl (.refl c) rfl
  | free hn => cases hr.symm.trans hn
  | waiting => exact .resting rfl ⟨rfl, rfl, rfl, rfl, rfl⟩ rfl
  | ending q _ hq hw he =>
    obtain rfl : r = q := Option.some.inj (hr.symm.trans hq)
    have hl := scripts_endRoute c.attempt r
    cases hrep : r.repeats with
    | true =>
      refine .around he hl ?_ ?_ ?_ hrep <;> simp only [endRoute, hrep, if_true]
      · exact ⟨rfl, rfl, rfl⟩
      · rfl
      · rfl
    | false =>
      have hv : c.attempt.endRoute r = c.attempt.finish := by
        simp only [endRoute, hrep, Bool.false_eq_true, if_false]
      rw [hv] at hl ⊢
      exact .ended he hl rfl (progress_finish _) hw hrep
  | running q command _ hq _ hc hf =>
    obtain rfl : r = q := Option.some.inj (hr.symm.trans hq)
    have hp := samePlace_perform w c.attempt command
    have hl : Event.scripts (c.attempt.perform w command >>= advance).events =
        (command.line?.map fun text => (c.label, text)).toList := scripts_run w c.attempt command
    have hroute : (c.attempt.perform w command).value.playback.route? = some r :=
      hp.route?.trans hr
    rcases advance_cases hroute (signal_perform_ne_abort hs) with ⟨hn, ha, hd⟩ | ⟨ha, hi, hm⟩
    · have hca : SamePlace c c.attempt := ⟨rfl, rfl, rfl, rfl, rfl⟩
      refine .again command hc hl ((hca.trans hp).trans ha) hd fun hadv => ?_
      cases command with
      | script text =>
        rcases hn with hn | hn
        · cases hadv.symm.trans hn
        · cases hn
      | finish => rfl
      | step d => rfl
      | turn d => rfl
      | wait frames => rfl
      | call call => rfl
    · have hsr : SameRoute c (c.attempt.perform w command).value :=
        ⟨hp.route?, hp.forcing, hp.saved?⟩
      refine .onward command hc hf hl ⟨?_, ?_, ?_⟩ ?_ hm
      · exact ha.route?.trans hsr.route?
      · exact ha.forcing.trans hsr.forcing
      · exact ha.saved?.trans hsr.saved?
      · exact hi.trans (congrArg (nextCursor r) hp.cursor)

theorem Course.frame {r : Route α} {c : Character α} {done : Logged (Event α) (Character α)}
    (h : Course r c done) : Course r c ⟨done.value.frame, done.events⟩ := by
  have hp := playback_frame done.value
  have hm := progress_frame done.value
  have hplace : SamePlace done.value done.value.frame := by
    refine ⟨label_frame _, ?_, ?_, ?_, ?_⟩ <;> rw [hp]
  have hroute : SameRoute c done.value → SameRoute c done.value.frame := fun hr =>
    ⟨hplace.route?.trans hr.route?, hplace.forcing.trans hr.forcing,
      hplace.saved?.trans hr.saved?⟩
  cases h with
  | resting hl hs hq => exact .resting hl (hs.trans hplace) (hm.trans hq)
  | again command hc hl hs hq hn =>
    exact .again command hc hl (hs.trans hplace) ((congrArg Progress.signal hm).trans hq) hn
  | onward command hc hf hl hr hi hq =>
    exact .onward command hc hf hl (hroute hr) (hplace.cursor.trans hi) (hm.trans hq)
  | around he hl hr hi hq hrep =>
    exact .around he hl (hroute hr) (hplace.cursor.trans hi) (hm.trans hq) hrep
  | ended he hl hd hq hw hrep => exact .ended he hl (hp.trans hd) (hm.trans hq) hw hrep

theorem course_tick (w : World α) {c : Character α} {r : Route α}
    (hr : c.playback.route? = some r) (hs : c.motion.progress.signal ≠ .abort) :
    Course r c (c.tick w) := by
  have h := ((turn_follow w c).course hr hs).frame
  rw [← events_tick] at h
  exact h

omit [Scalar α] in
theorem Course.stays_or_ends {r : Route α} {c : Character α}
    {done : Logged (Event α) (Character α)} (h : Course r c done)
    (ha : c.motion.progress.signal = .advance) :
    SameRoute c done.value ∧ done.value.motion.progress.signal = .advance ∨
      done.value.playback = c.attempt.finish.value.playback ∧
        done.value.motion.progress = .start ∧ c.playback.wait = 0 := by
  cases h with
  | resting _ hp hm => exact .inl ⟨hp.sameRoute, (congrArg Progress.signal hm).trans ha⟩
  | again _ _ _ hp hs => exact .inl ⟨hp.sameRoute, hs⟩
  | onward _ _ _ _ hr _ hm => exact .inl ⟨hr, congrArg Progress.signal hm⟩
  | around _ _ hr _ hm => exact .inl ⟨hr, (congrArg Progress.signal hm).trans ha⟩
  | ended _ _ hd hm hw => exact .inr ⟨hd, hm, hw⟩

theorem tick_free {w : World α} {c : Character α} (h : c.playback.route? = none) :
    SameRoute c (c.tick w).value ∧
      (c.tick w).value.motion.progress = c.motion.progress ∧
        Event.scripts (c.tick w).events = [] := by
  rw [value_tick, events_tick, follow_free h]
  refine ⟨⟨?_, ?_, ?_⟩, progress_frame c, rfl⟩ <;> rw [playback_frame] <;> rfl

/-- A tick leaves the route that is installed, and the one that is kept aside, or ends it. -/
theorem tick_stays_or_ends (w : World α) {c : Character α}
    (ha : c.motion.progress.signal = .advance) :
    SameRoute c (c.tick w).value ∧ (c.tick w).value.motion.progress.signal = .advance ∨
      (c.tick w).value.playback = c.attempt.finish.value.playback ∧
        (c.tick w).value.motion.progress = .start ∧ c.playback.wait = 0 := by
  cases hr : c.playback.route? with
  | none =>
    obtain ⟨hsame, hm, -⟩ := tick_free (w := w) hr
    exact .inl ⟨hsame, (congrArg Progress.signal hm).trans ha⟩
  | some r =>
    have hs : c.motion.progress.signal ≠ .abort := by
      rw [ha]
      decide
    exact (course_tick w hr hs).stays_or_ends ha

end Character

end TileRoute
