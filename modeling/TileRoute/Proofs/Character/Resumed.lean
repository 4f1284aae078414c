import TileRoute.Proofs.Character.Detour

/-!
# Walks that are interrupted

A forced route that comes in the middle of a walk gives the walk back without the steps that it had
counted: what is kept aside is the route and its cursor, and the count is set to zero both when a
route is forced and when it gives way. So the walk makes all of its steps once more, however many it
had made.
-/

namespace TileRoute

variable {α : Type} [Scalar α]

theorem Command.Strides.pos {command : Command α} {d : Direction} {n : Nat}
    (h : command.Strides d n) : 0 < n := by
  cases h with
  | step => exact Nat.one_pos
  | walk asked count? => exact Nat.lt_of_lt_of_le Nat.one_pos (Nat.le_max_left 1 _)

theorem Call.strides [Counting α] {asked : Call α} {d : Direction} {n : Nat}
    (ha : asked.action = .walk d) (hc : asked.number? 0 = .ok (some (Scalar.ofInt (n : Int))))
    (hpos : 0 < n) (hn : n ≤ maxCount) : (Command.call asked).Strides d n := by
  have hsteps : stepsOf (Scalar.ofInt (n : Int) : α) = n := by
    unfold stepsOf
    rw [Counting.exact_ofInt n hn]
    have hceil : Exact.ceilCount (.finite (n : Rat)) = n := by
      rw [Exact.ceilCount, ← Int.cast_natCast, Rat.ceil_intCast]
      exact toCount_of_le hn
    rw [hceil]
    omega
  have hd := Command.Strides.walk asked _ ha hc
  rw [Option.getD_some, hsteps] at hd
  exact hd

namespace Character

variable {w : World α} {b c : Character α} {r g : Route α} {command : Command α} {i n : Nat}
  {d : Direction} {t : Tile} {kept : Saved α}

theorem body_perform_strides (hd : command.Strides d n) (hcan : c.body.canStep w.grid d = true) :
    (c.attempt.perform w command).value.body.position = c.body.position.step d ∧
      (c.attempt.perform w command).value.motion.shake = c.motion.shake ∧
        (c.attempt.perform w command).value.playback.stepped = true := by
  have hattempt : c.attempt.body.canStep w.grid d = true := hcan
  have hpos : (c.attempt.stepIn w.grid d).body.position = c.body.position.step d := by
    show (c.body.step w.grid d).position = c.body.position.step d
    rw [Body.position_step, if_pos hcan]
  cases hd with
  | step => exact ⟨hpos, rfl, hcan⟩
  | walk asked count? ha hc =>
    rw [perform_walk ha hc]
    simp only [walk, hattempt, if_true]
    split
    · exact ⟨hpos, rfl, hcan⟩
    · exact ⟨hpos, rfl, hcan⟩

/-- A step that is made is counted, and the command holds on unless it was the last. -/
theorem progress_perform_strides [Counting α] (hd : command.Strides d n)
    (hcan : c.body.canStep w.grid d = true) (hs : c.motion.progress.signal = .advance)
    (hlt : c.motion.progress.moves < n) (hmax : c.motion.progress.moves + 1 < maxCount) :
    c.motion.progress.moves + 1 < n ∧
        (c.attempt.perform w command).value.motion.progress =
          ⟨.hold, c.motion.progress.moves + 1⟩ ∨
      c.motion.progress.moves + 1 = n ∧
        (c.attempt.perform w command).value.motion.progress.signal = .advance := by
  cases hd with
  | step => exact .inr ⟨by omega, hs⟩
  | walk asked count? ha hc =>
    have hattempt : c.attempt.body.canStep w.grid d = true := hcan
    have hcount : c.motion.progress.countMove = ⟨.advance, c.motion.progress.moves + 1⟩ := by
      have hmin : min (c.motion.progress.moves + 1) maxCount = c.motion.progress.moves + 1 :=
        Nat.min_eq_left (Nat.le_of_lt hmax)
      simp only [Progress.countMove, hs, hmin]
    have hmade : ((c.attempt.stepIn w.grid d).mapProgress Progress.countMove).motion.progress =
        ⟨.advance, c.motion.progress.moves + 1⟩ := hcount
    have hgoes := lt_stepsOf_iff (count?.getD (Scalar.ofInt 1))
      (Nat.le_add_left 1 c.motion.progress.moves) hmax
    rw [perform_walk ha hc]
    simp only [walk, hattempt, if_true, hmade, hgoes]
    split
    · rename_i hmore
      exact .inl ⟨hmore, congrArg Progress.hold hmade⟩
    · rename_i hlast
      exact .inr ⟨by omega, congrArg Progress.signal hmade⟩

/-- The command under the cursor of a route that is not forced has not yet made its `n` steps; those
that are counted have led here from the tile `t`. -/
structure Walking (r : Route α) (i : Nat) (d : Direction) (n : Nat) (t : Tile)
    (c : Character α) : Prop where
  route? : c.playback.route? = some r
  cursor : c.playback.cursor = i
  forcing : c.playback.forcing = false
  moves : c.motion.progress.moves < n
  position : c.body.position = t.ahead d c.motion.progress.moves

/-- The command has made its `n` steps from the tile `t`, and the route goes on. -/
structure Walked (r : Route α) (i : Nat) (d : Direction) (n : Nat) (t : Tile)
    (c : Character α) : Prop where
  route? : c.playback.route? = some r
  cursor : c.playback.cursor = nextCursor r i
  forcing : c.playback.forcing = false
  progress : c.motion.progress = .start
  position : c.body.position = t.ahead d n

/-- A walk that nothing keeps from its next step for ever. -/
structure UnderWay (r : Route α) (i : Nat) (d : Direction) (n : Nat) (t : Tile)
    (c : Character α) : Prop extends Walking r i d n t c where
  signal : c.motion.progress.signal = .advance
  rests : c.motion.shake.Rests

theorem UnderWay.tick_unready (h : UnderWay r i d n t c) (hready : c.ready = false) :
    UnderWay r i d n t (c.tick w).value ∧
      (c.tick w).value.motion.progress = c.motion.progress := by
  have hsame := samePlace_tick_of_unready w hready
  have hm : (c.tick w).value.motion.progress = c.motion.progress :=
    (Character.tick_unready w hready).1.progress
  obtain ⟨hp, hs⟩ := body_tick_of_unready (w := w) hready (Option.isSome_of_eq_some h.route?)
  refine ⟨{ route? := hsame.route?.trans h.route?
            cursor := hsame.cursor.trans h.cursor
            forcing := hsame.forcing.trans h.forcing
            moves := ?_
            position := ?_
            signal := ?_
            rests := hs ▸ h.rests.update }, hm⟩
  · rw [hm]
    exact h.moves
  · rw [hm]
    exact hp.trans h.position
  · rw [hm]
    exact h.signal

theorem UnderWay.tick_ready [Counting α] (h : UnderWay r i d n t c) (hready : c.ready = true)
    (hc : r.command? i = some command) (hd : command.Strides d n)
    (hfree : ∀ k < n, w.grid.passable (t.ahead d (k + 1)) = true) (hn : n < maxCount) :
    Walked r i d n t (c.tick w).value ∨ UnderWay r i d n t (c.tick w).value ∧
      (c.tick w).value.motion.progress.moves = c.motion.progress.moves + 1 := by
  have hcur : r.command? c.playback.cursor = some command := by
    rw [h.cursor]
    exact hc
  have hcan : c.body.canStep w.grid d = true := by
    unfold Body.canStep
    rw [h.position, Tile.step_ahead]
    exact hfree _ h.moves
  obtain ⟨hpos, hshake, hstep⟩ := body_perform_strides hd hcan
  obtain ⟨hp, hs⟩ := body_tick_of_ready (w := w) hready h.route? hcur hd.ne_finish
  have hnext : (c.tick w).value.body.position = t.ahead d (c.motion.progress.moves + 1) := by
    rw [hp, hpos, h.position, Tile.step_ahead]
  have hrests : (c.tick w).value.motion.shake.Rests := by
    rw [hs, hshake]
    exact h.rests.update
  have hab : c.motion.progress.signal ≠ .abort := by
    rw [h.signal]
    decide
  have hmoves := h.moves
  rcases progress_perform_strides hd hcan h.signal h.moves (by omega) with
    ⟨hmore, hm⟩ | ⟨hlast, hm⟩
  · -- There are more steps to come, and the command holds on to the cursor.
    have hholds : ¬ (c.attempt.perform w command).value.LetsGo r := by
      intro hl
      have hsignal := hl.signal
      rw [hm] at hsignal
      cases hsignal
    obtain ⟨hsame, htaken⟩ := tick_of_holdsOn hab hready h.route? hcur hd.ne_finish hholds
    have hprogress : (c.tick w).value.motion.progress =
        ⟨.advance, c.motion.progress.moves + 1⟩ := by
      rw [htaken, hm]
      rfl
    refine .inr ⟨{ route? := hsame.route?.trans h.route?
                   cursor := hsame.cursor.trans h.cursor
                   forcing := hsame.forcing.trans h.forcing
                   moves := ?_
                   position := ?_
                   signal := congrArg Progress.signal hprogress
                   rests := hrests }, congrArg Progress.moves hprogress⟩
    · rw [hprogress]
      exact hmore
    · rw [hprogress]
      exact hnext
  · -- It was the last step.
    have hgo : (c.attempt.perform w command).value.LetsGo r := by
      refine ⟨hm, ?_⟩
      rw [hstep, Bool.true_or]
    obtain ⟨hsame, hcursor, hstart⟩ := tick_of_letsGo hready h.route? hcur hd.ne_finish hgo
    rw [h.cursor] at hcursor
    exact .inl
      { route? := hsame.route?.trans h.route?
        cursor := hcursor
        forcing := hsame.forcing.trans h.forcing
        progress := hstart
        position := hlast ▸ hnext }

theorem UnderWay.completes [Counting α] (h : UnderWay r i d n t c)
    (hc : r.command? i = some command) (hd : command.Strides d n)
    (hfree : ∀ k < n, w.grid.passable (t.ahead d (k + 1)) = true) (hn : n < maxCount) :
    Until w (Walking r i d n t) (Walked r i d n t) c := by
  refine (until_of_commands (fun e => n - e.motion.progress.moves) ?wait ?route ?rests ?run h).mono
    (fun e he => he.toWalking) fun e he => he
  case wait =>
    intro e he hready
    obtain ⟨hunder, hm⟩ := he.tick_unready (w := w) hready
    refine ⟨hunder, ?_⟩
    rw [hm]
  case route => exact fun e he => Option.isSome_of_eq_some he.route?
  case rests => exact fun e he => he.rests
  case run =>
    intro e he hready
    rcases he.tick_ready hready hc hd hfree hn with hdone | ⟨hunder, hm⟩
    · exact .inl hdone
    · have hlt := he.moves
      exact .inr ⟨hunder, by omega⟩

/-- So many tiles ahead of the body are passable, and no swing lasts for ever. -/
structure Unhindered (w : World α) (d : Direction) (n : Nat) (c : Character α) : Prop where
  contains : w.grid.contains c.body.position = true
  free : ∀ k < n, w.grid.passable (c.body.position.ahead d (k + 1)) = true
  rests : c.motion.shake.Rests

theorem Unhindered.lt_maxCount (h : Unhindered w d n c) (hw : w.grid.width ≤ maxCount)
    (hh : w.grid.height ≤ maxCount) : n < maxCount :=
  Nat.lt_of_le_of_lt (Grid.le_room h.contains h.free) (Grid.room_lt d h.contains hw hh)

/-- A walk that is given back has all of its steps before it. -/
theorem GivenBack.underWay (h : GivenBack ⟨some r, i⟩ c) (hn : 0 < n) (hs : c.motion.shake.Rests) :
    UnderWay r i d n c.body.position c := by
  have hm : c.motion.progress.moves = 0 := congrArg Progress.moves h.progress
  exact
    { route? := h.route?
      cursor := h.cursor
      forcing := h.forcing
      moves := by rw [hm]; exact hn
      position := by rw [hm, Tile.ahead_zero]
      signal := congrArg Progress.signal h.progress
      rests := hs }

theorem StandsIn.givenBack (h : StandsIn w.lexicon kept g c) {m : Nat}
    (hf : ∀ k < m, (c.ticks w k).value.playback.forcing = true)
    (he : (c.ticks w m).value.playback.forcing = false) : GivenBack kept (c.ticks w m).value := by
  induction m generalizing c with
  | zero => cases h.forcing.symm.trans he
  | succ m ih =>
    rcases h.tick with hstill | hback
    · exact ih hstill (fun k hk => hf (k + 1) (Nat.succ_lt_succ hk)) he
    · cases m with
      | zero => exact hback
      | succ m =>
        have hforced : (c.tick w).value.playback.forcing = true := hf 1 (by omega)
        cases hforced.symm.trans hback.forcing

/-- A walk of `n` steps from the tile `t` that a route `g` interrupts makes all of them once more. -/
structure StartsOver (w : World α) (r : Route α) (i : Nat) (d : Direction) (n : Nat) (t : Tile)
    (g : Route α) (c : Character α) : Prop where
  /-- Whatever is forced: once it is over, the walk begins anew on the tile where the body is. -/
  anew : ∀ m, (∀ k < m, (forcedFor w c g k).playback.forcing = true) →
    (forcedFor w c g m).playback.forcing = false → Unhindered w d n (forcedFor w c g m) →
      Until w (Walking r i d n (forcedFor w c g m).body.position)
        (Walked r i d n (forcedFor w c g m).body.position) (forcedFor w c g m)
  /-- A forced route that makes no steps is over in the end. The steps that come after it are added
  to those made before. -/
  added : g.repeats = false → (∀ command ∈ (g.compile w.lexicon).commands, command.Stationary) →
    Unhindered w d n c →
      Until w (fun e => e.playback.forcing = true ∧ e.body.position = c.body.position)
        (fun b => b.playback.forcing = false ∧ b.body.position = c.body.position ∧
          Until w (Walking r i d n c.body.position)
            (fun e => Walked r i d n c.body.position e ∧
              e.body.position = t.ahead d (c.motion.progress.moves + n)) b)
        (c.force w.lexicon (some g)).value

/-- A walk that a forced route has interrupted starts over, however many steps it had made. -/
theorem interrupted_walk_starts_over [Counting α] (h : Walking r i d n t c)
    (hc : r.command? i = some command) (hd : command.Strides d n)
    (hkept : c.keptAside = ⟨some r, i⟩) (hw : w.grid.width ≤ maxCount)
    (hh : w.grid.height ≤ maxCount) (g : Route α) : StartsOver w r i d n t g c := by
  have hstands : StandsIn w.lexicon ⟨some r, i⟩ g (c.force w.lexicon (some g)).value :=
    ⟨rfl, rfl, congrArg some hkept, rfl⟩
  have hwalk : ∀ b, GivenBack ⟨some r, i⟩ b → Unhindered w d n b →
      Until w (Walking r i d n b.body.position) (Walked r i d n b.body.position) b := by
    intro b hb hu
    exact (hb.underWay hd.pos hu.rests).completes hc hd hu.free (hu.lt_maxCount hw hh)
  refine { anew := ?anew, added := ?added }
  case anew =>
    intro m hf he hu
    exact hwalk _ (hstands.givenBack hf he) hu
  case added =>
    intro hn hg hu
    have hdetour : Detour w.lexicon ⟨some r, i⟩ g c.body.position
        (c.force w.lexicon (some g)).value := ⟨hstands, rfl, hu.rests⟩
    refine (hdetour.over hn hg).mono (fun e he => ⟨he.standsIn.forcing, he.position⟩) fun b hb => ?_
    have hub : Unhindered w d n b := by
      refine ⟨?_, ?_, hb.rests⟩
      · rw [hb.position]
        exact hu.contains
      · rw [hb.position]
        exact hu.free
    have hagain := hwalk b hb.givenBack hub
    rw [hb.position] at hagain
    refine ⟨hb.givenBack.forcing, hb.position, hagain.mono (fun e he => he) fun e he => ⟨he, ?_⟩⟩
    rw [he.position, h.position, Tile.ahead_ahead]

def outing : Route Float := { commands := [.script "MOVE_R 2", .turn .left] }

/-- A sentry that has made the first of its two steps. -/
def halfway : Character Float :=
  ((placed "sentry" (Body.standing ⟨0, 0⟩ 0 0) passage.settings).run passage
    [.install (some outing), .tick]).value

theorem walking_halfway : Walking (outing.compile passage.lexicon) 0 .right 2 ⟨0, 0⟩ halfway := by
  constructor <;> decide +kernel

theorem interrupted_walk_starts_over_halfway :
    Walking (outing.compile passage.lexicon) 0 .right 2 ⟨0, 0⟩ halfway ∧
      halfway.motion.progress.moves = 1 ∧
        Until passage (fun e => e.playback.forcing = true ∧ e.body.position = ⟨1, 0⟩)
          (fun b => b.playback.forcing = false ∧ b.body.position = ⟨1, 0⟩ ∧
            Until passage (Walking (outing.compile passage.lexicon) 0 .right 2 ⟨1, 0⟩)
              (fun e => e.playback.cursor = 1 ∧ e.body.position = ⟨3, 0⟩) b)
          (halfway.force passage.lexicon (some glance)).value := by
  have hmoves : halfway.motion.progress.moves = 1 := by decide +kernel
  have hposition : halfway.body.position = ⟨1, 0⟩ := by decide +kernel
  have hc : (outing.compile passage.lexicon).command? 0 =
      some (.call ⟨.walk .right, [.number (Scalar.ofInt 2)]⟩) := by decide +kernel
  have hd : (Command.call (⟨.walk .right, [.number (Scalar.ofInt 2)]⟩ : Call Float)).Strides
      .right 2 := Call.strides rfl rfl (by decide) (by decide)
  have hkept : halfway.keptAside = ⟨some (outing.compile passage.lexicon), 0⟩ := by
    have hnone : halfway.playback.saved?.isNone = true := by decide +kernel
    unfold keptAside
    rw [Option.isNone_iff_eq_none.mp hnone, walking_halfway.route?, walking_halfway.cursor]
    rfl
  have hu : Unhindered passage .right 2 halfway := by
    refine ⟨by decide +kernel, ?_, Shake.rests_of_not_active (by decide +kernel)⟩
    decide +kernel
  have hg : ∀ command ∈ (glance.compile passage.lexicon).commands, command.Stationary := by
    have hcommands : (glance.compile passage.lexicon).commands = [.turn .up] := by decide +kernel
    rw [hcommands]
    intro command hm
    rw [List.mem_singleton.mp hm]
    trivial
  have hover := (interrupted_walk_starts_over walking_halfway hc hd hkept (by decide) (by decide)
    glance).added rfl hg hu
  rw [hmoves, hposition] at hover
  refine ⟨walking_halfway, hmoves, hover.mono (fun e he => he) ?_⟩
  rintro b ⟨hfree, hb, hagain⟩
  refine ⟨hfree, hb, hagain.mono (fun e he => he) ?_⟩
  rintro e ⟨hdone, hp⟩
  exact ⟨hdone.cursor, hp⟩

/-- One more step would have been the second of two, but the sentry makes two more. -/
theorem walk_not_continued :
    Walking (outing.compile passage.lexicon) 0 .right 2 ⟨0, 0⟩ halfway ∧
      halfway.motion.progress.moves = 1 ∧
        (forcedFor passage halfway glance 1).playback.forcing = true ∧
          (forcedFor passage halfway glance 2).playback.forcing = false ∧
            (forcedFor passage halfway glance 3).body.position = ⟨2, 0⟩ ∧
              (forcedFor passage halfway glance 3).playback.cursor = 0 ∧
                (forcedFor passage halfway glance 4).body.position = ⟨3, 0⟩ ∧
                  (forcedFor passage halfway glance 4).playback.cursor = 1 :=
  ⟨walking_halfway, by decide +kernel⟩

end Character

end TileRoute
