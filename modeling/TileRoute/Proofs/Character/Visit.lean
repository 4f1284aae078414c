import TileRoute.Proofs.Character.Detour
import TileRoute.Proofs.Grid.Ahead
import TileRoute.Proofs.Stage.Tempo

/-!
# One visit of a walk

A walk that the cursor has come to runs again and again, each time for one step, until it has made
the steps that it asks for or until the way is blocked. Between two of its runs nothing changes but
the time that is left until the next one, so that a visit is told run by run, whatever route it
belongs to. All that can go wrong is in its last run: if that is its first one too, it may take a
hold for its own that was there before.
-/

namespace TileRoute

variable {α : Type} [Scalar α]

inductive Command.Walks : Command α → Direction → α → Prop
  | call (asked : Call α) (d : Direction) (count? : Option α) (ha : asked.action = .walk d)
      (hc : asked.number? 0 = .ok count?) :
      Walks (.call asked) d (count?.getD (Scalar.ofInt 1))

theorem Command.Walks.ne_finish {command : Command α} {d : Direction} {count : α}
    (h : command.Walks d count) : command ≠ .finish := by
  cases h
  exact nofun

/-- The steps that a count asks for, one at least. -/
def asks (count : Rat) : Nat := max 1 count.ceil.toNat

theorem lt_asks_iff [Counting α] {count : α} {q : Rat} (hq : Scalar.exact count = .finite q)
    {m : Nat} (hm : m + 1 ≤ maxCount) :
    Scalar.Lt (Scalar.ofInt ((m + 1 : Nat) : Int)) count ↔ m + 1 < asks q := by
  rw [Scalar.Lt, Counting.exact_ofInt (m + 1) hm, hq, Exact.finite_lt_finite, asks]
  have hceil : ((m + 1 : Nat) : Int) < q.ceil ↔ ((m + 1 : Nat) : Rat) < q := by
    rw [Rat.lt_ceil_iff]
    rfl
  rw [← hceil]
  omega

namespace Character

variable {w : World α} {c e : Character α} {r : Route α} {command : Command α} {d : Direction}
  {count : α} {q : Rat} {t : Tile} {j k m n made runs : Nat}

theorem perform_walks (h : command.Walks d count) (c : Character α) :
    (c.perform w command).value = c.walk w.grid d count := by
  cases h with
  | call asked d count? ha hc => exact perform_walk ha hc c

theorem exists_ready (hr : c.playback.route?.isSome = true) (hs : c.motion.shake.Rests) :
    ∃ n, (c.ticks w n).value.ready = true := by
  have huntil := until_ready (w := w) (P := fun e => e.playback.route?.isSome = true)
    (fun e he hready => by rw [(samePlace_tick_of_unready w hready).route?]; exact he)
    (fun e he => he) hr hs
  obtain ⟨n, -, hn⟩ := huntil.exists
  exact ⟨n, hn⟩

theorem commands_mono (h : n ≤ m) : c.commands w n ≤ c.commands w m := by
  induction m, h using Nat.le_induction with
  | base => exact Nat.le_refl _
  | succ m hm ih =>
    rw [commands_succ]
    exact Nat.le_add_right_of_le ih

/-- As long as a swing does not keep a route waiting for ever, command after command runs. -/
theorem exists_commands
    (h : ∀ n, c.commands w n < m → (c.ticks w n).value.playback.route?.isSome = true ∧
      (c.ticks w n).value.motion.shake.Rests) : ∃ n, m ≤ c.commands w n := by
  induction m with
  | zero => exact ⟨0, Nat.zero_le _⟩
  | succ m ih =>
    obtain ⟨n, hn⟩ := ih fun n hlt => h n (Nat.lt_succ_of_lt hlt)
    by_cases hm : m + 1 ≤ c.commands w n
    · exact ⟨n, hm⟩
    · obtain ⟨hroute, hrests⟩ := h n (by omega)
      obtain ⟨i, hi⟩ := exists_ready (w := w) hroute hrests
      rw [← value_ticks_add] at hi
      refine ⟨n + i + 1, ?_⟩
      have hmono := commands_mono (w := w) (c := c) (Nat.le_add_right n i)
      rw [commands_succ, hi]
      exact Nat.succ_le_succ (Nat.le_trans hn hmono)

theorem rests_of_commands (hr : c.playback.route?.isSome = true) (h : 0 < c.commands w n) :
    c.motion.shake.Rests := by
  induction n generalizing c with
  | zero => cases h
  | succ n ih =>
    cases hready : c.ready with
    | true => exact Shake.rests_of_not_active (steady_of_stopping (ready_iff.mp hready).1)
    | false =>
      simp only [commands, hready, Bool.false_eq_true, if_false, Nat.zero_add] at h
      have hroute : (c.tick w).value.playback.route?.isSome = true := by
        rw [(samePlace_tick_of_unready w hready).route?]
        exact hr
      obtain ⟨i, hi⟩ := ih hroute h
      rw [shake_tick_of_unready hready hr] at hi
      exact ⟨i + 1, hi⟩

theorem Completes.last (h : Completes w c (m + 1) n) :
    ∃ i, n = i + 1 ∧ (c.ticks w i).value.ready = true ∧ c.commands w i = m := by
  cases n with
  | zero => cases h.count
  | succ i =>
    have hcount := h.count
    have hbefore := h.first i (Nat.lt_succ_self i)
    rw [commands_succ] at hcount
    cases hready : (c.ticks w i).value.ready with
    | true =>
      rw [hready] at hcount
      exact ⟨i, rfl, hready, Nat.succ.inj hcount⟩
    | false =>
      rw [hready] at hcount
      exact absurd hcount (Nat.ne_of_lt hbefore)

/-- The command has run `j` times and has made `m` steps, and the cursor is still on it. -/
structure Visiting (c : Character α) (d : Direction) (j m : Nat) (e : Character α) : Prop where
  place : SamePlace c e
  position : e.body.position = c.body.position.ahead d m
  moves : e.motion.progress.moves = m
  signal : e.motion.progress.signal = if j = 0 then c.motion.progress.signal else .advance
  facing : 0 < j → e.body.facing = d
  rests : e.motion.shake.Rests

theorem Visiting.tick_unready (hr : c.playback.route?.isSome = true) (h : Visiting c d j m e)
    (hready : e.ready = false) : Visiting c d j m (e.tick w).value := by
  obtain ⟨halike, -⟩ := Character.tick_unready w hready
  have hroute : e.playback.route?.isSome = true := by
    rw [h.place.route?]
    exact hr
  have hshake := shake_tick_of_unready (w := w) hready hroute
  exact ⟨h.place.trans (samePlace_tick_of_unready w hready), halike.position.trans h.position,
    (congrArg Progress.moves halike.progress).trans h.moves,
    (congrArg Progress.signal halike.progress).trans h.signal,
    fun hj => (congrArg Pose.facing halike.pose).trans (h.facing hj), hshake ▸ h.rests.update⟩

/-- What the runs of a command do tells what its visit does, tick after tick. -/
theorem visiting_ticks (steps : Nat → Nat) (hr : c.playback.route?.isSome = true)
    (h : Visiting c d 0 (steps 0) c)
    (hstep : ∀ j e, j + 1 < runs → Visiting c d j (steps j) e → e.ready = true →
      Visiting c d (j + 1) (steps (j + 1)) (e.tick w).value) (hn : c.commands w n < runs) :
    Visiting c d (c.commands w n) (steps (c.commands w n)) (c.ticks w n).value := by
  -- On the ticks: between two runs all that matters stays, and a run is told by `hstep`.
  induction n with
  | zero => exact h
  | succ n ih =>
    have hmono := commands_mono (w := w) (c := c) (Nat.le_succ n)
    have hbefore := ih (Nat.lt_of_le_of_lt hmono hn)
    rw [commands_succ] at hn ⊢
    rw [ticks_succ]
    cases hready : (c.ticks w n).value.ready with
    | true =>
      rw [hready] at hn
      exact hstep _ _ hn hbefore hready
    | false => exact hbefore.tick_unready hr hready

theorem walk_free (h : c.body.canStep w.grid d = true) :
    c.walk w.grid d count =
      if Scalar.Lt (Scalar.ofInt ((min (c.motion.progress.moves + 1) maxCount : Nat) : Int)) count
        then ((c.stepIn w.grid d).mapProgress Progress.countMove).mapProgress Progress.hold
      else (c.stepIn w.grid d).mapProgress Progress.countMove := by
  simp only [walk, h, if_true]
  rfl

theorem walk_blocked (hr : c.playback.route? = some r) (h : c.body.canStep w.grid d = false) :
    c.walk w.grid d count =
      if r.skippable then c.stepIn w.grid d
      else (c.stepIn w.grid d).mapProgress Progress.hold := by
  have hinsists := insists_of_route hr
  simp only [walk, h, hinsists, Bool.false_eq_true, if_false]
  cases r.skippable <;> rfl

/-- The run makes these many steps count, and leaves it to what was asked for before whether the
cursor goes on. -/
structure Parting (w : World α) (r : Route α) (command : Command α) (d : Direction) (t : Tile)
    (made : Nat) (e : Character α) : Prop where
  signal : (e.attempt.perform w command).value.motion.progress.signal = e.motion.progress.signal
  moves : (e.attempt.perform w command).value.motion.progress.moves = made
  unblocked : ((e.attempt.perform w command).value.playback.stepped || r.skippable) = true
  position : (e.attempt.perform w command).value.body.position = t.ahead d made
  facing : (e.attempt.perform w command).value.body.facing = d

section Run

variable (hr : c.playback.route? = some r) (hc : r.command? c.playback.cursor = some command)
  (hw : command.Walks d count) (h : Visiting c d j m e)

include h

theorem Visiting.signal_ne_abort (hab : c.motion.progress.signal ≠ .abort) :
    e.motion.progress.signal ≠ .abort := by
  rw [h.signal]
  split
  · exact hab
  · decide

theorem Visiting.canStep (g : Grid) :
    e.attempt.body.canStep g d = g.passable (c.body.position.ahead d (m + 1)) := by
  rw [← Tile.step_ahead, ← h.position]
  rfl

theorem Visiting.position_step (g : Grid) :
    (e.attempt.body.step g d).position =
      if g.passable (c.body.position.ahead d (m + 1)) then c.body.position.ahead d (m + 1)
      else c.body.position.ahead d m := by
  rw [Body.position_step, h.canStep, ← Tile.step_ahead, ← h.position]
  rfl

theorem Visiting.moves_countMove (hmax : m + 1 ≤ maxCount) :
    e.motion.progress.countMove.moves = m + 1 := by
  change min (e.motion.progress.moves + 1) maxCount = m + 1
  rw [h.moves, Nat.min_eq_left hmax]

include hw in
/-- A step that is made counts, and asks for another run as long as more are asked for. -/
theorem Visiting.perform_free [Counting α] (hq : Scalar.exact count = .finite q)
    (hmax : m + 1 ≤ maxCount) (hp : w.grid.passable (c.body.position.ahead d (m + 1)) = true) :
    (e.attempt.perform w command).value =
      if m + 1 < asks q
        then ((e.attempt.stepIn w.grid d).mapProgress Progress.countMove).mapProgress Progress.hold
      else (e.attempt.stepIn w.grid d).mapProgress Progress.countMove := by
  have hmin : min (e.attempt.motion.progress.moves + 1) maxCount = m + 1 :=
    h.moves_countMove hmax
  have hperform := (perform_walks hw e.attempt).trans (walk_free ((h.canStep w.grid).trans hp))
  simp only [hmin, lt_asks_iff hq hmax] at hperform
  exact hperform

include hr hc

theorem Visiting.command? :
    e.playback.route? = some r ∧ r.command? e.playback.cursor = some command := by
  rw [h.place.route?, h.place.cursor]
  exact ⟨hr, hc⟩

include hw

/-- A step that is blocked asks for another run unless the route leaves it out. -/
theorem Visiting.perform_blocked
    (hp : w.grid.passable (c.body.position.ahead d (m + 1)) = false) :
    (e.attempt.perform w command).value =
      if r.skippable then e.attempt.stepIn w.grid d
      else (e.attempt.stepIn w.grid d).mapProgress Progress.hold :=
  (perform_walks hw e.attempt).trans
    (walk_blocked (h.command? hr hc).1 ((h.canStep w.grid).trans hp))

theorem Visiting.again (hab : c.motion.progress.signal ≠ .abort) (hready : e.ready = true)
    (hhold : (e.attempt.perform w command).value.motion.progress.signal = .hold)
    (hmoves : (e.attempt.perform w command).value.motion.progress.moves = made)
    (hpos : (e.attempt.perform w command).value.body.position = c.body.position.ahead d made)
    (hface : (e.attempt.perform w command).value.body.facing = d)
    (hshake : (e.attempt.perform w command).value.motion.shake = e.motion.shake) :
    Visiting c d (j + 1) made (e.tick w).value := by
  obtain ⟨hroute, hcommand⟩ := h.command? hr hc
  obtain ⟨hplace, hprogress⟩ := tick_of_holdsOn (h.signal_ne_abort hab) hready hroute hcommand
    hw.ne_finish fun hl => by cases hhold.symm.trans hl.signal
  have hpose := pose_tick_of_ready (w := w) hready hroute hcommand hw.ne_finish
  have hrests := (body_tick_of_ready (w := w) hready hroute hcommand hw.ne_finish).2
  refine ⟨h.place.trans hplace, (congrArg Pose.position hpose).trans hpos, ?_, ?_,
    fun _ => (congrArg Pose.facing hpose).trans hface, ?_⟩
  · exact (congrArg Progress.moves hprogress).trans hmoves
  · exact congrArg Progress.signal hprogress
  · rw [hrests, hshake]
    exact h.rests.update

theorem Visiting.step_again [Counting α] (hab : c.motion.progress.signal ≠ .abort)
    (hq : Scalar.exact count = .finite q) (hmax : asks q ≤ maxCount) (hlt : m + 1 < asks q)
    (hp : w.grid.passable (c.body.position.ahead d (m + 1)) = true) (hready : e.ready = true) :
    Visiting c d (j + 1) (m + 1) (e.tick w).value := by
  have hbound : m + 1 ≤ maxCount := Nat.le_of_lt (Nat.lt_of_lt_of_le hlt hmax)
  have hperform := h.perform_free hw hq hbound hp
  rw [if_pos hlt] at hperform
  refine h.again hr hc hw hab hready ?_ ?_ ?_ ?_ ?_ <;> rw [hperform]
  · exact signal_hold (p := e.motion.progress.countMove) (h.signal_ne_abort hab)
  · exact h.moves_countMove hbound
  · exact (h.position_step w.grid).trans (if_pos hp)
  · exact Body.facing_step w.grid e.body d
  · rfl

theorem Visiting.blocked_again (hab : c.motion.progress.signal ≠ .abort)
    (hs : r.skippable = false)
    (hp : w.grid.passable (c.body.position.ahead d (m + 1)) = false) (hready : e.ready = true) :
    Visiting c d (j + 1) m (e.tick w).value := by
  have hperform := h.perform_blocked hr hc hw hp
  rw [hs, if_neg Bool.false_ne_true] at hperform
  refine h.again hr hc hw hab hready ?_ ?_ ?_ ?_ ?_ <;> rw [hperform]
  · exact signal_hold (p := e.motion.progress) (h.signal_ne_abort hab)
  · exact h.moves
  · refine (h.position_step w.grid).trans ?_
    rw [hp, if_neg Bool.false_ne_true]
  · exact Body.facing_step w.grid e.body d
  · rfl

omit hr hc in
theorem Visiting.step_last [Counting α] (hq : Scalar.exact count = .finite q)
    (hmax : asks q ≤ maxCount) (hlast : m + 1 = asks q)
    (hp : w.grid.passable (c.body.position.ahead d (m + 1)) = true) :
    Parting w r command d c.body.position (m + 1) e := by
  have hbound : m + 1 ≤ maxCount := hlast ▸ hmax
  have hperform := h.perform_free hw hq hbound hp
  rw [if_neg (Nat.not_lt.mpr (Nat.le_of_eq hlast.symm))] at hperform
  refine ⟨?_, ?_, ?_, ?_, ?_⟩ <;> rw [hperform]
  · rfl
  · exact h.moves_countMove hbound
  · exact Bool.or_eq_true_iff.mpr (.inl ((h.canStep w.grid).trans hp))
  · exact (h.position_step w.grid).trans (if_pos hp)
  · exact Body.facing_step w.grid e.body d

theorem Visiting.blocked_last (hs : r.skippable = true)
    (hp : w.grid.passable (c.body.position.ahead d (m + 1)) = false) :
    Parting w r command d c.body.position m e := by
  have hperform := h.perform_blocked hr hc hw hp
  rw [hs, if_pos rfl] at hperform
  refine ⟨?_, ?_, ?_, ?_, ?_⟩ <;> rw [hperform]
  · rfl
  · exact h.moves
  · exact Bool.or_eq_true_iff.mpr (.inr hs)
  · refine (h.position_step w.grid).trans ?_
    rw [hp, if_neg Bool.false_ne_true]
  · exact Body.facing_step w.grid e.body d

end Run

/-- The command has run so many times, and its last run has moved the cursor on and forgotten the
steps; before that the cursor and the count tell how often it has run. -/
structure LeavesAfter (w : World α) (r : Route α) (d : Direction) (c : Character α)
    (runs made : Nat) : Prop where
  stays : ∀ n, c.commands w n < runs →
    SamePlace c (c.ticks w n).value ∧
      (c.ticks w n).value.body.position = c.body.position.ahead d (c.commands w n) ∧
        (c.ticks w n).value.motion.progress.moves = c.commands w n
  leaves : ∃ n, Completes w c runs n ∧ SameRoute c (c.ticks w n).value ∧
    (c.ticks w n).value.playback.cursor = nextCursor r c.playback.cursor ∧
      (c.ticks w n).value.motion.progress = .start ∧
        (c.ticks w n).value.body.position = c.body.position.ahead d made ∧
          (c.ticks w n).value.body.facing = d

/-- The command runs again and again, makes so many steps and stays in front of what blocks the
next. -/
structure Sticks (w : World α) (d : Direction) (c : Character α) (k : Nat) : Prop where
  runs : ∀ m, ∃ n, m ≤ c.commands w n
  stays : ∀ n, SamePlace c (c.ticks w n).value ∧
    (c.ticks w n).value.body.position = c.body.position.ahead d (min (c.commands w n) k) ∧
      (c.ticks w n).value.motion.progress.moves = min (c.commands w n) k
  stuck : ∃ m, ∀ n, m ≤ n →
    (c.ticks w n).value.body.position = c.body.position.ahead d k ∧
      (c.ticks w n).value.motion.progress.moves = k ∧ (c.ticks w n).value.body.facing = d

section Visit

variable (hab : c.motion.progress.signal ≠ .abort) (hr : c.playback.route? = some r)
  (hc : r.command? c.playback.cursor = some command) (hw : command.Walks d count)

include hr

theorem exists_run (steps : Nat → Nat)
    (hvisit : ∀ n, c.commands w n < runs →
      Visiting c d (c.commands w n) (steps (c.commands w n)) (c.ticks w n).value) :
    ∃ n, runs ≤ c.commands w n := by
  refine exists_commands fun n hn => ?_
  have hv := hvisit n hn
  rw [hv.place.route?, hr]
  exact ⟨rfl, hv.rests⟩

theorem sticks_of_visiting
    (hvisit : ∀ n, Visiting c d (c.commands w n) (min (c.commands w n) k) (c.ticks w n).value) :
    Sticks w d c k := by
  have hruns : ∀ m, ∃ n, m ≤ c.commands w n := fun m =>
    exists_run hr (fun j => min j k) fun n _ => hvisit n
  refine ⟨hruns, fun n => ⟨(hvisit n).place, (hvisit n).position, (hvisit n).moves⟩, ?_⟩
  obtain ⟨m, hm⟩ := hruns (k + 1)
  refine ⟨m, fun n hn => ?_⟩
  have hmono := commands_mono (w := w) (c := c) hn
  have hmin : min (c.commands w n) k = k := by omega
  have hv := hvisit n
  rw [hmin] at hv
  exact ⟨hv.position, hv.moves, hv.facing (by omega)⟩

include hab hc hw

/-- If nothing stands in the way of the last run, the visit ends with it exactly if nothing was asked
for before it that it could take for its own. -/
theorem leavesAfter_iff
    (hvisit : ∀ n, c.commands w n < runs + 1 →
      Visiting c d (c.commands w n) (c.commands w n) (c.ticks w n).value)
    (hpart : ∀ e, Visiting c d runs runs e → Parting w r command d c.body.position made e) :
    LeavesAfter w r d c (runs + 1) made ↔
      c.motion.progress.signal = .advance ∨ 0 < runs ∨
        made = 0 ∧ nextCursor r c.playback.cursor = c.playback.cursor := by
  obtain ⟨n, hn⟩ := exists_run hr (fun j => j) hvisit
  obtain ⟨last, -, hlast⟩ := exists_completes hn
  obtain ⟨i, rfl, hready, hcount⟩ := hlast.last
  have hv := hvisit i (by omega)
  rw [hcount] at hv
  have hp := hpart _ hv
  obtain ⟨hroute, hcommand⟩ := hv.command? hr hc
  have hpose := pose_tick_of_ready (w := w) hready hroute hcommand hw.ne_finish
  have hposition := (congrArg Pose.position hpose).trans hp.position
  have hfacing := (congrArg Pose.facing hpose).trans hp.facing
  -- Apart from cursor and count the last run does what it has to in any case.
  have hleaves : ∀ e, e = (c.ticks w (i + 1)).value → SameRoute (c.ticks w i).value e →
      e.playback.cursor = nextCursor r c.playback.cursor → e.motion.progress = .start →
        LeavesAfter w r d c (runs + 1) made := by
    rintro e rfl hsame hcursor hstart
    rw [← ticks_succ] at hposition hfacing
    refine ⟨fun n hn => ⟨(hvisit n hn).place, (hvisit n hn).position, (hvisit n hn).moves⟩,
      i + 1, hlast, ⟨?_, ?_, ?_⟩, hcursor, hstart, hposition, hfacing⟩
    · exact hsame.route?.trans hv.place.route?
    · exact hsame.forcing.trans hv.place.forcing
    · exact hsame.saved?.trans hv.place.saved?
  by_cases hs : (c.ticks w i).value.motion.progress.signal = .advance
  · obtain ⟨hsame, hcursor, hstart⟩ := tick_of_letsGo (w := w) hready hroute hcommand hw.ne_finish
      ⟨hp.signal.trans hs, hp.unblocked⟩
    rw [hv.place.cursor] at hcursor
    refine ⟨fun _ => ?_, fun _ => hleaves _ (ticks_succ w i c).symm hsame hcursor hstart⟩
    rcases Nat.eq_zero_or_pos runs with hz | hpos
    · exact .inl ((hv.signal.trans (if_pos hz)).symm.trans hs)
    · exact .inr (.inl hpos)
  · have hfirst : runs = 0 := by
      by_contra hne
      exact hs (hv.signal.trans (if_neg hne))
    have hcs : c.motion.progress.signal ≠ .advance := fun ha =>
      hs ((hv.signal.trans (if_pos hfirst)).trans ha)
    obtain ⟨hplace, hprogress⟩ := tick_of_holdsOn (hv.signal_ne_abort hab) hready hroute hcommand
      hw.ne_finish fun hl => hs (hp.signal.symm.trans hl.signal)
    have hcursor := hplace.cursor.trans hv.place.cursor
    refine ⟨fun hleft => .inr (.inr ?_), fun hor => ?_⟩
    · obtain ⟨m, hm, -, hnext, hstart, -⟩ := hleft.leaves
      obtain rfl := hm.unique hlast
      rw [ticks_succ] at hnext hstart
      exact ⟨(hp.moves.symm.trans (congrArg Progress.moves hprogress).symm).trans
        (congrArg Progress.moves hstart), hnext.symm.trans hcursor⟩
    · obtain ⟨hmade, hnext⟩ := (hor.resolve_left hcs).resolve_left (by omega)
      refine hleaves _ (ticks_succ w i c).symm hplace.sameRoute (hcursor.trans hnext.symm) ?_
      rw [hprogress, Progress.take, hp.moves, hmade]
      rfl

end Visit

/-- Exactly so many tiles ahead are passable before one that is not. -/
structure FreeAhead (g : Grid) (t : Tile) (d : Direction) (k : Nat) : Prop where
  free : ∀ j < k, g.passable (t.ahead d (j + 1)) = true
  blocked : g.passable (t.ahead d (k + 1)) = false

/-- A visit of a walk of `n` steps where `k` tiles ahead are free. -/
structure Visit (w : World α) (r : Route α) (d : Direction) (c : Character α) (k n : Nat) :
    Prop where
  free : n ≤ k → LeavesAfter w r d c n n
  skipped : k < n → r.skippable = true → LeavesAfter w r d c (k + 1) k
  stuck : k < n → r.skippable = false → Sticks w d c k

theorem visiting_refl (hzero : c.motion.progress.moves = 0) (hrests : c.motion.shake.Rests) :
    Visiting c d 0 0 c :=
  ⟨.refl c, (Tile.ahead_zero _ _).symm, hzero, (if_pos rfl).symm,
    fun hn => absurd hn (Nat.lt_irrefl 0), hrests⟩

section Whole

variable [Counting α] (hab : c.motion.progress.signal ≠ .abort)
  (hr : c.playback.route? = some r) (hc : r.command? c.playback.cursor = some command)
  (hw : command.Walks d count) (hq : Scalar.exact count = .finite q) (hmax : asks q ≤ maxCount)
  (hzero : c.motion.progress.moves = 0) (hf : FreeAhead w.grid c.body.position d k)
  (hrests : c.motion.shake.Rests)

include hab hr hc hw hq hmax hzero hf hrests

theorem visiting_free (hk : runs ≤ k + 1) (hruns : runs ≤ asks q) (hn : c.commands w n < runs) :
    Visiting c d (c.commands w n) (c.commands w n) (c.ticks w n).value := by
  refine visiting_ticks (fun j => j) (Option.isSome_of_eq_some hr)
    (visiting_refl hzero hrests) (fun j e hj hv hready => ?_) hn
  exact hv.step_again hr hc hw hab hq hmax (by omega) (hf.free j (by omega)) hready

theorem visit_free_iff (hk : asks q ≤ k) :
    LeavesAfter w r d c (asks q) (asks q) ↔
      c.motion.progress.signal = .advance ∨ 2 ≤ asks q := by
  obtain ⟨runs, hruns⟩ := Nat.exists_eq_add_of_le' (show 1 ≤ asks q from Nat.le_max_left 1 _)
  have hvisit : ∀ n, c.commands w n < runs + 1 →
      Visiting c d (c.commands w n) (c.commands w n) (c.ticks w n).value := fun n =>
    visiting_free hab hr hc hw hq hmax hzero hf hrests (by omega) (by omega)
  rw [hruns, leavesAfter_iff hab hr hc hw hvisit fun e hv =>
    hv.step_last hw hq hmax hruns.symm (hf.free runs (by omega))]
  refine or_congr_right ⟨fun hor => ?_, fun h2 => .inl (by omega)⟩
  rcases hor with hpos | ⟨hz, -⟩ <;> omega

theorem visit_skipped_iff (hk : k < asks q) (hs : r.skippable = true) :
    LeavesAfter w r d c (k + 1) k ↔
      c.motion.progress.signal = .advance ∨ 0 < k ∨
        k = 0 ∧ nextCursor r c.playback.cursor = c.playback.cursor :=
  leavesAfter_iff hab hr hc hw
    (fun _ => visiting_free hab hr hc hw hq hmax hzero hf hrests (Nat.le_refl _) hk)
    fun _ hv => hv.blocked_last hr hc hw hs hf.blocked

theorem visit_sticks (hk : k < asks q) (hs : r.skippable = false) : Sticks w d c k := by
  refine sticks_of_visiting hr fun n => ?_
  refine visiting_ticks (fun j => min j k) (Option.isSome_of_eq_some hr) ?_
    (fun j e _ hv hready => ?_) (Nat.lt_succ_self (c.commands w n))
  · rw [Nat.zero_min]
    exact visiting_refl hzero hrests
  · rcases Nat.lt_or_ge j k with hlt | hge
    · have hnow : min j k = j := by omega
      have hnext : min (j + 1) k = j + 1 := by omega
      simp only [hnow] at hv
      simp only [hnext]
      exact hv.step_again hr hc hw hab hq hmax (by omega) (hf.free j hlt) hready
    · have hnow : min j k = k := by omega
      have hnext : min (j + 1) k = k := by omega
      simp only [hnow] at hv
      simp only [hnext]
      exact hv.blocked_again hr hc hw hab hs hf.blocked hready

end Whole

/-- A visit that goes as it should begins to run, so no swing goes on for ever. -/
theorem Visit.rests (hr : c.playback.route? = some r) (hv : Visit w r d c k n) (hn : 0 < n) :
    c.motion.shake.Rests := by
  have hroute := Option.isSome_of_eq_some hr
  rcases Nat.lt_or_ge k n with hlt | hge
  · cases hs : r.skippable with
    | true =>
      obtain ⟨i, hi, -⟩ := (hv.skipped hlt hs).leaves
      exact rests_of_commands hroute (Nat.lt_of_lt_of_eq (Nat.succ_pos k) hi.count.symm)
    | false =>
      obtain ⟨i, hi⟩ := (hv.stuck hlt hs).runs 1
      exact rests_of_commands hroute hi
  · obtain ⟨i, hi, -⟩ := (hv.free hge).leaves
    exact rests_of_commands hroute (Nat.lt_of_lt_of_eq hn hi.count.symm)

/-- A visit goes as its count and the tiles ahead say, exactly if the swing that is going on comes
to rest, and if besides nothing is held over when the visit begins, or its first run is not its last,
or it does not matter that the cursor stays. -/
theorem visit_iff [Counting α] (h : Reachable c) (hr : c.playback.route? = some r)
    (hc : r.command? c.playback.cursor = some command) (hw : command.Walks d count)
    (hq : Scalar.exact count = .finite q) (hmax : asks q ≤ maxCount)
    (hzero : c.motion.progress.moves = 0) (hf : FreeAhead w.grid c.body.position d k) :
    Visit w r d c k (asks q) ↔
      c.motion.shake.Rests ∧
        (c.motion.progress.signal = .advance ∨ 1 ≤ k ∧ 2 ≤ asks q ∨
          k = 0 ∧ (r.skippable = false ∨ nextCursor r c.playback.cursor = c.playback.cursor)) := by
  have hab := h.signal_ne_abort
  have hpos : 1 ≤ asks q := Nat.le_max_left 1 _
  have hfree := visit_free_iff (w := w) hab hr hc hw hq hmax hzero hf
  have hskipped := visit_skipped_iff (w := w) hab hr hc hw hq hmax hzero hf
  have hstuck := visit_sticks (w := w) hab hr hc hw hq hmax hzero hf
  constructor
  · intro hv
    have hrests := hv.rests hr hpos
    refine ⟨hrests, ?_⟩
    rcases Nat.lt_or_ge k (asks q) with hlt | hge
    · cases hs : r.skippable with
      | true =>
        rcases (hskipped hrests hlt hs).mp (hv.skipped hlt hs) with ha | hk | ⟨hz, hnext⟩
        · exact .inl ha
        · exact .inr (.inl ⟨hk, by omega⟩)
        · exact .inr (.inr ⟨hz, .inr hnext⟩)
      | false =>
        rcases Nat.eq_zero_or_pos k with hz | hk
        · exact .inr (.inr ⟨hz, .inl rfl⟩)
        · exact .inr (.inl ⟨hk, by omega⟩)
    · exact ((hfree hrests hge).mp (hv.free hge)).imp_right fun h2 => .inl ⟨by omega, h2⟩
  · rintro ⟨hrests, hor⟩
    refine ⟨fun hge => (hfree hrests hge).mpr ?_, fun hlt hs => (hskipped hrests hlt hs).mpr ?_,
      hstuck hrests⟩
    · rcases hor with ha | ⟨-, h2⟩ | ⟨hz, -⟩
      · exact .inl ha
      · exact .inr h2
      · omega
    · rcases hor with ha | ⟨hk, -⟩ | ⟨hz, hno | hnext⟩
      · exact .inl ha
      · exact .inr (.inl hk)
      · rw [hs] at hno
        cases hno
      · exact .inr (.inr ⟨hz, hnext⟩)

/-- So many steps to the right, over and over: it never looks up, because it begins again before. -/
def haul (script : String) : Route Float :=
  { commands := [.script script, .finish, .turn .up], repeats := true }

def porter : Character Float :=
  ((placed "porter" (Body.standing ⟨0, 0⟩ 0 0) passage.settings).run passage
    [.install (some (haul "MOVE_R 2"))]).value

theorem visit_iff_porter :
    Reachable porter ∧ porter.ready = true ∧
      (Command.call ⟨.walk .right, [.number 2]⟩ : Command Float).Walks .right 2 ∧ asks 2 = 2 ∧
        FreeAhead passage.grid porter.body.position .right 4 ∧
          Visit passage ((haul "MOVE_R 2").compile passage.lexicon) .right porter 4 2 := by
  have h : Reachable porter := (Reachable.placed _ _ _).run passage _
  have hr : porter.playback.route? = some ((haul "MOVE_R 2").compile passage.lexicon) := by
    decide +kernel
  have hc : ((haul "MOVE_R 2").compile passage.lexicon).command? porter.playback.cursor =
      some (.call ⟨.walk .right, [.number 2]⟩) := by decide +kernel
  have hw : (Command.call ⟨.walk .right, [.number 2]⟩ : Command Float).Walks .right 2 :=
    .call _ .right (some 2) rfl rfl
  have hq : Scalar.exact (2 : Float) = .finite 2 := by decide +kernel
  have hasks : asks 2 = 2 := by decide +kernel
  have hmoves : porter.motion.progress.moves = 0 := by decide +kernel
  have hf : FreeAhead passage.grid porter.body.position .right 4 :=
    ⟨by decide +kernel, by decide +kernel⟩
  have hs : porter.motion.progress.signal = .advance := by decide +kernel
  have hready : porter.ready = true := by decide +kernel
  have hrests : porter.motion.shake.Rests :=
    Shake.rests_of_not_active (steady_of_stopping (ready_iff.mp hready).1)
  have hvisit := (visit_iff h hr hc hw hq (by decide +kernel) hmoves hf).mpr ⟨hrests, .inl hs⟩
  rw [hasks] at hvisit
  exact ⟨h, hready, hw, hasks, hf, hvisit⟩

/-- A porter who was asked for the first of three steps just before the route began again. -/
def hurried : Character Float :=
  ((placed "porter" (Body.standing ⟨0, 0⟩ 0 0) passage.settings).run passage
    [.install (some (haul "MOVE_R 1")), .tick, .request (.walk .right 3), .tick]).value

/-- The porter makes the one step that the route asks for, and then another one: it has taken the
hold of the step before for its own. -/
theorem walk_runs_twice :
    Reachable hurried ∧ hurried.ready = true ∧
      hurried.playback.command? = some (.call ⟨.walk .right, [.number 1]⟩) ∧
        hurried.motion.progress.moves = 0 ∧ hurried.body.position = ⟨2, 0⟩ ∧
          FreeAhead passage.grid hurried.body.position .right 2 ∧
            (hurried.tick passage).value.playback.cursor = hurried.playback.cursor ∧
              (hurried.tick passage).value.motion.progress.moves = 1 ∧
                (hurried.ticks passage 2).value.playback.command? = some .finish ∧
                  (hurried.ticks passage 2).value.body.position = ⟨4, 0⟩ :=
  ⟨(Reachable.placed _ _ _).run passage _, by decide +kernel, by decide +kernel, by decide +kernel,
    by decide +kernel, ⟨by decide +kernel, by decide +kernel⟩, by decide +kernel⟩

end Character

end TileRoute
