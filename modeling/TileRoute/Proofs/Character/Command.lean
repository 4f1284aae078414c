import TileRoute.Proofs.Number.Counting
import TileRoute.Proofs.Route.Journey

/-!
# One command

What the tick in which a command runs leads to, for the commands that step: a step that is free is
made and counted, and one that is blocked is left out or tried again.
-/

namespace TileRoute

variable {α : Type} [Scalar α]

theorem lt_toCount_iff {m : Nat} {x : Int} (hm : m < maxCount) :
    m < toCount x ↔ (m : Int) < x := by
  unfold toCount
  omega

/-- A walk goes on after so many steps exactly if its count asks for more. -/
theorem lt_stepsOf_iff [Counting α] {m : Nat} (count : α) (h1 : 1 ≤ m) (hm : m < maxCount) :
    Scalar.Lt (Scalar.ofInt (m : Int)) count ↔ m < stepsOf count := by
  have hmax : m < stepsOf count ↔ m < (Scalar.exact count).ceilCount := by
    unfold stepsOf
    omega
  unfold Scalar.Lt
  rw [hmax, Counting.exact_ofInt m (by omega)]
  cases Scalar.exact count with
  | finite x =>
    rw [Exact.finite_lt_finite, Exact.ceilCount, lt_toCount_iff hm, Rat.lt_ceil_iff]
    rfl
  | infinite negative =>
    cases negative with
    | true =>
      refine ⟨fun h => ?_, fun h => ?_⟩
      · cases h
      · cases h
    | false => exact ⟨fun _ => hm, fun _ => rfl⟩
  | undefined => exact ⟨fun h => absurd h (Exact.not_lt_undefined _), fun h => by cases h⟩

/-- An accepted fade takes the whole number of ticks not below its duration. -/
theorem ticks_of_positive [Counting α] {duration : α}
    (h : ¬ Scalar.Le duration Scalar.zero) :
    Fade.ticks duration = (Scalar.exact duration).ceilCount := by
  unfold Fade.ticks
  split
  · rfl
  · rename_i hl
    unfold Scalar.Le at h
    unfold Scalar.Lt at hl
    rw [Scalar.exact_zero] at h hl
    cases he : Scalar.exact duration with
    | finite x =>
      rw [he, Exact.finite_le_finite] at h
      rw [he, Exact.finite_lt_finite] at hl
      exact absurd (Rat.not_le.mp h) hl
    | infinite negative =>
      rw [he] at h hl
      cases negative with
      | true => exact absurd (.inl rfl) h
      | false => exact absurd rfl hl
    | undefined => rfl

namespace Character

variable {r : Route α} {label : String} {f : Nat} {s : Stance} {w : World α} {c : Character α}
  {command : Command α} {p : Pose} {i m : Nat}

theorem Engaged.attempt (h : Engaged r label f s c) : Engaged r label f s c.attempt :=
  { h with }

theorem Engaged.advance_on (h : Engaged r label f s c) (hr : r.repeats = false)
    (hs : s.progress.signal = .advance)
    (hg : (c.playback.stepped || r.skippable) = true) :
    Engaged r label f { s with cursor := s.cursor + 1, progress := .start } c.advance.value := by
  have hroute : (c.mapProgress Progress.take).playback.route? = some r := h.route?
  have ha : c.advance.value =
      ((c.mapProgress Progress.take).mapPlayback fun q =>
        { q with cursor := nextCursor r q.cursor }).mapProgress Progress.resetMoves := by
    simp only [advance, h.progress, hs]
    exact moveCursor_on hroute hg
  have hn : nextCursor r c.playback.cursor = s.cursor + 1 := by
    simp only [nextCursor, hr, Bool.false_and, Bool.false_eq_true, if_false, h.cursor]
  rw [ha]
  exact { h with cursor := hn, progress := rfl }

theorem Engaged.advance_again (h : Engaged r label f s c)
    (hs : s.progress.signal = .hold ∨
      s.progress.signal = .advance ∧ (c.playback.stepped || r.skippable) = false) :
    Engaged r label f { s with progress := s.progress.take } c.advance.value := by
  have hroute : (c.mapProgress Progress.take).playback.route? = some r := h.route?
  have ha : c.advance.value = c.mapProgress Progress.take := by
    rcases hs with hs | ⟨hs, hg⟩
    · simp only [advance, h.progress, hs]
      rfl
    · simp only [advance, h.progress, hs]
      exact moveCursor_again hroute hg
  rw [ha]
  exact { h with progress := congrArg Progress.take h.progress }

/-- A command runs, and the ticks in which it keeps the route waiting go by. -/
theorem Engaged.run (h : Engaged r label f (.ready p i m) c) (hc : r.command? i = some command)
    (hf : command ≠ .finish)
    (ha : Engaged r label f s (c.attempt.perform w command).value.advance.value) :
    Leads w c (1 + (s.busy - 1 + s.wait)) (command.line?.map fun text => (label, text)).toList
      (Engaged r label f { s with busy := 0, wait := 0 }) := by
  have hcursor : r.command? c.playback.cursor = some command := by
    rw [h.cursor]
    exact hc
  have hfollow := follow_running (w := w) (h.stopping_iff.mpr rfl) h.route? h.wait hcursor hf
  have hl : Event.scripts (c.tick w).events =
      (command.line?.map fun text => (label, text)).toList := by
    rw [events_tick, hfollow, scripts_run, h.attempt.label]
  have hv : Engaged r label f { s with busy := s.busy - 1 } (c.tick w).value := by
    rw [value_tick, hfollow]
    exact ha.frame
  have hout := (Leads.tick hv hl).trans fun d hd => hd.wait_out
  rw [List.append_nil] at hout
  exact hout

theorem perform_walk {asked : Call α} {count? : Option α} {d : Direction}
    (ha : asked.action = .walk d) (hc : asked.number? 0 = .ok count?) (c : Character α) :
    (c.perform w (.call asked)).value = c.walk w.grid d (count?.getD (Scalar.ofInt 1)) := by
  simp only [perform, invoke, ha, hc]
  rfl

theorem Engaged.canStep (h : Engaged r label f s c) (g : Grid) (d : Direction) :
    c.body.canStep g d = g.passable (s.pose.position.step d) := by
  have hp : c.body.position = s.pose.position := congrArg Pose.position h.pose
  unfold Body.canStep
  rw [hp]

theorem Engaged.stepIn_free (h : Engaged r label f (.ready p i m) c) {g : Grid} {d : Direction}
    (hp : g.passable (p.position.step d) = true) :
    Engaged r label f
        ⟨{ p with position := p.position.step d, facing := d }, i, ⟨.advance, m⟩, f, 0⟩
        (c.stepIn g d) ∧
      (c.stepIn g d).playback.stepped = true := by
  have hcan : c.body.canStep g d = true := (h.canStep g d).trans hp
  have hb : (c.stepIn g d).body =
      { c.body with
        facing := d
        previous := c.body.position
        position := c.body.position.step d
        moveLeft := c.body.framesPerStep } := by
    change c.body.step g d = _
    simp only [Body.step, hcan, if_true]
  have hpose : (c.stepIn g d).body.pose =
      { p with position := p.position.step d, facing := d } := by
    have hc : c.body.pose = p := h.pose
    rw [hb, ← hc]
    rfl
  have hz : c.busy = 0 := h.busy
  have hbusy : (c.stepIn g d).busy = f := by
    unfold Character.busy at hz ⊢
    rw [hb]
    change max (c.body.jumpLeft + c.body.framesPerStep)
      (if c.motion.fade.blocks then c.motion.fade.remaining else 0) = f
    rw [h.framesPerStep]
    omega
  refine ⟨{ h with pose := hpose, busy := hbusy, framesPerStep := ?_ }, hcan⟩
  rw [hb]
  exact h.framesPerStep

theorem Engaged.stepIn_blocked (h : Engaged r label f (.ready p i m) c) {g : Grid}
    {d : Direction} (hp : g.passable (p.position.step d) = false) :
    Engaged r label f (.ready { p with facing := d } i m) (c.stepIn g d) ∧
      (c.stepIn g d).playback.stepped = false := by
  have hcan : c.body.canStep g d = false := (h.canStep g d).trans hp
  have hb : (c.stepIn g d).body = { c.body with facing := d } := by
    change c.body.step g d = _
    simp only [Body.step, hcan, Bool.false_eq_true, if_false]
  have hpose : (c.stepIn g d).body.pose = { p with facing := d } := by
    have hc : c.body.pose = p := h.pose
    rw [hb, ← hc]
    rfl
  have hbusy : (c.stepIn g d).busy = 0 := by
    have hz : c.busy = 0 := h.busy
    unfold Character.busy at hz ⊢
    rw [hb]
    exact hz
  refine ⟨{ h with pose := hpose, busy := hbusy, framesPerStep := ?_ }, hcan⟩
  rw [hb]
  exact h.framesPerStep

/-- A step that is blocked is left out, or made another attempt at. -/
theorem Engaged.run_blocked (h : Engaged r label f (.ready p i m) c) (hr : r.repeats = false)
    (hc : r.command? i = some command) {d : Direction} {n : Nat} (hd : command.Strides d n)
    (hp : w.grid.passable (p.position.step d) = false) :
    Leads w c 1 []
      (Engaged r label f
        (if r.skippable then .ready { p with facing := d } (i + 1) 0
        else .ready { p with facing := d } i m)) := by
  obtain ⟨hs, hstep⟩ := h.attempt.stepIn_blocked hp
  have hrun : ∀ s : Stance, s.busy = 0 → s.wait = 0 →
      Engaged r label f s (c.attempt.perform w command).value.advance.value →
        Leads w c 1 [] (Engaged r label f s) := by
    intro s hb hw ha
    have hl := h.run hc hd.ne_finish ha
    rw [hd.line?, hb, hw] at hl
    have he : ({ s with busy := 0, wait := 0 } : Stance) = s := by
      cases s
      simp only at hb hw
      rw [hb, hw]
    rw [he] at hl
    exact hl
  cases hk : r.skippable with
  | true =>
    have ha := hs.advance_on hr rfl (by rw [hk, Bool.or_true])
    refine hrun _ rfl rfl ?_
    cases hd with
    | step => exact ha
    | walk asked count? hact hcount =>
      have hw : c.attempt.walk w.grid d (count?.getD (Scalar.ofInt 1)) =
          c.attempt.stepIn w.grid d := by
        have hcan := (h.attempt.canStep w.grid d).trans hp
        have hin : c.attempt.playback.insists = false := by
          rw [insists_of_route h.attempt.route?, hk]
          rfl
        simp only [walk, hcan, hin, Bool.false_eq_true, if_false]
      rw [perform_walk hact hcount, hw]
      exact ha
  | false =>
    refine hrun _ rfl rfl ?_
    cases hd with
    | step => exact hs.advance_again (.inr ⟨rfl, by rw [hk, hstep]; rfl⟩)
    | walk asked count? hact hcount =>
      have hw : c.attempt.walk w.grid d (count?.getD (Scalar.ofInt 1)) =
          (c.attempt.stepIn w.grid d).mapProgress Progress.hold := by
        have hcan := (h.attempt.canStep w.grid d).trans hp
        have hin : c.attempt.playback.insists = true := by
          rw [insists_of_route h.attempt.route?, hk]
          rfl
        simp only [walk, hcan, hin, Bool.false_eq_true, if_false, if_true]
      rw [perform_walk hact hcount, hw]
      have hh : Engaged r label f ⟨{ p with facing := d }, i, ⟨.hold, m⟩, 0, 0⟩
          ((c.attempt.stepIn w.grid d).mapProgress Progress.hold) :=
        { hs with progress := congrArg Progress.hold hs.progress }
      exact hh.advance_again (.inl rfl)

/-- A step that is not blocked is made, and the command goes on or gives way to the next one. -/
theorem Engaged.run_free [Counting α] (h : Engaged r label f (.ready p i m) c)
    (hr : r.repeats = false) (hc : r.command? i = some command) {d : Direction} {n : Nat}
    (hd : command.Strides d n) (hp : w.grid.passable (p.position.step d) = true) (hm : m < n)
    (hmax : m + 1 < maxCount) :
    Leads w c (max 1 f) []
      (Engaged r label f
        (if m + 1 < n then
          .ready { p with position := p.position.step d, facing := d } i (m + 1)
        else .ready { p with position := p.position.step d, facing := d } (i + 1) 0)) := by
  obtain ⟨hs, hstep⟩ := h.attempt.stepIn_free hp
  have hrun : ∀ j q, Engaged r label f
        ⟨{ p with position := p.position.step d, facing := d }, j, q, f, 0⟩
        (c.attempt.perform w command).value.advance.value →
      Leads w c (max 1 f) [] (Engaged r label f
        ⟨{ p with position := p.position.step d, facing := d }, j, q, 0, 0⟩) := by
    intro j q ha
    have hl := h.run hc hd.ne_finish ha
    have ht : 1 + (f - 1 + 0) = max 1 f := by omega
    rw [hd.line?, ht] at hl
    exact hl
  cases hd with
  | step =>
    rw [if_neg (by omega)]
    exact hrun _ _ (hs.advance_on hr rfl (by rw [hstep, Bool.true_or]))
  | walk asked count? hact hcount =>
    have hcan := (h.attempt.canStep w.grid d).trans hp
    have hcm : Progress.countMove ⟨.advance, m⟩ = ⟨.advance, m + 1⟩ := by
      have hmin : min (m + 1) maxCount = m + 1 := Nat.min_eq_left (by omega)
      simp only [Progress.countMove, hmin]
    have hmoved : Engaged r label f
        ⟨{ p with position := p.position.step d, facing := d }, i, ⟨.advance, m + 1⟩, f, 0⟩
        ((c.attempt.stepIn w.grid d).mapProgress Progress.countMove) :=
      { hs with progress := (congrArg Progress.countMove hs.progress).trans hcm }
    have hmoves : ((c.attempt.stepIn w.grid d).mapProgress
        Progress.countMove).motion.progress.moves = m + 1 := congrArg Progress.moves hmoved.progress
    have hlt := lt_stepsOf_iff (count?.getD (Scalar.ofInt 1)) (Nat.le_add_left 1 m) hmax
    have hwalk := perform_walk hact hcount (w := w) c.attempt
    simp only [walk, hcan, if_true, hmoves, hlt] at hwalk
    by_cases hn : m + 1 < stepsOf (count?.getD (Scalar.ofInt 1))
    · rw [if_pos hn] at hwalk ⊢
      have hh : Engaged r label f
          ⟨{ p with position := p.position.step d, facing := d }, i, ⟨.hold, m + 1⟩, f, 0⟩
          (c.attempt.perform w (.call asked)).value := by
        rw [hwalk]
        exact { hmoved with progress := congrArg Progress.hold hmoved.progress }
      exact hrun _ _ (hh.advance_again (.inl rfl))
    · rw [if_neg hn] at hwalk ⊢
      have hh : Engaged r label f
          ⟨{ p with position := p.position.step d, facing := d }, i, ⟨.advance, m + 1⟩, f, 0⟩
          (c.attempt.perform w (.call asked)).value := by
        rw [hwalk]
        exact hmoved
      have hst : (c.attempt.perform w (.call asked)).value.playback.stepped = true := by
        rw [hwalk]
        exact hstep
      exact hrun _ _ (hh.advance_on hr rfl (by rw [hst, Bool.true_or]))

end Character

end TileRoute
