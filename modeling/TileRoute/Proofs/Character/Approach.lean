import TileRoute.Proofs.Character.Detour
import TileRoute.Proofs.Grid.Guidance
import TileRoute.Proofs.Grid.Pursuit

/-!
# Approaches that arrive on time

A tile that lies within the search limit is approached along a shortest walk: each run of the command
makes one step that leaves one fewer to go, and the frames of that step go by before the next run.
The command holds the cursor as long as the tile has not been reached, so it lets go in the run that
reaches it, unless something has been held over from before its first and only run.
-/

namespace TileRoute

variable {α : Type} [Scalar α]

inductive Command.Approaches : Command α → Tile → Prop
  | call (asked : Call α) (x y : Int) (ha : asked.action = .approach)
      (hx : asked.integer 0 = .ok x) (hy : asked.integer 1 = .ok y) :
      Approaches (.call asked) ⟨toCoordinate x, toCoordinate y⟩

theorem Command.Approaches.ne_finish {command : Command α} {goal : Tile}
    (h : command.Approaches goal) : command ≠ .finish := by
  cases h
  exact nofun

namespace Character

variable {w : World α} {b c d : Character α} {r : Route α} {command : Command α} {goal : Tile}
  {n k : Nat}

/-- Only frames have gone by, and none of a swing. -/
structure Idled (c d : Character α) : Prop where
  alike : Alike c d
  steady : d.motion.shake.active = false
  framesPerStep : d.body.framesPerStep = c.body.framesPerStep

theorem Idled.frame (h : Idled c d) : Idled c d.frame :=
  ⟨h.alike.trans (alike_frame d), steady_frame h.steady, (pose_frame d).2.trans h.framesPerStep⟩

theorem idled_ticks (hs : c.motion.shake.active = false) (hk : k ≤ c.busy) :
    Idled c (c.ticks w k).value ∧ (c.ticks w k).value.busy = c.busy - k := by
  induction k with
  | zero => exact ⟨⟨.refl c, hs, rfl⟩, rfl⟩
  | succ k ih =>
    obtain ⟨hidle, hleft⟩ := ih (by omega)
    have hstop : (c.ticks w k).value.stopping = false := by
      rw [← Bool.not_eq_true, stopping_iff hidle.steady]
      omega
    have htick : (c.ticks w (k + 1)).value = (c.ticks w k).value.frame := by
      rw [ticks_succ, value_tick, follow_busy hstop]
      rfl
    rw [htick, busy_frame hidle.steady]
    exact ⟨hidle.frame, by omega⟩

theorem ready_iff_of_steady (hs : c.motion.shake.active = false) (hr : c.playback.route? = some r)
    (hw : c.playback.wait = 0) : c.ready = true ↔ c.busy = 0 := by
  rw [ready_iff, stopping_iff hs]
  exact ⟨fun h => h.1, fun h => ⟨h, Option.isSome_of_eq_some hr, hw⟩⟩

theorem perform_approaches (h : command.Approaches goal) (c : Character α) :
    (c.perform w command).value = c.approach w.grid goal := by
  cases h with
  | call asked x y ha hx hy =>
    simp only [perform, invoke, ha, hx, hy]
    rfl

omit [Scalar α] in
/-- The step of an approach, which holds the cursor unless it ends on the goal. -/
theorem approach_of_step {g : Grid} {way : Direction} (hd : c.body.heading? g goal = some way)
    (hp : c.body.canStep g way = true) :
    c.approach g goal =
      if c.body.position.step way = goal then c.stepIn g way
      else (c.stepIn g way).mapProgress Progress.hold := by
  have hpos : (c.stepIn g way).body.position = c.body.position.step way :=
    (Body.position_step g c.body way).trans (if_pos hp)
  simp only [approach, hd, hpos]

omit [Scalar α] in
theorem busy_stepIn {g : Grid} {way : Direction} (hb : c.busy = 0)
    (hp : c.body.canStep g way = true) : (c.stepIn g way).busy = c.body.framesPerStep := by
  have hm : (c.stepIn g way).body.moveLeft = c.body.framesPerStep :=
    (Body.moveLeft_step g c.body way).trans (if_pos hp)
  have hj : (c.stepIn g way).body.jumpLeft = c.body.jumpLeft := by
    change (c.body.step g way).jumpLeft = _
    unfold Body.step
    split <;> rfl
  have hf : (c.stepIn g way).motion.fade = c.motion.fade := rfl
  unfold busy at hb ⊢
  rw [hm, hj, hf]
  omega

/-- The command under the cursor is about to run, and approaches a goal that is so many steps away
and within the limit. -/
structure Nearing (w : World α) (r : Route α) (command : Command α) (goal : Tile) (n : Nat)
    (c : Character α) : Prop where
  ready : c.ready = true
  route? : c.playback.route? = some r
  command? : r.command? c.playback.cursor = some command
  signal : c.motion.progress.signal ≠ .abort
  inside : w.grid.contains c.body.position = true
  away : w.grid.Away c.body.position n goal
  within : n ≤ c.body.searchLimit

def Steps (w : World α) (c : Character α) : Prop :=
  ∃ way, c.body.canStep w.grid way = true ∧
    (c.tick w).value.body.position = c.body.position.step way

section Run

variable (ha : command.Approaches goal) (hg : w.grid.Sound) (hmax : n + 1 < maxCount)
  (h : Nearing w r command goal (n + 1) c)

include ha hg hmax h

/-- A run of the command makes a step, after which one fewer is left. -/
theorem Nearing.steps :
    ∃ way, c.body.canStep w.grid way = true ∧
      (c.tick w).value.body.position = c.body.position.step way ∧
        w.grid.Away (c.body.position.step way) n goal ∧
          (c.attempt.perform w command).value =
            if c.body.position.step way = goal then c.attempt.stepIn w.grid way
            else (c.attempt.stepIn w.grid way).mapProgress Progress.hold := by
  obtain ⟨way, hd, hp, haway⟩ := h.away.step hg h.inside h.within hmax
  have hperform := (perform_approaches (w := w) ha c.attempt).trans
    (approach_of_step (c := c.attempt) hd hp)
  have hbody : (c.attempt.perform w command).value.body = c.body.step w.grid way := by
    rw [hperform]
    split <;> rfl
  have hpos := (body_tick_of_ready (w := w) h.ready h.route? h.command? ha.ne_finish).1
  have hstep : (c.body.step w.grid way).position = c.body.position.step way :=
    (Body.position_step _ _ _).trans (if_pos hp)
  rw [hbody, hstep] at hpos
  exact ⟨way, hp, hpos, haway, hperform⟩

end Run

omit [Scalar α] in
theorem framesPerStep_step (g : Grid) (b : Body α) (way : Direction) :
    (b.step g way).framesPerStep = b.framesPerStep := by
  unfold Body.step
  split <;> rfl

/-- A step has been made whose command holds the cursor, and the first of its frames is over. -/
structure Strode (c d : Character α) : Prop where
  place : SamePlace c d
  signal : d.motion.progress.signal = .advance
  steady : d.motion.shake.active = false
  wait : d.playback.wait = 0
  busy : d.busy = c.body.framesPerStep - 1
  framesPerStep : d.body.framesPerStep = c.body.framesPerStep
  searchLimit : d.body.searchLimit = c.body.searchLimit

theorem strode_tick {way : Direction} (hab : c.motion.progress.signal ≠ .abort)
    (hready : c.ready = true) (hr : c.playback.route? = some r)
    (hc : r.command? c.playback.cursor = some command) (hf : command ≠ .finish)
    (hp : c.body.canStep w.grid way = true)
    (hperform : (c.attempt.perform w command).value =
      (c.attempt.stepIn w.grid way).mapProgress Progress.hold) :
    Strode c (c.tick w).value := by
  obtain ⟨hstop, -, hwait⟩ := ready_iff.mp hready
  have hsteady := steady_of_stopping hstop
  have hhold : (c.attempt.perform w command).value.motion.progress.signal = .hold := by
    rw [hperform]
    exact signal_hold (p := c.motion.progress) hab
  have hlets : ¬ (c.attempt.perform w command).value.LetsGo r := fun hl => by
    cases hhold.symm.trans hl.signal
  obtain ⟨hsame, hprogress⟩ := tick_of_holdsOn hab hready hr hc hf hlets
  have htick : (c.tick w).value =
      (((c.attempt.stepIn w.grid way).mapProgress Progress.hold).mapProgress
        Progress.take).frame := by
    rw [value_tick, follow_of_ready hready hr hc hf, Logged.value_bind, advance_of_hold hhold,
      hperform]
    rfl
  have hbusy := busy_stepIn (c := c.attempt) ((stopping_iff hsteady).mp hstop) hp
  refine ⟨hsame, congrArg Progress.signal hprogress, ?_, ?_, ?_, ?_, ?_⟩ <;> rw [htick]
  · exact steady_frame hsteady
  · rw [playback_frame]
    exact hwait
  · exact (busy_frame (by exact hsteady)).trans (congrArg (· - 1) hbusy)
  · exact (pose_frame _).2.trans (framesPerStep_step w.grid c.body way)
  · exact (alike_frame _).searchLimit.trans (Body.searchLimit_step w.grid c.body way)

/-- From one run of the command to the next: nothing runs in between, and the cursor stays. -/
structure Round (w : World α) (c : Character α) (period : Nat) : Prop where
  waits : ∀ k, 0 < k → k < period → (c.ticks w k).value.ready = false
  stays : ∀ k ≤ period, SamePlace c (c.ticks w k).value

/-- The frames of a step go by, one with each tick, and then the command runs again. -/
theorem Strode.round (hr : c.playback.route? = some r) (h : Strode c (c.tick w).value) :
    Round w c (max 1 c.body.framesPerStep) ∧
      Idled (c.tick w).value (c.ticks w (max 1 c.body.framesPerStep)).value ∧
        (c.ticks w (max 1 c.body.framesPerStep)).value.ready = true := by
  have hperiod : max 1 c.body.framesPerStep = c.body.framesPerStep - 1 + 1 := by omega
  have hidle : ∀ k ≤ c.body.framesPerStep - 1,
      Idled (c.tick w).value (c.ticks w (k + 1)).value ∧
        ((c.ticks w (k + 1)).value.ready = true ↔ k = c.body.framesPerStep - 1) := by
    intro k hk
    obtain ⟨hi, hb⟩ := idled_ticks (w := w) h.steady (k := k) (by rw [h.busy]; exact hk)
    have hroute : ((c.tick w).value.ticks w k).value.playback.route? = some r :=
      (congrArg Playback.route? hi.alike.playback).trans (h.place.route?.trans hr)
    have hwait : ((c.tick w).value.ticks w k).value.playback.wait = 0 :=
      (congrArg Playback.wait hi.alike.playback).trans h.wait
    refine ⟨hi, (ready_iff_of_steady hi.steady hroute hwait).trans ?_⟩
    rw [hb, h.busy]
    omega
  rw [hperiod]
  obtain ⟨hlast, hready⟩ := hidle _ (Nat.le_refl _)
  refine ⟨⟨fun k hpos hlt => ?_, fun k hle => ?_⟩, hlast, hready.mpr rfl⟩
  · obtain ⟨j, rfl⟩ := Nat.exists_eq_succ_of_ne_zero (Nat.ne_of_gt hpos)
    rw [← Bool.not_eq_true, (hidle j (by omega)).2]
    omega
  · cases k with
    | zero => exact .refl c
    | succ j => exact h.place.trans (hidle j (by omega)).1.alike.samePlace

theorem Nearing.round (ha : command.Approaches goal) (hg : w.grid.Sound) (hmax : n + 2 < maxCount)
    (h : Nearing w r command goal (n + 2) c) :
    Steps w c ∧ Round w c (max 1 c.body.framesPerStep) ∧
      Nearing w r command goal (n + 1) (c.ticks w (max 1 c.body.framesPerStep)).value ∧
        (c.ticks w (max 1 c.body.framesPerStep)).value.motion.progress.signal = .advance ∧
          (c.ticks w (max 1 c.body.framesPerStep)).value.body.framesPerStep =
            c.body.framesPerStep := by
  obtain ⟨way, hp, hpos, haway, hperform⟩ := h.steps ha hg hmax
  rw [if_neg haway.ne] at hperform
  have hstrode := strode_tick h.signal h.ready h.route? h.command? ha.ne_finish hp hperform
  obtain ⟨hround, hidle, hready⟩ := hstrode.round h.route?
  have hplace := hround.stays _ (Nat.le_refl _)
  have hstand := hidle.alike.position.trans hpos
  have hsignal := (congrArg Progress.signal hidle.alike.progress).trans hstrode.signal
  refine ⟨⟨way, hp, hpos⟩, hround, ?_, hsignal, hidle.framesPerStep.trans hstrode.framesPerStep⟩
  refine
    { ready := hready
      route? := hplace.route?.trans h.route?
      command? := by rw [hplace.cursor]; exact h.command?
      signal := by rw [hsignal]; decide
      inside := by rw [hstand]; exact Grid.passable_contains hp
      away := by rw [hstand]; exact haway
      within := ?_ }
  rw [hidle.alike.searchLimit, hstrode.searchLimit]
  exact Nat.le_of_succ_le h.within

/-- The command runs in one tick of every period until it has made as many steps as the goal is
away, and in its last run, which is the first one if there is no step to make, it comes to stand on
the goal and lets go of the cursor. -/
structure ArrivesOnTime (w : World α) (c : Character α) (r : Route α) (goal : Tile)
    (n period : Nat) : Prop where
  runs : ∀ k ≤ (max 1 n - 1) * period, (c.ticks w k).value.ready = true ↔ period ∣ k
  stays : ∀ k ≤ (max 1 n - 1) * period, SamePlace c (c.ticks w k).value
  steps : ∀ j < n, Steps w (c.ticks w (j * period)).value
  goal : (c.ticks w ((max 1 n - 1) * period + 1)).value.body.position = goal
  leaves : SameRoute c (c.ticks w ((max 1 n - 1) * period + 1)).value ∧
    (c.ticks w ((max 1 n - 1) * period + 1)).value.playback.cursor =
      nextCursor r c.playback.cursor

/-- What the last run of the command does, apart from the cursor. -/
theorem Nearing.last (ha : command.Approaches goal) (hg : w.grid.Sound) (hn : n ≤ 1)
    (h : Nearing w r command goal n c) :
    (c.attempt.perform w command).value.motion.progress = c.motion.progress ∧
      (c.attempt.perform w command).value.playback.stepped = true ∧
        (c.tick w).value.body.position = goal ∧ (n = 1 → Steps w c) := by
  cases n with
  | zero =>
    have hstand := Grid.away_zero_iff.mp h.away
    have hnone : c.attempt.body.heading? w.grid goal = none := by
      change w.grid.heading? c.body.position goal _ = none
      unfold Grid.heading?
      rw [if_pos hstand]
    have hperform : (c.attempt.perform w command).value = c.attempt := by
      rw [perform_approaches ha, approach, hnone]
    have hpos := (body_tick_of_ready (w := w) h.ready h.route? h.command? ha.ne_finish).1
    rw [hperform] at hpos ⊢
    exact ⟨rfl, rfl, hpos.trans hstand, fun hone => absurd hone Nat.zero_ne_one⟩
  | succ m =>
    obtain rfl : m = 0 := by omega
    obtain ⟨way, hp, hpos, haway, hperform⟩ := h.steps ha hg (by decide)
    have hgoal := Grid.away_zero_iff.mp haway
    rw [if_pos hgoal] at hperform
    rw [hperform]
    exact ⟨rfl, hp, hpos.trans hgoal, fun _ => ⟨way, hp, hpos⟩⟩

theorem Nearing.arrives_at_once (ha : command.Approaches goal) (hg : w.grid.Sound) (hn : n ≤ 1)
    (period : Nat) (h : Nearing w r command goal n c) :
    ArrivesOnTime w c r goal n period ↔
      c.motion.progress.signal = .advance ∨
        nextCursor r c.playback.cursor = c.playback.cursor := by
  obtain ⟨hm, hstep, hgoal, hsteps⟩ := h.last ha hg hn
  have hl : (c.attempt.perform w command).value.LetsGo r ↔
      c.motion.progress.signal = .advance := by
    rw [← hm]
    exact ⟨fun hl => hl.signal, fun hs => ⟨hs, by rw [hstep, Bool.true_or]⟩⟩
  have hone : (max 1 n - 1) * period = 0 := by
    have hz : max 1 n - 1 = 0 := by omega
    rw [hz, Nat.zero_mul]
  -- Apart from the cursor everything is as it has to be in any case.
  have harrives : SameRoute c (c.tick w).value ∧
      (c.tick w).value.playback.cursor = nextCursor r c.playback.cursor →
        ArrivesOnTime w c r goal n period := by
    intro hleaves
    refine { runs := ?runs, stays := ?stays, steps := ?steps, goal := ?goal, leaves := ?leaves }
    case runs =>
      intro k hk
      obtain rfl : k = 0 := by omega
      exact ⟨fun _ => Nat.dvd_zero _, fun _ => h.ready⟩
    case stays =>
      intro k hk
      obtain rfl : k = 0 := by omega
      exact .refl c
    case steps =>
      intro j hj
      obtain rfl : j = 0 := by omega
      rw [Nat.zero_mul]
      exact hsteps (by omega)
    case goal =>
      rw [hone]
      exact hgoal
    case leaves =>
      rw [hone]
      exact hleaves
  by_cases hs : c.motion.progress.signal = .advance
  · obtain ⟨hsame, hcursor, -⟩ :=
      tick_of_letsGo h.ready h.route? h.command? ha.ne_finish (hl.mpr hs)
    exact ⟨fun _ => .inl hs, fun _ => harrives ⟨hsame, hcursor⟩⟩
  · have hplace := (tick_of_holdsOn h.signal h.ready h.route? h.command? ha.ne_finish
      fun hgo => hs (hl.mp hgo)).1
    refine ⟨fun harr => .inr ?_, fun hor => ?_⟩
    · have hleft := harr.leaves.2
      rw [hone] at hleft
      exact hleft.symm.trans hplace.cursor
    · exact harrives ⟨hplace.sameRoute, hplace.cursor.trans (hor.resolve_left hs).symm⟩

/-- A round before an approach that arrives on time makes one that is longer by a step. -/
theorem ArrivesOnTime.after {period : Nat} (hready : c.ready = true) (hstep : Steps w c)
    (hround : Round w c period)
    (h : ArrivesOnTime w (c.ticks w period).value r goal (n + 1) period) :
    ArrivesOnTime w c r goal (n + 2) period := by
  have hplace := hround.stays period (Nat.le_refl _)
  have hshort : (max 1 (n + 1) - 1) * period = n * period := by
    have hn : max 1 (n + 1) - 1 = n := by omega
    rw [hn]
  have hlong : (max 1 (n + 2) - 1) * period = period + n * period := by
    have hn : max 1 (n + 2) - 1 = n + 1 := by omega
    rw [hn, Nat.succ_mul, Nat.add_comm]
  obtain ⟨hruns, hstays, hsteps, hgoal, hleaves⟩ := h
  rw [hshort] at hruns hstays hgoal hleaves
  rw [← value_ticks_add, ← Nat.add_assoc, ← hlong] at hgoal hleaves
  refine { runs := ?runs, stays := ?stays, steps := ?steps, goal := hgoal, leaves := ?leaves }
  case runs =>
    intro k hk
    rw [hlong] at hk
    rcases Nat.lt_or_ge k period with hlt | hge
    · rcases Nat.eq_zero_or_pos k with rfl | hk0
      · exact ⟨fun _ => Nat.dvd_zero _, fun _ => hready⟩
      · rw [hround.waits k hk0 hlt]
        exact ⟨nofun, fun hd => absurd (Nat.le_of_dvd hk0 hd) (Nat.not_le.mpr hlt)⟩
    · obtain ⟨j, rfl⟩ := Nat.exists_eq_add_of_le hge
      rw [value_ticks_add, hruns j (by omega)]
      exact (Nat.dvd_add_right (Nat.dvd_refl period)).symm
  case stays =>
    intro k hk
    rw [hlong] at hk
    rcases Nat.le_total k period with hle | hge
    · exact hround.stays k hle
    · obtain ⟨j, rfl⟩ := Nat.exists_eq_add_of_le hge
      rw [value_ticks_add]
      exact hplace.trans (hstays j (by omega))
  case steps =>
    intro j hj
    cases j with
    | zero =>
      rw [Nat.zero_mul]
      exact hstep
    | succ j =>
      rw [Nat.succ_mul, Nat.add_comm, value_ticks_add]
      exact hsteps j (by omega)
  case leaves =>
    obtain ⟨hr, hf, hs⟩ := hleaves.1
    rw [hleaves.2, hplace.cursor]
    exact ⟨⟨hr.trans hplace.route?, hf.trans hplace.forcing, hs.trans hplace.saved?⟩, rfl⟩

theorem Nearing.arrives (ha : command.Approaches goal) (hg : w.grid.Sound)
    (hmax : n + 1 < maxCount) (h : Nearing w r command goal (n + 1) c)
    (hs : n = 0 → c.motion.progress.signal = .advance) :
    ArrivesOnTime w c r goal (n + 1) (max 1 c.body.framesPerStep) := by
  -- On the steps that are left: a round makes one of them, and leaves nothing held over.
  induction n generalizing c with
  | zero => exact (h.arrives_at_once ha hg (Nat.le_refl 1) _).mpr (.inl (hs rfl))
  | succ n ih =>
    obtain ⟨hstep, hround, hnext, hsignal, hframes⟩ := h.round ha hg hmax
    have hrest := ih (by omega) hnext fun _ => hsignal
    rw [hframes] at hrest
    exact .after h.ready hstep hround hrest

/-- The approach of a tile within the search limit arrives on time, exactly if nothing is held over
when it begins, or if it takes more than one run, or if the cursor comes back to the command. The
distance is below the number at which the lengths of walks are cut off. -/
theorem arrives_on_time_iff (h : Reachable c) (hready : c.ready = true)
    (hr : c.playback.route? = some r) (hc : r.command? c.playback.cursor = some command)
    (ha : command.Approaches goal) (hg : w.grid.Sound)
    (hin : w.grid.contains c.body.position = true) (hd : w.grid.Away c.body.position n goal)
    (hl : n ≤ c.body.searchLimit) (hmax : n < maxCount) :
    ArrivesOnTime w c r goal n (max 1 c.body.framesPerStep) ↔
      c.motion.progress.signal = .advance ∨ 2 ≤ n ∨
        nextCursor r c.playback.cursor = c.playback.cursor := by
  have hn : Nearing w r command goal n c := ⟨hready, hr, hc, h.signal_ne_abort, hin, hd, hl⟩
  rcases Nat.lt_or_ge n 2 with hlt | hge
  · rw [hn.arrives_at_once ha hg (Nat.le_of_lt_succ hlt)]
    have hfew : ¬ 2 ≤ n := Nat.not_le.mpr hlt
    exact ⟨fun hor => hor.imp_right .inr, fun hor => hor.imp_right (·.resolve_left hfew)⟩
  · obtain ⟨m, rfl⟩ := Nat.exists_eq_add_of_le' hge
    exact ⟨fun _ => .inr (.inl hge), fun _ => hn.arrives ha hg hmax nofun⟩

def mission (script : String) : Route Float := { commands := [.script script, .turn .up] }

def scout : Character Float :=
  ((placed "scout" (Body.standing ⟨0, 0⟩ 4 12) passage.settings).run passage
    [.install (some (mission "TOWARD_TARGET 3 0"))]).value

theorem arrives_on_time_iff_scout :
    Reachable scout ∧ scout.ready = true ∧
      (Command.call ⟨.approach, [.number 3, .number 0]⟩ : Command Float).Approaches ⟨3, 0⟩ ∧
        passage.grid.Sound ∧ passage.grid.contains scout.body.position = true ∧
          passage.grid.Away scout.body.position 3 ⟨3, 0⟩ ∧ 3 ≤ scout.body.searchLimit ∧
            ArrivesOnTime passage scout ((mission "TOWARD_TARGET 3 0").compile passage.lexicon)
              ⟨3, 0⟩ 3 4 := by
  have h : Reachable scout := (Reachable.placed _ _ _).run passage _
  have hready : scout.ready = true := by decide +kernel
  have hr : scout.playback.route? =
      some ((mission "TOWARD_TARGET 3 0").compile passage.lexicon) := by decide +kernel
  have hc : ((mission "TOWARD_TARGET 3 0").compile passage.lexicon).command?
      scout.playback.cursor = some (.call ⟨.approach, [.number 3, .number 0]⟩) := by
    decide +kernel
  have ha : (Command.call ⟨.approach, [.number 3, .number 0]⟩ : Command Float).Approaches
      ⟨3, 0⟩ := by
    have hx : (Scalar.exact (3 : Float)).truncate = 3 := by decide +kernel
    have hy : (Scalar.exact (0 : Float)).truncate = 0 := by decide +kernel
    exact .call _ 3 0 rfl (congrArg Except.ok hx) (congrArg Except.ok hy)
  have hin : passage.grid.contains scout.body.position = true := by decide +kernel
  have hwalk : passage.grid.Walk scout.body.position 3 ⟨3, 0⟩ :=
    ((Grid.Walk.stay.step .right (by decide +kernel)).step .right (by decide +kernel)).step .right
      (by decide +kernel)
  have hd := hwalk.away (by decide +kernel)
  have hl : 3 ≤ scout.body.searchLimit := by decide +kernel
  have hs : scout.motion.progress.signal = .advance := by decide +kernel
  exact ⟨h, hready, ha, ⟨rfl⟩, hin, hd, hl,
    (arrives_on_time_iff h hready hr hc ha ⟨rfl⟩ hin hd hl (by decide)).mpr (.inl hs)⟩

/-- A scout with one step to make who has been asked for a step that is blocked. -/
def jostled : Character Float :=
  ((placed "scout" (Body.standing ⟨0, 0⟩ 0 12) passage.settings).run passage
    [.install (some (mission "TOWARD_TARGET 1 0")), .request (.walk .left 1)]).value

/-- The scout comes to stand on its goal, and runs the command once more: it has taken the hold of
the blocked step for its own. -/
theorem approach_runs_twice :
    Reachable jostled ∧ jostled.ready = true ∧
      jostled.playback.command? = some (.call ⟨.approach, [.number 1, .number 0]⟩) ∧
        passage.grid.Away jostled.body.position 1 ⟨1, 0⟩ ∧ 1 ≤ jostled.body.searchLimit ∧
          (jostled.tick passage).value.body.position = ⟨1, 0⟩ ∧
            (jostled.tick passage).value.playback.cursor = jostled.playback.cursor ∧
              (jostled.ticks passage 2).value.playback.command? = some (.turn .up) := by
  have hwalk : passage.grid.Walk jostled.body.position 1 ⟨1, 0⟩ :=
    Grid.Walk.stay.step .right (by decide +kernel)
  exact ⟨(Reachable.placed _ _ _).run passage _, by decide +kernel, by decide +kernel,
    hwalk.away (by decide +kernel), by decide +kernel⟩

end Character

end TileRoute
