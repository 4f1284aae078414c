import TileRoute.Proofs.Character.Delay

/-!
# Characters that differ in their effects

Two characters are alike if they agree in all that a command of a route reads or sets. How long
their steps take, how opaque they are and which effects are going on may differ, and so may the
sizes in the settings of their worlds. A command does the same to both, a frame does nothing to
either, and a tick in which no command is due only brings the next one nearer.
-/

namespace TileRoute

variable {α : Type}

/-- The worlds differ in their settings at most. -/
structure SameScene (w v : World α) : Prop where
  grid : v.grid = w.grid
  roster : v.roster = w.roster
  lexicon : v.lexicon = w.lexicon

theorem SameScene.symm {w v : World α} (h : SameScene w v) : SameScene v w :=
  ⟨h.grid.symm, h.roster.symm, h.lexicon.symm⟩

theorem Body.pose_step (g : Grid) (b : Body α) (d : Direction) :
    (b.step g d).pose =
      { b.pose with
        position := if b.canStep g d then b.position.step d else b.position
        facing := d } := by
  unfold Body.step
  split <;> rfl

namespace Character

structure Alike (c d : Character α) : Prop where
  label : d.label = c.label
  pose : d.body.pose = c.body.pose
  searchLimit : d.body.searchLimit = c.body.searchLimit
  playback : d.playback = c.playback
  progress : d.motion.progress = c.motion.progress
  dice : d.dice = c.dice

variable {b c d : Character α}

theorem Alike.refl (c : Character α) : Alike c c := ⟨rfl, rfl, rfl, rfl, rfl, rfl⟩

theorem Alike.symm (h : Alike c d) : Alike d c :=
  ⟨h.label.symm, h.pose.symm, h.searchLimit.symm, h.playback.symm, h.progress.symm, h.dice.symm⟩

theorem Alike.trans (h : Alike b c) (k : Alike c d) : Alike b d :=
  ⟨k.label.trans h.label, k.pose.trans h.pose, k.searchLimit.trans h.searchLimit,
    k.playback.trans h.playback, k.progress.trans h.progress, k.dice.trans h.dice⟩

theorem Alike.position (h : Alike c d) : d.body.position = c.body.position :=
  congrArg Pose.position h.pose

theorem Alike.canStep (h : Alike c d) (g : Grid) (way : Direction) :
    d.body.canStep g way = c.body.canStep g way := by
  unfold Body.canStep
  rw [h.position]

theorem Alike.mapPlayback (h : Alike c d) (f : Playback α → Playback α) :
    Alike (c.mapPlayback f) (d.mapPlayback f) :=
  { h with playback := congrArg f h.playback }

theorem Alike.mapProgress (h : Alike c d) (f : Progress → Progress) :
    Alike (c.mapProgress f) (d.mapProgress f) :=
  { h with progress := congrArg f h.progress }

theorem Alike.stepIn (h : Alike c d) (g : Grid) (way : Direction) :
    Alike (c.stepIn g way) (d.stepIn g way) := by
  refine { h with pose := ?_, searchLimit := ?_, playback := ?_ }
  · change (d.body.step g way).pose = (c.body.step g way).pose
    rw [Body.pose_step, Body.pose_step, h.canStep, h.position, h.pose]
  · have hs : ∀ x : Body α, (x.step g way).searchLimit = x.searchLimit := by
      intro x
      unfold Body.step
      split <;> rfl
    exact (hs d.body).trans (h.searchLimit.trans (hs c.body).symm)
  · change ({ d.playback with stepped := d.body.canStep g way } : Playback α) =
      { c.playback with stepped := c.body.canStep g way }
    rw [h.canStep, h.playback]

theorem Alike.approach (h : Alike c d) (g : Grid) (goal : Tile) :
    Alike (c.approach g goal) (d.approach g goal) := by
  have hheading : d.body.heading? g goal = c.body.heading? g goal := by
    unfold Body.heading?
    rw [h.position, h.searchLimit]
  unfold Character.approach
  rw [hheading]
  cases c.body.heading? g goal with
  | none => exact h
  | some way =>
    have hstep := h.stepIn g way
    dsimp only
    rw [hstep.position]
    split
    · exact hstep
    · exact hstep.mapProgress Progress.hold

theorem Alike.showPortrait (h : Alike c d) (portrait? : Option Portrait) (x y : Event α) :
    Alike (c.showPortrait portrait? x).value (d.showPortrait portrait? y).value := by
  cases portrait? with
  | none => exact h
  | some p =>
    have hp : (d.body.withPortrait p).pose = (c.body.withPortrait p).pose :=
      congrArg (fun q : Pose => { q with portrait? := some p }) h.pose
    exact { h with pose := hp }

theorem Alike.randomWait (h : Alike c d) {least limit : Int} {e : Character α}
    (hr : c.randomWait least limit = .ok e) :
    ∃ other, d.randomWait least limit = .ok other ∧ Alike e other := by
  obtain ⟨hlt, rfl⟩ := randomWait_eq_ok hr
  unfold Character.randomWait
  rw [if_neg (by omega), h.dice]
  generalize drawWait c.dice least limit = drawn
  exact ⟨_, rfl,
    { h with
      playback := congrArg (fun p : Playback α => { p with wait := drawn.1 }) h.playback
      dice := rfl }⟩

variable [Scalar α] {w v : World α}

theorem Alike.walk (h : Alike c d) (g : Grid) (way : Direction) (count : α) :
    Alike (c.walk g way count) (d.walk g way count) := by
  have hcan := h.canStep g way
  have hinsists : d.playback.insists = c.playback.insists :=
    congrArg Playback.insists h.playback
  have hstep := h.stepIn g way
  have hmoved := hstep.mapProgress Progress.countMove
  unfold Character.walk
  dsimp only
  rw [hcan, hinsists, hmoved.progress]
  split
  · split
    · exact hmoved.mapProgress Progress.hold
    · exact hmoved
  · split
    · exact hstep.mapProgress Progress.hold
    · exact hstep

theorem Alike.startFade (h : Alike c d) {span : α} {ramp : Ramp} {duration : α} {blocks : Bool}
    {done : Logged (Event α) (Character α)}
    (hf : c.startFade span ramp duration blocks = .ok done) (otherSpan : α) :
    ∃ other, d.startFade otherSpan ramp duration blocks = .ok other ∧
      Alike done.value other.value := by
  obtain ⟨hpos, rfl⟩ := startFade_eq_ok hf
  exact ⟨_, if_neg hpos, { h with }⟩

/-- A call that runs for one of two characters that are alike runs for the other. -/
theorem Ran.alike {call : Call α} {done : Logged (Event α) (Character α)} (hr : Ran w c call done)
    (hw : SameScene w v) (h : Alike c d) :
    ∃ other, d.invoke v call = .ok other ∧ Alike done.value other.value := by
  cases hr with
  | walk way count ha hc =>
    refine ⟨pure (d.walk v.grid way _), by simp only [invoke, ha, hc]; rfl, ?_⟩
    rw [hw.grid]
    exact h.walk w.grid way _
  | shake axis power speed duration ha hp hs hd =>
    refine ⟨d.startShake axis power speed (toCoordinate duration), ?_, { h with }⟩
    simp only [invoke, ha, hp, hs, hd]
    rfl
  | fade ramp duration blocks done ha hd hb hf =>
    obtain ⟨other, ho, halike⟩ := h.startFade hf v.settings.opacitySpan
    refine ⟨other, ?_, halike⟩
    simp only [invoke, ha, hd, hb]
    exact ho
  | actorImage id ha hi =>
    refine ⟨d.showActor v.roster id, by simp only [invoke, ha, hi]; rfl, ?_⟩
    rw [hw.roster]
    exact h.showPortrait _ _ _
  | memberImage slot ha hs =>
    refine ⟨d.showMember v.roster slot, by simp only [invoke, ha, hs]; rfl, ?_⟩
    rw [hw.roster]
    exact h.showPortrait _ _ _
  | approach x y ha hx hy =>
    refine ⟨pure (d.approach v.grid _), by simp only [invoke, ha, hx, hy]; rfl, ?_⟩
    rw [hw.grid]
    exact h.approach w.grid _
  | randomWait least limit e ha hl hu hr =>
    obtain ⟨other, ho, halike⟩ := h.randomWait hr
    refine ⟨pure other, ?_, halike⟩
    simp only [invoke, ha, hl, hu]
    change pure <$> d.randomWait least limit = _
    rw [ho]
    rfl

theorem Alike.perform (h : Alike c d) (hw : SameScene w v) (command : Command α) :
    Alike (c.perform w command).value (d.perform v command).value := by
  cases command with
  | finish => exact h
  | step way =>
    change Alike (c.stepIn w.grid way) (d.stepIn v.grid way)
    rw [hw.grid]
    exact h.stepIn w.grid way
  | turn way =>
    have hp : (d.body.face way).pose = (c.body.face way).pose :=
      congrArg (fun q : Pose => { q with facing := way }) h.pose
    exact { h with pose := hp }
  | wait frames => exact h.mapPlayback fun p => { p with wait := frames - 1 }
  | script text => exact h
  | call call =>
    simp only [Character.perform]
    cases hc : c.invoke w call with
    | ok done =>
      obtain ⟨other, hd, ha⟩ := (ran_of_invoke hc).alike hw h
      rw [hd]
      exact ha
    | error e =>
      cases hd : d.invoke v call with
      | error e' => exact h
      | ok other =>
        obtain ⟨done, hdone, -⟩ := (ran_of_invoke hd).alike hw.symm h.symm
        cases hc.symm.trans hdone

omit [Scalar α] in
theorem Alike.play (h : Alike c d) (route? : Option (Route α)) :
    Alike (c.play route?) (d.play route?) :=
  { h with
    playback := congrArg (fun p : Playback α =>
      { p with route? := route?, cursor := 0, forcing := false }) h.playback
    progress := rfl }

omit [Scalar α] in
theorem Alike.finish (h : Alike c d) : Alike c.finish.value d.finish.value := by
  unfold Character.finish
  rw [h.playback]
  split
  · have hs : d.playback.saved? = c.playback.saved? := congrArg Playback.saved? h.playback
    simp only [Character.restore, hs]
    exact (h.play _).mapPlayback fun p =>
      { p with cursor := (c.playback.saved?.getD ⟨none, 0⟩).cursor, saved? := none }
  · exact h.play none

omit [Scalar α] in
theorem Alike.moveCursor (h : Alike c d) : Alike c.moveCursor d.moveCursor := by
  unfold Character.moveCursor
  rw [h.playback]
  split
  · exact h
  · split
    · exact (h.mapPlayback _).mapProgress _
    · exact h

omit [Scalar α] in
theorem Alike.advance (h : Alike c d) : Alike c.advance.value d.advance.value := by
  have htaken := h.mapProgress Progress.take
  unfold Character.advance
  rw [h.progress]
  dsimp only
  split
  · exact htaken
  · exact htaken.finish
  · exact htaken.moveCursor

omit [Scalar α] in
theorem Alike.endRoute (h : Alike c d) (r : Route α) :
    Alike (c.endRoute r).value (d.endRoute r).value := by
  unfold Character.endRoute
  split
  · exact (h.mapPlayback _).mapProgress _
  · exact h.finish

theorem alike_frame (c : Character α) : Alike c c.frame := by
  have ha : c.animate.body.searchLimit = c.body.searchLimit ∧ c.animate.dice = c.dice := by
    unfold animate
    split
    · exact ⟨rfl, rfl⟩
    · split
      · exact ⟨rfl, rfl⟩
      · split <;> exact ⟨rfl, rfl⟩
  have hr : c.frame.body.searchLimit = c.animate.body.searchLimit ∧
      c.frame.dice = c.animate.dice := by
    unfold frame ramp
    dsimp only
    split <;> exact ⟨rfl, rfl⟩
  exact ⟨label_frame c, (pose_frame c).1, hr.1.trans ha.1, playback_frame c, progress_frame c,
    hr.2.trans ha.2⟩

theorem Alike.frame (h : Alike c d) : Alike c.frame d.frame :=
  ((alike_frame c).symm.trans h).trans (alike_frame d)

/-- The next tick takes up a command of the route, or comes to its end: no step, jump or effect
holds the character up, and no wait is left. -/
def ready (c : Character α) : Bool :=
  c.stopping && (c.playback.route?.isSome && c.playback.wait == 0)

def unwaited (c : Character α) : Character α := c.mapPlayback fun p => { p with wait := 0 }

theorem ready_iff {c : Character α} :
    c.ready = true ↔ c.stopping = true ∧ c.playback.route?.isSome ∧ c.playback.wait = 0 := by
  simp only [ready, Bool.and_eq_true, beq_iff_eq]

omit [Scalar α] in
theorem unwaited_of_wait (h : c.playback.wait = 0) : c.unwaited = c := by
  unfold unwaited Character.mapPlayback
  rw [← h]

omit [Scalar α] in
theorem Alike.unwaited (h : Alike c d) : Alike c.unwaited d.unwaited := h.mapPlayback _

theorem Alike.of_unwaited (h : Alike c.unwaited d.unwaited) (hc : c.ready = true)
    (hd : d.ready = true) : Alike c d := by
  rw [unwaited_of_wait (ready_iff.mp hc).2.2, unwaited_of_wait (ready_iff.mp hd).2.2] at h
  exact h

/-- A tick without a command hands on nothing and changes nothing but a wait. -/
theorem tick_unready (w : World α) (h : c.ready = false) :
    Alike c.unwaited (c.tick w).value.unwaited ∧ Event.scripts (c.tick w).events = [] := by
  have hr : ∀ r : Route α, c.stopping = true → c.playback.route? = some r →
      c.playback.wait ≠ 0 := by
    intro r hs hroute hz
    have hc := ready_iff.mpr ⟨hs, Option.isSome_of_eq_some hroute, hz⟩
    cases h.symm.trans hc
  rw [value_tick, events_tick]
  generalize hf : c.follow w = done
  have ht : Turn w c done := hf ▸ turn_follow w c
  cases ht with
  | busy => exact ⟨(alike_frame c).unwaited, rfl⟩
  | free => exact ⟨(alike_frame c).unwaited, rfl⟩
  | waiting =>
    exact ⟨(alike_frame (c.mapPlayback fun p => { p with wait := p.wait - 1 })).unwaited, rfl⟩
  | ending r hs hroute hz => exact absurd hz (hr r hs hroute)
  | running r command hs hroute hz => exact absurd hz (hr r hs hroute)

theorem Alike.tick (h : Alike c d) (hw : SameScene w v) (hc : c.ready = true)
    (hd : d.ready = true) :
    Alike (c.tick w).value (d.tick v).value ∧
      Event.scripts (d.tick v).events = Event.scripts (c.tick w).events := by
  obtain ⟨hstop, hsome, hwait⟩ := ready_iff.mp hc
  have hstop' := (ready_iff.mp hd).1
  have hwait' : d.playback.wait = 0 := (ready_iff.mp hd).2.2
  have hattempt : Alike c.attempt d.attempt := h.mapPlayback _
  rw [value_tick, value_tick, events_tick, events_tick]
  -- The turn of the first character settles that of the second one: the same command is under both
  -- cursors, and neither waits.
  generalize hf : c.follow w = done
  have ht : Turn w c done := hf ▸ turn_follow w c
  cases ht with
  | busy hs => cases hs.symm.trans hstop
  | free hn =>
    rw [hn] at hsome
    cases hsome
  | waiting r _ _ hp => omega
  | ending r _ hroute _ he =>
    rw [← h.playback] at hroute he
    rw [follow_ending hstop' hroute hwait' he, scripts_endRoute, scripts_endRoute]
    exact ⟨(hattempt.endRoute r).frame, rfl⟩
  | running r command _ hroute _ hcommand hne =>
    rw [← h.playback] at hroute hcommand
    rw [follow_running hstop' hroute hwait' hcommand hne]
    refine ⟨(hattempt.perform hw command).advance.frame, ?_⟩
    rw [scripts_run, scripts_run, hattempt.label]

end Character

end TileRoute
