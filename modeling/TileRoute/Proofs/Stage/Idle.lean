import TileRoute.Proofs.Stage.Cast

/-!
# Idle stages

A character is idle when it has no route and neither a swing, a fade, a jump nor a step is going on.
All that a tick does to it then is to show the next frame, which no snapshot tells from the last one:
a wait that is left over, a route that is kept aside and a fade that is over but blocks have no part
in a tick without a route. So a run that stops on an idle stage ends as one that goes on to the time
limit.
-/

namespace TileRoute

variable {α : Type} [Scalar α]

namespace Character

theorem idle_iff {c : Character α} :
    c.idle = true ↔
      c.playback.route? = none ∧ c.motion.shake.active = false ∧ c.motion.fade.active = false ∧
        c.body.moving = false ∧ c.body.jumping = false := by
  unfold idle stopping Motion.holdsStop
  simp only [Bool.and_eq_true, Option.isNone_iff_eq_none, Bool.not_eq_true', Bool.or_eq_false_iff,
    Bool.and_eq_false_iff]
  constructor
  · rintro ⟨⟨⟨hr, hs⟩, hf⟩, ⟨hm, hj⟩, -⟩
    exact ⟨hr, hs, hf, hm, hj⟩
  · rintro ⟨hr, hs, hf, hm, hj⟩
    exact ⟨⟨⟨hr, hs⟩, hf⟩, ⟨hm, hj⟩, hs, .inr hf⟩

theorem frame_idle {c : Character α} (h : c.idle = true) :
    c.frame = c.mapBody Body.updateAnimation := by
  obtain ⟨-, hs, hf, hm, hj⟩ := idle_iff.mp h
  have ha : c.animate = c := by
    simp only [animate, hs, hj, hm, Bool.false_eq_true, if_false]
  have hn : c.motion.fade.change? = none := by
    simp only [Fade.change?, hf, Bool.false_eq_true, if_false]
  unfold frame
  rw [ha]
  unfold ramp
  split
  · rename_i change hc
    cases hn.symm.trans hc
  · rfl

/-- A tick of an idle character shows the next frame, and hands on nothing. -/
theorem tick_idle (w : World α) {c : Character α} (h : c.idle = true) :
    c.tick w = pure (c.mapBody Body.updateAnimation) := by
  have hf : c.follow w = pure c := follow_free (idle_iff.mp h).1
  apply Logged.ext_fields
  · rw [value_tick, hf]
    exact frame_idle h
  · rw [events_tick, hf]
    rfl

theorem idle_tick (w : World α) {c : Character α} (h : c.idle = true) :
    (c.tick w).value.idle = true := by
  rw [tick_idle w h]
  exact h

theorem snapshot_tick (settings : Settings α) (w : World α) {c : Character α}
    (h : c.idle = true) : (c.tick w).value.snapshot settings = c.snapshot settings := by
  rw [tick_idle w h]
  rfl

end Character

namespace Stage

/-- The same snapshots can be taken of two stages, and the same lines have been handed on. -/
structure SameView (s t : Stage α) : Prop where
  snapshots : t.snapshots = s.snapshots
  scripts : t.scripts = s.scripts

variable {s t u : Stage α}

theorem SameView.refl (s : Stage α) : SameView s s := ⟨rfl, rfl⟩

theorem SameView.symm (h : SameView s t) : SameView t s := ⟨h.snapshots.symm, h.scripts.symm⟩

theorem SameView.trans (h : SameView s t) (k : SameView t u) : SameView s u :=
  ⟨k.snapshots.trans h.snapshots, k.scripts.trans h.scripts⟩

theorem idle_of_mem (h : s.idle = true) {c : Character α} (hc : c ∈ s.characters) :
    c.idle = true :=
  List.all_eq_true.mp h c hc

theorem idle_tick (h : s.idle = true) : s.tick.value.idle = true := by
  unfold idle
  rw [characters_tick, List.all_map]
  apply List.all_eq_true.mpr
  intro c hc
  exact Character.idle_tick s.world (idle_of_mem h hc)

theorem nextLines_idle (h : s.idle = true) : s.nextLines = [] := by
  rw [nextLines_eq]
  apply List.flatMap_eq_nil_iff.mpr
  intro c hc
  rw [Character.tick_idle s.world (idle_of_mem h hc)]
  rfl

theorem sameView_tick (h : s.idle = true) : SameView s s.tick.value := by
  refine ⟨?_, ?_⟩
  · unfold snapshots
    rw [characters_tick, world_tick, List.map_map]
    apply List.map_congr_left
    intro c hc
    exact Character.snapshot_tick s.world.settings s.world (idle_of_mem h hc)
  · have hl := s.scripts_tick
    rw [nextLines_idle h, List.append_nil] at hl
    exact Array.toList_inj.mp hl

theorem idle_ticks (h : s.idle = true) (n : Nat) :
    (ticks n s).idle = true ∧ SameView s (ticks n s) := by
  induction n with
  | zero => exact ⟨h, .refl s⟩
  | succ n ih =>
    rw [ticks_succ]
    exact ⟨idle_tick ih.1, ih.2.trans (sameView_tick ih.1)⟩

theorem time_ticks (n : Nat) (s : Stage α) : (ticks n s).time = s.time + n := by
  induction n with
  | zero => rfl
  | succ n ih =>
    rw [ticks_succ, time_tick, ih]
    omega

theorem sameView_runOn (interval n : Nat) (s : Stage α) :
    SameView (ticks n s) (runOn interval n s []).1 := by
  -- A run parts from the ticks where the stage is idle; from there on the ticks show nothing new.
  induction n generalizing s with
  | zero => exact .refl s
  | succ n ih =>
    cases hi : s.idle with
    | true =>
      have hr : (runOn interval (n + 1) s []).1 = s := by
        simp only [runOn, hi, if_true]
      rw [hr]
      exact (idle_ticks hi (n + 1)).2.symm
    | false =>
      have hr : (runOn interval (n + 1) s []).1 = (runOn interval n s.tick.value []).1 := by
        simp only [runOn, hi, Bool.false_eq_true, if_false]
        exact runOn_fst interval n s.tick.value _
      rw [hr]
      exact ih s.tick.value

/-- A run that stops early shows what the stage shows when it is ticked up to the time limit, and an
idle stage is idle and shows the same for ever. -/
theorem early_stop_unseen (limit interval : Nat) (s : Stage α) :
    (ticks (limit - s.time) s).time = max s.time limit ∧
      SameView (ticks (limit - s.time) s) (s.run limit interval).value ∧
        (s.idle = true → ∀ n, (ticks n s).idle = true ∧ SameView s (ticks n s)) := by
  refine ⟨?_, ?_, ?_⟩
  · rw [time_ticks]
    omega
  · exact sameView_runOn interval (limit - s.time) s
  · intro hi n
    exact idle_ticks hi n

/-- A dancer who turns round, asks for applause and is done. -/
def recital : Stage Float where
  world :=
    { grid := ⟨1, 1, .ofList [true]⟩
      roster := {}
      lexicon := .standard
      settings := Settings.standard }
  characters :=
    [((Character.placed "dancer" (Body.standing ⟨0, 0⟩ 0 0) Settings.standard).install .standard
      (some { commands := [.turn .up, .script "applause"] })).value]

/-- The run stops long before the limit, and nine ticks show what it shows. -/
theorem early_stop_unseen_recital :
    (recital.run 9 0).value.time = 3 ∧ (ticks 9 recital).time = 9 ∧
      (ticks 9 recital).scripts = #[("dancer", "applause")] ∧
        (ticks 9 recital).snapshots = (recital.run 9 0).value.snapshots := by
  obtain ⟨htime, hview, -⟩ := early_stop_unseen 9 0 recital
  have hscripts : (recital.run 9 0).value.scripts = #[("dancer", "applause")] := by decide +kernel
  refine ⟨by decide +kernel, htime, ?_, ?_⟩
  · exact hview.scripts.symm.trans hscripts
  · exact hview.snapshots.symm

end Stage

end TileRoute
