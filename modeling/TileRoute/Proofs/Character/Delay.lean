import TileRoute.Proofs.Character.Turn

/-!
# Ticks in which a route waits

Between two commands a route waits for the frames of a step or a jump, for the ticks of a fade that
blocks, and for its own wait. A `Stance` is what the next command depends on, and how long it is
until that command runs. Of a stance a tick of waiting changes nothing but that time, by one.
-/

namespace TileRoute

variable {α : Type}

/-- What a body looks like on the map, its frames left out. -/
structure Pose where
  position : Tile
  facing : Direction
  portrait? : Option Portrait
  deriving DecidableEq

def Body.pose (b : Body α) : Pose := ⟨b.position, b.facing, b.portrait?⟩

namespace Character

section Runs

variable [Scalar α]

theorem value_ticks_add (w : World α) (n m : Nat) (c : Character α) :
    (c.ticks w (n + m)).value = ((c.ticks w n).value.ticks w m).value := by
  induction n generalizing c with
  | zero => rw [Nat.zero_add]; rfl
  | succ n ih =>
    rw [Nat.add_right_comm]
    exact ih (c.tick w).value

theorem events_ticks_add (w : World α) (n m : Nat) (c : Character α) :
    (c.ticks w (n + m)).events =
      (c.ticks w n).events ++ ((c.ticks w n).value.ticks w m).events := by
  induction n generalizing c with
  | zero => rw [Nat.zero_add]; rfl
  | succ n ih =>
    rw [Nat.add_right_comm]
    change (c.tick w).events ++ ((c.tick w).value.ticks w (n + m)).events =
      ((c.tick w).events ++ ((c.tick w).value.ticks w n).events) ++ _
    rw [ih, List.append_assoc]
    rfl

/-- So many ticks hand on these script lines and lead to a character of this kind. -/
structure Leads (w : World α) (c : Character α) (n : Nat) (lines : List (String × String))
    (P : Character α → Prop) : Prop where
  value : P (c.ticks w n).value
  scripts : Event.scripts (c.ticks w n).events = lines

variable {w : World α} {c : Character α} {P Q : Character α → Prop}

theorem Leads.stay (h : P c) : Leads w c 0 [] P := ⟨h, rfl⟩

theorem Leads.tick {lines : List (String × String)} (h : P (c.tick w).value)
    (hl : Event.scripts (c.tick w).events = lines) : Leads w c 1 lines P := by
  refine ⟨h, ?_⟩
  change Event.scripts ((c.tick w).events ++ []) = lines
  rw [List.append_nil, hl]

theorem Leads.mono {n : Nat} {lines : List (String × String)} (h : Leads w c n lines P)
    (k : ∀ d, P d → Q d) : Leads w c n lines Q := ⟨k _ h.value, h.scripts⟩

theorem Leads.trans {n m : Nat} {lines more : List (String × String)} (h : Leads w c n lines P)
    (k : ∀ d, P d → Leads w d m more Q) : Leads w c (n + m) (lines ++ more) Q := by
  have hk := k _ h.value
  refine ⟨?_, ?_⟩
  · rw [value_ticks_add]
    exact hk.value
  · rw [events_ticks_add, Event.scripts_append, h.scripts, hk.scripts]

/-- What every tick keeps, without a script line, holds for ever. -/
theorem Leads.forever (h : P c) (k : ∀ d, P d → Leads w d 1 [] P) (n : Nat) :
    Leads w c n [] P := by
  induction n with
  | zero => exact .stay h
  | succ n ih => exact ih.trans k

end Runs

/-- Ticks until neither a step, a jump nor a fade that blocks keeps the route waiting. -/
def busy (c : Character α) : Nat :=
  max (c.body.jumpLeft + c.body.moveLeft)
    (if c.motion.fade.blocks then c.motion.fade.remaining else 0)

section Busy

variable [Scalar α]

theorem stopping_iff {c : Character α} (hs : c.motion.shake.active = false) :
    c.stopping = true ↔ c.busy = 0 := by
  unfold stopping busy Motion.holdsStop Body.moving Body.jumping Fade.active
  rw [hs]
  cases c.motion.fade.blocks <;>
    simp only [Bool.false_and, Bool.true_and, Bool.or_false, Bool.false_or, Bool.not_false,
      Bool.and_true, Bool.and_eq_true, Bool.not_eq_true', decide_eq_false_iff_not, if_true,
      Bool.false_eq_true, if_false] <;> omega

theorem steady_of_stopping {c : Character α} (h : c.stopping = true) :
    c.motion.shake.active = false := by
  unfold stopping Motion.holdsStop at h
  cases hs : c.motion.shake.active with
  | false => rfl
  | true =>
    rw [hs, Bool.true_or, Bool.not_true, Bool.and_false] at h
    cases h

theorem fade_animate (c : Character α) : c.animate.motion.fade = c.motion.fade := by
  simp only [animate]
  split
  · rfl
  · split
    · rfl
    · split <;> rfl

theorem left_animate {c : Character α} (hs : c.motion.shake.active = false) :
    c.animate.body.jumpLeft + c.animate.body.moveLeft =
      c.body.jumpLeft + c.body.moveLeft - 1 := by
  simp only [animate, hs, Bool.false_eq_true, if_false]
  split
  · rename_i hj
    have hp : 0 < c.body.jumpLeft := of_decide_eq_true hj
    change c.body.jumpLeft - 1 + c.body.moveLeft = _
    omega
  · rename_i hj
    have hz : ¬ 0 < c.body.jumpLeft := of_decide_eq_false (Bool.not_eq_true _ ▸ hj)
    split
    · change c.body.jumpLeft + (c.body.moveLeft - 1) = _
      omega
    · rename_i hm
      have hn : ¬ 0 < c.body.moveLeft := of_decide_eq_false (Bool.not_eq_true _ ▸ hm)
      omega

theorem fade_ramp (c : Character α) :
    c.ramp.motion.fade.blocks = c.motion.fade.blocks ∧
      c.ramp.motion.fade.remaining = c.motion.fade.remaining - 1 := by
  simp only [ramp]
  split
  · exact ⟨rfl, rfl⟩
  · rename_i hn
    have hz : ¬ 0 < c.motion.fade.remaining := by
      intro hp
      have ha : c.motion.fade.active = true := decide_eq_true hp
      simp only [Fade.change?, ha, if_true, reduceCtorEq] at hn
    refine ⟨rfl, ?_⟩
    omega

theorem body_ramp (c : Character α) :
    c.ramp.body.jumpLeft = c.body.jumpLeft ∧ c.ramp.body.moveLeft = c.body.moveLeft ∧
      c.ramp.body.pose = c.body.pose ∧ c.ramp.body.framesPerStep = c.body.framesPerStep := by
  simp only [ramp]
  split <;> exact ⟨rfl, rfl, rfl, rfl⟩

theorem body_animate (c : Character α) :
    c.animate.body.pose = c.body.pose ∧
      c.animate.body.framesPerStep = c.body.framesPerStep := by
  simp only [animate]
  split
  · exact ⟨rfl, rfl⟩
  · split
    · exact ⟨rfl, rfl⟩
    · split <;> exact ⟨rfl, rfl⟩

theorem busy_frame {c : Character α} (hs : c.motion.shake.active = false) :
    c.frame.busy = c.busy - 1 := by
  have hl := left_animate hs
  obtain ⟨hj, hm, -, -⟩ := body_ramp (c.animate.mapBody Body.updateAnimation)
  obtain ⟨hb, hr⟩ := fade_ramp (c.animate.mapBody Body.updateAnimation)
  have hbody : (c.animate.mapBody Body.updateAnimation).body.jumpLeft +
      (c.animate.mapBody Body.updateAnimation).body.moveLeft =
        c.animate.body.jumpLeft + c.animate.body.moveLeft := rfl
  have hfade : (c.animate.mapBody Body.updateAnimation).motion.fade = c.motion.fade :=
    fade_animate c
  rw [hfade] at hb hr
  unfold busy frame
  rw [hj, hm, hb, hr, hbody, hl]
  split <;> omega

theorem steady_frame {c : Character α} (hs : c.motion.shake.active = false) :
    c.frame.motion.shake.active = false := by
  have ha : c.animate.motion.shake = c.motion.shake := by
    simp only [animate, hs, Bool.false_eq_true, if_false]
    split
    · rfl
    · split <;> rfl
  have hr : c.frame.motion.shake = c.animate.motion.shake := by
    simp only [frame, ramp]
    split <;> rfl
  rw [hr, ha, hs]

theorem pose_frame (c : Character α) :
    c.frame.body.pose = c.body.pose ∧ c.frame.body.framesPerStep = c.body.framesPerStep := by
  obtain ⟨-, -, hp, hf⟩ := body_ramp (c.animate.mapBody Body.updateAnimation)
  obtain ⟨ha, hg⟩ := body_animate c
  exact ⟨hp.trans ha, hf.trans hg⟩

end Busy

/-- Where a character stands with its route. -/
structure Stance where
  pose : Pose
  cursor : Nat
  progress : Progress
  /-- Ticks in which the body keeps the route waiting. -/
  busy : Nat
  /-- Ticks of the wait after that. -/
  wait : Nat

/-- The next tick runs the command under the cursor. -/
def Stance.ready (pose : Pose) (cursor moves : Nat) : Stance :=
  ⟨pose, cursor, ⟨.advance, moves⟩, 0, 0⟩

/-- The character follows a route of its own and has this stance. No swing is going on. -/
structure Engaged [Scalar α] (r : Route α) (label : String) (framesPerStep : Nat) (s : Stance)
    (c : Character α) : Prop where
  label : c.label = label
  route? : c.playback.route? = some r
  forcing : c.playback.forcing = false
  steady : c.motion.shake.active = false
  framesPerStep : c.body.framesPerStep = framesPerStep
  pose : c.body.pose = s.pose
  cursor : c.playback.cursor = s.cursor
  progress : c.motion.progress = s.progress
  busy : c.busy = s.busy
  wait : c.playback.wait = s.wait

variable [Scalar α] {r : Route α} {label : String} {f : Nat} {s : Stance} {w : World α}
  {c : Character α}

theorem Engaged.stopping_iff (h : Engaged r label f s c) : c.stopping = true ↔ s.busy = 0 := by
  rw [Character.stopping_iff h.steady, h.busy]

theorem Engaged.frame (h : Engaged r label f s c) :
    Engaged r label f { s with busy := s.busy - 1 } c.frame where
  label := (label_frame c).trans h.label
  route? := by rw [playback_frame, h.route?]
  forcing := by rw [playback_frame, h.forcing]
  steady := steady_frame h.steady
  framesPerStep := (pose_frame c).2.trans h.framesPerStep
  pose := (pose_frame c).1.trans h.pose
  cursor := by rw [playback_frame, h.cursor]
  progress := (progress_frame c).trans h.progress
  busy := by rw [busy_frame h.steady, h.busy]
  wait := by rw [playback_frame, h.wait]

theorem Engaged.tick_busy (h : Engaged r label f s c) (hb : 0 < s.busy) :
    Leads w c 1 [] (Engaged r label f { s with busy := s.busy - 1 }) := by
  have hs : c.stopping = false := by
    rw [← Bool.not_eq_true, h.stopping_iff]
    omega
  have hf : c.follow w = pure c := follow_busy hs
  refine .tick ?_ ?_
  · rw [value_tick, hf]
    exact h.frame
  · rw [events_tick, hf]
    rfl

theorem Engaged.tick_wait (h : Engaged r label f s c) (hb : s.busy = 0) (hw : 0 < s.wait) :
    Leads w c 1 [] (Engaged r label f { s with wait := s.wait - 1 }) := by
  have hp : 0 < c.playback.wait := by
    rw [h.wait]
    exact hw
  have hf : c.follow w = pure (c.mapPlayback fun p => { p with wait := p.wait - 1 }) :=
    follow_waiting (h.stopping_iff.mpr hb) h.route? hp
  have hd : Engaged r label f { s with wait := s.wait - 1 }
      (c.mapPlayback fun p => { p with wait := p.wait - 1 }) :=
    { h with wait := congrArg (· - 1) h.wait }
  refine .tick ?_ ?_
  · rw [value_tick, hf]
    have hz : ({ s with wait := s.wait - 1, busy := s.busy - 1 } : Stance) =
        { s with wait := s.wait - 1 } := by rw [hb]
    exact hz ▸ hd.frame
  · rw [events_tick, hf]
    rfl

/-- After the ticks of waiting the next command runs. -/
theorem Engaged.wait_out (h : Engaged r label f s c) :
    Leads w c (s.busy + s.wait) [] (Engaged r label f { s with busy := 0, wait := 0 }) := by
  induction hn : s.busy + s.wait generalizing s c with
  | zero =>
    have hb : s.busy = 0 := by omega
    have hw : s.wait = 0 := by omega
    have hs : ({ s with busy := 0, wait := 0 } : Stance) = s := by
      cases s
      simp only at hb hw
      rw [hb, hw]
    rw [hs]
    exact .stay h
  | succ n ih =>
    rw [Nat.add_comm]
    by_cases hb : 0 < s.busy
    · have hn' : s.busy - 1 + s.wait = n := by omega
      exact (h.tick_busy hb).trans fun d hd => ih (s := { s with busy := s.busy - 1 }) hd hn'
    · have hz : s.busy = 0 := by omega
      have hp : 0 < s.wait := by omega
      have hn' : s.busy + (s.wait - 1) = n := by omega
      exact (h.tick_wait hz hp).trans fun d hd => ih (s := { s with wait := s.wait - 1 }) hd hn'

end Character

end TileRoute
