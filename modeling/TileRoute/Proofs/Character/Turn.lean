import TileRoute.Proofs.Character.Call

/-!
# What a tick can do

The route part of a tick does one of five things: nothing, because the character is not at rest;
nothing, because there is no route; a tick of a wait; the end of the route; or one command. `Turn` is
that list with the conditions of each. The frames after it touch neither the playback nor the dice.
-/

namespace TileRoute

/-- The script line that a command hands on. -/
def Command.line? {α : Type} : Command α → Option String
  | .script text => some text
  | _ => none

namespace Character

variable {α : Type} [Scalar α]

theorem samePlace_perform (w : World α) (c : Character α) (command : Command α) :
    SamePlace c (c.perform w command).value := by
  cases command with
  | call call =>
    simp only [perform]
    cases h : c.invoke w call with
    | ok done => exact (ran_of_invoke h).samePlace
    | error e => exact .refl c
  | finish => exact .refl c
  | step d => exact samePlace_stepIn w.grid c d
  | turn d => exact ⟨rfl, rfl, rfl, rfl, rfl⟩
  | wait frames => exact ⟨rfl, rfl, rfl, rfl, rfl⟩
  | script text => exact .refl c

theorem scripts_perform (w : World α) (c : Character α) (command : Command α) :
    Event.scripts (c.perform w command).events =
      (command.line?.map fun text => (c.label, text)).toList := by
  cases command with
  | call call =>
    simp only [perform]
    cases h : c.invoke w call with
    | ok done => exact (ran_of_invoke h).scripts
    | error e => rfl
  | finish => rfl
  | step d => rfl
  | turn d => rfl
  | wait frames => rfl
  | script text => rfl

omit [Scalar α] in
theorem label_finish (c : Character α) : c.finish.value.label = c.label := by
  simp only [finish]
  split <;> rfl

omit [Scalar α] in
theorem scripts_finish (c : Character α) : Event.scripts c.finish.events = [] := by
  simp only [finish]
  split <;> rfl

omit [Scalar α] in
theorem label_moveCursor (c : Character α) : c.moveCursor.label = c.label := by
  simp only [moveCursor]
  split
  · rfl
  · split <;> rfl

omit [Scalar α] in
theorem insists_of_route {c : Character α} {r : Route α} (hr : c.playback.route? = some r) :
    c.playback.insists = !r.skippable := by
  unfold Playback.insists
  rw [hr, Option.any_some]

omit [Scalar α] in
theorem moveCursor_on {c : Character α} {r : Route α} (hr : c.playback.route? = some r)
    (hg : (c.playback.stepped || r.skippable) = true) :
    c.moveCursor = (c.mapPlayback fun q => { q with cursor := nextCursor r q.cursor }).mapProgress
      Progress.resetMoves := by
  simp only [moveCursor, hr, hg, if_true]

omit [Scalar α] in
theorem moveCursor_again {c : Character α} {r : Route α} (hr : c.playback.route? = some r)
    (hg : (c.playback.stepped || r.skippable) = false) : c.moveCursor = c := by
  simp only [moveCursor, hr, hg, Bool.false_eq_true, if_false]

omit [Scalar α] in
theorem advance_of_hold {c : Character α} (h : c.motion.progress.signal = .hold) :
    c.advance = pure (c.mapProgress Progress.take) := by
  simp only [advance, h]

omit [Scalar α] in
theorem mapProgress_take {c : Character α} (h : c.motion.progress.signal = .advance) :
    c.mapProgress Progress.take = c := by
  unfold mapProgress Progress.take
  rw [← h]

omit [Scalar α] in
theorem advance_of_advance {c : Character α} (h : c.motion.progress.signal = .advance) :
    c.advance = pure c.moveCursor := by
  simp only [advance, h, mapProgress_take h]

omit [Scalar α] in
theorem label_advance (c : Character α) : c.advance.value.label = c.label := by
  simp only [advance]
  split
  · rfl
  · exact label_finish _
  · exact label_moveCursor _

omit [Scalar α] in
theorem scripts_advance (c : Character α) : Event.scripts c.advance.events = [] := by
  simp only [advance]
  split
  · rfl
  · rw [Logged.events_bind, Event.scripts_append, scripts_finish]
    rfl
  · rfl

theorem scripts_run (w : World α) (c : Character α) (command : Command α) :
    Event.scripts (c.perform w command >>= advance).events =
      (command.line?.map fun text => (c.label, text)).toList := by
  rw [Logged.events_bind, Event.scripts_append, scripts_advance, List.append_nil, scripts_perform]

omit [Scalar α] in
theorem label_endRoute (c : Character α) (r : Route α) :
    (c.endRoute r).value.label = c.label := by
  simp only [endRoute]
  split
  · rfl
  · exact label_finish c

omit [Scalar α] in
theorem scripts_endRoute (c : Character α) (r : Route α) :
    Event.scripts (c.endRoute r).events = [] := by
  simp only [endRoute]
  split
  · rfl
  · exact scripts_finish c

/-- The character is about to run a command, which counts as unblocked until a step fails. -/
def attempt (c : Character α) : Character α := c.mapPlayback fun p => { p with stepped := true }

/-- The route part of a tick has this outcome. -/
inductive Turn (w : World α) (c : Character α) : Logged (Event α) (Character α) → Prop
  | busy (hs : c.stopping = false) : Turn w c (pure c)
  | free (hr : c.playback.route? = none) : Turn w c (pure c)
  | waiting (r : Route α) (hs : c.stopping = true) (hr : c.playback.route? = some r)
      (hw : 0 < c.playback.wait) :
      Turn w c (pure (c.mapPlayback fun p => { p with wait := p.wait - 1 }))
  | ending (r : Route α) (hs : c.stopping = true) (hr : c.playback.route? = some r)
      (hw : c.playback.wait = 0)
      (hc : r.command? c.playback.cursor = none ∨ r.command? c.playback.cursor = some .finish) :
      Turn w c (c.attempt.endRoute r)
  | running (r : Route α) (command : Command α) (hs : c.stopping = true)
      (hr : c.playback.route? = some r) (hw : c.playback.wait = 0)
      (hc : r.command? c.playback.cursor = some command) (hf : command ≠ .finish) :
      Turn w c (c.attempt.perform w command >>= advance)

theorem turn_follow (w : World α) (c : Character α) : Turn w c (c.follow w) := by
  simp only [follow]
  split
  · rename_i hs
    cases hr : c.playback.route? with
    | none => exact .free hr
    | some r =>
      simp only [followRoute]
      split
      · rename_i hw
        exact .waiting r hs hr hw
      · rename_i hw
        have hz : c.playback.wait = 0 := by omega
        split
        · rename_i hc
          exact .ending r hs hr hz (.inl hc)
        · rename_i hc
          exact .ending r hs hr hz (.inr hc)
        · rename_i command hf hc
          exact .running r command hs hr hz hc (fun he => hf (by rw [he]))
  · rename_i hs
    exact .busy (by simpa only [Bool.not_eq_true] using hs)

theorem follow_busy {w : World α} {c : Character α} (hs : c.stopping = false) :
    c.follow w = pure c := by
  simp only [follow, hs, Bool.false_eq_true, if_false]

theorem follow_free {w : World α} {c : Character α} (hr : c.playback.route? = none) :
    c.follow w = pure c := by
  simp only [follow, hr]
  split <;> rfl

theorem follow_waiting {w : World α} {c : Character α} {r : Route α} (hs : c.stopping = true)
    (hr : c.playback.route? = some r) (hw : 0 < c.playback.wait) :
    c.follow w = pure (c.mapPlayback fun p => { p with wait := p.wait - 1 }) := by
  simp only [follow, followRoute, hs, hr, hw, if_true]

/-- A command under the cursor runs when the character is at rest and waits no more. -/
theorem follow_running {w : World α} {c : Character α} {r : Route α} {command : Command α}
    (hs : c.stopping = true) (hr : c.playback.route? = some r) (hw : c.playback.wait = 0)
    (hc : r.command? c.playback.cursor = some command) (hf : command ≠ .finish) :
    c.follow w = c.attempt.perform w command >>= advance := by
  generalize hd : c.follow w = done
  have ht : Turn w c done := hd ▸ turn_follow w c
  cases ht with
  | busy hb => cases hs.symm.trans hb
  | free hn => cases hr.symm.trans hn
  | waiting q _ _ hp => omega
  | ending q _ hq _ he =>
    cases hr.symm.trans hq
    rcases he with he | he
    · cases hc.symm.trans he
    · exact absurd (Option.some.inj (hc.symm.trans he)) hf
  | running q other _ hq _ ho =>
    cases hr.symm.trans hq
    cases hc.symm.trans ho
    rfl

theorem follow_ending {w : World α} {c : Character α} {r : Route α} (hs : c.stopping = true)
    (hr : c.playback.route? = some r) (hw : c.playback.wait = 0)
    (hc : r.command? c.playback.cursor = none ∨ r.command? c.playback.cursor = some .finish) :
    c.follow w = c.attempt.endRoute r := by
  generalize hd : c.follow w = done
  have ht : Turn w c done := hd ▸ turn_follow w c
  cases ht with
  | busy hb => cases hs.symm.trans hb
  | free hn => cases hr.symm.trans hn
  | waiting q _ _ hp => omega
  | ending q _ hq =>
    cases hr.symm.trans hq
    rfl
  | running q other _ hq _ ho hf =>
    cases hr.symm.trans hq
    rcases hc with hc | hc
    · cases hc.symm.trans ho
    · exact absurd (Option.some.inj (hc.symm.trans ho)).symm hf

theorem Turn.label {w : World α} {c : Character α} {done : Logged (Event α) (Character α)}
    (h : Turn w c done) : done.value.label = c.label := by
  cases h with
  | busy => rfl
  | free => rfl
  | waiting => rfl
  | ending r => exact label_endRoute c.attempt r
  | running r command =>
    rw [Logged.value_bind, label_advance]
    exact (samePlace_perform w c.attempt command).label

/-- The only script line of a tick is that of the command that it runs. -/
theorem Turn.mem_scripts {w : World α} {c : Character α} {done : Logged (Event α) (Character α)}
    (h : Turn w c done) {line : String × String} (hl : line ∈ Event.scripts done.events) :
    line.1 = c.label := by
  cases h with
  | busy => cases hl
  | free => cases hl
  | waiting => cases hl
  | ending r =>
    rw [scripts_endRoute] at hl
    cases hl
  | running r command =>
    rw [scripts_run] at hl
    simp only [Option.mem_toList, Option.map_eq_some_iff] at hl
    obtain ⟨text, -, rfl⟩ := hl
    rfl

theorem samePlace_animate (c : Character α) : SamePlace c c.animate := by
  simp only [animate]
  split
  · exact ⟨rfl, rfl, rfl, rfl, rfl⟩
  · split
    · exact ⟨rfl, rfl, rfl, rfl, rfl⟩
    · split <;> exact ⟨rfl, rfl, rfl, rfl, rfl⟩

theorem playback_frame (c : Character α) : c.frame.playback = c.playback := by
  have ha : c.animate.playback = c.playback := by
    simp only [animate]
    split
    · rfl
    · split
      · rfl
      · split <;> rfl
  simp only [frame, ramp]
  split <;> exact ha

theorem progress_frame (c : Character α) : c.frame.motion.progress = c.motion.progress := by
  have ha : c.animate.motion.progress = c.motion.progress := by
    simp only [animate]
    split
    · rfl
    · split
      · rfl
      · split <;> rfl
  simp only [frame, ramp]
  split <;> exact ha

theorem label_frame (c : Character α) : c.frame.label = c.label := by
  simp only [frame, ramp]
  split <;> exact (samePlace_animate c).label

theorem label_tick (w : World α) (c : Character α) : (c.tick w).value.label = c.label := by
  rw [value_tick, label_frame]
  exact (turn_follow w c).label

theorem label_ticks (w : World α) (n : Nat) (c : Character α) :
    (c.ticks w n).value.label = c.label := by
  induction n generalizing c with
  | zero => rfl
  | succ n ih => exact (ih (c.tick w).value).trans (label_tick w c)

/-- A character hands on script lines in its own name only. -/
theorem mem_scripts_tick {w : World α} {c : Character α} {line : String × String}
    (h : line ∈ Event.scripts (c.tick w).events) : line.1 = c.label := by
  rw [events_tick] at h
  exact (turn_follow w c).mem_scripts h

end Character

end TileRoute
