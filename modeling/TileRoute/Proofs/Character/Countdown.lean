import TileRoute.Proofs.Character.Count
import TileRoute.Proofs.Character.Until

/-!
# The countdown to the next command

A swing comes before a jump, a jump before a step, a fade goes on beside all three, and the wait of
a route begins when none of them holds it up any more. So the ticks until the next command are known
in advance, and so is what is left of each counter after some of them. All else that belongs to the
route stays as it is until the tick that takes up the command under the cursor, or the end of the
route. A swing that never comes to rest puts that tick off for ever.
-/

namespace TileRoute

variable {α : Type} [Scalar α]

namespace Shake

/-- The swing comes to rest after so many updates, and not before. -/
structure RestsAfter (s : Shake α) (n : Nat) : Prop where
  rests : (update^[n] s).active = false
  swings : ∀ k < n, (update^[k] s).active = true

theorem RestsAfter.active_iterate {s : Shake α} {n : Nat} (h : s.RestsAfter n) (k : Nat) :
    (update^[k] s).active = decide (k < n) := by
  rcases Nat.lt_or_ge k n with hlt | hge
  · rw [h.swings k hlt, decide_eq_true hlt]
  · obtain ⟨m, rfl⟩ := Nat.exists_eq_add_of_le' hge
    have hfixed := Function.iterate_fixed (update_of_not_active h.rests) m
    rw [Function.iterate_add_apply, hfixed, h.rests, decide_eq_false (Nat.not_lt.mpr hge)]

/-- A swing that is off zero, and whose changes are too small to tell, does not come to rest. -/
theorem active_iterate_of_stalled {s : Shake α} (ho : ¬ Scalar.IsZero s.offset)
    (hc : ∀ back, s.offset + ({ s with back } : Shake α).change = s.offset)
    (hpos : ¬ Scalar.Lt (s.offset * s.offset) Scalar.zero) (k : Nat) :
    (update^[k] s).active = true := by
  have hactive : ∀ back remaining, ({ s with back, remaining } : Shake α).active = true :=
    fun back remaining => decide_eq_true (.inr ho)
  -- Only the direction of the swing and what is left of its duration change.
  have hform : ∃ back remaining, update^[k] s = { s with back, remaining } := by
    induction k with
    | zero => exact ⟨s.back, s.remaining, rfl⟩
    | succ k ih =>
      obtain ⟨back, remaining, hk⟩ := ih
      have hchange : s.offset + ({ s with back, remaining } : Shake α).change = s.offset := hc back
      have hnext : ({ s with back, remaining } : Shake α).nextOffset = s.offset := by
        simp only [nextOffset, arrives, hchange, hpos, and_false, decide_false,
          Bool.false_eq_true, if_false]
      rw [Function.iterate_succ_apply', hk, update, if_pos (hactive back remaining), hnext]
      exact ⟨_, _, rfl⟩
  obtain ⟨back, remaining, hk⟩ := hform
  rw [hk]
  exact hactive back remaining

end Shake

namespace Character

variable {w : World α} {c d : Character α} {r : Route α} {s n : Nat}

theorem left_frame_of_swinging (hs : c.motion.shake.active = true) :
    c.frame.body.jumpLeft = c.body.jumpLeft ∧ c.frame.body.moveLeft = c.body.moveLeft := by
  obtain ⟨hj, hm, -, -⟩ := body_ramp (c.animate.mapBody Body.updateAnimation)
  have ha : c.animate.body.jumpLeft = c.body.jumpLeft ∧
      c.animate.body.moveLeft = c.body.moveLeft := by
    simp only [animate, hs, if_true, and_self]
  exact ⟨hj.trans ha.1, hm.trans ha.2⟩

/-- A frame of the jump if there is one, else of the step. -/
theorem left_frame_of_steady (hs : c.motion.shake.active = false) :
    c.frame.body.jumpLeft = c.body.jumpLeft - 1 ∧
      c.frame.body.moveLeft = c.body.moveLeft - (1 - c.body.jumpLeft) := by
  obtain ⟨hj, hm, -, -⟩ := body_ramp (c.animate.mapBody Body.updateAnimation)
  have ha : c.animate.body.jumpLeft = c.body.jumpLeft - 1 ∧
      c.animate.body.moveLeft = c.body.moveLeft - (1 - c.body.jumpLeft) := by
    simp only [animate, hs, Bool.false_eq_true, if_false]
    split
    · rename_i hjump
      have hp : 0 < c.body.jumpLeft := of_decide_eq_true hjump
      refine ⟨rfl, ?_⟩
      change c.body.moveLeft = _
      omega
    · rename_i hjump
      have hz : ¬ 0 < c.body.jumpLeft := of_decide_eq_false (Bool.not_eq_true _ ▸ hjump)
      split
      · refine ⟨?_, ?_⟩
        · change c.body.jumpLeft = _
          omega
        · change c.body.moveLeft - 1 = _
          omega
      · rename_i hmove
        have hn : ¬ 0 < c.body.moveLeft := of_decide_eq_false (Bool.not_eq_true _ ▸ hmove)
        refine ⟨?_, ?_⟩ <;> omega
  exact ⟨hj.trans ha.1, hm.trans ha.2⟩

theorem fade_frame (c : Character α) :
    c.frame.motion.fade.blocks = c.motion.fade.blocks ∧
      c.frame.motion.fade.remaining = c.motion.fade.remaining - 1 := by
  obtain ⟨hb, hr⟩ := fade_ramp (c.animate.mapBody Body.updateAnimation)
  have hf : (c.animate.mapBody Body.updateAnimation).motion.fade = c.motion.fade :=
    fade_animate c
  rw [hf] at hb hr
  exact ⟨hb, hr⟩

/-- Ticks in which the body or an effect holds the route up, if the swing takes the first `s`. -/
def heldUp (c : Character α) (s : Nat) : Nat :=
  max (s + c.body.jumpLeft + c.body.moveLeft)
    (if c.motion.fade.blocks then c.motion.fade.remaining else 0)

omit [Scalar α] in
theorem le_heldUp (c : Character α) (s : Nat) : s ≤ c.heldUp s := by
  unfold heldUp
  omega

/-- Ticks until the next command. -/
def countdown (c : Character α) (s : Nat) : Nat := c.heldUp s + c.playback.wait

/-- What `n` ticks without a command make of a character: in the first `s` of them it swings, then
come the frames of the jump and those of the step. The fade goes on from the first tick, and the wait
from when nothing else holds the route up. Where the character stands and how it looks, its route and
the cursor, the progress of the command and the dice are the same. -/
structure Elapsed (c : Character α) (s n : Nat) (d : Character α) : Prop where
  alike : Alike c.unwaited d.unwaited
  shake : d.motion.shake = Shake.update^[n] c.motion.shake
  jump : d.body.jumpLeft = c.body.jumpLeft - (n - s)
  move : d.body.moveLeft = c.body.moveLeft - (n - s - c.body.jumpLeft)
  blocks : d.motion.fade.blocks = c.motion.fade.blocks
  fade : d.motion.fade.remaining = c.motion.fade.remaining - n
  wait : d.playback.wait = c.playback.wait - (n - c.heldUp s)

theorem elapsed_zero (c : Character α) (s : Nat) : Elapsed c s 0 c := by
  refine ⟨.refl _, rfl, ?_, ?_, rfl, rfl, ?_⟩ <;> omega

theorem Elapsed.busy (h : Elapsed c s n d) (hsn : s ≤ n) : d.busy = c.heldUp s - n := by
  unfold Character.busy heldUp
  rw [h.jump, h.move, h.blocks, h.fade]
  split <;> omega

/-- The route is held up in the first ticks, and not after them. -/
theorem Elapsed.stopping_iff (h : Elapsed c s n d)
    (hs : d.motion.shake.active = decide (n < s)) : d.stopping = true ↔ c.heldUp s ≤ n := by
  rcases Nat.lt_or_ge n s with hlt | hge
  · rw [decide_eq_true hlt] at hs
    have hle := c.le_heldUp s
    refine ⟨fun hstop => ?_, fun hheld => by omega⟩
    cases hs.symm.trans (steady_of_stopping hstop)
  · rw [decide_eq_false (Nat.not_lt.mpr hge)] at hs
    rw [Character.stopping_iff hs, h.busy hge]
    omega

theorem Elapsed.route? (h : Elapsed c s n d) : d.playback.route? = c.playback.route? :=
  h.alike.samePlace.route?

theorem Elapsed.unready (h : Elapsed c s n d) (hs : d.motion.shake.active = decide (n < s))
    (hn : n < c.countdown s) : d.ready = false := by
  rw [← Bool.not_eq_true, ready_iff]
  rintro ⟨hstop, -, hwait⟩
  have hheld := (h.stopping_iff hs).mp hstop
  rw [h.wait] at hwait
  unfold countdown at hn
  omega

/-- The route part of a tick without a command is a tick of the wait at most. -/
theorem Elapsed.follow (h : Elapsed c s n d) (hs : d.motion.shake.active = decide (n < s))
    (hn : n < c.countdown s) (hr : c.playback.route?.isSome = true) :
    ∃ e, d.follow w = pure e ∧ e.body = d.body ∧ e.motion = d.motion ∧
      e.playback.wait = c.playback.wait - (n + 1 - c.heldUp s) := by
  have hw := h.wait
  have hroute : d.playback.route?.isSome = true := by
    rw [h.route?]
    exact hr
  rcases follow_unready (w := w) (h.unready hs hn) hroute with ⟨hstop, hf⟩ | ⟨hstop, -, hf⟩
  · have hheld : ¬ c.heldUp s ≤ n := fun hle => by
      cases hstop.symm.trans ((h.stopping_iff hs).mpr hle)
    refine ⟨d, hf, rfl, rfl, ?_⟩
    rw [hw]
    omega
  · have hheld := (h.stopping_iff hs).mp hstop
    refine ⟨_, hf, rfl, rfl, ?_⟩
    change d.playback.wait - 1 = _
    rw [hw]
    omega

theorem Elapsed.tick (h : Elapsed c s n d) (hs : d.motion.shake.active = decide (n < s))
    (hn : n < c.countdown s) (hr : c.playback.route?.isSome = true) :
    Elapsed c s (n + 1) (d.tick w).value ∧ (d.tick w).events = [] := by
  obtain ⟨e, hf, hbody, hmotion, hwait⟩ := h.follow (w := w) hs hn hr
  have hvalue : (d.tick w).value = e.frame := by
    rw [value_tick, hf]
    rfl
  have hshake : e.motion.shake.active = decide (n < s) := by
    rw [hmotion]
    exact hs
  -- While it swings neither the jump nor the step gets on.
  have hleft : e.frame.body.jumpLeft = c.body.jumpLeft - (n + 1 - s) ∧
      e.frame.body.moveLeft = c.body.moveLeft - (n + 1 - s - c.body.jumpLeft) := by
    have hj := h.jump
    have hm := h.move
    rcases Nat.lt_or_ge n s with hlt | hge
    · obtain ⟨hej, hem⟩ := left_frame_of_swinging (hshake.trans (decide_eq_true hlt))
      rw [hej, hem, hbody, hj, hm]
      refine ⟨?_, ?_⟩ <;> omega
    · obtain ⟨hej, hem⟩ :=
        left_frame_of_steady (hshake.trans (decide_eq_false (Nat.not_lt.mpr hge)))
      rw [hej, hem, hbody, hj, hm]
      refine ⟨?_, ?_⟩ <;> omega
  obtain ⟨hb, hd⟩ := fade_frame e
  refine ⟨⟨?alike, ?shake, ?jump, ?move, ?blocks, ?fade, ?wait⟩, ?events⟩
  case alike => exact h.alike.trans (tick_unready w (h.unready hs hn)).1
  case shake => rw [hvalue, shake_frame, hmotion, h.shake, Function.iterate_succ_apply']
  case jump => exact hvalue ▸ hleft.1
  case move => exact hvalue ▸ hleft.2
  case blocks => rw [hvalue, hb, hmotion, h.blocks]
  case fade =>
    rw [hvalue, hd, hmotion, h.fade]
    omega
  case wait => rw [hvalue, playback_frame, hwait]
  case events =>
    rw [events_tick, hf]
    rfl

theorem elapsed_ticks (hr : c.playback.route?.isSome = true)
    (hs : ∀ k < n, (Shake.update^[k] c.motion.shake).active = decide (k < s))
    (hn : n ≤ c.countdown s) :
    Elapsed c s n (c.ticks w n).value ∧ (c.ticks w n).events = [] := by
  induction n with
  | zero => exact ⟨elapsed_zero c s, rfl⟩
  | succ n ih =>
    obtain ⟨h, he⟩ := ih (fun k hk => hs k (Nat.lt_succ_of_lt hk)) (by omega)
    have hshake : (c.ticks w n).value.motion.shake.active = decide (n < s) := by
      rw [h.shake]
      exact hs n (Nat.lt_succ_self n)
    obtain ⟨hnext, hquiet⟩ := h.tick (w := w) hshake hn hr
    rw [value_ticks_add, events_ticks_add, he]
    exact ⟨hnext, (List.append_nil _).trans hquiet⟩

/-- The route part of a tick runs the command under the cursor, or comes to the end of the route. -/
inductive TakesUp (w : World α) (r : Route α) (c : Character α) : Prop
  | running (command : Command α) (hc : r.command? c.playback.cursor = some command)
      (hf : command ≠ .finish) (h : c.follow w = c.attempt.perform w command >>= advance)
  | ending (he : r.EndsAt c.playback.cursor) (h : c.follow w = c.attempt.endRoute r)

theorem takesUp_of_ready (hready : c.ready = true) (hr : c.playback.route? = some r) :
    TakesUp w r c := by
  cases hc : r.command? c.playback.cursor with
  | none => exact .ending (.inl hc) (follow_of_ending hready hr (.inl hc))
  | some command =>
    by_cases hf : command = .finish
    · have he : r.EndsAt c.playback.cursor := .inr (hf ▸ hc)
      exact .ending he (follow_of_ending hready hr he)
    · exact .running command hc hf (follow_of_ready hready hr hc hf)

/-- No tick takes up the route before the countdown is at its end, and then the next one does. The
ticks in which the character swings leave the other counters alone. -/
structure CountsDown (w : World α) (r : Route α) (c : Character α) (s : Nat) : Prop where
  elapsed : ∀ n ≤ c.countdown s, Elapsed c s n (c.ticks w n).value ∧ (c.ticks w n).events = []
  frozen : ∀ n ≤ s, (c.ticks w n).value.body.jumpLeft = c.body.jumpLeft ∧
    (c.ticks w n).value.body.moveLeft = c.body.moveLeft ∧
      (c.ticks w n).value.playback.wait = c.playback.wait
  unready : ∀ n < c.countdown s, (c.ticks w n).value.ready = false
  ready : (c.ticks w (c.countdown s)).value.ready = true
  takesUp : TakesUp w r (c.ticks w (c.countdown s)).value

theorem countsDown (hr : c.playback.route? = some r) (hs : c.motion.shake.RestsAfter s) :
    CountsDown w r c s := by
  have hroute : c.playback.route?.isSome = true := Option.isSome_of_eq_some hr
  have hcount : ∀ n ≤ c.countdown s,
      Elapsed c s n (c.ticks w n).value ∧ (c.ticks w n).events = [] :=
    fun n hn => elapsed_ticks hroute (fun k _ => hs.active_iterate k) hn
  have hshake : ∀ n ≤ c.countdown s,
      (c.ticks w n).value.motion.shake.active = decide (n < s) := by
    intro n hn
    rw [(hcount n hn).1.shake]
    exact hs.active_iterate n
  obtain ⟨hlast, -⟩ := hcount _ (Nat.le_refl _)
  have hready : (c.ticks w (c.countdown s)).value.ready = true := by
    refine ready_iff.mpr ⟨?_, ?_, ?_⟩
    · exact (hlast.stopping_iff (hshake _ (Nat.le_refl _))).mpr (Nat.le_add_right _ _)
    · rw [hlast.route?]
      exact hroute
    · rw [hlast.wait, countdown]
      omega
  refine ⟨hcount, fun n hn => ?_, fun n hn => ?_, hready, ?_⟩
  · have hle := c.le_heldUp s
    obtain ⟨h, -⟩ := hcount n (by unfold countdown; omega)
    rw [h.jump, h.move, h.wait]
    refine ⟨?_, ?_, ?_⟩ <;> omega
  · exact (hcount n (Nat.le_of_lt hn)).1.unready (hshake n (Nat.le_of_lt hn)) hn
  · exact takesUp_of_ready hready (hlast.route?.trans hr)

/-- A character that swings for ever never comes to its next command: nothing else of it gets on. -/
theorem swings_for_ever (hr : c.playback.route?.isSome = true)
    (hs : ∀ k, (Shake.update^[k] c.motion.shake).active = true) (n : Nat) :
    Elapsed c n n (c.ticks w n).value ∧ (c.ticks w n).events = [] ∧
      (c.ticks w n).value.ready = false := by
  have hle : n ≤ c.countdown n := Nat.le_trans (c.le_heldUp n) (Nat.le_add_right _ _)
  obtain ⟨h, he⟩ := elapsed_ticks (w := w) (s := n) hr
    (fun k hk => (hs k).trans (decide_eq_true hk).symm) hle
  refine ⟨h, he, ?_⟩
  rw [← Bool.not_eq_true, ready_iff]
  rintro ⟨hstop, -, -⟩
  have hsteady := steady_of_stopping hstop
  rw [h.shake, hs n] at hsteady
  cases hsteady

/-- With a route installed the next command comes when the countdown is over, if the swing comes to
rest at all, and never if it does not. -/
theorem next_command_on_time (w : World α) (hr : c.playback.route? = some r) :
    (∀ s, c.motion.shake.RestsAfter s → CountsDown w r c s) ∧
      ((∀ k, (Shake.update^[k] c.motion.shake).active = true) → ∀ n,
        Elapsed c n n (c.ticks w n).value ∧ (c.ticks w n).events = [] ∧
          (c.ticks w n).value.ready = false) :=
  ⟨fun _ hs => countsDown hr hs, fun hs n => swings_for_ever (Option.isSome_of_eq_some hr) hs n⟩

def ring : World Float where
  grid := ⟨3, 1, .ofList [true, true, true]⟩
  roster := {}
  lexicon := .standard
  settings := Settings.standard

def bow : Route Float := { commands := [.wait 4, .turn .left] }

/-- An acrobat who has to wait before the bow, and is made to step, to jump, to fade and to swing. -/
def acrobat : Character Float :=
  ((placed "acrobat" (Body.standing ⟨0, 0⟩ 2 0) ring.settings).run ring
    [.install (some bow), .tick, .request (.walk .right 1), .request (.body (Body.jump · 2)),
      .request (.fade .vanish 15.5 true), .request (.shake .vertical 5 5 2)]).value

/-- The acrobat is out of balance when the swing is given a new speed, which is none. -/
def dizzy : Character Float := (acrobat.run ring [.tick, .request (.shake .vertical 5 0 9)]).value

theorem next_command_on_time_acrobat :
    acrobat.playback.route? = some (bow.compile ring.lexicon) ∧
      acrobat.motion.shake.RestsAfter 10 ∧ acrobat.countdown 10 = 19 ∧
        CountsDown ring (bow.compile ring.lexicon) acrobat 10 ∧
          (acrobat.ticks ring 19).value.body.facing = .right ∧
            (acrobat.ticks ring 20).value.body.facing = .left ∧
              ∀ n, (dizzy.ticks ring n).value.body.facing = .right := by
  have hr : acrobat.playback.route? = some (bow.compile ring.lexicon) := by decide +kernel
  have hs : acrobat.motion.shake.RestsAfter 10 := ⟨by decide +kernel, by decide +kernel⟩
  have hd : dizzy.playback.route? = some (bow.compile ring.lexicon) := by decide +kernel
  have hdizzy : ∀ k, (Shake.update^[k] dizzy.motion.shake).active = true :=
    Shake.active_iterate_of_stalled (by decide +kernel) (by decide +kernel) (by decide +kernel)
  refine ⟨hr, hs, by decide +kernel, (next_command_on_time ring hr).1 10 hs, by decide +kernel,
    by decide +kernel, fun n => ?_⟩
  have hpose := ((next_command_on_time ring hd).2 hdizzy n).1.alike.pose
  exact (congrArg Pose.facing hpose).trans (by decide +kernel)

end Character

end TileRoute
