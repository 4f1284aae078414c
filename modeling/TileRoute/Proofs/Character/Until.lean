import Mathlib.Logic.Function.Iterate
import TileRoute.Proofs.Character.Alike

/-!
# Until the next command

What holds tick after tick until something else does. A route that is installed gets to run its next
command: first the swing that is going on comes to rest, then the frames of a step or a jump go by
and a fade that blocks, and last the wait of the route. Only a swing can go on for ever.
-/

namespace TileRoute

variable {α : Type} [Scalar α]

namespace Shake

/-- After some ticks the swing is over. -/
def Rests (s : Shake α) : Prop := ∃ n, (update^[n] s).active = false

theorem rests_of_not_active {s : Shake α} (h : s.active = false) : s.Rests := ⟨0, h⟩

theorem Rests.update {s : Shake α} (h : s.Rests) : s.update.Rests := by
  obtain ⟨n, hn⟩ := h
  cases n with
  | zero =>
    have hs : s.active = false := hn
    rw [update_of_not_active hs]
    exact rests_of_not_active hs
  | succ n => exact ⟨n, hn⟩

end Shake

namespace Character

theorem shake_frame (c : Character α) : c.frame.motion.shake = c.motion.shake.update := by
  have hr : c.frame.motion.shake = c.animate.motion.shake := by
    simp only [frame, ramp]
    split <;> rfl
  rw [hr]
  unfold animate
  cases hs : c.motion.shake.active with
  | true => rfl
  | false =>
    rw [Shake.update_of_not_active hs]
    simp only [Bool.false_eq_true, if_false]
    split
    · rfl
    · split <;> rfl

/-- Tick after tick the one holds, until the other does. -/
inductive Until (w : World α) (P Q : Character α → Prop) : Character α → Prop
  | now {c : Character α} (h : Q c) : Until w P Q c
  | tick {c : Character α} (h : P c) (k : Until w P Q (c.tick w).value) : Until w P Q c

variable {w : World α} {P Q R : Character α → Prop} {c : Character α}

theorem Until.trans (h : Until w P Q c) (k : ∀ d, Q d → Until w P R d) : Until w P R c := by
  induction h with
  | now hq => exact k _ hq
  | tick hp _ ih => exact .tick hp ih

theorem Until.mono {P' Q' : Character α → Prop} (h : Until w P Q c) (hp : ∀ d, P d → P' d)
    (hq : ∀ d, Q d → Q' d) : Until w P' Q' c := by
  induction h with
  | now h => exact .now (hq _ h)
  | tick h _ ih => exact .tick (hp _ h) ih

theorem Until.exists (h : Until w P Q c) : ∃ n, Q (c.ticks w n).value := by
  induction h with
  | now h => exact ⟨0, h⟩
  | tick _ _ ih =>
    obtain ⟨n, hn⟩ := ih
    exact ⟨n + 1, hn⟩

theorem Until.of_rank (rank : Character α → Nat)
    (hstep : ∀ d, P d → Until w P (fun e => Q e ∨ P e ∧ rank e < rank d) d) (h : P c) :
    Until w P Q c := by
  induction hn : rank c using Nat.strongRecOn generalizing c with
  | ind n ih =>
    -- Until the other thing holds, or until the rank is lower and the induction goes on.
    refine (hstep c h).trans fun e he => ?_
    rcases he with hq | ⟨hp, hlt⟩
    · exact .now hq
    · exact ih (rank e) (hn ▸ hlt) hp rfl

theorem follow_unready (h : c.ready = false) (hr : c.playback.route?.isSome = true) :
    c.stopping = false ∧ c.follow w = pure c ∨
      c.stopping = true ∧ 0 < c.playback.wait ∧
        c.follow w = pure (c.mapPlayback fun p => { p with wait := p.wait - 1 }) := by
  obtain ⟨r, hroute⟩ := Option.isSome_iff_exists.mp hr
  cases hs : c.stopping with
  | false => exact .inl ⟨rfl, follow_busy hs⟩
  | true =>
    have hw : 0 < c.playback.wait := by
      refine Nat.pos_of_ne_zero fun hz => ?_
      cases h.symm.trans (ready_iff.mpr ⟨hs, hr, hz⟩)
    exact .inr ⟨rfl, hw, follow_waiting hs hroute hw⟩

theorem shake_tick_of_unready (h : c.ready = false) (hr : c.playback.route?.isSome = true) :
    (c.tick w).value.motion.shake = c.motion.shake.update := by
  rw [value_tick, shake_frame]
  rcases follow_unready (w := w) h hr with ⟨-, hf⟩ | ⟨-, -, hf⟩
  · rw [hf]
    rfl
  · rw [hf]
    rfl

/-- Without a swing a tick of waiting brings the next command nearer by one. -/
theorem left_tick_of_unready (h : c.ready = false) (hr : c.playback.route?.isSome = true)
    (hs : c.motion.shake.active = false) :
    (c.tick w).value.busy + (c.tick w).value.playback.wait + 1 = c.busy + c.playback.wait := by
  rw [value_tick, playback_frame]
  rcases follow_unready (w := w) h hr with ⟨hbusy, hf⟩ | ⟨hrest, hw, hf⟩
  · have hpos : c.busy ≠ 0 := fun hz => by
      cases hbusy.symm.trans ((stopping_iff hs).mpr hz)
    rw [hf, Logged.value_pure, busy_frame hs]
    omega
  · have hz : c.busy = 0 := (stopping_iff hs).mp hrest
    rw [hf, Logged.value_pure, busy_frame (c := c.mapPlayback _) hs]
    show c.busy - 1 + (c.playback.wait - 1) + 1 = c.busy + c.playback.wait
    omega

section Waiting

variable (hp : ∀ d, P d → d.ready = false → P (d.tick w).value)
  (hr : ∀ d, P d → d.playback.route?.isSome = true)

include hp hr

theorem until_ready_of_steady (h : P c) (hs : c.motion.shake.active = false) :
    Until w P (fun d => P d ∧ d.ready = true) c := by
  induction hn : c.busy + c.playback.wait generalizing c with
  | zero =>
    have hz : c.busy = 0 := by omega
    have hw : c.playback.wait = 0 := by omega
    exact .now ⟨h, ready_iff.mpr ⟨(stopping_iff hs).mpr hz, hr c h, hw⟩⟩
  | succ n ih =>
    cases hready : c.ready with
    | true => exact .now ⟨h, hready⟩
    | false =>
      have hleft := left_tick_of_unready (w := w) hready (hr c h) hs
      have hsteady : (c.tick w).value.motion.shake.active = false := by
        rw [shake_tick_of_unready hready (hr c h), Shake.update_of_not_active hs]
        exact hs
      exact .tick h (ih (hp c h hready) hsteady (by omega))

theorem until_ready (h : P c) (hs : c.motion.shake.Rests) :
    Until w P (fun d => P d ∧ d.ready = true) c := by
  obtain ⟨n, hn⟩ := hs
  -- A body does not get on with a step or a jump while it swings, so the swing is counted first.
  induction n generalizing c with
  | zero => exact until_ready_of_steady hp hr h hn
  | succ n ih =>
    cases hready : c.ready with
    | true => exact .now ⟨h, hready⟩
    | false =>
      refine .tick h (ih (hp c h hready) ?_)
      rw [shake_tick_of_unready hready (hr c h)]
      exact hn

end Waiting

/-- A command runs, and then the next, each of which comes to the end or lowers a rank that waiting
leaves alone. -/
theorem until_of_commands (rank : Character α → Nat)
    (hwait : ∀ d, P d → d.ready = false → P (d.tick w).value ∧ rank (d.tick w).value = rank d)
    (hroute : ∀ d, P d → d.playback.route?.isSome = true)
    (hrests : ∀ d, P d → d.motion.shake.Rests)
    (hrun : ∀ d, P d → d.ready = true →
      Q (d.tick w).value ∨ P (d.tick w).value ∧ rank (d.tick w).value < rank d)
    (h : P c) : Until w P Q c := by
  refine .of_rank rank (fun d hd => ?_) h
  -- The rank at the next command is still the one from before the ticks of waiting.
  have hkeep : ∀ e, P e ∧ rank e = rank d → e.ready = false →
      P (e.tick w).value ∧ rank (e.tick w).value = rank d := by
    rintro e ⟨he, hrank⟩ hready
    obtain ⟨hp, hsame⟩ := hwait e he hready
    exact ⟨hp, hsame.trans hrank⟩
  have hready := until_ready hkeep (fun e he => hroute e he.1) ⟨hd, rfl⟩ (hrests d hd)
  refine (hready.mono (fun e he => he.1) fun e he => he).trans ?_
  rintro e ⟨⟨he, hrank⟩, hnow⟩
  refine .tick he (.now ?_)
  rcases hrun e he hnow with hq | ⟨hp, hlt⟩
  · exact .inl hq
  · exact .inr ⟨hp, hrank ▸ hlt⟩

end Character

end TileRoute
