import TileRoute.Proofs.Character.Command

/-!
# The time of a command

From a stance in which a command runs at once, a character comes after the time of the leg to such a
stance again, behind the command, unless the command was blocked on a route that insists on it.
-/

namespace TileRoute

variable {α : Type} [Scalar α]

namespace Character

variable {r : Route α} {label : String} {f : Nat} {s : Stance} {w : World α} {c : Character α}
  {command : Command α} {p : Pose} {i m : Nat}

/-- The stance behind a leg: at the next command, or still at the same one, which was blocked for
good after so many steps. -/
def Stance.behind (leg : Leg) (skippable : Bool) (i m : Nat) : Stance :=
  if leg.blocked && !skippable then .ready leg.pose i m else .ready leg.pose (i + 1) 0

/-- The steps of a command that are left take the time of their stride. -/
theorem Engaged.run_stride [Counting α] {d : Direction} {left : Nat}
    (h : Engaged r label f (.ready p i m) c) (hr : r.repeats = false)
    (hc : r.command? i = some command) (hd : command.Strides d (m + left)) (hl : 0 < left)
    (hg : w.grid.contains p.position = true) (hroom : m + w.grid.room p.position d < maxCount) :
    ∃ made, Leads w c (w.grid.stride f p d left).ticks []
      (Engaged r label f (.behind (w.grid.stride f p d left) r.skippable i made)) := by
  induction left generalizing p m c with
  | zero => omega
  | succ left ih =>
    cases hp : w.grid.passable (p.position.step d) with
    | false =>
      refine ⟨m, ?_⟩
      have hb := h.run_blocked hr hc hd hp
      rw [Grid.stride_blocked hp]
      unfold Stance.behind
      cases hk : r.skippable with
      | true =>
        rw [hk] at hb
        exact hb
      | false =>
        rw [hk] at hb
        exact hb
    | true =>
      have hstep := Grid.room_step hg hp
      have hfree := h.run_free hr hc hd hp (by omega) (by omega)
      rw [Grid.stride_free hp]
      cases left with
      | zero =>
        rw [if_neg (by omega)] at hfree
        rw [Grid.stride_zero]
        exact ⟨0, hfree⟩
      | succ left =>
        rw [if_pos (by omega)] at hfree
        have hd' : command.Strides d (m + 1 + (left + 1)) := by
          have he : m + 1 + (left + 1) = m + (left + 1 + 1) := by omega
          rw [he]
          exact hd
        obtain ⟨made, hrest⟩ := ih hfree.value hd' (Nat.succ_pos left)
          (Grid.passable_contains hp) (by
            change m + 1 + w.grid.room (p.position.step d) d < maxCount
            omega)
        refine ⟨made, ⟨?_, ?_⟩⟩
        · rw [value_ticks_add]
          exact hrest.value
        · rw [events_ticks_add, Event.scripts_append, hfree.scripts, hrest.scripts]
          rfl

/-- A command that neither steps nor asks for another run takes a tick and what it keeps waiting. -/
theorem Engaged.run_through {q : Pose} {busy wait : Nat}
    (h : Engaged r label f (.ready p i 0) c) (hr : r.repeats = false)
    (hc : r.command? i = some command) (hf : command ≠ .finish)
    (hd : Engaged r label f ⟨q, i, .start, busy, wait⟩ (c.attempt.perform w command).value)
    (hs : (c.attempt.perform w command).value.playback.stepped = true) :
    Leads w c (1 + (busy - 1 + wait)) (command.line?.map fun text => (label, text)).toList
      (Engaged r label f (.ready q (i + 1) 0)) :=
  h.run hc hf (hd.advance_on hr rfl (by rw [hs, Bool.true_or]))

theorem leg_of_error {asked : Call α} {error : CallError α} (h : c.invoke w asked = .error error) :
    asked.leg w f p = .still p := by
  unfold Call.leg
  unfold invoke at h
  cases ha : asked.action with
  | walk d =>
    rw [ha] at h
    cases hn : asked.number? 0 with
    | error e => rfl
    | ok count? =>
      simp only [hn] at h
      cases h
  | fade ramp =>
    rw [ha] at h
    cases hn : asked.number 0 with
    | error e => rfl
    | ok duration =>
      cases hb : asked.truth 1 with
      | error e => rfl
      | ok blocks =>
        cases blocks with
        | false => rfl
        | true =>
          simp only [hn, hb] at h
          by_cases hl : Scalar.Le duration Scalar.zero
          · exact if_pos hl
          · change c.startFade _ _ _ _ = _ at h
            simp only [startFade, hl, if_false] at h
            cases h
  | actorImage =>
    rw [ha] at h
    cases hn : asked.integer 0 with
    | error e => rfl
    | ok id =>
      simp only [hn] at h
      cases h
  | memberImage =>
    rw [ha] at h
    cases hn : asked.integer 0 with
    | error e => rfl
    | ok slot =>
      simp only [hn] at h
      cases h
  | shake axis => rfl
  | approach => rfl
  | randomWait => rfl

theorem Engaged.showPortrait (h : Engaged r label f (.ready p i 0) c) (portrait? : Option Portrait)
    (missing : Event α) :
    Engaged r label f (.ready { p with portrait? := portrait?.or p.portrait? } i 0)
        (c.showPortrait portrait? missing).value ∧
      (c.showPortrait portrait? missing).value.playback.stepped = c.playback.stepped := by
  cases portrait? with
  | none => exact ⟨h, rfl⟩
  | some shown =>
    have hpose : (c.mapBody fun b => b.withPortrait shown).body.pose =
        { p with portrait? := some shown } := by
      have hc : c.body.pose = p := h.pose
      rw [← hc]
      rfl
    exact ⟨{ h with pose := hpose }, rfl⟩

theorem Engaged.lasting [Counting α] (h : Engaged r label f (.ready p i 0) c) {ramp : Ramp}
    {duration span : α} {blocks : Bool} (hl : ¬ Scalar.Le duration Scalar.zero) :
    Engaged r label f
      ⟨p, i, .start, if blocks then (Scalar.exact duration).ceilCount else 0, 0⟩
      { c with motion := { c.motion with fade := Fade.lasting ramp duration span blocks } } := by
  have hz : c.busy = 0 := h.busy
  refine { h with busy := ?_ }
  unfold Character.busy at hz ⊢
  change max (c.body.jumpLeft + c.body.moveLeft)
    (if blocks then Fade.ticks duration else 0) = if blocks then _ else 0
  rw [ticks_of_positive hl]
  omega

/-- A call that has run takes the time of its leg. -/
theorem Engaged.run_call [Counting α] {asked : Call α}
    {done : Logged (Event α) (Character α)}
    (h : Engaged r label f (.ready p i 0) c) (hr : r.repeats = false)
    (hc : r.command? i = some (.call asked)) (hi : c.attempt.invoke w asked = .ok done)
    (hp : (Command.call asked).Plain w) (hg : w.grid.contains p.position = true)
    (hw : w.grid.width ≤ maxCount) (hh : w.grid.height ≤ maxCount) :
    ∃ made, Leads w c (asked.leg w f p).ticks []
      (Engaged r label f (.behind (asked.leg w f p) r.skippable i made)) := by
  have hv : (c.attempt.perform w (.call asked)).value = done.value := by
    simp only [perform, hi]
  have hf : (Command.call asked : Command α) ≠ .finish := fun he => by cases he
  have hthrough : ∀ q busy wait, Engaged r label f ⟨q, i, .start, busy, wait⟩ done.value →
      done.value.playback.stepped = true → Leads w c (1 + (busy - 1 + wait)) []
        (Engaged r label f (.ready q (i + 1) 0)) := by
    intro q busy wait hd hs
    rw [← hv] at hd hs
    exact h.run_through hr hc hf hd hs
  unfold Command.Plain at hp
  cases ran_of_invoke hi with
  | walk d count? ha hcount =>
    have hleg : asked.leg w f p =
        w.grid.stride f p d (stepsOf (count?.getD (Scalar.ofInt 1))) := by
      simp only [Call.leg, ha, hcount]
    have hd : (Command.call asked).Strides d (0 + stepsOf (count?.getD (Scalar.ofInt 1))) := by
      rw [Nat.zero_add]
      exact .walk asked count? ha hcount
    rw [hleg]
    refine h.run_stride hr hc hd (Nat.le_max_left 1 _) hg ?_
    rw [Nat.zero_add]
    exact Grid.room_lt d hg hw hh
  | fade ramp duration blocks done ha hn hb hd =>
    obtain ⟨hl, rfl⟩ := startFade_eq_ok hd
    have hbusy := hthrough p _ 0 (h.attempt.lasting hl) rfl
    cases blocks with
    | false =>
      have hleg : asked.leg w f p = .still p := by
        simp only [Call.leg, ha, hn, hb]
      rw [hleg]
      exact ⟨0, hbusy⟩
    | true =>
      have hleg : asked.leg w f p =
          { ticks := max 1 (Scalar.exact duration).ceilCount, pose := p } := by
        simp only [Call.leg, ha, hn, hb, hl, if_false]
      have ht : 1 + ((Scalar.exact duration).ceilCount - 1 + 0) =
          max 1 (Scalar.exact duration).ceilCount := by omega
      simp only [if_true, ht] at hbusy
      rw [hleg]
      exact ⟨0, hbusy⟩
  | actorImage id ha hn =>
    have hleg : asked.leg w f p =
        .still { p with portrait? := (w.roster.portrait? id).or p.portrait? } := by
      simp only [Call.leg, ha, hn]
    obtain ⟨hs, hstep⟩ := h.attempt.showPortrait (w.roster.portrait? id)
      (.actorImageMissing c.attempt.label id)
    rw [hleg]
    exact ⟨0, hthrough _ 0 0 hs hstep⟩
  | memberImage slot ha hn =>
    have hleg : asked.leg w f p =
        .still { p with portrait? := (w.roster.memberPortrait? slot).or p.portrait? } := by
      simp only [Call.leg, ha, hn]
    obtain ⟨hs, hstep⟩ := h.attempt.showPortrait (w.roster.memberPortrait? slot)
      (.memberImageMissing c.attempt.label slot)
    rw [hleg]
    exact ⟨0, hthrough _ 0 0 hs hstep⟩
  | shake axis power speed duration ha =>
    simp only [ha] at hp
    obtain ⟨error, he⟩ := hp c.attempt
    rw [he] at hi
    cases hi
  | approach x y ha =>
    simp only [ha] at hp
    obtain ⟨error, he⟩ := hp c.attempt
    rw [he] at hi
    cases hi
  | randomWait least limit d ha =>
    simp only [ha] at hp
    obtain ⟨error, he⟩ := hp c.attempt
    rw [he] at hi
    cases hi

/-- A command takes the time of its leg. -/
theorem Engaged.run_leg [Counting α] (h : Engaged r label f (.ready p i 0) c)
    (hr : r.repeats = false) (hc : r.command? i = some command) (hf : command ≠ .finish)
    (hp : command.Plain w) (hg : w.grid.contains p.position = true)
    (hw : w.grid.width ≤ maxCount) (hh : w.grid.height ≤ maxCount) :
    ∃ made, Leads w c (command.leg w f p).ticks
      (command.line?.map fun text => (label, text)).toList
      (Engaged r label f (.behind (command.leg w f p) r.skippable i made)) := by
  cases command with
  | finish => exact absurd rfl hf
  | step d =>
    refine h.run_stride (m := 0) hr hc .step Nat.one_pos hg ?_
    rw [Nat.zero_add]
    exact Grid.room_lt d hg hw hh
  | turn d =>
    have hd : Engaged r label f ⟨{ p with facing := d }, i, .start, 0, 0⟩
        (c.attempt.perform w (.turn d)).value := by
      have hpose : (c.attempt.body.face d).pose = { p with facing := d } := by
        have hcp : c.body.pose = p := h.pose
        rw [← hcp]
        rfl
      exact { h with pose := hpose }
    exact ⟨0, h.run_through hr hc hf hd rfl⟩
  | wait frames =>
    have hd : Engaged r label f ⟨p, i, .start, 0, frames - 1⟩
        (c.attempt.perform w (.wait frames)).value := { h with wait := rfl }
    have ht : 1 + (0 - 1 + (frames - 1)) = max 1 frames := by omega
    have hrun := h.run_through hr hc hf hd rfl
    rw [ht] at hrun
    exact ⟨0, hrun⟩
  | script text => exact ⟨0, h.run_through hr hc hf (w := w) h.attempt rfl⟩
  | call asked =>
    cases hi : c.attempt.invoke w asked with
    | ok done => exact h.run_call hr hc hi hp hg hw hh
    | error error =>
      have hv : (c.attempt.perform w (.call asked)).value = c.attempt := by
        simp only [perform, hi]
      have hd : Engaged r label f ⟨p, i, .start, 0, 0⟩
          (c.attempt.perform w (.call asked)).value := by
        rw [hv]
        exact h.attempt
      have hs : (c.attempt.perform w (.call asked)).value.playback.stepped = true := by
        rw [hv]
        rfl
      change ∃ made, Leads w c (asked.leg w f p).ticks []
        (Engaged r label f (.behind (asked.leg w f p) r.skippable i made))
      rw [leg_of_error hi]
      exact ⟨0, h.run_through hr hc hf hd hs⟩

end Character

end TileRoute
