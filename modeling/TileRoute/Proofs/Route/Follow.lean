import TileRoute.Proofs.Character.Leg
import TileRoute.Proofs.Number.Binary64

/-!
# Following a route

The ticks of a character that has had a route installed agree with the journey of the route: they
take its time, and lead to its pose. Then the route is gone, or it is stuck at the command that was
blocked, for ever.
-/

namespace TileRoute

variable {α : Type} [Scalar α]

namespace Character

variable {r : Route α} {label : String} {f : Nat} {s : Stance} {w : World α} {c : Character α}
  {command : Command α} {p : Pose} {i m : Nat}

/-- A step that is blocked on a route that insists on it is tried for ever. -/
theorem Engaged.run_obstructed (h : Engaged r label f (.ready p i m) c) (hr : r.repeats = false)
    (hk : r.skippable = false) (hc : r.command? i = some command) (ho : command.Obstructed w p)
    (n : Nat) : Leads w c n [] (Engaged r label f (.ready p i m)) := by
  refine Leads.forever h (fun d hd => ?_) n
  obtain ⟨⟨steps, hs⟩, hp⟩ := ho
  have hb := hd.run_blocked hr hc hs hp
  rw [hk] at hb
  exact hb

/-- The stance behind a journey: at the end of the commands, or at the one that was blocked. -/
def Stance.arrived (j : Journey) (last m : Nat) : Stance :=
  match j.stuck? with
  | none => .ready j.pose last 0
  | some i => .ready j.pose i m

/-- The commands of a route take the time of their journey. -/
theorem Engaged.run_journey [Counting α] {commands : List (Command α)}
    (h : Engaged r label f (.ready p i 0) c) (hr : r.repeats = false)
    (hc : ∀ k command, commands[k]? = some command →
      r.command? (i + k) = some command ∧ command ≠ .finish)
    (hp : ∀ command ∈ commands, command.Plain w) (hg : w.grid.contains p.position = true)
    (hw : w.grid.width ≤ maxCount) (hh : w.grid.height ≤ maxCount) :
    ∃ made, Leads w c (journey w f r.skippable commands p i).ticks
      ((journey w f r.skippable commands p i).texts.map fun text => (label, text))
      (Engaged r label f
        (.arrived (journey w f r.skippable commands p i) (i + commands.length) made)) := by
  induction commands generalizing p i c with
  | nil => exact ⟨0, .stay h⟩
  | cons command rest ih =>
    obtain ⟨hfirst, hf⟩ := hc 0 command rfl
    obtain ⟨made, hleg⟩ := h.run_leg hr hfirst hf (hp command (List.mem_cons_self ..)) hg hw hh
    unfold journey
    cases hb : (command.leg w f p).blocked && !r.skippable with
    | true =>
      refine ⟨made, ?_⟩
      unfold Stance.behind at hleg
      rw [hb] at hleg
      simp only [hb, if_true, ← Option.toList_map]
      exact hleg
    | false =>
      unfold Stance.behind at hleg
      rw [hb] at hleg
      have hnext : ∀ k other, rest[k]? = some other →
          r.command? (i + 1 + k) = some other ∧ other ≠ .finish := by
        intro k other hk
        rw [Nat.add_assoc, Nat.add_comm 1 k]
        exact hc (k + 1) other hk
      obtain ⟨made, hrest⟩ := ih hleg.value hnext
        (fun other ho => hp other (List.mem_cons_of_mem _ ho)) (command.contains_leg hg)
      refine ⟨made, ?_⟩
      have hlen : i + 1 + rest.length = i + (command :: rest).length := by
        rw [List.length_cons]
        omega
      rw [hlen] at hrest
      simp only [hb, Bool.false_eq_true, if_false, List.map_append, ← Option.toList_map]
      refine ⟨?_, ?_⟩
      · rw [value_ticks_add]
        exact hrest.value
      · rw [events_ticks_add, Event.scripts_append, hleg.scripts, hrest.scripts]

/-- There is no route any more, and the body looks like this. -/
structure Free (p : Pose) (c : Character α) : Prop where
  route? : c.playback.route? = none
  pose : c.body.pose = p

theorem Free.run (h : Free p c) (n : Nat) : Leads w c n [] (Free p) := by
  refine Leads.forever h (fun d hd => ?_) n
  have hf : d.follow w = pure d := follow_free hd.route?
  refine .tick ⟨?_, ?_⟩ ?_
  · rw [value_tick, hf, playback_frame]
    exact hd.route?
  · rw [value_tick, hf, (pose_frame _).1]
    exact hd.pose
  · rw [events_tick, hf]
    rfl

theorem Engaged.run_end (h : Engaged r label f (.ready p i m) c) (hr : r.repeats = false)
    (hc : r.command? i = none ∨ r.command? i = some .finish) : Leads w c 1 [] (Free p) := by
  have hcc : r.command? c.playback.cursor = none ∨ r.command? c.playback.cursor = some .finish := by
    rw [h.cursor]
    exact hc
  have hend : c.attempt.endRoute r = ⟨c.attempt.play none, [.routeFinished c.attempt.label]⟩ := by
    simp only [endRoute, finish, hr, h.attempt.forcing, Bool.false_eq_true, if_false]
  have hfollow := follow_ending (w := w) (h.stopping_iff.mpr rfl) h.route? h.wait hcc
  refine .tick ⟨?_, ?_⟩ ?_
  · rw [value_tick, playback_frame, hfollow, hend]
    rfl
  · rw [value_tick, (pose_frame _).1, hfollow, hend]
    exact h.pose
  · rw [events_tick, hfollow, scripts_endRoute]

/-- The ticks of a character with a route agree with a journey. -/
structure PlaysOut (r : Route α) (label : String) (j : Journey)
    (run : Nat → Logged (Event α) (Character α)) : Prop where
  removed : ∀ n, (run n).value.playback.route? = none ↔ j.stuck? = none ∧ j.ticks < n
  stuck : ∀ i, j.stuck? = some i → ∀ n, j.ticks ≤ n →
    (run n).value.playback.route? = some r ∧ (run n).value.playback.cursor = i
  pose : ∀ n, j.ticks ≤ n → (run n).value.body.pose = j.pose
  scripts : ∀ n, j.ticks ≤ n →
    Event.scripts (run n).events = j.texts.map fun text => (label, text)

/-- A route that is gone stays away. -/
theorem route?_ticks_mono {n k : Nat} (hk : k ≤ n) (h : (c.ticks w k).value.playback.route? = none) :
    (c.ticks w n).value.playback.route? = none := by
  obtain ⟨m, rfl⟩ := Nat.exists_eq_add_of_le hk
  rw [value_ticks_add]
  exact ((⟨h, rfl⟩ : Free _ _).run m).value.route?

/-- A journey that is not stuck: the tick after it removes the route. -/
theorem plays_out_of_free {j : Journey} (hs : j.stuck? = none)
    (h : Leads w c j.ticks (j.texts.map fun text => (label, text))
      (Engaged r label f (.ready j.pose i m)))
    (hl : ∀ n, Leads w c (j.ticks + (1 + n)) (j.texts.map fun text => (label, text))
      (Free j.pose)) :
    PlaysOut r label j fun n => c.ticks w n := by
  have hcases : ∀ n, j.ticks ≤ n → n = j.ticks ∨ ∃ k, n = j.ticks + (1 + k) := by
    intro n hn
    rcases Nat.eq_or_lt_of_le hn with he | hlt
    · exact .inl he.symm
    · exact .inr ⟨n - j.ticks - 1, by omega⟩
  refine { removed := ?removed, stuck := ?stuck, pose := ?pose, scripts := ?scripts }
  case removed =>
    intro n
    constructor
    · intro hn
      refine ⟨hs, ?_⟩
      by_contra hle
      have hgone := route?_ticks_mono (w := w) (Nat.not_lt.mp hle) hn
      rw [h.value.route?] at hgone
      cases hgone
    · rintro ⟨-, hn⟩
      rcases hcases n (Nat.le_of_lt hn) with rfl | ⟨k, rfl⟩
      · exact absurd hn (Nat.lt_irrefl _)
      · exact (hl k).value.route?
  case stuck =>
    intro k hk
    cases hs.symm.trans hk
  case pose =>
    intro n hn
    rcases hcases n hn with rfl | ⟨k, rfl⟩
    · exact h.value.pose
    · exact (hl k).value.pose
  case scripts =>
    intro n hn
    rcases hcases n hn with rfl | ⟨k, rfl⟩
    · exact h.scripts
    · exact (hl k).scripts

/-- A journey that is stuck: no later tick leads away from its end. -/
theorem plays_out_of_stuck {j : Journey} {k : Nat} (hs : j.stuck? = some k)
    (h : ∀ n, Leads w c (j.ticks + n) (j.texts.map fun text => (label, text))
      (Engaged r label f (.ready j.pose k m))) :
    PlaysOut r label j fun n => c.ticks w n := by
  refine { removed := ?removed, stuck := ?stuck, pose := ?pose, scripts := ?scripts }
  case removed =>
    intro n
    constructor
    · intro hn
      have hgone := route?_ticks_mono (w := w) (Nat.le_add_left n j.ticks) hn
      rw [(h n).value.route?] at hgone
      cases hgone
    · rintro ⟨hn, -⟩
      cases hs.symm.trans hn
  case stuck =>
    intro i hi n hn
    obtain ⟨l, rfl⟩ := Nat.exists_eq_add_of_le hn
    cases hs.symm.trans hi
    exact ⟨(h l).value.route?, (h l).value.cursor⟩
  case pose =>
    intro n hn
    obtain ⟨l, rfl⟩ := Nat.exists_eq_add_of_le hn
    exact (h l).value.pose
  case scripts =>
    intro n hn
    obtain ⟨l, rfl⟩ := Nat.exists_eq_add_of_le hn
    exact (h l).scripts

theorem Engaged.plays_out [Counting α] (h : Engaged r label f (.ready p 0 0) c)
    (hr : r.repeats = false) (hp : ∀ command ∈ r.stretch, command.Plain w)
    (hg : w.grid.contains p.position = true) (hw : w.grid.width ≤ maxCount)
    (hh : w.grid.height ≤ maxCount) :
    PlaysOut r label (journey w f r.skippable r.stretch p 0) fun n => c.ticks w n := by
  have hc : ∀ k command, r.stretch[k]? = some command →
      r.command? (0 + k) = some command ∧ command ≠ .finish := by
    intro k command hk
    rw [Nat.zero_add]
    exact Route.command?_stretch hk
  obtain ⟨made, hj⟩ := h.run_journey hr hc hp hg hw hh
  generalize hjo : journey w f r.skippable r.stretch p 0 = j at hj ⊢
  rw [Nat.zero_add] at hj
  unfold Stance.arrived at hj
  cases hs : j.stuck? with
  | none =>
    rw [hs] at hj
    refine plays_out_of_free hs hj fun n => ?_
    have hl := hj.trans fun d hd => (hd.run_end hr r.command?_end).trans fun d hd => hd.run n
    simp only [List.append_nil] at hl
    exact hl
  | some k =>
    rw [hs] at hj
    obtain ⟨hk, n, command, hn, hcommand, ho⟩ := stuck_obstructed (hjo ▸ hs)
    obtain rfl : k = n := hn.trans (Nat.zero_add n)
    have hl : ∀ n, Leads w c (j.ticks + n) (j.texts.map fun text => (label, text))
        (Engaged r label f (.ready j.pose k made)) := by
      intro n
      have hn := hj.trans fun d hd =>
        hd.run_obstructed hr hk (Route.command?_stretch hcommand).1 (hjo ▸ ho) n
      rw [List.append_nil] at hn
      exact hn
    exact plays_out_of_stuck hs hl

theorem flags_compile (l : Lexicon) (r : Route α) :
    (r.compile l).repeats = r.repeats ∧ (r.compile l).skippable = r.skippable := by
  unfold Route.compile
  split <;> exact ⟨rfl, rfl⟩

/-- A character at rest is ready for the first command of a route that it is given. -/
theorem engaged_play {c : Character α} (r : Route α) (hs : c.stopping = true)
    (hz : c.playback.wait = 0) :
    Engaged r c.label c.body.framesPerStep (.ready c.body.pose 0 0) (c.play (some r)) := by
  have hsteady : c.motion.shake.active = false := by
    unfold stopping Motion.holdsStop at hs
    cases ha : c.motion.shake.active with
    | false => rfl
    | true =>
      rw [ha, Bool.true_or, Bool.not_true, Bool.and_false] at hs
      cases hs
  exact ⟨rfl, rfl, rfl, hsteady, rfl, rfl, rfl, rfl, (Character.stopping_iff hsteady).mp hs, hz⟩

/-- A route that does not start over and is installed on a character at rest takes the time of its
journey, and is removed by the tick after it unless the journey is stuck. -/
theorem installed_plays_out [Counting α] (w : World α) (c : Character α) (r : Route α)
    (hr : r.repeats = false)
    (hp : ∀ command ∈ (r.compile w.lexicon).stretch, command.Plain w)
    (hg : w.grid.contains c.body.position = true) (hs : c.stopping = true)
    (hz : c.playback.wait = 0) (hw : w.grid.width ≤ maxCount) (hh : w.grid.height ≤ maxCount) :
    PlaysOut (r.compile w.lexicon) c.label
      (journey w c.body.framesPerStep r.skippable (r.compile w.lexicon).stretch c.body.pose 0)
      fun n => (c.install w.lexicon (some r)).value.ticks w n := by
  obtain ⟨hrepeats, hskippable⟩ := flags_compile w.lexicon r
  have he := engaged_play (r.compile w.lexicon) hs hz
  have hout := he.plays_out (hrepeats.trans hr) hp hg hw hh
  rw [hskippable] at hout
  exact hout

/-- A corridor of three tiles. -/
def corridor : World Float where
  grid := ⟨3, 1, .ofList [true, true, true]⟩
  roster := {}
  lexicon := .standard
  settings := Settings.standard

/-- To the end of the corridor and one step too far, then a line and a pause. -/
def delivery : Route Float where
  commands := [.script "MOVE_R 2", .step .right, .script "delivered", .wait 3, .finish, .turn .up]
  skippable := true

def courier : Character Float :=
  placed "courier" (Body.standing ⟨0, 0⟩ 2 0) corridor.settings

theorem installed_plays_out_courier :
    let run := fun n => (courier.install corridor.lexicon (some delivery)).value.ticks corridor n
    (∀ n, (run n).value.playback.route? = none ↔ 9 < n) ∧
      ∀ n, 9 ≤ n → (run n).value.body.pose = ⟨⟨2, 0⟩, .right, none⟩ ∧
        Event.scripts (run n).events = [("courier", "delivered")] := by
  have hs : (delivery.compile corridor.lexicon).stretch =
      [.call ⟨.walk .right, [.number 2]⟩, .step .right, .script "delivered", .wait 3] := by
    decide +kernel
  have hp : ∀ command ∈ (delivery.compile corridor.lexicon).stretch,
      command.Plain corridor := by
    rw [hs]
    intro command hm
    simp only [List.mem_cons, List.not_mem_nil, or_false] at hm
    rcases hm with rfl | rfl | rfl | rfl <;> exact trivial
  have hj : journey corridor 2 true (delivery.compile corridor.lexicon).stretch
      courier.body.pose 0 = ⟨9, ⟨⟨2, 0⟩, .right, none⟩, ["delivered"], none⟩ := by
    rw [hs]
    decide +kernel
  have h := installed_plays_out corridor courier delivery rfl hp (by decide) (by decide +kernel)
    rfl (by decide) (by decide)
  change PlaysOut _ _ (journey corridor 2 true _ courier.body.pose 0) _ at h
  rw [hj] at h
  refine ⟨fun n => (h.removed n).trans ⟨fun hn => hn.2, fun hn => ⟨rfl, hn⟩⟩, fun n hn => ?_⟩
  exact ⟨h.pose n hn, h.scripts n hn⟩

end Character

end TileRoute
