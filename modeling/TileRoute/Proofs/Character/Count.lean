import TileRoute.Proofs.Character.Alike
import TileRoute.Proofs.Character.Bounds

/-!
# The count of steps

A walk under the cursor counts its steps from one run to the next. In a run of installed and forced
routes and ticks, without a request from outside, the count is zero unless the command under the
cursor is a walk that asks for more steps than have been counted, and no signal is left over. A visit
of a command begins when its route is installed, forced or given back, or when a tick lets go of the
command before it; so every visit begins with a count of zero, be it of the same command again.
-/

namespace TileRoute

variable {α : Type} [Scalar α]

/-- The steps that a walk asks for. -/
def Call.count? (asked : Call α) : Option α :=
  match asked.action with
  | .walk _ => (asked.number? 0).toOption.map fun count? => count?.getD (Scalar.ofInt 1)
  | _ => none

def Command.count? : Command α → Option α
  | .call asked => asked.count?
  | _ => none

theorem Call.count?_of_walk {asked : Call α} {d : Direction} {given? : Option α}
    (ha : asked.action = .walk d) (hc : asked.number? 0 = .ok given?) :
    asked.count? = some (given?.getD (Scalar.ofInt 1)) := by
  simp only [count?, ha, hc]
  rfl

namespace Character

variable {w : World α} {c d : Character α} {r : Route α} {command : Command α}

omit [Scalar α] in
/-- The command that has just run asks for no other run, and was not blocked on a route that insists
on its steps. -/
structure LetsGo (r : Route α) (c : Character α) : Prop where
  signal : c.motion.progress.signal = .advance
  unblocked : (c.playback.stepped || r.skippable) = true

omit [Scalar α] in
theorem advance_of_letsGo (hr : c.playback.route? = some r) (h : c.LetsGo r) :
    c.advance = pure ((c.mapPlayback fun q => { q with cursor := nextCursor r q.cursor }).mapProgress
      Progress.resetMoves) := by
  rw [advance_of_advance h.signal, moveCursor_on hr h.unblocked]

omit [Scalar α] in
theorem advance_of_holdsOn (hr : c.playback.route? = some r)
    (hs : c.motion.progress.signal ≠ .abort) (h : ¬ c.LetsGo r) :
    c.advance = pure (c.mapProgress Progress.take) := by
  cases hc : c.motion.progress.signal with
  | hold => exact advance_of_hold hc
  | abort => exact absurd hc hs
  | advance =>
    have hg : (c.playback.stepped || r.skippable) = false := by
      rw [← Bool.not_eq_true]
      exact fun hg => h ⟨hc, hg⟩
    rw [advance_of_advance hc, moveCursor_again hr hg, mapProgress_take hc]

/-- The next tick takes the cursor off its command, or comes to the end of the route. -/
inductive Leaves (w : World α) (c : Character α) : Prop
  | running (r : Route α) (command : Command α) (hready : c.ready = true)
      (hr : c.playback.route? = some r) (hc : r.command? c.playback.cursor = some command)
      (hf : command ≠ .finish) (hl : (c.attempt.perform w command).value.LetsGo r)
  | ending (r : Route α) (hready : c.ready = true) (hr : c.playback.route? = some r)
      (he : r.EndsAt c.playback.cursor)

theorem follow_of_ready (hready : c.ready = true) (hr : c.playback.route? = some r)
    (hc : r.command? c.playback.cursor = some command) (hf : command ≠ .finish) :
    c.follow w = c.attempt.perform w command >>= advance := by
  obtain ⟨hstop, -, hwait⟩ := ready_iff.mp hready
  exact follow_running hstop hr hwait hc hf

theorem follow_of_ending (hready : c.ready = true) (hr : c.playback.route? = some r)
    (he : r.EndsAt c.playback.cursor) : c.follow w = c.attempt.endRoute r := by
  obtain ⟨hstop, -, hwait⟩ := ready_iff.mp hready
  exact follow_ending hstop hr hwait he

omit [Scalar α] in
theorem samePlace_attempt (c : Character α) : SamePlace c c.attempt := ⟨rfl, rfl, rfl, rfl, rfl⟩

theorem samePlace_frame (c : Character α) : SamePlace c c.frame := by
  refine ⟨label_frame c, ?_, ?_, ?_, ?_⟩ <;> rw [playback_frame]

theorem tick_of_letsGo (hready : c.ready = true) (hr : c.playback.route? = some r)
    (hc : r.command? c.playback.cursor = some command) (hf : command ≠ .finish)
    (hl : (c.attempt.perform w command).value.LetsGo r) :
    SameRoute c (c.tick w).value ∧
      (c.tick w).value.playback.cursor = nextCursor r c.playback.cursor ∧
        (c.tick w).value.motion.progress = .start := by
  have hsame := (samePlace_attempt c).trans (samePlace_perform w c.attempt command)
  have hstart : (c.attempt.perform w command).value.motion.progress.resetMoves = .start := by
    unfold Progress.resetMoves
    rw [hl.signal]
    rfl
  rw [value_tick, progress_frame, playback_frame, follow_of_ready hready hr hc hf,
    Logged.value_bind, advance_of_letsGo (hsame.route?.trans hr) hl]
  refine ⟨⟨?_, ?_, ?_⟩, congrArg (nextCursor r) hsame.cursor, hstart⟩
  · rw [playback_frame]
    exact hsame.route?
  · rw [playback_frame]
    exact hsame.forcing
  · rw [playback_frame]
    exact hsame.saved?

theorem tick_of_holdsOn (hs : c.motion.progress.signal ≠ .abort) (hready : c.ready = true)
    (hr : c.playback.route? = some r) (hc : r.command? c.playback.cursor = some command)
    (hf : command ≠ .finish) (hl : ¬ (c.attempt.perform w command).value.LetsGo r) :
    SamePlace c (c.tick w).value ∧
      (c.tick w).value.motion.progress =
        (c.attempt.perform w command).value.motion.progress.take := by
  have hsame := (samePlace_attempt c).trans (samePlace_perform w c.attempt command)
  have hgo : (c.attempt.perform w command).value.motion.progress.signal ≠ .abort :=
    signal_perform_ne_abort (c := c.attempt) hs
  have htaken : SamePlace c ((c.attempt.perform w command).value.mapProgress Progress.take) :=
    ⟨hsame.label, hsame.route?, hsame.cursor, hsame.forcing, hsame.saved?⟩
  rw [value_tick, progress_frame, follow_of_ready hready hr hc hf, Logged.value_bind,
    advance_of_holdsOn (hsame.route?.trans hr) hgo hl]
  exact ⟨htaken.trans (samePlace_frame _), rfl⟩

omit [Scalar α] in
theorem moves_endRoute (c : Character α) (r : Route α) :
    (c.endRoute r).value.motion.progress.moves = 0 := by
  unfold endRoute
  split
  · rfl
  · rw [progress_finish]
    rfl

theorem moves_of_leaves (h : c.Leaves w) : (c.tick w).value.motion.progress.moves = 0 := by
  cases h with
  | running r command hready hr hc hf hl =>
    obtain ⟨-, -, hm⟩ := tick_of_letsGo hready hr hc hf hl
    rw [hm]
    rfl
  | ending r hready hr he =>
    rw [value_tick, progress_frame, follow_of_ending hready hr he]
    exact moves_endRoute _ r

omit [Scalar α] in
theorem Alike.samePlace (h : Alike c d) : SamePlace c d :=
  ⟨h.label, congrArg Playback.route? h.playback, congrArg Playback.cursor h.playback,
    congrArg Playback.forcing h.playback, congrArg Playback.saved? h.playback⟩

theorem samePlace_tick_of_unready (w : World α) (h : c.ready = false) :
    SamePlace c (c.tick w).value := by
  have hs : SamePlace c.unwaited (c.tick w).value.unwaited := (tick_unready w h).1.samePlace
  exact ⟨hs.label, hs.route?, hs.cursor, hs.forcing, hs.saved?⟩

/-- A tick that does not leave the command under the cursor keeps the cursor on it. -/
theorem samePlace_tick_of_not_leaves (hs : c.motion.progress.signal ≠ .abort)
    (h : ¬ c.Leaves w) : SamePlace c (c.tick w).value := by
  cases hready : c.ready with
  | false => exact samePlace_tick_of_unready w hready
  | true =>
    obtain ⟨r, hr⟩ := Option.isSome_iff_exists.mp (ready_iff.mp hready).2.1
    cases hc : r.command? c.playback.cursor with
    | none => exact absurd (.ending r hready hr (.inl hc)) h
    | some command =>
      by_cases hf : command = .finish
      · exact absurd (.ending r hready hr (.inr (hf ▸ hc))) h
      · have hl : ¬ (c.attempt.perform w command).value.LetsGo r := fun hl =>
          h (.running r command hready hr hc hf hl)
        exact (tick_of_holdsOn hs hready hr hc hf hl).1

theorem moves_walk (g : Grid) (c : Character α) (d : Direction) (count : α) :
    (c.walk g d count).motion.progress.moves = c.motion.progress.moves ∨
      Scalar.Lt (Scalar.ofInt (c.walk g d count).motion.progress.moves) count ∨
        (c.walk g d count).motion.progress.signal = c.motion.progress.signal ∧
          (c.walk g d count).playback.stepped = true := by
  simp only [walk]
  split
  · rename_i hcan
    split
    · rename_i hlt
      exact .inr (.inl hlt)
    · exact .inr (.inr ⟨rfl, hcan⟩)
  · split <;> exact .inl rfl

/-- A command leaves the count, or is a walk that has not come to its end, or one that has. -/
theorem moves_perform (w : World α) (c : Character α) (command : Command α) :
    (c.perform w command).value.motion.progress.moves = c.motion.progress.moves ∨
      (∃ count, command.count? = some count ∧
        Scalar.Lt (Scalar.ofInt (c.perform w command).value.motion.progress.moves) count) ∨
        (c.perform w command).value.motion.progress.signal = c.motion.progress.signal ∧
          (c.perform w command).value.playback.stepped = true := by
  cases command with
  | finish => exact .inl rfl
  | step d => exact .inl rfl
  | turn d => exact .inl rfl
  | wait frames => exact .inl rfl
  | script text => exact .inl rfl
  | call asked =>
    simp only [perform]
    cases h : c.invoke w asked with
    | error e => exact .inl rfl
    | ok done =>
      cases ran_of_invoke h with
      | walk d count? ha hc =>
        rcases moves_walk w.grid c d (count?.getD (Scalar.ofInt 1)) with hm | hlt | hend
        · exact .inl hm
        · exact .inr (.inl ⟨_, Call.count?_of_walk ha hc, hlt⟩)
        · exact .inr (.inr hend)
      | shake => exact .inl rfl
      | fade ramp duration blocks done _ _ _ hf =>
        obtain ⟨-, rfl⟩ := startFade_eq_ok hf
        exact .inl rfl
      | actorImage id => exact .inl (congrArg Progress.moves (progress_showPortrait c _ _))
      | memberImage slot => exact .inl (congrArg Progress.moves (progress_showPortrait c _ _))
      | approach x y =>
        left
        change (c.approach w.grid _).motion.progress.moves = _
        unfold approach
        split
        · rfl
        · split <;> rfl
      | randomWait least limit d _ _ _ hr =>
        obtain ⟨-, rfl⟩ := randomWait_eq_ok hr
        exact .inl rfl

/-- A walk is under the cursor that asks for more steps than have been counted. -/
def Midway (c : Character α) : Prop :=
  ∃ command count, c.playback.command? = some command ∧ command.count? = some count ∧
    Scalar.Lt (Scalar.ofInt c.motion.progress.moves) count

/-- No signal is left over, and steps are counted for the command under the cursor only. -/
structure Tidy (c : Character α) : Prop where
  signal : c.motion.progress.signal = .advance
  count : c.motion.progress.moves = 0 ∨ c.Midway

theorem Tidy.of_start (h : c.motion.progress = .start) : c.Tidy := by
  refine ⟨?_, .inl ?_⟩ <;> rw [h] <;> rfl

omit [Scalar α] in
theorem SamePlace.command? (h : SamePlace c d) :
    d.playback.command? = c.playback.command? := by
  unfold Playback.command?
  rw [h.route?, h.cursor]

theorem Midway.congr (h : c.Midway) (hp : SamePlace c d)
    (hm : d.motion.progress.moves = c.motion.progress.moves) : d.Midway := by
  obtain ⟨command, count, hc, hcount, hlt⟩ := h
  refine ⟨command, count, hp.command?.trans hc, hcount, ?_⟩
  rw [hm]
  exact hlt

theorem Tidy.congr (h : c.Tidy) (hp : SamePlace c d)
    (hm : d.motion.progress = c.motion.progress) : d.Tidy := by
  refine ⟨(congrArg Progress.signal hm).trans h.signal, ?_⟩
  rcases h.count with hz | hmid
  · exact .inl ((congrArg Progress.moves hm).trans hz)
  · exact .inr (hmid.congr hp (congrArg Progress.moves hm))

/-- A command that has run and holds on to the cursor is a walk, or counts nothing. -/
theorem Tidy.run_again (h : c.Tidy) (hr : c.playback.route? = some r)
    (hc : r.command? c.playback.cursor = some command)
    (hl : ¬ (c.attempt.perform w command).value.LetsGo r) :
    ((c.attempt.perform w command).value.mapProgress Progress.take).Tidy := by
  have hp : SamePlace c ((c.attempt.perform w command).value.mapProgress Progress.take) := by
    have hq := (samePlace_attempt c).trans (samePlace_perform w c.attempt command)
    exact ⟨hq.label, hq.route?, hq.cursor, hq.forcing, hq.saved?⟩
  refine ⟨rfl, ?_⟩
  rcases moves_perform w c.attempt command with hm | ⟨count, hcount, hlt⟩ | ⟨hs, hstep⟩
  · rcases h.count with hz | hmid
    · exact .inl (hm.trans hz)
    · exact .inr (hmid.congr hp hm)
  · refine .inr ⟨command, count, hp.command?.trans ?_, hcount, hlt⟩
    unfold Playback.command?
    rw [hr, Option.bind_some, hc]
  · -- A walk that has come to its end has let go.
    refine absurd ⟨hs.trans h.signal, ?_⟩ hl
    rw [hstep, Bool.true_or]

theorem tidy_endRoute (h : c.Tidy) (r : Route α) : (c.endRoute r).value.Tidy := by
  unfold endRoute
  split
  · exact ⟨h.signal, .inl rfl⟩
  · exact .of_start (progress_finish c)

theorem Turn.tidy {done : Logged (Event α) (Character α)} (ht : Turn w c done) (h : c.Tidy) :
    done.value.Tidy := by
  have hattempt : c.attempt.Tidy := h.congr (samePlace_attempt c) rfl
  cases ht with
  | busy => exact h
  | free => exact h
  | waiting => exact h.congr ⟨rfl, rfl, rfl, rfl, rfl⟩ rfl
  | ending r => exact tidy_endRoute hattempt r
  | running r command _ hr _ hc =>
    have hroute : (c.attempt.perform w command).value.playback.route? = some r :=
      (samePlace_perform w c.attempt command).route?.trans hr
    by_cases hl : (c.attempt.perform w command).value.LetsGo r
    · rw [Logged.value_bind, advance_of_letsGo hroute hl]
      exact ⟨hl.signal, .inl rfl⟩
    · have hs : c.attempt.motion.progress.signal ≠ .abort := by
        rw [hattempt.signal]
        decide
      rw [Logged.value_bind, advance_of_holdsOn hroute (signal_perform_ne_abort hs) hl]
      exact h.run_again hr hc hl

theorem Tidy.tick (w : World α) (h : c.Tidy) : (c.tick w).value.Tidy := by
  rw [value_tick]
  exact ((turn_follow w c).tidy h).congr (samePlace_frame _) (progress_frame _)

end Character

/-- The operation installs or forces a route, or ticks. -/
def Operation.Unasked : Operation α → Prop
  | .install _ | .force _ | .tick => True
  | .request _ => False

/-- The operation begins a visit of the command that is under the cursor after it. -/
def Operation.Enters (w : World α) (c : Character α) : Operation α → Prop
  | .install _ => True
  | .force route? => route?.isSome = true
  | .tick => c.Leaves w
  | .request _ => False

namespace Character

variable {w : World α} {c : Character α} {op : Operation α}

theorem Tidy.operate (h : c.Tidy) (ho : op.Unasked) : (c.operate w op).value.Tidy := by
  cases op with
  | install route? =>
    show (c.install w.lexicon route?).value.Tidy
    rw [value_install]
    exact .of_start rfl
  | force route? =>
    cases route? with
    | none => exact h
    | some r => exact .of_start rfl
  | tick => exact h.tick w
  | request asked => exact ho.elim

theorem Tidy.run (h : c.Tidy) {ops : List (Operation α)} (ho : ∀ op ∈ ops, op.Unasked) :
    (c.run w ops).value.Tidy := by
  induction ops generalizing c with
  | nil => exact h
  | cons op ops ih =>
    have hfirst : (c.operate w op).value.Tidy := h.operate (ho op (List.mem_cons_self ..))
    exact ih hfirst fun o hm => ho o (List.mem_cons_of_mem op hm)

theorem moves_of_enters (h : op.Enters w c) : (c.operate w op).value.motion.progress.moves = 0 := by
  cases op with
  | install route? =>
    show (c.install w.lexicon route?).value.motion.progress.moves = 0
    rw [value_install]
    rfl
  | force route? =>
    cases route? with
    | none => cases h
    | some r => rfl
  | tick => exact moves_of_leaves h
  | request asked => exact h.elim

theorem samePlace_of_not_enters (hs : c.motion.progress.signal ≠ .abort) (ho : op.Unasked)
    (h : ¬ op.Enters w c) : SamePlace c (c.operate w op).value := by
  cases op with
  | install route? => exact absurd trivial h
  | force route? =>
    cases route? with
    | none => exact .refl c
    | some r => exact absurd rfl h
  | tick => exact samePlace_tick_of_not_leaves hs h
  | request asked => exact ho.elim

theorem moves_ticks_unready {n : Nat}
    (h : ∀ k < n, (c.ticks w k).value.ready = false) :
    (c.ticks w n).value.motion.progress.moves = c.motion.progress.moves := by
  induction n with
  | zero => rfl
  | succ n ih =>
    have hlast := (tick_unready w (h n (Nat.lt_succ_self n))).1.progress
    have hm : (c.ticks w (n + 1)).value.motion.progress =
        (c.ticks w n).value.motion.progress := by
      rw [ticks_succ]
      exact hlast
    rw [hm]
    exact ih fun k hk => h k (Nat.lt_succ_of_lt hk)

/-- The count between two operations. -/
structure Counted (w : World α) (c : Character α) : Prop where
  tidy : c.Tidy
  /-- A visit begins with a count of zero, which stays until its command runs. -/
  begins : ∀ op : Operation α, op.Enters w c → ∀ n,
    (∀ k < n, ((c.operate w op).value.ticks w k).value.ready = false) →
      ((c.operate w op).value.ticks w n).value.motion.progress.moves = 0
  /-- Whatever does not begin a visit keeps the cursor where it is. -/
  lasts : ∀ op : Operation α, op.Unasked → ¬ op.Enters w c → SamePlace c (c.operate w op).value

/-- In a run without requests no steps are counted but those of the walk under the cursor, from zero
on each visit. -/
theorem count_never_leaks (w : World α) (label : String) (body : Body α) (settings : Settings α)
    (ops : List (Operation α)) (ho : ∀ op ∈ ops, op.Unasked) :
    Counted w ((placed label body settings).run w ops).value := by
  have hstart : (placed label body settings).Tidy := .of_start rfl
  have htidy := hstart.run (w := w) ho
  refine { tidy := htidy, begins := ?begins, lasts := ?lasts }
  case begins =>
    intro op hop n hn
    rw [moves_ticks_unready hn]
    exact moves_of_enters hop
  case lasts =>
    intro op hop hnot
    refine samePlace_of_not_enters ?_ hop hnot
    rw [htidy.signal]
    decide

/-- A passage of five tiles. -/
def passage : World Float where
  grid := ⟨5, 1, .ofList [true, true, true, true, true]⟩
  roster := {}
  lexicon := .standard
  settings := Settings.standard

def paces : Route Float := { commands := [.script "MOVE_R 2"], repeats := true }

def glance : Route Float := { commands := [.turn .up] }

/-- The sentry is made to look up after its first step, and then goes on for two more. -/
def distracted : List (Operation Float) :=
  [.install (some paces), .tick, .force (some glance), .tick, .tick, .tick, .tick]

theorem count_never_leaks_sentry :
    (∀ op ∈ distracted, op.Unasked) ∧
      (let sentry := placed "sentry" (Body.standing ⟨0, 0⟩ 0 0) passage.settings
      (∀ k, Counted passage (sentry.run passage (distracted.take k)).value) ∧
        (sentry.run passage (distracted.take 2)).value.motion.progress.moves = 1 ∧
          (sentry.run passage (distracted.take 5)).value.motion.progress.moves = 0 ∧
            (sentry.run passage (distracted.take 6)).value.motion.progress.moves = 1 ∧
              (sentry.run passage distracted).value.motion.progress.moves = 0 ∧
                (sentry.run passage distracted).value.body.position = ⟨3, 0⟩) := by
  have ho : ∀ op ∈ distracted, op.Unasked := by
    intro op hm
    simp only [distracted, List.mem_cons, List.not_mem_nil, or_false] at hm
    rcases hm with rfl | rfl | rfl | rfl | rfl | rfl | rfl <;> exact trivial
  refine ⟨ho, fun k => ?_, ?_⟩
  · exact count_never_leaks passage _ _ _ _ fun op hm => ho op (List.mem_of_mem_take hm)
  · decide +kernel

end Character

end TileRoute
