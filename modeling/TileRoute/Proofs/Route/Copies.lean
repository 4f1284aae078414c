import TileRoute.Proofs.Character.Command
import TileRoute.Proofs.Character.Course
import TileRoute.Proofs.Character.Operation
import TileRoute.Proofs.Character.Unseen
import TileRoute.Proofs.Number.Binary64
import TileRoute.Proofs.Route.Unroll

/-!
# A walk and its single steps

A walk of several steps asks for another run and counts the steps that it has made; a single step
lets the cursor go on. On a route that insists on its steps, a walk does in every tick what as many
single steps do in its place: the body, the effects, the wait, the dice and the lines handed on are
the same, and the number of steps made tells which of the copies the other cursor is on.
-/

namespace TileRoute

variable {α : Type}

def Playback.unroll (p n m : Nat) (d : Direction) (q : Playback α) : Playback α :=
  { q with
    route? := q.route?.map (Route.unroll p n d)
    cursor := Route.slot p n m q.cursor }

theorem Playback.unseen_unroll (p n m : Nat) (d : Direction) :
    Playback.Unseen (Playback.unroll p n m d : Playback α → Playback α) where
  insists q := by
    show (q.route?.map (Route.unroll p n d)).any _ = q.route?.any _
    cases q.route? <;> rfl
  stepped _ _ := rfl
  wait _ _ := rfl

namespace Character

/-- The same character on the unrolled route. A single step does not count how many were made. -/
def unrolled (p n : Nat) (d : Direction) (c : Character α) : Character α :=
  (c.mapPlayback (Playback.unroll p n c.motion.progress.moves d)).mapProgress fun x =>
    { x with moves := if c.playback.cursor = p then 0 else x.moves }

variable {p n : Nat} {d : Direction} {c : Character α}

/-- Where no steps are counted, the route and the cursor are all the difference. -/
theorem unrolled_eq (h : c.playback.cursor = p → c.motion.progress.moves = 0) :
    c.unrolled p n d = c.mapPlayback (Playback.unroll p n 0 d) := by
  by_cases hp : c.playback.cursor = p
  · have hm : ({ c.motion.progress with moves := 0 } : Progress) = c.motion.progress := by
      rw [← h hp]
    simp only [unrolled, mapPlayback, mapProgress, h hp, ite_self, hm]
  · simp only [unrolled, mapPlayback, mapProgress, Playback.unroll, Route.slot_elsewhere hp, hp,
      if_false]

theorem frame_unrolled [Scalar α] (c : Character α) :
    (c.unrolled p n d).frame = c.frame.unrolled p n d := by
  unfold unrolled
  rw [frame_mapProgress, frame_mapPlayback, playback_frame, progress_frame]

theorem play_unrolled (c : Character α) (route? : Option (Route α)) :
    c.play (route?.map (Route.unroll p n d)) = (c.play route?).unrolled p n d := by
  rw [unrolled_eq fun _ => rfl]
  simp only [play, mapPlayback, Playback.unroll, Route.slot_zero]

end Character

/-- The command at a place asks for `n` steps in a direction, and the route insists on them. -/
structure Call.Walks [Scalar α] (asked : Call α) (d : Direction) (n : Nat) : Prop where
  action : asked.action = .walk d
  count : ∃ count? : Option α, asked.number? 0 = .ok count? ∧
    Scalar.exact (count?.getD (Scalar.ofInt 1)) = .finite n

structure Route.WalksAt [Scalar α] (r : Route α) (p : Nat) (d : Direction) (n : Nat) : Prop where
  insists : r.skippable = false
  place : ∃ asked, r.command? p = some (.call asked) ∧ asked.Walks d n
  pos : 1 ≤ n
  bound : n ≤ maxCount

namespace Character

/-- The route plays, or it has been played. At the walk, not all of its steps have been made. -/
structure Plays (r : Route α) (p n : Nat) (c : Character α) : Prop where
  forcing : c.playback.forcing = false
  signal : c.motion.progress.signal = .advance
  made : c.playback.cursor = p → c.motion.progress.moves < n
  route : ∀ q, c.playback.route? = some q → q = r

section Turns

variable {r : Route α} {p n : Nat} {d : Direction} {c : Character α}

theorem plays_play (hn : 1 ≤ n) {route? : Option (Route α)} (hr : ∀ q, route? = some q → q = r) :
    Plays r p n (c.play route?) where
  forcing := rfl
  signal := rfl
  made _ := hn
  route := hr

theorem plays_endRoute (h : Plays r p n c) (hn : 1 ≤ n) :
    Plays r p n (c.endRoute r).value := by
  unfold endRoute
  split
  · exact { h with made := fun _ => hn }
  · rw [finish_unforced h.forcing]
    exact plays_play hn fun q hq => by cases hq

theorem restart_unrolled (c : Character α) (k : Nat) :
    ((c.unrolled p n d).mapPlayback fun q =>
        { q with cursor := Route.slot p n 0 k }).mapProgress Progress.resetMoves =
      ((c.mapPlayback fun q => { q with cursor := k }).mapProgress
        Progress.resetMoves).unrolled p n d := by
  have hz := unrolled_eq (p := p) (n := n) (d := d) (c := (c.mapPlayback fun q =>
    { q with cursor := k }).mapProgress Progress.resetMoves) fun _ => rfl
  rw [hz]
  rfl

theorem endRoute_unrolled (hf : c.playback.forcing = false) :
    ((c.unrolled p n d).endRoute (r.unroll p n d)).value =
      (c.endRoute r).value.unrolled p n d := by
  unfold endRoute
  show (ite (r.repeats = true) _ _ : Logged (Event α) (Character α)).value = _
  split
  · have hz := restart_unrolled (p := p) (n := n) (d := d) c 0
    rw [Route.slot_zero] at hz
    exact hz
  · have hu : (c.unrolled p n d).playback.forcing = false := hf
    rw [finish_unforced hf, finish_unforced hu]
    exact play_unrolled c none

theorem route?_unrolled (hr : c.playback.route? = some r) :
    (c.unrolled p n d).playback.route? = some (r.unroll p n d) :=
  congrArg (Option.map (Route.unroll p n d)) hr

theorem moveCursor_unrolled {command : Command α} (hr : c.playback.route? = some r)
    (hc : r.command? p = some command) (hf : command ≠ .finish) (hn : 1 ≤ n)
    (hs : c.playback.stepped || r.skippable)
    (hm : c.playback.cursor = p → c.motion.progress.moves + 1 = n) :
    (c.unrolled p n d).moveCursor = c.moveCursor.unrolled p n d := by
  have hus : ((c.unrolled p n d).playback.stepped || (r.unroll p n d).skippable) = true := hs
  have hnext := nextCursor_slot (d := d) hc hf hn hm
  have hz := restart_unrolled (p := p) (n := n) (d := d) c (nextCursor r c.playback.cursor)
  rw [← hnext] at hz
  rw [moveCursor_on hr hs, moveCursor_on (route?_unrolled hr) hus]
  exact hz

theorem plays_moveCursor (h : Plays r p n c) (hn : 1 ≤ n) : Plays r p n c.moveCursor := by
  unfold moveCursor
  split
  · exact h
  · split
    · exact { h with made := fun _ => hn }
    · exact h

variable [Scalar α] {w : World α} {command : Command α}

/-- What becomes of the cursor after a command other than the walk. -/
theorem advance_unrolled (hr : c.playback.route? = some r) (hw : r.WalksAt p d n)
    (hf : c.playback.forcing = false) (hi : c.playback.cursor ≠ p)
    (hs : c.motion.progress.signal ≠ .abort) :
    Plays r p n c.advance.value ∧
      (c.unrolled p n d).advance.value = c.advance.value.unrolled p n d := by
  obtain ⟨asked, hc, -⟩ := hw.place
  have htaken : Plays r p n (c.mapProgress Progress.take) := by
    refine ⟨hf, rfl, fun h => absurd h hi, fun q hq => ?_⟩
    exact Option.some.inj (hq.symm.trans hr)
  cases hsig : c.motion.progress.signal with
  | abort => exact absurd hsig hs
  | hold =>
    have husig : (c.unrolled p n d).motion.progress.signal = .hold := hsig
    rw [advance_of_hold hsig, advance_of_hold husig]
    exact ⟨htaken, rfl⟩
  | advance =>
    have husig : (c.unrolled p n d).motion.progress.signal = .advance := hsig
    rw [mapProgress_take hsig] at htaken
    rw [advance_of_advance hsig, advance_of_advance husig]
    refine ⟨plays_moveCursor htaken hw.pos, ?_⟩
    cases hg : c.playback.stepped || r.skippable with
    | true =>
      have hne : (Command.call asked : Command α) ≠ .finish := fun h => by cases h
      exact moveCursor_unrolled hr hc hne hw.pos hg fun h => absurd h hi
    | false =>
      have hug : ((c.unrolled p n d).playback.stepped || (r.unroll p n d).skippable) = false := hg
      rw [Logged.value_pure, Logged.value_pure, moveCursor_again hr hg,
        moveCursor_again (route?_unrolled hr) hug]

theorem lt_count_iff [Counting α] {count : α} {m : Nat} (hn : Scalar.exact count = .finite n)
    (hm : m ≤ maxCount) : Scalar.Lt (Scalar.ofInt (m : Int)) count ↔ m < n := by
  unfold Scalar.Lt
  rw [Counting.exact_ofInt m hm, hn, Exact.finite_lt_finite]
  exact Nat.cast_lt

/-- A step that leaves more to be made: the one is counted, and the other lets the cursor go on. -/
theorem copy_made (hr : c.playback.route? = some r) (hw : r.WalksAt p d n)
    (hi : c.playback.cursor = p) (hs : c.playback.stepped = true)
    (hm : c.motion.progress.moves + 1 < n) :
    (c.unrolled p n d).moveCursor = (c.mapProgress Progress.countMove).unrolled p n d := by
  obtain ⟨asked, hc, -⟩ := hw.place
  have hne : (Command.call asked : Command α) ≠ .finish := fun h => by cases h
  have hbound := hw.bound
  have hus : ((c.unrolled p n d).playback.stepped || (r.unroll p n d).skippable) = true := by
    show (c.playback.stepped || r.skippable) = true
    rw [hs, Bool.true_or]
  have hmin : min (c.motion.progress.moves + 1) maxCount = c.motion.progress.moves + 1 := by
    omega
  have hnext := nextCursor_copy (d := d) hc hne hm
  rw [moveCursor_on (route?_unrolled hr) hus]
  simp only [unrolled, mapPlayback, mapProgress, Playback.unroll, Progress.countMove,
    Progress.resetMoves, hi, Route.slot_at, hmin, if_true, hnext]

omit [Scalar α] in
theorem advance_hold (h : c.motion.progress.signal = .advance) :
    (c.mapProgress Progress.hold).advance = pure c := by
  have hs : (c.mapProgress Progress.hold).motion.progress.signal = .hold := by
    show c.motion.progress.signal.stronger .hold = .hold
    rw [h]
    rfl
  rw [advance_of_hold hs]
  exact congrArg pure (mapProgress_take h)

/-- A tick of the walk: it is blocked and tries again, or it makes a step and goes on, or it makes
its last step. -/
theorem walk_cases [Counting α] {asked : Call α} (ha : asked.Walks d n)
    (hin : c.playback.insists = true) (hm : c.motion.progress.moves < n) (hn : n ≤ maxCount) :
    c.body.canStep w.grid d = false ∧
        (c.perform w (.call asked)).value = (c.stepIn w.grid d).mapProgress Progress.hold ∨
      c.body.canStep w.grid d = true ∧ c.motion.progress.moves + 1 < n ∧
        (c.perform w (.call asked)).value =
          ((c.stepIn w.grid d).mapProgress Progress.countMove).mapProgress Progress.hold ∨
      c.body.canStep w.grid d = true ∧ c.motion.progress.moves + 1 = n ∧
        (c.perform w (.call asked)).value =
          (c.stepIn w.grid d).mapProgress Progress.countMove := by
  obtain ⟨count?, hcount, hexact⟩ := ha.count
  have hmoves : ((c.stepIn w.grid d).mapProgress Progress.countMove).motion.progress.moves =
      c.motion.progress.moves + 1 := by
    show min (c.motion.progress.moves + 1) maxCount = c.motion.progress.moves + 1
    omega
  rw [perform_walk ha.action hcount]
  unfold walk
  dsimp only
  rw [hmoves, hin]
  cases hcan : c.body.canStep w.grid d with
  | false => exact .inl ⟨rfl, rfl⟩
  | true =>
    have hlt := lt_count_iff hexact (show c.motion.progress.moves + 1 ≤ maxCount by omega)
    by_cases hmore : c.motion.progress.moves + 1 < n
    · refine .inr (.inl ⟨rfl, hmore, ?_⟩)
      rw [if_pos rfl, if_pos (hlt.mpr hmore)]
    · refine .inr (.inr ⟨rfl, by omega, ?_⟩)
      rw [if_pos rfl, if_neg fun h => hmore (hlt.mp h)]

theorem walk_unrolled [Counting α] {asked : Call α} (h : Plays r p n c)
    (hr : c.playback.route? = some r) (hw : r.WalksAt p d n)
    (hc : r.command? p = some (.call asked)) (ha : asked.Walks d n)
    (hi : c.playback.cursor = p) :
    Plays r p n (c.perform w (.call asked)).value.advance.value ∧
      ((c.stepIn w.grid d).unrolled p n d).advance.value =
        (c.perform w (.call asked)).value.advance.value.unrolled p n d := by
  have hplays : Plays r p n (c.stepIn w.grid d) := { h with }
  have hsr : (c.stepIn w.grid d).playback.route? = some r := hr
  have hne : (Command.call asked : Command α) ≠ .finish := fun h => by cases h
  have hin : c.playback.insists = true := by
    rw [insists_of_route hr, hw.insists]
    rfl
  have hsig : (c.stepIn w.grid d).motion.progress.signal = .advance := h.signal
  have husig : ((c.stepIn w.grid d).unrolled p n d).motion.progress.signal = .advance := hsig
  have hcount : ((c.stepIn w.grid d).mapProgress
      Progress.countMove).motion.progress.signal = .advance := hsig
  rw [advance_of_advance husig, Logged.value_pure]
  rcases walk_cases (w := w) ha hin (h.made hi) hw.bound with
    ⟨hcan, hv⟩ | ⟨hcan, hm, hv⟩ | ⟨hcan, hm, hv⟩
  · have hg : (((c.stepIn w.grid d).unrolled p n d).playback.stepped ||
        (r.unroll p n d).skippable) = false := by
      show (c.body.canStep w.grid d || r.skippable) = false
      rw [hcan, hw.insists]
      rfl
    rw [hv, advance_hold hsig]
    exact ⟨hplays, moveCursor_again (route?_unrolled hsr) hg⟩
  · rw [hv, advance_hold hcount]
    refine ⟨{ hplays with made := fun _ => ?_ }, copy_made hsr hw hi hcan hm⟩
    show min (c.motion.progress.moves + 1) maxCount < n
    omega
  · have hg : ((c.stepIn w.grid d).playback.stepped || r.skippable) = true := by
      show (c.body.canStep w.grid d || r.skippable) = true
      rw [hcan, Bool.true_or]
    -- The last step is counted in vain: the count is forgotten with the next command.
    have hlast : ((c.stepIn w.grid d).mapProgress Progress.countMove).moveCursor =
        (c.stepIn w.grid d).moveCursor := by
      rw [moveCursor_on hsr hg]
      exact moveCursor_on hsr hg
    rw [hv, advance_of_advance hcount, Logged.value_pure, hlast]
    exact ⟨plays_moveCursor hplays hw.pos, moveCursor_unrolled hsr hc hne hw.pos hg fun _ => hm⟩

/-- A tick of the one, and the same tick with the copies: both hand on the same lines. -/
structure InStep (r : Route α) (p n : Nat) (d : Direction)
    (x y : Logged (Event α) (Character α)) : Prop where
  plays : Plays r p n x.value
  value : y.value = x.value.unrolled p n d
  scripts : Event.scripts y.events = Event.scripts x.events

theorem perform_unrolled (h : c.playback.cursor ≠ p) (w : World α) (command : Command α) :
    ((c.unrolled p n d).perform w command).value =
      (c.perform w command).value.unrolled p n d := by
  have hi : (c.perform w command).value.playback.cursor ≠ p := by
    rw [(samePlace_perform w c command).cursor]
    exact h
  rw [unrolled_eq fun he => absurd he h, unrolled_eq fun he => absurd he hi]
  exact perform_mapPlayback (Playback.unseen_unroll p n 0 d) w c command

theorem inStep_elsewhere (h : Plays r p n c) (hw : r.WalksAt p d n)
    (hr : c.playback.route? = some r) (hi : c.playback.cursor ≠ p) :
    InStep r p n d (c.perform w command >>= advance)
      ((c.unrolled p n d).perform w command >>= advance) := by
  have hsame := samePlace_perform w c command
  have hsig : (c.perform w command).value.motion.progress.signal ≠ .abort := by
    apply signal_perform_ne_abort
    rw [h.signal]
    decide
  obtain ⟨hplays, hvalue⟩ := advance_unrolled (hsame.route?.trans hr) hw
    (hsame.forcing.trans h.forcing) (fun he => hi (hsame.cursor.symm.trans he)) hsig
  refine ⟨hplays, ?_, ?_⟩
  · rw [Logged.value_bind, perform_unrolled hi]
    exact hvalue
  · rw [scripts_run, scripts_run]
    rfl

theorem inStep_walk [Counting α] {asked : Call α} (h : Plays r p n c) (hw : r.WalksAt p d n)
    (hr : c.playback.route? = some r) (hc : r.command? p = some (.call asked))
    (ha : asked.Walks d n) (hi : c.playback.cursor = p) :
    InStep r p n d (c.perform w (.call asked) >>= advance)
      ((c.unrolled p n d).perform w (.step d) >>= advance) := by
  obtain ⟨hplays, hvalue⟩ := walk_unrolled (w := w) h hr hw hc ha hi
  refine ⟨hplays, hvalue, ?_⟩
  rw [scripts_run, scripts_run]
  rfl

theorem inStep_follow [Counting α] (h : Plays r p n c) (hw : r.WalksAt p d n) :
    InStep r p n d (c.follow w) ((c.unrolled p n d).follow w) := by
  obtain ⟨asked, hasked, ha⟩ := hw.place
  have hp : p < r.length := Route.lt_of_command? hasked
  have hattempt : Plays r p n c.attempt := { h with }
  have hslot : c.playback.cursor ≠ p →
      (r.unroll p n d).command? (c.unrolled p n d).playback.cursor =
        r.command? c.playback.cursor := fun hi => Route.command?_slot hp hw.pos hi
  generalize hd : c.follow w = done
  have ht : Turn w c done := hd ▸ turn_follow w c
  cases ht with
  | busy hs =>
    have hus : (c.unrolled p n d).stopping = false := hs
    rw [follow_busy hus]
    exact ⟨h, rfl, rfl⟩
  | free hr =>
    have hur : (c.unrolled p n d).playback.route? = none := by
      show c.playback.route?.map (Route.unroll p n d) = none
      rw [hr]
      rfl
    rw [follow_free hur]
    exact ⟨h, rfl, rfl⟩
  | waiting q hs hr hwait =>
    have hus : (c.unrolled p n d).stopping = true := hs
    have huw : 0 < (c.unrolled p n d).playback.wait := hwait
    rw [follow_waiting hus (route?_unrolled hr) huw]
    exact ⟨{ h with }, rfl, rfl⟩
  | ending q hs hr hwait he =>
    obtain rfl := h.route q hr
    have hus : (c.unrolled p n d).stopping = true := hs
    have hi : c.playback.cursor ≠ p := by
      intro hi
      rw [hi, hasked] at he
      rcases he with he | he <;> cases he
    rw [← hslot hi] at he
    rw [follow_ending hus (route?_unrolled hr) hwait he]
    refine ⟨plays_endRoute hattempt hw.pos, endRoute_unrolled hattempt.forcing, ?_⟩
    rw [scripts_endRoute, scripts_endRoute]
  | running q command hs hr hwait hc hf =>
    obtain rfl := h.route q hr
    have hus : (c.unrolled p n d).stopping = true := hs
    by_cases hi : c.playback.cursor = p
    · have hcopy : (q.unroll p n d).command? (c.unrolled p n d).playback.cursor =
          some (.step d) := by
        show (q.unroll p n d).command? (Route.slot p n _ c.playback.cursor) = _
        rw [hi, Route.slot_at]
        exact Route.command?_copy hp (h.made hi)
      rw [hi, hasked] at hc
      obtain rfl := Option.some.inj hc
      rw [follow_running hus (route?_unrolled hr) hwait hcopy fun h => by cases h]
      exact inStep_walk hattempt hw hr hasked ha hi
    · have huc := (hslot hi).trans hc
      rw [follow_running hus (route?_unrolled hr) hwait huc hf]
      exact inStep_elsewhere hattempt hw hr hi

theorem Plays.frame (h : Plays r p n c) : Plays r p n c.frame := by
  refine ⟨?_, ?_, ?_, ?_⟩
  · rw [playback_frame]
    exact h.forcing
  · rw [progress_frame]
    exact h.signal
  · rw [playback_frame, progress_frame]
    exact h.made
  · rw [playback_frame]
    exact h.route

theorem inStep_tick [Counting α] (h : Plays r p n c) (hw : r.WalksAt p d n) (w : World α) :
    InStep r p n d (c.tick w) ((c.unrolled p n d).tick w) := by
  have hf := inStep_follow (w := w) h hw
  refine ⟨hf.plays.frame, ?_, ?_⟩
  · rw [value_tick, value_tick, hf.value]
    exact frame_unrolled _
  · rw [events_tick, events_tick]
    exact hf.scripts

theorem inStep_ticks [Counting α] (h : Plays r p n c) (hw : r.WalksAt p d n) (w : World α)
    (k : Nat) : InStep r p n d (c.ticks w k) ((c.unrolled p n d).ticks w k) := by
  induction k generalizing c with
  | zero => exact ⟨h, rfl, rfl⟩
  | succ k ih =>
    have ht := inStep_tick h hw w
    have hk := ih ht.plays
    rw [← ht.value] at hk
    refine ⟨hk.plays, hk.value, ?_⟩
    show Event.scripts (_ ++ _) = Event.scripts (_ ++ _)
    rw [Event.scripts_append, Event.scripts_append, ht.scripts]
    exact congrArg (_ ++ ·) hk.scripts

/-- Still on the same tile and at the same command, with no step more made. -/
structure Stays (c e : Character α) : Prop extends SamePlace c e where
  position : e.body.position = c.body.position
  moves : e.motion.progress.moves = c.motion.progress.moves

omit [Scalar α] in
theorem Stays.refl (c : Character α) : Stays c c := { SamePlace.refl c with
  position := rfl
  moves := rfl }

omit [Scalar α] in
theorem Stays.trans {b e : Character α} (h : Stays b c) (k : Stays c e) : Stays b e :=
  { h.toSamePlace.trans k.toSamePlace with
    position := k.position.trans h.position
    moves := k.moves.trans h.moves }

omit [Scalar α] in
theorem Stays.unrolled {e : Character α} (h : Stays c e) :
    Stays (c.unrolled p n d) (e.unrolled p n d) where
  label := h.label
  route? := congrArg (Option.map (Route.unroll p n d)) h.route?
  cursor := congrArg₂ (Route.slot p n) h.moves h.cursor
  forcing := h.forcing
  saved? := h.saved?
  position := h.position
  moves := by
    show ite (e.playback.cursor = p) 0 e.motion.progress.moves =
      ite (c.playback.cursor = p) 0 c.motion.progress.moves
    rw [h.cursor, h.moves]

theorem stays_frame (c : Character α) : Stays c c.frame where
  label := label_frame c
  route? := by rw [playback_frame]
  cursor := by rw [playback_frame]
  forcing := by rw [playback_frame]
  saved? := by rw [playback_frame]
  position := congrArg Pose.position (pose_frame c).1
  moves := by rw [progress_frame]

theorem stays_tick [Counting α] (h : Plays r p n c) (hw : r.WalksAt p d n)
    (hr : c.playback.route? = some r) (hi : c.playback.cursor = p)
    (hb : w.grid.passable (c.body.position.step d) = false) : Stays c (c.tick w).value := by
  obtain ⟨asked, hasked, ha⟩ := hw.place
  have hattempt : Plays r p n c.attempt := { h with }
  rw [value_tick]
  suffices hs : Stays c (c.follow w).value from hs.trans (stays_frame _)
  generalize hd : c.follow w = done
  have ht : Turn w c done := hd ▸ turn_follow w c
  cases ht with
  | busy => exact .refl c
  | free => exact .refl c
  | waiting => exact ⟨⟨rfl, rfl, rfl, rfl, rfl⟩, rfl, rfl⟩
  | ending q hs hq hwait he =>
    obtain rfl := h.route q hq
    rw [hi, hasked] at he
    rcases he with he | he <;> cases he
  | running q command hs hq hwait hc =>
    obtain rfl := h.route q hq
    rw [hi, hasked] at hc
    obtain rfl := Option.some.inj hc
    have hin : c.attempt.playback.insists = true := by
      rw [insists_of_route (c := c.attempt) hr, hw.insists]
      rfl
    have hcan : c.attempt.body.canStep w.grid d = false := hb
    rcases walk_cases (w := w) ha hin (hattempt.made hi) hw.bound with
      ⟨-, hv⟩ | ⟨hfree, -⟩ | ⟨hfree, -⟩
    · have hpos : (c.attempt.stepIn w.grid d).body.position = c.body.position := by
        show (c.attempt.body.step w.grid d).position = c.body.position
        rw [Body.position_step, hcan]
        rfl
      have hsig : (c.attempt.stepIn w.grid d).motion.progress.signal = .advance := h.signal
      rw [Logged.value_bind, hv, advance_hold hsig]
      exact ⟨⟨rfl, rfl, rfl, rfl, rfl⟩, hpos, rfl⟩
    · cases hcan.symm.trans hfree
    · cases hcan.symm.trans hfree

theorem stays_ticks [Counting α] (h : Plays r p n c) (hw : r.WalksAt p d n)
    (hr : c.playback.route? = some r) (hi : c.playback.cursor = p)
    (hb : w.grid.passable (c.body.position.step d) = false) (k : Nat) :
    Stays c (c.ticks w k).value := by
  induction k generalizing c with
  | zero => exact .refl c
  | succ k ih =>
    have ht := stays_tick h hw hr hi hb
    refine ht.trans (ih (inStep_tick h hw w).plays (ht.route?.trans hr) (ht.cursor.trans hi) ?_)
    rw [ht.position]
    exact hb

end Turns

section Installed

variable [Scalar α] {r : Route α} {p n : Nat} {d : Direction} {c : Character α}

/-- A route is installed, and so many ticks go by. -/
def installFor (w : World α) (c : Character α) (r : Route α) (k : Nat) :
    Logged (Event α) (Character α) :=
  c.install w.lexicon (some r) >>= ticks w k

/-- All that can be seen is the same, and the cursors correspond: the walk with so many steps made
to the copy behind as many. -/
structure Alongside (p n : Nat) (d : Direction) (c e : Character α) : Prop where
  label : e.label = c.label
  body : e.body = c.body
  shake : e.motion.shake = c.motion.shake
  fade : e.motion.fade = c.motion.fade
  dice : e.dice = c.dice
  wait : e.playback.wait = c.playback.wait
  route? : e.playback.route? = c.playback.route?.map (Route.unroll p n d)
  cursor : e.playback.cursor = Route.slot p n c.motion.progress.moves c.playback.cursor
  made : c.playback.cursor = p → c.motion.progress.moves < n

theorem scripts_installFor (w : World α) (c : Character α) (r : Route α) (k : Nat) :
    Event.scripts (c.installFor w r k).events =
      Event.scripts ((c.play (some (r.compile w.lexicon))).ticks w k).events := by
  unfold installFor
  rw [Logged.events_bind, Event.scripts_append, scripts_install, value_install]
  rfl

theorem value_installFor (w : World α) (c : Character α) (r : Route α) (k : Nat) :
    (c.installFor w r k).value =
      ((c.play (some (r.compile w.lexicon))).ticks w k).value := by
  unfold installFor
  rw [Logged.value_bind, value_install]
  rfl

/-- A walk of `n` steps does in every tick what `n` single steps in its place do, also where one of
them is blocked: then both try again on the same tile for ever. -/
theorem walk_plays_as_steps [Counting α] (w : World α) (c : Character α)
    (hw : (r.compile w.lexicon).WalksAt p d n) (k : Nat) :
    Alongside p n d (c.installFor w r k).value (c.installFor w (r.unroll p n d) k).value ∧
      Event.scripts (c.installFor w (r.unroll p n d) k).events =
        Event.scripts (c.installFor w r k).events ∧
      ((c.installFor w r k).value.playback.route?.isSome →
        (c.installFor w r k).value.playback.cursor = p →
        w.grid.passable ((c.installFor w r k).value.body.position.step d) = false →
        ∀ j, Stays (c.installFor w r k).value (c.installFor w r (k + j)).value ∧
          Stays (c.installFor w (r.unroll p n d) k).value
            (c.installFor w (r.unroll p n d) (k + j)).value) := by
  have hstart : Plays (r.compile w.lexicon) p n (c.play (some (r.compile w.lexicon))) :=
    plays_play hw.pos fun q hq => (Option.some.inj hq).symm
  have hsame : c.play (some ((r.unroll p n d).compile w.lexicon)) =
      (c.play (some (r.compile w.lexicon))).unrolled p n d := by
    rw [Route.compile_unroll]
    exact play_unrolled c (some (r.compile w.lexicon))
  simp only [value_installFor, scripts_installFor, hsame]
  have hk := inStep_ticks hstart hw w k
  refine ⟨?_, hk.scripts, ?_⟩
  · rw [hk.value]
    exact ⟨rfl, rfl, rfl, rfl, rfl, rfl, rfl, rfl, hk.plays.made⟩
  · intro hsome hi hb j
    obtain ⟨q, hq⟩ := Option.isSome_iff_exists.mp hsome
    obtain rfl := hk.plays.route q hq
    have hstays := stays_ticks hk.plays hw hq hi hb j
    rw [← value_ticks_add] at hstays
    rw [hk.value, (inStep_ticks hstart hw w (k + j)).value]
    exact ⟨hstays, hstays.unrolled⟩

end Installed

def row : World Float where
  grid := ⟨3, 1, .ofList [true, true, true]⟩
  roster := {}
  lexicon := .standard
  settings := Settings.standard

/-- One step more than there is room for. -/
def ramble : Route Float := { commands := [.script "MOVE_R 3", .turn .up], repeats := true }

def rambler : Character Float :=
  placed "rambler" (Body.standing ⟨0, 0⟩ 1 0) row.settings

theorem walk_plays_as_steps_rambler :
    (ramble.compile row.lexicon).WalksAt 0 .right 3 ∧
      ∀ j, (rambler.installFor row ramble (2 + j)).value.body.position = ⟨2, 0⟩ ∧
        (rambler.installFor row ramble (2 + j)).value.playback.cursor = 0 ∧
        (rambler.installFor row (ramble.unroll 0 3 .right) (2 + j)).value.body.position = ⟨2, 0⟩ ∧
        (rambler.installFor row (ramble.unroll 0 3 .right) (2 + j)).value.playback.cursor = 2 := by
  have hc : (ramble.compile row.lexicon).command? 0 =
      some (.call ⟨.walk .right, [.number 3]⟩) := by decide +kernel
  have hn : Scalar.exact (3 : Float) = .finite 3 := by decide +kernel
  have hw : (ramble.compile row.lexicon).WalksAt 0 .right 3 :=
    ⟨rfl, ⟨_, hc, rfl, some 3, rfl, hn⟩, by decide, by decide⟩
  obtain ⟨-, -, hblocked⟩ := walk_plays_as_steps row rambler hw 2
  have hstays := hblocked (by decide +kernel) (by decide +kernel) (by decide +kernel)
  refine ⟨hw, fun j => ?_⟩
  obtain ⟨hwalk, hsteps⟩ := hstays j
  rw [hwalk.position, hwalk.cursor, hsteps.position, hsteps.cursor]
  decide +kernel

end Character

end TileRoute
