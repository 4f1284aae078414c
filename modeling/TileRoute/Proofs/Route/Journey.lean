import Mathlib.Data.List.TakeWhile
import TileRoute.Proofs.Character.Delay
import TileRoute.Proofs.Grid.Ahead

/-!
# What a route amounts to

The commands of a route up to its first finish command can be read one after the other, without a
tick: each is a `Leg` that takes some time, leads from one pose to another and may be blocked. The
`Journey` of a route puts the legs together. A step that is blocked is the end of it unless the route
leaves such steps out.
-/

namespace TileRoute

/-- A command read as a whole: its time in ticks, the pose after it, and whether it was blocked. -/
structure Leg where
  ticks : Nat
  pose : Pose
  blocked : Bool := false

/-- A tick in which nothing is done. -/
def Leg.still (p : Pose) : Leg where
  ticks := 1
  pose := p

/-- Several steps straight ahead. One that is blocked takes a tick. -/
def Grid.stride (g : Grid) (framesPerStep : Nat) (p : Pose) (d : Direction) (steps : Nat) : Leg :=
  let made := g.clear p.position d steps
  { ticks := made * max 1 framesPerStep + if made < steps then 1 else 0
    pose := { p with position := p.position.ahead d made, facing := d }
    blocked := decide (made < steps) }

namespace Grid

variable {g : Grid} {f n : Nat} {p : Pose} {d : Direction}

theorem stride_zero : g.stride f p d 0 = { ticks := 0, pose := { p with facing := d } } := by
  simp only [stride, clear, Tile.ahead_zero, Nat.zero_mul, Nat.lt_irrefl, if_false, decide_false]

theorem stride_free (hp : g.passable (p.position.step d) = true) :
    g.stride f p d (n + 1) =
      let rest := g.stride f { p with position := p.position.step d, facing := d } d n
      { rest with ticks := max 1 f + rest.ticks } := by
  have hc : g.clear p.position d (n + 1) = g.clear (p.position.step d) d n + 1 := by
    simp only [clear, hp, if_true]
  have ht : (g.clear (p.position.step d) d n + 1) * max 1 f =
      max 1 f + g.clear (p.position.step d) d n * max 1 f := by ring
  simp only [stride, hc, Tile.ahead_succ, Nat.add_lt_add_iff_right, ht, Nat.add_assoc]

theorem stride_blocked (hp : g.passable (p.position.step d) = false) :
    g.stride f p d (n + 1) = { ticks := 1, pose := { p with facing := d }, blocked := true } := by
  have hc : g.clear p.position d (n + 1) = 0 := by
    simp only [clear, hp, Bool.false_eq_true, if_false]
  have hn : 0 < n + 1 := Nat.succ_pos n
  simp only [stride, hc, Tile.ahead_zero, Nat.zero_mul, Nat.zero_add, hn, if_true, decide_true]

end Grid

variable {α : Type} [Scalar α]

/-- The steps that a count asks for, one at least. -/
def stepsOf (count : α) : Nat := max 1 (Scalar.exact count).ceilCount

/-- A call read as a whole. One that cannot run is a tick in which nothing is done. -/
def Call.leg (w : World α) (framesPerStep : Nat) (p : Pose) (call : Call α) : Leg :=
  match call.action with
  | .walk d =>
    match call.number? 0 with
    | .ok count => w.grid.stride framesPerStep p d (stepsOf (count.getD (Scalar.ofInt 1)))
    | .error _ => .still p
  | .fade _ =>
    match call.number 0, call.truth 1 with
    | .ok duration, .ok true =>
      -- A duration that stands for nothing is accepted and takes no tick beyond this one.
      if Scalar.Le duration Scalar.zero then .still p
      else { ticks := max 1 (Scalar.exact duration).ceilCount, pose := p }
    | _, _ => .still p
  | .actorImage =>
    match call.integer 0 with
    | .ok id => .still { p with portrait? := (w.roster.portrait? id).or p.portrait? }
    | .error _ => .still p
  | .memberImage =>
    match call.integer 0 with
    | .ok slot => .still { p with portrait? := (w.roster.memberPortrait? slot).or p.portrait? }
    | .error _ => .still p
  | .shake _ | .approach | .randomWait => .still p

/-- A command read as a whole. -/
def Command.leg (w : World α) (framesPerStep : Nat) (p : Pose) : Command α → Leg
  | .finish => .still p
  | .step d => w.grid.stride framesPerStep p d 1
  | .turn d => .still { p with facing := d }
  | .wait frames => { ticks := max 1 frames, pose := p }
  | .script _ => .still p
  | .call asked => asked.leg w framesPerStep p

/-- The command can be read as a whole: it does not swing, seek or draw, unless it fails. -/
def Command.Plain (w : World α) : Command α → Prop
  | .call asked =>
    match asked.action with
    | .shake _ | .approach | .randomWait =>
      ∀ c : Character α, ∃ error, c.invoke w asked = .error error
    | _ => True
  | _ => True

/-- The command makes steps in a direction, this many at most. -/
inductive Command.Strides (d : Direction) : Nat → Command α → Prop
  | step : Strides d 1 (.step d)
  | walk (asked : Call α) (count? : Option α) (ha : asked.action = .walk d)
      (hc : asked.number? 0 = .ok count?) :
      Strides d (stepsOf (count?.getD (Scalar.ofInt 1))) (.call asked)

/-- The command steps the way the body faces, and the tile ahead is blocked. -/
def Command.Obstructed (w : World α) (p : Pose) (command : Command α) : Prop :=
  (∃ n, command.Strides p.facing n) ∧ w.grid.passable (p.position.step p.facing) = false

section Steps

variable {w : World α} {f : Nat} {p : Pose} {command : Command α}

theorem Command.Strides.line? {d : Direction} {n : Nat} (h : command.Strides d n) :
    command.line? = none := by
  cases h <;> rfl

theorem Command.Strides.ne_finish {d : Direction} {n : Nat} (h : command.Strides d n) :
    command ≠ .finish := by
  cases h <;> exact fun he => by cases he

/-- A leg makes steps, or the body stays on its tile. -/
theorem Command.leg_cases (w : World α) (f : Nat) (p : Pose) (command : Command α) :
    (∃ d n, command.Strides d n ∧ command.leg w f p = w.grid.stride f p d n) ∨
      (command.leg w f p).blocked = false ∧
        (command.leg w f p).pose.position = p.position := by
  cases command with
  | finish => exact .inr ⟨rfl, rfl⟩
  | step d => exact .inl ⟨d, 1, .step, rfl⟩
  | turn d => exact .inr ⟨rfl, rfl⟩
  | wait frames => exact .inr ⟨rfl, rfl⟩
  | script text => exact .inr ⟨rfl, rfl⟩
  | call asked =>
    change (∃ d n, (Command.call asked).Strides d n ∧ asked.leg w f p = w.grid.stride f p d n) ∨
      (asked.leg w f p).blocked = false ∧ (asked.leg w f p).pose.position = p.position
    unfold Call.leg
    cases ha : asked.action with
    | walk d =>
      cases hn : asked.number? 0 with
      | error e => exact .inr ⟨rfl, rfl⟩
      | ok count? => exact .inl ⟨d, _, .walk asked count? ha hn, rfl⟩
    | fade ramp =>
      refine .inr ?_
      dsimp only
      split
      · split <;> exact ⟨rfl, rfl⟩
      · exact ⟨rfl, rfl⟩
    | actorImage =>
      refine .inr ?_
      dsimp only
      split <;> exact ⟨rfl, rfl⟩
    | memberImage =>
      refine .inr ?_
      dsimp only
      split <;> exact ⟨rfl, rfl⟩
    | shake axis => exact .inr ⟨rfl, rfl⟩
    | approach => exact .inr ⟨rfl, rfl⟩
    | randomWait => exact .inr ⟨rfl, rfl⟩

theorem Command.contains_leg (hg : w.grid.contains p.position = true) (command : Command α) :
    w.grid.contains (command.leg w f p).pose.position = true := by
  rcases command.leg_cases w f p with ⟨d, n, -, hl⟩ | ⟨-, hp⟩
  · rw [hl]
    change w.grid.contains (p.position.ahead d (w.grid.clear p.position d n)) = true
    cases hk : w.grid.clear p.position d n with
    | zero =>
      rw [Tile.ahead_zero]
      exact hg
    | succ k => exact Grid.passable_contains (Grid.passable_ahead (n := n) (by omega))
  · rw [hp]
    exact hg

theorem Command.obstructed_leg (h : (command.leg w f p).blocked = true) :
    command.Obstructed w (command.leg w f p).pose := by
  rcases command.leg_cases w f p with ⟨d, n, hd, hl⟩ | ⟨hn, -⟩
  · rw [hl] at h ⊢
    have hlt : w.grid.clear p.position d n < n := of_decide_eq_true h
    refine ⟨⟨n, hd⟩, ?_⟩
    change w.grid.passable ((p.position.ahead d (w.grid.clear p.position d n)).step d) = false
    rw [Tile.step_ahead]
    exact Grid.blocked_ahead hlt
  · rw [hn] at h
    cases h

end Steps

omit [Scalar α] in
/-- The command ends a route. -/
def Command.ends : Command α → Bool
  | .finish => true
  | _ => false

omit [Scalar α] in
/-- The commands up to the first finish command. -/
def Route.stretch (r : Route α) : List (Command α) := r.commands.takeWhile fun c => !c.ends

/-- Commands read one after the other: the time they take in ticks, the pose after them, the lines
they hand on, and the place of the step that was blocked for good. -/
structure Journey where
  ticks : Nat
  pose : Pose
  texts : List String
  stuck? : Option Nat
  deriving DecidableEq

/-- The journey of commands that stand in a route from a place on. -/
def journey (w : World α) (framesPerStep : Nat) (skippable : Bool) :
    List (Command α) → Pose → Nat → Journey
  | [], p, _ => ⟨0, p, [], none⟩
  | command :: rest, p, i =>
    let leg := command.leg w framesPerStep p
    if leg.blocked && !skippable then ⟨leg.ticks, leg.pose, command.line?.toList, some i⟩
    else
      let j := journey w framesPerStep skippable rest leg.pose (i + 1)
      { j with ticks := leg.ticks + j.ticks, texts := command.line?.toList ++ j.texts }

omit [Scalar α] in
theorem Route.commands_stretch (r : Route α) :
    ∃ rest, r.commands = r.stretch ++ rest ∧
      (rest.head? = none ∨ rest.head? = some .finish) := by
  refine ⟨r.commands.dropWhile fun c => !c.ends, List.takeWhile_append_dropWhile.symm, ?_⟩
  have hn := List.head?_dropWhile_not (fun c : Command α => !c.ends) r.commands
  cases hd : (r.commands.dropWhile fun c => !c.ends).head? with
  | none => exact .inl rfl
  | some command =>
    rw [hd] at hn
    cases command with
    | finish => exact .inr rfl
    | step d => cases hn
    | turn d => cases hn
    | wait frames => cases hn
    | script text => cases hn
    | call call => cases hn

omit [Scalar α] in
theorem Route.command?_stretch {r : Route α} {i : Nat} {command : Command α}
    (h : r.stretch[i]? = some command) : r.command? i = some command ∧ command ≠ .finish := by
  obtain ⟨rest, hs, -⟩ := r.commands_stretch
  obtain ⟨hi, rfl⟩ := List.getElem?_eq_some_iff.mp h
  refine ⟨?_, ?_⟩
  · unfold Route.command?
    rw [hs, List.getElem?_append_left hi]
    exact h
  · intro hf
    have hm := List.mem_takeWhile_imp (List.getElem_mem hi)
    rw [hf] at hm
    cases hm

omit [Scalar α] in
theorem Route.command?_end (r : Route α) :
    r.command? r.stretch.length = none ∨ r.command? r.stretch.length = some .finish := by
  obtain ⟨rest, hs, hr⟩ := r.commands_stretch
  have hc : r.command? r.stretch.length = rest.head? := by
    unfold Route.command?
    rw [hs, List.getElem?_append_right (Nat.le_refl _), Nat.sub_self, List.head?_eq_getElem?]
  rw [hc]
  exact hr

/-- A journey is stuck only at a command that is blocked where it ends. -/
theorem stuck_obstructed {w : World α} {f : Nat} {skippable : Bool} {commands : List (Command α)}
    {p : Pose} {i k : Nat} (h : (journey w f skippable commands p i).stuck? = some k) :
    skippable = false ∧ ∃ n command, k = i + n ∧ commands[n]? = some command ∧
      command.Obstructed w (journey w f skippable commands p i).pose := by
  induction commands generalizing p i with
  | nil => cases h
  | cons command rest ih =>
    unfold journey at h ⊢
    cases hb : (command.leg w f p).blocked && !skippable with
    | true =>
      simp only [hb, if_true] at h ⊢
      obtain ⟨hleg, hs⟩ := Bool.and_eq_true_iff.mp hb
      refine ⟨Bool.not_eq_true' _ ▸ hs, 0, command, ?_, rfl, command.obstructed_leg hleg⟩
      exact (Option.some.inj h).symm
    | false =>
      simp only [hb, Bool.false_eq_true, if_false] at h ⊢
      obtain ⟨hs, n, other, hk, hn, ho⟩ := ih h
      refine ⟨hs, n + 1, other, ?_, hn, ho⟩
      omega

end TileRoute
