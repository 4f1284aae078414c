import TileRoute.Character.Install
import TileRoute.Character.Invoke

/-!
# Ticks

A tick of a character that is at rest runs at most one command of its route; then a swing, a jump or
a step, whichever comes first, goes on by a frame, a picture is shown and the opacity changes. After
a command the cursor moves on, unless the command asked for another run or was blocked on a route
that does not leave blocked steps out.
-/

namespace TileRoute.Character

variable {α : Type} [Scalar α]

/-- Runs a command. A call that cannot run is reported and left at that. -/
def perform (w : World α) (c : Character α) : Command α → Logged (Event α) (Character α)
  | .finish => pure c
  | .step d => pure (c.stepIn w.grid d)
  | .turn d => pure (c.mapBody fun b => b.face d)
  | .wait frames => pure (c.mapPlayback fun p => { p with wait := frames - 1 })
  | .script text => ⟨c, [.scriptPassed c.label text]⟩
  | .call call =>
    match c.invoke w call with
    | .ok done => done
    | .error error => ⟨c, [.callFailed c.label c.playback.cursor call error]⟩

omit [Scalar α] in
/-- The cursor after the one given: a route that starts over has no cursor behind its cycle. -/
def nextCursor (r : Route α) (cursor : Nat) : Nat :=
  if r.repeats && decide (r.cycleLength ≤ cursor + 1) then 0 else cursor + 1

omit [Scalar α] in
theorem nextCursor_cases (r : Route α) (i : Nat) :
    nextCursor r i = 0 ∧ r.repeats = true ∧ r.cycleLength ≤ i + 1 ∨
      nextCursor r i = i + 1 ∧ (r.repeats = true → i + 1 < r.cycleLength) := by
  unfold nextCursor
  split
  · rename_i h
    rw [Bool.and_eq_true, decide_eq_true_eq] at h
    exact .inl ⟨rfl, h.1, h.2⟩
  · rename_i h
    refine .inr ⟨rfl, fun hr => ?_⟩
    rw [hr, Bool.true_and, decide_eq_true_eq] at h
    omega

omit [Scalar α] in
/-- Moves the cursor on and forgets the steps of the command, unless that was blocked on a route
that tries again. -/
def moveCursor (c : Character α) : Character α :=
  match c.playback.route? with
  | none => c
  | some r =>
    if c.playback.stepped || r.skippable then
      (c.mapPlayback fun p => { p with cursor := nextCursor r p.cursor }).mapProgress
        Progress.resetMoves
    else c

omit [Scalar α] in
/-- Takes the request of the command that has just run and does what it asks for. -/
def advance (c : Character α) : Logged (Event α) (Character α) :=
  let taken := c.mapProgress Progress.take
  match c.motion.progress.signal with
  | .hold => pure taken
  | .abort => do
    Logged.emit (.routeAborted c.label c.playback.cursor)
    taken.finish
  | .advance => pure taken.moveCursor

omit [Scalar α] in
/-- Comes to the end of a route: starts over, or ends it. -/
def endRoute (c : Character α) (r : Route α) : Logged (Event α) (Character α) :=
  if r.repeats then
    pure ((c.mapPlayback fun p => { p with cursor := 0 }).mapProgress Progress.resetMoves)
  else c.finish

/-- Goes on with a route by one command, or by one tick of a wait. -/
def followRoute (w : World α) (c : Character α) (r : Route α) :
    Logged (Event α) (Character α) :=
  if 0 < c.playback.wait then pure (c.mapPlayback fun p => { p with wait := p.wait - 1 })
  else
    let c := c.mapPlayback fun p => { p with stepped := true }
    match r.command? c.playback.cursor with
    | none => c.endRoute r
    | some .finish => c.endRoute r
    | some command => do
      let c ← c.perform w command
      c.advance

def follow (w : World α) (c : Character α) : Logged (Event α) (Character α) :=
  if c.stopping then
    match c.playback.route? with
    | some r => c.followRoute w r
    | none => pure c
  else pure c

/-- A frame of the swing, else of the jump, else of the step. -/
def animate (c : Character α) : Character α :=
  if c.motion.shake.active then
    { c with motion := { c.motion with shake := c.motion.shake.update } }
  else if c.body.jumping then c.mapBody Body.updateJump
  else if c.body.moving then c.mapBody Body.updateMove
  else c

def ramp (c : Character α) : Character α :=
  match c.motion.fade.change? with
  | some change =>
    { c with
      body := c.body.withOpacity (c.body.opacity + change)
      motion := { c.motion with fade := c.motion.fade.update } }
  | none => c

/-- The frames of a tick: everything in it but the route. -/
def frame (c : Character α) : Character α := (c.animate.mapBody Body.updateAnimation).ramp

def tick (w : World α) (c : Character α) : Logged (Event α) (Character α) := do
  let c ← c.follow w
  pure c.frame

def ticks (w : World α) : Nat → Character α → Logged (Event α) (Character α)
  | 0, c => pure c
  | n + 1, c => do
    let c ← c.tick w
    ticks w n c

@[simp] theorem value_tick (w : World α) (c : Character α) :
    (c.tick w).value = (c.follow w).value.frame := rfl

@[simp] theorem events_tick (w : World α) (c : Character α) :
    (c.tick w).events = (c.follow w).events := List.append_nil _

end TileRoute.Character
