import TileRoute.Character.Basic
import TileRoute.Event
import TileRoute.World

/-!
# Running calls

Each action of a call is an operation on a character. `Character.invoke` reads the arguments that
the action needs, from left to right, and runs it; a call with an unusable argument changes nothing.
-/

namespace TileRoute.Character

variable {α : Type} [Scalar α]

/-- One step of several in a direction: the command runs again while fewer steps have been made than
asked for, or while the way is blocked and the route insists on it. -/
def walk (g : Grid) (c : Character α) (d : Direction) (count : α) : Character α :=
  let moved := (c.stepIn g d).mapProgress Progress.countMove
  if c.body.canStep g d then
    if Scalar.Lt (Scalar.ofInt moved.motion.progress.moves) count then
      moved.mapProgress Progress.hold
    else moved
  else if c.playback.insists then (c.stepIn g d).mapProgress Progress.hold
  else c.stepIn g d

/-- One step toward a tile: the command runs again until the character stands on it. -/
def approach (g : Grid) (c : Character α) (goal : Tile) : Character α :=
  match c.body.heading? g goal with
  | none => c
  | some d =>
    if (c.stepIn g d).body.position = goal then c.stepIn g d
    else (c.stepIn g d).mapProgress Progress.hold

def startShake (c : Character α) (axis : Axis) (power speed : α) (duration : Int) :
    Logged (Event α) (Character α) where
  value :=
    { c with motion := { c.motion with shake := c.motion.shake.start axis power speed duration } }
  events := [.shakeStarted axis power speed duration c.motion.shake.offset]

def startFade (span : α) (c : Character α) (ramp : Ramp) (duration : α) (blocks : Bool) :
    Except (CallError α) (Logged (Event α) (Character α)) :=
  if Scalar.Le duration Scalar.zero then .error (.nonPositiveDuration duration)
  else
    let fade := Fade.lasting ramp duration span blocks
    .ok ⟨{ c with motion := { c.motion with fade } }, [.fadeStarted ramp duration fade.step blocks]⟩

def showPortrait (c : Character α) (portrait? : Option Portrait) (missing : Event α) :
    Logged (Event α) (Character α) :=
  match portrait? with
  | some p => pure (c.mapBody fun b => b.withPortrait p)
  | none => ⟨c, [missing]⟩

def showActor (r : Roster) (c : Character α) (id : Int) : Logged (Event α) (Character α) :=
  c.showPortrait (r.portrait? id) (.actorImageMissing c.label id)

def showMember (r : Roster) (c : Character α) (slot : Int) : Logged (Event α) (Character α) :=
  c.showPortrait (r.memberPortrait? slot) (.memberImageMissing c.label slot)

def drawWait (d : Dice) (least limit : Int) : Nat × Dice :=
  let (drawn, d) := d.below (toIdentifier (limit - least)).toNat
  (toCount (toIdentifier (least + drawn)), d)

/-- Waits a random number of frames, from the least one up to below the limit. -/
def randomWait (c : Character α) (least limit : Int) : Except (CallError α) (Character α) :=
  if limit ≤ least then .error (.emptyRange least limit)
  else
    let (frames, dice) := drawWait c.dice least limit
    .ok { c with playback := { c.playback with wait := frames }, dice }

def invoke (w : World α) (c : Character α) (call : Call α) :
    Except (CallError α) (Logged (Event α) (Character α)) :=
  match call.action with
  | .walk d => do
    let count ← call.number? 0
    pure (pure (c.walk w.grid d (count.getD (Scalar.ofInt 1))))
  | .shake axis => do
    let power ← call.magnitude 0
    let speed ← call.magnitude 1
    let duration ← call.integer 2
    pure (c.startShake axis power speed (toCoordinate duration))
  | .fade ramp => do
    let duration ← call.number 0
    let blocks ← call.truth 1
    c.startFade w.settings.opacitySpan ramp duration blocks
  | .actorImage => do
    let id ← call.integer 0
    pure (c.showActor w.roster id)
  | .memberImage => do
    let slot ← call.integer 0
    pure (c.showMember w.roster slot)
  | .approach => do
    let x ← call.integer 0
    let y ← call.integer 1
    pure (pure (c.approach w.grid ⟨toCoordinate x, toCoordinate y⟩))
  | .randomWait => do
    let least ← call.integer 0
    let limit ← call.integer 1
    pure <$> c.randomWait least limit

end TileRoute.Character
