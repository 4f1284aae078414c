import TileRoute.Character.Basic
import TileRoute.Route.Compile

/-!
# Installing routes

Installing a route puts the cursor at its start and forgets requests and steps. A forced route keeps
aside what was installed when the first of several forced routes came, and the last of them gives it
back when it ends.
-/

namespace TileRoute.Character

variable {α : Type}

def play (c : Character α) (route? : Option (Route α)) : Character α :=
  { c with
    motion := { c.motion with progress := .start }
    playback := { c.playback with route?, cursor := 0, forcing := false } }

/-- What is kept aside once a route is forced: what was, or else what is installed now. -/
def keptAside (c : Character α) : Saved α :=
  c.playback.saved?.getD ⟨c.playback.route?, c.playback.cursor⟩

def playForced (c : Character α) (r : Route α) : Character α :=
  { c.play (some r) with
    playback :=
      { (c.play (some r)).playback with
        forcing := true
        saved? := some c.keptAside
        wait := 0 } }

def restore (c : Character α) : Character α :=
  let saved := c.playback.saved?.getD ⟨none, 0⟩
  { c.play saved.route? with
    playback := { (c.play saved.route?).playback with cursor := saved.cursor, saved? := none } }

@[simp] theorem saved?_play (c : Character α) (route? : Option (Route α)) :
    (c.play route?).playback.saved? = c.playback.saved? := rfl

@[simp] theorem saved?_playForced (c : Character α) (r : Route α) :
    (c.playForced r).playback.saved? = some c.keptAside := rfl

/-- Ends the installed route: a forced one gives way to what was kept aside. -/
def finish (c : Character α) : Logged (Event α) (Character α) :=
  if c.playback.forcing then
    ⟨c.restore, [.forcedRouteFinished c.label c.restore.playback.route?.isSome]⟩
  else ⟨c.play none, [.routeFinished c.label]⟩

variable [Scalar α]

def install (l : Lexicon) (c : Character α) : Option (Route α) → Logged (Event α) (Character α)
  | none => pure (c.play none)
  | some r => do
    let r ← r.compileLogged l
    Logged.emit (.routeInstalled c.label r.length r.repeats)
    pure (c.play (some r))

/-- Compiles a route and plays it in place of the installed one; without a route all stays as it
is. -/
def force (l : Lexicon) (c : Character α) : Option (Route α) → Logged (Event α) (Character α)
  | none => ⟨c, [.forcedRouteMissing c.label]⟩
  | some r => do
    let r ← r.compileLogged l
    Logged.emit (.routeForced c.label r.length r.awaited)
    pure (c.playForced r)

@[simp] theorem value_install (l : Lexicon) (c : Character α) (route? : Option (Route α)) :
    (c.install l route?).value = c.play (route?.map (Route.compile l)) := by
  cases route? <;> rfl

theorem value_force_some (l : Lexicon) (c : Character α) (r : Route α) :
    (c.force l (some r)).value = c.playForced (r.compile l) := rfl

theorem value_force_none (l : Lexicon) (c : Character α) : (c.force l none).value = c := rfl

end TileRoute.Character
