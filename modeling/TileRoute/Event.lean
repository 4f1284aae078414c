import TileRoute.Call.Text
import TileRoute.Route.Basic
import TileRoute.Logged

/-!
# Events

Everything that happens on a stage and may be of interest outside is an `Event`. A script line that
no mnemonic claims is an event too: handing it on is all that the stage does with it, and
`Event.script?` picks those lines out. Each event has a name, a level and named fields.
-/

namespace TileRoute

inductive Event (α : Type) where
  | scriptResolved (index : Nat) (script : String) (call : Call α)
  | routeCompiled (commands resolved : Nat)
  | routeInstalled (character : String) (commands : Nat) (repeats : Bool)
  | routeForced (character : String) (commands : Nat) (awaited : Bool)
  | forcedRouteMissing (character : String)
  | forcedRouteFinished (character : String) (restored : Bool)
  | routeFinished (character : String)
  | routeAborted (character : String) (index : Nat)
  | scriptPassed (character : String) (script : String)
  | callFailed (character : String) (index : Nat) (call : Call α) (error : CallError α)
  | shakeStarted (axis : Axis) (power speed : α) (duration : Int) (offset : α)
  | fadeStarted (ramp : Ramp) (duration step : α) (blocks : Bool)
  | actorImageMissing (character : String) (actor : Int)
  | memberImageMissing (character : String) (slot : Int)
  | stageBuilt (width height characters : Nat)
  | stageTicked (tick : Nat)
  | stageIdle (tick : Nat)
  | characterSeen (tick : Nat) (character : String) (tile : Tile) (shake : α × α) (opacity : α)
      (cursor : Option Nat)
  | runFinished (ticks scripts : Nat)

inductive Level where
  | debug
  | info
  | warn
  deriving DecidableEq, Repr

inductive FieldValue where
  | text (s : String)
  | integer (i : Int)
  | truth (b : Bool)
  | number (x : Float)

namespace Event

variable {α : Type}

/-- The script line that an event hands on, with the character that it belongs to. -/
def script? : Event α → Option (String × String)
  | scriptPassed character text => some (character, text)
  | _ => none

def scripts (es : List (Event α)) : List (String × String) := es.filterMap script?

@[simp] theorem scripts_append (xs ys : List (Event α)) :
    scripts (xs ++ ys) = scripts xs ++ scripts ys := List.filterMap_append

/-- How much an event matters: a failed call is a warning, the course of a route and of a run is
information. -/
def level : Event α → Level
  | callFailed .. => .warn
  | routeInstalled .. | routeForced .. | routeAborted .. | stageBuilt .. | stageIdle ..
  | characterSeen .. | runFinished .. => .info
  | _ => .debug

def name : Event α → String
  | scriptResolved .. => "script_rewritten"
  | routeCompiled .. => "route_compiled"
  | routeInstalled .. => "route_installed"
  | routeForced .. => "route_forced"
  | forcedRouteMissing .. => "forced_route_missing"
  | forcedRouteFinished .. => "forced_route_finished"
  | routeFinished .. => "route_finished"
  | routeAborted .. => "route_aborted"
  | scriptPassed .. => "script_passthrough"
  | callFailed .. => "invocation_failed"
  | shakeStarted .. => "shake_started"
  | fadeStarted .. => "fade_started"
  | actorImageMissing .. => "actor_image_missing"
  | memberImageMissing .. => "member_image_missing"
  | stageBuilt .. => "stage_built"
  | stageTicked .. => "stage_ticked"
  | stageIdle .. => "stage_idle"
  | characterSeen .. => "character_snapshot"
  | runFinished .. => "run_finished"

def cursorText : Option Nat → String
  | none => "None"
  | some i => s!"Some({i})"

def fields : Event Float → List (String × FieldValue)
  | scriptResolved i script call =>
    [("index", .integer i), ("script", .text script), ("invocation", .text call.text)]
  | routeCompiled commands resolved =>
    [("commands", .integer commands), ("rewritten", .integer resolved)]
  | routeInstalled c commands repeats =>
    [("character", .text c), ("commands", .integer commands), ("repeat", .truth repeats)]
  | routeForced c commands awaited =>
    [("character", .text c), ("commands", .integer commands), ("wait", .truth awaited)]
  | forcedRouteMissing c => [("character", .text c)]
  | forcedRouteFinished c restored => [("character", .text c), ("restored", .truth restored)]
  | routeFinished c => [("character", .text c)]
  | routeAborted c i => [("character", .text c), ("index", .integer i)]
  | scriptPassed c script => [("character", .text c), ("script", .text script)]
  | callFailed c i call error =>
    [("character", .text c), ("index", .integer i), ("invocation", .text call.text),
      ("error", .text error.message)]
  | shakeStarted axis power speed duration offset =>
    [("axis", .text axis.token), ("power", .number power), ("speed", .number speed),
      ("duration", .integer duration), ("offset", .number offset)]
  | fadeStarted ramp duration step blocks =>
    [("direction", .text ramp.token), ("duration", .number duration),
      ("step_per_tick", .number step), ("blocks_advance", .truth blocks)]
  | actorImageMissing c actor => [("character", .text c), ("actor_id", .integer actor)]
  | memberImageMissing c slot => [("character", .text c), ("slot", .integer slot)]
  | stageBuilt width height characters =>
    [("width", .integer width), ("height", .integer height), ("characters", .integer characters)]
  | stageTicked tick => [("tick", .integer tick)]
  | stageIdle tick => [("tick", .integer tick)]
  | characterSeen tick c tile shake opacity cursor =>
    [("tick", .integer tick), ("character", .text c), ("x", .integer tile.x),
      ("y", .integer tile.y), ("shake_x", .number shake.1), ("shake_y", .number shake.2),
      ("opacity", .number opacity), ("route_index", .text (cursorText cursor))]
  | runFinished ticks scripts => [("ticks", .integer ticks), ("scripts", .integer scripts)]

end Event

end TileRoute
