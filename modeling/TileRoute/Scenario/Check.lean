import TileRoute.Scenario.Decode
import TileRoute.Text.Blank

/-!
# Checking scenarios

A scenario that can be read may still make no sense. The map has to be one that can be drawn, tiles
need a size, and every part needs a label of its own and a start on which a character can stand. The
first flaw in that order is reported, the parts one after the other.
-/

namespace TileRoute

inductive Flaw where
  | tileSize
  | emptyLabel (part : Nat)
  | duplicateLabel (part : Nat) (label : String)
  | badStart (part : Nat) (start : Tile)
  deriving DecidableEq, Repr

namespace Flaw

def path : Flaw → List Step
  | tileSize => [.key "motion"]
  | emptyLabel i => [.key "characters", .index i, .key "label"]
  | duplicateLabel i _ => [.key "characters", .index i, .key "label"]
  | badStart i _ => [.key "characters", .index i, .key "start"]

def message : Flaw → String
  | tileSize => "tile dimensions must be positive"
  | emptyLabel _ => "label is empty"
  | duplicateLabel _ label => s!"duplicate label '{label}'"
  | badStart _ start => s!"start tile ({start.x}, {start.y}) is blocked or outside the map"

end Flaw

inductive ScenarioError where
  | missingFile (path : String)
  | unreadable (problem : Problem)
  | badMap (error : GridError)
  | flawed (flaw : Flaw)
  deriving DecidableEq, Repr

/-- The message of an error, as far as there is one: a text that is malformed has none. -/
def ScenarioError.message : ScenarioError → String
  | .missingFile path => s!"failed to read scenario {path}: No such file or directory (os error 2)"
  | .unreadable .malformed => ""
  | .unreadable (.misplaced _ cause) => cause.message
  | .badMap error => "invalid map: " ++ error.message
  | .flawed flaw => s!"validation failed at {Step.pathText flaw.path}: {flaw.message}"

namespace Scenario

variable {α : Type}

def partFlaw? (g : Grid) (labels : List String) (i : Nat) : List (Part α) → Option Flaw
  | [] => none
  | p :: rest =>
    if Text.allBlank p.label then some (.emptyLabel i)
    else if labels.contains p.label then some (.duplicateLabel i p.label)
    else if !g.passable p.start then some (.badStart i p.start)
    else partFlaw? g (p.label :: labels) (i + 1) rest

def flaw? [Scalar α] (s : Scenario α) (g : Grid) : Option Flaw :=
  if Scalar.Le s.settings.tileWidth Scalar.zero ∨ Scalar.Le s.settings.tileHeight Scalar.zero then
    some .tileSize
  else partFlaw? g [] 0 s.parts

def check [Scalar α] (s : Scenario α) : Except ScenarioError Unit := do
  let g ← s.map.draw.mapError .badMap
  match s.flaw? g with
  | none => .ok ()
  | some flaw => .error (.flawed flaw)

def accept (text : String) : Except ScenarioError (Scenario Float) := do
  let s ← (ofText? text).mapError .unreadable
  s.check
  .ok s

end Scenario

end TileRoute
