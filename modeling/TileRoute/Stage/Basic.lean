import TileRoute.Character.Tick
import TileRoute.Scenario.Check

/-!
# Stages

A `Stage` is a cast of characters in one world. In a tick every character has its tick, in the order
in which they came onto the stage; none of them sees another one. The script lines that no mnemonic
claims are collected with the labels of their characters.
-/

namespace TileRoute

structure Stage (α : Type) where
  world : World α
  characters : List (Character α)
  time : Nat := 0
  scripts : Array (String × String) := #[]

namespace Stage

variable {α : Type} [Scalar α]

/-- The character of a part, with its route installed or forced. -/
def enter (w : World α) (p : Part α) : Logged (Event α) (Character α) :=
  let body := Body.standing p.start p.framesPerStep (p.searchLimit?.getD Body.defaultSearchLimit)
  let body := match p.opacity? with
    | some x => body.withOpacity x
    | none => body
  let c := Character.placed p.label body w.settings
  if p.forced then c.force w.lexicon p.route? else c.install w.lexicon p.route?

def worldOf (s : Scenario α) (g : Grid) : World α where
  grid := g
  roster := s.roster
  lexicon := .standard
  settings := s.settings

def onGrid (s : Scenario α) (g : Grid) : Logged (Event α) (Stage α) :=
  let entered := s.parts.map (enter (worldOf s g))
  { value := { world := worldOf s g, characters := entered.map Logged.value }
    events := entered.flatMap Logged.events ++ [.stageBuilt g.width g.height s.parts.length] }

def ofScenario (s : Scenario α) : Except GridError (Logged (Event α) (Stage α)) :=
  (onGrid s) <$> s.map.draw

/-- The turns of a cast, one after the other. Each character has its tick, and the script lines that
it hands on come behind those that the stage has been handed before. -/
def turns (w : World α) :
    List (Character α) → Array (String × String) →
      Logged (Event α) (List (Character α) × Array (String × String))
  | [], lines => ⟨([], lines), []⟩
  | c :: rest, lines =>
    let ticked := c.tick w
    let others := turns w rest (lines ++ Event.scripts ticked.events)
    ⟨(ticked.value :: others.value.1, others.value.2), ticked.events ++ others.events⟩

def tick (s : Stage α) : Logged (Event α) (Stage α) :=
  let played := turns s.world s.characters s.scripts
  { value :=
      { s with
        characters := played.value.1
        time := s.time + 1
        scripts := played.value.2 }
    events := played.events ++ [.stageTicked (s.time + 1)] }

def idle (s : Stage α) : Bool := s.characters.all Character.idle

omit [Scalar α] in
def scriptsOf (s : Stage α) (label : String) : List String :=
  s.scripts.toList.filterMap fun (owner, text) => if owner = label then some text else none

/-- Each character has its own tick, whatever the others are and whatever has been handed on. -/
theorem characters_turns (w : World α) (cs : List (Character α)) (lines : Array (String × String)) :
    (turns w cs lines).value.1 = cs.map fun c => (c.tick w).value := by
  induction cs generalizing lines with
  | nil => rfl
  | cons c rest ih =>
    simp only [turns, List.map_cons]
    rw [ih]

theorem characters_tick (s : Stage α) :
    s.tick.value.characters = s.characters.map fun c => (c.tick s.world).value :=
  characters_turns s.world s.characters s.scripts

@[simp] theorem world_tick (s : Stage α) : s.tick.value.world = s.world := rfl

@[simp] theorem time_tick (s : Stage α) : s.tick.value.time = s.time + 1 := rfl

end Stage

end TileRoute
