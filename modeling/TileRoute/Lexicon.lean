import TileRoute.Text.Blank
import TileRoute.Call.Basic

/-!
# Mnemonics

A `Lexicon` holds the mnemonics in the order in which they were registered, and an index that gives
the place of each of them under its name in capitals. No two of them differ in the case of letters
only, and none is blank or holds a blank, so that each of them can be the first word of a script
line. `Lexicon.read?` turns a script line whose first word is known into a call of its action with
the next words, as many as the action takes.
-/

namespace TileRoute

structure Mnemonic where
  name : String
  summary : String
  action : Action
  deriving DecidableEq, Repr

namespace Mnemonic

def schema (m : Mnemonic) : String :=
  " ".intercalate (m.action.parameters.map fun p => "<" ++ p ++ ">")

def usage (m : Mnemonic) : String := m.name ++ " " ++ m.schema ++ " - " ++ m.summary

/-- The name that a mnemonic is looked up by. -/
def key (m : Mnemonic) : String := Text.capitals m.name

end Mnemonic

inductive LexiconError where
  | blankName
  | severalWords (name : String)
  | duplicate (name : String)
  deriving DecidableEq, Repr

def LexiconError.message : LexiconError → String
  | .blankName => "mnemonic name cannot be empty"
  | .severalWords name => s!"mnemonic name '{name}' must be a single token"
  | .duplicate name => s!"duplicate mnemonic registration: {name}"

structure Lexicon where
  mnemonics : List Mnemonic
  /-- The place of each mnemonic, last one first. -/
  places : List (String × Nat)
  deriving DecidableEq, Repr

namespace Lexicon

def empty : Lexicon := ⟨[], []⟩

def place? (l : Lexicon) (word : String) : Option Nat := l.places.lookup (Text.capitals word)

def find? (l : Lexicon) (word : String) : Option Mnemonic :=
  (l.place? word).bind fun i => l.mnemonics[i]?

/-- Puts a mnemonic behind the others, and its place into the index. -/
def add (l : Lexicon) (m : Mnemonic) : Lexicon where
  mnemonics := l.mnemonics ++ [m]
  places := (m.key, l.mnemonics.length) :: l.places

def register (l : Lexicon) (m : Mnemonic) : Except LexiconError Lexicon :=
  if Text.allBlank m.name then .error .blankName
  else if Text.hasBlank m.name then .error (.severalWords m.name)
  else if (l.place? m.name).isSome then .error (.duplicate m.name)
  else .ok (l.add m)

/-- Registers a mnemonic, or leaves the lexicon as it is. -/
def enter (l : Lexicon) (m : Mnemonic) : Lexicon := (l.register m).toOption.getD l

def enterAll (l : Lexicon) (ms : List Mnemonic) : Lexicon := ms.foldl enter l

def builtins : List Mnemonic :=
  [ ⟨"MOVE_U", "Step up repeatedly", .walk .up⟩,
    ⟨"MOVE_D", "Step down repeatedly", .walk .down⟩,
    ⟨"MOVE_L", "Step left repeatedly", .walk .left⟩,
    ⟨"MOVE_R", "Step right repeatedly", .walk .right⟩,
    ⟨"SHAKE_V", "Shake along the vertical axis", .shake .vertical⟩,
    ⟨"SHAKE_H", "Shake along the horizontal axis", .shake .horizontal⟩,
    ⟨"FADE_IN", "Fade opacity in", .fade .appear⟩,
    ⟨"FADE_OUT", "Fade opacity out", .fade .vanish⟩,
    ⟨"ACTOR_IMG", "Use an actor's character image", .actorImage⟩,
    ⟨"MEMBER_IMG", "Use a party member's character image", .memberImage⟩,
    ⟨"TOWARD_TARGET", "Walk toward a map tile", .approach⟩,
    ⟨"RANDOM_WAIT", "Wait a random number of frames in [min, max)", .randomWait⟩ ]

def standard : Lexicon := empty.enterAll builtins

def usage (l : Lexicon) : List String := l.mnemonics.map Mnemonic.usage

/-- Reads a script line; a line whose first word is unknown is none of the lexicon's business. -/
def read? {α : Type} [Scalar α] (l : Lexicon) (line : String) : Option (Call α) :=
  match Text.words line with
  | [] => none
  | word :: rest =>
    (l.find? word).map fun m => ⟨m.action, (rest.take m.action.arity).map Arg.ofText⟩

/-- None of the mnemonics that are built in is refused. -/
theorem mnemonics_standard : standard.mnemonics = builtins := by decide +kernel

end Lexicon

end TileRoute
