import TileRoute.Datum.Basic

/-!
# Problems

What can be wrong with a datum. A text that is not well formed is malformed, wherever that is met. A
datum that is not what is expected in its place is misplaced: the path to it is kept as the steps
from the top, and the cause has a message.
-/

namespace TileRoute

inductive Step where
  | key (name : String)
  | index (i : Nat)
  /-- A key that has no name to be given. -/
  | unnamed
  deriving DecidableEq, Repr

namespace Step

def append (path : String) : Step → String
  | .index i => s!"{path}[{i}]"
  | .key name => if path.isEmpty then name else s!"{path}.{name}"
  | .unnamed => if path.isEmpty then "?" else path ++ ".?"

def pathText (path : List Step) : String := path.foldl append ""

example : pathText [.key "characters", .index 0, .key "start"] = "characters[0].start" := by decide

end Step

inductive Cause where
  | invalidType
  | invalidValue
  | invalidLength
  | missingField (name : String)
  | duplicateField (name : String)
  | unknownVariant (name : String) (known : List String)
  | noVariant (type : String)
  deriving DecidableEq, Repr

namespace Cause

def expected (known : List String) : String :=
  let quoted := known.map fun name => "`" ++ name ++ "`"
  match quoted with
  | [a, b] => s!"expected {a} or {b}"
  | _ => "expected one of " ++ ", ".intercalate quoted

def message : Cause → String
  | .invalidType => "invalid type"
  | .invalidValue => "invalid value"
  | .invalidLength => "invalid length"
  | .missingField name => s!"missing field `{name}`"
  | .duplicateField name => s!"duplicate field `{name}`"
  | .unknownVariant name known => s!"unknown variant `{name}`, {expected known}"
  | .noVariant type => s!"data did not match any variant of untagged enum {type}"

end Cause

inductive Problem where
  | malformed
  | misplaced (path : List Step) (cause : Cause)
  deriving DecidableEq, Repr

namespace Problem

def under (step : Step) : Problem → Problem
  | .malformed => .malformed
  | .misplaced path cause => .misplaced (step :: path) cause

def bare : Problem → Problem
  | .malformed => .malformed
  | .misplaced _ cause => .misplaced [] cause

end Problem

abbrev Decoded := Except Problem

namespace Decoded

variable {β : Type}

def under (step : Step) (x : Decoded β) : Decoded β := x.mapError (Problem.under step)

def bare (x : Decoded β) : Decoded β := x.mapError Problem.bare

def refuse (cause : Cause) : Decoded β := .error (.misplaced [] cause)

end Decoded

end TileRoute
