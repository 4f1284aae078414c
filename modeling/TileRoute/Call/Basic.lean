import TileRoute.Number.Scalar
import TileRoute.Tile

/-!
# Calls

A `Call` is a recognised script line: an `Action` with the arguments that were written. Arguments
are read as they stand, and checked only when the call runs: a call knows what each of its
parameters is named, and each of the accessors below says which argument it cannot use.
-/

namespace TileRoute

inductive Axis where
  | vertical
  | horizontal
  deriving DecidableEq, Repr

namespace Axis

def all : List Axis := [.vertical, .horizontal]

def token : Axis → String
  | .vertical => "vertical"
  | .horizontal => "horizontal"

def ofToken? (word : String) : Option Axis := all.find? fun a => a.token == word

end Axis

inductive Ramp where
  | appear
  | vanish
  deriving DecidableEq, Repr

namespace Ramp

def all : List Ramp := [.appear, .vanish]

def token : Ramp → String
  | .appear => "in"
  | .vanish => "out"

def ofToken? (word : String) : Option Ramp := all.find? fun r => r.token == word

end Ramp

inductive Action where
  | walk (direction : Direction)
  | shake (axis : Axis)
  | fade (ramp : Ramp)
  | actorImage
  | memberImage
  /-- Steps toward a tile until it is reached. -/
  | approach
  | randomWait
  deriving DecidableEq, Repr

namespace Action

def name : Action → String
  | walk _ => "move_straight_repeat"
  | shake _ => "start_shake"
  | fade _ => "start_fade"
  | actorImage => "set_actor_image"
  | memberImage => "set_member_image"
  | approach => "move_toward_target"
  | randomWait => "random_wait"

def parameters : Action → List String
  | walk _ => ["repeat_count"]
  | shake _ => ["power", "speed", "duration"]
  | fade _ => ["duration", "wait"]
  | actorImage => ["actor_id"]
  | memberImage => ["slot"]
  | approach => ["x", "y"]
  | randomWait => ["min_frames", "max_frames"]

def arity (a : Action) : Nat := a.parameters.length

/-- The name of a parameter; arguments beyond the last one have a common name. -/
def parameter (a : Action) (i : Nat) : String := a.parameters[i]?.getD "extra"

def fixedToken? : Action → Option String
  | walk d => some d.token
  | shake a => some a.token
  | fade r => some r.token
  | _ => none

end Action

inductive Arg (α : Type) where
  | truth (b : Bool)
  | number (x : α)
  | word (s : String)
  deriving DecidableEq

variable {α : Type} [Scalar α]

/-- Reads a word: the two truth values and the finite decimal numbers are told apart, all else
stays the word it is. -/
def Arg.ofText (s : String) : Arg α :=
  if s = "true" then .truth true
  else if s = "false" then .truth false
  else match Decimal.ofText? s with
    | none => .word s
    | some d =>
      let x := Scalar.ofDecimal d
      if (Scalar.exact x).isFinite then .number x else .word s

structure Call (α : Type) where
  action : Action
  args : List (Arg α)
  deriving DecidableEq

inductive Wanted where
  | number
  | truth
  deriving DecidableEq, Repr

inductive CallError (α : Type) where
  | missingArgument (action : Action) (index : Nat)
  | wrongType (action : Action) (index : Nat) (wanted : Wanted) (found : Arg α)
  | negative (action : Action) (index : Nat) (value : α)
  | nonPositiveDuration (value : α)
  | emptyRange (least limit : Int)

namespace Call

def number (c : Call α) (i : Nat) : Except (CallError α) α :=
  match c.args[i]? with
  | none => .error (.missingArgument c.action i)
  | some (.number x) => .ok x
  | some found => .error (.wrongType c.action i .number found)

def integer (c : Call α) (i : Nat) : Except (CallError α) Int :=
  (c.number i).map fun x => (Scalar.exact x).truncate

def magnitude (c : Call α) (i : Nat) : Except (CallError α) α := do
  let x ← c.number i
  if Scalar.Lt x Scalar.zero then .error (.negative c.action i x) else .ok x

def number? (c : Call α) (i : Nat) : Except (CallError α) (Option α) :=
  if c.args.length ≤ i then .ok none else (c.number i).map some

/-- A truth value that may be left out; left out and zero are false, any other number is true. -/
def truth (c : Call α) (i : Nat) : Except (CallError α) Bool :=
  match c.args[i]? with
  | none => .ok false
  | some (.truth b) => .ok b
  | some (.number x) => .ok (decide (¬ Scalar.IsZero x))
  | some found => .error (.wrongType c.action i .truth found)

omit [Scalar α] in
theorem number_eq_ok_iff {c : Call α} {i : Nat} {x : α} :
    c.number i = .ok x ↔ c.args[i]? = some (.number x) := by
  simp only [number]
  split <;> simp_all

end Call

end TileRoute
