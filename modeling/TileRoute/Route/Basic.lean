import TileRoute.Call.Basic

/-!
# Routes

A `Route` is a list of commands with three flags: whether it starts over when it is done, whether a
step that is blocked may be left out, and whether whoever forces it waits for its end. A finish
command ends a route wherever it stands; at the very end it is no part of the cycle of a route that
starts over.
-/

namespace TileRoute

inductive Command (α : Type) where
  | finish
  | step (direction : Direction)
  | turn (direction : Direction)
  | wait (frames : Nat)
  | script (text : String)
  | call (call : Call α)
  deriving DecidableEq

structure Route (α : Type) where
  commands : List (Command α)
  repeats : Bool := false
  /-- Leaves out a step that is blocked. -/
  skippable : Bool := false
  /-- Whoever forces the route waits for its end. -/
  awaited : Bool := false
  /-- The script lines have been looked up. -/
  compiled : Bool := false
  deriving DecidableEq

namespace Route

variable {α : Type}

def length (r : Route α) : Nat := r.commands.length

def command? (r : Route α) (cursor : Nat) : Option (Command α) := r.commands[cursor]?

theorem lt_of_command? {r : Route α} {cursor : Nat} {command : Command α}
    (h : r.command? cursor = some command) : cursor < r.length :=
  (List.getElem?_eq_some_iff.mp h).1

/-- The number of commands that a route which starts over goes through. -/
def cycleLength (r : Route α) : Nat :=
  match r.commands.getLast? with
  | some .finish => r.length - 1
  | _ => r.length

theorem cycleLength_of_finish {r : Route α} (h : r.commands.getLast? = some .finish) :
    r.cycleLength = r.length - 1 := by
  simp only [cycleLength, h]

theorem cycleLength_of_ne_finish {r : Route α} (h : r.commands.getLast? ≠ some .finish) :
    r.cycleLength = r.length := by
  unfold cycleLength
  split
  · rename_i he
    exact absurd he h
  · rfl

/-- A finish command at the very end takes the same off both cycles. -/
theorem cycleLength_add {r q : Route α} {k : Nat} (hlen : q.length = r.length + k)
    (hlast : q.commands.getLast? = some .finish ↔ r.commands.getLast? = some .finish) :
    q.cycleLength = r.cycleLength + k := by
  by_cases he : r.commands.getLast? = some .finish
  · have hpos : 0 < r.length := by
      apply List.length_pos_iff.mpr
      intro hn
      rw [hn] at he
      cases he
    rw [cycleLength_of_finish he, cycleLength_of_finish (hlast.mpr he)]
    omega
  · rw [cycleLength_of_ne_finish he, cycleLength_of_ne_finish fun h => he (hlast.mp h)]
    exact hlen

end Route

end TileRoute
