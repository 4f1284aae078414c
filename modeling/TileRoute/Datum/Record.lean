import TileRoute.Datum.Problem
import TileRoute.Datum.Scalar

/-!
# Records

A `Record` says how the fields of a structure are read. The structure may be an object, with its
fields in any order among other keys, or a list of the fields in order. Whatever the order in which
fields are asked for, the problem that is reported is the one that stands first in the text: every
problem carries its place among the entries or items, and of two problems the one with the smaller
place is kept. A field that is missing is found out at the end only, and of several missing fields
the one that is declared first is reported.
-/

namespace TileRoute

/-- A result, or the first problem with its place. -/
def Placed (β : Type) : Type := Except (Nat × Problem) β

namespace Placed

variable {β γ : Type}

def ok (b : β) : Placed β := Except.ok b

def problem (place : Nat) (p : Problem) : Placed β := Except.error (place, p)

def inPlace (place : Nat) : Decoded β → Placed β
  | .ok b => ok b
  | .error p => problem place p

/-- Both results, or the problem with the smaller place, the left one of two in the same place. -/
def both (f : Placed (β → γ)) (x : Placed β) : Placed γ :=
  match f, x with
  | .ok f, .ok b => ok (f b)
  | .error e, .ok _ => .error e
  | .ok _, .error e => .error e
  | .error e, .error e' => .error (if e'.1 < e.1 then e' else e)

/-- The left result, if the right side has no problem. -/
def checked (x : Placed β) (check : Placed Unit) : Placed β := both (both (ok fun b _ => b) x) check

def decoded : Placed β → Decoded β
  | .ok b => .ok b
  | .error (_, p) => .error p

end Placed

/-- How the fields of a structure are read: out of the entries of an object, or out of the items of a
list that follow so many others. -/
structure Record (β : Type) where
  names : List String
  ofEntries : List (Key × Datum) → Placed β
  ofItems : Nat → List Datum → Bool → Placed β

namespace Record

variable {β γ : Type}

def const (b : β) : Record β where
  names := []
  ofEntries := fun _ => .ok b
  ofItems := fun _ _ _ => .ok b

def both (f : Record (β → γ)) (x : Record β) : Record γ where
  names := f.names ++ x.names
  ofEntries := fun entries => .both (f.ofEntries entries) (x.ofEntries entries)
  ofItems := fun start items closed =>
    .both (f.ofItems start items closed)
      (x.ofItems (start + f.names.length) (items.drop f.names.length) closed)

instance : Applicative Record where
  pure := const
  seq f x := both f (x ())

def occurrences (name : String) (entries : List (Key × Datum)) : List (Datum × Nat) :=
  entries.zipIdx.filterMap fun
    | ((k, d), i) => if k.name? = some name then some (d, i) else none

/-- A field and what it is when it is absent from an object or from a list. -/
def field (name : String) (read : Datum → Decoded β) (absent? listAbsent? : Option β) :
    Record β where
  names := [name]
  ofEntries := fun entries =>
    let value (d : Datum) (i : Nat) : Placed β := .inPlace i ((read d).under (.key name))
    match occurrences name entries, absent? with
    | [], some b => .ok b
    | [], none => .problem (entries.length + 1) (.misplaced [] (.missingField name))
    | [(d, i)], _ => value d i
    | (d, i) :: (_, j) :: _, _ =>
      (value d i).checked (.problem j (.misplaced [] (.duplicateField name)))
  ofItems := fun start items closed =>
    match items, closed, listAbsent? with
    | d :: _, _, _ => .inPlace start ((read d).under (.index start))
    | [], true, some b => .ok b
    | [], true, none => .problem start (.misplaced [] .invalidLength)
    | [], false, _ => .problem start .malformed

def required (name : String) (read : Datum → Decoded β) : Record β := field name read none none

def withDefault (name : String) (read : Datum → Decoded β) (b : β) : Record β :=
  field name read (some b) (some b)

def optional (name : String) (read : Datum → Decoded β) : Record (Option β) :=
  field name (Datum.orNull? read) (some none) none

/-- The first entry that has no readable key, or another key than the known ones and a value that
cannot be passed over; else the end, if it is missing. -/
def others (known : List String) (passable : Datum → Bool) (entries : List (Key × Datum))
    (closed : Bool) : Placed Unit :=
  let bad : Key × Datum → Bool
    | (k, d) =>
      match k.name? with
      | some name => !known.contains name && !passable d
      | none => true
  match entries.findIdx? bad with
  | some i => .problem i .malformed
  | none => if closed then .ok () else .problem entries.length .malformed

/-- What follows the items of the fields: a surplus item is refused, and the end may be missing. -/
def surplus (known : Nat) (refusal : Problem) (items : List Datum) (closed : Bool) :
    Placed Unit :=
  if known < items.length then .problem known refusal
  else if closed then .ok ()
  else .problem items.length .malformed

def readWith (passable : Datum → Bool) (refusal : Problem) (r : Record β) :
    Datum → Decoded β
  | .object entries closed =>
    ((r.ofEntries entries).checked (others r.names passable entries closed)).decoded
  | .list items closed =>
    ((r.ofItems 0 items closed).checked (surplus r.names.length refusal items closed)).decoded
  | d => .error d.misfit

/-- Reads a structure straight from the text: other keys are skipped, and a surplus item breaks the
text. -/
def read (r : Record β) : Datum → Decoded β := r.readWith Datum.whole .malformed

/-- Reads a structure that has been stored as a whole. -/
def readStored (r : Record β) : Datum → Decoded β :=
  r.readWith (fun _ => true) (.misplaced [] .invalidLength)

end Record

end TileRoute
