import TileRoute.Datum.Record
import TileRoute.Route.Basic

/-!
# Commands in a scenario text

A command is an object whose `kind` says which fields it has, or a list of the kind and those
fields. The whole command is read before its fields are looked at, so that every problem in it is
one of the command, except that a wrong kind is a problem of the kind. Where one of several words is
expected, an object with that word as its only key is as good.
-/

namespace TileRoute

namespace Datum

variable {β : Type}

def named? (known : List (String × β)) (word : String) : Decoded β :=
  match known.lookup word with
  | some b => .ok b
  | none => Decoded.refuse (.unknownVariant word (known.map Prod.fst))

/-- A known word, with what stands beside it in an object of one entry. -/
def choice? (known : List (String × β)) : Datum → Decoded (β × Option Datum)
  | .text s => do .ok (← named? known s, none)
  | .object [(k, d)] _ => do .ok (← named? known (k.name?.getD ""), some d)
  | .object _ _ => Decoded.refuse .invalidValue
  | d => .error d.misfit

/-- Nothing stands beside a word, or something empty. -/
def bare? (b : β) : Option Datum → Decoded β
  | none => .ok b
  | some .null => .ok b
  | some (.object [] _) => .ok b
  | some d => .error d.misfit

def word? (known : List (String × β)) (d : Datum) : Decoded β := do
  let (b, beside) ← d.choice? known
  bare? b beside

def direction? : Datum → Decoded Direction :=
  word? (Direction.all.map fun d => (d.token, d))

def axis? : Datum → Decoded Axis := word? (Axis.all.map fun a => (a.token, a))

def ramp? : Datum → Decoded Ramp := word? (Ramp.all.map fun r => (r.token, r))

def ActionReader : Type := Option Datum → Decoded Action

def fields (r : Record Action) : ActionReader
  | some d => r.readStored d
  | none => Decoded.refuse .invalidType

def actions : List (String × ActionReader) :=
  [ ("move_straight_repeat", fields (.walk <$> Record.required "direction" direction?)),
    ("start_shake", fields (.shake <$> Record.required "axis" axis?)),
    ("start_fade", fields (.fade <$> Record.required "direction" ramp?)),
    ("set_actor_image", bare? .actorImage),
    ("set_member_image", bare? .memberImage),
    ("move_toward_target", bare? .approach),
    ("random_wait", bare? .randomWait) ]

def action? (d : Datum) : Decoded Action := do
  let (read, beside) ← d.choice? actions
  read beside

def arg? : Datum → Decoded (Arg Float)
  | .truth b => .ok (.truth b)
  | .integer i => .ok (.number (Float.ofInt i))
  | .real x => .ok (.number x)
  | .text s => .ok (.word s)
  | _ => Decoded.refuse (.noVariant "Literal")

end Datum

namespace Command

def kinds : List (String × Record (Command Float)) :=
  [ ("end", pure .finish),
    ("move", .step <$> Record.required "direction" Datum.direction?),
    ("turn", .turn <$> Record.required "direction" Datum.direction?),
    ("wait", .wait <$> Record.required "frames" Datum.count?),
    ("script", .script <$> Record.required "text" Datum.text?),
    ("invocation", (fun a args => .call ⟨a, args⟩) <$> Record.required "target" Datum.action?
      <*> Record.required "args" (Datum.list? Datum.arg?)) ]

def kind? (d : Datum) : Decoded (Record (Command Float)) := do
  let word ← d.text?
  Datum.named? kinds word

/-- How deep lists and objects may be nested inside a command: a text is given up at a depth of 128,
and a command stands in six of them, itself included. -/
def depth : Nat := 121

def ownEntries (entries : List (Key × Datum)) : List (Key × Datum) :=
  entries.filter fun (k, _) => k.name? != some "kind"

def ofDatum : Datum → Decoded (Command Float)
  | .object entries closed => do
    let fields ← (Record.required "kind" kind?).readWith (Datum.storable depth) .malformed
      (.object entries closed)
    (fields.readStored (.object (ownEntries entries) true)).bare
  | .list [] true => Decoded.refuse (.missingField "kind")
  | .list [] false => .error .malformed
  | .list (d :: rest) closed => do
    let fields ← (kind? d).under (.index 0)
    if closed && Datum.storableItems depth rest then (fields.readStored (.list rest true)).bare
    else .error .malformed
  | d => .error d.misfit

end Command

end TileRoute
