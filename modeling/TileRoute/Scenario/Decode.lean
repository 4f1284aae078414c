import TileRoute.Datum.Read
import TileRoute.Scenario.Basic
import TileRoute.Scenario.Command

/-!
# Reading scenarios

The shape of a scenario text, structure by structure. The fields of a structure are declared in the
order in which a list may give them.
-/

namespace TileRoute

namespace Scenario

def tileRecord : Record Tile :=
  Tile.mk <$> .required "x" Datum.coordinate? <*> .required "y" Datum.coordinate?

def mapRecord : Record MapPlan :=
  MapPlan.mk <$> .required "width" Datum.count? <*> .required "height" Datum.count?
    <*> .withDefault "blocked" (Datum.list? tileRecord.read) []

def settingsRecord : Record (Settings Float) :=
  let standard : Settings Float := .standard
  Settings.mk <$> .withDefault "tile_width" Datum.real? standard.tileWidth
    <*> .withDefault "tile_height" Datum.real? standard.tileHeight
    <*> .withDefault "opacity_span" Datum.real? standard.opacitySpan
    <*> .withDefault "rng_seed" (Datum.orNull? (Datum.natural? 18446744073709551615)) none

def portraitRecord : Record Portrait :=
  Portrait.mk <$> .required "image_name" Datum.text? <*> .required "image_index" Datum.count?

/-- The identifier that a key is: a number that ends with the key. A number that is no identifier is
refused before the end of the key is looked at. -/
def actorKey (k : Key) : Decoded Int :=
  match k.source with
  | [] => .error .malformed
  | c :: _ =>
    if Decimal.isDigit c || c == '-' then
      match Datum.readNumber k.source with
      | (.integer i, some rest) => do
        let (least, greatest) := Datum.identifierRange
        if least ≤ i ∧ i ≤ greatest then
          if rest.head? = some '"' then .ok i else .error .malformed
        else .error (.misplaced [.key (toString i)] .invalidValue)
      | (.real _, some _) => .error (.misplaced [.unnamed] .invalidType)
      | _ => .error .malformed
    else .error .malformed

def addActors (r : Roster) : List (Key × Datum) → Decoded Roster
  | [] => .ok r
  | (k, d) :: rest => do
    let id ← actorKey k
    let p ← (portraitRecord.read d).under (.key (toString id))
    addActors (r.addActor id p) rest

/-- The actors of a roster, by identifier; of several entries for one actor the last one counts. -/
def actors : Datum → Decoded (List (Int × Portrait))
  | .object entries closed => do
    let r ← addActors {} entries
    if closed then .ok r.actors else .error .malformed
  | d => .error d.misfit

def rosterRecord : Record Roster :=
  Roster.mk <$> .withDefault "actors" actors []
    <*> .withDefault "party" (Datum.list? Datum.identifier?) []

def routeRecord : Record (Route Float) :=
  (fun commands repeats skippable awaited => { commands, repeats, skippable, awaited })
    <$> .required "commands" (Datum.list? Command.ofDatum)
    <*> .withDefault "repeats_when_done" Datum.truth? false
    <*> .withDefault "skippable_on_block" Datum.truth? false
    <*> .withDefault "waits_for_completion" Datum.truth? false

def partRecord : Record (Part Float) :=
  Part.mk <$> .required "label" Datum.text? <*> .required "start" tileRecord.read
    <*> .withDefault "frames_per_step" Datum.count? 0
    <*> .withDefault "forced" Datum.truth? false
    <*> .optional "opacity" Datum.real?
    <*> .optional "search_limit" Datum.count?
    <*> .optional "route" routeRecord.read

def record : Record (Scenario Float) :=
  Scenario.mk <$> .required "map" mapRecord.read
    <*> .withDefault "motion" settingsRecord.read .standard
    <*> .withDefault "roster" rosterRecord.read {}
    <*> .required "characters" (Datum.list? partRecord.read)

def ofText? (s : String) : Decoded (Scenario Float) := record.read (Datum.ofText s)

end Scenario

end TileRoute
