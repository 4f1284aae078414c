import TileRoute.Document
import TileRoute.Stage.Snapshot

/-!
# Reports

Snapshots as documents, with their fields in a fixed order.
-/

namespace TileRoute

def Document.pair (p : Float × Float) : Document := .list [.number p.1, .number p.2]

def Tile.document (t : Tile) : Document := .record [("x", .integer t.x), ("y", .integer t.y)]

def Snapshot.document (x : Snapshot Float) : Document :=
  .record
    [ ("label", .text x.label),
      ("position", x.position.document),
      ("facing", .text x.facing.token),
      ("opacity", .number x.opacity),
      ("shake_offset_px", .pair x.swing),
      ("scrolled", .pair x.scrolled),
      ("route_index", .orNull (fun (i : Nat) => .integer i) x.cursor?),
      ("forcing", .truth x.forcing),
      ("image", .orNull (fun p => .text p.name) x.portrait?) ]

def Stage.report (s : Stage Float) : String :=
  (Document.list (s.snapshots.map Snapshot.document)).print

end TileRoute
