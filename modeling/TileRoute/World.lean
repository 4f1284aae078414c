import TileRoute.Grid.Basic
import TileRoute.Lexicon
import TileRoute.Roster
import TileRoute.Settings

/-!
# Worlds

What all characters of a stage share, and none of them changes.
-/

namespace TileRoute

/-- The map, the actors, the mnemonics and the settings that characters share. -/
structure World (α : Type) where
  grid : Grid
  roster : Roster
  lexicon : Lexicon
  settings : Settings α

end TileRoute
