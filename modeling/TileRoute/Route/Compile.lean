import TileRoute.Lexicon
import TileRoute.Event

/-!
# Compiling routes

Compiling a route looks up every script line once and puts the call in its place; lines that the
lexicon does not know stay. Flags, length and order are kept, and a compiled route is left as it is
even if the lexicon has grown since.
-/

namespace TileRoute

variable {α : Type} [Scalar α]

def Command.compile (l : Lexicon) : Command α → Command α
  | .script text => (l.read? text).elim (.script text) .call
  | c => c

namespace Route

/-- The route with its script lines looked up, unless that has been done. -/
def compile (l : Lexicon) (r : Route α) : Route α :=
  if r.compiled then r
  else { r with commands := r.commands.map (Command.compile l), compiled := true }

def resolutions (l : Lexicon) (r : Route α) : List (Event α) :=
  r.commands.zipIdx.filterMap fun
    | (.script text, i) => (l.read? text).map fun c => .scriptResolved i text c
    | _ => none

def compileLogged (l : Lexicon) (r : Route α) : Logged (Event α) (Route α) where
  value := r.compile l
  events :=
    if r.compiled then []
    else r.resolutions l ++ [.routeCompiled r.length (r.resolutions l).length]

theorem compiled_compile (l : Lexicon) (r : Route α) : (r.compile l).compiled = true := by
  simp only [compile]
  split
  · assumption
  · rfl

theorem length_compile (l : Lexicon) (r : Route α) : (r.compile l).length = r.length := by
  simp only [compile]
  split
  · rfl
  · simp only [length, List.length_map]

theorem compile_of_compiled {l : Lexicon} {r : Route α} (h : r.compiled = true) :
    r.compile l = r := by
  simp only [compile, h, if_true]

theorem compile_compile (l m : Lexicon) (r : Route α) : (r.compile l).compile m = r.compile l :=
  compile_of_compiled (r.compiled_compile l)

end Route

end TileRoute
