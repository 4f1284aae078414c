import TileRoute.Character.Tick

/-!
# Operations

What can be asked of a character from outside: to have a route installed or forced, to go on by a
tick, or to do at once, without a route, what a call of a route would do. A request that cannot be
met changes nothing. A run is a list of operations, one after the other.
-/

namespace TileRoute

variable {α : Type}

/-- What a character can be asked to do between its ticks. Its body is open to any change. -/
inductive Request (α : Type) where
  | call (asked : Call α)
  | walk (direction : Direction) (count : α)
  | shake (axis : Axis) (power speed : α) (duration : Int)
  | fade (ramp : Ramp) (duration : α) (blocks : Bool)
  | actorImage (id : Int)
  | memberImage (slot : Int)
  | approach (goal : Tile)
  | randomWait (least limit : Int)
  | body (change : Body α → Body α)

inductive Operation (α : Type) where
  | install (route? : Option (Route α))
  | force (route? : Option (Route α))
  | tick
  | request (asked : Request α)

namespace Character

variable [Scalar α]

def request (w : World α) (c : Character α) : Request α → Logged (Event α) (Character α)
  | .call asked => (c.invoke w asked).toOption.getD (pure c)
  | .walk d count => pure (c.walk w.grid d count)
  | .shake axis power speed duration => c.startShake axis power speed duration
  | .fade ramp duration blocks =>
    (c.startFade w.settings.opacitySpan ramp duration blocks).toOption.getD (pure c)
  | .actorImage id => c.showActor w.roster id
  | .memberImage slot => c.showMember w.roster slot
  | .approach goal => pure (c.approach w.grid goal)
  | .randomWait least limit => pure ((c.randomWait least limit).toOption.getD c)
  | .body change => pure (c.mapBody change)

def operate (w : World α) (c : Character α) : Operation α → Logged (Event α) (Character α)
  | .install route? => c.install w.lexicon route?
  | .force route? => c.force w.lexicon route?
  | .tick => c.tick w
  | .request asked => c.request w asked

def run (w : World α) : List (Operation α) → Character α → Logged (Event α) (Character α)
  | [], c => pure c
  | op :: ops, c => do
    let c ← c.operate w op
    run w ops c

theorem value_run_append (w : World α) (xs ys : List (Operation α)) (c : Character α) :
    (c.run w (xs ++ ys)).value = ((c.run w xs).value.run w ys).value := by
  induction xs generalizing c with
  | nil => rfl
  | cons op xs ih => exact ih (c.operate w op).value

theorem events_run_append (w : World α) (xs ys : List (Operation α)) (c : Character α) :
    (c.run w (xs ++ ys)).events = (c.run w xs).events ++ ((c.run w xs).value.run w ys).events := by
  induction xs generalizing c with
  | nil => rfl
  | cons op xs ih =>
    change (c.operate w op).events ++ ((c.operate w op).value.run w (xs ++ ys)).events =
      ((c.operate w op).events ++ ((c.operate w op).value.run w xs).events) ++ _
    rw [ih, List.append_assoc]
    rfl

/-- All events of a look-up are about the look-up. -/
theorem filterMap_compileLogged {β : Type} {f : Event α → Option β}
    (hr : ∀ i text call, f (.scriptResolved i text call) = none)
    (hc : ∀ m n, f (.routeCompiled m n) = none) (l : Lexicon) (r : Route α) :
    (r.compileLogged l).events.filterMap f = [] := by
  unfold Route.compileLogged
  dsimp only
  split
  · rfl
  · refine List.filterMap_eq_nil_iff.mpr fun e he => ?_
    rcases List.mem_append.mp he with he | he
    · obtain ⟨⟨command, i⟩, -, hx⟩ := List.mem_filterMap.mp he
      cases command with
      | script text =>
        obtain ⟨call, -, rfl⟩ := Option.map_eq_some_iff.mp hx
        exact hr i text call
      | finish => cases hx
      | step d => cases hx
      | turn d => cases hx
      | wait frames => cases hx
      | call call => cases hx
    · obtain rfl := List.mem_singleton.mp he
      exact hc _ _

theorem scripts_compileLogged (l : Lexicon) (r : Route α) :
    Event.scripts (r.compileLogged l).events = [] :=
  filterMap_compileLogged (fun _ _ _ => rfl) (fun _ _ => rfl) l r

theorem scripts_install (l : Lexicon) (c : Character α) (route? : Option (Route α)) :
    Event.scripts (c.install l route?).events = [] := by
  cases route? with
  | none => rfl
  | some r =>
    change Event.scripts ((r.compileLogged l).events ++ _) = []
    rw [Event.scripts_append, scripts_compileLogged]
    rfl

theorem scripts_force (l : Lexicon) (c : Character α) (route? : Option (Route α)) :
    Event.scripts (c.force l route?).events = [] := by
  cases route? with
  | none => rfl
  | some r =>
    change Event.scripts ((r.compileLogged l).events ++ _) = []
    rw [Event.scripts_append, scripts_compileLogged]
    rfl

end Character

end TileRoute
