import TileRoute.Stage.Snapshot

/-!
# Runs

A run ticks a stage until a time is reached or nothing is left to be done, whichever comes first. If
asked to, it reports all characters at regular times.
-/

namespace TileRoute.Stage

variable {α : Type} [Scalar α]

/-- The reports of a stage at its time: at every multiple of the interval, never if that is zero. -/
def reports (interval : Nat) (s : Stage α) : List (Event α) :=
  if 0 < interval ∧ s.time % interval = 0 then s.snapshots.map (Snapshot.event s.time) else []

/-- So many ticks at most, with the events so far, last one first. -/
def runOn (interval : Nat) : Nat → Stage α → List (Event α) → Stage α × List (Event α)
  | 0, s, events => (s, events)
  | n + 1, s, events =>
    if s.idle then (s, .stageIdle s.time :: events)
    else
      let ticked := s.tick
      let new := ticked.events ++ reports interval ticked.value
      runOn interval n ticked.value (new.reverse ++ events)

/-- Ticks a stage until a time, or until nothing is left to be done. -/
def run (limit interval : Nat) (s : Stage α) : Logged (Event α) (Stage α) :=
  let (last, events) := runOn interval (limit - s.time) s []
  { value := last
    events := events.reverse ++ [.runFinished last.time last.scripts.size] }

def ticks : Nat → Stage α → Stage α
  | 0, s => s
  | n + 1, s => ticks n s.tick.value

/-- The events so far have no influence on the stage. -/
theorem runOn_fst (interval n : Nat) (s : Stage α) (events : List (Event α)) :
    (runOn interval n s events).1 = (runOn interval n s []).1 := by
  induction n generalizing s events with
  | zero => rfl
  | succ n ih =>
    simp only [runOn]
    split
    · rfl
    · exact (ih s.tick.value _).trans (ih s.tick.value _).symm

end TileRoute.Stage
