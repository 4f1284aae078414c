import Mathlib.Data.List.Induction
import TileRoute.Proofs.Character.Course
import TileRoute.Proofs.Character.Forced
import TileRoute.Proofs.Character.Operation

/-!
# Interludes

A route is forced where none was forced before, and ticks and further forced routes follow in any
order. What the first of them has interrupted is kept aside unchanged until the first moment without
a forced route, and at that moment it is back with its cursor. In between it is always the route
that was forced last that plays: the ones before it never come back.
-/

namespace TileRoute

variable {α : Type}

/-- The operation ticks, or forces a route or none. -/
def Operation.Plays : Operation α → Prop
  | .tick | .force _ => True
  | .install _ | .request _ => False

/-- The route that has been forced last, after a first one. -/
def latest (g : Route α) : List (Operation α) → Route α
  | [] => g
  | .force (some h) :: ops => latest h ops
  | _ :: ops => latest g ops

theorem latest_append (g : Route α) (xs ys : List (Operation α)) :
    latest g (xs ++ ys) = latest (latest g xs) ys := by
  induction xs generalizing g with
  | nil => rfl
  | cons op xs ih =>
    cases op with
    | install route? => exact ih g
    | force route? =>
      cases route? with
      | none => exact ih g
      | some h => exact ih h
    | tick => exact ih g
    | request asked => exact ih g

namespace Character

/-- A forced route plays, and this is kept aside for it. -/
structure StandsIn (l : Lexicon) [Scalar α] (kept : Saved α) (g : Route α) (d : Character α) :
    Prop where
  route? : d.playback.route? = some (g.compile l)
  forcing : d.playback.forcing = true
  saved? : d.playback.saved? = some kept
  signal : d.motion.progress.signal = .advance

/-- What was kept aside is installed again, and neither a wait nor a request is left over. -/
structure GivenBack (kept : Saved α) (d : Character α) : Prop where
  route? : d.playback.route? = kept.route?
  cursor : d.playback.cursor = kept.cursor
  forcing : d.playback.forcing = false
  saved? : d.playback.saved? = none
  wait : d.playback.wait = 0
  progress : d.motion.progress = .start

variable [Scalar α] {w : World α} {kept : Saved α} {g : Route α} {c d : Character α}

theorem StandsIn.of_sameRoute (h : StandsIn w.lexicon kept g c) (hr : SameRoute c d)
    (hs : d.motion.progress.signal = .advance) : StandsIn w.lexicon kept g d :=
  ⟨hr.route?.trans h.route?, hr.forcing.trans h.forcing, hr.saved?.trans h.saved?, hs⟩

theorem StandsIn.tick (h : StandsIn w.lexicon kept g d) :
    StandsIn w.lexicon kept g (d.tick w).value ∨ GivenBack kept (d.tick w).value := by
  rcases tick_stays_or_ends w h.signal with ⟨hr, hs⟩ | ⟨hd, hm, hw⟩
  · exact .inl (h.of_sameRoute hr hs)
  · have hforced : d.attempt.playback.forcing = true := h.forcing
    have hsaved : d.attempt.playback.saved? = some kept := h.saved?
    rw [finish_forced hforced] at hd
    refine .inr ⟨?_, ?_, ?_, ?_, ?_, hm⟩ <;> rw [hd]
    · simp only [restore, hsaved, Option.getD_some]
      rfl
    · simp only [restore, hsaved, Option.getD_some]
    · rfl
    · rfl
    · exact hw

theorem StandsIn.force (h : StandsIn w.lexicon kept g d) (route? : Option (Route α)) :
    StandsIn w.lexicon kept (latest g [.force route?]) (d.force w.lexicon route?).value := by
  cases route? with
  | none => exact h
  | some q =>
    have hk : d.keptAside = kept := by
      simp only [keptAside, h.saved?, Option.getD_some]
    rw [value_force_some]
    exact ⟨rfl, rfl, (saved?_playForced d _).trans (congrArg some hk), rfl⟩

theorem StandsIn.operate {op : Operation α} (h : StandsIn w.lexicon kept g d) (hp : op.Plays) :
    StandsIn w.lexicon kept (latest g [op]) (d.operate w op).value ∨
      GivenBack kept (d.operate w op).value := by
  cases op with
  | tick => exact h.tick
  | force route? => exact .inl (h.force route?)
  | install route? => cases hp
  | request asked => cases hp

def afterForce (w : World α) (c : Character α) (g : Route α) (ops : List (Operation α)) :
    Character α := (c.run w (.force (some g) :: ops)).value

theorem afterForce_concat (w : World α) (c : Character α) (g : Route α)
    (ops : List (Operation α)) (op : Operation α) :
    afterForce w c g (ops ++ [op]) = ((afterForce w c g ops).operate w op).value :=
  value_run_append w (.force (some g) :: ops) [op] c

theorem standsIn_force (w : World α) (hs : c.playback.saved? = none) (g : Route α) :
    StandsIn w.lexicon ⟨c.playback.route?, c.playback.cursor⟩ g (afterForce w c g []) := by
  have hk : c.keptAside = ⟨c.playback.route?, c.playback.cursor⟩ := by
    simp only [keptAside, hs, Option.getD_none]
  exact ⟨rfl, rfl, congrArg some hk, rfl⟩

theorem standsIn_or_givenBack (hs : c.playback.saved? = none) (g : Route α)
    {ops : List (Operation α)} (hp : ∀ op ∈ ops, op.Plays)
    (hf : ∀ k < ops.length, (afterForce w c g (ops.take k)).playback.forcing = true) :
    StandsIn w.lexicon ⟨c.playback.route?, c.playback.cursor⟩ (latest g ops)
        (afterForce w c g ops) ∨
      GivenBack ⟨c.playback.route?, c.playback.cursor⟩ (afterForce w c g ops) := by
  -- From the back: a forced route was playing before the last operation, which goes on with it,
  -- puts another in its place or ends it.
  induction ops using List.reverseRecOn with
  | nil => exact .inl (standsIn_force w hs g)
  | append_singleton ops op ih =>
    have htake : ∀ k ≤ ops.length, (ops ++ [op]).take k = ops.take k := fun k hk =>
      List.take_append_of_le_length hk
    have hlen : (ops ++ [op]).length = ops.length + 1 := List.length_append
    have hforced : (afterForce w c g ops).playback.forcing = true := by
      have h := hf ops.length (by omega)
      rw [htake _ (Nat.le_refl _), List.take_length] at h
      exact h
    have hbefore := ih (fun o ho => hp o (List.mem_append_left _ ho)) fun k hk => by
      have h := hf k (by omega)
      rw [htake k (by omega)] at h
      exact h
    rw [afterForce_concat, latest_append]
    rcases hbefore with h | h
    · exact h.operate (hp op (List.mem_append_right _ (List.mem_singleton_self op)))
    · cases hforced.symm.trans h.forcing

/-- A forced route plays with one of two routes kept aside, or one of the two plays itself. -/
inductive Lineup (l : Lexicon) (c : Character α) (g : Route α) (d : Character α) : Prop
  | forced (kept : Saved α) (h : StandsIn l kept g d)
      (hk : kept.route? = c.playback.route? ∨ kept.route? = none)
  | own (hf : d.playback.forcing = false) (hs : d.playback.saved? = none)
      (ha : d.motion.progress.signal = .advance)
      (hr : d.playback.route? = c.playback.route? ∨ d.playback.route? = none)

theorem Lineup.tick (h : Lineup w.lexicon c g d) : Lineup w.lexicon c g (d.tick w).value := by
  cases h with
  | forced kept h hk =>
    rcases h.tick with h | h
    · exact .forced kept h hk
    · refine .own h.forcing h.saved? (congrArg Progress.signal h.progress) ?_
      rw [h.route?]
      exact hk
  | own hf hs ha hr =>
    rcases tick_stays_or_ends w ha with ⟨hsame, hadv⟩ | ⟨hd, hm, -⟩
    · refine .own (hsame.forcing.trans hf) (hsame.saved?.trans hs) hadv ?_
      rw [hsame.route?]
      exact hr
    · have hforced : d.attempt.playback.forcing = false := hf
      rw [finish_unforced hforced] at hd
      refine .own ?_ ?_ (congrArg Progress.signal hm) (.inr ?_) <;> rw [hd]
      · rfl
      · exact hs
      · rfl

theorem Lineup.operate {op : Operation α} (h : Lineup w.lexicon c g d) (hp : op.Plays) :
    Lineup w.lexicon c (latest g [op]) (d.operate w op).value := by
  cases op with
  | tick => exact h.tick
  | install route? => cases hp
  | request asked => cases hp
  | force route? =>
    cases h with
    | forced kept h hk => exact .forced kept (h.force route?) hk
    | own hf hs ha hr =>
      cases route? with
      | none => exact .own hf hs ha hr
      | some q => exact .forced _ (standsIn_force w hs q) hr

theorem lineup_afterForce (w : World α) (hs : c.playback.saved? = none) (g : Route α)
    {ops : List (Operation α)} (hp : ∀ op ∈ ops, op.Plays) :
    Lineup w.lexicon c (latest g ops) (afterForce w c g ops) := by
  induction ops using List.reverseRecOn with
  | nil => exact .forced _ (standsIn_force w hs g) (.inl rfl)
  | append_singleton ops op ih =>
    rw [afterForce_concat, latest_append]
    have hbefore := ih fun o ho => hp o (List.mem_append_left _ ho)
    exact hbefore.operate (hp op (List.mem_append_right _ (List.mem_singleton_self op)))

/-- How a character stands after a route has been forced on it and operations have followed. -/
structure Interlude (w : World α) (c : Character α) (g : Route α) (ops : List (Operation α)) :
    Prop where
  /-- Until the first moment without a forced route, the same is kept aside. -/
  kept : (∀ k ≤ ops.length, (afterForce w c g (ops.take k)).playback.forcing = true) →
    (afterForce w c g ops).playback.saved? = some ⟨c.playback.route?, c.playback.cursor⟩
  /-- At that moment the interrupted route is back. -/
  givenBack : (∀ k < ops.length, (afterForce w c g (ops.take k)).playback.forcing = true) →
    (afterForce w c g ops).playback.forcing = false →
      GivenBack ⟨c.playback.route?, c.playback.cursor⟩ (afterForce w c g ops)
  /-- Of the forced routes only the last one plays, at any moment. -/
  last : (afterForce w c g ops).playback.forcing = true →
    (afterForce w c g ops).playback.route? = some ((latest g ops).compile w.lexicon)
  /-- Without a forced route the interrupted one plays, until it is over. -/
  own : (afterForce w c g ops).playback.forcing = false →
    (afterForce w c g ops).playback.saved? = none ∧
      ((afterForce w c g ops).playback.route? = c.playback.route? ∨
        (afterForce w c g ops).playback.route? = none)

/-- A route that is forced where none was forced before gives way to the interrupted one at the
first moment without a forced route, whatever has been forced in between. -/
theorem forced_gives_back (w : World α) {c : Character α} (hs : c.playback.saved? = none)
    (g : Route α) (ops : List (Operation α)) (hp : ∀ op ∈ ops, op.Plays) :
    Interlude w c g ops := by
  have hlineup := lineup_afterForce w hs g hp
  refine { kept := ?kept, givenBack := ?givenBack, last := ?last, own := ?own }
  case kept =>
    intro hall
    rcases standsIn_or_givenBack hs g hp fun k hk => hall k (Nat.le_of_lt hk) with h | h
    · exact h.saved?
    · have hforced := hall ops.length (Nat.le_refl _)
      rw [List.take_length] at hforced
      cases hforced.symm.trans h.forcing
  case givenBack =>
    intro hbefore hnow
    rcases standsIn_or_givenBack hs g hp hbefore with h | h
    · cases hnow.symm.trans h.forcing
    · exact h
  case last =>
    intro hnow
    cases hlineup with
    | forced kept h => exact h.route?
    | own hf => cases hnow.symm.trans hf
  case own =>
    intro hnow
    cases hlineup with
    | forced kept h => cases hnow.symm.trans h.forcing
    | own hf hs ha hr => exact ⟨hs, hr⟩

def alarms : List (Operation Float) :=
  [.tick, .force (some retreat), .force none, .tick, .tick, .tick]

theorem forced_gives_back_guard :
    let patrolling := (guard.tick cell).value
    patrolling.playback.saved? = none ∧ (∀ op ∈ alarms, op.Plays) ∧
      (∀ k < 6, (afterForce cell patrolling alarm (alarms.take k)).playback.forcing = true) ∧
        (afterForce cell patrolling alarm alarms).playback.forcing = false ∧
          (afterForce cell patrolling alarm alarms).playback.route? =
              some (patrol.compile cell.lexicon) ∧
            (afterForce cell patrolling alarm alarms).playback.cursor = 1 := by
  have hs : (guard.tick cell).value.playback.saved? = none := by decide +kernel
  have hp : ∀ op ∈ alarms, op.Plays := by
    intro op ho
    simp only [alarms, List.mem_cons, List.not_mem_nil, or_false] at ho
    rcases ho with rfl | rfl | rfl | rfl | rfl | rfl <;> exact trivial
  have hbefore : ∀ k < 6, (afterForce cell (guard.tick cell).value alarm
      (alarms.take k)).playback.forcing = true := by decide +kernel
  have hnow : (afterForce cell (guard.tick cell).value alarm alarms).playback.forcing = false := by
    decide +kernel
  have hroute : (guard.tick cell).value.playback.route? = some (patrol.compile cell.lexicon) := by
    decide +kernel
  have hcursor : (guard.tick cell).value.playback.cursor = 1 := by decide +kernel
  obtain ⟨hbackRoute, hbackCursor, -⟩ :=
    (forced_gives_back cell hs alarm alarms hp).givenBack hbefore hnow
  dsimp only at hbackRoute hbackCursor
  rw [hroute] at hbackRoute
  rw [hcursor] at hbackCursor
  exact ⟨hs, hp, hbefore, hnow, hbackRoute, hbackCursor⟩

end Character

end TileRoute
