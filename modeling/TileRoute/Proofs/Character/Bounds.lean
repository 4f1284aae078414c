import TileRoute.Proofs.Character.Course
import TileRoute.Proofs.Character.Forced
import TileRoute.Proofs.Character.Operation

/-!
# Bounds of the cursor

A cursor suits its route: it points at a command, or at the end of a route that does not start over.
So it is with the installed route and with the one that is kept aside, in every state that a
character can get into, and a forced route always has something kept aside for it. What an operation
does to the cursor is to leave it, to set it to the start, to move it on or to put back the one that
was kept aside; each of these keeps the bounds.
-/

namespace TileRoute

variable {α : Type}

/-- A route has been compiled, and its cursor is on a command, or behind the last one of a route that
does not start over. -/
structure Route.Admits (r : Route α) (cursor : Nat) : Prop where
  compiled : r.compiled = true
  bound : cursor ≤ r.length
  cycle : r.repeats = true → cursor = 0 ∨ cursor < r.cycleLength

theorem Route.admits_zero {r : Route α} (h : r.compiled = true) : r.Admits 0 :=
  ⟨h, Nat.zero_le _, fun _ => .inl rfl⟩

theorem Route.Admits.next {r : Route α} {cursor : Nat} (h : r.Admits cursor)
    (hlt : cursor < r.length) : r.Admits (Character.nextCursor r cursor) := by
  rcases Character.nextCursor_cases r cursor with ⟨hz, -⟩ | ⟨hs, hcycle⟩
  · rw [hz]
    exact Route.admits_zero h.compiled
  · rw [hs]
    exact ⟨h.compiled, hlt, fun hrep => .inr (hcycle hrep)⟩

/-- Without a route the cursor is at the start. -/
structure Saved.Fits (s : Saved α) : Prop where
  free : s.route? = none → s.cursor = 0
  placed : ∀ r, s.route? = some r → r.Admits s.cursor

theorem Saved.fits_none : (⟨none, 0⟩ : Saved α).Fits :=
  ⟨fun _ => rfl, fun _ hr => by cases hr⟩

theorem Saved.fits_some {r : Route α} {cursor : Nat} (h : r.Admits cursor) :
    (⟨some r, cursor⟩ : Saved α).Fits := by
  refine ⟨fun hr => ?_, fun q hq => ?_⟩
  · cases hr
  · cases hq
    exact h

namespace Playback

structure InBounds (p : Playback α) : Prop where
  current : (⟨p.route?, p.cursor⟩ : Saved α).Fits
  aside : ∀ s, p.saved? = some s → s.Fits
  forced : p.forcing = true → p.route?.isSome = true ∧ p.saved?.isSome = true

variable {p q : Playback α}

theorem inBounds_idle : (idle : Playback α).InBounds :=
  ⟨Saved.fits_none, fun s hs => (by cases hs), fun hf => (by cases hf)⟩

/-- The bounds are about the two routes, their cursors and what is forced, and about nothing else. -/
theorem InBounds.congr (h : p.InBounds) (hr : q.route? = p.route?) (hi : q.cursor = p.cursor)
    (hf : q.forcing = p.forcing) (hs : q.saved? = p.saved?) : q.InBounds := by
  refine ⟨?_, ?_, ?_⟩
  · rw [hr, hi]
    exact h.current
  · rw [hs]
    exact h.aside
  · rw [hr, hf, hs]
    exact h.forced

theorem InBounds.cursor_eq_length {r : Route α} (h : p.InBounds) (hr : p.route? = some r)
    (hc : r.command? p.cursor = none) : p.cursor = r.length := by
  have hle : p.cursor ≤ r.length := (h.current.placed r hr).bound
  have hge : r.length ≤ p.cursor := List.getElem?_eq_none_iff.mp hc
  omega

end Playback

namespace Character

variable {c d : Character α}

theorem SamePlace.inBounds (h : SamePlace c d) (hc : c.playback.InBounds) :
    d.playback.InBounds := hc.congr h.route? h.cursor h.forcing h.saved?

theorem inBounds_play (hc : c.playback.InBounds) {route? : Option (Route α)}
    (hr : ∀ r, route? = some r → r.compiled = true) : (c.play route?).playback.InBounds where
  current := ⟨fun _ => rfl, fun r h => Route.admits_zero (hr r h)⟩
  aside := hc.aside
  forced hf := by cases hf

theorem fits_keptAside (hc : c.playback.InBounds) : c.keptAside.Fits := by
  unfold keptAside
  cases hs : c.playback.saved? with
  | none => exact hc.current
  | some s => exact hc.aside s hs

theorem inBounds_playForced (hc : c.playback.InBounds) {r : Route α} (hr : r.compiled = true) :
    (c.playForced r).playback.InBounds where
  current := Saved.fits_some (Route.admits_zero hr)
  aside := by
    intro s hs
    obtain rfl : c.keptAside = s := Option.some.inj hs
    exact fits_keptAside hc
  forced _ := ⟨rfl, rfl⟩

theorem inBounds_restore (hc : c.playback.InBounds) : c.restore.playback.InBounds := by
  have hsaved : (c.playback.saved?.getD ⟨none, 0⟩).Fits := by
    cases hs : c.playback.saved? with
    | none => exact Saved.fits_none
    | some s => exact hc.aside s hs
  refine ⟨hsaved, ?_, ?_⟩
  · intro s hs
    cases hs
  · intro hf
    cases hf

theorem inBounds_finish (hc : c.playback.InBounds) : c.finish.value.playback.InBounds := by
  cases hf : c.playback.forcing with
  | true =>
    rw [finish_forced hf]
    exact inBounds_restore hc
  | false =>
    rw [finish_unforced hf]
    exact inBounds_play hc fun r hr => by cases hr

theorem inBounds_moveCursor {r : Route α} {command : Command α} (hc : c.playback.InBounds)
    (hr : c.playback.route? = some r) (hcmd : r.command? c.playback.cursor = some command) :
    c.moveCursor.playback.InBounds := by
  cases hg : c.playback.stepped || r.skippable with
  | false =>
    rw [moveCursor_again hr hg]
    exact hc
  | true =>
    rw [moveCursor_on hr hg]
    refine ⟨?_, hc.aside, hc.forced⟩
    show (⟨c.playback.route?, nextCursor r c.playback.cursor⟩ : Saved α).Fits
    rw [hr]
    exact Saved.fits_some ((hc.current.placed r hr).next (Route.lt_of_command? hcmd))

theorem inBounds_advance {r : Route α} {command : Command α} (hc : c.playback.InBounds)
    (hr : c.playback.route? = some r) (hcmd : r.command? c.playback.cursor = some command) :
    c.advance.value.playback.InBounds := by
  unfold advance
  dsimp only
  split
  · exact hc
  · exact inBounds_finish (c := c.mapProgress Progress.take) hc
  · exact inBounds_moveCursor (c := c.mapProgress Progress.take) hc hr hcmd

theorem inBounds_endRoute {r : Route α} (hc : c.playback.InBounds)
    (hr : c.playback.route? = some r) : (c.endRoute r).value.playback.InBounds := by
  unfold endRoute
  split
  · refine ⟨?_, hc.aside, hc.forced⟩
    show (⟨c.playback.route?, 0⟩ : Saved α).Fits
    rw [hr]
    exact Saved.fits_some (Route.admits_zero (hc.current.placed r hr).compiled)
  · exact inBounds_finish hc

variable [Scalar α]

theorem Turn.inBounds {w : World α} {done : Logged (Event α) (Character α)} (h : Turn w c done)
    (hc : c.playback.InBounds) : done.value.playback.InBounds := by
  have ha : c.attempt.playback.InBounds := hc.congr rfl rfl rfl rfl
  cases h with
  | busy => exact hc
  | free => exact hc
  | waiting => exact hc.congr rfl rfl rfl rfl
  | ending r _ hr => exact inBounds_endRoute ha hr
  | running r command _ hr _ hcmd =>
    have hp := samePlace_perform w c.attempt command
    have hroute := hp.route?.trans hr
    have hcur : r.command? (c.attempt.perform w command).value.playback.cursor = some command := by
      rw [hp.cursor]
      exact hcmd
    exact inBounds_advance (hp.inBounds ha) hroute hcur

theorem inBounds_tick (w : World α) (hc : c.playback.InBounds) :
    (c.tick w).value.playback.InBounds := by
  rw [value_tick, playback_frame]
  exact (turn_follow w c).inBounds hc

theorem samePlace_request (w : World α) (c : Character α) (asked : Request α) :
    SamePlace c (c.request w asked).value := by
  cases asked with
  | call asked =>
    simp only [request]
    cases h : c.invoke w asked with
    | ok done => exact (ran_of_invoke h).samePlace
    | error e => exact .refl c
  | walk d count => exact samePlace_walk w.grid c d count
  | shake axis power speed duration => exact ⟨rfl, rfl, rfl, rfl, rfl⟩
  | fade ramp duration blocks =>
    simp only [request]
    cases h : c.startFade w.settings.opacitySpan ramp duration blocks with
    | ok done =>
      obtain ⟨-, rfl⟩ := startFade_eq_ok h
      exact ⟨rfl, rfl, rfl, rfl, rfl⟩
    | error e => exact .refl c
  | actorImage id => exact samePlace_showPortrait c _ _
  | memberImage slot => exact samePlace_showPortrait c _ _
  | approach goal => exact samePlace_approach w.grid c goal
  | randomWait least limit =>
    simp only [request]
    cases h : c.randomWait least limit with
    | ok done =>
      obtain ⟨-, rfl⟩ := randomWait_eq_ok h
      exact ⟨rfl, rfl, rfl, rfl, rfl⟩
    | error e => exact .refl c
  | body change => exact ⟨rfl, rfl, rfl, rfl, rfl⟩

theorem inBounds_operate (w : World α) (op : Operation α) (hc : c.playback.InBounds) :
    (c.operate w op).value.playback.InBounds := by
  cases op with
  | install route? =>
    show (c.install w.lexicon route?).value.playback.InBounds
    rw [value_install]
    refine inBounds_play hc fun r hr => ?_
    obtain ⟨q, -, rfl⟩ := Option.map_eq_some_iff.mp hr
    exact q.compiled_compile w.lexicon
  | force route? =>
    cases route? with
    | none => exact hc
    | some r => exact inBounds_playForced hc (r.compiled_compile w.lexicon)
  | tick => exact inBounds_tick w hc
  | request asked => exact (samePlace_request w c asked).inBounds hc

/-- A state that operations can bring a character into, each in a world of its own. -/
inductive Reachable : Character α → Prop
  | placed (label : String) (body : Body α) (settings : Settings α) :
      Reachable (placed label body settings)
  | operate {c : Character α} (h : Reachable c) (w : World α) (op : Operation α) :
      Reachable (c.operate w op).value

theorem Reachable.inBounds (h : Reachable c) : c.playback.InBounds := by
  induction h with
  | placed label body settings => exact Playback.inBounds_idle
  | operate h w op ih => exact inBounds_operate w op ih

theorem Reachable.run (h : Reachable c) (w : World α) (ops : List (Operation α)) :
    Reachable (c.run w ops).value := by
  induction ops generalizing c with
  | nil => exact h
  | cons op ops ih => exact ih (h.operate w op)

/-- The playback of a character is in order. -/
structure InOrder (c : Character α) : Prop where
  bounds : c.playback.InBounds
  free : c.playback.route? = none → c.playback.cursor = 0 ∧ c.playback.forcing = false
  /-- Nothing is under the cursor at the very end of a route, and nowhere else. -/
  ending : ∀ r, c.playback.route? = some r → r.command? c.playback.cursor = none →
    c.playback.cursor = r.length
  /-- A forced route that ends with a tick gives way to what was kept aside for it. -/
  relieved : c.playback.forcing = true → ∃ s, c.playback.saved? = some s ∧
    ∀ w : World α, (c.tick w).value.playback.forcing = false →
      (c.tick w).value.playback.route? = s.route? ∧ (c.tick w).value.playback.cursor = s.cursor

theorem relieved_tick {s : Saved α} (hf : c.playback.forcing = true)
    (hs : c.playback.saved? = some s) (w : World α)
    (he : (c.tick w).value.playback.forcing = false) :
    (c.tick w).value.playback.route? = s.route? ∧ (c.tick w).value.playback.cursor = s.cursor := by
  have ha : c.aside = s := by
    simp only [aside, hs, Option.getD_some]
  rcases tick_relieves w c with hu | hr
  · have hstill := hu.forcing
    rw [he, hf] at hstill
    cases hstill
  · rw [← ha]
    exact ⟨hr.route?, hr.cursor⟩

/-- Whatever is done to a character, its playback stays in order. -/
theorem playback_in_order (h : Reachable c) : InOrder c := by
  have hb := h.inBounds
  refine { bounds := hb, free := ?free, ending := ?ending, relieved := ?relieved }
  case free =>
    intro hr
    refine ⟨hb.current.free hr, ?_⟩
    by_contra hf
    rw [Bool.not_eq_false] at hf
    have hsome := (hb.forced hf).1
    rw [hr] at hsome
    cases hsome
  case ending =>
    intro r hr hc
    exact hb.cursor_eq_length hr hc
  case relieved =>
    intro hf
    obtain ⟨s, hs⟩ := Option.isSome_iff_exists.mp (hb.forced hf).2
    exact ⟨s, hs, fun w he => relieved_tick hf hs w he⟩

/-- To look one way and the other, over and over. -/
def watch : Route Float := { commands := [.turn .left, .turn .right, .finish], repeats := true }

/-- A watchman who has looked one way when an alarm comes. -/
def watchman : Character Float :=
  (((placed "watchman" (Body.standing ⟨0, 0⟩ 0 0) cell.settings).run cell
    [.install (some watch), .tick, .force (some alarm)])).value

theorem playback_in_order_watchman :
    Reachable watchman ∧ InOrder watchman ∧ watchman.playback.forcing = true ∧
      watchman.playback.saved?.map Saved.cursor = some 1 := by
  have hr : Reachable watchman := by
    unfold watchman
    exact (Reachable.placed _ _ _).run cell _
  have hf : watchman.playback.forcing = true := by decide +kernel
  have hs : watchman.playback.saved?.map Saved.cursor = some 1 := by decide +kernel
  exact ⟨hr, playback_in_order hr, hf, hs⟩

end Character

end TileRoute
