import Mathlib.Tactic.Common
import TileRoute.Character.Tick

/-!
# What a call can do

`Character.Ran` lists the operations behind the calls, each with the arguments that were read for it.
A call that runs is one of them, and whether it runs depends on the call alone. What all calls leave
as it is follows by going through the list.
-/

namespace TileRoute

namespace Character

variable {α : Type} [Scalar α]

/-- The call has run on a character, with this outcome. -/
inductive Ran (w : World α) (c : Character α) (call : Call α) :
    Logged (Event α) (Character α) → Prop
  | walk (d : Direction) (count : Option α) (ha : call.action = .walk d)
      (hc : call.number? 0 = .ok count) :
      Ran w c call (pure (c.walk w.grid d (count.getD (Scalar.ofInt 1))))
  | shake (axis : Axis) (power speed : α) (duration : Int) (ha : call.action = .shake axis)
      (hp : call.magnitude 0 = .ok power) (hs : call.magnitude 1 = .ok speed)
      (hd : call.integer 2 = .ok duration) :
      Ran w c call (c.startShake axis power speed (toCoordinate duration))
  | fade (ramp : Ramp) (duration : α) (blocks : Bool) (done : Logged (Event α) (Character α))
      (ha : call.action = .fade ramp) (hd : call.number 0 = .ok duration)
      (hb : call.truth 1 = .ok blocks)
      (hf : c.startFade w.settings.opacitySpan ramp duration blocks = .ok done) :
      Ran w c call done
  | actorImage (id : Int) (ha : call.action = .actorImage) (hi : call.integer 0 = .ok id) :
      Ran w c call (c.showActor w.roster id)
  | memberImage (slot : Int) (ha : call.action = .memberImage) (hs : call.integer 0 = .ok slot) :
      Ran w c call (c.showMember w.roster slot)
  | approach (x y : Int) (ha : call.action = .approach) (hx : call.integer 0 = .ok x)
      (hy : call.integer 1 = .ok y) :
      Ran w c call (pure (c.approach w.grid ⟨toCoordinate x, toCoordinate y⟩))
  | randomWait (least limit : Int) (done : Character α) (ha : call.action = .randomWait)
      (hl : call.integer 0 = .ok least) (hu : call.integer 1 = .ok limit)
      (hr : c.randomWait least limit = .ok done) :
      Ran w c call (pure done)

theorem ran_of_invoke {w : World α} {c : Character α} {call : Call α}
    {done : Logged (Event α) (Character α)} (h : c.invoke w call = .ok done) :
    Ran w c call done := by
  cases ha : call.action with
  | walk d =>
    simp only [invoke, ha] at h
    obtain ⟨count, hc, hd⟩ := ok_of_bind h
    cases hd
    exact .walk d count ha hc
  | shake axis =>
    simp only [invoke, ha] at h
    obtain ⟨power, hp, h⟩ := ok_of_bind h
    obtain ⟨speed, hs, h⟩ := ok_of_bind h
    obtain ⟨duration, hd, h⟩ := ok_of_bind h
    cases h
    exact .shake axis power speed duration ha hp hs hd
  | fade ramp =>
    simp only [invoke, ha] at h
    obtain ⟨duration, hd, h⟩ := ok_of_bind h
    obtain ⟨blocks, hb, h⟩ := ok_of_bind h
    exact .fade ramp duration blocks done ha hd hb h
  | actorImage =>
    simp only [invoke, ha] at h
    obtain ⟨id, hi, h⟩ := ok_of_bind h
    cases h
    exact .actorImage id ha hi
  | memberImage =>
    simp only [invoke, ha] at h
    obtain ⟨slot, hs, h⟩ := ok_of_bind h
    cases h
    exact .memberImage slot ha hs
  | approach =>
    simp only [invoke, ha] at h
    obtain ⟨x, hx, h⟩ := ok_of_bind h
    obtain ⟨y, hy, h⟩ := ok_of_bind h
    cases h
    exact .approach x y ha hx hy
  | randomWait =>
    simp only [invoke, ha] at h
    obtain ⟨least, hl, h⟩ := ok_of_bind h
    obtain ⟨limit, hu, h⟩ := ok_of_bind h
    cases hr : c.randomWait least limit with
    | error e =>
      rw [hr] at h
      cases h
    | ok d =>
      rw [hr] at h
      cases h
      exact .randomWait least limit d ha hl hu hr

/-- The same route with the cursor in the same place, in the stead of the same route. -/
structure SamePlace (c d : Character α) : Prop where
  label : d.label = c.label
  route? : d.playback.route? = c.playback.route?
  cursor : d.playback.cursor = c.playback.cursor
  forcing : d.playback.forcing = c.playback.forcing
  saved? : d.playback.saved? = c.playback.saved?

omit [Scalar α] in
theorem SamePlace.refl (c : Character α) : SamePlace c c := ⟨rfl, rfl, rfl, rfl, rfl⟩

omit [Scalar α] in
theorem SamePlace.trans {b c d : Character α} (h : SamePlace b c) (k : SamePlace c d) :
    SamePlace b d :=
  ⟨k.label.trans h.label, k.route?.trans h.route?, k.cursor.trans h.cursor,
    k.forcing.trans h.forcing, k.saved?.trans h.saved?⟩

omit [Scalar α] in
theorem samePlace_stepIn (g : Grid) (c : Character α) (d : Direction) :
    SamePlace c (c.stepIn g d) := ⟨rfl, rfl, rfl, rfl, rfl⟩

theorem samePlace_walk (g : Grid) (c : Character α) (d : Direction) (count : α) :
    SamePlace c (c.walk g d count) := by
  simp only [walk]
  split
  · split <;> exact ⟨rfl, rfl, rfl, rfl, rfl⟩
  · split <;> exact ⟨rfl, rfl, rfl, rfl, rfl⟩

omit [Scalar α] in
theorem samePlace_approach (g : Grid) (c : Character α) (goal : Tile) :
    SamePlace c (c.approach g goal) := by
  simp only [approach]
  split
  · exact .refl c
  · split <;> exact ⟨rfl, rfl, rfl, rfl, rfl⟩

omit [Scalar α] in
theorem samePlace_showPortrait (c : Character α) (portrait? : Option Portrait)
    (missing : Event α) : SamePlace c (c.showPortrait portrait? missing).value := by
  cases portrait? with
  | none => exact .refl c
  | some p => exact ⟨rfl, rfl, rfl, rfl, rfl⟩

theorem startFade_eq_ok {span : α} {c : Character α} {ramp : Ramp} {duration : α} {blocks : Bool}
    {done : Logged (Event α) (Character α)} (h : c.startFade span ramp duration blocks = .ok done) :
    ¬ Scalar.Le duration Scalar.zero ∧
      done =
        ⟨{ c with motion := { c.motion with fade := Fade.lasting ramp duration span blocks } },
          [.fadeStarted ramp duration (Fade.lasting ramp duration span blocks).step blocks]⟩ := by
  simp only [startFade] at h
  split at h
  · cases h
  · rename_i hl
    cases h
    exact ⟨hl, rfl⟩

omit [Scalar α] in
theorem randomWait_eq_ok {c d : Character α} {least limit : Int}
    (h : c.randomWait least limit = .ok d) :
    least < limit ∧
      d =
        { c with
          playback := { c.playback with wait := (drawWait c.dice least limit).1 }
          dice := (drawWait c.dice least limit).2 } := by
  simp only [randomWait] at h
  split at h
  · cases h
  · cases h
    exact ⟨by omega, rfl⟩

theorem Ran.samePlace {w : World α} {c : Character α} {call : Call α}
    {done : Logged (Event α) (Character α)} (h : Ran w c call done) : SamePlace c done.value := by
  cases h with
  | walk d count => exact samePlace_walk w.grid c d _
  | shake => exact ⟨rfl, rfl, rfl, rfl, rfl⟩
  | fade ramp duration blocks done _ _ _ hf =>
    obtain ⟨-, rfl⟩ := startFade_eq_ok hf
    exact ⟨rfl, rfl, rfl, rfl, rfl⟩
  | actorImage => exact samePlace_showPortrait c _ _
  | memberImage => exact samePlace_showPortrait c _ _
  | approach x y => exact samePlace_approach w.grid c _
  | randomWait least limit d _ _ _ hr =>
    obtain ⟨-, rfl⟩ := randomWait_eq_ok hr
    exact ⟨rfl, rfl, rfl, rfl, rfl⟩

/-- No call hands on a script line. -/
theorem Ran.scripts {w : World α} {c : Character α} {call : Call α}
    {done : Logged (Event α) (Character α)} (h : Ran w c call done) :
    Event.scripts done.events = [] := by
  cases h with
  | walk => rfl
  | shake => rfl
  | fade ramp duration blocks done _ _ _ hf =>
    obtain ⟨-, rfl⟩ := startFade_eq_ok hf
    rfl
  | actorImage id =>
    simp only [showActor, showPortrait]
    split <;> rfl
  | memberImage slot =>
    simp only [showMember, showPortrait]
    split <;> rfl
  | approach => rfl
  | randomWait => rfl

end Character

end TileRoute
