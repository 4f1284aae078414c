import TileRoute.Proofs.Character.Refusal

/-!
# Random waits

The limits of a random wait may lie anywhere among the identifiers, so that neither the width of the
range nor the frames need fit into what they are counted in. Still no number that can be drawn makes
a sum run over, and the wait is the least one plus what is drawn, brought to the nearest frame
count.
-/

namespace TileRoute

/-- A whole number of 64 bits. -/
def IsIdentifier (i : Int) : Prop := -9223372036854775808 ≤ i ∧ i < 9223372036854775808

instance (i : Int) : Decidable (IsIdentifier i) :=
  inferInstanceAs (Decidable (-9223372036854775808 ≤ i ∧ i < 9223372036854775808))

namespace Character

variable {α : Type} [Scalar α] {least limit : Int} {drawn : Nat}

/-- How many numbers can be drawn for a wait. -/
def choices (least limit : Int) : Nat := (toIdentifier (limit - least)).toNat

theorem choices_pos (h : least < limit) : 0 < choices least limit := by
  simp only [choices, toIdentifier, clampSigned]
  omega

theorem choices_le (least limit : Int) : choices least limit ≤ 9223372036854775807 := by
  simp only [choices, toIdentifier, clampSigned]
  omega

/-- A range that is too wide is cut off at the top. -/
theorem choices_le_width (h : least < limit) : (choices least limit : Int) ≤ limit - least := by
  simp only [choices, toIdentifier, clampSigned]
  omega

theorem choices_eq_width (h : least < limit) (hw : limit - least ≤ 9223372036854775807) :
    (choices least limit : Int) = limit - least := by
  simp only [choices, toIdentifier, clampSigned]
  omega

/-- What is drawn stays below the width of the range, so the sum stays below the limit. -/
theorem add_drawn_lt (h : least < limit) (hd : drawn < choices least limit) :
    least + drawn < limit := by
  have hwidth := choices_le_width h
  omega

theorem toIdentifier_add_drawn (hl : IsIdentifier least) (hu : IsIdentifier limit)
    (h : least < limit) (hd : drawn < choices least limit) :
    toIdentifier (least + drawn) = least + drawn := by
  have hbelow := add_drawn_lt h hd
  have hleast := hl.1
  have hlimit := hu.2
  refine clampSigned_of_mem ?_ ?_ <;> omega

theorem toCount_eq_clamp (i : Int) : (toCount i : Int) = max 0 (min i 4294967295) := by
  simp only [toCount, maxCount]
  omega

/-- Where the numbers below a bound come from: what is drawn and what the dice are then. -/
abbrev Source := Dice → Nat → Nat × Dice

/-- What is drawn is below the bound, if anything can be. -/
def Source.Admissible (source : Source) : Prop :=
  ∀ dice bound, 0 < bound → (source dice bound).1 < bound

theorem admissible_below : Source.Admissible Dice.below := fun dice _ hb => dice.below_lt hb

namespace InPlace

variable {β γ : Type} {s : Logged (Event α) (Character α)}

omit [Scalar α] in
def drawFrom (source : Source) (bound : Nat) : InPlace α Nat := do
  let s ← get
  let drawn := source s.value.dice bound
  set { s with value := { s.value with dice := drawn.2 } }
  return drawn.1

omit [Scalar α] in
theorem run_check_bind (b : β) (f : β → InPlace α γ) :
    (check (.ok b) >>= f).run.run s = (f b).run.run s := rfl

omit [Scalar α] in
theorem run_drawFrom_bind (source : Source) (bound : Nat) (f : Nat → InPlace α γ) :
    (drawFrom source bound >>= f).run.run s =
      (f (source s.value.dice bound).1).run.run
        { s with value := { s.value with dice := (source s.value.dice bound).2 } } := rfl

omit [Scalar α] in
theorem run_write_bind (f : Character α → Logged (Event α) (Character α))
    (g : Unit → InPlace α γ) : (write f >>= g).run.run s = (g ()).run.run (s >>= f) := rfl

end InPlace

omit [Scalar α] in
open InPlace in
/-- A random wait on the character itself, with any source of numbers, which also gives the
frames. -/
def waitInPlace (source : Source) (least limit : Int) : InPlace α Nat := do
  check (if limit ≤ least then .error (.emptyRange least limit) else .ok ())
  let drawn ← drawFrom source (choices least limit)
  let frames := toCount (toIdentifier (least + drawn))
  write fun c => pure (c.mapPlayback fun p => { p with wait := frames })
  return frames

omit [Scalar α] in
theorem run_waitInPlace (source : Source) (h : least < limit) (c : Character α)
    (events : List (Event α)) :
    (waitInPlace source least limit).run.run ⟨c, events⟩ =
      let drawn := source c.dice (choices least limit)
      let frames := toCount (toIdentifier (least + drawn.1))
      (.ok frames,
        ⟨{ c with playback := { c.playback with wait := frames }, dice := drawn.2 }, events⟩) := by
  unfold waitInPlace
  rw [if_neg (Int.not_le.mpr h)]
  rw [InPlace.run_check_bind, InPlace.run_drawFrom_bind, InPlace.run_write_bind]
  dsimp only
  generalize source c.dice (choices least limit) = drawn
  generalize toCount (toIdentifier (least + drawn.1)) = frames
  refine Prod.ext rfl (Logged.ext_fields rfl ?_)
  exact List.append_nil events

omit [Scalar α] in
theorem run_waitInPlace_empty (source : Source) (h : limit ≤ least)
    (s : Logged (Event α) (Character α)) :
    (waitInPlace source least limit).run.run s = (.error (.emptyRange least limit), s) := by
  unfold waitInPlace
  rw [if_pos h]
  rfl

omit [Scalar α] in
/-- With its own dice a wait in place does what the wait does. -/
theorem run_waitInPlace_below (least limit : Int) (c : Character α) (events : List (Event α)) :
    (waitInPlace Dice.below least limit).run.run ⟨c, events⟩ =
      match c.randomWait least limit with
      | .ok done => (.ok done.playback.wait, ⟨done, events⟩)
      | .error error => (.error error, ⟨c, events⟩) := by
  unfold randomWait
  by_cases h : limit ≤ least
  · rw [run_waitInPlace_empty Dice.below h, if_pos h]
  · rw [run_waitInPlace Dice.below (Int.not_le.mp h), if_neg h]
    unfold drawWait
    dsimp only
    rw [← choices]

/-- What a wait does whose range is not empty: what is offered, what is drawn, and the frames. -/
structure Drawn (source : Source) (c : Character α) (least limit : Int) (drawn : Nat) (dice : Dice)
    (frames : Nat) : Prop where
  offered : 0 < choices least limit ∧ choices least limit ≤ 9223372036854775807
  draws : source c.dice (choices least limit) = (drawn, dice)
  exact : toIdentifier (least + drawn) = least + drawn
  clamped : (frames : Int) = max 0 (min (least + drawn) 4294967295)
  sets : ∀ events, (waitInPlace source least limit).run.run ⟨c, events⟩ =
    (.ok frames, ⟨{ c with playback := { c.playback with wait := frames }, dice }, events⟩)
  within : 0 ≤ least → limit ≤ 4294967296 → least ≤ frames ∧ frames < limit
  reaches : limit - least ≤ 9223372036854775807 → ∀ i, least ≤ i → i < limit →
    ∃ other : Source, other.Admissible ∧
      least + ((other c.dice (choices least limit)).1 : Int) = i

/-- Every number of the range comes of some source. -/
theorem exists_admissible (h : least < limit) (hw : limit - least ≤ 9223372036854775807)
    (dice : Dice) {i : Int} (hl : least ≤ i) (hu : i < limit) :
    ∃ other : Source, other.Admissible ∧
      least + ((other dice (choices least limit)).1 : Int) = i := by
  have hchoices := choices_eq_width h hw
  have hlt : (i - least).toNat < choices least limit := by omega
  refine ⟨fun d bound => (if (i - least).toNat < bound then (i - least).toNat else 0, d), ?_, ?_⟩
  · intro d bound hb
    dsimp only
    split
    · assumption
    · exact hb
  · dsimp only
    rw [if_pos hlt]
    omega

omit [Scalar α] in
theorem exists_drawn (hl : IsIdentifier least) (hu : IsIdentifier limit) (h : least < limit)
    {source : Source} (hs : source.Admissible) (c : Character α) :
    ∃ drawn dice frames, Drawn source c least limit drawn dice frames := by
  have hd := hs c.dice _ (choices_pos h)
  have hrun := run_waitInPlace source h c
  generalize hdraws : source c.dice (choices least limit) = pair at hd hrun
  obtain ⟨drawn, dice⟩ := pair
  dsimp only at hd hrun
  have hsum := toIdentifier_add_drawn hl hu h hd
  have hbelow := add_drawn_lt h hd
  have hclamp := toCount_eq_clamp (toIdentifier (least + drawn))
  generalize toCount (toIdentifier (least + drawn)) = frames at hrun hclamp
  rw [hsum] at hclamp
  refine ⟨drawn, dice, frames, ⟨choices_pos h, choices_le least limit⟩, hdraws, hsum, hclamp, hrun,
    ?_, fun hw i => exists_admissible h hw c.dice⟩
  intro hleast hlimit
  omega

/-- A random wait, with whatever source of numbers. With the dice of the character it is the wait
that its calls ask for. -/
structure Waits (source : Source) (c : Character α) (least limit : Int) : Prop where
  called : ∀ events, (waitInPlace Dice.below least limit).run.run ⟨c, events⟩ =
    match c.randomWait least limit with
    | .ok done => (.ok done.playback.wait, ⟨done, events⟩)
    | .error error => (.error error, ⟨c, events⟩)
  drawn : least < limit → ∃ drawn dice frames, Drawn source c least limit drawn dice frames
  refused : limit ≤ least → ∀ events, (waitInPlace source least limit).run.run ⟨c, events⟩ =
    (.error (.emptyRange least limit), ⟨c, events⟩)

omit [Scalar α] in
/-- A random wait keeps to its range at every magnitude, and one without a range changes nothing. -/
theorem random_wait_in_range (hl : IsIdentifier least) (hu : IsIdentifier limit) {source : Source}
    (hs : source.Admissible) (c : Character α) : Waits source c least limit where
  called := run_waitInPlace_below least limit c
  drawn h := exists_drawn hl hu h hs c
  refused h _ := run_waitInPlace_empty source h _

def sleeper : Character Float :=
  placed "sleeper" (Body.standing ⟨0, 0⟩ 0 0) { Settings.standard with seed? := some 16 }

/-- What the sleeper draws first is the greatest of six numbers, so that the wait is as long as a
wait can be. Of the widest of all ranges only the lower half is offered. -/
theorem random_wait_in_range_sleeper :
    IsIdentifier 4294967290 ∧ IsIdentifier 4294967296 ∧ Source.Admissible Dice.below ∧
      Waits Dice.below sleeper 4294967290 4294967296 ∧
        (∃ done, sleeper.randomWait 4294967290 4294967296 = .ok done ∧
          done.playback.wait = maxCount) ∧
          Waits Dice.below sleeper (-9223372036854775808) 9223372036854775807 ∧
            choices (-9223372036854775808) 9223372036854775807 = 9223372036854775807 := by
  have hleast : IsIdentifier 4294967290 := by decide
  have hlimit : IsIdentifier 4294967296 := by decide
  have h := random_wait_in_range hleast hlimit admissible_below sleeper
  refine ⟨hleast, hlimit, admissible_below, h, ?_,
    random_wait_in_range (by decide) (by decide) admissible_below sleeper, by decide⟩
  obtain ⟨drawn, dice, frames, hdrawn⟩ := h.drawn (by decide)
  have hfive : (Dice.below sleeper.dice (choices 4294967290 4294967296)).1 = 5 := by decide +kernel
  have hd : drawn = 5 := (congrArg Prod.fst hdrawn.draws).symm.trans hfive
  have hframes : frames = maxCount := by
    have hclamped := hdrawn.clamped
    rw [maxCount]
    omega
  have hcalled := (h.called []).symm.trans (hdrawn.sets [])
  cases hr : sleeper.randomWait 4294967290 4294967296 with
  | error error =>
    rw [hr] at hcalled
    cases hcalled
  | ok done =>
    rw [hr] at hcalled
    have hwait := Except.ok.inj (congrArg Prod.fst hcalled)
    exact ⟨done, rfl, hwait.trans hframes⟩

end Character

end TileRoute
