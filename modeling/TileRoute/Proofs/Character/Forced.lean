import TileRoute.Proofs.Character.Delay

/-!
# Forced routes and what they stand in for

A tick leaves alone whether a forced route is running and what is kept aside for it, or the forced
route ends with it: then what was kept aside is played on from where it had come to. Installing a
route does not touch what is kept aside, so a route forced later gives way to what was kept aside
before the installation, if anything was, and to the interrupted route with its cursor otherwise.
-/

namespace TileRoute.Character

variable {α : Type}

/-- What is played on when a forced route ends. -/
def aside (c : Character α) : Saved α := c.playback.saved?.getD ⟨none, 0⟩

/-- As before: the same is kept aside, for a forced route or not. -/
structure Unrelieved (c d : Character α) : Prop where
  forcing : d.playback.forcing = c.playback.forcing
  saved? : d.playback.saved? = c.playback.saved?

/-- The forced route has ended, and what was kept aside is played on. -/
structure Relieved (c d : Character α) : Prop where
  forced : c.playback.forcing = true
  forcing : d.playback.forcing = false
  saved? : d.playback.saved? = none
  route? : d.playback.route? = c.aside.route?
  cursor : d.playback.cursor = c.aside.cursor
  progress : d.motion.progress = .start

theorem Unrelieved.trans {b c d : Character α} (h : Unrelieved b c) (k : Unrelieved c d) :
    Unrelieved b d := ⟨k.forcing.trans h.forcing, k.saved?.trans h.saved?⟩

theorem SamePlace.unrelieved {c d : Character α} (h : SamePlace c d) : Unrelieved c d :=
  ⟨h.forcing, h.saved?⟩

theorem Unrelieved.then_relieved {b c d : Character α} (h : Unrelieved b c) (k : Relieved c d) :
    Relieved b d := by
  have ha : c.aside = b.aside := by simp only [aside, h.saved?]
  exact ⟨h.forcing.symm.trans k.forced, k.forcing, k.saved?, k.route?.trans (by rw [ha]),
    k.cursor.trans (by rw [ha]), k.progress⟩

theorem finish_relieves (c : Character α) :
    Unrelieved c c.finish.value ∨ Relieved c c.finish.value := by
  simp only [finish]
  split
  · rename_i hf
    exact .inr ⟨hf, rfl, rfl, rfl, rfl, rfl⟩
  · rename_i hf
    rw [Bool.not_eq_true] at hf
    exact .inl ⟨hf.symm, rfl⟩

theorem unrelieved_moveCursor (c : Character α) : Unrelieved c c.moveCursor := by
  simp only [moveCursor]
  split
  · exact ⟨rfl, rfl⟩
  · split <;> exact ⟨rfl, rfl⟩

theorem advance_relieves (c : Character α) :
    Unrelieved c c.advance.value ∨ Relieved c c.advance.value := by
  have ht : Unrelieved c (c.mapProgress Progress.take) := ⟨rfl, rfl⟩
  simp only [advance]
  split
  · exact .inl ht
  · rcases finish_relieves (c.mapProgress Progress.take) with h | h
    · exact .inl (ht.trans h)
    · exact .inr (ht.then_relieved h)
  · exact .inl (ht.trans (unrelieved_moveCursor _))

theorem endRoute_relieves (c : Character α) (r : Route α) :
    Unrelieved c (c.endRoute r).value ∨ Relieved c (c.endRoute r).value := by
  simp only [endRoute]
  split
  · exact .inl ⟨rfl, rfl⟩
  · exact finish_relieves c

variable [Scalar α]

theorem Turn.relieves {w : World α} {c : Character α} {done : Logged (Event α) (Character α)}
    (h : Turn w c done) : Unrelieved c done.value ∨ Relieved c done.value := by
  have ha : Unrelieved c c.attempt := ⟨rfl, rfl⟩
  cases h with
  | busy => exact .inl ⟨rfl, rfl⟩
  | free => exact .inl ⟨rfl, rfl⟩
  | waiting => exact .inl ⟨rfl, rfl⟩
  | ending r =>
    rcases endRoute_relieves c.attempt r with h | h
    · exact .inl (ha.trans h)
    · exact .inr (ha.then_relieved h)
  | running r command =>
    have hp := ha.trans (samePlace_perform w c.attempt command).unrelieved
    rw [Logged.value_bind]
    rcases advance_relieves (c.attempt.perform w command).value with h | h
    · exact .inl (hp.trans h)
    · exact .inr (hp.then_relieved h)

theorem tick_relieves (w : World α) (c : Character α) :
    Unrelieved c (c.tick w).value ∨ Relieved c (c.tick w).value := by
  have hp := playback_frame (c.follow w).value
  rw [value_tick]
  rcases (turn_follow w c).relieves with h | h
  · refine .inl ⟨?_, ?_⟩ <;> rw [hp]
    · exact h.forcing
    · exact h.saved?
  · refine .inr ⟨h.forced, ?_, ?_, ?_, ?_, (progress_frame _).trans h.progress⟩ <;> rw [hp]
    · exact h.forcing
    · exact h.saved?
    · exact h.route?
    · exact h.cursor

theorem ticks_succ (w : World α) (n : Nat) (c : Character α) :
    (c.ticks w (n + 1)).value = ((c.ticks w n).value.tick w).value :=
  value_ticks_add w n 1 c

/-- Without a forced route nothing that is kept aside is ever taken up. -/
theorem ticks_unforced (w : World α) {c : Character α} (h : c.playback.forcing = false) (n : Nat) :
    Unrelieved c (c.ticks w n).value := by
  induction n with
  | zero => exact ⟨rfl, rfl⟩
  | succ n ih =>
    rw [ticks_succ]
    rcases tick_relieves w (c.ticks w n).value with k | k
    · exact ih.trans k
    · have hf := k.forced
      rw [ih.forcing, h] at hf
      cases hf

/-- As long as a forced route runs the same is kept aside for it. -/
theorem ticks_forced (w : World α) {c : Character α} {n : Nat}
    (h : ∀ k < n, (c.ticks w k).value.playback.forcing = true) :
    ∀ k ≤ n, Unrelieved c (c.ticks w k).value ∨
      k = n ∧ Relieved c (c.ticks w k).value := by
  intro k
  induction k with
  | zero => exact fun _ => .inl ⟨rfl, rfl⟩
  | succ k ih =>
    intro hk
    rcases ih (by omega) with hu | ⟨he, -⟩
    · rw [ticks_succ]
      rcases tick_relieves w (c.ticks w k).value with ht | ht
      · exact .inl (hu.trans ht)
      · have hr := hu.then_relieved ht
        refine .inr ⟨?_, hr⟩
        by_contra hn
        have hf := h (k + 1) (by omega)
        rw [ticks_succ, ht.forcing] at hf
        cases hf
    · omega

/-- A route is installed and the character ticked so often. -/
def installedFor (w : World α) (c : Character α) (route? : Option (Route α)) (n : Nat) :
    Character α := ((c.install w.lexicon route?).value.ticks w n).value

/-- A route is forced and the character ticked so often. -/
def forcedFor (w : World α) (c : Character α) (g : Route α) (n : Nat) : Character α :=
  ((c.force w.lexicon (some g)).value.ticks w n).value

theorem saved?_installedFor (w : World α) (c : Character α) (route? : Option (Route α)) (n : Nat) :
    (installedFor w c route? n).playback.saved? = c.playback.saved? := by
  have hf : (c.install w.lexicon route?).value.playback.forcing = false := by
    rw [value_install]
    rfl
  rw [installedFor, (ticks_unforced w hf n).saved?, value_install, saved?_play]

/-- When a forced route ends, what was kept aside when it came is played on, or else the route that
it interrupted. -/
theorem relieved_forcedFor {w : World α} {c : Character α} {g : Route α} {n : Nat}
    (hr : ∀ k < n, (forcedFor w c g k).playback.forcing = true)
    (he : (forcedFor w c g n).playback.forcing = false) :
    (forcedFor w c g n).playback.route? = c.keptAside.route? ∧
      (forcedFor w c g n).playback.cursor = c.keptAside.cursor := by
  have ha : (c.force w.lexicon (some g)).value.aside = c.keptAside := rfl
  rcases ticks_forced w hr n (Nat.le_refl n) with hu | ⟨-, hd⟩
  · have hf := hu.forcing
    change (forcedFor w c g n).playback.forcing = true at hf
    rw [he] at hf
    cases hf
  · rw [← ha]
    exact ⟨hd.route?, hd.cursor⟩

/-- A route forced after an installation gives way to the installed route with its cursor exactly if
nothing, or just that, was kept aside before the installation. -/
theorem installed_restored_iff (w : World α) (c : Character α) (route? : Option (Route α))
    (g : Route α) (n m : Nat)
    (hi : (installedFor w c route? n).playback.route? = route?.map (Route.compile w.lexicon))
    (hr : ∀ k < m, (forcedFor w (installedFor w c route? n) g k).playback.forcing = true)
    (he : (forcedFor w (installedFor w c route? n) g m).playback.forcing = false) :
    ((forcedFor w (installedFor w c route? n) g m).playback.route? =
          route?.map (Route.compile w.lexicon) ∧
        (forcedFor w (installedFor w c route? n) g m).playback.cursor =
          (installedFor w c route? n).playback.cursor) ↔
      ∀ saved, c.playback.saved? = some saved →
        saved.route? = route?.map (Route.compile w.lexicon) ∧
          saved.cursor = (installedFor w c route? n).playback.cursor := by
  obtain ⟨hroute, hcursor⟩ := relieved_forcedFor hr he
  rw [hroute, hcursor, keptAside, saved?_installedFor, hi]
  cases c.playback.saved? with
  | none => simp
  | some saved => simp

/-- A place with a single tile. -/
def cell : World Float where
  grid := ⟨1, 1, .ofList [true]⟩
  roster := {}
  lexicon := .standard
  settings := { Settings.standard with seed? := some 1 }

def patrol : Route Float := { commands := [.wait 5] }

def alarm : Route Float := { commands := [.wait 3] }

def retreat : Route Float := { commands := [.wait 1, .wait 1] }

/-- A guard on patrol. -/
def guard : Character Float :=
  ((placed "guard" (Body.standing ⟨0, 0⟩ 0 0) cell.settings).install cell.lexicon
    (some patrol)).value

theorem installed_restored_iff_guard :
    (installedFor cell guard (some retreat) 1).playback.route? =
        (some retreat).map (Route.compile cell.lexicon) ∧
      (∀ k < 4, (forcedFor cell (installedFor cell guard (some retreat) 1) alarm k).playback.forcing
          = true) ∧
        (forcedFor cell (installedFor cell guard (some retreat) 1) alarm 4).playback.forcing = false ∧
          (forcedFor cell (installedFor cell guard (some retreat) 1) alarm 4).playback.cursor = 1 := by
  have hi : (installedFor cell guard (some retreat) 1).playback.route? =
      (some retreat).map (Route.compile cell.lexicon) := by decide +kernel
  have hr : ∀ k < 4, (forcedFor cell (installedFor cell guard (some retreat) 1) alarm k).playback.forcing
      = true := by decide +kernel
  have he : (forcedFor cell (installedFor cell guard (some retreat) 1) alarm 4).playback.forcing =
      false := by decide +kernel
  have h := (installed_restored_iff cell guard (some retreat) alarm 1 4 hi hr he).mpr
    (fun saved hs => by cases hs)
  have hc : (installedFor cell guard (some retreat) 1).playback.cursor = 1 := by decide +kernel
  exact ⟨hi, hr, he, h.2.trans hc⟩

/-- A guard who is told to retreat while an alarm keeps it from its patrol, and is alarmed again,
goes back to the patrol and not to the retreat. -/
theorem installed_not_restored :
    let alarmed := (guard.force cell.lexicon (some alarm)).value
    let retreating := installedFor cell alarmed (some retreat) 1
    retreating.playback.route?.map Route.length = some 2 ∧
      (forcedFor cell retreating alarm 3).playback.forcing = true ∧
        (forcedFor cell retreating alarm 4).playback.forcing = false ∧
          (forcedFor cell retreating alarm 4).playback.route?.map Route.length = some 1 := by
  decide +kernel

end TileRoute.Character
