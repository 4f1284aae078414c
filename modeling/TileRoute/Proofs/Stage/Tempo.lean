import TileRoute.Proofs.Character.Alike
import TileRoute.Proofs.Character.Operation
import TileRoute.Stage.Basic

/-!
# Effects delay a route and do nothing else to it

A part is played at two tempos: steps take longer, the opacity starts elsewhere, tiles have another
size and fades another span. The runs get out of step by any number of ticks, yet they process the
same commands: right after a command of either, be it the first or the hundredth, both characters
are alike and have handed on the same script lines. Between two commands each run goes through ticks
of its own that leave no trace but a shorter wait, so that the runs are compared command by command
and not tick by tick.
-/

namespace TileRoute

variable {α : Type}

/-- What settles how effects look and how long steps take. -/
structure Tempo (α : Type) where
  framesPerStep : Nat
  opacity? : Option α
  tileWidth : α
  tileHeight : α
  opacitySpan : α

namespace Tempo

def world (t : Tempo α) (w : World α) : World α :=
  { w with
    settings :=
      { w.settings with
        tileWidth := t.tileWidth
        tileHeight := t.tileHeight
        opacitySpan := t.opacitySpan } }

def part (t : Tempo α) (p : Part α) : Part α :=
  { p with framesPerStep := t.framesPerStep, opacity? := t.opacity? }

theorem sameScene (s t : Tempo α) (w : World α) : SameScene (s.world w) (t.world w) :=
  ⟨rfl, rfl, rfl⟩

variable [Scalar α]

def enter (t : Tempo α) (w : World α) (p : Part α) : Logged (Event α) (Character α) :=
  Stage.enter (t.world w) (t.part p)

/-- The part after so many ticks, with all that has happened since it came onto the stage. -/
def play (t : Tempo α) (w : World α) (p : Part α) (n : Nat) : Logged (Event α) (Character α) := do
  let c ← t.enter w p
  c.ticks (t.world w) n

end Tempo

namespace Character

variable {b c d : Character α}

theorem Alike.playForced (h : Alike c d) (r : Route α) :
    Alike (c.playForced r) (d.playForced r) := by
  have hkept : d.keptAside = c.keptAside := by
    unfold keptAside
    rw [h.playback]
  unfold Character.playForced
  rw [hkept]
  exact (h.play (some r)).mapPlayback fun p =>
    { p with forcing := true, saved? := some c.keptAside, wait := 0 }

variable [Scalar α] {w v : World α}

theorem Alike.install (h : Alike c d) (l : Lexicon) (route? : Option (Route α)) :
    Alike (c.install l route?).value (d.install l route?).value := by
  rw [value_install, value_install]
  exact h.play _

theorem Alike.force (h : Alike c d) (l : Lexicon) (route? : Option (Route α)) :
    Alike (c.force l route?).value (d.force l route?).value := by
  cases route? with
  | none => exact h
  | some r => exact h.playForced (r.compile l)

theorem alike_enter (s t : Tempo α) (w : World α) (p : Part α) :
    Alike (s.enter w p).value (t.enter w p).value := by
  have hroute : ∀ x y : Character α, Alike x y →
      Alike
        (if p.forced then x.force w.lexicon p.route? else x.install w.lexicon p.route?).value
        (if p.forced then y.force w.lexicon p.route? else y.install w.lexicon p.route?).value := by
    intro x y h
    split
    · exact h.force w.lexicon p.route?
    · exact h.install w.lexicon p.route?
  obtain ⟨f, x, width, height, span⟩ := s
  obtain ⟨g, y, width', height', span'⟩ := t
  refine hroute _ _ ⟨rfl, ?_, ?_, rfl, rfl, rfl⟩
  · cases x <;> cases y <;> rfl
  · cases x <;> cases y <;> rfl

/-- How many of these ticks process a command. -/
def commands (w : World α) : Nat → Character α → Nat
  | 0, _ => 0
  | n + 1, c => (if c.ready then 1 else 0) + commands w n (c.tick w).value

theorem commands_succ (w : World α) (n : Nat) (c : Character α) :
    c.commands w (n + 1) = c.commands w n + if (c.ticks w n).value.ready then 1 else 0 := by
  induction n generalizing c with
  | zero =>
    simp only [commands, Nat.add_zero, Nat.zero_add]
    rfl
  | succ n ih =>
    have hn := ih (c.tick w).value
    change _ + (c.tick w).value.commands w (n + 1) =
      _ + (c.tick w).value.commands w n + _
    rw [hn, Nat.add_assoc]
    rfl

/-- The last of `n` ticks processes the `k`-th command; before the first one no tick has gone by. -/
structure Completes (w : World α) (c : Character α) (k n : Nat) : Prop where
  count : c.commands w n = k
  first : ∀ m < n, c.commands w m < k

variable {k n m : Nat}

theorem Completes.unique (h : Completes w c k n) (g : Completes w c k m) : n = m := by
  have hn : ¬ n < m := fun hl => absurd h.count (Nat.ne_of_lt (g.first n hl))
  have hm : ¬ m < n := fun hl => absurd g.count (Nat.ne_of_lt (h.first m hl))
  omega

theorem completes_none : Completes w c 0 n ↔ n = 0 := by
  constructor
  · intro h
    rcases Nat.eq_zero_or_pos n with hn | hn
    · exact hn
    · exact absurd (h.first 0 hn) (Nat.not_lt_zero _)
  · rintro rfl
    exact ⟨rfl, fun m hm => absurd hm (Nat.not_lt_zero m)⟩

theorem completes_ready (hc : c.ready = true) :
    Completes w c (k + 1) (n + 1) ↔ Completes w (c.tick w).value k n := by
  have hs : ∀ m, c.commands w (m + 1) = (c.tick w).value.commands w m + 1 := by
    intro m
    simp only [commands, hc, if_true]
    omega
  constructor
  · intro h
    refine ⟨Nat.succ.inj ((hs n).symm.trans h.count), fun m hm => ?_⟩
    have hfirst := h.first (m + 1) (by omega)
    rw [hs] at hfirst
    omega
  · intro h
    refine ⟨(hs n).trans (congrArg Nat.succ h.count), fun m hm => ?_⟩
    cases m with
    | zero => exact Nat.succ_pos k
    | succ m =>
      rw [hs]
      exact Nat.succ_lt_succ (h.first m (by omega))

theorem completes_unready (hc : c.ready = false) :
    Completes w c (k + 1) (n + 1) ↔ Completes w (c.tick w).value (k + 1) n := by
  have hs : ∀ m, c.commands w (m + 1) = (c.tick w).value.commands w m := by
    intro m
    simp only [commands, hc, Bool.false_eq_true, if_false]
    omega
  constructor
  · intro h
    refine ⟨(hs n).symm.trans h.count, fun m hm => ?_⟩
    rw [← hs]
    exact h.first (m + 1) (by omega)
  · intro h
    refine ⟨(hs n).trans h.count, fun m hm => ?_⟩
    cases m with
    | zero => exact Nat.succ_pos k
    | succ m =>
      rw [hs]
      exact h.first m (by omega)

theorem exists_completes (h : k ≤ c.commands w n) : ∃ i ≤ n, Completes w c k i := by
  induction n generalizing c k with
  | zero =>
    have hk : k = 0 := Nat.le_zero.mp h
    subst hk
    exact ⟨0, Nat.le_refl 0, completes_none.mpr rfl⟩
  | succ n ih =>
    cases k with
    | zero => exact ⟨0, Nat.zero_le _, completes_none.mpr rfl⟩
    | succ k =>
      cases hc : c.ready with
      | true =>
        simp only [commands, hc, if_true] at h
        obtain ⟨i, hi, hk⟩ := ih (c := (c.tick w).value) (k := k) (by omega)
        exact ⟨i + 1, by omega, (completes_ready hc).mpr hk⟩
      | false =>
        simp only [commands, hc, Bool.false_eq_true, if_false] at h
        obtain ⟨i, hi, hk⟩ := ih (c := (c.tick w).value) (k := k + 1) (by omega)
        exact ⟨i + 1, by omega, (completes_unready hc).mpr hk⟩

theorem Completes.next (h : Completes w c (k + 1) n) :
    ∃ j i, n = j + (i + 1) ∧ Leads w c j [] fun e =>
      e.ready = true ∧ Alike c.unwaited e.unwaited ∧ Completes w (e.tick w).value k i := by
  induction n generalizing c with
  | zero => cases h.count
  | succ n ih =>
    cases hc : c.ready with
    | true => exact ⟨0, n, by omega, .stay ⟨hc, .refl _, (completes_ready hc).mp h⟩⟩
    | false =>
      obtain ⟨hfirst, hlines⟩ := tick_unready w hc
      obtain ⟨j, i, rfl, hlast⟩ := ih ((completes_unready hc).mp h)
      have htick : Leads w c 1 [] fun e => e = (c.tick w).value := .tick rfl hlines
      refine ⟨1 + j, i, by omega, htick.trans fun e he => ?_⟩
      subst he
      exact hlast.mono fun e he => ⟨he.1, hfirst.trans he.2.1, he.2.2⟩

theorem Completes.alike (hw : SameScene w v) (h : Alike c d) (hc : Completes w c k n)
    (hd : Completes v d k m) :
    Alike (c.ticks w n).value (d.ticks v m).value ∧
      Event.scripts (d.ticks v m).events = Event.scripts (c.ticks w n).events := by
  -- Induction on the number of commands. Each run first waits as long as it has to; then both
  -- process one command, and the rest of the runs starts from characters that are alike.
  induction k generalizing c d n m with
  | zero =>
    obtain rfl := completes_none.mp hc
    obtain rfl := completes_none.mp hd
    exact ⟨h, rfl⟩
  | succ k ih =>
    obtain ⟨j, i, rfl, hj⟩ := hc.next
    obtain ⟨j', i', rfl, hj'⟩ := hd.next
    obtain ⟨hready, hwaited, hrest⟩ := hj.value
    obtain ⟨hready', hwaited', hrest'⟩ := hj'.value
    have hbefore : Alike (c.ticks w j).value (d.ticks v j').value :=
      .of_unwaited ((hwaited.symm.trans h.unwaited).trans hwaited') hready hready'
    obtain ⟨hafter, hlines⟩ := hbefore.tick hw hready hready'
    obtain ⟨hvalue, hmore⟩ := ih hafter hrest hrest'
    rw [value_ticks_add w j, value_ticks_add v j', events_ticks_add w j, events_ticks_add v j',
      Event.scripts_append, Event.scripts_append, hj.scripts, hj'.scripts]
    refine ⟨hvalue, ?_⟩
    change Event.scripts (((d.ticks v j').value.tick v).events ++ _) =
      Event.scripts (((c.ticks w j).value.tick w).events ++ _)
    rw [Event.scripts_append, Event.scripts_append, hlines, hmore]

end Character

namespace Tempo

variable [Scalar α]

theorem scripts_enter (t : Tempo α) (w : World α) (p : Part α) :
    Event.scripts (t.enter w p).events = [] := by
  unfold enter Stage.enter
  dsimp only
  split
  · exact Character.scripts_force _ _ _
  · exact Character.scripts_install _ _ _

/-- The moments right after the `k`-th command at two tempos. -/
structure InStep (s t : Tempo α) (w : World α) (p : Part α) (k i j : Nat) : Prop where
  first : Character.Completes (s.world w) (s.enter w p).value k i
  second : Character.Completes (t.world w) (t.enter w p).value k j
  alike : Character.Alike (s.play w p i).value (t.play w p j).value
  scripts : Event.scripts (t.play w p j).events = Event.scripts (s.play w p i).events

/-- If at two tempos at least `k` commands are processed, both runs come to the moment right after
the `k`-th one, and there they are in step. -/
theorem effects_only_delay (s t : Tempo α) (w : World α) (p : Part α) {k n m : Nat}
    (hn : k ≤ (s.enter w p).value.commands (s.world w) n)
    (hm : k ≤ (t.enter w p).value.commands (t.world w) m) :
    ∃ i ≤ n, ∃ j ≤ m, InStep s t w p k i j := by
  obtain ⟨i, hi, hfirst⟩ := Character.exists_completes hn
  obtain ⟨j, hj, hsecond⟩ := Character.exists_completes hm
  obtain ⟨halike, hscripts⟩ :=
    Character.Completes.alike (s.sameScene t w) (Character.alike_enter s t w p) hfirst hsecond
  refine ⟨i, hi, j, hj, hfirst, hsecond, halike, ?_⟩
  unfold play
  rw [Logged.events_bind, Logged.events_bind, Event.scripts_append, Event.scripts_append,
    scripts_enter, scripts_enter, hscripts]

def hall : World Float where
  grid := ⟨3, 1, .ofList [true, true, true]⟩
  roster := {}
  lexicon := .standard
  settings := Settings.standard

/-- Down the hall and out of sight, then a pause and a line. -/
def ghost : Part Float where
  label := "ghost"
  start := ⟨0, 0⟩
  route? := some
    { commands := [.script "MOVE_R 2", .script "FADE_OUT 3 true", .wait 2, .script "gone"] }

def brisk : Tempo Float := ⟨1, none, 48, 48, 255⟩

def solemn : Tempo Float := ⟨4, some 200, 32, 16, 100⟩

theorem effects_only_delay_ghost :
    5 ≤ (brisk.enter hall ghost).value.commands (brisk.world hall) 8 ∧
      5 ≤ (solemn.enter hall ghost).value.commands (solemn.world hall) 14 ∧
        InStep brisk solemn hall ghost 5 8 14 := by
  have hbrisk : Character.Completes (brisk.world hall) (brisk.enter hall ghost).value 5 8 :=
    ⟨by decide +kernel, by decide +kernel⟩
  have hsolemn : Character.Completes (solemn.world hall) (solemn.enter hall ghost).value 5 14 :=
    ⟨by decide +kernel, by decide +kernel⟩
  have hn := Nat.le_of_eq hbrisk.count.symm
  have hm := Nat.le_of_eq hsolemn.count.symm
  obtain ⟨i, -, j, -, h⟩ := effects_only_delay brisk solemn hall ghost hn hm
  obtain rfl := h.first.unique hbrisk
  obtain rfl := h.second.unique hsolemn
  exact ⟨hn, hm, h⟩

end Tempo

end TileRoute
