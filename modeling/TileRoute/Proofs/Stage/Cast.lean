import TileRoute.Proofs.Character.Turn
import TileRoute.Proofs.Scenario.Accepted
import TileRoute.Stage.Run

/-!
# The members of a cast do not interfere

The turns of a tick hand one log from character to character. Still each character goes through the
states that it would go through alone, and the log is what the characters would hand on alone, tick
by tick and within a tick in the order of the cast. Since labels differ, the lines under a label are
those of one character.
-/

namespace TileRoute

variable {α : Type} [Scalar α]

/-- The texts of the lines that belong to a label. -/
def textsOf (label : String) (lines : List (String × String)) : List String :=
  lines.filterMap fun (owner, text) => if owner = label then some text else none

theorem textsOf_append (label : String) (xs ys : List (String × String)) :
    textsOf label (xs ++ ys) = textsOf label xs ++ textsOf label ys := List.filterMap_append

theorem textsOf_of_owned {label : String} {lines : List (String × String)}
    (h : ∀ line ∈ lines, line.1 = label) : textsOf label lines = lines.map Prod.snd := by
  induction lines with
  | nil => rfl
  | cons line rest ih =>
    have hr := ih fun x hx => h x (List.mem_cons_of_mem _ hx)
    have hl := h line (List.mem_cons_self ..)
    simp only [textsOf, List.filterMap_cons, hl, if_true, List.map_cons] at hr ⊢
    rw [hr]

theorem textsOf_of_not_owned {label : String} {lines : List (String × String)}
    (h : ∀ line ∈ lines, line.1 ≠ label) : textsOf label lines = [] := by
  refine List.filterMap_eq_nil_iff.mpr fun line hl => ?_
  simp only [h line hl, if_false]

/-- Of the lines of several owners with different labels, those under the label of one are its own. -/
theorem textsOf_flatMap {β : Type} {label : β → String} {lines : β → List (String × String)}
    {xs : List β} (ho : ∀ x ∈ xs, ∀ line ∈ lines x, line.1 = label x)
    (hn : (xs.map label).Nodup) {x : β} (hx : x ∈ xs) :
    textsOf (label x) (xs.flatMap lines) = (lines x).map Prod.snd := by
  induction xs with
  | nil => cases hx
  | cons y rest ih =>
    rw [List.map_cons, List.nodup_cons] at hn
    have hor : ∀ z ∈ rest, ∀ line ∈ lines z, line.1 = label z :=
      fun z hz => ho z (List.mem_cons_of_mem _ hz)
    rw [List.flatMap_cons, textsOf_append]
    rcases List.mem_cons.mp hx with rfl | hx
    · rw [textsOf_of_owned (ho x (List.mem_cons_self ..))]
      have hz : textsOf (label x) (rest.flatMap lines) = [] := by
        refine textsOf_of_not_owned fun line hl he => ?_
        obtain ⟨z, hz, hlz⟩ := List.mem_flatMap.mp hl
        exact hn.1 (List.mem_map.mpr ⟨z, hz, (hor z hz line hlz).symm.trans he⟩)
      rw [hz, List.append_nil]
    · have hy : textsOf (label x) (lines y) = [] := by
        refine textsOf_of_not_owned fun line hl he => ?_
        have hl := ho y (List.mem_cons_self ..) line hl
        exact hn.1 (List.mem_map.mpr ⟨x, hx, he.symm.trans hl⟩)
      rw [hy, List.nil_append, ih hor hn.2 hx]

namespace Stage

/-- The script lines handed on in the tick that comes next. -/
def nextLines (s : Stage α) : List (String × String) := Event.scripts s.tick.events

theorem scripts_turns (w : World α) (cs : List (Character α)) (lines : Array (String × String)) :
    Event.scripts (turns w cs lines).events =
      cs.flatMap fun c => Event.scripts (c.tick w).events := by
  induction cs generalizing lines with
  | nil => rfl
  | cons c rest ih =>
    simp only [turns, Event.scripts_append, List.flatMap_cons]
    rw [ih]

/-- The log that the last turn leaves holds the lines of all turns behind those of before. -/
theorem lines_turns (w : World α) (cs : List (Character α)) (lines : Array (String × String)) :
    (turns w cs lines).value.2.toList =
      lines.toList ++ cs.flatMap fun c => Event.scripts (c.tick w).events := by
  induction cs generalizing lines with
  | nil => exact (List.append_nil _).symm
  | cons c rest ih =>
    simp only [turns, List.flatMap_cons]
    rw [ih, Array.toList_appendList, List.append_assoc]

theorem nextLines_eq (s : Stage α) :
    s.nextLines = s.characters.flatMap fun c => Event.scripts (c.tick s.world).events := by
  simp only [nextLines, tick, Event.scripts_append]
  rw [scripts_turns]
  exact List.append_nil _

theorem scripts_tick (s : Stage α) :
    s.tick.value.scripts.toList = s.scripts.toList ++ s.nextLines := by
  rw [nextLines_eq]
  exact lines_turns s.world s.characters s.scripts

theorem world_ticks (n : Nat) (s : Stage α) : (ticks n s).world = s.world := by
  induction n generalizing s with
  | zero => rfl
  | succ n ih => exact ih s.tick.value

theorem characters_ticks (n : Nat) (s : Stage α) :
    (ticks n s).characters = s.characters.map fun c => (c.ticks s.world n).value := by
  induction n generalizing s with
  | zero => exact (List.map_id' s.characters).symm
  | succ n ih =>
    rw [ticks, ih, characters_tick, world_tick, List.map_map]
    rfl

theorem ticks_succ (n : Nat) (s : Stage α) : ticks (n + 1) s = (ticks n s).tick.value := by
  induction n generalizing s with
  | zero => rfl
  | succ n ih => exact ih s.tick.value

theorem nextLines_ticks (n : Nat) (s : Stage α) :
    (ticks n s).nextLines =
      s.characters.flatMap fun c =>
        Event.scripts (((c.ticks s.world n).value).tick s.world).events := by
  rw [nextLines_eq, characters_ticks, world_ticks, List.flatMap_map]

/-- The lines under the label of a character, when no other character has that label. -/
theorem scriptsOf_ticks {s : Stage α} (hs : s.scripts = #[])
    (hn : (s.characters.map Character.label).Nodup) {c : Character α} (hc : c ∈ s.characters)
    (n : Nat) :
    (ticks n s).scriptsOf c.label =
      (List.range n).flatMap fun k =>
        (Event.scripts (((c.ticks s.world k).value).tick s.world).events).map Prod.snd := by
  have hstep : ∀ k, textsOf c.label (ticks k s).nextLines =
      (Event.scripts (((c.ticks s.world k).value).tick s.world).events).map Prod.snd := by
    intro k
    rw [nextLines_ticks]
    refine textsOf_flatMap (fun d _ line hl => ?_) hn hc
    rw [Character.mem_scripts_tick hl, Character.label_ticks]
  induction n with
  | zero =>
    change textsOf c.label s.scripts.toList = []
    rw [hs]
    rfl
  | succ n ih =>
    change textsOf c.label (ticks (n + 1) s).scripts.toList = _
    change textsOf c.label (ticks n s).scripts.toList = _ at ih
    rw [ticks_succ, scripts_tick, textsOf_append, ih, hstep, List.range_succ, List.flatMap_append,
      List.flatMap_singleton]

theorem label_enter (w : World α) (p : Part α) : (enter w p).value.label = p.label := by
  simp only [enter]
  split
  · cases p.route? <;> rfl
  · rw [Character.value_install]
    rfl

theorem characters_onGrid (s : Scenario α) (g : Grid) :
    (onGrid s g).value.characters = s.parts.map fun p => (enter (worldOf s g) p).value := by
  simp only [onGrid, List.map_map]
  rfl

theorem labels_onGrid (s : Scenario α) (g : Grid) :
    (onGrid s g).value.characters.map Character.label = s.parts.map Part.label := by
  rw [characters_onGrid, List.map_map]
  exact List.map_congr_left fun p _ => label_enter _ p

theorem ofScenario_of_draw {s : Scenario α} {g : Grid} (h : s.map.draw = .ok g) :
    ofScenario s = .ok (onGrid s g) := by
  simp only [ofScenario, h]
  rfl

/-- The stage of a scenario with one part holds that character only. -/
theorem characters_ticks_solo (s : Scenario α) (g : Grid) (p : Part α) (n : Nat) :
    (ticks n (onGrid (s.solo p) g).value).characters =
      [((enter (worldOf s g) p).value.ticks (worldOf s g) n).value] := by
  rw [characters_ticks, characters_onGrid]
  rfl

theorem scripts_solo (s : Scenario α) (g : Grid) (p : Part α) (n : Nat) :
    (ticks n (onGrid (s.solo p) g).value).scripts.toList.map Prod.snd =
      (List.range n).flatMap fun k =>
        (Event.scripts ((((enter (worldOf s g) p).value.ticks (worldOf s g) k).value).tick
          (worldOf s g)).events).map Prod.snd := by
  induction n with
  | zero => rfl
  | succ n ih =>
    rw [ticks_succ, scripts_tick, List.map_append, ih, nextLines_ticks, List.range_succ,
      List.flatMap_append, List.flatMap_singleton, characters_onGrid]
    simp only [Scenario.solo, List.map_cons, List.map_nil, List.flatMap_cons, List.flatMap_nil,
      List.append_nil]
    rfl

/-- A scenario on its map is played as if each part were played alone: the parts go through the same
states, and the log holds, tick by tick and in the order of the cast, what they hand on alone. -/
structure PlayedApart (s : Scenario α) (g : Grid) : Prop where
  stage : ofScenario s = .ok (onGrid s g)
  alone : ∀ p ∈ s.parts,
    (s.solo p).check = .ok () ∧ ofScenario (s.solo p) = .ok (onGrid (s.solo p) g)
  states : ∀ (i : Nat) (p : Part α), s.parts[i]? = some p → ∀ n, ∃ c,
    (ticks n (onGrid s g).value).characters[i]? = some c ∧
      (ticks n (onGrid (s.solo p) g).value).characters = [c]
  silent : (onGrid s g).value.scripts = #[]
  lines : ∀ n, (ticks (n + 1) (onGrid s g).value).scripts.toList =
    (ticks n (onGrid s g).value).scripts.toList ++
      s.parts.flatMap fun p => (ticks n (onGrid (s.solo p) g).value).nextLines
  texts : ∀ p ∈ s.parts, ∀ n,
    (ticks n (onGrid s g).value).scriptsOf p.label =
      (ticks n (onGrid (s.solo p) g).value).scripts.toList.map Prod.snd

theorem states_onGrid (s : Scenario α) (g : Grid) {i : Nat} {p : Part α}
    (hp : s.parts[i]? = some p) (n : Nat) :
    (ticks n (onGrid s g).value).characters[i]? =
      some ((enter (worldOf s g) p).value.ticks (worldOf s g) n).value := by
  rw [characters_ticks, characters_onGrid, List.map_map, List.getElem?_map, hp]
  rfl

theorem lines_onGrid (s : Scenario α) (g : Grid) (n : Nat) :
    (ticks (n + 1) (onGrid s g).value).scripts.toList =
      (ticks n (onGrid s g).value).scripts.toList ++
        s.parts.flatMap fun p => (ticks n (onGrid (s.solo p) g).value).nextLines := by
  have hl : ∀ p, (ticks n (onGrid (s.solo p) g).value).nextLines =
      Event.scripts ((((enter (worldOf s g) p).value.ticks (worldOf s g) n).value).tick
        (worldOf s g)).events := by
    intro p
    rw [nextLines_ticks, characters_onGrid]
    exact List.append_nil _
  rw [ticks_succ, scripts_tick, nextLines_ticks, characters_onGrid, List.flatMap_map]
  simp only [hl]
  rfl

theorem texts_onGrid {s : Scenario α} (g : Grid) (hn : (s.parts.map Part.label).Nodup)
    {p : Part α} (hp : p ∈ s.parts) (n : Nat) :
    (ticks n (onGrid s g).value).scriptsOf p.label =
      (ticks n (onGrid (s.solo p) g).value).scripts.toList.map Prod.snd := by
  have hc : (enter (worldOf s g) p).value ∈ (onGrid s g).value.characters := by
    rw [characters_onGrid]
    exact List.mem_map.mpr ⟨p, hp, rfl⟩
  have hl := scriptsOf_ticks rfl (by rw [labels_onGrid]; exact hn) hc n
  rw [label_enter] at hl
  rw [hl, scripts_solo]
  rfl

/-- The members of the cast of an accepted scenario do not interfere. -/
theorem cast_independent {s : Scenario α} (h : s.check = .ok ()) : ∃ g, PlayedApart s g := by
  obtain ⟨g, hd, hf⟩ := Scenario.check_eq_ok_iff.mp h
  obtain ⟨-, -, hn⟩ := Scenario.flaw?_eq_none_iff.mp hf
  refine ⟨g, ofScenario_of_draw hd, ?_, ?_, rfl, lines_onGrid s g, ?_⟩
  · intro p hp
    exact ⟨Scenario.check_solo h hp, ofScenario_of_draw hd⟩
  · intro i p hp n
    exact ⟨_, states_onGrid s g hp n, characters_ticks_solo s g p n⟩
  · intro p hp n
    exact texts_onGrid g hn hp n

/-- A walker whose second call cannot run, and a speaker that starts over. -/
def duet : Scenario Float where
  map := { width := 4, height := 2, blocked := [⟨3, 0⟩] }
  settings := { Settings.standard with seed? := some 7 }
  parts :=
    [ { label := "walker", start := ⟨0, 0⟩, framesPerStep := 2
        route? := some { commands := [.script "MOVE_R 2", .script "FADE_IN", .script "here"] } },
      { label := "speaker", start := ⟨1, 1⟩
        route? := some { commands := [.script "there", .turn .up], repeats := true } } ]

theorem cast_independent_duet : duet.check = .ok () ∧ ∃ g, PlayedApart duet g := by
  have h : duet.check = .ok () := by
    refine Scenario.check_eq_ok_iff.mpr ⟨_, rfl, ?_⟩
    decide +kernel
  exact ⟨h, cast_independent h⟩

end Stage

end TileRoute
