import Mathlib.Data.List.Forall2
import TileRoute.Proofs.Scenario.Rules
import TileRoute.Proofs.Stage.Cast

/-!
# What comes of a scenario

A scenario that has been read from a text is accepted exactly if it is in order, and otherwise the
first rule that it breaks is reported with the place where that rule looks. An accepted scenario has
a stage on which all its parts have come in, in their order.
-/

namespace TileRoute.Scenario

variable {α : Type} [Scalar α]

/-- All that a scenario needs. -/
structure InOrder (s : Scenario α) : Prop where
  sides : 0 < s.map.width ∧ 0 < s.map.height
  inside : ∀ t ∈ s.map.blocked, s.map.Has t
  sized : Scalar.Lt Scalar.zero s.settings.tileWidth ∧
    Scalar.Lt Scalar.zero s.settings.tileHeight
  named : ∀ p ∈ s.parts, ∃ c ∈ p.label.toList, Text.isBlank c = false
  unlike : s.parts.Pairwise fun p q => p.label ≠ q.label
  placed : ∀ p ∈ s.parts, s.map.Has p.start ∧ p.start ∉ s.map.blocked

omit [Scalar α] in
theorem forall_mem_rules_iff {s : Scenario α} {P : Rule α → Prop} :
    (∀ r ∈ s.rules, P r) ↔
      P .sides ∧ (∀ t ∈ s.map.blocked, P (.inside t)) ∧ P .sized ∧
        ∀ i p, s.parts[i]? = some p → P (.named i p) ∧ P (.unlike i p) ∧ P (.placed i p) := by
  have hparts : (∀ r ∈ s.parts.zipIdx.flatMap Rule.ofPart, P r) ↔
      ∀ i p, s.parts[i]? = some p → P (.named i p) ∧ P (.unlike i p) ∧ P (.placed i p) := by
    have hone : ∀ i p, (∀ r ∈ Rule.ofPart (p, i), P r) ↔
        P (.named i p) ∧ P (.unlike i p) ∧ P (.placed i p) := by
      intro i p
      rw [Rule.ofPart, List.forall_mem_cons, List.forall_mem_cons, List.forall_mem_singleton]
    simp only [List.forall_mem_flatMap, Prod.forall, List.mem_zipIdx_iff_getElem?]
    exact ⟨fun h i p hp => (hone i p).mp (h p i hp), fun h p i hp => (hone i p).mpr (h i p hp)⟩
  rw [rules, List.forall_mem_append, List.forall_mem_cons, List.forall_mem_cons, hparts,
    List.forall_mem_map, and_assoc]

omit [Scalar α] in
theorem pairwise_label_iff {ps : List (Part α)} :
    (ps.Pairwise fun p q => p.label ≠ q.label) ↔
      ∀ i p, ps[i]? = some p → p.label ∉ (ps.take i).map Part.label := by
  rw [List.pairwise_iff_getElem]
  constructor
  · intro h i p hp hm
    obtain ⟨q, hq, hlabel⟩ := List.mem_map.mp hm
    obtain ⟨j, hj, rfl⟩ := List.mem_iff_getElem.mp hq
    obtain ⟨hi, rfl⟩ := List.getElem?_eq_some_iff.mp hp
    rw [List.length_take] at hj
    rw [List.getElem_take] at hlabel
    exact h j i (by omega) hi (by omega) hlabel
  · intro h i j hi hj hij hlabel
    refine h j _ (List.getElem?_eq_getElem hj) (List.mem_map.mpr ⟨ps[i], ?_, hlabel⟩)
    exact List.mem_take_iff_getElem.mpr ⟨i, by omega, rfl⟩

theorem inOrder_iff {s : Scenario α} : s.InOrder ↔ ∀ r ∈ s.rules, r.Kept s := by
  rw [forall_mem_rules_iff]
  constructor
  · intro h
    refine ⟨h.sides, h.inside, h.sized, fun i p hp => ?_⟩
    have hm : p ∈ s.parts := List.mem_of_getElem? hp
    exact ⟨h.named p hm, pairwise_label_iff.mp h.unlike i p hp, h.placed p hm⟩
  · rintro ⟨hsides, hinside, hsized, hparts⟩
    refine ⟨hsides, hinside, hsized, fun p hp => ?_, ?_, fun p hp => ?_⟩
    · obtain ⟨i, hi⟩ := List.mem_iff_getElem?.mp hp
      exact (hparts i p hi).1
    · exact pairwise_label_iff.mpr fun i p hp => (hparts i p hp).2.1
    · obtain ⟨i, hi⟩ := List.mem_iff_getElem?.mp hp
      exact (hparts i p hi).2.2

theorem check_eq_ok_iff_inOrder {s : Scenario Float} (h : s.Legible) :
    s.check = .ok () ↔ s.InOrder := by
  rw [check_eq h, inOrder_iff]
  cases hr : s.rules.find? s.breaks with
  | none => exact ⟨fun _ r hm => not_breaks_iff.mp (List.find?_eq_none.mp hr r hm), fun _ => rfl⟩
  | some r =>
    refine ⟨nofun, fun hall => ?_⟩
    exact absurd (hall r (List.mem_of_find?_eq_some hr)) (breaks_iff.mp (List.find?_some hr))

def fieldOfPart (i : Nat) (field : String) : String := s!"characters[{i}].{field}"

/-- Where a rule looks, as far as that is told. -/
def Rule.place? : Rule α → Option String
  | .sides => none
  | .inside _ => none
  | .sized => some "motion"
  | .named i _ => some (fieldOfPart i "label")
  | .unlike i _ => some (fieldOfPart i "label")
  | .placed i _ => some (fieldOfPart i "start")

theorem pathText_part (i : Nat) (field : String) :
    Step.pathText [.key "characters", .index i, .key field] = fieldOfPart i field := by
  have hindex : Step.append "characters" (.index i) = "characters[" ++ toString i ++ "]" := rfl
  have hopen : ("characters[" ++ toString i ++ "]").isEmpty = false := by simp
  have hdot : "characters[" ++ toString i ++ "]" ++ "." = "characters[" ++ toString i ++ "]." :=
    String.append_assoc.trans rfl
  change Step.append (Step.append "characters" (.index i)) (.key field) = _
  rw [hindex, Step.append, hopen]
  exact congrArg (· ++ field) hdot

omit [Scalar α] in
theorem pathText_of_error {s : Scenario α} {r : Rule α} {flaw : Flaw}
    (h : r.error s = .flawed flaw) : r.place? = some (Step.pathText flaw.path) := by
  cases r with
  | sides => cases h
  | inside t => cases h
  | sized =>
    cases h
    rfl
  | named i p =>
    cases h
    exact congrArg some (pathText_part i "label").symm
  | unlike i p =>
    cases h
    exact congrArg some (pathText_part i "label").symm
  | placed i p =>
    cases h
    exact congrArg some (pathText_part i "start").symm

/-- The character as which a part comes onto the stage. -/
structure Entered (p : Part α) (c : Character α) : Prop where
  label : c.label = p.label
  position : c.body.position = p.start
  cursor : c.playback.cursor = 0
  route : c.playback.route? = p.route?.map (Route.compile .standard)
  forcing : c.playback.forcing = true ↔ p.forced = true ∧ p.route?.isSome = true

theorem entered_of_body {p : Part α} {b : Body α} (hb : b.position = p.start)
    (settings : Settings α) :
    Entered p
      (if p.forced then (Character.placed p.label b settings).force .standard p.route?
        else (Character.placed p.label b settings).install .standard p.route?).value := by
  cases hforced : p.forced with
  | false =>
    rw [if_neg Bool.false_ne_true, Character.value_install]
    refine ⟨rfl, hb, rfl, rfl, ?_⟩
    rw [hforced]
    exact ⟨nofun, nofun⟩
  | true =>
    rw [if_pos rfl]
    cases hroute : p.route? with
    | none =>
      rw [Character.value_force_none]
      refine ⟨rfl, hb, rfl, ?_, ?_⟩
      · rw [hroute]
        rfl
      · rw [hroute]
        exact ⟨nofun, nofun⟩
    | some r =>
      rw [Character.value_force_some]
      refine ⟨rfl, hb, rfl, ?_, ?_⟩
      · rw [hroute]
        rfl
      · rw [hforced, hroute]
        exact ⟨fun _ => ⟨rfl, rfl⟩, fun _ => rfl⟩

theorem entered (s : Scenario α) (g : Grid) (p : Part α) :
    Entered p (Stage.enter (Stage.worldOf s g) p).value := by
  unfold Stage.enter
  cases p.opacity? with
  | none => exact entered_of_body rfl s.settings
  | some x => exact entered_of_body rfl s.settings

theorem forall₂_entered (s : Scenario α) (g : Grid) :
    List.Forall₂ Entered s.parts (Stage.onGrid s g).value.characters := by
  rw [Stage.characters_onGrid, List.forall₂_map_right_iff]
  exact List.forall₂_same.mpr fun p _ => entered s g p

/-- Whether a scenario is accepted, what is reported if it is not, where the report points, and who
stands on the stage if it is. -/
structure Judged (s : Scenario Float) : Prop where
  accepted_iff : s.check = .ok () ↔ s.InOrder
  refused_iff : ∀ e, s.check = .error e ↔
    ∃ before r after, s.rules = before ++ r :: after ∧ (∀ q ∈ before, q.Kept s) ∧ ¬ r.Kept s ∧
      e = r.error s
  located : ∀ (r : Rule Float) (flaw : Flaw), r.error s = .flawed flaw →
    r.place? = some (Step.pathText flaw.path)
  staged : s.check = .ok () → ∃ stage events, Stage.ofScenario s = .ok ⟨stage, events⟩ ∧
    List.Forall₂ Entered s.parts stage.characters

/-- A scenario that has been read from a text is accepted exactly if it is in order, and an accepted
one can be put on a stage. -/
theorem decoded_judged {text : String} {s : Scenario Float} (h : ofText? text = .ok s) :
    s.Judged where
  accepted_iff := check_eq_ok_iff_inOrder (legible_ofText? h)
  refused_iff _ := check_eq_error_iff (legible_ofText? h)
  located _ _ := pathText_of_error
  staged hok := by
    obtain ⟨g, hdraw, -⟩ := check_eq_ok_iff.mp hok
    exact ⟨_, _, Stage.ofScenario_of_draw hdraw, forall₂_entered s g⟩

/-- Two guards in a hall, the first one on a forced route. Structures are given by the lists of
their fields. -/
def guarded : String :=
  "[[3,2,[[1,0]]],[5e-1],[],[[\"first\",[0,0],0,true,null,null,[[[\"move\",\"right\"]]]]," ++
    "[\"second\",[2,0],0,false,null,null,null]]]"

/-- The second guard has the label of the first one and stands on a blocked tile, and a third one
has a blank label. -/
def crowded : String :=
  "[[3,2,[[1,0]]],[5e-1],[],[[\"first\",[0,0],0,true,null,null,[[[\"move\",\"right\"]]]]," ++
    "[\"first\",[1,0],0,false,null,null,null],[\" \",[2,0],0,false,null,null,null]]]"

theorem ofText_append (cs ds : List Char) :
    Datum.ofText (String.ofList cs ++ String.ofList ds) =
      (Datum.read (2 * (cs ++ ds).length + 2) (cs ++ ds)).1 := by
  rw [← String.ofList_append, Datum.ofText, String.toList_ofList, String.length_ofList]

/-- What is reported about a scenario text that can be read, if anything is. -/
def report? (text : String) : Option (Option ScenarioError) :=
  match ofText? text with
  | .error _ => none
  | .ok s =>
    match s.check with
    | .ok _ => some none
    | .error e => some (some e)

theorem check_of_report? {text : String} {e? : Option ScenarioError}
    (h : report? text = some e?) :
    ∃ s, ofText? text = .ok s ∧ s.check = e?.elim (.ok ()) .error := by
  unfold report? at h
  split at h
  · cases h
  · rename_i s hs
    refine ⟨s, hs, ?_⟩
    split at h
    · rename_i hc
      cases h
      exact hc
    · rename_i hc
      cases h
      exact hc

set_option maxRecDepth 4000 in
theorem decoded_judged_hall :
    (∃ s, ofText? guarded = .ok s ∧ s.Judged ∧ s.check = .ok ()) ∧
      ∃ s, ofText? crowded = .ok s ∧ s.Judged ∧
        s.check = .error (.flawed (.duplicateLabel 1 "first")) := by
  have hguarded : report? guarded = some none := by
    have hread : Datum.ofText guarded = _ := ofText_append _ _
    rw [report?, ofText?, hread]
    decide +kernel
  have hcrowded : report? crowded = some (some (.flawed (.duplicateLabel 1 "first"))) := by
    have hread : Datum.ofText crowded = _ := ofText_append _ _
    rw [report?, ofText?, hread]
    decide +kernel
  obtain ⟨s, hs, haccepted⟩ := check_of_report? hguarded
  obtain ⟨t, ht, hrefused⟩ := check_of_report? hcrowded
  exact ⟨⟨s, hs, decoded_judged hs, haccepted⟩, t, ht, decoded_judged ht, hrefused⟩

end TileRoute.Scenario
