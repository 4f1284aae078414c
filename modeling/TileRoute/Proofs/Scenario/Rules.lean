import TileRoute.Proofs.Datum.Yields
import TileRoute.Proofs.Grid.Chart
import TileRoute.Proofs.Scenario.Accepted

/-!
# The rules of a scenario

A scenario is held to its `rules` one after the other: the map needs sides, each blocked tile has to
be on it, the tiles need a size, and each part needs a label that is not blank, that no part before
it has, and a start that is on the map and not blocked. The error that is reported belongs to the
first rule that is broken.
-/

namespace TileRoute

variable {α : Type}

/-- The tile is on the map. -/
def MapPlan.Has (m : MapPlan) (t : Tile) : Prop :=
  0 ≤ t.x ∧ t.x < m.width ∧ 0 ≤ t.y ∧ t.y < m.height

instance (m : MapPlan) (t : Tile) : Decidable (m.Has t) :=
  inferInstanceAs (Decidable (0 ≤ t.x ∧ t.x < m.width ∧ 0 ≤ t.y ∧ t.y < m.height))

namespace Scenario

/-- Something that is asked of a scenario, of a tile it blocks or of a part with its index. -/
inductive Rule (α : Type) where
  | sides
  | inside (t : Tile)
  | sized
  | named (i : Nat) (p : Part α)
  | unlike (i : Nat) (p : Part α)
  | placed (i : Nat) (p : Part α)

/-- What is asked of a part, in the order in which it is asked. -/
def Rule.ofPart : Part α × Nat → List (Rule α)
  | (p, i) => [.named i p, .unlike i p, .placed i p]

def rules (s : Scenario α) : List (Rule α) :=
  .sides :: s.map.blocked.map .inside ++
    .sized :: s.parts.zipIdx.flatMap Rule.ofPart

variable [Scalar α]

def Rule.Kept (s : Scenario α) : Rule α → Prop
  | .sides => 0 < s.map.width ∧ 0 < s.map.height
  | .inside t => s.map.Has t
  | .sized =>
    Scalar.Lt Scalar.zero s.settings.tileWidth ∧ Scalar.Lt Scalar.zero s.settings.tileHeight
  | .named _ p => ∃ c ∈ p.label.toList, Text.isBlank c = false
  | .unlike i p => p.label ∉ (s.parts.take i).map Part.label
  | .placed _ p => s.map.Has p.start ∧ p.start ∉ s.map.blocked

instance (s : Scenario α) : (r : Rule α) → Decidable (r.Kept s)
  | .sides => inferInstanceAs (Decidable (0 < s.map.width ∧ 0 < s.map.height))
  | .inside t => inferInstanceAs (Decidable (s.map.Has t))
  | .sized => inferInstanceAs (Decidable (_ ∧ _))
  | .named _ p => inferInstanceAs (Decidable (∃ c ∈ p.label.toList, Text.isBlank c = false))
  | .unlike i p => inferInstanceAs (Decidable (p.label ∉ (s.parts.take i).map Part.label))
  | .placed _ p => inferInstanceAs (Decidable (s.map.Has p.start ∧ p.start ∉ s.map.blocked))

def breaks (s : Scenario α) (r : Rule α) : Bool := !decide (r.Kept s)

theorem breaks_iff {s : Scenario α} {r : Rule α} : s.breaks r = true ↔ ¬ r.Kept s := by
  simp only [breaks, Bool.not_eq_true', decide_eq_false_iff_not]

theorem not_breaks_iff {s : Scenario α} {r : Rule α} : ¬ s.breaks r = true ↔ r.Kept s := by
  rw [breaks_iff, not_not]

omit [Scalar α] in
/-- What is reported when the rule is broken. -/
def Rule.error (s : Scenario α) : Rule α → ScenarioError
  | .sides => .badMap (.emptyGrid s.map.width s.map.height)
  | .inside t => .badMap (.outOfBounds t s.map.width s.map.height)
  | .sized => .flawed .tileSize
  | .named i _ => .flawed (.emptyLabel i)
  | .unlike i p => .flawed (.duplicateLabel i p.label)
  | .placed i p => .flawed (.badStart i p.start)

omit [Scalar α] in
theorem foldlM_block (m : MapPlan) (us : List Tile) {ts : List Tile} (hn : ∀ t ∈ ts, t.Narrow) :
    ts.foldlM Grid.block (Grid.chart m.width m.height us) =
      match ts.find? fun t => !decide (m.Has t) with
      | none => .ok (Grid.chart m.width m.height (us ++ ts))
      | some t => .error (.outOfBounds t m.width m.height) := by
  induction ts generalizing us with
  | nil =>
    rw [List.append_nil]
    rfl
  | cons t rest ih =>
    obtain ⟨hnt, hnrest⟩ := List.forall_mem_cons.mp hn
    have hhas : (Grid.chart m.width m.height us).contains t = true ↔ m.Has t :=
      Grid.contains_iff.trans (and_iff_right hnt)
    by_cases ht : m.Has t
    · have hc := hhas.mpr ht
      rw [List.foldlM_cons, Grid.block_chart hc, List.find?_cons_of_neg (by simp [ht])]
      change rest.foldlM Grid.block (Grid.chart m.width m.height (us ++ [t])) = _
      rw [ih _ hnrest, List.append_assoc]
      rfl
    · have hc := Bool.eq_false_iff.mpr (mt hhas.mp ht)
      rw [List.foldlM_cons, Grid.block_of_not_contains hc, List.find?_cons_of_pos (by simp [ht])]
      rfl

theorem draw_eq {s : Scenario α} (hn : ∀ t ∈ s.map.blocked, t.Narrow) :
    s.map.draw.mapError .badMap =
      match (.sides :: s.map.blocked.map .inside : List (Rule α)).find? s.breaks with
      | none => .ok (Grid.chart s.map.width s.map.height s.map.blocked)
      | some r => .error (r.error s) := by
  by_cases hs : (Rule.sides : Rule α).Kept s
  · have hopen := Grid.open?_eq_chart hs.1 hs.2
    have hdraw : s.map.draw = s.map.blocked.foldlM Grid.block
        (Grid.chart s.map.width s.map.height []) := by
      unfold MapPlan.draw Grid.withBlocked?
      rw [hopen]
      rfl
    have hpred : s.breaks ∘ Rule.inside = fun t => !decide (s.map.Has t) := rfl
    rw [hdraw, foldlM_block _ _ hn, List.find?_cons_of_neg (not_breaks_iff.mpr hs),
      List.find?_map, hpred]
    cases s.map.blocked.find? fun t => !decide (s.map.Has t) with
    | none => rfl
    | some t => rfl
  · have hopen : Grid.open? s.map.width s.map.height =
        .error (.emptyGrid s.map.width s.map.height) := by
      refine if_pos ?_
      simp only [Rule.Kept] at hs
      omega
    rw [List.find?_cons_of_pos (breaks_iff.mpr hs)]
    unfold MapPlan.draw Grid.withBlocked?
    rw [hopen]
    rfl

theorem named_iff {s : Scenario α} {i : Nat} {p : Part α} :
    (Rule.named i p).Kept s ↔ Text.allBlank p.label = false := by
  simp only [Rule.Kept, Text.allBlank]
  rw [List.all_eq_false]
  simp

theorem placed_iff {s : Scenario α} {i : Nat} {p : Part α} (hn : p.start.Narrow) :
    (Rule.placed i p).Kept s ↔
      (Grid.chart s.map.width s.map.height s.map.blocked).passable p.start = true := by
  rw [Grid.passable_chart_iff, Grid.contains_iff, and_iff_right hn]
  exact Iff.rfl

omit [Scalar α] in
theorem mem_labels_take_succ {s : Scenario α} {i : Nat} {p : Part α} (hi : s.parts[i]? = some p)
    (l : String) :
    l ∈ (s.parts.take (i + 1)).map Part.label ↔
      l = p.label ∨ l ∈ (s.parts.take i).map Part.label := by
  rw [List.take_add_one, hi, List.map_append, List.mem_append, or_comm]
  exact or_congr_left List.mem_singleton

/-- The parts that are still to come are judged as their rules say, if the labels that have been
met are those of the parts before. -/
theorem partFlaw?_eq {s : Scenario α} {labels : List String} {i : Nat} {ps : List (Part α)}
    (hp : s.parts.drop i = ps) (hl : ∀ l, l ∈ labels ↔ l ∈ (s.parts.take i).map Part.label)
    (hn : ∀ p ∈ ps, p.start.Narrow) :
    (partFlaw? (Grid.chart s.map.width s.map.height s.map.blocked) labels i ps).map .flawed =
      (((ps.zipIdx i).flatMap Rule.ofPart).find? s.breaks).map (Rule.error s) := by
  induction ps generalizing labels i with
  | nil => rfl
  | cons p rest ih =>
    obtain ⟨hnp, hnrest⟩ := List.forall_mem_cons.mp hn
    rw [List.zipIdx_cons, List.flatMap_cons, List.find?_append]
    unfold partFlaw? Rule.ofPart
    -- the first rule of the part that is broken ends the search
    by_cases hnamed : (Rule.named i p).Kept s
    · rw [if_neg (Bool.eq_false_iff.mp (named_iff.mp hnamed)),
        List.find?_cons_of_neg (not_breaks_iff.mpr hnamed)]
      by_cases hunlike : (Rule.unlike i p).Kept s
      · have hfresh : labels.contains p.label = false := by
          rw [List.contains_eq_mem, decide_eq_false_iff_not, hl]
          exact hunlike
        rw [if_neg (Bool.eq_false_iff.mp hfresh),
          List.find?_cons_of_neg (not_breaks_iff.mpr hunlike)]
        by_cases hplaced : (Rule.placed i p).Kept s
        · have hi : s.parts[i]? = some p := by
            rw [← List.head?_drop, hp]
            rfl
          have hrest : s.parts.drop (i + 1) = rest := by
            rw [← List.drop_drop, hp]
            rfl
          rw [(placed_iff hnp).mp hplaced, List.find?_cons_of_neg (not_breaks_iff.mpr hplaced)]
          -- the label of this part is met from now on
          refine ih hrest (fun l => ?_) hnrest
          rw [mem_labels_take_succ hi, List.mem_cons, hl]
        · have hstart := Bool.eq_false_iff.mpr fun h => hplaced ((placed_iff hnp).mpr h)
          rw [hstart, List.find?_cons_of_pos (breaks_iff.mpr hplaced)]
          rfl
      · have hseen : labels.contains p.label = true := by
          rw [List.contains_eq_mem, decide_eq_true_eq, hl]
          exact not_not.mp hunlike
        rw [if_pos hseen, List.find?_cons_of_pos (breaks_iff.mpr hunlike)]
        rfl
    · have hblank : Text.allBlank p.label = true := by
        rw [named_iff, Bool.not_eq_false] at hnamed
        exact hnamed
      rw [if_pos hblank, List.find?_cons_of_pos (breaks_iff.mpr hnamed)]
      rfl

/-- The sizes of tiles stand for something. -/
structure Measured (s : Settings Float) : Prop where
  width : Scalar.Meaningful s.tileWidth
  height : Scalar.Meaningful s.tileHeight

theorem measured_standard : Measured .standard :=
  ⟨Binary64.meaningful_ofInt 48, Binary64.meaningful_ofInt 48⟩

theorem yields_settingsRecord : settingsRecord.Yields Measured := by
  have hsize : ∀ name {x : Float}, Scalar.Meaningful x →
      (Record.withDefault name Datum.real? x).Yields Scalar.Meaningful :=
    fun _ _ hx => Record.yields_withDefault Datum.meaningful_real? hx
  refine .seq (.seq (.seq (.map ?_ (hsize _ measured_standard.width))
    (hsize _ measured_standard.height)) (Record.yields_any _)) (Record.yields_any _)
  exact fun _ hw _ hh _ _ _ _ => ⟨hw, hh⟩

theorem yields_tileRecord : tileRecord.Yields Tile.Narrow := by
  refine .seq (.map ?_ (Record.yields_required fun _ => Datum.coordinate?_range))
    (Record.yields_required fun _ => Datum.coordinate?_range)
  exact fun _ hx _ hy => ⟨hx, hy⟩

theorem yields_mapRecord : mapRecord.Yields fun m => ∀ t ∈ m.blocked, t.Narrow := by
  have hblocked : (Record.withDefault "blocked" (Datum.list? tileRecord.read) []).Yields
      fun ts => ∀ t ∈ ts, t.Narrow :=
    Record.yields_withDefault (Datum.forall_mem_of_list? yields_tileRecord.readWith) nofun
  refine .seq (.seq (.map ?_ (Record.yields_any _)) (Record.yields_any _)) hblocked
  exact fun _ _ _ _ _ hts => hts

theorem yields_partRecord : partRecord.Yields fun p => p.start.Narrow := by
  refine .seq (.seq (.seq (.seq (.seq (.seq (.map ?_ (Record.yields_any _))
    (Record.yields_required yields_tileRecord.readWith)) (Record.yields_any _))
      (Record.yields_any _)) (Record.yields_any _)) (Record.yields_any _)) (Record.yields_any _)
  exact fun _ _ _ hstart _ _ _ _ _ _ _ _ _ _ => hstart

/-- What a scenario text gives: sizes of tiles that stand for something, the ones that it leaves out
included, and tiles whose coordinates have 32 bits. -/
structure Legible (s : Scenario Float) : Prop where
  measured : Measured s.settings
  blocked : ∀ t ∈ s.map.blocked, t.Narrow
  starts : ∀ p ∈ s.parts, p.start.Narrow

theorem legible_ofText? {text : String} {s : Scenario Float} (h : ofText? text = .ok s) :
    s.Legible := by
  have hparts : (Record.required "characters" (Datum.list? partRecord.read)).Yields
      fun ps => ∀ p ∈ ps, p.start.Narrow :=
    Record.yields_required (Datum.forall_mem_of_list? yields_partRecord.readWith)
  have hrecord : record.Yields Legible := by
    refine .seq (.seq (.seq (.map ?_ (Record.yields_required yields_mapRecord.readWith))
      (Record.yields_withDefault yields_settingsRecord.readWith measured_standard))
        (Record.yields_any _)) hparts
    exact fun _ hmap _ hsettings _ _ _ hparts => ⟨hsettings, hmap, hparts⟩
  exact hrecord.readWith (Datum.meaningful_ofText text) h

theorem sized_iff {s : Scenario Float} (h : Measured s.settings) :
    s.Sized ↔ (Rule.sized : Rule Float).Kept s := by
  have hzero : Scalar.Meaningful (Scalar.zero : Float) := Binary64.meaningful_ofInt 0
  rw [Sized, not_or, Scalar.not_le_iff h.width hzero, Scalar.not_le_iff h.height hzero]
  exact Iff.rfl

theorem flaw?_eq {s : Scenario Float} (h : s.Legible) :
    (s.flaw? (Grid.chart s.map.width s.map.height s.map.blocked)).map .flawed =
      ((Rule.sized :: s.parts.zipIdx.flatMap Rule.ofPart).find? s.breaks).map (Rule.error s) := by
  unfold flaw?
  by_cases hs : (Rule.sized : Rule Float).Kept s
  · rw [if_neg ((sized_iff h.measured).mpr hs), List.find?_cons_of_neg (not_breaks_iff.mpr hs)]
    exact partFlaw?_eq rfl (fun _ => Iff.rfl) h.starts
  · rw [if_pos (not_not.mp (mt (sized_iff h.measured).mp hs)),
      List.find?_cons_of_pos (breaks_iff.mpr hs)]
    rfl

/-- What is reported belongs to the first rule that the scenario breaks. -/
theorem check_eq {s : Scenario Float} (h : s.Legible) :
    s.check =
      match s.rules.find? s.breaks with
      | none => .ok ()
      | some r => .error (r.error s) := by
  have hflaw := flaw?_eq h
  rw [rules, List.find?_append]
  unfold check
  rw [draw_eq h.blocked]
  cases (Rule.sides :: s.map.blocked.map .inside : List (Rule Float)).find? s.breaks with
  | some r => rfl
  | none =>
    have hdrawn : ∀ (g : Grid) (next : Grid → Except ScenarioError Unit),
        (Except.ok g >>= next) = next g := fun _ _ => rfl
    dsimp only
    rw [Option.none_or, hdrawn]
    cases hf : s.flaw? (Grid.chart s.map.width s.map.height s.map.blocked) with
    | none =>
      rw [hf] at hflaw
      rw [Option.map_eq_none_iff.mp hflaw.symm]
    | some flaw =>
      rw [hf] at hflaw
      obtain ⟨r, hr, he⟩ := Option.map_eq_some_iff.mp hflaw.symm
      rw [hr]
      exact congrArg Except.error he.symm

theorem check_eq_error_iff {s : Scenario Float} (h : s.Legible) {e : ScenarioError} :
    s.check = .error e ↔
      ∃ before r after, s.rules = before ++ r :: after ∧ (∀ q ∈ before, q.Kept s) ∧ ¬ r.Kept s ∧
        e = r.error s := by
  rw [check_eq h]
  cases hr : s.rules.find? s.breaks with
  | none =>
    refine ⟨nofun, ?_⟩
    rintro ⟨before, r, after, hsplit, -, hbroken, -⟩
    have hmem : r ∈ s.rules := hsplit ▸ List.mem_append_right before List.mem_cons_self
    exact absurd (breaks_iff.mpr hbroken) (List.find?_eq_none.mp hr r hmem)
  | some r =>
    constructor
    · intro he
      obtain ⟨hb, before, after, hsplit, hkept⟩ := List.find?_eq_some_iff_append.mp hr
      have hall : ∀ q ∈ before, q.Kept s := fun q hq =>
        not_breaks_iff.mp (by simpa using hkept q hq)
      exact ⟨before, r, after, hsplit, hall, breaks_iff.mp hb, (Except.error.inj he).symm⟩
    · rintro ⟨before, q, after, hsplit, hkept, hbroken, rfl⟩
      have hq : s.rules.find? s.breaks = some q := by
        refine List.find?_eq_some_iff_append.mpr ⟨breaks_iff.mpr hbroken, before, after, hsplit, ?_⟩
        intro x hx
        simpa using not_breaks_iff.mpr (hkept x hx)
      obtain rfl := Option.some.inj (hr.symm.trans hq)
      rfl

end Scenario

end TileRoute
