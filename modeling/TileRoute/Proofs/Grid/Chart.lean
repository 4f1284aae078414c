import TileRoute.Proofs.Grid.Walk

/-!
# Charts

A `chart` is the map on which certain tiles are blocked: it has one cell for each place, and a cell
is closed exactly if its place is that of one of them. Blocking a tile of a chart gives the chart
with that tile among the blocked ones, so what a row of calls leaves behind depends on nothing but
which tiles of the map they have named.
-/

namespace TileRoute

namespace Cells

/-- A row of cells that are open where a test says so. -/
def tabulate (n : Nat) (test : Nat → Bool) : Cells := ⟨⟨Array.ofFn fun i : Fin n => byte (test i)⟩⟩

variable {n i : Nat} {p q : Nat → Bool}

theorem size_tabulate (n : Nat) (p : Nat → Bool) : (tabulate n p).size = n := Array.size_ofFn

theorem isOpen_tabulate (hi : i < n) : (tabulate n p).isOpen i = p i := by
  have hsize : i < (tabulate n p).bytes.size := Nat.lt_of_lt_of_eq hi (size_tabulate n p).symm
  have hcell : (tabulate n p).bytes[i] = byte (p i) := Array.getElem_ofFn hsize
  unfold isOpen
  rw [getElem?_pos _ i hsize, hcell]
  cases p i <;> rfl

theorem tabulate_congr (h : ∀ i < n, p i = q i) : tabulate n p = tabulate n q := by
  have hfun : (fun i : Fin n => byte (p i)) = fun i : Fin n => byte (q i) :=
    funext fun i => congrArg byte (h i i.isLt)
  unfold tabulate
  rw [hfun]

theorem opened_eq_tabulate (n : Nat) : opened n = tabulate n fun _ => true := by
  refine ext_data ((data_opened n).trans ?_)
  refine Array.ext ?_ fun i _ hi => ?_
  · rw [Array.size_replicate]
    exact Array.size_ofFn.symm
  · rw [Array.getElem_replicate]
    exact (Array.getElem_ofFn hi).symm

theorem block_tabulate (n i : Nat) (p : Nat → Bool) :
    (tabulate n p).block i = tabulate n fun j => p j && j != i := by
  have hdata : (Array.ofFn fun j : Fin n => byte (p j)).setIfInBounds i 0 =
      Array.ofFn fun j : Fin n => byte (p j && j.val != i) := by
    refine Array.ext ?_ fun j hj _ => ?_
    · rw [Array.size_setIfInBounds, Array.size_ofFn, Array.size_ofFn]
    · rw [Array.size_setIfInBounds] at hj
      rw [Array.getElem_setIfInBounds hj, Array.getElem_ofFn, Array.getElem_ofFn]
      by_cases hij : i = j
      · subst hij
        rw [if_pos rfl, bne_self_eq_false, Bool.and_false]
        rfl
      · rw [if_neg hij]
        simp only [bne_iff_ne.mpr (Ne.symm hij), Bool.and_true]
  exact ext_data hdata

end Cells

namespace Grid

variable {g : Grid} {s t : Tile} {i width height : Nat} {ts us : List Tile}

theorem index?_eq_some_place_iff (ht : g.contains t = true) :
    g.index? s = some (g.place t) ↔ s = t := by
  constructor
  · intro h
    have hs := contains_of_index? h
    rw [index?_eq_place hs] at h
    exact place_inj hs ht (Option.some.inj h)
  · rintro rfl
    exact index?_eq_place ht

/-- The map on which the given tiles are blocked, as far as they are on it. -/
def chart (width height : Nat) (blocked : List Tile) : Grid where
  width
  height
  cells := .tabulate (width * height) fun i =>
    !blocked.any fun t => Grid.index? ⟨width, height, .ofList []⟩ t == some i

theorem sound_chart (width height : Nat) (ts : List Tile) : (chart width height ts).Sound :=
  ⟨Cells.size_tabulate _ _⟩

theorem isOpen_chart (hi : i < width * height) :
    (chart width height ts).cells.isOpen i =
      !ts.any fun t => (chart width height ts).index? t == some i :=
  Cells.isOpen_tabulate hi

theorem open?_eq_chart (hw : 0 < width) (hh : 0 < height) :
    open? width height = .ok (chart width height []) := by
  unfold open?
  rw [if_neg (by omega), Cells.opened_eq_tabulate]
  rfl

theorem passable_chart_iff :
    (chart width height ts).passable t = true ↔
      (chart width height ts).contains t = true ∧ t ∉ ts := by
  by_cases hc : (chart width height ts).contains t = true
  · have hsound := sound_chart width height ts
    have hcell : (chart width height ts).cells.isOpen _ = _ :=
      isOpen_chart (Nat.lt_of_lt_of_eq (place_lt hsound hc) hsound.size)
    unfold passable
    rw [index?_eq_place hc]
    dsimp only
    rw [hcell, Bool.not_eq_true', List.any_eq_false]
    simp only [beq_iff_eq, index?_eq_some_place_iff hc]
    exact ⟨fun h => ⟨hc, fun ht => h t ht rfl⟩, fun h s hs he => h.2 (he ▸ hs)⟩
  · exact ⟨fun hp => absurd (passable_contains hp) hc, fun h => absurd h.1 hc⟩

/-- Two charts are the same if they have the same tiles of the map blocked. -/
theorem chart_congr
    (h : ∀ t, (chart width height ts).contains t = true → (t ∈ ts ↔ t ∈ us)) :
    chart width height ts = chart width height us := by
  refine congrArg (Grid.mk width height) (Cells.tabulate_congr fun i _ => congrArg not ?_)
  rw [Bool.eq_iff_iff, List.any_eq_true, List.any_eq_true]
  refine exists_congr fun t => and_congr_left fun hi => h t ?_
  exact contains_of_index? (beq_iff_eq.mp hi)

theorem block_of_not_contains (h : g.contains t = false) :
    g.block t = .error (.outOfBounds t g.width g.height) := by
  unfold block index?
  rw [h]
  rfl

theorem block_chart (h : (chart width height ts).contains t = true) :
    (chart width height ts).block t = .ok (chart width height (ts ++ [t])) := by
  unfold block
  rw [index?_eq_place h]
  refine congrArg Except.ok (congrArg (Grid.mk width height) ?_)
  refine (Cells.block_tabulate _ _ _).trans (Cells.tabulate_congr fun i _ => ?_)
  have hi : Grid.index? ⟨width, height, .ofList []⟩ t = some ((chart width height ts).place t) :=
    index?_eq_place h
  have hplace : (some ((chart width height ts).place t) == some i) =
      (i == (chart width height ts).place t) := by
    rw [Bool.eq_iff_iff, beq_iff_eq, beq_iff_eq, Option.some.injEq, eq_comm]
  rw [List.any_append, List.any_cons, List.any_nil, Bool.or_false, Bool.not_or, hi, hplace]
  rfl

/-- Blocking done on the map itself: what has been written stays, even if the call fails in the
end. -/
def blockInPlace (t : Tile) : ExceptT GridError (StateM Grid) Unit := do
  let g ← get
  match g.index? t with
  | none => throw (.outOfBounds t g.width g.height)
  | some i => modify fun g => { g with cells := g.cells.block i }

/-- A call in place gives the map that the call gives, and has written nothing when it fails. -/
theorem run_blockInPlace (g : Grid) (t : Tile) :
    (blockInPlace t).run.run g =
      match g.block t with
      | .ok b => (.ok (), b)
      | .error e => (.error e, g) := by
  have hget : (blockInPlace t).run.run g =
      (match g.index? t with
        | none => throw (.outOfBounds t g.width g.height)
        | some i => modify fun g => { g with cells := g.cells.block i } :
        ExceptT GridError (StateM Grid) Unit).run.run g := rfl
  rw [hget]
  unfold block
  cases g.index? t with
  | none => rfl
  | some i => rfl

/-- Calls one after the other, with what becomes of each; one that fails does not keep the next one
from being made. -/
def blockEach : List Tile → StateM Grid (List (Except GridError Unit))
  | [] => pure []
  | t :: rest => do
    let result ← (blockInPlace t).run
    let results ← blockEach rest
    return result :: results

/-- What becomes of a call on a map with these sides. -/
def verdict (width height : Nat) (t : Tile) : Except GridError Unit :=
  if (chart width height []).contains t then .ok () else .error (.outOfBounds t width height)

theorem run_blockEach (width height : Nat) (us ts : List Tile) :
    (blockEach ts).run (chart width height us) =
      (ts.map (verdict width height), chart width height (us ++ ts)) := by
  induction ts generalizing us with
  | nil =>
    rw [List.append_nil]
    rfl
  | cons t rest ih =>
    have hone : (blockInPlace t).run.run (chart width height us) =
        (verdict width height t, chart width height (us ++ [t])) := by
      rw [run_blockInPlace]
      cases hc : (chart width height us).contains t with
      | true =>
        have hv : verdict width height t = .ok () := if_pos hc
        rw [block_chart hc, hv]
      | false =>
        have hv : verdict width height t = .error (.outOfBounds t width height) :=
          if_neg (Bool.eq_false_iff.mp hc)
        -- the tile is not on the map, so it makes no difference among the blocked ones
        have hsame : chart width height us = chart width height (us ++ [t]) := by
          refine chart_congr fun s hs => ?_
          rw [List.mem_append, List.mem_singleton]
          refine ⟨.inl, fun hor => hor.resolve_right ?_⟩
          rintro rfl
          exact absurd hs (Bool.eq_false_iff.mp hc)
        rw [block_of_not_contains hc, hv, ← hsame]
        rfl
    change (let (result, g) := (blockInPlace t).run.run (chart width height us)
      let (results, g) := (blockEach rest).run g
      (result :: results, g)) = _
    rw [hone]
    dsimp only
    rw [ih, List.append_assoc]
    rfl

/-- The number of a place can be told from the coordinates of its tile if it is in one of the first
`2 ^ 31` columns and one of the first `2 ^ 31` rows. -/
theorem place_tileAt (hx : i % g.width < 2147483648) (hy : i / g.width < 2147483648) :
    g.place (g.tileAt i) = i := by
  unfold place tileAt
  rw [coordinate_of_lt hx, coordinate_of_lt hy, Int.toNat_natCast, Int.toNat_natCast]
  exact Nat.div_add_mod' i g.width

theorem narrow_tileAt (g : Grid) (i : Nat) : (g.tileAt i).Narrow := by
  unfold Tile.Narrow
  rw [tileAt_x, tileAt_y]
  exact ⟨coordinate_range _, coordinate_range _⟩

theorem column_lt (hg : g.Sound) (hi : i < g.cells.size) : i % g.width < g.width := by
  refine Nat.mod_lt i (Nat.pos_of_ne_zero fun hz => ?_)
  rw [hg.size, hz, Nat.zero_mul] at hi
  exact absurd hi (Nat.not_lt_zero i)

theorem row_lt (hg : g.Sound) (hi : i < g.cells.size) : i / g.width < g.height :=
  Nat.div_lt_of_lt_mul (hg.size ▸ hi)

/-- A place has a tile of the map as long as coordinates reach its column and its row. -/
theorem contains_tileAt_iff (hg : g.Sound) (hw : g.width < 4294967296) (hh : g.height < 4294967296)
    (hi : i < g.cells.size) :
    g.contains (g.tileAt i) = true ↔ i % g.width < 2147483648 ∧ i / g.width < 2147483648 := by
  have hcolumn := column_lt hg hi
  have hrow := row_lt hg hi
  have hx := coordinate_nonneg_iff (Nat.lt_trans hcolumn hw)
  have hy := coordinate_nonneg_iff (Nat.lt_trans hrow hh)
  rw [contains_iff, tileAt_x, tileAt_y]
  constructor
  · rintro ⟨-, hxn, -, hyn, -⟩
    exact ⟨hx.mp hxn, hy.mp hyn⟩
  · rintro ⟨hxl, hyl⟩
    refine ⟨narrow_tileAt g i, hx.mpr hxl, ?_, hy.mpr hyl, ?_⟩
    · rw [coordinate_of_lt hxl]
      exact Int.ofNat_lt.mpr hcolumn
    · rw [coordinate_of_lt hyl]
      exact Int.ofNat_lt.mpr hrow

/-- The map after a row of calls, what became of them, and what can become of the next one. A tile
has its place and the place has that tile. The other way round it takes a place that coordinates
reach, which all are if neither side is longer than `2 ^ 31`. -/
structure Charted (width height : Nat) (ts : List Tile) (results : List (Except GridError Unit))
    (g : Grid) : Prop where
  contains_iff : ∀ t, t.Narrow →
    (g.contains t = true ↔ 0 ≤ t.x ∧ t.x < width ∧ 0 ≤ t.y ∧ t.y < height)
  answers : results =
    ts.map fun t => if g.contains t then .ok () else .error (.outOfBounds t width height)
  accepted_iff : ∀ t, (∃ b, g.block t = .ok b) ↔ g.contains t = true
  refused : ∀ t, g.contains t = false →
    (blockInPlace t).run.run g = (.error (.outOfBounds t width height), g)
  inPlace : ∀ t b, g.block t = .ok b → (blockInPlace t).run.run g = (.ok (), b)
  passable_iff : ∀ t, g.passable t = true ↔ g.contains t = true ∧ (t, .ok ()) ∉ ts.zip results
  size : g.cells.size = width * height
  tile_of_index : ∀ t, g.contains t = true →
    ∃ i, g.index? t = some i ∧ i < g.cells.size ∧ g.tileAt i = t
  index_of_tile : width ≤ 2147483648 → height ≤ 2147483648 → ∀ i, i < g.cells.size →
    g.contains (g.tileAt i) = true ∧ g.index? (g.tileAt i) = some i
  reached_iff : width < 4294967296 → height < 4294967296 → ∀ i, i < g.cells.size →
    (g.index? (g.tileAt i) = some i ↔ i % width < 2147483648 ∧ i / width < 2147483648) ∧
      (g.contains (g.tileAt i) = true ↔ i % width < 2147483648 ∧ i / width < 2147483648)
  narrow : ∀ i, (g.tileAt i).Narrow

theorem charted (width height : Nat) (ts : List Tile) :
    Charted width height ts (ts.map (verdict width height)) (chart width height ts) where
  contains_iff t ht := by
    rw [contains_iff, and_iff_right ht]
    exact Iff.rfl
  answers := rfl
  accepted_iff t := by
    cases hc : (chart width height ts).contains t with
    | true => exact ⟨fun _ => rfl, fun _ => ⟨_, block_chart hc⟩⟩
    | false =>
      rw [block_of_not_contains hc]
      exact ⟨nofun, nofun⟩
  refused t hc := by
    rw [run_blockInPlace, block_of_not_contains hc]
    rfl
  inPlace t b hb := by rw [run_blockInPlace, hb]
  passable_iff t := by
    rw [passable_chart_iff, ← List.map_prod_left_eq_zip]
    refine and_congr_right fun hc => not_congr ?_
    have hv : verdict width height t = .ok () := if_pos hc
    rw [List.mem_map]
    constructor
    · intro ht
      exact ⟨t, ht, congrArg (Prod.mk t) hv⟩
    · rintro ⟨s, hs, he⟩
      obtain rfl := congrArg Prod.fst he
      exact hs
  size := (sound_chart width height ts).size
  tile_of_index t hc :=
    ⟨_, index?_eq_place hc, place_lt (sound_chart width height ts) hc, tileAt_place hc⟩
  index_of_tile hw hh i hi := by
    have hsound := sound_chart width height ts
    have hx : i % width < 2147483648 := Nat.lt_of_lt_of_le (column_lt hsound hi) hw
    have hy : i / width < 2147483648 := Nat.lt_of_lt_of_le (row_lt hsound hi) hh
    have hc := (contains_tileAt_iff hsound (Nat.lt_of_le_of_lt hw (by decide))
      (Nat.lt_of_le_of_lt hh (by decide)) hi).mpr ⟨hx, hy⟩
    exact ⟨hc, (index?_eq_place hc).trans (congrArg some (place_tileAt hx hy))⟩
  reached_iff hw hh i hi := by
    have hc := contains_tileAt_iff (sound_chart width height ts) hw hh hi
    refine ⟨⟨fun h => hc.mp (contains_of_index? h), fun h => ?_⟩, hc⟩
    exact (index?_eq_place (hc.mpr h)).trans (congrArg some (place_tileAt h.1 h.2))
  narrow := narrow_tileAt _

/-- A map that has been opened answers for its tiles, whatever calls have been made on it, and only
which of its tiles they have named makes a difference. -/
theorem opened_charted (hw : 0 < width) (hh : 0 < height) :
    ∃ start, open? width height = .ok start ∧
      ∀ ts results g, (blockEach ts).run start = (results, g) →
        Charted width height ts results g ∧
          ∀ us, (∀ t, g.contains t = true → (t ∈ us ↔ t ∈ ts)) →
            ((blockEach us).run start).2 = g := by
  refine ⟨chart width height [], open?_eq_chart hw hh, fun ts results g hrun => ?_⟩
  rw [run_blockEach, List.nil_append] at hrun
  obtain ⟨rfl, rfl⟩ := Prod.mk.inj hrun
  refine ⟨charted width height ts, fun us hus => ?_⟩
  rw [run_blockEach, List.nil_append]
  exact chart_congr fun t hc => hus t hc

/-- A yard has three columns and two rows. Three of the calls name a tile of it, two of them the
same one, and one names a tile that would be on it if its sides were the other way round. -/
def obstacles : List Tile := [⟨2, 1⟩, ⟨1, 2⟩, ⟨0, 1⟩, ⟨2, 1⟩]

theorem opened_charted_yard :
    0 < 3 ∧ 0 < 2 ∧ ∃ start, open? 3 2 = .ok start ∧
      ∃ results g, (blockEach obstacles).run start = (results, g) ∧
        Charted 3 2 obstacles results g ∧
          results = [.ok (), .error (.outOfBounds ⟨1, 2⟩ 3 2), .ok (), .ok ()] ∧
            g.cells = .ofList [true, true, true, false, true, false] ∧
              (∀ i, i < g.cells.size → g.index? (g.tileAt i) = some i) ∧
                ((blockEach [⟨0, 1⟩, ⟨2, 1⟩]).run start).2 = g := by
  obtain ⟨start, hopen, h⟩ := opened_charted (show 0 < 3 by decide) (show 0 < 2 by decide)
  obtain rfl : chart 3 2 [] = start :=
    Except.ok.inj ((open?_eq_chart (by decide) (by decide)).symm.trans hopen)
  obtain ⟨hcharted, hsame⟩ := h obstacles _ _ rfl
  have hback := hcharted.index_of_tile (by decide) (by decide)
  refine ⟨by decide, by decide, _, hopen, _, _, rfl, hcharted, rfl, rfl,
    fun i hi => (hback i hi).2, hsame _ ?_⟩
  intro t ht
  have hother : t ≠ ⟨1, 2⟩ := by
    rintro rfl
    exact absurd ht (by decide)
  simp only [obstacles, List.mem_cons, List.not_mem_nil, or_false, hother, false_or]
  exact ⟨.inr, fun h => h.elim .inr id⟩

/-- A corridor that is one place longer than coordinates reach: the tile of its last place has a
negative column and is not on the map. -/
theorem opened_corridor_unreached :
    ∃ g, open? 2147483649 1 = .ok g ∧ 2147483648 < g.cells.size ∧
      g.tileAt 2147483648 = ⟨-2147483648, 0⟩ ∧ g.contains ⟨-2147483648, 0⟩ = false ∧
        ¬ ∀ i, i < g.cells.size →
          g.contains (g.tileAt i) = true ∧ g.index? (g.tileAt i) = some i := by
  have hsize : 2147483648 < (chart 2147483649 1 []).cells.size := by
    rw [(sound_chart 2147483649 1 []).size]
    decide
  have htile : (chart 2147483649 1 []).tileAt 2147483648 = ⟨-2147483648, 0⟩ := by decide +kernel
  have houtside : (chart 2147483649 1 []).contains ⟨-2147483648, 0⟩ = false := by decide +kernel
  refine ⟨_, open?_eq_chart (by decide) (by decide), hsize, htile, houtside, fun h => ?_⟩
  have hlast := (h 2147483648 hsize).1
  rw [htile, houtside] at hlast
  exact Bool.false_ne_true hlast

end Grid

end TileRoute
