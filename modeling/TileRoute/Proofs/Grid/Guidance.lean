import TileRoute.Proofs.Grid.Heading

/-!
# What a heading is worth

The tiles within the limit are those at the end of a walk of at most so many steps. If one of them is
closer to the goal than the start, the heading opens a shortest walk to one that is closest to the
goal and, among those as close, nearest to the start; to the goal itself if that is within the limit.
Otherwise the heading looks straight at the goal, and the tile ahead is blocked unless the limit
forbids every step.
-/

namespace TileRoute.Grid

variable {g : Grid} {start goal c : Tile} {d : Direction} {limit k : Nat}

/-- At most so many steps over passable tiles lead to the tile. -/
def Within (g : Grid) (start : Tile) (limit : Nat) (t : Tile) : Prop :=
  ∃ n, n ≤ limit ∧ g.Walk start n t

theorem Best.isWithin (h : Best g start goal limit c k) : g.Within start limit c :=
  ⟨k, h.within, h.walk⟩

/-- A tile that is best without being the start is closer to the goal than the start. -/
theorem Best.closer (h : Best g start goal limit c k) (hk : 0 < k) :
    c.distance goal < start.distance goal := by
  rcases h.least start 0 .stay (Nat.zero_le limit) with hlt | ⟨-, hz⟩
  · exact hlt
  · omega

theorem Best.shortest (h : Best g start goal limit c k) {n : Nat} (hw : g.Walk start n c) :
    k ≤ n := by
  by_cases hn : n ≤ limit
  · rcases h.least c n hw hn with hlt | ⟨-, hle⟩
    · exact absurd hlt (Nat.lt_irrefl _)
    · exact hle
  · have hk := h.within
    omega

/-- If the goal can be reached within the limit, no other tile is best. -/
theorem Best.eq_goal (h : Best g start goal limit c k) (hgoal : g.Within start limit goal) :
    c = goal := by
  obtain ⟨n, hn, hw⟩ := hgoal
  have hleast := h.least goal n hw hn
  rw [Tile.distance_self] at hleast
  exact Tile.distance_eq_zero_iff.mp (by omega)

/-- The direction is the first step of a shortest walk of so many steps to the tile. -/
structure Opens (g : Grid) (start : Tile) (d : Direction) (c : Tile) (k : Nat) : Prop where
  passable : g.passable (start.step d) = true
  rest : ∃ m, k = m + 1 ∧ g.Walk (start.step d) m c
  shortest : ∀ n, g.Walk start n c → k ≤ n

theorem exists_facing (hne : start ≠ goal) : ∃ d, start.facing goal = some d := by
  cases hf : start.facing goal with
  | none => exact absurd (Tile.facing_eq_none_iff.mp hf) hne
  | some d => exact ⟨d, rfl⟩

/-- What the heading from one tile to another says about the tiles within the limit. -/
structure Guides (g : Grid) (start goal : Tile) (limit : Nat) (heading? : Option Direction) :
    Prop where
  /-- No tile within the limit is closer to the goal. -/
  straight : (∀ t, g.Within start limit t → start.distance goal ≤ t.distance goal) →
    heading? = start.facing goal ∧
      ∃ d, heading? = some d ∧ (1 ≤ limit → g.passable (start.step d) = false)
  /-- Some tile within the limit is closer to the goal. -/
  around : (∃ t, g.Within start limit t ∧ t.distance goal < start.distance goal) →
    ∃ d c k, heading? = some d ∧ Best g start goal limit c k ∧ Opens g start d c k
  arrives : g.Within start limit goal → ∃ d k, heading? = some d ∧ Opens g start d goal k

/-- A heading straight at the goal comes to a tile that is closer, so nothing within the limit being
closer means that the way is blocked. -/
theorem blocked_straight
    (hall : ∀ t, g.Within start limit t → start.distance goal ≤ t.distance goal)
    (hd : start.facing goal = some d) (hl : 1 ≤ limit) : g.passable (start.step d) = false := by
  by_contra hp
  rw [Bool.not_eq_false] at hp
  have hclose := Tile.distance_facing hd
  have hle := hall (start.step d) ⟨1, hl, Walk.stay.step d hp⟩
  omega

section Heading

variable (hg : g.Sound) (hfit : Fits g goal limit) (hs : g.contains start = true)
  (hne : start ≠ goal)

include hg hfit hs hne

theorem heading?_straight
    (hall : ∀ t, g.Within start limit t → start.distance goal ≤ t.distance goal) :
    g.heading? start goal limit = start.facing goal := by
  obtain ⟨c, k, hbest, ⟨-, -, hhead⟩ | ⟨d, m, rfl, -⟩⟩ := heading?_best hg (.fits hfit) hs hne
  · exact hhead
  · have hle := hall c hbest.isWithin
    have hlt := hbest.closer (Nat.succ_pos m)
    omega

theorem heading?_around
    (hsome : ∃ t, g.Within start limit t ∧ t.distance goal < start.distance goal) :
    ∃ d c k, g.heading? start goal limit = some d ∧ Best g start goal limit c k ∧
      Opens g start d c k := by
  obtain ⟨c, k, hbest, ⟨rfl, rfl, -⟩ | ⟨d, m, rfl, hhead, hp, hw⟩⟩ :=
    heading?_best hg (.fits hfit) hs hne
  · obtain ⟨t, ⟨n, hn, hw⟩, hlt⟩ := hsome
    have hleast := hbest.least t n hw hn
    omega
  · exact ⟨d, c, m + 1, hhead, hbest, ⟨hp, ⟨m, rfl, hw⟩, fun n => hbest.shortest⟩⟩

/-- The heading is the first step of a shortest walk to the best tile within the limit, or looks
straight at the goal from where no such tile is closer. -/
theorem heading?_guides : Guides g start goal limit (g.heading? start goal limit) := by
  refine { straight := ?straight, around := ?around, arrives := ?arrives }
  case straight =>
    intro hall
    have hhead := heading?_straight hg hfit hs hne hall
    obtain ⟨d, hd⟩ := exists_facing hne
    exact ⟨hhead, d, hhead.trans hd, blocked_straight hall hd⟩
  case around => exact heading?_around hg hfit hs hne
  case arrives =>
    intro hgoal
    have hlt : goal.distance goal < start.distance goal := by
      rw [Tile.distance_self, Nat.pos_iff_ne_zero]
      exact fun hz => hne (Tile.distance_eq_zero_iff.mp hz)
    obtain ⟨d, c, k, hhead, hbest, ho⟩ := heading?_around hg hfit hs hne ⟨goal, hgoal, hlt⟩
    obtain rfl := hbest.eq_goal hgoal
    exact ⟨d, k, hhead, ho⟩

end Heading

/-- So many steps lead to the tile, and no fewer. -/
structure Away (g : Grid) (a : Tile) (n : Nat) (t : Tile) : Prop where
  walk : g.Walk a n t
  least : ∀ m, g.Walk a m t → n ≤ m

theorem away_zero_iff : g.Away start 0 goal ↔ start = goal :=
  ⟨fun h => h.walk.eq_of_zero.symm, fun h => h ▸ ⟨.stay, fun _ _ => Nat.zero_le _⟩⟩

theorem Away.ne {n : Nat} (h : g.Away start (n + 1) goal) : start ≠ goal := by
  rintro rfl
  exact absurd (h.least 0 .stay) (Nat.not_succ_le_zero n)

/-- A walk that is as short as the distance is a shortest one. -/
theorem Walk.away {n : Nat} (h : g.Walk start n goal) (hn : n ≤ start.distance goal) :
    g.Away start n goal := by
  refine ⟨h, fun m hm => ?_⟩
  have hd := hm.distance_le goal
  rw [Tile.distance_self] at hd
  omega

theorem Walk.cons {a t : Tile} {n : Nat} (hp : g.passable (a.step d) = true)
    (h : g.Walk (a.step d) n t) : g.Walk a (n + 1) t := by
  induction h with
  | stay => exact Walk.stay.step d hp
  | step e _ hq ih => exact ih.step e hq

/-- The heading to a goal within the limit leads one step nearer to it, on a map of any size. -/
theorem Away.step {n : Nat} (hg : g.Sound) (hs : g.contains start = true)
    (h : g.Away start (n + 1) goal) (hl : n + 1 ≤ limit) (hmax : n + 1 < maxCount) :
    ∃ d, g.heading? start goal limit = some d ∧ g.passable (start.step d) = true ∧
      g.Away (start.step d) n goal := by
  obtain ⟨c, k, hbest, hcase⟩ := heading?_best hg (.near h.walk hl hmax) hs h.ne
  obtain rfl := hbest.eq_goal ⟨n + 1, hl, h.walk⟩
  have hk : k = n + 1 := Nat.le_antisymm (hbest.shortest h.walk) (h.least k hbest.walk)
  rcases hcase with ⟨rfl, -⟩ | ⟨d, m, hm, hd, hp, hw⟩
  · cases hk
  · obtain rfl : m = n := Nat.succ.inj (hm.symm.trans hk)
    exact ⟨d, hd, hp, hw, fun j hj => Nat.le_of_succ_le_succ (h.least _ (hj.cons hp))⟩

/-- Two rooms with a wall between them that has a gap at the bottom. -/
def rooms : Grid := ⟨3, 3, .ofList [true, false, true, true, false, true, true, true, true]⟩

theorem drawn_rooms : withBlocked? 3 3 [⟨1, 0⟩, ⟨1, 1⟩] = .ok rooms := rfl

theorem fits_rooms (limit : Nat) : Fits rooms ⟨2, 0⟩ limit := by
  refine ⟨fun t ht => ?_⟩
  obtain ⟨-, hx, hxw, hy, hyh⟩ := contains_iff.mp ht
  change t.x < (3 : Nat) at hxw
  change t.y < (3 : Nat) at hyh
  change min limit 9 + ((t.x - 2).natAbs + (t.y - 0).natAbs) ≤ 4294967295
  omega

/-- Six steps lead round the wall, and the first of them is down, away from the goal. -/
theorem heading?_guides_rooms :
    rooms.Sound ∧ Fits rooms ⟨2, 0⟩ 6 ∧ rooms.contains ⟨0, 0⟩ = true ∧
      (⟨0, 0⟩ : Tile).facing ⟨2, 0⟩ = some .right ∧
        rooms.heading? ⟨0, 0⟩ ⟨2, 0⟩ 6 = some .down ∧
          ∃ k, k ≤ 6 ∧ Opens rooms ⟨0, 0⟩ .down ⟨2, 0⟩ k := by
  have hsound := sound_withBlocked drawn_rooms
  have hstart : rooms.contains ⟨0, 0⟩ = true := by decide
  have hwalk : rooms.Walk ⟨0, 0⟩ 6 ⟨2, 0⟩ :=
    (((((Walk.stay.step .down (by decide)).step .down (by decide)).step .right (by decide)).step
      .right (by decide)).step .up (by decide)).step .up (by decide)
  have hguides := heading?_guides hsound (fits_rooms 6) hstart (by decide)
  obtain ⟨d, k, hd, ho⟩ := hguides.arrives ⟨6, Nat.le_refl 6, hwalk⟩
  have hdown : rooms.heading? ⟨0, 0⟩ ⟨2, 0⟩ 6 = some .down := by decide +kernel
  obtain rfl : Direction.down = d := Option.some.inj (hdown.symm.trans hd)
  exact ⟨hsound, fits_rooms 6, hstart, by decide, hdown, k, ho.shortest 6 hwalk, ho⟩

end TileRoute.Grid
