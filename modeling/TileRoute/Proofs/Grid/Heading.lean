import TileRoute.Proofs.Grid.Explored

/-!
# Headings

The heading from a tile is the first step of a shortest walk to the tile within the limit that is
closest to the goal, or looks straight at the goal if no tile within the limit is closer to it.
-/

namespace TileRoute.Grid

variable {g : Grid} {start goal c : Tile} {limit k : Nat}

/-- Among the tiles within the limit this one is closest to the goal, and of those as close none is
reached in fewer steps. -/
structure Best (g : Grid) (start goal : Tile) (limit : Nat) (c : Tile) (k : Nat) : Prop where
  walk : g.Walk start k c
  within : k ≤ limit
  least : ∀ t n, g.Walk start n t → n ≤ limit →
    c.distance goal < t.distance goal ∨ c.distance goal = t.distance goal ∧ k ≤ n

namespace Search

variable {s : Search}

theorem Ended.best (h : Ended g start goal limit s) (hs : g.contains start = true) :
    ∃ c k, Best g start goal limit c k ∧ g.contains c = true ∧ s.closest = g.place c ∧
      s.steps? (g.place c) = some k := by
  obtain ⟨c, k, hc⟩ := h.chosen
  obtain ⟨hw, hl, -⟩ := h.found.walk c k hc.contains hc.steps
  refine ⟨c, k, ⟨hw, hl, fun t n ht hn => ?_⟩, hc.contains, hc.closest, hc.steps⟩
  rcases h.complete with ⟨hcg, hsg⟩ | hall
  · obtain ⟨m, hm, hmin⟩ := h.found.shortest goal hcg hsg
    have hleast := hc.least goal m hcg hsg hm
    rw [Tile.distance_self] at hleast
    rcases hleast with hlt | ⟨hz, hkm⟩
    · omega
    · rcases Nat.eq_zero_or_pos (t.distance goal) with htz | hpos
      · obtain rfl := Tile.distance_eq_zero_iff.mp htz
        exact .inr ⟨hz.trans htz.symm, Nat.le_trans hkm (hmin n ht)⟩
      · exact .inl (by omega)
  · have hst := hall t n ht hn
    obtain ⟨m, hm, hmin⟩ := h.found.shortest t (ht.contains hs) hst
    rcases hc.least t m (ht.contains hs) hst hm with hlt | ⟨he, hkm⟩
    · exact .inl hlt
    · exact .inr ⟨he, Nat.le_trans hkm (hmin n ht)⟩

end Search

theorem find?_step (t : Tile) (d : Direction) :
    (Direction.all.find? fun e => t.step e == t.step d) = some d := by
  have he : (fun e => t.step e == t.step d) = fun e => e == d := by
    funext e
    rw [Bool.eq_iff_iff, beq_iff_eq, beq_iff_eq]
    exact ⟨fun h => t.step_injective h, fun h => by rw [h]⟩
  rw [he]
  cases d <;> rfl

/-- What the heading from a tile of the map is made of. -/
theorem heading?_of_contains (limit : Nat) (hs : g.contains start = true) (hne : start ≠ goal) :
    g.heading? start goal limit =
      if (g.search start goal limit (g.place start)).closest = g.place start then
        start.facing goal
      else Direction.all.find? fun d => start.step d ==
        g.tileAt ((g.search start goal limit (g.place start)).firstPlace (g.place start)
          g.cells.size (g.search start goal limit (g.place start)).closest) := by
  simp only [heading?, hne, if_false, index?_eq_place hs]

/-- The heading looks straight at the goal if no tile within the limit is closer to it, and is the
first step of a shortest walk to one that is closest otherwise. -/
theorem heading?_best (hg : g.Sound) (hclear : Clear g start goal limit) (hs : g.contains start = true)
    (hne : start ≠ goal) :
    ∃ c k, Best g start goal limit c k ∧
      (k = 0 ∧ c = start ∧ g.heading? start goal limit = start.facing goal ∨
        ∃ d m, k = m + 1 ∧ g.heading? start goal limit = some d ∧
          g.passable (start.step d) = true ∧ g.Walk (start.step d) m c) := by
  have hend := Search.search_ends hg hclear hs
  obtain ⟨c, k, hbest, hc, hclosest, hk⟩ := hend.best hs
  have hhead := heading?_of_contains limit hs hne
  refine ⟨c, k, hbest, ?_⟩
  cases k with
  | zero =>
    obtain rfl := hbest.walk.eq_of_zero
    rw [if_pos hclosest] at hhead
    exact .inl ⟨rfl, rfl, hhead⟩
  | succ m =>
    obtain ⟨-, -, hle⟩ := hend.found.walk c (m + 1) hc hk
    obtain ⟨d, hp, hw, -, hfirst⟩ := hend.found.traced.firstPlace_eq hc hk
    have hcne : g.place c ≠ g.place start := by
      intro he
      rw [he, hend.found.origin] at hk
      cases hk
    rw [hclosest, if_neg hcne, hfirst _ (by omega), tileAt_place (passable_contains hp),
      find?_step] at hhead
    exact .inr ⟨d, m, rfl, hhead, hp, hw⟩

end TileRoute.Grid
