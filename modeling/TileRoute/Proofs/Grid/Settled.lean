import TileRoute.Proofs.Grid.Traced

/-!
# What is settled is settled for good

Two neighbours differ in their distance to the goal by one, so a walk through a tile is never
estimated to be longer than it is. The agenda is ordered by the estimates. Therefore a tile is
settled at the end of a shortest walk, and the settled tile that the search goes for is, among those
closest to the goal, one with a shortest walk to it.
-/

namespace TileRoute.Grid

/-- No sum of the steps of a walk within the limit and the distance from its end saturates. -/
structure Fits (g : Grid) (goal : Tile) (limit : Nat) : Prop where
  bound : ∀ t, g.contains t = true → min limit g.cells.size + t.distance goal ≤ maxCount

/-- No sum saturates, or else the goal is so near that it is settled before one that does is met. -/
inductive Clear (g : Grid) (start goal : Tile) (limit : Nat) : Prop
  | fits (h : Fits g goal limit)
  | near {n : Nat} (hw : g.Walk start n goal) (hn : n ≤ limit) (hmax : n < maxCount)

theorem total_reached (goal t : Tile) (n : Nat) :
    (Entry.reached goal t n).total = min (n + t.distance goal) maxCount := by
  change min (n + min (t.distance goal) maxCount) maxCount = _
  omega

theorem Walk.distance_le {g : Grid} {a t : Tile} {n : Nat} (h : g.Walk a n t) (goal : Tile) :
    a.distance goal ≤ n + t.distance goal := by
  induction h with
  | stay => exact Nat.le_add_left _ _
  | @step n u d h hp ih =>
    have hd := u.distance_le_step goal d
    omega

theorem Clear.distance_le {g : Grid} {start goal : Tile} {limit : Nat}
    (h : Clear g start goal limit) (hs : g.contains start = true) :
    start.distance goal ≤ maxCount := by
  cases h with
  | fits h =>
    have hb := h.bound start hs
    omega
  | near hw hn hmax =>
    have hd := hw.distance_le goal
    rw [Tile.distance_self] at hd
    omega

namespace Search

variable {g : Grid} {start goal : Tile} {limit : Nat} {s : Search}

/-- What a search has found out is right: the steps are those of walks, settled tiles have shortest
ones, and every other tile met is on the agenda. -/
structure Found (g : Grid) (start goal : Tile) (limit : Nat) (s : Search) : Prop where
  stepsSize : s.steps.size = g.cells.size
  parentsSize : s.parents.size = g.cells.size
  settledSize : s.settled.size = g.cells.size
  origin : s.steps? (g.place start) = some 0
  walk : ∀ t k, g.contains t = true → s.steps? (g.place t) = some k →
    g.Walk start k t ∧ k ≤ limit ∧ k + s.unsettled ≤ g.cells.size
  parent : ∀ t k, g.contains t = true → s.steps? (g.place t) = some (k + 1) →
    ∃ u d, g.contains u = true ∧ u.step d = t ∧ s.parent? (g.place t) = some (g.place u) ∧
      s.isSettled (g.place u) = true ∧ s.steps? (g.place u) = some k
  shortest : ∀ t, g.contains t = true → s.isSettled (g.place t) = true →
    ∃ k, s.steps? (g.place t) = some k ∧ ∀ n, g.Walk start n t → k ≤ n
  entry : ∀ e ∈ s.agenda, g.contains e.tile = true ∧ e.distance = estimate e.tile goal ∧
    ∃ k, s.steps? (g.place e.tile) = some k ∧ min (k + e.tile.distance goal) maxCount ≤ e.total
  scheduled : ∀ t k, g.contains t = true → s.steps? (g.place t) = some k →
    s.isSettled (g.place t) = false →
      ∃ e ∈ s.agenda, e.tile = t ∧ e.total = min (k + t.distance goal) maxCount
  ordered : Ordered s.agenda

/-- What a search has found out leads back to the start. -/
theorem Found.traced (hf : Found g start goal limit s) : Traced g start limit s where
  stepsSize := hf.stepsSize
  parentsSize := hf.parentsSize
  settledSize := hf.settledSize
  origin := hf.origin
  walk := hf.walk
  parent := hf.parent
  listed e he := by
    obtain ⟨hc, -, k, hk, -⟩ := hf.entry e he
    exact ⟨hc, k, hk⟩

/-- The search goes for this tile, so many steps away: no settled tile is closer to the goal, and
none as close is reached in fewer steps. -/
structure Chosen (g : Grid) (start goal : Tile) (s : Search) (c : Tile) (k : Nat) : Prop where
  contains : g.contains c = true
  closest : s.closest = g.place c
  distance : s.closestDistance = c.distance goal
  steps : s.steps? (g.place c) = some k
  met : c = start ∨ s.isSettled (g.place c) = true
  bounded : k + c.distance goal ≤ maxCount
  level : ∀ e ∈ s.agenda, k + c.distance goal ≤ e.total
  least : ∀ t n, g.contains t = true → s.isSettled (g.place t) = true →
    s.steps? (g.place t) = some n →
      c.distance goal < t.distance goal ∨ c.distance goal = t.distance goal ∧ k ≤ n

/-- The neighbours of a settled tile within the limit have been met. -/
def Closed (g : Grid) (limit : Nat) (s : Search) (u : Tile) : Prop :=
  ∀ k, s.steps? (g.place u) = some k → k < limit → ∀ d, g.passable (u.step d) = true →
    ∃ n, n ≤ k + 1 ∧ s.steps? (g.place (u.step d)) = some n

/-- All settled tiles but this one have had their neighbours met. -/
def ClosedBut (g : Grid) (limit : Nat) (s : Search) (v : Tile) : Prop :=
  ∀ u, g.contains u = true → s.isSettled (g.place u) = true → u ≠ v → Closed g limit s u

/-- A walk within the limit either ends on a settled tile, or leaves the settled tiles at one that is
on the agenda, from where the way to its end has been estimated. -/
theorem Found.frontier (hf : Found g start goal limit s) (hg : g.contains start = true)
    (hc : ∀ u, g.contains u = true → s.isSettled (g.place u) = true → Closed g limit s u)
    {n : Nat} {t : Tile} (hw : g.Walk start n t) (hn : n ≤ limit) :
    s.isSettled (g.place t) = true ∨
      ∃ e ∈ s.agenda, e.total ≤ n + t.distance goal := by
  induction hw with
  | stay =>
    cases hs : s.isSettled (g.place start) with
    | true => exact .inl rfl
    | false =>
      obtain ⟨e, he, -, ht⟩ := hf.scheduled start 0 hg hf.origin hs
      exact .inr ⟨e, he, ht ▸ Nat.min_le_left _ _⟩
  | @step n u d hw hp ih =>
    have hcu := hw.contains hg
    rcases ih (by omega) with hs | ⟨e, he, ht⟩
    · obtain ⟨k, hk, hmin⟩ := hf.shortest u hcu hs
      have hkn := hmin n hw
      obtain ⟨m, hm, hsteps⟩ := hc u hcu hs k hk (by omega) d hp
      cases hst : s.isSettled (g.place (u.step d)) with
      | true => exact .inl rfl
      | false =>
        obtain ⟨e, he, -, ht⟩ := hf.scheduled _ m (passable_contains hp) hsteps hst
        refine .inr ⟨e, he, ?_⟩
        omega
    · have hd := u.distance_le_step goal d
      refine .inr ⟨e, he, ?_⟩
      omega

/-- The first entry of the agenda is for a tile that has been settled. -/
theorem Found.skip {e : Entry} {rest : List Entry} (hf : Found g start goal limit s)
    (ha : s.agenda = e :: rest) (hs : s.isSettled (g.place e.tile) = true) :
    Found g start goal limit { s with agenda := rest } := by
  refine { hf with entry := fun x hx => ?_, scheduled := fun t k ht hk hn => ?_, ordered := ?_ }
  · exact hf.entry x (ha ▸ List.mem_cons_of_mem e hx)
  · obtain ⟨x, hx, rfl, htotal⟩ := hf.scheduled t k ht hk hn
    rcases List.mem_cons.mp (ha ▸ hx) with rfl | hx
    · cases hs.symm.trans hn
    · exact ⟨x, hx, rfl, htotal⟩
  · exact (ordered_cons hf.ordered ha).2

theorem Chosen.skip {e : Entry} {rest : List Entry} {c : Tile} {k : Nat}
    (hc : Chosen g start goal s c k) (ha : s.agenda = e :: rest) :
    Chosen g start goal { s with agenda := rest } c k :=
  { hc with level := fun x hx => hc.level x (ha ▸ List.mem_cons_of_mem e hx) }

/-- While the goal is not settled, the first entry of the agenda has not been saturated. -/
theorem Found.unsaturated {e : Entry} {rest : List Entry} {k : Nat}
    (hf : Found g start goal limit s) (hclear : Clear g start goal limit)
    (hg : g.contains start = true)
    (hc : ∀ u, g.contains u = true → s.isSettled (g.place u) = true → Closed g limit s u)
    (hopen : g.contains goal = true → s.isSettled (g.place goal) = false)
    (hmin : ∀ x ∈ s.agenda, e.total ≤ x.total) (ha : s.agenda = e :: rest)
    (hk : s.steps? (g.place e.tile) = some k) :
    k + e.tile.distance goal ≤ maxCount ∧ k + e.tile.distance goal ≤ e.total := by
  obtain ⟨hce, -, n, hn, hle⟩ := hf.entry e (ha ▸ List.mem_cons_self ..)
  obtain rfl : n = k := Option.some.inj (hn.symm.trans hk)
  cases hclear with
  | fits h =>
    have hb := h.bound e.tile hce
    obtain ⟨-, hlimit, hsize⟩ := hf.walk e.tile n hce hk
    omega
  | near hw hn hmax =>
    -- The walk to the goal leaves the settled tiles at one whose entry is not above its length.
    rcases hf.frontier hg hc hw hn with hst | ⟨x, hx, htotal⟩
    · rw [hopen (hw.contains hg)] at hst
      cases hst
    · have hxe := hmin x hx
      rw [Tile.distance_self] at htotal
      omega

/-- The first entry of the agenda belongs to a shortest walk if its tile is not settled. -/
theorem Found.first {e : Entry} {rest : List Entry} (hf : Found g start goal limit s)
    (hclear : Clear g start goal limit) (hg : g.contains start = true)
    (hc : ∀ u, g.contains u = true → s.isSettled (g.place u) = true → Closed g limit s u)
    (hopen : g.contains goal = true → s.isSettled (g.place goal) = false)
    (ha : s.agenda = e :: rest) (hs : s.isSettled (g.place e.tile) = false) :
    ∃ k, s.steps? (g.place e.tile) = some k ∧ e.total = k + e.tile.distance goal ∧
      e.total ≤ maxCount ∧ ∀ n, g.Walk start n e.tile → k ≤ n := by
  have hmin : ∀ x ∈ s.agenda, e.total ≤ x.total := by
    intro x hx
    rcases List.mem_cons.mp (ha ▸ hx) with rfl | hx
    · exact Nat.le_refl _
    · exact (ordered_cons hf.ordered ha).1 x hx
  obtain ⟨hce, -, k, hk, -⟩ := hf.entry e (ha ▸ List.mem_cons_self ..)
  obtain ⟨hmax, hle⟩ := hf.unsaturated hclear hg hc hopen hmin ha hk
  have htotal : e.total = k + e.tile.distance goal := by
    obtain ⟨x, hx, -, hxt⟩ := hf.scheduled e.tile k hce hk hs
    have hxe := hmin x hx
    omega
  refine ⟨k, hk, htotal, by omega, fun n hw => ?_⟩
  by_contra hlt
  obtain ⟨-, hkl, -⟩ := hf.walk e.tile k hce hk
  rcases hf.frontier hg hc hw (by omega) with hst | ⟨x, hx, hxt⟩
  · rw [hs] at hst
    cases hst
  · have hxe := hmin x hx
    omega

/-- The first entry of the agenda settles its tile. -/
theorem Found.settle {e : Entry} {rest : List Entry} {k : Nat} (hg : g.Sound)
    (hf : Found g start goal limit s) (ha : s.agenda = e :: rest)
    (hs : s.isSettled (g.place e.tile) = false) (hk : s.steps? (g.place e.tile) = some k)
    (hmin : ∀ n, g.Walk start n e.tile → k ≤ n) :
    Found g start goal limit
      (({ s with agenda := rest } : Search).settle (g.place e.tile) e.distance) := by
  have he : e ∈ s.agenda := ha ▸ List.mem_cons_self ..
  obtain ⟨hce, -, -⟩ := hf.entry e he
  have ht := (hf.traced.drop ha).settle hg hce hs e.distance
  have hi := (hf.traced.drop ha).settled_lt hg hce
  refine
    { ht with
      shortest := ?shortest, entry := ?entry, scheduled := ?scheduled, ordered := ?ordered }
  case shortest =>
    intro t ht hst
    rw [steps?_settle]
    rw [isSettled_settle hi] at hst
    rcases Bool.or_eq_true_iff.mp hst with hp | hst
    · obtain rfl := place_inj ht hce (of_decide_eq_true hp).symm
      exact ⟨k, hk, hmin⟩
    · exact hf.shortest t ht hst
  case entry =>
    intro x hx
    rw [agenda_settle] at hx
    obtain ⟨hcx, hdx, n, hn, hle⟩ := hf.entry x (ha ▸ List.mem_cons_of_mem e hx)
    exact ⟨hcx, hdx, n, steps?_settle.trans hn, hle⟩
  case scheduled =>
    intro t n ht hn hst
    rw [steps?_settle] at hn
    rw [isSettled_settle hi] at hst
    obtain ⟨hne, hold⟩ := Bool.or_eq_false_iff.mp hst
    obtain ⟨x, hx, rfl, htotal⟩ := hf.scheduled t n ht hn hold
    rw [agenda_settle]
    rcases List.mem_cons.mp (ha ▸ hx) with rfl | hx
    · exact absurd rfl (of_decide_eq_false hne)
    · exact ⟨x, hx, rfl, htotal⟩
  case ordered =>
    rw [agenda_settle]
    exact (ordered_cons hf.ordered ha).2

/-- The search goes for the tile that is settled only if it is closer to the goal. -/
theorem Chosen.settle {e : Entry} {rest : List Entry} {c : Tile} {k n : Nat} (hg : g.Sound)
    (hf : Found g start goal limit s) (hc : Chosen g start goal s c n) (ha : s.agenda = e :: rest)
    (hk : s.steps? (g.place e.tile) = some k) (ht : e.total = k + e.tile.distance goal)
    (hmax : e.total ≤ maxCount) :
    ∃ b m, Chosen g start goal
      (({ s with agenda := rest } : Search).settle (g.place e.tile) e.distance) b m ∧
        m + b.distance goal ≤ e.total := by
  have he : e ∈ s.agenda := ha ▸ List.mem_cons_self ..
  obtain ⟨hce, hestimate, -⟩ := hf.entry e he
  have hde : e.distance = e.tile.distance goal := hestimate.trans (Nat.min_eq_left (by omega))
  have hi := (hf.traced.drop ha).settled_lt hg hce
  have hlevel := hc.level e he
  have hrest := (ordered_cons hf.ordered ha).1
  have hsplit : ∀ t, g.contains t = true → (({ s with agenda := rest } : Search).settle
      (g.place e.tile) e.distance).isSettled (g.place t) = true →
        t = e.tile ∨ s.isSettled (g.place t) = true := by
    intro t ht hst
    rw [isSettled_settle hi] at hst
    rcases Bool.or_eq_true_iff.mp hst with hp | hst
    · exact .inl (place_inj ht hce (of_decide_eq_true hp).symm)
    · exact .inr hst
  by_cases hlt : e.distance < s.closestDistance
  · obtain ⟨hclosest, hdistance⟩ := closest_settle_of_lt (i := g.place e.tile)
      (show e.distance < ({ s with agenda := rest } : Search).closestDistance from hlt)
    have hmet : (({ s with agenda := rest } : Search).settle (g.place e.tile)
        e.distance).isSettled (g.place e.tile) = true := by
      rw [isSettled_settle hi, decide_eq_true rfl]
      rfl
    refine ⟨e.tile, k, ⟨hce, hclosest, hdistance.trans hde, steps?_settle.trans hk, .inr hmet,
      ht ▸ hmax, fun x hx => ?_, fun t m htc hst hm => ?_⟩, Nat.le_of_eq ht.symm⟩
    · rw [agenda_settle] at hx
      exact ht ▸ hrest x hx
    · rw [steps?_settle] at hm
      rcases hsplit t htc hst with rfl | hst
      · cases hk.symm.trans hm
        exact .inr ⟨rfl, Nat.le_refl k⟩
      · have hcl := hc.distance
        rcases hc.least t m htc hst hm with hd | ⟨hd, -⟩
        · exact .inl (by omega)
        · exact .inl (by omega)
  · have hle : s.closestDistance ≤ e.distance := Nat.not_lt.mp hlt
    obtain ⟨hclosest, hdistance⟩ := closest_settle_of_le (i := g.place e.tile)
      (show ({ s with agenda := rest } : Search).closestDistance ≤ e.distance from hle)
    have hmet : c = start ∨ (({ s with agenda := rest } : Search).settle (g.place e.tile)
        e.distance).isSettled (g.place c) = true := by
      rcases hc.met with hs | hs
      · exact .inl hs
      · refine .inr ?_
        rw [isSettled_settle hi]
        exact Bool.or_eq_true_iff.mpr (.inr hs)
    refine ⟨c, n, ⟨hc.contains, hclosest.trans hc.closest, hdistance.trans hc.distance,
      steps?_settle.trans hc.steps, hmet, hc.bounded, fun x hx => ?_, fun t m htc hst hm => ?_⟩,
      hlevel⟩
    · rw [agenda_settle] at hx
      exact hc.level x (ha ▸ List.mem_cons_of_mem e hx)
    · rw [steps?_settle] at hm
      rcases hsplit t htc hst with rfl | hst
      · cases hk.symm.trans hm
        have hcl := hc.distance
        omega
      · exact hc.least t m htc hst hm

theorem closedBut_settle {e : Entry} {rest : List Entry} (hg : g.Sound)
    (hf : Found g start goal limit s) (ha : s.agenda = e :: rest)
    (hc : ∀ u, g.contains u = true → s.isSettled (g.place u) = true → Closed g limit s u) :
    ClosedBut g limit
      (({ s with agenda := rest } : Search).settle (g.place e.tile) e.distance) e.tile := by
  obtain ⟨hce, -, -⟩ := hf.entry e (ha ▸ List.mem_cons_self ..)
  have hi := (hf.traced.drop ha).settled_lt hg hce
  intro u hu hs hne k hk hkl d hp
  rw [steps?_settle] at hk ⊢
  rw [isSettled_settle hi] at hs
  rcases Bool.or_eq_true_iff.mp hs with he | hs
  · exact absurd (place_inj hu hce (of_decide_eq_true he).symm) hne
  · exact hc u hu hs k hk hkl d hp

theorem Later.closed {a b : Search} (h : Later a b) {u : Tile}
    (hs : a.isSettled (g.place u) = true) (hc : Closed g limit a u) : Closed g limit b u := by
  intro k hk hkl d hp
  rw [h.kept _ hs] at hk
  obtain ⟨n, hn, ha⟩ := hc k hk hkl d hp
  obtain ⟨m, hm, hb⟩ := h.steps _ n ha
  exact ⟨m, Nat.le_trans hm hn, hb⟩

section Reach

variable {u c t : Tile} {k m : Nat} {d : Direction}

theorem Found.reach (hg : g.Sound) (hf : Found g start goal limit s)
    (hu : Source g limit s u k) (hr : Fresh g s (u.step d) (k + 1)) :
    Found g start goal limit
      (s.reach goal (u.step d) (g.place (u.step d)) (g.place u) (k + 1)) := by
  have ht := hf.traced.reach hg goal hu hr
  have hct := passable_contains hr.passable
  have hi := hf.traced.steps_lt hg hct
  have htotal := total_reached goal (u.step d) (k + 1)
  have hagenda : (s.reach goal (u.step d) (g.place (u.step d)) (g.place u) (k + 1)).agenda =
      schedule (.reached goal (u.step d) (k + 1)) s.agenda := rfl
  refine
    { ht with
      shortest := ?shortest, entry := ?entry, scheduled := ?scheduled, ordered := ?ordered }
  case shortest =>
    intro v hv hs
    rw [steps?_reach hi, if_neg (hr.place_ne hs)]
    exact hf.shortest v hv hs
  case entry =>
    intro x hx
    rw [hagenda] at hx
    rcases mem_schedule.mp hx with rfl | hx
    · refine ⟨hct, rfl, k + 1, ?_, Nat.le_of_eq htotal.symm⟩
      change (s.reach _ _ _ _ _).steps? (g.place (u.step d)) = _
      rw [steps?_reach hi, if_pos rfl]
    · -- An older entry of the same tile has the total of a longer walk.
      obtain ⟨hcx, hdx, n, hn, hle⟩ := hf.entry x hx
      refine ⟨hcx, hdx, ?_⟩
      rw [steps?_reach hi]
      split
      · rename_i he
        have hlt := hr.improves n (he ▸ hn)
        exact ⟨k + 1, rfl, by omega⟩
      · exact ⟨n, hn, hle⟩
  case scheduled =>
    intro v n hv hn hs
    rw [steps?_reach hi] at hn
    rw [hagenda]
    split at hn
    · rename_i he
      obtain rfl := place_inj hct hv he
      cases hn
      exact ⟨_, mem_schedule.mpr (.inl rfl), rfl, htotal⟩
    · obtain ⟨x, hx, hxt, hn⟩ := hf.scheduled v n hv hn hs
      exact ⟨x, mem_schedule.mpr (.inr hx), hxt, hn⟩
  case ordered =>
    rw [hagenda]
    exact ordered_schedule _ hf.ordered

theorem Chosen.reach {p : Nat} (hg : g.Sound)
    (hf : Found g start goal limit s) (hc : Chosen g start goal s c m)
    (hr : Fresh g s (u.step d) (k + 1))
    (hle : m + c.distance goal ≤ k + u.distance goal) :
    Chosen g start goal (s.reach goal (u.step d) (g.place (u.step d)) p (k + 1)) c m := by
  have hct := passable_contains hr.passable
  have hl := Later.of_reach hg hf.traced hr goal p
  have hsteps : (s.reach goal (u.step d) (g.place (u.step d)) p (k + 1)).steps? (g.place c) =
      some m := by
    rcases hc.met with rfl | hs
    · have hm : m = 0 := Option.some.inj (hc.steps.symm.trans hf.origin)
      obtain ⟨n, hn, hsn⟩ := hl.steps _ m hc.steps
      rw [hsn]
      congr 1
      omega
    · exact (hl.kept _ hs).trans hc.steps
  refine ⟨hc.contains, hc.closest, hc.distance, hsteps, hc.met, hc.bounded, fun x hx => ?_,
    fun v n hv hs hn => ?_⟩
  · have hx' : x ∈ schedule (.reached goal (u.step d) (k + 1)) s.agenda := hx
    rcases mem_schedule.mp hx' with rfl | hx
    · have hd := u.distance_le_step goal d
      have hmax := hc.bounded
      rw [total_reached]
      omega
    · exact hc.level x hx
  · rw [hl.kept _ hs] at hn
    exact hc.least v n hv hs hn

end Reach

end Search

end TileRoute.Grid
