import TileRoute.Proofs.Grid.Settled

/-!
# What a search finds

Each round of a search keeps what it has found right, so the rounds together do. They come to an end
before the entries that may be taken are used up, since every settled tile has put four on the agenda
at most. At the end every walk within the limit has been accounted for, or the goal has been settled.
-/

namespace TileRoute.Grid.Search

variable {g : Grid} {start goal : Tile} {limit : Nat} {s : Search} {u c : Tile} {k m : Nat}

/-- What was found stays right, and the agenda has grown by some entries at most. -/
structure Widened (g : Grid) (start goal : Tile) (limit : Nat) (c : Tile) (m entries : Nat)
    (s s' : Search) : Prop where
  found : Found g start goal limit s'
  chosen : Chosen g start goal s' c m
  later : Later s s'
  agenda : s'.agenda.length ≤ s.agenda.length + entries

/-- A tile has been met on a walk of at most so many steps. -/
def Met (g : Grid) (s : Search) (t : Tile) (n : Nat) : Prop :=
  ∃ k, k ≤ n ∧ s.steps? (g.place t) = some k

theorem Met.later {a b : Search} {t : Tile} {n : Nat} (h : Met g a t n) (hl : Later a b) :
    Met g b t n := by
  obtain ⟨k, hk, ha⟩ := h
  obtain ⟨l, hlk, hb⟩ := hl.steps _ k ha
  exact ⟨l, Nat.le_trans hlk hk, hb⟩

theorem relax_widens (hg : g.Sound) (hf : Found g start goal limit s)
    (hc : Chosen g start goal s c m) (hu : Source g limit s u k)
    (hle : m + c.distance goal ≤ k + u.distance goal) (d : Direction) :
    Widened g start goal limit c m 1 s (relax g goal u (g.place u) k s d) ∧
      (g.passable (u.step d) = true →
        Met g (relax g goal u (g.place u) k s d) (u.step d) (k + 1)) := by
  have hwalk : g.passable (u.step d) = true → g.Walk start (k + 1) (u.step d) :=
    (hf.walk u k hu.contains hu.steps).1.step d
  rcases relax_cases g goal u (g.place u) k s d with ⟨hfresh, hr⟩ | ⟨hr, hmet⟩
  · have hi := hf.traced.steps_lt hg (passable_contains hfresh.passable)
    rw [hr]
    refine ⟨⟨hf.reach hg hu hfresh, hc.reach hg hf hfresh hle,
      .of_reach hg hf.traced hfresh _ _, Nat.le_of_eq (length_schedule _ _)⟩, fun _ => ?_⟩
    refine ⟨k + 1, Nat.le_refl _, ?_⟩
    rw [steps?_reach hi, if_pos rfl]
  · rw [hr]
    refine ⟨⟨hf, hc, .refl s, Nat.le_succ _⟩, fun hp => ?_⟩
    cases hs : s.isSettled (g.place (u.step d)) with
    | true =>
      obtain ⟨n, hn, hmin⟩ := hf.shortest _ (passable_contains hp) hs
      exact ⟨n, hmin _ (hwalk hp), hn⟩
    | false => exact hmet hp hs

theorem relaxAll_widens (hg : g.Sound) (ds : List Direction)
    (hf : Found g start goal limit s) (hc : Chosen g start goal s c m)
    (hu : Source g limit s u k) (hle : m + c.distance goal ≤ k + u.distance goal) :
    Widened g start goal limit c m ds.length s (ds.foldl (relax g goal u (g.place u) k) s) ∧
      ∀ d ∈ ds, g.passable (u.step d) = true →
        Met g (ds.foldl (relax g goal u (g.place u) k) s) (u.step d) (k + 1) := by
  induction ds generalizing s with
  | nil => exact ⟨⟨hf, hc, .refl s, Nat.le_refl _⟩, fun d hd => by cases hd⟩
  | cons d rest ih =>
    obtain ⟨hw, hmet⟩ := relax_widens hg hf hc hu hle d
    obtain ⟨hrest, hall⟩ := ih hw.found hw.chosen (hu.later hw.later)
    rw [List.foldl_cons]
    refine ⟨⟨hrest.found, hrest.chosen, hw.later.trans hrest.later, ?_⟩, fun e he hp => ?_⟩
    · have h1 := hw.agenda
      have h2 := hrest.agenda
      rw [List.length_cons]
      omega
    · rcases List.mem_cons.mp he with rfl | he
      · exact (hmet hp).later hrest.later
      · exact hall e he hp

/-- A search between two rounds: what it has found is right, the neighbours of every settled tile
within the limit have been met, and the goal has not been settled. -/
structure Paused (g : Grid) (start goal : Tile) (limit : Nat) (s : Search) : Prop where
  found : Found g start goal limit s
  chosen : ∃ c k, Chosen g start goal s c k
  closed : ∀ u, g.contains u = true → s.isSettled (g.place u) = true → Closed g limit s u
  ahead : g.contains goal = true → s.isSettled (g.place goal) = false

/-- A search that has come to an end: the goal is settled, or every tile within the limit is. -/
structure Ended (g : Grid) (start goal : Tile) (limit : Nat) (s : Search) : Prop where
  found : Found g start goal limit s
  chosen : ∃ c k, Chosen g start goal s c k
  complete : g.contains goal = true ∧ s.isSettled (g.place goal) = true ∨
    ∀ t n, g.Walk start n t → n ≤ limit → s.isSettled (g.place t) = true

theorem Paused.ended (h : Paused g start goal limit s) (hg : g.contains start = true)
    (ha : s.agenda = []) : Ended g start goal limit s := by
  refine ⟨h.found, h.chosen, .inr fun t n hw hn => ?_⟩
  rcases h.found.frontier hg h.closed hw hn with hs | ⟨e, he, -⟩
  · exact hs
  · rw [ha] at he
    cases he

/-- A search within a round: a tile has been settled, and its neighbours have not been looked at. -/
structure Midway (g : Grid) (start goal : Tile) (limit : Nat) (s : Search) (t c : Tile)
    (k m : Nat) : Prop where
  found : Found g start goal limit s
  chosen : Chosen g start goal s c m
  closed : ClosedBut g limit s t
  contains : g.contains t = true
  settled : s.isSettled (g.place t) = true
  steps : s.steps? (g.place t) = some k
  room : k + 1 + s.unsettled ≤ g.cells.size
  level : m + c.distance goal ≤ k + t.distance goal

/-- The first half of a round settles the tile of the first entry. -/
theorem Paused.settle {e : Entry} {rest : List Entry} (hg : g.Sound)
    (hclear : Clear g start goal limit) (hs : g.contains start = true)
    (h : Paused g start goal limit s) (ha : s.agenda = e :: rest)
    (hst : s.isSettled (g.place e.tile) = false) :
    (∃ c k m, Midway g start goal limit
      (({ s with agenda := rest } : Search).settle (g.place e.tile) e.distance) e.tile c k m) ∧
      (({ s with agenda := rest } : Search).settle (g.place e.tile) e.distance).unsettled + 1 =
        s.unsettled := by
  obtain ⟨b, n, hb⟩ := h.chosen
  have hce := (h.found.entry e (ha ▸ List.mem_cons_self ..)).1
  have hin := (h.found.traced.drop ha).settled_lt hg hce
  have hun := unsettled_settle e.distance hin hst
  have hus : ({ s with agenda := rest } : Search).unsettled = s.unsettled := rfl
  obtain ⟨k, hk, htotal, hmax, hmin⟩ := h.found.first hclear hs h.closed h.ahead ha hst
  obtain ⟨-, -, hroom⟩ := h.found.walk e.tile k hce hk
  obtain ⟨c, m, hc, hle⟩ := hb.settle hg h.found ha hk htotal hmax
  refine ⟨⟨c, k, m, ?_⟩, hun.trans hus⟩
  exact
    { found := h.found.settle hg ha hst hk hmin
      chosen := hc
      closed := closedBut_settle hg h.found ha h.closed
      contains := hce
      settled := by rw [isSettled_settle hin, decide_eq_true rfl, Bool.true_or]
      steps := steps?_settle.trans hk
      room := by omega
      level := by omega }

/-- The second half of a round looks at the neighbours. -/
theorem Midway.expand {t : Tile} (hg : g.Sound) (h : Midway g start goal limit s t c k m)
    (hopen : g.contains goal = true → s.isSettled (g.place goal) = false) :
    Widened g start goal limit c m 4 s (s.expand g goal limit t (g.place t)) ∧
      Paused g start goal limit (s.expand g goal limit t (g.place t)) := by
  by_cases hkl : k < limit
  · have hr : s.expand g goal limit t (g.place t) =
        Direction.all.foldl (relax g goal t (g.place t) k) s := by
      simp only [Search.expand, h.steps, hkl, if_true]
    have hu : Source g limit s t k := ⟨h.contains, h.settled, h.steps, hkl, h.room⟩
    obtain ⟨hw, hmet⟩ := relaxAll_widens hg Direction.all h.found h.chosen hu h.level
    rw [hr]
    refine ⟨hw, ⟨hw.found, ⟨c, m, hw.chosen⟩, ?_, fun hgc => (hw.later.settled _).trans (hopen hgc)⟩⟩
    intro v hv hsv
    by_cases hvt : v = t
    · subst hvt
      intro n hn hnl d hp
      cases (hu.later hw.later).steps.symm.trans hn
      exact hmet d (Direction.mem_all d) hp
    · rw [hw.later.settled] at hsv
      exact hw.later.closed hsv (h.closed v hv hsv hvt)
  · have hr : s.expand g goal limit t (g.place t) = s := by
      simp only [Search.expand, h.steps, hkl, if_false]
    rw [hr]
    refine ⟨⟨h.found, h.chosen, .refl s, Nat.le_add_right _ _⟩,
      ⟨h.found, ⟨c, m, h.chosen⟩, ?_, hopen⟩⟩
    intro v hv hsv
    by_cases hvt : v = t
    · subst hvt
      intro n hn hnl
      cases h.steps.symm.trans hn
      exact absurd hnl hkl
    · exact h.closed v hv hsv hvt

/-- A round takes the first entry off the agenda. -/
theorem explore_cons {e : Entry} {rest : List Entry} (goal : Tile) (limit entries : Nat)
    (hc : g.contains e.tile = true) (ha : s.agenda = e :: rest) :
    explore g goal limit (entries + 1) s =
      if s.isSettled (g.place e.tile) then explore g goal limit entries { s with agenda := rest }
      else if e.tile = goal then
        ({ s with agenda := rest } : Search).settle (g.place e.tile) e.distance
      else explore g goal limit entries ((({ s with agenda := rest } : Search).settle
        (g.place e.tile) e.distance).expand g goal limit e.tile (g.place e.tile)) := by
  simp only [explore, ha, index?_eq_place hc]
  rfl

/-- A search that may take enough entries comes to an end. -/
theorem explore_ends (hg : g.Sound) (hclear : Clear g start goal limit) (hs : g.contains start = true)
    {entries : Nat} (h : Paused g start goal limit s)
    (he : s.agenda.length + 4 * s.unsettled ≤ entries) :
    Ended g start goal limit (explore g goal limit entries s) := by
  induction entries generalizing s with
  | zero => exact h.ended hs (List.eq_nil_of_length_eq_zero (by omega))
  | succ entries ih =>
    cases ha : s.agenda with
    | nil =>
      have hr : explore g goal limit (entries + 1) s = s := by
        simp only [explore, ha]
      rw [hr]
      exact h.ended hs ha
    | cons e rest =>
      have hlen : s.agenda.length = rest.length + 1 := by
        rw [ha]
        rfl
      have hround := explore_cons goal limit entries
        (h.found.entry e (ha ▸ List.mem_cons_self ..)).1 ha
      cases hst : s.isSettled (g.place e.tile) with
      | true =>
        rw [hst, if_pos rfl] at hround
        obtain ⟨c, n, hc⟩ := h.chosen
        rw [hround]
        refine ih ⟨h.found.skip ha hst, ⟨c, n, hc.skip ha⟩, h.closed, h.ahead⟩ ?_
        change rest.length + 4 * s.unsettled ≤ entries
        omega
      | false =>
        obtain ⟨⟨c, k, m, hmid⟩, hun⟩ := h.settle hg hclear hs ha hst
        have hag : (({ s with agenda := rest } : Search).settle (g.place e.tile)
            e.distance).agenda = rest := agenda_settle
        rw [hst, if_neg Bool.false_ne_true] at hround
        rw [hround]
        split
        · rename_i hgoal
          exact ⟨hmid.found, ⟨c, m, hmid.chosen⟩,
            .inl ⟨hgoal ▸ hmid.contains, hgoal ▸ hmid.settled⟩⟩
        · rename_i hgoal
          have hin := (h.found.traced.drop ha).settled_lt hg hmid.contains
          obtain ⟨hw, hp⟩ := hmid.expand hg fun hgc => by
            rw [isSettled_settle hin, decide_eq_false fun he => hgoal (place_inj hmid.contains hgc he)]
            exact h.ahead hgc
          have h4 := hw.agenda
          rw [hag] at h4
          refine ih hp ?_
          rw [hw.later.unsettled]
          omega

theorem found_start (hg : g.Sound) (hs : g.contains start = true) :
    Found g start goal limit (Search.start g start goal (g.place start)) := by
  have ht := traced_start hg hs goal limit
  have htotal := total_reached goal start 0
  have hag : (Search.start g start goal (g.place start)).agenda = [.reached goal start 0] := rfl
  refine
    { ht with
      shortest := ?shortest, entry := ?entry, scheduled := ?scheduled, ordered := ?ordered }
  case shortest =>
    intro t ht hst
    rw [isSettled_start] at hst
    cases hst
  case entry =>
    intro x hx
    rw [hag] at hx
    obtain rfl := List.mem_singleton.mp hx
    exact ⟨hs, rfl, 0, ht.origin, Nat.le_of_eq htotal.symm⟩
  case scheduled =>
    intro t k ht hk hst
    obtain ⟨rfl, rfl⟩ := eq_start_of_met hg hs ht hk
    rw [hag]
    exact ⟨_, List.mem_singleton.mpr rfl, rfl, htotal⟩
  case ordered =>
    rw [hag]
    exact List.pairwise_singleton _ _

theorem chosen_start (hg : g.Sound) (hclear : Clear g start goal limit) (hs : g.contains start = true) :
    Chosen g start goal (Search.start g start goal (g.place start)) start 0 := by
  have hi := place_lt hg hs
  have hmax := hclear.distance_le hs
  have hdist : (Search.start g start goal (g.place start)).closestDistance =
      start.distance goal := Nat.min_eq_left hmax
  refine ⟨hs, rfl, hdist, ?_, .inl rfl, by omega, fun x hx => ?_, fun t n ht hst => ?_⟩
  · rw [steps?_start hi, if_pos rfl]
  · have hx' : x ∈ [Entry.reached goal start 0] := hx
    obtain rfl := List.mem_singleton.mp hx'
    rw [total_reached]
    omega
  · rw [isSettled_start] at hst
    cases hst

/-- A search comes to an end. -/
theorem search_ends (hg : g.Sound) (hclear : Clear g start goal limit) (hs : g.contains start = true) :
    Ended g start goal limit (g.search start goal limit (g.place start)) := by
  have hp : Paused g start goal limit (Search.start g start goal (g.place start)) := by
    refine ⟨found_start hg hs, ⟨start, 0, chosen_start hg hclear hs⟩, fun u hu hst => ?_,
      fun _ => isSettled_start _ _⟩
    rw [isSettled_start] at hst
    cases hst
  refine explore_ends hg hclear hs hp ?_
  rw [unsettled_start]
  exact Nat.le_refl _

end TileRoute.Grid.Search
