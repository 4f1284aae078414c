import TileRoute.Proofs.Grid.Heading

/-!
# A search at every moment

A search is followed from one moment to the next, with no bound on the entries that it may take: it
takes an entry off the agenda, settles the tile unless that has been done, and looks in one direction
after the other. What the first moment has and each one hands on holds throughout. No tile is
settled twice, so that the entries run out, and from every tile met the way back to the start is as
long as the steps to the tile. The last moment has found what the search finds, and only from the
goal itself there is no heading. All this holds also where the totals of the entries saturate.
-/

namespace TileRoute.Grid

namespace Search

/-- What a search does next: it takes an entry off the agenda, or looks from a tile in the
directions ahead, or is over. -/
inductive Phase where
  | taking
  | looking (t : Tile) (i steps : Nat) (ahead : List Direction)
  | done
  deriving DecidableEq, Repr

def Phase.pending : Phase → Nat
  | .looking _ _ _ ahead => ahead.length
  | _ => 0

/-- What is to be done from a tile that has just been settled. -/
def phaseAfter (goal : Tile) (limit : Nat) (s : Search) (t : Tile) (i : Nat) : Phase :=
  if t = goal then .done
  else
    match s.steps? i with
    | some steps => if steps < limit then .looking t i steps Direction.all else .taking
    | none => .taking

/-- A search under way, the number of entries it has taken, and the tiles it has settled, the latest
first. -/
structure Moment where
  found : Search
  phase : Phase
  taken : Nat
  settled : List Tile

namespace Moment

def outset (g : Grid) (start goal : Tile) : Moment where
  found := Search.start g start goal (g.place start)
  phase := .taking
  taken := 0
  settled := []

def drop (m : Moment) (rest : List Entry) : Moment :=
  { m with found := { m.found with agenda := rest }, taken := m.taken + 1 }

def settle (goal : Tile) (limit : Nat) (m : Moment) (e : Entry) (i : Nat) : Moment where
  found := m.found.settle i e.distance
  phase := (m.found.settle i e.distance).phaseAfter goal limit e.tile i
  taken := m.taken
  settled := e.tile :: m.settled

def take (g : Grid) (goal : Tile) (limit : Nat) (m : Moment) (e : Entry) (rest : List Entry) :
    Moment :=
  match g.index? e.tile with
  | none => m.drop rest
  | some i =>
    if (m.drop rest).found.isSettled i then m.drop rest
    else (m.drop rest).settle goal limit e i

def look (g : Grid) (goal t : Tile) (i steps : Nat) (m : Moment) (d : Direction)
    (ahead : List Direction) : Moment :=
  { m with found := m.found.relax g goal t i steps d, phase := .looking t i steps ahead }

/-- The moment after this one, none when the search is over or its agenda is empty. -/
def next? (g : Grid) (goal : Tile) (limit : Nat) (m : Moment) : Option Moment :=
  match m.phase with
  | .done => none
  | .taking =>
    match m.found.agenda with
    | [] => none
    | e :: rest => some (m.take g goal limit e rest)
  | .looking _ _ _ [] => some { m with phase := .taking }
  | .looking t i steps (d :: ahead) => some (m.look g goal t i steps d ahead)

end Moment

/-- The moments of a search. -/
inductive Occurs (g : Grid) (start goal : Tile) (limit : Nat) : Moment → Prop
  | outset : Occurs g start goal limit (.outset g start goal)
  | next {m m' : Moment} (h : Occurs g start goal limit m) (hn : m.next? g goal limit = some m') :
    Occurs g start goal limit m'

variable {g : Grid} {start goal t u : Tile} {limit k i : Nat} {s : Search} {m m' : Moment}
  {d : Direction} {e : Entry} {rest : List Entry} {ahead : List Direction}

theorem Moment.next?_taking (hp : m.phase = .taking) (ha : m.found.agenda = e :: rest) :
    m.next? g goal limit = some (m.take g goal limit e rest) := by
  simp only [next?, hp, ha]

theorem Moment.next?_looked (hp : m.phase = .looking t i k []) :
    m.next? g goal limit = some { m with phase := .taking } := by
  simp only [next?, hp]

theorem Moment.next?_looking (hp : m.phase = .looking t i k (d :: ahead)) :
    m.next? g goal limit = some (m.look g goal t i k d ahead) := by
  simp only [next?, hp]

/-- Every way in which one moment comes after another. -/
theorem Moment.next?_cases (h : m.next? g goal limit = some m') :
    (∃ e rest, m.phase = .taking ∧ m.found.agenda = e :: rest ∧
        m' = m.take g goal limit e rest) ∨
      (∃ t i k, m.phase = .looking t i k [] ∧ m' = { m with phase := .taking }) ∨
        ∃ t i k d ahead, m.phase = .looking t i k (d :: ahead) ∧
          m' = m.look g goal t i k d ahead := by
  cases hp : m.phase with
  | done => simp only [next?, hp, reduceCtorEq] at h
  | taking =>
    cases ha : m.found.agenda with
    | nil => simp only [next?, hp, ha, reduceCtorEq] at h
    | cons e rest =>
      rw [next?_taking hp ha] at h
      exact .inl ⟨e, rest, rfl, rfl, (Option.some.inj h).symm⟩
  | looking t i k ahead =>
    cases ahead with
    | nil =>
      rw [next?_looked hp] at h
      exact .inr (.inl ⟨t, i, k, rfl, (Option.some.inj h).symm⟩)
    | cons d ahead =>
      rw [next?_looking hp] at h
      exact .inr (.inr ⟨t, i, k, d, ahead, rfl, (Option.some.inj h).symm⟩)

theorem Moment.take_eq (hc : g.contains e.tile = true) :
    m.take g goal limit e rest =
      if m.found.isSettled (g.place e.tile) then m.drop rest
      else (m.drop rest).settle goal limit e (g.place e.tile) := by
  unfold take
  rw [index?_eq_place hc]
  rfl

/-- The way back from every tile met ends at the start, and the search goes for a tile that has been
met. -/
structure Rooted (g : Grid) (start : Tile) (limit : Nat) (s : Search) : Prop
    extends Traced g start limit s where
  root : s.parent? (g.place start) = none
  aim : ∃ c k, g.contains c = true ∧ s.closest = g.place c ∧ s.steps? (g.place c) = some k

theorem rooted_start (hg : g.Sound) (hs : g.contains start = true) (goal : Tile) (limit : Nat) :
    Rooted g start limit (Search.start g start goal (g.place start)) := by
  have ht := traced_start hg hs goal limit
  refine { ht with root := ?root, aim := ⟨start, 0, hs, rfl, ht.origin⟩ }
  case root =>
    unfold parent? Search.start
    rw [Array.getElem?_replicate]
    split <;> rfl

theorem Rooted.drop (h : Rooted g start limit s) (ha : s.agenda = e :: rest) :
    Rooted g start limit { s with agenda := rest } :=
  { h.toTraced.drop ha with root := h.root, aim := h.aim }

theorem Rooted.settle (h : Rooted g start limit s) (hg : g.Sound) (hc : g.contains t = true)
    (hk : s.steps? (g.place t) = some k) (hs : s.isSettled (g.place t) = false) (distance : Nat) :
    Rooted g start limit (s.settle (g.place t) distance) := by
  have ht := h.toTraced.settle hg hc hs distance
  refine { ht with root := parent?_settle.trans h.root, aim := ?aim }
  case aim =>
    by_cases hlt : distance < s.closestDistance
    · exact ⟨t, k, hc, (closest_settle_of_lt hlt).1, steps?_settle.trans hk⟩
    · obtain ⟨c, n, hcc, hclosest, hn⟩ := h.aim
      exact ⟨c, n, hcc, (closest_settle_of_le (Nat.not_lt.mp hlt)).1.trans hclosest,
        steps?_settle.trans hn⟩

/-- A look in a direction keeps what has been found, and puts one entry on the agenda at most. -/
theorem Rooted.relax (h : Rooted g start limit s) (hg : g.Sound) (goal : Tile)
    (hu : Source g limit s u k) (d : Direction) :
    Rooted g start limit (s.relax g goal u (g.place u) k d) ∧
      Later s (s.relax g goal u (g.place u) k d) ∧
        (s.relax g goal u (g.place u) k d).agenda.length ≤ s.agenda.length + 1 := by
  rcases relax_cases g goal u (g.place u) k s d with ⟨hfresh, hr⟩ | ⟨hr, -⟩
  · have hct := passable_contains hfresh.passable
    have hl := Later.of_reach hg h.toTraced hfresh goal (g.place u)
    have ht := h.toTraced.reach hg goal hu hfresh
    rw [hr]
    refine ⟨{ ht with root := ?root, aim := ?aim }, hl, Nat.le_of_eq (length_schedule _ _)⟩
    case root =>
      rw [parent?_reach (h.parents_lt hg hct)]
      split
      · -- no walk to the start is shorter than the empty one
        rename_i he
        have hlt := hfresh.improves 0 (he ▸ h.origin)
        omega
      · exact h.root
    case aim =>
      obtain ⟨c, n, hcc, hclosest, hn⟩ := h.aim
      obtain ⟨j, -, hj⟩ := hl.steps _ n hn
      exact ⟨c, j, hcc, hclosest, hj⟩
  · rw [hr]
    exact ⟨h, .refl s, Nat.le_succ _⟩

/-- What the moments of a search hand on. The entries taken and to come are paid for by the tiles
settled, four for each, and by the start. -/
structure Upheld (g : Grid) (start : Tile) (limit : Nat) (m : Moment) : Prop where
  rooted : Rooted g start limit m.found
  once : m.settled.Nodup
  mem_settled_iff : ∀ t, t ∈ m.settled ↔
    g.contains t = true ∧ m.found.isSettled (g.place t) = true
  total : m.settled.length + m.found.unsettled = g.cells.size
  budget : m.taken + m.found.agenda.length + m.phase.pending ≤ 1 + 4 * m.settled.length
  looking : ∀ t i k ahead, m.phase = .looking t i k ahead →
    i = g.place t ∧ Source g limit m.found t k

theorem upheld_outset (hg : g.Sound) (hs : g.contains start = true) (goal : Tile) (limit : Nat) :
    Upheld g start limit (.outset g start goal) := by
  refine ⟨rooted_start hg hs goal limit, List.nodup_nil, fun t => ?_, ?_, Nat.le_refl 1, nofun⟩
  · refine ⟨nofun, fun ⟨_, ht⟩ => ?_⟩
    rw [show (Moment.outset g start goal).found.isSettled (g.place t) = false from
      isSettled_start _ _] at ht
    cases ht
  · exact (Nat.zero_add _).trans (unsettled_start _)

theorem phaseAfter_looking (h : s.phaseAfter goal limit u (g.place u) = .looking t i k ahead) :
    t = u ∧ i = g.place u ∧ s.steps? (g.place u) = some k ∧ k < limit ∧ ahead = Direction.all := by
  unfold phaseAfter at h
  split at h
  · cases h
  · split at h
    · rename_i n hn
      split at h
      · rename_i hlt
        cases h
        exact ⟨rfl, rfl, hn, hlt, rfl⟩
      · cases h
    · cases h

theorem pending_phaseAfter_le (goal : Tile) (limit : Nat) (s : Search) (t : Tile) (i : Nat) :
    (s.phaseAfter goal limit t i).pending ≤ 4 := by
  unfold phaseAfter
  split
  · exact Nat.zero_le 4
  · split
    · split
      · exact Nat.le_refl 4
      · exact Nat.zero_le 4
    · exact Nat.zero_le 4

theorem Upheld.drop (h : Upheld g start limit m) (hp : m.phase = .taking)
    (ha : m.found.agenda = e :: rest) : Upheld g start limit (m.drop rest) := by
  refine ⟨h.rooted.drop ha, h.once, h.mem_settled_iff, h.total, ?_, fun t i k ahead hl => ?_⟩
  · have hbudget := h.budget
    rw [ha, List.length_cons] at hbudget
    change m.taken + 1 + rest.length + m.phase.pending ≤ 1 + 4 * m.settled.length
    omega
  · cases hp.symm.trans hl

theorem Upheld.settle (h : Upheld g start limit m) (hg : g.Sound) (hp : m.phase = .taking)
    (hc : g.contains e.tile = true) (hk : m.found.steps? (g.place e.tile) = some k)
    (hs : m.found.isSettled (g.place e.tile) = false) :
    Upheld g start limit (m.settle goal limit e (g.place e.tile)) := by
  have hi := h.rooted.settled_lt hg hc
  have hun := unsettled_settle e.distance hi hs
  have htotal := h.total
  have hmem : e.tile ∉ m.settled := fun he => by
    have hset := ((h.mem_settled_iff e.tile).mp he).2
    rw [hs] at hset
    cases hset
  refine ⟨h.rooted.settle hg hc hk hs e.distance, List.nodup_cons.mpr ⟨hmem, h.once⟩,
    fun t => ?_, ?_, ?_, fun t i n ahead hl => ?_⟩
  · change t ∈ e.tile :: m.settled ↔ _ ∧ (m.found.settle _ _).isSettled _ = true
    rw [List.mem_cons, h.mem_settled_iff, isSettled_settle hi, Bool.or_eq_true_iff,
      decide_eq_true_iff]
    constructor
    · rintro (rfl | ⟨ht, hst⟩)
      · exact ⟨hc, .inl rfl⟩
      · exact ⟨ht, .inr hst⟩
    · rintro ⟨ht, he | hst⟩
      · exact .inl (place_inj ht hc he.symm)
      · exact .inr ⟨ht, hst⟩
  · change m.settled.length + 1 + (m.found.settle _ _).unsettled = g.cells.size
    omega
  · have hfour := pending_phaseAfter_le goal limit
      (m.found.settle (g.place e.tile) e.distance) e.tile (g.place e.tile)
    have hbudget := h.budget
    rw [hp] at hbudget
    change m.taken + m.found.agenda.length + 0 ≤ 1 + 4 * m.settled.length at hbudget
    change m.taken + (m.found.settle _ _).agenda.length + (phaseAfter _ _ _ _ _).pending ≤
      1 + 4 * (m.settled.length + 1)
    rw [agenda_settle]
    omega
  · obtain ⟨rfl, rfl, hn, hlt, -⟩ := phaseAfter_looking hl
    obtain ⟨-, -, hroom⟩ := h.rooted.walk e.tile n hc (steps?_settle.symm.trans hn)
    refine ⟨rfl, hc, ?_, hn, hlt, ?_⟩
    · change (m.found.settle _ _).isSettled _ = true
      rw [isSettled_settle hi, decide_eq_true rfl, Bool.true_or]
    · change n + 1 + (m.found.settle _ _).unsettled ≤ g.cells.size
      omega

theorem Upheld.take (h : Upheld g start limit m) (hg : g.Sound) (hp : m.phase = .taking)
    (ha : m.found.agenda = e :: rest) : Upheld g start limit (m.take g goal limit e rest) := by
  obtain ⟨hc, k, hk⟩ := h.rooted.listed e (ha ▸ List.mem_cons_self ..)
  have hdrop := h.drop hp ha
  rw [Moment.take_eq hc]
  split
  · exact hdrop
  · rename_i hs
    exact hdrop.settle hg hp hc hk (Bool.not_eq_true _ ▸ hs)

theorem Upheld.look (h : Upheld g start limit m) (hg : g.Sound)
    (hp : m.phase = .looking t i k (d :: ahead)) :
    Upheld g start limit (m.look g goal t i k d ahead) := by
  obtain ⟨rfl, hu⟩ := h.looking t i k _ hp
  obtain ⟨hrooted, hl, hagenda⟩ := h.rooted.relax hg goal hu d
  refine ⟨hrooted, h.once, fun v => ?_, ?_, ?_, fun t' i' k' ahead' hl' => ?_⟩
  · change v ∈ m.settled ↔ _ ∧ (m.found.relax _ _ _ _ _ _).isSettled _ = true
    rw [hl.settled]
    exact h.mem_settled_iff v
  · change m.settled.length + (m.found.relax _ _ _ _ _ _).unsettled = g.cells.size
    rw [hl.unsettled]
    exact h.total
  · have hbudget := h.budget
    rw [hp] at hbudget
    change m.taken + m.found.agenda.length + (ahead.length + 1) ≤ _ at hbudget
    change m.taken + (m.found.relax _ _ _ _ _ _).agenda.length + ahead.length ≤
      1 + 4 * m.settled.length
    omega
  · cases hl'
    exact ⟨rfl, hu.later hl⟩

theorem Upheld.looked (h : Upheld g start limit m) (hp : m.phase = .looking t i k []) :
    Upheld g start limit { m with phase := .taking } := by
  refine { h with budget := ?budget, looking := nofun }
  case budget =>
    have hbudget := h.budget
    rw [hp] at hbudget
    exact hbudget

theorem Upheld.next (h : Upheld g start limit m) (hg : g.Sound)
    (hn : m.next? g goal limit = some m') : Upheld g start limit m' := by
  rcases Moment.next?_cases hn with ⟨e, rest, hp, ha, rfl⟩ | ⟨t, i, k, hp, rfl⟩ |
    ⟨t, i, k, d, ahead, hp, rfl⟩
  · exact h.take hg hp ha
  · exact h.looked hp
  · exact h.look hg hp

theorem Occurs.upheld (h : Occurs g start goal limit m) (hg : g.Sound)
    (hs : g.contains start = true) : Upheld g start limit m := by
  induction h with
  | outset => exact upheld_outset hg hs goal limit
  | next _ hn ih => exact ih.next hg hn

theorem Upheld.taken_le (h : Upheld g start limit m) : m.taken ≤ 1 + 4 * g.cells.size := by
  have hbudget := h.budget
  have htotal := h.total
  omega

/-- The looks from a tile come to an end. -/
theorem Occurs.looked (h : Occurs g start goal limit m) (hp : m.phase = .looking t i k ahead) :
    Occurs g start goal limit
      { m with found := ahead.foldl (Search.relax g goal t i k) m.found, phase := .taking } := by
  induction ahead generalizing m with
  | nil => exact h.next (Moment.next?_looked hp)
  | cons d ahead ih => exact ih (h.next (Moment.next?_looking hp)) rfl

theorem Occurs.expanded (h : Occurs g start goal limit m)
    (hp : m.phase = m.found.phaseAfter goal limit t i) (hne : t ≠ goal) :
    ∃ m', Occurs g start goal limit m' ∧ m'.phase = .taking ∧ m'.taken = m.taken ∧
      m'.found = m.found.expand g goal limit t i := by
  unfold phaseAfter at hp
  rw [if_neg hne] at hp
  unfold expand
  cases hk : m.found.steps? i with
  | none =>
    rw [hk] at hp
    exact ⟨m, h, hp, rfl, rfl⟩
  | some k =>
    rw [hk] at hp
    dsimp only at hp ⊢
    split at hp
    · rename_i hlt
      rw [if_pos hlt]
      exact ⟨_, h.looked hp, rfl, rfl, rfl⟩
    · rename_i hlt
      rw [if_neg hlt]
      exact ⟨m, h, hp, rfl, rfl⟩

/-- The moments come to an end, and the last one has found what the search finds that may take as
many entries as there can be at most. -/
theorem Occurs.explored (h : Occurs g start goal limit m) (hg : g.Sound)
    (hs : g.contains start = true) (hp : m.phase = .taking) {entries : Nat}
    (he : 1 + 4 * g.cells.size ≤ m.taken + entries) :
    ∃ m', Occurs g start goal limit m' ∧ m'.next? g goal limit = none ∧
      m'.found = explore g goal limit entries m.found := by
  induction entries generalizing m with
  | zero =>
    have hu := h.upheld hg hs
    have hbudget := hu.budget
    have htotal := hu.total
    have ha : m.found.agenda = [] := List.eq_nil_of_length_eq_zero (by omega)
    refine ⟨m, h, ?_, rfl⟩
    simp only [Moment.next?, hp, ha]
  | succ entries ih =>
    cases ha : m.found.agenda with
    | nil =>
      refine ⟨m, h, ?_, ?_⟩
      · simp only [Moment.next?, hp, ha]
      · simp only [explore, ha]
    | cons e rest =>
      obtain ⟨hc, -⟩ := (h.upheld hg hs).rooted.listed e (ha ▸ List.mem_cons_self ..)
      have hnext := h.next (Moment.next?_taking hp ha)
      have htaken : (m.drop rest).taken = m.taken + 1 := rfl
      rw [Moment.take_eq hc] at hnext
      rw [explore_cons goal limit entries hc ha]
      cases hset : m.found.isSettled (g.place e.tile) with
      | true =>
        rw [hset, if_pos rfl] at hnext
        rw [if_pos rfl]
        exact ih hnext hp (by omega)
      | false =>
        rw [hset, if_neg Bool.false_ne_true] at hnext
        rw [if_neg Bool.false_ne_true]
        by_cases hgoal : e.tile = goal
        · rw [if_pos hgoal]
          refine ⟨_, hnext, ?_, rfl⟩
          simp only [Moment.next?, Moment.settle, phaseAfter, hgoal, if_true]
        · rw [if_neg hgoal]
          obtain ⟨x, hx, hxp, hxt, hxf⟩ := hnext.expanded rfl hgoal
          have hxtaken : x.taken = m.taken + 1 := hxt
          obtain ⟨m', hm', hend, hfound⟩ := ih hx hxp (by omega)
          exact ⟨m', hm', hend, hfound.trans (congrArg _ hxf)⟩

theorem exists_last (hg : g.Sound) (hs : g.contains start = true) (goal : Tile) (limit : Nat) :
    ∃ m, Occurs g start goal limit m ∧ m.next? g goal limit = none ∧
      m.found = g.search start goal limit (g.place start) :=
  Occurs.explored .outset hg hs rfl (Nat.le_add_left _ _)

/-- From every tile met, going back finds the direction of the first step, however many steps back
there might have been. -/
theorem Traced.find?_firstPlace (ht : Traced g start limit s) (hc : g.contains t = true)
    (hk : s.steps? (g.place t) = some (k + 1)) :
    ∃ d, g.passable (start.step d) = true ∧
      s.back? k (g.place t) = some (g.place (start.step d)) ∧
        ∀ fuel, k ≤ fuel → (Direction.all.find? fun d => start.step d ==
          g.tileAt (s.firstPlace (g.place start) fuel (g.place t))) = some d := by
  obtain ⟨d, hp, -, hback, hfirst⟩ := ht.firstPlace_eq hc hk
  refine ⟨d, hp, hback, fun fuel hle => ?_⟩
  rw [hfirst fuel hle, tileAt_place (passable_contains hp), find?_step]

/-- What holds of a search at each of its moments. -/
structure Kept (g : Grid) (start : Tile) (limit : Nat) (m : Moment) : Prop where
  once : m.settled.Nodup
  mem_settled_iff : ∀ t, t ∈ m.settled ↔
    g.contains t = true ∧ m.found.isSettled (g.place t) = true
  taken_le : m.taken ≤ 1 + 4 * (g.width * g.height)
  root : m.found.parent? (g.place start) = none
  /-- A tile that has been met is passable and within the limit, and its parent is a settled
  neighbour that is one step nearer. -/
  parent : ∀ t k, g.contains t = true → t ≠ start → m.found.steps? (g.place t) = some k →
    g.passable t = true ∧ k ≤ limit ∧
      ∃ u d j, u ∈ m.settled ∧ u.step d = t ∧ m.found.parent? (g.place t) = some (g.place u) ∧
        m.found.steps? (g.place u) = some j ∧ k = j + 1
  back : ∀ t k, g.contains t = true → m.found.steps? (g.place t) = some k →
    ∀ n, m.found.back? n (g.place t) = some (g.place start) ↔ n = k
  /-- The last place before the start on the way back is that of a neighbour of the start. -/
  first : ∀ t k, g.contains t = true → m.found.steps? (g.place t) = some (k + 1) →
    ∃ d, g.passable (start.step d) = true ∧
      m.found.back? k (g.place t) = some (g.place (start.step d)) ∧
        ∀ fuel, k ≤ fuel → (Direction.all.find? fun d => start.step d ==
          g.tileAt (m.found.firstPlace (g.place start) fuel (g.place t))) = some d
  aim : ∃ c k, g.contains c = true ∧ m.found.closest = g.place c ∧
    m.found.steps? (g.place c) = some k

theorem Upheld.kept (h : Upheld g start limit m) (hg : g.Sound) : Kept g start limit m where
  once := h.once
  mem_settled_iff := h.mem_settled_iff
  taken_le := by
    rw [← hg.size]
    exact h.taken_le
  root := h.rooted.root
  parent t k hc hne hk := by
    obtain ⟨hw, hl, -⟩ := h.rooted.walk t k hc hk
    cases k with
    | zero => exact absurd hw.eq_of_zero hne
    | succ j =>
      obtain ⟨u, d, hu, hd, hp, hs, hj⟩ := h.rooted.parent t j hc hk
      exact ⟨hw.passable, hl, u, d, j, (h.mem_settled_iff u).mpr ⟨hu, hs⟩, hd, hp, hj, rfl⟩
  back t k hc hk n := h.rooted.back?_eq_start_iff h.rooted.root hc hk
  first t k hc hk := h.rooted.find?_firstPlace hc hk
  aim := h.rooted.aim

end Search

open Search

variable {g : Grid} {start goal : Tile} {limit : Nat}

theorem heading?_eq_none_iff (hg : g.Sound) :
    g.heading? start goal limit = none ↔ start = goal := by
  by_cases hne : start = goal
  · simp only [heading?, hne, if_true]
  · refine ⟨fun hnone => ?_, fun h => absurd h hne⟩
    cases hs : g.contains start with
    | false =>
      have hi : g.index? start = none := by simp only [index?, hs, Bool.false_eq_true, if_false]
      simp only [heading?, hne, if_false, hi] at hnone
      exact Tile.facing_eq_none_iff.mp hnone
    | true =>
      rw [heading?_of_contains limit hs hne] at hnone
      split at hnone
      · exact Tile.facing_eq_none_iff.mp hnone
      · rename_i hcne
        obtain ⟨m, hm, -, hfound⟩ := exists_last hg hs goal limit
        have hroot := (hm.upheld hg hs).rooted
        rw [hfound] at hroot
        obtain ⟨c, k, hc, hclosest, hk⟩ := hroot.aim
        obtain ⟨-, -, hroom⟩ := hroot.walk c k hc hk
        cases k with
        | zero => exact absurd (hroot.eq_start_of_zero hc hk ▸ hclosest) hcne
        | succ k =>
          obtain ⟨d, -, -, hfind⟩ := hroot.find?_firstPlace hc hk
          rw [hclosest, hfind _ (by omega)] at hnone
          cases hnone

/-- A search that can be retraced at every moment and comes to an end by itself, so that there is a
heading to every other tile. -/
structure Conclusive (g : Grid) (start goal : Tile) (limit : Nat) : Prop where
  throughout : ∀ m, Occurs g start goal limit m → Kept g start limit m
  ends : ∃ m, Occurs g start goal limit m ∧ m.next? g goal limit = none ∧
    m.found = g.search start goal limit (g.place start)
  heading : g.heading? start goal limit = none ↔ start = goal

theorem search_conclusive (hg : g.Sound) (hs : g.contains start = true) (goal : Tile)
    (limit : Nat) : Conclusive g start goal limit where
  throughout _ hm := (hm.upheld hg hs).kept hg
  ends := exists_last hg hs goal limit
  heading := heading?_eq_none_iff hg

/-- A passage that turns round a pillar. -/
def bend : Grid :=
  ⟨5, 3, .ofList
    [true, false, true, true, true,
     true, true, true, false, true,
     false, false, true, true, true]⟩

theorem drawn_bend : withBlocked? 5 3 [⟨1, 0⟩, ⟨3, 1⟩, ⟨0, 2⟩, ⟨1, 2⟩] = .ok bend := rfl

/-- A goal so far away that the totals saturate. -/
def horizon : Tile := ⟨2147483647, 2147483647⟩

/-- The search goes round the pillar to a tile that is nearer the other way, and its way back is the
one that it has gone. -/
theorem search_conclusive_bend :
    bend.Sound ∧ bend.contains ⟨0, 0⟩ = true ∧ Conclusive bend ⟨0, 0⟩ horizon 12 ∧
      bend.Walk ⟨0, 0⟩ 5 ⟨3, 0⟩ ∧
        (bend.search ⟨0, 0⟩ horizon 12 0).steps? 3 = some 9 ∧
          (bend.search ⟨0, 0⟩ horizon 12 0).back? 9 3 = some 0 ∧
            bend.heading? ⟨0, 0⟩ horizon 12 = some .down := by
  have hsound := sound_withBlocked drawn_bend
  have hstart : bend.contains ⟨0, 0⟩ = true := by decide
  have hconclusive := search_conclusive hsound hstart horizon 12
  have hsteps : (bend.search ⟨0, 0⟩ horizon 12 0).steps? 3 = some 9 := by decide +kernel
  obtain ⟨m, hm, -, hfound⟩ := hconclusive.ends
  have hback := (hconclusive.throughout m hm).back ⟨3, 0⟩ 9 (by decide)
  rw [hfound] at hback
  have hwalk : bend.Walk ⟨0, 0⟩ 5 ⟨3, 0⟩ :=
    ((((Walk.stay.step .down (by decide)).step .right (by decide)).step .right (by decide)).step
      .up (by decide)).step .right (by decide)
  exact ⟨hsound, hstart, hconclusive, hwalk, hsteps, (hback hsteps 9).mpr rfl, by decide +kernel⟩

end TileRoute.Grid
