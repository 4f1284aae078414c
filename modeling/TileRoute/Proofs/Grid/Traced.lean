import TileRoute.Proofs.Grid.Agenda

/-!
# The way back

Every tile that a search has met, the start apart, lies one step from a tile that has been settled
and is one step nearer to the start. What is known of a settled tile does not change any more, so
the way back from a tile comes to the start after as many steps as the tile has. None of this
depends on the order in which the entries of the agenda are taken.
-/

namespace TileRoute.Grid.Search

variable {g : Grid} {start goal u c t : Tile} {limit k n m : Nat} {s : Search} {d : Direction}

/-- The steps of the tiles met are those of walks, and each tile met but the start has a settled
parent that is one step nearer. -/
structure Traced (g : Grid) (start : Tile) (limit : Nat) (s : Search) : Prop where
  stepsSize : s.steps.size = g.cells.size
  parentsSize : s.parents.size = g.cells.size
  settledSize : s.settled.size = g.cells.size
  origin : s.steps? (g.place start) = some 0
  walk : ∀ t k, g.contains t = true → s.steps? (g.place t) = some k →
    g.Walk start k t ∧ k ≤ limit ∧ k + s.unsettled ≤ g.cells.size
  parent : ∀ t k, g.contains t = true → s.steps? (g.place t) = some (k + 1) →
    ∃ u d, g.contains u = true ∧ u.step d = t ∧ s.parent? (g.place t) = some (g.place u) ∧
      s.isSettled (g.place u) = true ∧ s.steps? (g.place u) = some k
  listed : ∀ e ∈ s.agenda, g.contains e.tile = true ∧ ∃ k, s.steps? (g.place e.tile) = some k

theorem Traced.steps_lt (ht : Traced g start limit s) (hg : g.Sound) (hc : g.contains c = true) :
    g.place c < s.steps.size := by
  rw [ht.stepsSize]
  exact place_lt hg hc

theorem Traced.parents_lt (ht : Traced g start limit s) (hg : g.Sound)
    (hc : g.contains c = true) : g.place c < s.parents.size := by
  rw [ht.parentsSize]
  exact place_lt hg hc

theorem Traced.settled_lt (ht : Traced g start limit s) (hg : g.Sound)
    (hc : g.contains c = true) : g.place c < s.settled.size := by
  rw [ht.settledSize]
  exact place_lt hg hc

/-- At the start of a search only the start has been met. -/
theorem eq_start_of_met (hg : g.Sound) (hs : g.contains start = true) (ht : g.contains t = true)
    (hk : (Search.start g start goal (g.place start)).steps? (g.place t) = some k) :
    t = start ∧ k = 0 := by
  rw [steps?_start (place_lt hg hs)] at hk
  split at hk
  · rename_i he
    cases hk
    exact ⟨place_inj ht hs he.symm, rfl⟩
  · cases hk

theorem traced_start (hg : g.Sound) (hs : g.contains start = true) (goal : Tile) (limit : Nat) :
    Traced g start limit (Search.start g start goal (g.place start)) := by
  have horigin : (Search.start g start goal (g.place start)).steps? (g.place start) = some 0 := by
    rw [steps?_start (place_lt hg hs), if_pos rfl]
  refine
    { stepsSize := Array.size_setIfInBounds.trans Array.size_replicate
      parentsSize := Array.size_replicate
      settledSize := Array.size_replicate
      origin := horigin
      walk := ?walk, parent := ?parent, listed := ?listed }
  case walk =>
    intro t k ht hk
    obtain ⟨rfl, rfl⟩ := eq_start_of_met hg hs ht hk
    rw [unsettled_start]
    exact ⟨.stay, Nat.zero_le _, by omega⟩
  case parent =>
    intro t k ht hk
    obtain ⟨-, hz⟩ := eq_start_of_met hg hs ht hk
    cases hz
  case listed =>
    intro x hx
    have hx' : x ∈ [Entry.reached goal start 0] := hx
    obtain rfl := List.mem_singleton.mp hx'
    exact ⟨hs, 0, horigin⟩

theorem Traced.drop {e : Entry} {rest : List Entry} (ht : Traced g start limit s)
    (ha : s.agenda = e :: rest) : Traced g start limit { s with agenda := rest } :=
  { ht with listed := fun x hx => ht.listed x (ha ▸ List.mem_cons_of_mem e hx) }

theorem Traced.settle (ht : Traced g start limit s) (hg : g.Sound) (hc : g.contains c = true)
    (hs : s.isSettled (g.place c) = false) (distance : Nat) :
    Traced g start limit (s.settle (g.place c) distance) := by
  have hi := ht.settled_lt hg hc
  have hu := unsettled_settle distance hi hs
  obtain ⟨hsteps, hparents, hsettled⟩ := arrays_settle (s := s) (i := g.place c) (d := distance)
  refine
    { stepsSize := hsteps.trans ht.stepsSize
      parentsSize := hparents.trans ht.parentsSize
      settledSize := hsettled.trans ht.settledSize
      origin := steps?_settle.trans ht.origin
      walk := ?walk, parent := ?parent, listed := ?listed }
  case walk =>
    intro t n htc hn
    rw [steps?_settle] at hn
    obtain ⟨hw, hl, hroom⟩ := ht.walk t n htc hn
    exact ⟨hw, hl, by omega⟩
  case parent =>
    intro t n htc hn
    rw [steps?_settle] at hn
    obtain ⟨u, d, hcu, hd, hp, hsu, hku⟩ := ht.parent t n htc hn
    refine ⟨u, d, hcu, hd, parent?_settle.trans hp, ?_, steps?_settle.trans hku⟩
    rw [isSettled_settle hi, hsu, Bool.or_true]
  case listed =>
    intro x hx
    rw [agenda_settle] at hx
    obtain ⟨hcx, n, hn⟩ := ht.listed x hx
    exact ⟨hcx, n, steps?_settle.trans hn⟩

/-- The same tiles are settled, with the same steps, and no other tile has become farther. -/
structure Later (s s' : Search) : Prop where
  settled : ∀ i, s'.isSettled i = s.isSettled i
  unsettled : s'.unsettled = s.unsettled
  kept : ∀ i, s.isSettled i = true → s'.steps? i = s.steps? i
  steps : ∀ i k, s.steps? i = some k → ∃ n, n ≤ k ∧ s'.steps? i = some n

theorem Later.refl (s : Search) : Later s s :=
  ⟨fun _ => rfl, rfl, fun _ _ => rfl, fun _ k hk => ⟨k, Nat.le_refl k, hk⟩⟩

theorem Later.trans {a b c : Search} (h : Later a b) (k : Later b c) : Later a c where
  settled i := (k.settled i).trans (h.settled i)
  unsettled := k.unsettled.trans h.unsettled
  kept i hi := (k.kept i ((h.settled i).trans hi)).trans (h.kept i hi)
  steps i n hn := by
    obtain ⟨m, hm, hb⟩ := h.steps i n hn
    obtain ⟨l, hl, hc⟩ := k.steps i m hb
    exact ⟨l, Nat.le_trans hl hm, hc⟩

/-- A tile from which the neighbours are looked at, settled within the limit. -/
structure Source (g : Grid) (limit : Nat) (s : Search) (u : Tile) (k : Nat) : Prop where
  contains : g.contains u = true
  settled : s.isSettled (g.place u) = true
  steps : s.steps? (g.place u) = some k
  within : k < limit
  room : k + 1 + s.unsettled ≤ g.cells.size

theorem Source.later {a b : Search} {u : Tile} {k : Nat} (h : Source g limit a u k)
    (hl : Later a b) : Source g limit b u k where
  contains := h.contains
  settled := (hl.settled _).trans h.settled
  steps := (hl.kept _ h.settled).trans h.steps
  within := h.within
  room := by
    rw [hl.unsettled]
    exact h.room

/-- A neighbour that has not been met in as few steps, and may be met. -/
structure Fresh (g : Grid) (s : Search) (t : Tile) (n : Nat) : Prop where
  passable : g.passable t = true
  waiting : s.isSettled (g.place t) = false
  improves : ∀ m, s.steps? (g.place t) = some m → n < m

theorem Fresh.place_ne (hr : Fresh g s t m) {v : Tile} (hv : s.isSettled (g.place v) = true) :
    g.place t ≠ g.place v := by
  intro he
  have ho := hr.waiting
  rw [he, hv] at ho
  cases ho

/-- A look in a direction either meets a fresh neighbour, or changes nothing: the neighbour is not
passable, or settled, or has been met in as few steps. -/
theorem relax_cases (g : Grid) (goal u : Tile) (i k : Nat) (s : Search) (d : Direction) :
    Fresh g s (u.step d) (k + 1) ∧ relax g goal u i k s d =
        s.reach goal (u.step d) (g.place (u.step d)) i (k + 1) ∨
      relax g goal u i k s d = s ∧ (g.passable (u.step d) = true →
        s.isSettled (g.place (u.step d)) = false →
          ∃ n, n ≤ k + 1 ∧ s.steps? (g.place (u.step d)) = some n) := by
  cases hp : g.passable (u.step d) with
  | false =>
    have hr : relax g goal u i k s d = s := by
      simp only [relax, hp, Bool.and_false, Bool.false_and, Bool.false_eq_true, if_false]
      split <;> rfl
    exact .inr ⟨hr, nofun⟩
  | true =>
    have hi := index?_eq_place (passable_contains hp)
    cases hs : s.isSettled (g.place (u.step d)) with
    | true =>
      have hr : relax g goal u i k s d = s := by
        simp only [relax, hi, hs, Bool.not_true, Bool.false_and, Bool.false_eq_true, if_false]
      exact .inr ⟨hr, fun _ => nofun⟩
    | false =>
      cases hb : s.improves (g.place (u.step d)) (k + 1) with
      | true =>
        have hr : relax g goal u i k s d =
            s.reach goal (u.step d) (g.place (u.step d)) i (k + 1) := by
          simp only [relax, hi, hs, hp, hb, Bool.not_false, Bool.true_and, if_true]
        refine .inl ⟨⟨hp, hs, fun n hn => ?_⟩, hr⟩
        unfold improves at hb
        rw [hn] at hb
        exact of_decide_eq_true hb
      | false =>
        have hr : relax g goal u i k s d = s := by
          simp only [relax, hi, hb, Bool.and_false, Bool.false_eq_true, if_false]
        refine .inr ⟨hr, fun _ _ => ?_⟩
        unfold improves at hb
        cases hn : s.steps? (g.place (u.step d)) with
        | none =>
          rw [hn] at hb
          cases hb
        | some n =>
          rw [hn] at hb
          exact ⟨n, Nat.not_lt.mp (of_decide_eq_false hb), rfl⟩

theorem Later.of_reach (hg : g.Sound) (ht : Traced g start limit s)
    (hr : Fresh g s t m) (target : Tile) (p : Nat) :
    Later s (s.reach target t (g.place t) p m) := by
  have hi := ht.steps_lt hg (passable_contains hr.passable)
  refine ⟨fun _ => rfl, rfl, fun i hs => ?_, fun i n hn => ?_⟩
  · have hne : g.place t ≠ i := by
      rintro rfl
      cases hr.waiting.symm.trans hs
    rw [steps?_reach hi, if_neg hne]
  · rw [steps?_reach hi]
    split
    · rename_i he
      have hlt := hr.improves n (he ▸ hn)
      exact ⟨m, by omega, rfl⟩
    · exact ⟨n, Nat.le_refl n, hn⟩

theorem Traced.reach (ht : Traced g start limit s) (hg : g.Sound) (goal : Tile)
    (hu : Source g limit s u k) (hr : Fresh g s (u.step d) (k + 1)) :
    Traced g start limit
      (s.reach goal (u.step d) (g.place (u.step d)) (g.place u) (k + 1)) := by
  have hct := passable_contains hr.passable
  have hi := ht.steps_lt hg hct
  have hj := ht.parents_lt hg hct
  have hwalk := (ht.walk u k hu.contains hu.steps).1.step d hr.passable
  refine
    { stepsSize := Array.size_setIfInBounds.trans ht.stepsSize
      parentsSize := Array.size_setIfInBounds.trans ht.parentsSize
      settledSize := ht.settledSize
      origin := ?origin, walk := ?walk, parent := ?parent, listed := ?listed }
  case origin =>
    rw [steps?_reach hi]
    split
    · rename_i he
      have hlt := hr.improves 0 (he ▸ ht.origin)
      omega
    · exact ht.origin
  case walk =>
    intro v n hv hn
    rw [steps?_reach hi] at hn
    split at hn
    · rename_i he
      obtain rfl := place_inj hct hv he
      cases hn
      exact ⟨hwalk, hu.within, hu.room⟩
    · exact ht.walk v n hv hn
  case parent =>
    intro v n hv hn
    rw [steps?_reach hi] at hn
    split at hn
    · rename_i he
      obtain rfl := place_inj hct hv he
      cases hn
      refine ⟨u, d, hu.contains, rfl, ?_, hu.settled, ?_⟩
      · rw [parent?_reach hj, if_pos rfl]
      · rw [steps?_reach hi, if_neg (hr.place_ne hu.settled)]
        exact hu.steps
    · rename_i hne
      obtain ⟨p, e, hcp, he, hp, hsp, hkp⟩ := ht.parent v n hv hn
      refine ⟨p, e, hcp, he, ?_, hsp, ?_⟩
      · rw [parent?_reach hj, if_neg hne]
        exact hp
      · rw [steps?_reach hi, if_neg (hr.place_ne hsp)]
        exact hkp
  case listed =>
    intro x hx
    rcases mem_schedule.mp hx with rfl | hx
    · refine ⟨hct, k + 1, ?_⟩
      change (s.reach _ _ _ _ _).steps? (g.place (u.step d)) = _
      rw [steps?_reach hi, if_pos rfl]
    · obtain ⟨hcx, n, hn⟩ := ht.listed x hx
      obtain ⟨l, -, hl⟩ := (Later.of_reach hg ht hr goal (g.place u)).steps _ n hn
      exact ⟨hcx, l, hl⟩

/-- The place so many parents back. -/
def back? (s : Search) : Nat → Nat → Option Nat
  | 0, i => some i
  | n + 1, i => (s.parent? i).bind (s.back? n)

theorem back?_succ_of_parent {i p : Nat} (h : s.parent? i = some p) :
    s.back? (n + 1) i = s.back? n p := by
  simp only [back?, h, Option.bind_some]

theorem back?_add (s : Search) (m n i : Nat) :
    s.back? (m + n) i = (s.back? m i).bind (s.back? n) := by
  induction m generalizing i with
  | zero =>
    rw [Nat.zero_add]
    rfl
  | succ m ih =>
    rw [Nat.add_right_comm]
    simp only [back?]
    cases s.parent? i with
    | none => rfl
    | some p => exact ih p

/-- So many parents back there is a tile that is so many steps nearer to the start. -/
theorem Traced.back?_eq (ht : Traced g start limit s) (hc : g.contains c = true)
    (hk : s.steps? (g.place c) = some (n + k)) :
    ∃ u, g.contains u = true ∧ s.back? n (g.place c) = some (g.place u) ∧
      s.steps? (g.place u) = some k := by
  induction n generalizing c with
  | zero =>
    rw [Nat.zero_add] at hk
    exact ⟨c, hc, rfl, hk⟩
  | succ n ih =>
    rw [Nat.add_right_comm] at hk
    obtain ⟨u, d, hu, -, hp, -, hku⟩ := ht.parent c (n + k) hc hk
    obtain ⟨v, hv, hback, hkv⟩ := ih hu hku
    exact ⟨v, hv, (back?_succ_of_parent hp).trans hback, hkv⟩

theorem Traced.eq_start_of_zero (ht : Traced g start limit s) (hc : g.contains c = true)
    (hk : s.steps? (g.place c) = some 0) : c = start :=
  (ht.walk c 0 hc hk).1.eq_of_zero

/-- The way back from a tile is at the start after as many steps as the tile has, and at no other
time. -/
theorem Traced.back?_eq_start_iff (ht : Traced g start limit s)
    (hroot : s.parent? (g.place start) = none) (hc : g.contains c = true)
    (hk : s.steps? (g.place c) = some k) :
    s.back? n (g.place c) = some (g.place start) ↔ n = k := by
  have hstart : s.back? k (g.place c) = some (g.place start) := by
    obtain ⟨u, hu, hback, hz⟩ := ht.back?_eq (n := k) (k := 0) hc hk
    rw [hback, ht.eq_start_of_zero hu hz]
  refine ⟨fun hn => ?_, fun h => h ▸ hstart⟩
  rcases Nat.lt_trichotomy n k with hlt | rfl | hlt
  · obtain ⟨j, rfl⟩ := Nat.exists_eq_add_of_lt hlt
    obtain ⟨u, -, hback, hu⟩ := ht.back?_eq (n := n) (k := j + 1) hc hk
    have hplace : g.place u = g.place start := Option.some.inj (hback.symm.trans hn)
    rw [hplace, ht.origin] at hu
    cases hu
  · rfl
  · obtain ⟨j, rfl⟩ := Nat.exists_eq_add_of_lt hlt
    rw [Nat.add_assoc, back?_add, hstart, Option.bind_some] at hn
    simp only [back?, hroot, Option.bind_none, reduceCtorEq] at hn

/-- Going back stops at the first step of a walk, however many steps back there might have been. -/
theorem Traced.firstPlace_eq (ht : Traced g start limit s) (hc : g.contains c = true)
    (hk : s.steps? (g.place c) = some (k + 1)) :
    ∃ d, g.passable (start.step d) = true ∧ g.Walk (start.step d) k c ∧
      s.back? k (g.place c) = some (g.place (start.step d)) ∧
        ∀ fuel, k ≤ fuel →
          s.firstPlace (g.place start) fuel (g.place c) = g.place (start.step d) := by
  induction k generalizing c with
  | zero =>
    obtain ⟨u, d, hu, rfl, hp, -, hku⟩ := ht.parent c 0 hc hk
    obtain rfl := ht.eq_start_of_zero hu hku
    refine ⟨d, (ht.walk _ _ hc hk).1.passable, .stay, rfl, fun fuel _ => ?_⟩
    cases fuel with
    | zero => rfl
    | succ fuel => simp only [firstPlace, hp, if_true]
  | succ k ih =>
    obtain ⟨u, d, hu, rfl, hp, -, hku⟩ := ht.parent c (k + 1) hc hk
    have hne : g.place u ≠ g.place start := by
      intro he
      rw [he, ht.origin] at hku
      cases hku
    obtain ⟨e, he, hw, hback, hfirst⟩ := ih hu hku
    refine ⟨e, he, hw.step d (ht.walk _ _ hc hk).1.passable,
      (back?_succ_of_parent hp).trans hback, fun fuel hle => ?_⟩
    cases fuel with
    | zero => omega
    | succ fuel =>
      simp only [firstPlace, hp, hne, if_false]
      exact hfirst fuel (Nat.le_of_succ_le_succ hle)

end TileRoute.Grid.Search
