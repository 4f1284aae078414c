import Mathlib.Order.Basic
import Mathlib.Data.Nat.Find
import TileRoute.Character.Invoke
import TileRoute.Proofs.Grid.Heading

/-!
# Pursuing a goal

A body that steps toward a goal again and again looks for its way anew from every tile. What keeps it
from going to and fro is that each step either comes within reach of a tile that is closer to the
goal than those before, or is the first one of a shortest walk to a closest tile and leaves fewer to
go. Both together are the potential of a tile, which falls with every step.
-/

namespace TileRoute

variable {α : Type} {g : Grid} {goal : Tile}

namespace Grid

variable {limit v w : Nat} {t : Tile}

/-- How far the tile that a search goes for is from the goal, and then how far it is. -/
def Potential (g : Grid) (goal : Tile) (limit : Nat) (t : Tile) (v : Nat) : Prop :=
  ∃ c k, Best g t goal limit c k ∧ v = c.distance goal * max 1 limit + k

theorem best_goal (g : Grid) (goal : Tile) (limit : Nat) : Best g goal goal limit goal 0 := by
  refine ⟨.stay, Nat.zero_le _, fun t n _ _ => ?_⟩
  rw [Tile.distance_self]
  omega

theorem Best.unique {c b : Tile} {k m : Nat} (h : Best g t goal limit c k)
    (h' : Best g t goal limit b m) : c.distance goal = b.distance goal ∧ k = m := by
  have h1 := h.least b m h'.walk h'.within
  have h2 := h'.least c k h.walk h.within
  omega

theorem Potential.unique (h : Potential g goal limit t v) (h' : Potential g goal limit t w) :
    v = w := by
  obtain ⟨c, k, hc, rfl⟩ := h
  obtain ⟨b, m, hb, rfl⟩ := h'
  obtain ⟨hd, rfl⟩ := hc.unique hb
  rw [hd]

/-- A tile closer to the goal outweighs any walk within the limit. -/
theorem weight_lt {near far n : Nat} (h : near < far) (hn : n ≤ limit) :
    near * max 1 limit + n ≤ far * max 1 limit := by
  have hm : (near + 1) * max 1 limit ≤ far * max 1 limit := Nat.mul_le_mul_right _ h
  rw [Nat.add_mul, Nat.one_mul] at hm
  omega

theorem exists_best (hg : g.Sound) (hfit : Fits g goal limit) (ht : g.contains t = true) :
    ∃ c k, Best g t goal limit c k := by
  by_cases hgoal : t = goal
  · subst hgoal
    exact ⟨t, 0, best_goal g t limit⟩
  · obtain ⟨c, k, hbest, -⟩ := heading?_best hg (.fits hfit) ht hgoal
    exact ⟨c, k, hbest⟩

theorem exists_potential (hg : g.Sound) (hfit : Fits g goal limit) (ht : g.contains t = true) :
    ∃ v, Potential g goal limit t v ∧ v ≤ max 1 limit * t.distance goal := by
  obtain ⟨c, k, hbest⟩ := exists_best hg hfit ht
  refine ⟨_, ⟨c, k, hbest, rfl⟩, ?_⟩
  rw [Nat.mul_comm (max 1 limit)]
  rcases hbest.least t 0 .stay (Nat.zero_le limit) with hlt | ⟨he, hk⟩
  · exact weight_lt hlt hbest.within
  · rw [he]
    omega

/-- A step toward the goal lowers the potential. -/
theorem Potential.step (hg : g.Sound) (hfit : Fits g goal limit) (ht : g.contains t = true)
    (hv : Potential g goal limit t v) {d : Direction} (hd : g.heading? t goal limit = some d)
    (hp : g.passable (t.step d) = true) : ∃ w, Potential g goal limit (t.step d) w ∧ w < v := by
  have hne : t ≠ goal := by
    rintro rfl
    simp only [heading?, if_true, reduceCtorEq] at hd
  obtain ⟨b, m, hb⟩ := exists_best hg hfit (passable_contains hp)
  refine ⟨_, ⟨b, m, hb, rfl⟩, ?_⟩
  have hbm := hb.within
  obtain ⟨c, k, hbest, hcase⟩ := heading?_best hg (.fits hfit) ht hne
  have hpot : v = c.distance goal * max 1 limit + k := hv.unique ⟨c, k, hbest, rfl⟩
  rcases hcase with ⟨rfl, rfl, hface⟩ | ⟨e, n, rfl, hhead, -, hw⟩
  · -- The tile one step straight toward the goal is closer, so the limit cannot reach it.
    have hclose := Tile.distance_facing (hface.symm.trans hd)
    have hzero : limit = 0 := by
      by_contra hl
      have hleast := hbest.least (c.step d) 1 (Walk.stay.step d hp) (by omega)
      omega
    have hstay := hb.least (c.step d) 0 .stay (Nat.zero_le limit)
    have hmul : (b.distance goal + 1) * max 1 limit ≤ c.distance goal * max 1 limit :=
      Nat.mul_le_mul_right _ (by omega)
    rw [Nat.add_mul, Nat.one_mul] at hmul
    omega
  · obtain rfl : e = d := Option.some.inj (hhead.symm.trans hd)
    have hwithin := hbest.within
    rcases hb.least c n hw (by omega) with hlt | ⟨he, hmn⟩
    · have hlt := weight_lt hlt hbm
      omega
    · rw [hpot, he]
      omega

end Grid

namespace Body

/-- A step toward a goal. -/
def seek (g : Grid) (goal : Tile) (b : Body α) : Body α :=
  match b.heading? g goal with
  | none => b
  | some d => b.step g d

/-- So many steps toward a goal. -/
def seekFor (g : Grid) (goal : Tile) (b : Body α) : Nat → Body α
  | 0 => b
  | n + 1 => (b.seekFor g goal n).seek g goal

/-- The next step toward the goal is free. -/
def Moves (g : Grid) (goal : Tile) (b : Body α) : Prop :=
  ∃ d, b.heading? g goal = some d ∧ b.canStep g d = true

/-- A pursuit makes so many steps to as many other tiles and then rests for ever, on the goal or on a
tile from which the step toward the goal is blocked and no tile within the limit is closer. -/
structure Pursuit (g : Grid) (goal : Tile) (b : Body α) (m : Nat) : Prop where
  moves : ∀ n, n < m → (b.seekFor g goal n).Moves g goal
  fresh : ∀ i j, i < j → j ≤ m → (b.seekFor g goal i).position ≠ (b.seekFor g goal j).position
  rests : ∀ n, m ≤ n → (b.seekFor g goal n).position = (b.seekFor g goal m).position
  ends : (b.seekFor g goal m).position = goal ∨
    ∃ d, (b.seekFor g goal m).heading? g goal = some d ∧
      (b.seekFor g goal m).canStep g d = false ∧
        ∀ t n, g.Walk (b.seekFor g goal m).position n t → n ≤ b.searchLimit →
          (b.seekFor g goal m).position.distance goal ≤ t.distance goal

variable {b : Body α} {m n v : Nat}

theorem searchLimit_step (g : Grid) (b : Body α) (d : Direction) :
    (b.step g d).searchLimit = b.searchLimit := by
  simp only [step]
  split <;> rfl

theorem searchLimit_seekFor (g : Grid) (goal : Tile) (b : Body α) (n : Nat) :
    (b.seekFor g goal n).searchLimit = b.searchLimit := by
  induction n with
  | zero => rfl
  | succ n ih =>
    rw [← ih]
    simp only [seekFor, seek]
    split
    · rfl
    · exact searchLimit_step g _ _

theorem position_seek_of_moves (h : b.Moves g goal) :
    ∃ d, b.heading? g goal = some d ∧ g.passable (b.position.step d) = true ∧
      (b.seek g goal).position = b.position.step d := by
  obtain ⟨d, hd, hc⟩ := h
  refine ⟨d, hd, hc, ?_⟩
  simp only [seek, hd]
  rw [position_step, if_pos hc]

theorem position_seek_of_rests (h : ¬ b.Moves g goal) :
    (b.seek g goal).position = b.position := by
  simp only [seek]
  split
  · rfl
  · rename_i d hd
    rw [position_step, if_neg fun hc => h ⟨d, hd, hc⟩]

/-- Whether the next step is free depends on the tile and on how far the body looks ahead. -/
theorem Moves.congr {c : Body α} (hp : c.position = b.position)
    (hl : c.searchLimit = b.searchLimit) (h : c.Moves g goal) : b.Moves g goal := by
  obtain ⟨d, hd, hc⟩ := h
  refine ⟨d, ?_, ?_⟩
  · unfold heading? at hd ⊢
    rw [← hp, ← hl]
    exact hd
  · unfold canStep at hc ⊢
    rw [← hp]
    exact hc

theorem rests_of_not_moves (h : ¬ (b.seekFor g goal m).Moves g goal) (hn : m ≤ n) :
    (b.seekFor g goal n).position = (b.seekFor g goal m).position := by
  induction n, hn using Nat.le_induction with
  | base => rfl
  | succ n hn ih =>
    have hrest : ¬ (b.seekFor g goal n).Moves g goal := fun hm =>
      h (hm.congr ih ((searchLimit_seekFor g goal b n).trans (searchLimit_seekFor g goal b m).symm))
    exact (position_seek_of_rests hrest).trans ih

theorem contains_seekFor (hb : g.contains b.position = true) (n : Nat) :
    g.contains (b.seekFor g goal n).position = true := by
  induction n with
  | zero => exact hb
  | succ n ih =>
    by_cases hm : (b.seekFor g goal n).Moves g goal
    · obtain ⟨d, -, hp, hpos⟩ := position_seek_of_moves hm
      change g.contains ((b.seekFor g goal n).seek g goal).position = true
      rw [hpos]
      exact Grid.passable_contains hp
    · change g.contains ((b.seekFor g goal n).seek g goal).position = true
      rw [position_seek_of_rests hm]
      exact ih

section Falling

variable (hg : g.Sound) (hfit : g.Fits goal b.searchLimit) (hb : g.contains b.position = true)

include hg hfit hb

/-- As long as the body moves its potential falls. -/
theorem potential_seekFor {i j : Nat} (hij : i ≤ j)
    (hm : ∀ n, n < j → (b.seekFor g goal n).Moves g goal)
    (hv : g.Potential goal b.searchLimit (b.seekFor g goal i).position v) :
    ∃ w, g.Potential goal b.searchLimit (b.seekFor g goal j).position w ∧ w + (j - i) ≤ v := by
  induction j, hij using Nat.le_induction with
  | base => exact ⟨v, hv, by omega⟩
  | succ j hij ih =>
    obtain ⟨w, hw, hle⟩ := ih fun n hn => hm n (by omega)
    obtain ⟨d, hd, hp, hpos⟩ := position_seek_of_moves (hm j (Nat.lt_succ_self j))
    have hd' : g.heading? (b.seekFor g goal j).position goal b.searchLimit = some d := by
      rw [← searchLimit_seekFor g goal b j]
      exact hd
    obtain ⟨u, hu, hlt⟩ := hw.step hg hfit (contains_seekFor hb j) hd' hp
    refine ⟨u, ?_, by omega⟩
    change g.Potential goal b.searchLimit ((b.seekFor g goal j).seek g goal).position u
    rw [hpos]
    exact hu

theorem ends_of_not_moves (h : ¬ (b.seekFor g goal m).Moves g goal) :
    (b.seekFor g goal m).position = goal ∨
      ∃ d, (b.seekFor g goal m).heading? g goal = some d ∧
        (b.seekFor g goal m).canStep g d = false ∧
          ∀ t n, g.Walk (b.seekFor g goal m).position n t → n ≤ b.searchLimit →
            (b.seekFor g goal m).position.distance goal ≤ t.distance goal := by
  by_cases hgoal : (b.seekFor g goal m).position = goal
  · exact .inl hgoal
  · refine .inr ?_
    have hhead : (b.seekFor g goal m).heading? g goal =
        g.heading? (b.seekFor g goal m).position goal b.searchLimit := by
      unfold heading?
      rw [searchLimit_seekFor]
    obtain ⟨c, k, hbest, hcase⟩ :=
      Grid.heading?_best hg (.fits hfit) (contains_seekFor hb m) hgoal
    rcases hcase with ⟨rfl, rfl, hface⟩ | ⟨d, n, -, hd, hp, -⟩
    · cases hf : (b.seekFor g goal m).position.facing goal with
      | none => exact absurd (Tile.facing_eq_none_iff.mp hf) hgoal
      | some d =>
        have hd := hhead.trans (hface.trans hf)
        refine ⟨d, hd, ?_, fun t n ht hn => ?_⟩
        · rw [← Bool.not_eq_true]
          exact fun hc => h ⟨d, hd, hc⟩
        · have hleast := hbest.least t n ht hn
          omega
    · exact absurd ⟨d, hhead.trans hd, hp⟩ h

end Falling

/-- A body that steps toward a goal makes a bounded number of steps, never to a tile where it has
been, and then stays where it is. -/
theorem pursuit_ends (g : Grid) (goal : Tile) (b : Body α) (hg : g.Sound)
    (hfit : g.Fits goal b.searchLimit) (hb : g.contains b.position = true) :
    ∃ m, m ≤ max 1 b.searchLimit * b.position.distance goal ∧ Pursuit g goal b m := by
  obtain ⟨v, hv, hle⟩ := Grid.exists_potential hg hfit hb
  have hstop : ∃ n, ¬ (b.seekFor g goal n).Moves g goal := by
    by_contra hall
    have hmoves : ∀ n, (b.seekFor g goal n).Moves g goal := by
      intro n
      by_contra hn
      exact hall ⟨n, hn⟩
    obtain ⟨w, -, hw⟩ := potential_seekFor hg hfit hb (i := 0) (Nat.zero_le (v + 1))
      (fun n _ => hmoves n) hv
    omega
  classical
  have hmoves : ∀ n, n < Nat.find hstop → (b.seekFor g goal n).Moves g goal := by
    intro n hn
    by_contra hc
    exact Nat.find_min hstop hn hc
  obtain ⟨w, -, hw⟩ := potential_seekFor hg hfit hb (i := 0) (Nat.zero_le _) hmoves hv
  refine ⟨Nat.find hstop, by omega, ⟨hmoves, fun i j hij hj he => ?_,
    fun n hn => rests_of_not_moves (Nat.find_spec hstop) hn,
    ends_of_not_moves hg hfit hb (Nat.find_spec hstop)⟩⟩
  obtain ⟨p, hp, -⟩ := Grid.exists_potential hg hfit (contains_seekFor hb i)
  obtain ⟨q, hq, hlt⟩ := potential_seekFor hg hfit hb (Nat.le_of_lt hij)
    (fun n hn => hmoves n (by omega)) hp
  rw [← he] at hq
  have hpq := hp.unique hq
  omega

/-- A yard with a wall between its upper corners. -/
def yard : Grid := ⟨3, 2, .ofList [true, false, true, true, true, true]⟩

theorem drawn_yard : Grid.withBlocked? 3 2 [⟨1, 0⟩] = .ok yard := rfl

/-- A hunter in one of the corners, who looks four steps ahead. -/
def hunter : Body Float := standing ⟨0, 0⟩ 0 4

theorem pursuit_ends_hunter : ∃ m, m ≤ 8 ∧ Pursuit yard ⟨2, 0⟩ hunter m := by
  have hfit : yard.Fits ⟨2, 0⟩ hunter.searchLimit := by
    refine ⟨fun t ht => ?_⟩
    obtain ⟨-, hx, hxw, hy, hyh⟩ := Grid.contains_iff.mp ht
    change t.x < (3 : Nat) at hxw
    change t.y < (2 : Nat) at hyh
    change min 4 6 + ((t.x - 2).natAbs + (t.y - 0).natAbs) ≤ 4294967295
    omega
  exact pursuit_ends yard ⟨2, 0⟩ hunter (Grid.sound_withBlocked drawn_yard) hfit (by decide)

end Body

/-- The command that approaches a tile makes the steps of a pursuit. -/
theorem Character.body_approach (g : Grid) (c : Character α) (goal : Tile) :
    (c.approach g goal).body = c.body.seek g goal := by
  unfold approach Body.seek
  cases c.body.heading? g goal with
  | none => rfl
  | some d =>
    dsimp only
    split <;> rfl

end TileRoute
