import TileRoute.Character.Tick

/-!
# Routes with a command written out

A command that asks for several steps can be replaced by as many commands for one step each. The
rest of the route keeps its order: what came behind the command comes behind the last of the copies.
A place in the one route has a slot in the other; that of the command itself depends on how many of
its steps have been made. The cursor goes on from slot to slot as it does from place to place.
-/

namespace TileRoute

variable {α : Type}

namespace Route

/-- The route with `n` single steps in place of the command at `p`. -/
def unroll (p n : Nat) (d : Direction) (r : Route α) : Route α :=
  { r with
    commands :=
      r.commands.take p ++ (List.replicate n (.step d) ++ r.commands.drop (p + 1)) }

/-- The slot of a place, once `m` of the steps at `p` have been made. -/
def slot (p n m i : Nat) : Nat :=
  if i < p then i else if i = p then p + m else i + (n - 1)

section Slot

variable {p n m i : Nat}

theorem slot_before (h : i < p) : slot p n m i = i := if_pos h

theorem slot_at : slot p n m p = p + m := by
  unfold slot
  rw [if_neg (Nat.lt_irrefl p), if_pos rfl]

theorem slot_behind (h : p < i) : slot p n m i = i + (n - 1) := by
  unfold slot
  rw [if_neg (by omega), if_neg (by omega)]

theorem slot_elsewhere (h : i ≠ p) : slot p n m i = slot p n 0 i := by
  unfold slot
  rw [if_neg h, if_neg h]

theorem slot_zero : slot p n 0 0 = 0 := by
  unfold slot
  split
  · rfl
  · split <;> omega

end Slot

section Commands

variable {r : Route α} {p n m i : Nat} {d : Direction}

theorem length_unroll (hp : p < r.length) :
    (r.unroll p n d).length = p + (n + (r.length - (p + 1))) := by
  have hl : p ≤ r.commands.length := Nat.le_of_lt hp
  show (r.commands.take p ++ (List.replicate n (Command.step d) ++
    r.commands.drop (p + 1))).length = _
  rw [List.length_append, List.length_append, List.length_replicate, List.length_drop,
    List.length_take_of_le hl]
  rfl

theorem command?_copy (hp : p < r.length) (hm : m < n) :
    (r.unroll p n d).command? (p + m) = some (.step d) := by
  have hl : (r.commands.take p).length = p := List.length_take_of_le (Nat.le_of_lt hp)
  show (r.commands.take p ++ (List.replicate n (Command.step d) ++
    r.commands.drop (p + 1)))[p + m]? = _
  rw [List.getElem?_append_right (by omega), hl, Nat.add_sub_cancel_left,
    List.getElem?_append_left (by rw [List.length_replicate]; exact hm)]
  exact List.getElem?_replicate_of_lt hm

theorem command?_slot (hp : p < r.length) (hn : 1 ≤ n) (hi : i ≠ p) :
    (r.unroll p n d).command? (slot p n m i) = r.command? i := by
  have hl : (r.commands.take p).length = p := List.length_take_of_le (Nat.le_of_lt hp)
  show (r.commands.take p ++ (List.replicate n (Command.step d) ++
    r.commands.drop (p + 1)))[slot p n m i]? = r.commands[i]?
  rcases Nat.lt_or_gt_of_ne hi with hlt | hgt
  · rw [slot_before hlt, List.getElem?_append_left (by omega), List.getElem?_take_of_lt hlt]
  · rw [slot_behind hgt, List.getElem?_append_right (by omega), hl,
      List.getElem?_append_right (by rw [List.length_replicate]; omega), List.length_replicate,
      List.getElem?_drop]
    congr 1
    omega

theorem last?_eq (r : Route α) : r.commands.getLast? = r.command? (r.length - 1) :=
  List.getLast?_eq_getElem?

theorem lt_cycleLength {command : Command α} (hc : r.command? p = some command)
    (hf : command ≠ .finish) : p < r.cycleLength := by
  have hp : p < r.length := lt_of_command? hc
  by_cases hlast : r.commands.getLast? = some .finish
  · rw [cycleLength_of_finish hlast]
    have hne : p ≠ r.length - 1 := by
      intro he
      rw [last?_eq, ← he, hc] at hlast
      exact hf (Option.some.inj hlast)
    omega
  · rw [cycleLength_of_ne_finish hlast]
    exact hp

/-- The unrolled route ends in a finish command if the route does. -/
theorem last?_unroll {command : Command α} (hc : r.command? p = some command)
    (hf : command ≠ .finish) (hn : 1 ≤ n) :
    (r.unroll p n d).commands.getLast? = some .finish ↔
      r.commands.getLast? = some .finish := by
  have hp : p < r.length := lt_of_command? hc
  have hlen := length_unroll (n := n) (d := d) hp
  rw [last?_eq, last?_eq r]
  by_cases hend : p = r.length - 1
  · have hcopy : (r.unroll p n d).length - 1 = p + (n - 1) := by omega
    rw [hcopy, command?_copy hp (by omega), ← hend, hc]
    refine ⟨fun h => ?_, fun h => ?_⟩
    · cases h
    · exact absurd (Option.some.inj h) hf
  · have hslot : (r.unroll p n d).length - 1 = slot p n 0 (r.length - 1) := by
      rw [slot_behind (by omega)]
      omega
    rw [hslot, command?_slot hp hn (by omega)]

theorem cycleLength_unroll {command : Command α} (hc : r.command? p = some command)
    (hf : command ≠ .finish) (hn : 1 ≤ n) :
    (r.unroll p n d).cycleLength = r.cycleLength + (n - 1) := by
  have hp : p < r.length := lt_of_command? hc
  have hlen := length_unroll (n := n) (d := d) hp
  exact cycleLength_add (by omega) (last?_unroll hc hf hn)

end Commands

theorem compile_unroll [Scalar α] (l : Lexicon) (r : Route α) (p n : Nat) (d : Direction) :
    (r.unroll p n d).compile l = (r.compile l).unroll p n d := by
  unfold compile
  show ite (r.compiled = true) _ _ = _
  split
  · rfl
  · simp only [unroll, List.map_append, List.map_take, List.map_drop, List.map_replicate]
    rfl

end Route

namespace Character

open Route (slot slot_at slot_before slot_behind slot_zero)

variable {r : Route α} {p n m i : Nat} {d : Direction} {command : Command α}

theorem nextCursor_copy (hc : r.command? p = some command) (hf : command ≠ .finish)
    (hm : m + 1 < n) : nextCursor (r.unroll p n d) (p + m) = p + (m + 1) := by
  have hlt := Route.lt_cycleLength hc hf
  have hcycle := Route.cycleLength_unroll (d := d) hc hf (show 1 ≤ n by omega)
  rcases nextCursor_cases (r.unroll p n d) (p + m) with ⟨-, -, h⟩ | ⟨h, -⟩
  · omega
  · rw [h]
    omega

/-- From the last copy, as from any other command, the cursor goes on to the slot of the next
place. -/
theorem nextCursor_slot (hc : r.command? p = some command) (hf : command ≠ .finish) (hn : 1 ≤ n)
    (hi : i = p → m + 1 = n) :
    nextCursor (r.unroll p n d) (slot p n m i) = slot p n 0 (nextCursor r i) := by
  have hlt := Route.lt_cycleLength hc hf
  have hcycle := Route.cycleLength_unroll (d := d) hc hf hn
  have hrep : (r.unroll p n d).repeats = r.repeats := rfl
  have hslot : slot p n m i = i ∧ i < p ∨ slot p n m i = i + (n - 1) ∧ p ≤ i := by
    rcases Nat.lt_trichotomy i p with h | h | h
    · exact .inl ⟨slot_before h, h⟩
    · have hl := hi h
      rw [h, slot_at]
      omega
    · exact .inr ⟨slot_behind h, Nat.le_of_lt h⟩
  rcases nextCursor_cases (r.unroll p n d) (slot p n m i) with ⟨hz, hr, hle⟩ | ⟨hs, hlt'⟩
  · rcases nextCursor_cases r i with ⟨hz', -, -⟩ | ⟨-, hlt''⟩
    · rw [hz, hz', slot_zero]
    · have := hlt'' (hrep ▸ hr)
      omega
  · rcases nextCursor_cases r i with ⟨-, hr, hle⟩ | ⟨hs', -⟩
    · have := hlt' (hrep ▸ hr)
      omega
    · rw [hs, hs']
      rcases hslot with ⟨he, hb⟩ | ⟨he, hb⟩
      · rw [he]
        rcases Nat.lt_or_ge (i + 1) p with h | h
        · exact (slot_before h).symm
        · have hp : i + 1 = p := by omega
          rw [hp, slot_at]
          omega
      · rw [he, slot_behind (Nat.lt_succ_of_le hb)]
        omega

end Character

end TileRoute
