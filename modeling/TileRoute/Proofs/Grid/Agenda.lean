import TileRoute.Proofs.Grid.Walk

/-!
# Bookkeeping of a search

The agenda stays ordered by the totals of its entries. What a search knows of a place changes only
where a tile is settled or reached, and there it is what was put in.
-/

namespace TileRoute.Grid

/-- The totals of the entries do not fall. -/
def Ordered (agenda : List Entry) : Prop := agenda.Pairwise fun a b => a.total ≤ b.total

theorem Entry.total_le_of_before {a b : Entry} (h : a.before b = true) : a.total ≤ b.total := by
  have hb := of_decide_eq_true h
  omega

theorem Entry.total_le_of_not_before {a b : Entry} (h : a.before b = false) :
    b.total ≤ a.total := by
  have hb := of_decide_eq_false h
  omega

theorem mem_schedule {e x : Entry} {agenda : List Entry} :
    x ∈ schedule e agenda ↔ x = e ∨ x ∈ agenda := by
  induction agenda with
  | nil => simp only [schedule, List.mem_cons]
  | cons y rest ih =>
    unfold schedule
    split
    · exact List.mem_cons
    · rw [List.mem_cons, ih, List.mem_cons]
      exact or_left_comm

theorem length_schedule (e : Entry) (agenda : List Entry) :
    (schedule e agenda).length = agenda.length + 1 := by
  induction agenda with
  | nil => rfl
  | cons y rest ih =>
    unfold schedule
    split
    · rfl
    · rw [List.length_cons, ih, List.length_cons]

theorem ordered_schedule (e : Entry) {agenda : List Entry} (h : Ordered agenda) :
    Ordered (schedule e agenda) := by
  induction agenda with
  | nil => exact List.pairwise_singleton _ _
  | cons y rest ih =>
    obtain ⟨hy, hrest⟩ := List.pairwise_cons.mp h
    unfold schedule
    split
    · rename_i hb
      have hle := Entry.total_le_of_before hb
      refine List.pairwise_cons.mpr ⟨fun x hx => ?_, h⟩
      rcases List.mem_cons.mp hx with rfl | hx
      · exact hle
      · exact Nat.le_trans hle (hy x hx)
    · rename_i hb
      have hle := Entry.total_le_of_not_before (Bool.not_eq_true _ ▸ hb)
      refine List.pairwise_cons.mpr ⟨fun x hx => ?_, ih hrest⟩
      rcases mem_schedule.mp hx with rfl | hx
      · exact hle
      · exact hy x hx

theorem ordered_cons {e : Entry} {agenda rest : List Entry} (h : Ordered agenda)
    (ha : agenda = e :: rest) : (∀ x ∈ rest, e.total ≤ x.total) ∧ Ordered rest := by
  subst ha
  exact List.pairwise_cons.mp h

namespace Search

variable {g : Grid} {s : Search} {start goal t : Tile} {i j p n distance : Nat}

theorem steps?_reach (hi : i < s.steps.size) :
    (s.reach goal t i p n).steps? j = if i = j then some n else s.steps? j := by
  unfold steps? reach
  rw [Array.getElem?_setIfInBounds, if_pos hi]
  split <;> rfl

theorem parent?_reach (hi : i < s.parents.size) :
    (s.reach goal t i p n).parent? j = if i = j then some p else s.parent? j := by
  unfold parent? reach
  rw [Array.getElem?_setIfInBounds, if_pos hi]
  split <;> rfl

theorem steps?_settle : (s.settle i distance).steps? j = s.steps? j := by
  simp only [settle]
  split <;> rfl

theorem parent?_settle : (s.settle i distance).parent? j = s.parent? j := by
  simp only [settle]
  split <;> rfl

theorem agenda_settle : (s.settle i distance).agenda = s.agenda := by
  simp only [settle]
  split <;> rfl

theorem arrays_settle {d : Nat} :
    (s.settle i d).steps.size = s.steps.size ∧ (s.settle i d).parents.size = s.parents.size ∧
      (s.settle i d).settled.size = s.settled.size := by
  simp only [settle]
  split <;> exact ⟨rfl, rfl, Array.size_setIfInBounds⟩

theorem isSettled_settle (hi : i < s.settled.size) :
    (s.settle i distance).isSettled j = (decide (i = j) || s.isSettled j) := by
  have hs : (s.settle i distance).settled = s.settled.setIfInBounds i true := by
    simp only [settle]
    split <;> rfl
  unfold isSettled
  rw [hs, Array.getElem?_setIfInBounds, if_pos hi]
  by_cases he : i = j
  · rw [if_pos he, decide_eq_true he]
    rfl
  · rw [if_neg he, decide_eq_false he]
    rfl

theorem closest_settle_of_lt (h : distance < s.closestDistance) :
    (s.settle i distance).closest = i ∧ (s.settle i distance).closestDistance = distance := by
  simp only [settle, h, if_true, and_self]

theorem closest_settle_of_le (h : s.closestDistance ≤ distance) :
    (s.settle i distance).closest = s.closest ∧
      (s.settle i distance).closestDistance = s.closestDistance := by
  simp only [settle, Nat.not_lt.mpr h, if_false, and_self]

/-- The number of places that have not been settled. -/
def unsettled (s : Search) : Nat := s.settled.count false

theorem unsettled_settle (distance : Nat) (hi : i < s.settled.size) (hn : s.isSettled i = false) :
    (s.settle i distance).unsettled + 1 = s.unsettled := by
  have hs : (s.settle i distance).settled = s.settled.set i true := by
    have hb : s.settled.setIfInBounds i true = s.settled.set i true := dif_pos hi
    simp only [settle]
    split <;> exact hb
  have hf : s.settled[i] = false := by
    unfold isSettled at hn
    rw [Array.getElem?_eq_getElem hi] at hn
    exact hn
  have hpos : 0 < s.settled.count false :=
    Array.count_pos_iff.mpr (hf ▸ Array.getElem_mem hi)
  unfold unsettled
  rw [hs, Array.count_set hi, hf]
  change s.settled.count false - 1 + 0 + 1 = _
  omega

theorem steps?_start (hi : i < g.cells.size) :
    (Search.start g start goal i).steps? j = if i = j then some 0 else none := by
  unfold steps? Search.start
  rw [Array.getElem?_setIfInBounds, Array.size_replicate, if_pos hi]
  split
  · rfl
  · rw [Array.getElem?_replicate]
    split <;> rfl

theorem isSettled_start (i j : Nat) : (Search.start g start goal i).isSettled j = false := by
  unfold isSettled Search.start
  rw [Array.getElem?_replicate]
  split <;> rfl

theorem unsettled_start (i : Nat) : (Search.start g start goal i).unsettled = g.cells.size := by
  unfold unsettled Search.start
  exact Array.count_replicate_self

end Search

end TileRoute.Grid
