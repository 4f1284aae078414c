import Mathlib.Data.Rat.Floor
import TileRoute.Motion.Shake

/-!
# Swings that subside

In exact numbers a swing goes by one stride a tick and turns beyond twice its power, so it comes no
farther than a stride beyond that, or beyond where it was when it began. Once the duration is over
it cannot pass through zero any more. What it has still to go then, out to where it turns and back
to zero, is less by a stride with every tick, and so the swing comes to rest.
-/

namespace TileRoute.Shake

variable {s : Shake Rat} {M : Rat}

theorem active_iff : s.active = true ↔ 0 < s.remaining ∨ s.offset ≠ 0 := by
  have hz : Scalar.IsZero s.offset ↔ s.offset = 0 :=
    ⟨fun h => Exact.finite.inj h, fun h => congrArg Exact.finite h⟩
  unfold active
  rw [decide_eq_true_iff, hz]

theorem arrives_iff :
    s.arrives = true ↔ s.remaining ≤ 1 ∧ s.offset * (s.offset + s.change) < 0 :=
  decide_eq_true_iff

def delta (s : Shake Rat) : Rat := s.power * s.speed / 10

theorem change_eq (s : Shake Rat) : s.change = if s.back then -s.delta else s.delta := by
  have hc : s.change = s.power * s.speed * (s.sign : Rat) / ((10 : Int) : Rat) := rfl
  rw [hc, delta, sign]
  cases s.back with
  | true =>
    simp only [if_true]
    push_cast
    ring
  | false =>
    simp only [Bool.false_eq_true, if_false]
    push_cast
    ring

theorem bound_eq (s : Shake Rat) : s.bound = 2 * s.power := by
  have hb : s.bound = s.power * ((2 : Int) : Rat) := rfl
  rw [hb]
  push_cast
  ring

theorem turnsBack_of_lt {x : Rat} (h : x < -(2 * s.power)) : s.turnsBack x = false := by
  rw [← bound_eq] at h
  exact if_pos h

theorem turnsBack_of_gt {x : Rat} (hp : 0 < s.power) (h : 2 * s.power < x) :
    s.turnsBack x = true := by
  have hlow : ¬ x < -s.bound := by
    rw [bound_eq]
    linarith
  rw [← bound_eq] at h
  exact (if_neg hlow).trans (if_pos h)

theorem turnsBack_of_le {x : Rat} (h : |x| ≤ 2 * s.power) : s.turnsBack x = s.back := by
  obtain ⟨hl, hu⟩ := abs_le.mp h
  have hlow : ¬ x < -s.bound := by
    rw [bound_eq]
    linarith
  have hhigh : ¬ s.bound < x := by
    rw [bound_eq]
    linarith
  exact (if_neg hlow).trans (if_neg hhigh)

theorem update_of_active (h : s.active = true) :
    s.update =
      { s with
        offset := s.nextOffset
        back := s.turnsBack s.nextOffset
        remaining := toCoordinate (s.remaining - 1) } := by
  simp only [update, h, if_true]

@[simp] theorem power_update (s : Shake Rat) : s.update.power = s.power := by
  unfold update
  split <;> rfl

@[simp] theorem delta_update (s : Shake Rat) : s.update.delta = s.delta := by
  unfold update
  split <;> rfl

/-- The offset is within the reach, and will be after the next change. -/
structure Within (M : Rat) (s : Shake Rat) : Prop where
  here : |s.offset| ≤ M
  next : |s.offset + s.change| ≤ M

/-- The numbers of a swing, of which an update changes none. -/
structure Swinging (M : Rat) (s : Shake Rat) : Prop where
  power : 0 < s.power
  delta : 0 < s.delta
  reach : 2 * s.power + s.delta ≤ M

theorem Swinging.update (h : Swinging M s) : Swinging M s.update := by
  refine ⟨?_, ?_, ?_⟩
  · rw [power_update]
    exact h.power
  · rw [delta_update]
    exact h.delta
  · rw [power_update, delta_update]
    exact h.reach

theorem abs_change (h : 0 < s.delta) : |s.change| = s.delta := by
  rw [change_eq]
  split
  · rw [abs_neg, abs_of_pos h]
  · exact abs_of_pos h

/-- Beyond the bound the swing turns, and up to it a change makes one stride at most. -/
theorem within_turned (h : Swinging M s) {x : Rat} (hx : |x| ≤ M) :
    |x + ({ s with back := s.turnsBack x } : Shake Rat).change| ≤ M := by
  have hp := h.power
  have hd := h.delta
  have hM := h.reach
  have hc := change_eq { s with back := s.turnsBack x }
  change _ = if s.turnsBack x then -s.delta else s.delta at hc
  obtain ⟨hl, hu⟩ := abs_le.mp hx
  rw [hc, abs_le]
  rcases lt_or_ge (2 * s.power) x with hhigh | hle
  · rw [turnsBack_of_gt hp hhigh, if_pos rfl]
    exact ⟨by linarith, by linarith⟩
  · rcases lt_or_ge x (-(2 * s.power)) with hlow | hge
    · rw [turnsBack_of_lt hlow]
      exact ⟨by simp only [Bool.false_eq_true, if_false]; linarith,
        by simp only [Bool.false_eq_true, if_false]; linarith⟩
    · split
      · exact ⟨by linarith, by linarith⟩
      · exact ⟨by linarith, by linarith⟩

theorem Within.update (h : Within M s) (hs : Swinging M s) : Within M s.update := by
  cases ha : s.active with
  | false =>
    rw [update_of_not_active ha]
    exact h
  | true =>
    have hnext : |s.nextOffset| ≤ M := by
      unfold nextOffset
      split
      · have hzero : |(Scalar.zero : Rat)| = 0 := abs_zero
        rw [hzero]
        exact le_trans (abs_nonneg _) h.here
      · exact h.next
    rw [update_of_active ha]
    exact ⟨hnext, within_turned hs hnext⟩

/-- The way to zero, by the farthest turning point if the swing goes away from zero. -/
def way (M : Rat) (s : Shake Rat) : Rat :=
  if s.offset * s.change < 0 then |s.offset| else 2 * M - |s.offset|

theorem way_le (h : |s.offset| ≤ M) : s.way M ≤ 2 * M := by
  have ha := abs_nonneg s.offset
  unfold way
  split <;> linarith

theorem way_pos (h : |s.offset| ≤ M) (ho : s.offset ≠ 0) : 0 < s.way M := by
  have ha := abs_pos.mpr ho
  unfold way
  split <;> linarith

theorem abs_add_of_toward {o c : Rat} (ht : o * c < 0) (hs : 0 < o * (o + c)) :
    |o + c| = |o| - |c| := by
  rcases mul_neg_iff.mp ht with ⟨ho, hc⟩ | ⟨ho, hc⟩
  · have hx : 0 < o + c := (pos_iff_pos_of_mul_pos hs).mp ho
    rw [abs_of_pos ho, abs_of_neg hc, abs_of_pos hx]
    ring
  · have hx : o + c < 0 := (neg_iff_neg_of_mul_pos hs).mp ho
    rw [abs_of_neg ho, abs_of_pos hc, abs_of_neg hx]
    ring

theorem turnsBack_of_toward (hs : Swinging M s) (ht : s.offset * s.change < 0)
    (hx : 0 < s.offset * (s.offset + s.change)) :
    s.turnsBack (s.offset + s.change) = s.back := by
  have hd := hs.delta
  have hc := change_eq s
  -- Beyond the bound it would turn to the side of zero, which is where it goes already.
  rcases le_or_gt |s.offset + s.change| (2 * s.power) with hle | hgt
  · exact turnsBack_of_le hle
  · rcases mul_neg_iff.mp ht with ⟨ho, hneg⟩ | ⟨ho, hpos⟩
    · have hback : s.back = true := by
        by_contra hb
        rw [if_neg hb] at hc
        linarith
      rw [abs_of_pos ((pos_iff_pos_of_mul_pos hx).mp ho)] at hgt
      rw [turnsBack_of_gt hs.power hgt, hback]
    · have hback : s.back = false := by
        by_contra hb
        rw [if_pos (Bool.not_eq_false _ ▸ hb)] at hc
        linarith
      rw [abs_of_neg ((neg_iff_neg_of_mul_pos hx).mp ho)] at hgt
      rw [turnsBack_of_lt (by linarith), hback]

/-- A tick after the duration brings a swing to rest or leaves it a stride less to go. -/
theorem way_update (hs : Swinging M s) (hw : Within M s) (hr : s.remaining ≤ 1)
    (ho : s.offset ≠ 0) (hn : s.update.offset ≠ 0) : s.update.way M + s.delta ≤ s.way M := by
  have hup := update_of_active (active_iff.mpr (.inr ho))
  have harrive : s.arrives = false := by
    by_contra ha
    rw [Bool.not_eq_false] at ha
    refine hn ?_
    rw [hup]
    exact if_pos ha
  have hnext : s.nextOffset = s.offset + s.change := by
    simp only [nextOffset, harrive, Bool.false_eq_true, if_false]
  have hoff : s.update.offset = s.offset + s.change := by
    rw [hup]
    exact hnext
  have hback : s.update.back = s.turnsBack (s.offset + s.change) := by
    rw [hup]
    exact congrArg s.turnsBack hnext
  have hsame : 0 < s.offset * (s.offset + s.change) := by
    refine lt_of_le_of_ne ?_ (mul_ne_zero ho (hoff ▸ hn)).symm
    by_contra hlt
    rw [arrives_iff.mpr ⟨hr, not_le.mp hlt⟩] at harrive
    cases harrive
  have hc := abs_change hs.delta
  have hreach := hw.next
  rcases lt_or_ge (s.offset * s.change) 0 with ht | ht
  · -- Toward zero: the direction stays, and the offset is smaller by a stride.
    have hchange : s.update.change = s.change := by
      rw [change_eq, change_eq, hback, turnsBack_of_toward hs ht hsame, delta_update]
    have hx := abs_add_of_toward ht hsame
    have htoward : s.update.offset * s.update.change < 0 := by
      rw [hoff, hchange]
      rcases mul_neg_iff.mp ht with ⟨hpos, hneg⟩ | ⟨hneg, hpos⟩
      · exact mul_neg_of_pos_of_neg ((pos_iff_pos_of_mul_pos hsame).mp hpos) hneg
      · exact mul_neg_of_neg_of_pos ((neg_iff_neg_of_mul_pos hsame).mp hneg) hpos
    unfold way
    rw [if_pos htoward, if_pos ht, hoff, hx, hc]
    linarith
  · -- Away from zero: the offset is larger by a stride, and within the reach either way is shorter.
    have hx : |s.offset + s.change| = |s.offset| + |s.change| := by
      refine abs_add_eq_add_abs_iff _ _ |>.mpr ?_
      exact nonneg_and_nonneg_or_nonpos_and_nonpos_of_mul_nonneg ht
    unfold way
    rw [if_neg (not_lt.mpr ht), hoff, hx, hc]
    rw [hx, hc] at hreach
    split <;> linarith

theorem Swinging.iterate (h : Swinging M s) (k : Nat) : Swinging M (Shake.update^[k] s) := by
  induction k with
  | zero => exact h
  | succ k ih =>
    rw [Function.iterate_succ_apply']
    exact ih.update

theorem Within.iterate (h : Within M s) (hs : Swinging M s) (k : Nat) :
    Within M (Shake.update^[k] s) := by
  induction k with
  | zero => exact h
  | succ k ih =>
    rw [Function.iterate_succ_apply']
    exact ih.update (hs.iterate k)

theorem delta_iterate (s : Shake Rat) (k : Nat) : (update^[k] s).delta = s.delta := by
  induction k with
  | zero => rfl
  | succ k ih =>
    rw [Function.iterate_succ_apply', delta_update]
    exact ih

theorem iterate_of_not_active (h : s.active = false) (k : Nat) : update^[k] s = s := by
  induction k with
  | zero => rfl
  | succ k ih => rw [Function.iterate_succ_apply', ih, update_of_not_active h]

theorem remaining_update_le (h : s.remaining ≤ 0) : s.update.remaining ≤ 0 := by
  unfold update
  split
  · change toCoordinate (s.remaining - 1) ≤ 0
    unfold toCoordinate clampSigned
    omega
  · exact h

theorem remaining_iterate_le (h : s.remaining ≤ 0) (k : Nat) :
    (update^[k] s).remaining ≤ 0 := by
  induction k with
  | zero => exact h
  | succ k ih =>
    rw [Function.iterate_succ_apply']
    exact remaining_update_le ih

theorem remaining_iterate {k : Nat} (hk : k ≤ s.remaining.toNat)
    (hmax : s.remaining < 2147483648) : (update^[k] s).remaining = s.remaining - k := by
  induction k with
  | zero => exact (Int.sub_zero _).symm
  | succ k ih =>
    have hnow := ih (by omega)
    have hactive : (update^[k] s).active = true := active_iff.mpr (.inl (by omega))
    rw [Function.iterate_succ_apply', update_of_active hactive]
    change toCoordinate ((update^[k] s).remaining - 1) = _
    rw [hnow]
    unfold toCoordinate clampSigned
    omega

/-- A swing whose duration is over has gone a stride in every tick since. -/
theorem way_iterate (hs : Swinging M s) (hw : Within M s) (hr : s.remaining ≤ 0) {k : Nat}
    (h : ∀ j ≤ k, (update^[j] s).offset ≠ 0) :
    (update^[k] s).way M + k * s.delta ≤ s.way M := by
  -- On the ticks since: with each of them the way is shorter by a stride.
  induction k with
  | zero =>
    change s.way M + ((0 : Nat) : Rat) * s.delta ≤ s.way M
    push_cast
    linarith
  | succ k ih =>
    have hbefore := ih fun j hj => h j (Nat.le_succ_of_le hj)
    have hlast := way_update (hs.iterate k) (hw.iterate hs k)
      (by have hle := remaining_iterate_le hr k; omega) (h k (Nat.le_succ k))
      (by rw [← Function.iterate_succ_apply' update k s]; exact h (k + 1) (Nat.le_refl _))
    rw [delta_iterate] at hlast
    rw [Function.iterate_succ_apply']
    push_cast
    linarith

/-- After the duration a swing comes to rest within as many ticks as there are strides on the way to
the end of its reach and back. -/
theorem exists_rest (hs : Swinging M s) (hw : Within M s) (hr : s.remaining ≤ 0) :
    ∃ k ≤ 2 * ⌈M / s.delta⌉₊, (update^[k] s).offset = 0 := by
  by_contra hnone
  have hall : ∀ j ≤ 2 * ⌈M / s.delta⌉₊, (update^[j] s).offset ≠ 0 := fun j hj hz =>
    hnone ⟨j, hj, hz⟩
  have hgone := way_iterate hs hw hr hall
  have hpos := way_pos (hw.iterate hs _).here (hall _ (Nat.le_refl _))
  have hstart := way_le hw.here
  have hceil : M ≤ ⌈M / s.delta⌉₊ * s.delta := (div_le_iff₀ hs.delta).mp (Nat.le_ceil _)
  push_cast at hgone
  linarith

theorem swinging_start (s : Shake Rat) (axis : Axis) {p v : Rat} (n : Int) (hp : 0 < p)
    (hv : 0 < v) : Swinging (max |s.offset| (2 * p) + p * v / 10) (s.start axis p v n) := by
  have hd : 0 < p * v / 10 := div_pos (mul_pos hp hv) (by norm_num)
  exact ⟨hp, hd, add_le_add_left (le_max_right _ _) _⟩

theorem within_start (s : Shake Rat) (axis : Axis) {p v : Rat} (n : Int) (hp : 0 < p)
    (hv : 0 < v) : Within (max |s.offset| (2 * p) + p * v / 10) (s.start axis p v n) := by
  have hs := swinging_start s axis n hp hv
  have hd := hs.delta
  have hc := abs_change hd
  have hsum := abs_add_le s.offset (s.start axis p v n).change
  have hmax := le_max_left |s.offset| (2 * p)
  change 0 < p * v / 10 at hd
  rw [hc] at hsum
  change _ ≤ |s.offset| + p * v / 10 at hsum
  exact ⟨by rw [offset_start]; linarith, by rw [offset_start]; linarith⟩

/-- The swing keeps within its reach `M`. It goes on for `n` ticks, and no longer than the strides
of `d` out to where it turns and back to zero take after these; then it is at zero for good. -/
structure Subsides (M d : Rat) (n : Int) (s : Shake Rat) : Prop where
  within : ∀ k, |(update^[k] s).offset| ≤ M
  rests : ∃ m, n.toNat ≤ m ∧ m ≤ n.toNat + 2 * ⌈M / d⌉₊ ∧
    (∀ k, (update^[k] s).active = true ↔ k < m) ∧ ∀ k, m ≤ k → (update^[k] s).offset = 0

theorem iterate_of_le {m k : Nat} (h : (update^[m] s).active = false) (hk : m ≤ k) :
    update^[k] s = update^[m] s := by
  obtain ⟨j, rfl⟩ := Nat.exists_eq_add_of_le hk
  rw [Nat.add_comm, Function.iterate_add_apply]
  exact iterate_of_not_active h j

theorem active_iterate_of_lt {k : Nat} (hk : k < s.remaining.toNat)
    (hmax : s.remaining < 2147483648) : (update^[k] s).active = true := by
  have hleft := remaining_iterate (Nat.le_of_lt hk) hmax
  exact active_iff.mpr (.inl (by omega))

theorem offset_of_not_active (h : s.active = false) : s.offset = 0 := by
  by_contra ho
  rw [active_iff.mpr (.inr ho)] at h
  cases h

theorem subsides_of_within (hs : Swinging M s) (hw : Within M s)
    (hmax : s.remaining < 2147483648) : Subsides M s.delta s.remaining s := by
  classical
  -- The duration is over after as many updates as it has ticks.
  have hover : (update^[s.remaining.toNat] s).remaining ≤ 0 := by
    have hleft := remaining_iterate (Nat.le_refl _) hmax
    omega
  obtain ⟨k, hk, hzero⟩ := exists_rest (hs.iterate _) (hw.iterate hs _) hover
  rw [delta_iterate] at hk
  rw [← Function.iterate_add_apply] at hzero
  have hstill : (update^[k + s.remaining.toNat] s).active = false := by
    have hleft := remaining_iterate_le hover k
    rw [← Function.iterate_add_apply] at hleft
    by_contra ha
    rcases active_iff.mp (Bool.not_eq_false _ ▸ ha) with h | h
    · omega
    · exact h hzero
  have hsome : ∃ m, (update^[m] s).active = false := ⟨_, hstill⟩
  have hfirst := Nat.find_spec hsome
  refine ⟨fun j => (hw.iterate hs j).here, Nat.find hsome, ?_, ?_, fun j => ⟨?_, ?_⟩, ?_⟩
  · by_contra hlt
    rw [active_iterate_of_lt (not_le.mp hlt) hmax] at hfirst
    cases hfirst
  · have hle := Nat.find_min' hsome hstill
    omega
  · intro ha
    by_contra hj
    rw [iterate_of_le hfirst (not_lt.mp hj), hfirst] at ha
    cases ha
  · intro hj
    exact Bool.not_eq_false _ ▸ Nat.find_min hsome hj
  · intro j hj
    rw [iterate_of_le hfirst hj]
    exact offset_of_not_active hfirst

/-- A swing with positive power and speed subsides, wherever it starts from. It comes no farther
than one stride beyond where it was and beyond twice its power, whichever is more: from rest, one
stride beyond twice its power. -/
theorem start_subsides (s : Shake Rat) (axis : Axis) {p v : Rat} {n : Int} (hp : 0 < p)
    (hv : 0 < v) (hn : n < 2147483648) :
    Subsides (max |s.offset| (2 * p) + p * v / 10) (p * v / 10) n (s.start axis p v n) ∧
      (s.offset = 0 → ∀ k, |(update^[k] (s.start axis p v n)).offset| ≤ 2 * p + p * v / 10) := by
  have h := subsides_of_within (swinging_start s axis n hp hv) (within_start s axis n hp hv) hn
  refine ⟨h, fun hrest k => ?_⟩
  have hk := h.within k
  rw [hrest, abs_zero, max_eq_right (by linarith)] at hk
  exact hk

/-- An earlier swing that has not come back yet. -/
def aside : Shake Rat := { still with offset := -9, back := true }

theorem start_subsides_aside :
    (0 : Rat) < 3 ∧ (0 : Rat) < 1 ∧ (7 : Int) < 2147483648 ∧
      Subsides (max |aside.offset| (2 * 3) + 3 * 1 / 10) (3 * 1 / 10) 7
          (aside.start .horizontal 3 1 7) ∧
        (still.offset = (0 : Rat) → ∀ k,
          |(update^[k] ((still : Shake Rat).start .horizontal 3 1 7)).offset| ≤
            2 * 3 + 3 * 1 / 10) :=
  ⟨by norm_num, by norm_num, by decide,
    (start_subsides aside .horizontal (by norm_num) (by norm_num) (by decide)).1,
    (start_subsides still .horizontal (by norm_num) (by norm_num) (by decide)).2⟩

end TileRoute.Shake
