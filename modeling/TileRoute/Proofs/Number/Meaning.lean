import TileRoute.Proofs.Number.Binary64

/-!
# Numbers with a meaning

A 64-bit number may stand for nothing, and is then neither below another nor above it. A product or
a quotient of numbers that stand for something does so too as long as the second one is neither zero
nor infinite, and so does every decimal.
-/

namespace TileRoute

theorem Exact.not_le_iff {a b : Exact} (ha : a ≠ .undefined) (hb : b ≠ .undefined) :
    ¬ a ≤ b ↔ b < a := by
  rw [Exact.le_iff]
  cases a with
  | undefined => exact absurd rfl ha
  | finite r =>
    cases b with
    | undefined => exact absurd rfl hb
    | finite s =>
      have hs : (finite r = finite s ∧ finite r ≠ undefined) ↔ r = s := by simp
      rw [hs, finite_lt_finite, finite_lt_finite, ← Rat.le_iff_lt_or_eq, Rat.not_le]
    | infinite n => cases n <;> simp [LT.lt, Below]
  | infinite m =>
    cases b with
    | undefined => exact absurd rfl hb
    | finite s => cases m <;> simp [LT.lt, Below]
    | infinite n => cases m <;> cases n <;> simp [LT.lt, Below]

namespace Scalar

variable {α : Type} [Scalar α]

/-- The number stands for something. -/
def Meaningful (x : α) : Prop := exact x ≠ .undefined

/-- A number that stands for something is greater than another if it is not at most that one. -/
theorem not_le_iff {x y : α} (hx : Meaningful x) (hy : Meaningful y) : ¬ Le x y ↔ Lt y x :=
  Exact.not_le_iff hx hy

end Scalar

namespace Binary64

open Float.Model Float.Model.UnpackedFloat Scalar

/-- If the exponent is full, the mantissa is empty: the number is an infinity. -/
def Sane (b : BitVec Format.binary64.numBits) : Prop :=
  unpackExponent b = -1#_ → unpackMantissa b = 0#_

theorem sane_packComponents {s : Sign} {e : BitVec Format.binary64.exponentBits} {m : BitVec 52} :
    Sane (packComponents Format.binary64 s e m) ↔ (e = -1#_ → m = 0#_) := by
  unfold Sane
  rw [unpackExponent_packComponents, unpackMantissa_packComponents]

theorem sane_pack {u : UnpackedFloat} (h : u ≠ .notANumber) :
    Sane (UnpackedFloat.pack Format.binary64 u) := by
  cases u with
  | notANumber => exact absurd rfl h
  | infinity s => exact sane_packComponents.mpr fun _ => rfl
  | zero s => exact sane_packComponents.mpr fun _ => rfl
  | finite s m e hm =>
    simp only [UnpackedFloat.pack]
    split
    · exact sane_packComponents.mpr fun _ => rfl
    · rename_i hsmall
      split
      · refine sane_packComponents.mpr fun hfull => absurd (congrArg BitVec.toNat hfull) ?_
        rw [BitVec.toNat_ofNat]
        change ¬ _ = 2047
        change ¬ 2048 ≤ _ at hsmall
        omega
      · exact sane_packComponents.mpr fun hfull => absurd hfull (by decide)

theorem unpack_ne_iff {b : BitVec Format.binary64.numBits} :
    UnpackedFloat.unpack Format.binary64 b ≠ .notANumber ↔ Sane b := by
  unfold Sane
  simp only [UnpackedFloat.unpack]
  split
  · split <;> simp_all
  · split
    · split <;> simp_all
    · simp_all

theorem toNat_unpackExponent (b : BitVec Format.binary64.numBits) :
    (unpackExponent b).toNat = b.toNat / 4503599627370496 % 2048 := by
  change b.toNat >>> 52 % 2 ^ 11 = _
  rw [Nat.shiftRight_eq_div_pow]

theorem toNat_unpackMantissa (b : BitVec Format.binary64.numBits) :
    (unpackMantissa b).toNat = b.toNat % 4503599627370496 := rfl

theorem meaningful_iff_sane {x : Float} : Meaningful x ↔ Sane x.toBits.toBitVec := by
  have hexponent : @unpackExponent Format.binary64 x.toBits.toBitVec = -1#_ ↔
      Binary.exponentField x.toBits = 2047 := by
    rw [← BitVec.toNat_inj, toNat_unpackExponent]
    rfl
  have hmantissa : @unpackMantissa Format.binary64 x.toBits.toBitVec = 0#_ ↔
      Binary.fraction x.toBits = 0 := by
    rw [← BitVec.toNat_inj, toNat_unpackMantissa]
    rfl
  unfold Sane
  rw [hexponent, hmantissa]
  change Exact.ofBits x.toBits ≠ .undefined ↔ _
  unfold Exact.ofBits
  split
  · split <;> simp_all
  · simp_all

theorem meaningful_iff {x : Float} : Meaningful x ↔ x.toModel.unpack ≠ .notANumber :=
  meaningful_iff_sane.trans unpack_ne_iff.symm

theorem meaningful_pack {u : UnpackedFloat} (h : u ≠ .notANumber) :
    Meaningful (Float.ofModel (Float.Model.pack u)) :=
  meaningful_iff_sane.mpr (sane_pack h)

theorem ne_of_isNaN {u : UnpackedFloat} (h : u.isNaN = false) : u ≠ .notANumber := by
  rintro rfl
  cases h

theorem roundWithAccuracy_ne (s : Sign) (m : Nat) (e : Int) (a : Accuracy) :
    roundWithAccuracy Format.binary64 s m e a ≠ .notANumber := by
  simp only [roundWithAccuracy]
  split <;> exact ne_of_isNaN rfl

/-- Neither nothing nor a zero nor an infinity. -/
def proper : UnpackedFloat → Bool
  | .finite .. => true
  | _ => false

theorem exists_of_proper {u : UnpackedFloat} (h : proper u = true) :
    ∃ s m e, ∃ hm : 0 < m, u = .finite s m e hm := by
  cases u with
  | notANumber => cases h
  | infinity s => cases h
  | zero s => cases h
  | finite s m e hm => exact ⟨s, m, e, hm, rfl⟩

theorem mul_ne {u v : UnpackedFloat} (hu : u ≠ .notANumber) (hv : proper v = true) :
    UnpackedFloat.mul Format.binary64 u v ≠ .notANumber := by
  obtain ⟨t, n, f, hn, rfl⟩ := exists_of_proper hv
  cases u with
  | notANumber => exact absurd rfl hu
  | infinity s => exact ne_of_isNaN rfl
  | zero s => exact ne_of_isNaN rfl
  | finite s m e hm => exact roundWithAccuracy_ne _ _ _ _

theorem div_ne {u v : UnpackedFloat} (hu : u ≠ .notANumber) (hv : proper v = true) :
    UnpackedFloat.div Format.binary64 u v ≠ .notANumber := by
  obtain ⟨t, n, f, hn, rfl⟩ := exists_of_proper hv
  cases u with
  | notANumber => exact absurd rfl hu
  | infinity s => exact ne_of_isNaN rfl
  | zero s => exact ne_of_isNaN rfl
  | finite s m e hm => exact roundWithAccuracy_ne _ _ _ _

theorem ofInt_ne (i : Int) : UnpackedFloat.ofInt Format.binary64 i ≠ .notANumber := by
  simp only [UnpackedFloat.ofInt, UnpackedFloat.normalize]
  split
  · exact roundWithAccuracy_ne _ _ _ _
  · exact ne_of_isNaN rfl
  · exact roundWithAccuracy_ne _ _ _ _

theorem ofScientific_ne (m : Nat) (e : Int) :
    UnpackedFloat.ofScientific Format.binary64 m e ≠ .notANumber := by
  unfold UnpackedFloat.ofScientific
  split
  · exact ne_of_isNaN rfl
  · split
    · exact ne_of_isNaN rfl
    · split
      · exact ne_of_isNaN rfl
      · split
        · exact mul_ne (ne_of_isNaN rfl) rfl
        · exact div_ne (ne_of_isNaN rfl) rfl

variable {x y : Float}

theorem meaningful_mul (hx : Meaningful x) (hy : proper y.toModel.unpack = true) :
    Meaningful (x * y) :=
  meaningful_pack (mul_ne (meaningful_iff.mp hx) hy)

theorem meaningful_div (hx : Meaningful x) (hy : proper y.toModel.unpack = true) :
    Meaningful (x / y) :=
  meaningful_pack (div_ne (meaningful_iff.mp hx) hy)

theorem meaningful_neg (hx : Meaningful x) : Meaningful (-x) := by
  refine meaningful_pack ?_
  have hu := meaningful_iff.mp hx
  cases h : x.toModel.unpack with
  | notANumber => exact absurd h hu
  | infinity s => exact ne_of_isNaN rfl
  | zero s => exact ne_of_isNaN rfl
  | finite s m e hm => exact ne_of_isNaN rfl

theorem proper_exactlyRepresentable :
    ∀ p ∈ Float.exactlyRepresentablePowersOfTen, proper p.toModel.unpack = true := by
  decide +kernel

theorem meaningful_ofScientific (m : Nat) (negative : Bool) (e : Nat) :
    Meaningful (Float.ofScientific m negative e) := by
  unfold Float.ofScientific
  split
  · have hm : Meaningful m.toUInt64.toFloat := meaningful_pack (ofInt_ne _)
    dsimp only
    split
    · exact meaningful_div hm (proper_exactlyRepresentable _ (Array.getElem_mem _))
    · exact meaningful_mul hm (proper_exactlyRepresentable _ (Array.getElem_mem _))
  · exact meaningful_pack (ofScientific_ne m _)

theorem meaningful_ofNat (n : Nat) : Meaningful (Float.ofNat n) := meaningful_ofScientific n false 0

theorem meaningful_ofInt (i : Int) : Meaningful (Float.ofInt i) := by
  cases i with
  | ofNat n => exact meaningful_ofNat n
  | negSucc n => exact meaningful_neg (meaningful_ofNat (n + 1))

theorem mantissa_shiftRight (x : ExtendedMantissa) (k : Nat) :
    (x >>> k).mantissa = x.mantissa / 2 ^ k := by
  induction k with
  | zero => exact (Nat.div_one _).symm
  | succ k ih =>
    change (x >>> k).mantissa / 2 = _
    rw [ih, Nat.div_div_eq_div_mul, ← Nat.pow_succ]

theorem mantissa_ofMantissaAndAccuracy (m : Nat) (a : Accuracy) :
    (ExtendedMantissa.ofMantissaAndAccuracy m a).mantissa = m := by
  cases a with
  | exact => rfl
  | inexact o => cases o <;> rfl

theorem roundedMantissa_bounds (x : ExtendedMantissa) :
    x.mantissa ≤ x.roundedMantissa ∧ x.roundedMantissa ≤ x.mantissa + 1 := by
  have hround : ∀ a : Accuracy, x.mantissa ≤ a.roundToNearestEven x.mantissa ∧
      a.roundToNearestEven x.mantissa ≤ x.mantissa + 1 := by
    intro a
    cases a with
    | exact => exact ⟨Nat.le_refl _, Nat.le_succ _⟩
    | inexact o =>
      cases o with
      | lt => exact ⟨Nat.le_refl _, Nat.le_succ _⟩
      | gt => exact ⟨Nat.le_succ _, Nat.le_refl _⟩
      | eq =>
        change _ ≤ x.mantissa + x.mantissa % 2 ∧ x.mantissa + x.mantissa % 2 ≤ _
        omega
  exact hround x.accuracy

theorem ne_zero_of_log2 {m : Nat} (hm : m.log2 = 52) : m ≠ 0 := by
  rintro rfl
  cases hm

theorem log2_div_two_pow {m : Nat} (hm : 52 ≤ m.log2) : (m / 2 ^ (m.log2 - 52)).log2 = 52 := by
  have hz : m ≠ 0 := by
    rintro rfl
    cases hm
  have hp := Nat.two_pow_pos (m.log2 - 52)
  have hl : 2 ^ 52 ≤ m / 2 ^ (m.log2 - 52) := by
    rw [Nat.le_div_iff_mul_le hp, ← Nat.pow_add, Nat.add_sub_cancel' hm]
    exact Nat.log2_self_le hz
  have hu : m / 2 ^ (m.log2 - 52) < 2 ^ 53 := by
    have hs : 53 + (m.log2 - 52) = m.log2 + 1 := by omega
    rw [Nat.div_lt_iff_lt_mul hp, ← Nat.pow_add, hs]
    exact Nat.lt_log2_self
  exact (Nat.log2_eq_iff (by omega)).mpr ⟨hl, hu⟩

/-- A number that is not subnormal keeps 53 bits. -/
theorem shiftToTargetExponent_normal {m : Nat} (hm : 52 ≤ m.log2) {e : Int}
    (he : -1074 ≤ (m.log2 : Int) - 52 + e) (a : Accuracy) :
    (shiftToTargetExponent Format.binary64 m e a).1.mantissa = m / 2 ^ (m.log2 - 52) ∧
      (shiftToTargetExponent Format.binary64 m e a).2 = (m.log2 : Int) - 52 + e := by
  have ht : Format.binary64.targetExponent (totalExponent m e) = (m.log2 : Int) - 52 + e := by
    rw [targetExponent_eq, totalExponent]
    omega
  have hk : ((m.log2 : Int) - 52 + e - e).toNat = m.log2 - 52 := by omega
  simp only [shiftToTargetExponent, shiftToExponent, ht, hk, mantissa_shiftRight,
    mantissa_ofMantissaAndAccuracy, true_and]
  omega

theorem roundWithAccuracy_normal {m : Nat} (hm : 52 ≤ m.log2) {e : Int}
    (hl : -1074 ≤ (m.log2 : Int) - 52 + e) (hu : (m.log2 : Int) - 52 + e < 971) (s : Sign)
    (a : Accuracy) :
    ∃ n f, ∃ hn : 0 < n, roundWithAccuracy Format.binary64 s m e a = .finite s n f hn ∧
      n.log2 = 52 ∧ -1074 ≤ f ∧ f < 972 := by
  obtain ⟨hmantissa, hexponent⟩ := shiftToTargetExponent_normal hm hl a
  obtain ⟨hlow, hhigh⟩ :=
    roundedMantissa_bounds (shiftToTargetExponent Format.binary64 m e a).1
  rw [hmantissa] at hlow hhigh
  have hq := log2_div_two_pow hm
  obtain ⟨hql, hqu⟩ := (Nat.log2_eq_iff (ne_zero_of_log2 hq)).mp hq
  obtain ⟨r, hr⟩ : ∃ r, (shiftToTargetExponent Format.binary64 m e a).1.roundedMantissa = r :=
    ⟨_, rfl⟩
  rw [hr] at hlow hhigh
  -- rounding up may give one bit more
  have hrl : 52 ≤ r.log2 := (Nat.le_log2 (by omega)).mpr (by omega)
  have hru : r.log2 < 54 := (Nat.log2_lt (by omega)).mpr (by omega)
  obtain ⟨hm', he'⟩ := shiftToTargetExponent_normal hrl (e := (m.log2 : Int) - 52 + e)
    (by omega) .exact
  have hn := log2_div_two_pow hrl
  have hp := ne_zero_of_log2 hn
  refine ⟨r / 2 ^ (r.log2 - 52), (r.log2 : Int) - 52 + ((m.log2 : Int) - 52 + e),
    Nat.pos_of_ne_zero hp, ?_, hn, by omega, by omega⟩
  simp only [roundWithAccuracy, hr, hexponent, hm', he']
  rw [dif_neg hp]

theorem proper_pack_normal {m : Nat} (hm : 52 ≤ m.log2) {e : Int}
    (hl : -1074 ≤ (m.log2 : Int) - 52 + e) (hu : (m.log2 : Int) - 52 + e < 971) (a : Accuracy) :
    proper (Float.Model.pack
      (roundWithAccuracy Format.binary64 .positive m e a)).unpack = true := by
  obtain ⟨n, f, hn, hround, hlog, hfl, hfu⟩ := roundWithAccuracy_normal hm hl hu .positive a
  change proper (UnpackedFloat.unpack Format.binary64 (UnpackedFloat.pack Format.binary64 _)) = true
  rw [hround, pack_finite hlog hn hfu, unpack_normalBits hlog hn hfl hfu]
  rfl

end Binary64

end TileRoute
