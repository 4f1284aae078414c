import Mathlib
import TileRoute.Proofs.Number.Counting

/-!
# Counting with 64-bit numbers

A 64-bit number has 53 significant bits and a count has 32, so the conversion never drops one: the
mantissa of a count is the count shifted until its highest bit is the leading one.
-/

namespace TileRoute

namespace Binary64

open Float.Model Float.Model.UnpackedFloat

theorem log2_mul_two_pow {m : Nat} (hm : m ≠ 0) (k : Nat) : (m * 2 ^ k).log2 = m.log2 + k := by
  refine (Nat.log2_eq_iff ?_).mpr ⟨?_, ?_⟩
  · exact Nat.mul_ne_zero hm (Nat.two_pow_pos k).ne'
  · rw [Nat.pow_add]
    exact Nat.mul_le_mul_right _ (Nat.log2_self_le hm)
  · have hs : m.log2 + k + 1 = m.log2 + 1 + k := by omega
    rw [hs, Nat.pow_add]
    exact Nat.mul_lt_mul_of_pos_right Nat.lt_log2_self (Nat.two_pow_pos k)

theorem shiftRight_exact (m k : Nat) :
    (⟨m * 2 ^ k, false, false⟩ : ExtendedMantissa) >>> k = ⟨m, false, false⟩ := by
  induction k generalizing m with
  | zero => simp only [Nat.pow_zero, Nat.mul_one]; rfl
  | succ k ih =>
    have hs : m * 2 ^ (k + 1) = m * 2 * 2 ^ k := by ring
    rw [hs]
    change ExtendedMantissa.shiftRightOne ((⟨m * 2 * 2 ^ k, false, false⟩ : ExtendedMantissa) >>> k) = _
    rw [ih]
    simp only [ExtendedMantissa.shiftRightOne]
    have h1 : m * 2 / 2 = m := by omega
    have h2 : (m * 2 % 2 != 0) = false := by simp
    rw [h1, h2]
    rfl

theorem targetExponent_eq (t : Int) :
    Format.binary64.targetExponent t = max (t - 53) (-1074) := by
  simp only [Format.targetExponent]
  rfl

theorem shiftToTargetExponent_exact {m : Nat} (hm : m.log2 = 52) {e : Int} (he : -1074 ≤ e)
    (k : Nat) :
    shiftToTargetExponent Format.binary64 (m * 2 ^ k) (e - k) .exact = (⟨m, false, false⟩, e) := by
  have hz : m ≠ 0 := by
    rintro rfl
    cases hm
  have ht : Format.binary64.targetExponent (totalExponent (m * 2 ^ k) (e - k)) = e := by
    rw [targetExponent_eq, totalExponent, log2_mul_two_pow hz, hm]
    omega
  have hk : (e - (e - (k : Int))).toNat = k := by omega
  simp only [shiftToTargetExponent, shiftToExponent, ht, hk, ExtendedMantissa.ofMantissaAndAccuracy]
  rw [shiftRight_exact]
  simp

theorem roundWithAccuracy_exact {m : Nat} (hm : m.log2 = 52) (hp : 0 < m) {e : Int}
    (he : -1074 ≤ e) (k : Nat) (s : Sign) :
    roundWithAccuracy Format.binary64 s (m * 2 ^ k) (e - k) .exact = .finite s m e hp := by
  have h0 := shiftToTargetExponent_exact hm he 0
  simp only [Nat.pow_zero, Nat.mul_one, Nat.cast_zero, Int.sub_zero] at h0
  have hr : ExtendedMantissa.roundedMantissa ⟨m, false, false⟩ = m := rfl
  simp only [roundWithAccuracy, shiftToTargetExponent_exact hm he k, hr, h0]
  rw [dif_neg (by omega)]

/-- The bits of a positive number whose mantissa has its leading bit. -/
def normalBits (m : Nat) (e : Int) : BitVec Format.binary64.numBits :=
  packComponents Format.binary64 .positive (BitVec.ofNat 11 (e + 1075).toNat) (BitVec.ofNat 52 m)

theorem pack_finite {m : Nat} (hm : m.log2 = 52) (hp : 0 < m) {e : Int} (he : e < 972) :
    UnpackedFloat.pack Format.binary64 (.finite .positive m e hp) = normalBits m e := by
  have hb : (e + Format.binary64.exponentBias +
      Format.binary64.mantissaBitsWithoutImplicit).toNat = (e + 1075).toNat := by
    change (e + 1023 + 52).toNat = _
    omega
  have hn : ¬ 2 ^ Format.binary64.exponentBits ≤ (e + 1075).toNat + 1 := by
    change ¬ 2048 ≤ _
    omega
  have hl : m.log2 + 1 = Format.binary64.mantissaBits := by rw [hm]; rfl
  simp only [UnpackedFloat.pack, hb]
  rw [if_neg hn, if_pos hl]
  rfl

theorem toNat_packComponents (b : BitVec 11) (m : BitVec 52) :
    (packComponents Format.binary64 .positive b m).toNat = b.toNat * 2 ^ 52 + m.toNat := by
  have hs : (Sign.positive.toBitVec ++ b).toNat = b.toNat := by
    change ((0#1 : BitVec 1) ++ b).toNat = b.toNat
    rw [BitVec.toNat_append]
    simp
  change ((Sign.positive.toBitVec ++ b) ++ m).toNat = _
  rw [BitVec.toNat_append, hs, ← Nat.shiftLeft_add_eq_or_of_lt m.isLt, Nat.shiftLeft_eq]

theorem mod_of_log2 {m : Nat} (hm : m.log2 = 52) (hp : 0 < m) :
    m % 2 ^ 52 = m - 2 ^ 52 ∧ 2 ^ 52 ≤ m ∧ m < 2 ^ 53 := by
  obtain ⟨hl, hu⟩ := (Nat.log2_eq_iff (by omega)).mp hm
  omega

theorem toNat_normalBits {m : Nat} (hm : m.log2 = 52) (hp : 0 < m) {e : Int} (he : e < 972) :
    (normalBits m e).toNat = (e + 1075).toNat * 2 ^ 52 + (m - 2 ^ 52) := by
  have hb : (e + 1075).toNat < 2 ^ 11 := by omega
  rw [normalBits, toNat_packComponents, BitVec.toNat_ofNat, BitVec.toNat_ofNat,
    Nat.mod_eq_of_lt hb, (mod_of_log2 hm hp).1]

theorem unpackSign_normalBits {m : Nat} (hm : m.log2 = 52) (hp : 0 < m) {e : Int}
    (he : e < 972) : unpackSign (normalBits m e) = 0#1 := by
  obtain ⟨-, hl, hu⟩ := mod_of_log2 hm hp
  have hv := toNat_normalBits hm hp he
  apply BitVec.eq_of_toNat_eq
  change ((normalBits m e).toNat >>> 63) % 2 = 0
  rw [Nat.shiftRight_eq_div_pow]
  omega

theorem unpack_normalBits {m : Nat} (hm : m.log2 = 52) (hp : 0 < m) {e : Int} (hl : -1074 ≤ e)
    (hu : e < 972) :
    UnpackedFloat.unpack Format.binary64 (normalBits m e) = .finite .positive m e hp := by
  have hb : (e + 1075).toNat < 2 ^ 11 := by omega
  have hx : unpackExponent (normalBits m e) = BitVec.ofNat 11 (e + 1075).toNat :=
    unpackExponent_packComponents
  have hf : unpackMantissa (normalBits m e) = BitVec.ofNat 52 m := unpackMantissa_packComponents
  have hxn : (BitVec.ofNat 11 (e + 1075).toNat).toNat = (e + 1075).toNat := by
    rw [BitVec.toNat_ofNat, Nat.mod_eq_of_lt hb]
  have hfull : BitVec.ofNat 11 (e + 1075).toNat ≠ -1#11 := by
    intro h
    have hn := congrArg BitVec.toNat h
    rw [hxn] at hn
    change _ = 2047 at hn
    omega
  have hsub : BitVec.ofNat 11 (e + 1075).toNat ≠ 0#11 := by
    intro h
    have hn := congrArg BitVec.toNat h
    rw [hxn] at hn
    change _ = 0 at hn
    omega
  have hmant : (1#1 ++ BitVec.ofNat 52 m).toNat = m := by
    obtain ⟨hmod, hle, -⟩ := mod_of_log2 hm hp
    rw [BitVec.toNat_append, ← Nat.shiftLeft_add_eq_or_of_lt (BitVec.ofNat 52 m).isLt,
      BitVec.toNat_ofNat m, hmod, Nat.shiftLeft_eq]
    have h1 : (1#1).toNat = 1 := rfl
    rw [h1]
    omega
  have hexp : ((BitVec.ofNat 11 (e + 1075).toNat).toNat : Int) -
      (Format.binary64.exponentBias + Format.binary64.mantissaBitsWithoutImplicit) = e := by
    rw [hxn]
    change ((e + 1075).toNat : Int) - (1023 + 52) = e
    omega
  simp only [UnpackedFloat.unpack, hx, hf, unpackSign_normalBits hm hp hu]
  rw [if_neg hfull, if_neg hsub]
  simp only [hexp, hmant]
  rfl

/-- A count shifted until its highest bit is the leading one. -/
def lead (n : Nat) : Nat := n * 2 ^ (52 - n.log2)

theorem log2_lead {n : Nat} (hn : n ≠ 0) (hl : n.log2 ≤ 52) : (lead n).log2 = 52 := by
  rw [lead, log2_mul_two_pow hn]
  omega

theorem ofUInt64_eq {n : Nat} (hp : 0 < n) (hl : n.log2 ≤ 52) (hq : 0 < lead n)
    (h64 : n < 2 ^ 64) :
    UnpackedFloat.ofUInt64 Format.binary64 (UInt64.ofNat n) =
      .finite .positive (lead n) (n.log2 - 52) hq := by
  have hv : (UInt64.ofNat n).toNat = n := UInt64.toNat_ofNat_of_lt' h64
  have hc : compare (n : Int) 0 = .gt := by
    rw [compare_gt_iff_gt]
    omega
  have ht : Format.binary64.targetExponent (totalExponent n 0) = (n.log2 : Int) - 52 := by
    rw [targetExponent_eq, totalExponent]
    omega
  have hs : (0 - ((n.log2 : Int) - 52)).toNat = 52 - n.log2 := by omega
  have he : (0 : Int) - ((52 - n.log2 : Nat) : Int) = n.log2 - 52 := by omega
  have hr := roundWithAccuracy_exact (log2_lead (by omega) hl) hq (e := n.log2 - 52) (by omega) 0
    .positive
  simp only [Nat.pow_zero, Nat.mul_one, Nat.cast_zero, Int.sub_zero] at hr
  simp only [UnpackedFloat.ofUInt64, UnpackedFloat.ofNat, UnpackedFloat.ofInt, hv,
    UnpackedFloat.normalize, hc, Int.toNat_natCast, UnpackedFloat.round, decreaseExponent, ht, hs,
    he, Nat.shiftLeft_eq]
  exact hr

theorem mul_one_eq {m : Nat} (hm : m.log2 = 52) (hp : 0 < m) {e : Int} (he : -1074 ≤ e)
    (h1 : 0 < 2 ^ 52) :
    UnpackedFloat.mul Format.binary64 (.finite .positive m e hp)
      (.finite .positive (2 ^ 52) (-52) h1) = .finite .positive m e hp := by
  have hr := roundWithAccuracy_exact hm hp he 52 .positive
  exact hr

theorem unpack_one (h1 : 0 < 2 ^ 52) :
    (Float.ofBits 0x3FF0000000000000).toModel.unpack = .finite .positive (2 ^ 52) (-52) h1 := rfl

theorem toBits_ofNat {n : Nat} (hp : 0 < n) (hn : n < 2 ^ 53) :
    (Float.ofNat n).toBits = UInt64.ofBitVec (normalBits (lead n) (n.log2 - 52)) := by
  have hl : n.log2 ≤ 52 := by
    have := (Nat.log2_lt (by omega)).mpr hn
    omega
  have hq : 0 < lead n := Nat.mul_pos hp (Nat.two_pow_pos _)
  have hm := log2_lead (by omega) hl
  have hfloat : (UInt64.ofNat n).toFloat.toModel.unpack =
      .finite .positive (lead n) (n.log2 - 52) hq := by
    change UnpackedFloat.unpack Format.binary64 (UnpackedFloat.pack Format.binary64
      (UnpackedFloat.ofUInt64 Format.binary64 (UInt64.ofNat n))) = _
    rw [ofUInt64_eq hp hl hq (by omega), pack_finite hm hq (by omega),
      unpack_normalBits hm hq (by omega) (by omega)]
  have hprod : (Float.ofNat n).toBits = UInt64.ofBitVec (UnpackedFloat.pack Format.binary64
      (UnpackedFloat.mul Format.binary64 (UInt64.ofNat n).toFloat.toModel.unpack
        (Float.ofBits 0x3FF0000000000000).toModel.unpack)) := by
    change (Float.ofScientific n false 0).toBits = _
    rw [Float.ofScientific, dif_pos ⟨hn, Nat.zero_le 22⟩]
    rfl
  rw [hprod, hfloat, unpack_one (Nat.two_pow_pos 52), mul_one_eq hm hq (by omega),
    pack_finite hm hq (by omega)]

end Binary64

theorem toRat_lead {n : Nat} (hl : n.log2 ≤ 52) :
    (⟨false, Binary64.lead n, (n.log2 : Int) - 52⟩ : Binary).toRat = n := by
  have h1 : ((n.log2 : Int) - 52).toNat = 0 := by omega
  have h2 : (-((n.log2 : Int) - 52)).toNat = 52 - n.log2 := by omega
  simp only [Binary.toRat, h1, h2, Bool.false_eq_true, if_false]
  have hp : (2 ^ (52 - n.log2) : Nat) ≠ 0 := (Nat.two_pow_pos _).ne'
  change mkRat ((n * 2 ^ (52 - n.log2) : Nat) * ((1 : Nat) : Int)) (2 ^ (52 - n.log2)) = _
  rw [Nat.cast_one, mul_one, Nat.cast_mul]
  conv_lhs => arg 2; rw [← one_mul (2 ^ (52 - n.log2))]
  rw [Rat.mkRat_mul_right hp, Rat.mkRat_one]
  norm_cast

theorem exact_floatOfNat {n : Nat} (hp : 0 < n) (hn : n < 2 ^ 53) :
    Exact.ofBits (Float.ofNat n).toBits = .finite n := by
  have hl : n.log2 ≤ 52 := by
    have := (Nat.log2_lt (by omega)).mpr hn
    omega
  have hq : 0 < Binary64.lead n := Nat.mul_pos hp (Nat.two_pow_pos _)
  have hm := Binary64.log2_lead (by omega) hl
  obtain ⟨-, hlo, hhi⟩ := Binary64.mod_of_log2 hm hq
  have hb : (Float.ofNat n).toBits.toNat =
      (n.log2 + 1023) * 4503599627370496 + (Binary64.lead n - 4503599627370496) := by
    have he : ((n.log2 : Int) - 52 + 1075).toNat = n.log2 + 1023 := by omega
    rw [Binary64.toBits_ofNat hp hn]
    change (Binary64.normalBits (Binary64.lead n) (n.log2 - 52)).toNat = _
    rw [Binary64.toNat_normalBits hm hq (by omega), he]
    norm_num
  have hx : Binary.exponentField (Float.ofNat n).toBits = n.log2 + 1023 := by
    rw [Binary.exponentField, hb, Binary.leadingBit]
    omega
  have hf : Binary.fraction (Float.ofNat n).toBits = Binary64.lead n - 4503599627370496 := by
    rw [Binary.fraction, hb, Binary.leadingBit]
    omega
  have hs : Binary.signBit (Float.ofNat n).toBits = false := by
    rw [Binary.signBit, hb]
    apply beq_false_of_ne
    omega
  have hbin : Binary.ofBits (Float.ofNat n).toBits =
      ⟨false, Binary64.lead n, (n.log2 : Int) - 52⟩ := by
    simp only [Binary.ofBits, hs, hx, hf]
    have hz : n.log2 + 1023 ≠ 0 := by omega
    have hlead : Binary.leadingBit + (Binary64.lead n - 4503599627370496) = Binary64.lead n := by
      rw [Binary.leadingBit]
      omega
    have hexp : ((n.log2 + 1023 : Nat) : Int) - 1075 = n.log2 - 52 := by omega
    rw [if_neg hz, if_neg hz, hlead, hexp]
  rw [Exact.ofBits, if_neg (by omega), hbin, toRat_lead hl]

instance : Counting Float where
  exact_ofInt n hn := by
    rcases Nat.eq_zero_or_pos n with rfl | hp
    · decide +kernel
    · exact exact_floatOfNat hp (by rw [maxCount] at hn; omega)

end TileRoute
