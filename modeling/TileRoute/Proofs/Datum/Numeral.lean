import TileRoute.Datum.Number
import TileRoute.Proofs.Number.Meaning

/-!
# What numerals stand for

A numeral that is no integer is computed from a natural number by products with powers of ten and
quotients by them. None of these powers is a zero or an infinity, so the numeral stands for
something.
-/

namespace TileRoute.Datum

open Float.Model Float.Model.UnpackedFloat Binary64 Scalar

theorem powerOfTen_eq {n : Nat} (hn : n ≤ 308) : powerOfTen n = Float.ofScientific 1 false n := by
  have hsign : decide ((n : Int) < 0) = false := decide_eq_false (by omega)
  have hlarge : ¬ (n : Int) > 400 := by omega
  have hsmall : ¬ (n : Int) + (Nat.log2 1 : Nat) < -400 := by omega
  simp only [powerOfTen, Decimal.toFloat]
  rw [if_neg Nat.one_ne_zero, if_neg hlarge, if_neg hsmall, hsign]
  rfl

theorem proper_powerOfTen {n : Nat} (hn : n ≤ 308) :
    proper (powerOfTen n).toModel.unpack = true := by
  rw [powerOfTen_eq hn]
  by_cases hends : n ∈ 308 :: List.range 23
  · have hall : ∀ k ∈ 308 :: List.range 23,
        proper (Float.ofScientific 1 false k).toModel.unpack = true := by decide +kernel
    exact hall n hends
  · rw [List.mem_cons, List.mem_range, not_or] at hends
    have hlog : (1 <<< 53 * 10 ^ n).log2 = (10 ^ n).log2 + 53 := by
      rw [Nat.mul_comm]
      exact log2_mul_two_pow (Nat.pow_pos (by decide)).ne' 53
    have hbound : (10 ^ n).log2 < 1023 := by
      refine (Nat.log2_lt (Nat.pow_pos (by decide)).ne').mpr ?_
      calc 10 ^ n ≤ 10 ^ 307 := Nat.pow_le_pow_right (by decide) (by omega)
        _ < 2 ^ 1023 := by decide +kernel
    have hmodel : Float.ofScientific 1 false n = Float.ofModel (Float.Model.pack
        (UnpackedFloat.ofScientific Format.binary64 1 n)) := by
      rw [Float.ofScientific, dif_neg (by omega)]
      rfl
    have hproduct : UnpackedFloat.ofScientific Format.binary64 1 n =
        roundWithAccuracy Format.binary64 .positive (1 <<< 53 * 10 ^ n) (-53) .exact := by
      have hlarge : ¬ (n : Int) > 2 ^ Format.binary64.exponentBits := by
        change ¬ (n : Int) > 2048
        omega
      have hsmall : ¬ (n : Int) <
          -((2 ^ Format.binary64.exponentBits : Int) + (Nat.log2 1 : Nat)) := by
        change ¬ (n : Int) < -(2048 + 0)
        omega
      rw [UnpackedFloat.ofScientific, dif_neg Nat.one_ne_zero, if_neg hlarge, if_neg hsmall,
        if_pos (Int.natCast_nonneg n)]
      rfl
    rw [hmodel, hproduct]
    exact proper_pack_normal (by omega) (by omega) (by omega) _

theorem meaningful_divideDown (n : Nat) {x : Float} (hx : Meaningful x) (e : Int) :
    Meaningful (divideDown n x e) := by
  induction n generalizing x e with
  | zero => exact meaningful_ofNat 0
  | succ n ih =>
    unfold divideDown
    split
    · rename_i he
      exact meaningful_div hx (proper_powerOfTen he)
    · split
      · exact hx
      · exact ih (meaningful_div hx (proper_powerOfTen (Nat.le_refl 308))) (e + 308)

theorem meaningful_scaled? {significand : Nat} {e : Int} {x : Float}
    (h : scaled? significand e = some x) : Meaningful x := by
  have hs := meaningful_ofNat significand
  simp only [scaled?] at h
  split at h
  · obtain rfl := Option.some.inj h
    exact meaningful_divideDown _ hs e
  · split at h
    · split at h
      · cases h
      · obtain rfl := Option.some.inj h
        exact meaningful_mul hs (proper_powerOfTen (by omega))
    · split at h
      · obtain rfl := Option.some.inj h
        exact hs
      · cases h

namespace Lexeme

theorem meaningful_magnitude? {l : Lexeme} {significand : Nat} {scale : Int} {x : Float}
    (h : l.magnitude? significand scale = some x) : Meaningful x := by
  unfold magnitude? at h
  split at h
  · exact meaningful_scaled? h
  · dsimp only at h
    split at h
    · exact meaningful_scaled? h
    · split at h
      · obtain rfl := Option.some.inj h
        exact meaningful_ofNat 0
      · cases h

theorem meaningful_real {l : Lexeme} {x : Float} (h : l.real = .real x) : Meaningful x := by
  simp only [real] at h
  split at h
  · rename_i y hy
    have hm := meaningful_magnitude? hy
    split at h
    · obtain rfl := Numeral.real.inj h
      exact meaningful_neg hm
    · obtain rfl := Numeral.real.inj h
      exact hm
  · cases h

theorem meaningful_value {l : Lexeme} {x : Float} (h : l.value = .real x) : Meaningful x := by
  unfold value at h
  split at h
  · cases h
  · exact meaningful_real h

end Lexeme

end TileRoute.Datum
