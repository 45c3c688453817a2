import Mathlib.Tactic.Ring
import NotificationRelay.Proofs.Decimal

/-! Whole binary64 numbers. Below 2^53 they are exact, and so are their products and the quotients
that are whole again. -/
namespace NotificationRelay.Binary64

structure IsWhole (x : Binary64) (n : Nat) : Prop where
  finite : x.isFinite
  positive : x.isNegative = false
  units : x.units = n * twoTo 1074

theorem nearest_mul {n den : Nat} (positive : 0 < den) : nearest (n * den) den = n := by
  rw [nearest, Nat.mul_mod_left, Nat.mul_div_cancel n positive]
  exact if_pos positive

theorem log2_mul_twoTo {n : Nat} (some : n ≠ 0) (k : Nat) : (n * twoTo k).log2 = n.log2 + k := by
  have positive : n * twoTo k ≠ 0 := Nat.mul_ne_zero some (Nat.ne_of_gt (twoTo_pos k))
  apply (Nat.log2_eq_iff positive).mpr
  constructor
  · calc twoTo (n.log2 + k) = twoTo n.log2 * twoTo k := twoTo_add _ _
      _ ≤ n * twoTo k := Nat.mul_le_mul_right _ (twoTo_log2_le some)
  · calc n * twoTo k < twoTo (n.log2 + 1) * twoTo k :=
          Nat.mul_lt_mul_of_pos_right Nat.lt_log2_self (twoTo_pos k)
      _ = twoTo (n.log2 + k + 1) := by
          rw [← twoTo_add, Nat.add_right_comm]

theorem infinityMagnitude_lt : infinityMagnitude < twoTo 63 := by
  rw [infinityMagnitude_eq, twoTo_63]
  omega

theorem magnitude_lt {shift significand : Nat} (low : shift ≤ 1074) (bits : significand < twoTo 53) :
    shift * twoTo 52 + significand < infinityMagnitude := by
  rw [twoTo_53] at bits
  rw [twoTo_52, infinityMagnitude_eq]
  omega

/-- A whole number of at most 53 bits is filled up to a significand, and what is left of the scale is
its exponent. -/
theorem exists_significand {n : Nat} (some : n ≠ 0) (small : n < twoTo 53) :
    ∃ fill shift, fill + shift = 1074 ∧ (n * twoTo 1074).log2 + 1 - 53 = shift ∧
      twoTo 52 ≤ n * twoTo fill ∧ n * twoTo fill < twoTo 53 := by
  have short : n.log2 < 53 := log2_lt_of_lt some small
  obtain ⟨fill, shift, scale, filled⟩ : ∃ fill shift, fill + shift = 1074 ∧ n.log2 + fill = 52 :=
    ⟨52 - n.log2, 1022 + n.log2, by omega, by omega⟩
  have bits : (n * twoTo fill).log2 = 52 := by
    rw [log2_mul_twoTo some]
    exact filled
  refine ⟨fill, shift, scale, ?_, ?_, ?_⟩
  · rw [log2_mul_twoTo some]
    omega
  · have low := twoTo_log2_le (Nat.mul_ne_zero some (Nat.ne_of_gt (twoTo_pos fill)))
    rwa [bits] at low
  · have high : n * twoTo fill < twoTo ((n * twoTo fill).log2 + 1) := Nat.lt_log2_self
    rwa [bits] at high

theorem magnitudeOf_whole {n den fill shift : Nat} (positive : 0 < den)
    (scale : fill + shift = 1074) (exponent : (n * twoTo 1074).log2 + 1 - 53 = shift)
    (high : n * twoTo fill < twoTo 53) :
    magnitudeOf (n * den) den = shift * twoTo 52 + n * twoTo fill := by
  have within : shift * twoTo 52 + n * twoTo fill < infinityMagnitude :=
    magnitude_lt (by omega) high
  have quotient : n * den * twoTo 1074 / den = n * twoTo 1074 := by
    rw [Nat.mul_right_comm]
    exact Nat.mul_div_cancel _ positive
  have wide : n * den * twoTo 1074 = n * twoTo fill * (den * twoTo shift) := by
    rw [← scale, twoTo_add]
    ring
  rw [magnitudeOf, quotient, exponent, wide, nearest_mul (Nat.mul_pos positive (twoTo_pos shift))]
  exact Nat.min_eq_right (Nat.le_of_lt within)

/-- A quotient that is a whole number of at most 53 bits is not rounded. -/
theorem units_ofRatio {n den : Nat} (negative : Bool) (positive : 0 < den) (small : n < twoTo 53) :
    (ofRatio negative (n * den) den).units = n * twoTo 1074 := by
  by_cases zero : n = 0
  · rw [zero, Nat.zero_mul, Nat.zero_mul]
    apply units_of_magnitude_zero
    rw [magnitude_ofRatio]
    exact magnitudeOf_eq_zero rfl
  · obtain ⟨fill, shift, scale, exponent, normal, high⟩ := exists_significand zero small
    have below : shift * twoTo 52 + n * twoTo fill < twoTo 63 :=
      Nat.lt_trans (magnitude_lt (by omega) high) infinityMagnitude_lt
    rw [ofRatio, magnitudeOf_whole positive scale exponent high,
      units_ofMagnitude (fun _ => normal) (Nat.le_of_lt high) below, Nat.mul_assoc, ← twoTo_add,
      scale]

theorem isNegative_ofRatio (num den : Nat) : (ofRatio false num den).isNegative = false := by
  have within := magnitudeOf_le num den
  have whole : (ofRatio false num den).bits.toNat = magnitudeOf num den := by
    rw [ofRatio, ofMagnitude, UInt64.toNat_ofNat']
    rw [infinityMagnitude_eq] at within
    simp only [Bool.false_eq_true, if_false, Nat.zero_add]
    omega
  rw [isNegative, whole, twoTo_63]
  rw [infinityMagnitude_eq] at within
  exact decide_eq_false (by omega)

theorem isWhole_ofRatio {n den : Nat} (positive : 0 < den) (small : n < twoTo 53) :
    IsWhole (ofRatio false (n * den) den) n where
  finite := by
    refine isFinite_ofRatio false positive ?_
    have bound : n * twoTo 1074 ≤ greatestUnits := by
      rw [greatestUnits]
      exact Nat.mul_le_mul (Nat.le_sub_one_of_lt small) (twoTo_mono (by omega))
    calc n * den * twoTo 1074 = n * twoTo 1074 * den := Nat.mul_right_comm _ _ _
      _ ≤ greatestUnits * den := Nat.mul_le_mul_right den bound
  positive := isNegative_ofRatio _ _
  units := units_ofRatio false positive small

theorem isWhole_ofNat {n : Nat} (small : n < twoTo 53) : IsWhole (ofNat n) n := by
  have whole := isWhole_ofRatio Nat.one_pos small
  rwa [Nat.mul_one] at whole

namespace IsWhole

variable {x y : Binary64} {m n : Nat}

theorem mul (first : IsWhole x m) (second : IsWhole y n) (small : m * n < twoTo 53) :
    IsWhole (x.mul y) (m * n) := by
  have exact : x.units * y.units = m * n * (twoTo 1074 * twoTo 1074) := by
    rw [first.units, second.units]
    ring
  rw [mul_of_isFinite first.finite second.finite, first.positive, second.positive, exact]
  exact isWhole_ofRatio (Nat.mul_pos (twoTo_pos _) (twoTo_pos _)) small

theorem units_pos (whole : IsWhole x n) (some : 0 < n) : 0 < x.units := by
  rw [whole.units]
  exact Nat.mul_pos some (twoTo_pos _)

theorem div (first : IsWhole x (m * n)) (second : IsWhole y n) (some : 0 < n)
    (small : m < twoTo 53) : IsWhole (x.div y) m := by
  have positive := second.units_pos some
  have exact : x.units = m * y.units := by
    rw [first.units, second.units, Nat.mul_assoc]
  rw [div_of_isFinite first.finite second.finite positive, first.positive, second.positive, exact]
  exact isWhole_ofRatio positive small

theorem natPart (whole : IsWhole x n) : x.natPart = n := by
  rw [Binary64.natPart, isNaN_of_isFinite whole.finite, whole.positive, whole.units,
    Nat.mul_div_cancel n (twoTo_pos _)]
  simp only [Bool.or_self, Bool.false_eq_true, if_false]

end IsWhole

section

variable {x y : Binary64} (zero : x.magnitude = 0)

include zero

theorem isFinite_of_magnitude_zero : x.isFinite := by
  rw [isFinite, zero]
  rfl

theorem natPart_of_magnitude_zero : x.natPart = 0 := by
  rw [natPart, units_of_magnitude_zero zero, Nat.zero_div, ite_self]

theorem magnitude_mul_zero (factor : y.isFinite) : (y.mul x).magnitude = 0 := by
  rw [mul_of_isFinite factor (isFinite_of_magnitude_zero zero), magnitude_ofRatio]
  apply magnitudeOf_eq_zero
  rw [units_of_magnitude_zero zero, Nat.mul_zero]

theorem magnitude_zero_div (divisor : y.isFinite) (some : 0 < y.units) :
    (x.div y).magnitude = 0 := by
  rw [div_of_isFinite (isFinite_of_magnitude_zero zero) divisor some, magnitude_ofRatio]
  exact magnitudeOf_eq_zero (units_of_magnitude_zero zero)

end

end NotificationRelay.Binary64
