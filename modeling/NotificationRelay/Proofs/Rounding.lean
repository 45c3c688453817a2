import NotificationRelay.Proofs.Json.Sound

/-! How far rounding can go. A number that is rounded once is off by at most the half of a unit in
its last place, so a decimal that is well below the greatest finite number is scaled without being
found too great. -/
namespace NotificationRelay

namespace Binary64

def nearGreatest : Nat := (twoTo 53 - 3) * twoTo 2045

theorem eq_of_min_lt {a b : Nat} (less : min a b < a) : min a b = b := by omega

theorem nearest_double_le {num den : Nat} (positive : 0 < den) :
    2 * (nearest num den * den) ≤ 2 * num + den := by
  have parts := Nat.div_add_mod num den
  have below := Nat.mod_lt num positive
  rw [Nat.mul_comm den] at parts
  rw [nearest]
  split
  · omega
  · split
    · rw [Nat.add_mul, Nat.one_mul]
      omega
    · have half : num / den % 2 * den ≤ den := by
        have bit : num / den % 2 ≤ 1 := by omega
        calc num / den % 2 * den ≤ 1 * den := Nat.mul_le_mul_right den bit
          _ = den := Nat.one_mul den
      rw [Nat.add_mul]
      omega

/-- A significand of 53 bits, or of fewer without a shift, is kept by its encoding. -/
theorem units_ofMagnitude {negative : Bool} {shift r : Nat} (normal : shift ≠ 0 → twoTo 52 ≤ r)
    (bits : r ≤ twoTo 53) (within : shift * twoTo 52 + r < twoTo 63) :
    (ofMagnitude negative (shift * twoTo 52 + r)).units = r * twoTo shift := by
  rw [units, magnitude_ofMagnitude negative within]
  rw [twoTo_52, twoTo_53] at *
  rcases Nat.lt_or_eq_of_le bits with less | top
  · by_cases small : r < 4503599627370496
    · obtain rfl : shift = 0 := by
        by_cases zero : shift = 0
        · exact zero
        · have := normal zero
          omega
      rw [if_pos (by omega), twoTo_zero]
      omega
    · have exponent : (shift * 4503599627370496 + r) / 4503599627370496 = shift + 1 := by omega
      have fraction : 4503599627370496 + (shift * 4503599627370496 + r) % 4503599627370496 = r := by
        omega
      rw [exponent, fraction, if_neg (by omega)]
      rfl
  · have exponent : (shift * 4503599627370496 + r) / 4503599627370496 = shift + 2 := by omega
    have fraction : (shift * 4503599627370496 + r) % 4503599627370496 = 0 := by omega
    rw [exponent, fraction, if_neg (by omega), top, show shift + 2 - 1 = shift + 1 by omega, twoTo_succ]
    omega

/-- A whole number grows by rounding in the ratio of 2^53 to 2^53 + 1 at most. -/
theorem units_ofNat_le {n : Nat} (positive : 0 < n) (within : n * twoTo 1074 ≤ greatestUnits) :
    (ofNat n).units * twoTo 53 ≤ n * twoTo 1074 * (twoTo 53 + 1) := by
  have finite : magnitudeOf n 1 < infinityMagnitude :=
    magnitudeOf_lt Nat.one_pos (by rwa [Nat.mul_one])
  generalize wide_eq : n * twoTo 1074 = wide at *
  have least : twoTo 1074 ≤ wide := wide_eq ▸ Nat.le_mul_of_pos_left _ positive
  have some : wide ≠ 0 := Nat.ne_of_gt (Nat.lt_of_lt_of_le (twoTo_pos _) least)
  have bits : 1074 ≤ wide.log2 := le_log2_of_le some least
  have low : twoTo wide.log2 ≤ wide := twoTo_log2_le some
  have high : wide < twoTo (wide.log2 + 1) := Nat.lt_log2_self
  generalize shift_eq : wide.log2 + 1 - 53 = shift
  have lowest : twoTo 52 * twoTo shift ≤ wide := by
    rw [← twoTo_add, show 52 + shift = wide.log2 by omega]
    exact low
  have highest : wide ≤ twoTo 53 * twoTo shift := by
    rw [← twoTo_add, show 53 + shift = wide.log2 + 1 by omega]
    exact Nat.le_of_lt high
  have rounded := @nearest_double_le wide (twoTo shift) (twoTo_pos shift)
  have normal : twoTo 52 ≤ nearest wide (twoTo shift) := le_nearest (twoTo_pos shift) lowest
  have capped : nearest wide (twoTo shift) ≤ twoTo 53 := nearest_le (twoTo_pos shift) highest
  have magnitude : magnitudeOf n 1 = shift * twoTo 52 + nearest wide (twoTo shift) := by
    rw [magnitudeOf, wide_eq, Nat.div_one, Nat.one_mul, shift_eq] at finite ⊢
    exact eq_of_min_lt finite
  have bound : shift * twoTo 52 + nearest wide (twoTo shift) < twoTo 63 := by
    rw [← magnitude]
    rw [infinityMagnitude_eq] at finite
    rw [twoTo_63]
    omega
  rw [ofNat, ofRatio, magnitude, units_ofMagnitude (fun _ => normal) capped bound]
  have half : twoTo 53 = 2 * twoTo 52 := twoTo_succ 52
  calc nearest wide (twoTo shift) * twoTo shift * twoTo 53
      = 2 * (nearest wide (twoTo shift) * twoTo shift) * twoTo 52 := by
        rw [half, Nat.mul_comm 2, ← Nat.mul_assoc, Nat.mul_assoc 2, Nat.mul_comm 2, Nat.mul_right_comm]
    _ ≤ (2 * wide + twoTo shift) * twoTo 52 := Nat.mul_le_mul_right _ rounded
    _ = wide * twoTo 53 + twoTo 52 * twoTo shift := by
        rw [Nat.add_mul, half, Nat.mul_comm (twoTo shift), Nat.mul_comm 2 wide, Nat.mul_assoc]
    _ ≤ wide * twoTo 53 + wide := Nat.add_le_add_left lowest _
    _ = wide * (twoTo 53 + 1) := by rw [Nat.mul_add, Nat.mul_one]

theorem twoTo_2097_le : twoTo 2097 ≤ nearGreatest := by
  rw [nearGreatest, show twoTo 2097 = twoTo 52 * twoTo 2045 from twoTo_add 52 2045]
  exact Nat.mul_le_mul_right _ (by decide)

/-- What is rounded to less than the third number below infinity is less itself. -/
theorem lt_of_magnitudeOf {num den : Nat} (positive : 0 < den)
    (near : magnitudeOf num den + 3 < infinityMagnitude) :
    num * twoTo 1074 < nearGreatest * den := by
  rcases Nat.lt_or_ge (num * twoTo 1074) (nearGreatest * den) with less | great
  · exact less
  have finite : magnitudeOf num den < infinityMagnitude := by omega
  generalize wide_eq : num * twoTo 1074 = wide at *
  have quotient : nearGreatest ≤ wide / den := (Nat.le_div_iff_mul_le positive).mpr great
  have top : twoTo 2097 ≤ wide / den := Nat.le_trans twoTo_2097_le quotient
  have some : wide / den ≠ 0 := Nat.ne_of_gt (Nat.lt_of_lt_of_le (twoTo_pos 2097) top)
  have bits : 2097 ≤ (wide / den).log2 := le_log2_of_le some top
  have low : twoTo (wide / den).log2 ≤ wide / den := twoTo_log2_le some
  generalize shift_eq : (wide / den).log2 + 1 - 53 = shift
  have scaled : 0 < den * twoTo shift := Nat.mul_pos positive (twoTo_pos shift)
  have magnitude : magnitudeOf num den = shift * twoTo 52 + nearest wide (den * twoTo shift) := by
    rw [magnitudeOf, wide_eq, shift_eq] at finite ⊢
    exact eq_of_min_lt finite
  rw [magnitude, infinityMagnitude_eq, twoTo_52] at near
  rcases Nat.lt_or_ge 2045 shift with beyond | small
  · have normal : twoTo 52 ≤ nearest wide (den * twoTo shift) := by
      refine le_nearest scaled ?_
      calc twoTo 52 * (den * twoTo shift) = twoTo (52 + shift) * den := by
            rw [twoTo_add, Nat.mul_comm den, Nat.mul_assoc]
        _ ≤ wide / den * den := Nat.mul_le_mul_right den (by rwa [show 52 + shift = (wide / den).log2 by omega])
        _ ≤ wide := Nat.div_mul_le_self wide den
    rw [twoTo_52] at normal
    omega
  · obtain rfl : shift = 2045 := by omega
    have rounded : twoTo 53 - 3 ≤ nearest wide (den * twoTo 2045) := by
      refine le_nearest scaled ?_
      calc (twoTo 53 - 3) * (den * twoTo 2045) = nearGreatest * den := by
            rw [nearGreatest, Nat.mul_comm den, Nat.mul_assoc]
        _ ≤ wide := great
    rw [twoTo_53] at rounded
    omega

theorem units_lt {x : Binary64} (near : x.magnitude + 3 < infinityMagnitude) :
    x.units < nearGreatest := by
  have fraction := Nat.mod_lt x.magnitude (twoTo_pos 52)
  have parts := Nat.div_add_mod x.magnitude (twoTo 52)
  rw [infinityMagnitude_eq] at near
  rw [twoTo_52] at fraction parts
  rw [units]
  split
  · refine Nat.lt_of_lt_of_le ?_ twoTo_2097_le
    refine Nat.lt_of_lt_of_le (Nat.mod_lt _ (twoTo_pos 52)) (twoTo_mono (by omega))
  · rw [twoTo_52]
    rcases Nat.lt_or_ge (x.magnitude / 4503599627370496) 2046 with less | top
    · refine Nat.lt_of_lt_of_le ?_ twoTo_2097_le
      have exponent : twoTo (x.magnitude / 4503599627370496 - 1) ≤ twoTo 2044 := twoTo_mono (by omega)
      have significand : 4503599627370496 + x.magnitude % 4503599627370496 < twoTo 53 := by
        rw [twoTo_53]
        omega
      calc (4503599627370496 + x.magnitude % 4503599627370496) *
            twoTo (x.magnitude / 4503599627370496 - 1)
          ≤ (4503599627370496 + x.magnitude % 4503599627370496) * twoTo 2044 :=
            Nat.mul_le_mul_left _ exponent
        _ < twoTo 53 * twoTo 2044 := Nat.mul_lt_mul_of_pos_right significand (twoTo_pos _)
        _ = twoTo 2097 := (twoTo_add 53 2044).symm
    · have exact : x.magnitude / 4503599627370496 - 1 = 2045 := by omega
      rw [exact, nearGreatest]
      refine Nat.mul_lt_mul_of_pos_right ?_ (twoTo_pos _)
      rw [twoTo_53]
      omega

theorem isInfinite_mul {x y : Binary64} (finite : x.isFinite) (factor : y.isFinite)
    (within : x.units * y.units ≤ greatestUnits * twoTo 1074) : (x.mul y).isInfinite = false := by
  rw [mul_of_isFinite finite factor]
  refine isInfinite_of_isFinite (isFinite_ofRatio _ (Nat.mul_pos (twoTo_pos _) (twoTo_pos _)) ?_)
  rw [← Nat.mul_assoc]
  exact Nat.mul_le_mul_right _ within

theorem nearGreatest_le : nearGreatest ≤ greatestUnits :=
  Nat.mul_le_mul_right _ (by rw [twoTo_53]; omega)

/-- Both factors are rounded before they are multiplied. -/
theorem units_mul_le {a b : Nat} (some : 0 < a) (other : 0 < b)
    (within : a * b * twoTo 1074 ≤ nearGreatest) :
    (ofNat a).units * (ofNat b).units ≤ greatestUnits * twoTo 1074 := by
  have least : a * twoTo 1074 ≤ greatestUnits := by
    refine Nat.le_trans (Nat.mul_le_mul_right _ (Nat.le_mul_of_pos_right a other)) ?_
    exact Nat.le_trans within nearGreatest_le
  have least' : b * twoTo 1074 ≤ greatestUnits := by
    refine Nat.le_trans (Nat.mul_le_mul_right _ (Nat.le_mul_of_pos_left b some)) ?_
    exact Nat.le_trans within nearGreatest_le
  have first := units_ofNat_le some least
  have second := units_ofNat_le other least'
  have slack : (twoTo 53 - 3) * ((twoTo 53 + 1) * (twoTo 53 + 1)) ≤
      (twoTo 53 - 1) * (twoTo 53 * twoTo 53) := by decide
  have both : (ofNat a).units * (ofNat b).units * (twoTo 53 * twoTo 53) ≤
      greatestUnits * twoTo 1074 * (twoTo 53 * twoTo 53) := by
    generalize (ofNat a).units = x at *
    generalize (ofNat b).units = y at *
    rw [nearGreatest] at within
    rw [greatestUnits]
    generalize twoTo 53 = p at *
    generalize twoTo 1074 = q at *
    generalize twoTo 2045 = r at *
    calc x * y * (p * p) = x * p * (y * p) := Nat.mul_mul_mul_comm x y p p
      _ ≤ a * q * (p + 1) * (b * q * (p + 1)) := Nat.mul_le_mul first second
      _ = a * b * q * (q * ((p + 1) * (p + 1))) := by ac_rfl
      _ ≤ (p - 3) * r * (q * ((p + 1) * (p + 1))) := Nat.mul_le_mul_right _ within
      _ = (p - 3) * ((p + 1) * (p + 1)) * (r * q) := by ac_rfl
      _ ≤ (p - 1) * (p * p) * (r * q) := Nat.mul_le_mul_right _ slack
      _ = (p - 1) * r * q * (p * p) := by ac_rfl
  exact Nat.le_of_mul_le_mul_right both (Nat.mul_pos (twoTo_pos 53) (twoTo_pos 53))

end Binary64

namespace Json.Scan

open Binary64

/-- Division never leaves the finite numbers. -/
theorem scale_down {x : Binary64} {exponent : Int} (finite : x.isFinite) (down : exponent ≤ 0) :
    ∃ y, scale x exponent = some y := by
  induction x, exponent using scale.induct with
  | case1 x exponent near up product great =>
    obtain rfl : exponent = 0 := by omega
    have one : (pow10 0).units = twoTo 1074 := by decide +kernel
    have small : (x.mul (pow10 0)).isInfinite = false := by
      refine isInfinite_mul finite (isFinite_pow10 (by decide)) ?_
      rw [one]
      exact Nat.mul_le_mul_right _ (units_le finite)
    rw [show product = x.mul (pow10 0) from rfl, small] at great
    cases great
  | case2 x exponent near up product small =>
    rw [scale, if_pos near, if_pos up, if_neg small]
    exact ⟨_, rfl⟩
  | case3 x exponent near below =>
    rw [scale, if_pos near, if_neg below]
    exact ⟨_, rfl⟩
  | case4 x exponent far zero =>
    rw [scale, if_neg far, if_pos zero]
    exact ⟨_, rfl⟩
  | case5 x exponent far some up => omega
  | case6 x exponent far some below ih =>
    rw [scale, if_neg far, if_neg some, if_neg below]
    exact ih (isFinite_div finite (isFinite_pow10 (Nat.le_refl _)) (le_units_pow10 _)) (by omega)

theorem le_308_of_tenTo {s k : Nat} (positive : 0 < s)
    (within : s * tenTo k * twoTo 1074 ≤ nearGreatest) : k ≤ 308 := by
  refine Nat.le_of_not_lt fun far => ?_
  have least : tenTo 309 * twoTo 1074 ≤ nearGreatest := by
    refine Nat.le_trans (Nat.mul_le_mul_right _ ?_) within
    exact Nat.le_trans (tenTo_mono far) (Nat.le_mul_of_pos_left _ positive)
  exact absurd least (by decide +kernel)

/-- A decimal that is well below the greatest number is not found too great. -/
theorem scale_up {s k : Nat} (positive : 0 < s)
    (within : s * tenTo k * twoTo 1074 ≤ nearGreatest) : ∃ y, scale (ofNat s) k = some y := by
  have near : k ≤ 308 := le_308_of_tenTo positive within
  have whole : s * twoTo 1074 ≤ greatestUnits := by
    refine Nat.le_trans (Nat.mul_le_mul_right _ (Nat.le_mul_of_pos_right s (tenTo_pos k))) ?_
    exact Nat.le_trans within nearGreatest_le
  have finite : (ofNat s).isFinite := isFinite_ofRatio false Nat.one_pos (by rwa [Nat.mul_one])
  have small := isInfinite_mul finite (isFinite_pow10 near)
    (units_mul_le positive (tenTo_pos k) within)
  rw [scale, if_pos (by omega), if_pos (by omega)]
  simp only [Int.natAbs_natCast, small, Bool.false_eq_true, if_false]
  exact ⟨_, rfl⟩

end Json.Scan

end NotificationRelay
