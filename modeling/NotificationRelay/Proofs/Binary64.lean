import NotificationRelay.Binary64.Basic

/-! Finite binary64 numbers. Rounding stays finite up to the greatest finite number itself, so
quotients by a power of ten stay finite and products are finite or infinite. -/
namespace NotificationRelay

theorem twoTo_add (m n : Nat) : twoTo (m + n) = twoTo m * twoTo n := Nat.pow_add 2 m n

theorem twoTo_mono {m n : Nat} (within : m ≤ n) : twoTo m ≤ twoTo n :=
  Nat.pow_le_pow_right (by decide) within

theorem tenTo_pos (k : Nat) : 0 < tenTo k := Nat.pow_pos (by decide)

theorem tenTo_mono {m n : Nat} (within : m ≤ n) : tenTo m ≤ tenTo n :=
  Nat.pow_le_pow_right (by decide) within

theorem log2_lt_of_lt {n k : Nat} (some : n ≠ 0) (less : n < twoTo k) : n.log2 < k :=
  (Nat.log2_lt some).mpr less

theorem le_log2_of_le {n k : Nat} (some : n ≠ 0) (within : twoTo k ≤ n) : k ≤ n.log2 :=
  (Nat.le_log2 some).mpr within

theorem twoTo_log2_le {n : Nat} (some : n ≠ 0) : twoTo n.log2 ≤ n := Nat.log2_self_le some

namespace Binary64

def greatestUnits : Nat := (twoTo 53 - 1) * twoTo 2045

theorem twoTo_52 : twoTo 52 = 4503599627370496 := rfl

theorem twoTo_53 : twoTo 53 = 9007199254740992 := rfl

theorem twoTo_63 : twoTo 63 = 9223372036854775808 := rfl

theorem infinityMagnitude_eq : infinityMagnitude = 9218868437227405312 := rfl

theorem magnitude_ofMagnitude (negative : Bool) {m : Nat} (within : m < twoTo 63) :
    (ofMagnitude negative m).magnitude = m := by
  rw [twoTo_63] at within
  have whole : (UInt64.ofNat ((if negative then twoTo 63 else 0) + m)).toNat =
      (if negative then twoTo 63 else 0) + m := by
    rw [UInt64.toNat_ofNat']
    apply Nat.mod_eq_of_lt
    rw [twoTo_63]
    split <;> omega
  rw [magnitude, ofMagnitude, whole, twoTo_63]
  split <;> omega

theorem nearest_le {num den m : Nat} (positive : 0 < den) (within : num ≤ m * den) :
    nearest num den ≤ m := by
  have parts := Nat.div_add_mod num den
  have below := Nat.mod_lt num positive
  have floor : num / den ≤ m := Nat.div_le_of_le_mul (by rw [Nat.mul_comm]; exact within)
  rcases Nat.lt_or_eq_of_le floor with less | exact
  · rw [nearest]
    split
    · exact floor
    · split
      · exact less
      · omega
  · have nothing : num % den = 0 := by
      rw [exact, Nat.mul_comm] at parts
      omega
    rw [nearest, nothing, if_pos (by omega)]
    exact floor

theorem le_nearest {num den m : Nat} (positive : 0 < den) (within : m * den ≤ num) :
    m ≤ nearest num den := by
  have floor : m ≤ num / den := (Nat.le_div_iff_mul_le positive).mpr within
  rw [nearest]
  split
  · exact floor
  · split <;> omega

/-- A significand of 53 bits is the greatest at the top of the range; below, it may be rounded up to
the next power of two. -/
private theorem rounded_lt {wide den : Nat} (positive : 0 < den)
    (within : wide ≤ greatestUnits * den) :
    ((wide / den).log2 + 1 - 53) * twoTo 52 +
      nearest wide (den * twoTo ((wide / den).log2 + 1 - 53)) < infinityMagnitude := by
  have quotient : wide / den ≤ greatestUnits :=
    Nat.div_le_of_le_mul (Nat.mul_comm greatestUnits den ▸ within)
  have top : greatestUnits < twoTo 2098 := by
    have whole : twoTo 2098 = twoTo 53 * twoTo 2045 := twoTo_add 53 2045
    rw [whole, greatestUnits]
    exact Nat.mul_lt_mul_of_pos_right (by rw [twoTo_53]; omega) (twoTo_pos 2045)
  have bits : (wide / den).log2 < 2098 := by
    by_cases zero : wide / den = 0
    · rw [zero]
      decide
    · exact log2_lt_of_lt zero (Nat.lt_of_le_of_lt quotient top)
  have high : wide / den < twoTo ((wide / den).log2 + 1) := Nat.lt_log2_self
  have covered : wide < (wide / den + 1) * den := Nat.lt_mul_of_div_lt (Nat.lt_succ_self _) positive
  generalize shift_eq : (wide / den).log2 + 1 - 53 = shift
  have scaled : 0 < den * twoTo shift := Nat.mul_pos positive (twoTo_pos shift)
  have small : shift ≤ 2045 := by omega
  rw [twoTo_52, infinityMagnitude_eq]
  rcases Nat.lt_or_eq_of_le small with less | exact
  · have rounded : nearest wide (den * twoTo shift) ≤ twoTo 53 := by
      refine nearest_le scaled ?_
      have fits : wide / den + 1 ≤ twoTo (53 + shift) :=
        Nat.le_trans high (twoTo_mono (by omega))
      calc wide ≤ (wide / den + 1) * den := Nat.le_of_lt covered
        _ ≤ twoTo (53 + shift) * den := Nat.mul_le_mul_right den fits
        _ = twoTo 53 * (den * twoTo shift) := by
          rw [twoTo_add, Nat.mul_assoc, Nat.mul_comm den]
    rw [twoTo_53] at rounded
    omega
  · have rounded : nearest wide (den * twoTo shift) ≤ twoTo 53 - 1 := by
      refine nearest_le scaled ?_
      calc wide ≤ greatestUnits * den := within
        _ = (twoTo 53 - 1) * (den * twoTo shift) := by
          rw [exact, greatestUnits, Nat.mul_assoc, Nat.mul_comm den]
    rw [twoTo_53] at rounded
    omega

theorem magnitudeOf_lt {num den : Nat} (positive : 0 < den)
    (within : num * twoTo 1074 ≤ greatestUnits * den) :
    magnitudeOf num den < infinityMagnitude :=
  Nat.lt_of_le_of_lt (Nat.min_le_right _ _) (rounded_lt positive within)

theorem magnitudeOf_le (num den : Nat) : magnitudeOf num den ≤ infinityMagnitude :=
  Nat.min_le_left _ _

theorem magnitude_ofRatio (negative : Bool) (num den : Nat) :
    (ofRatio negative num den).magnitude = magnitudeOf num den := by
  refine magnitude_ofMagnitude negative (Nat.lt_of_le_of_lt (magnitudeOf_le num den) ?_)
  rw [infinityMagnitude_eq, twoTo_63]
  omega

theorem isFinite_ofRatio {num den : Nat} (negative : Bool) (positive : 0 < den)
    (within : num * twoTo 1074 ≤ greatestUnits * den) : (ofRatio negative num den).isFinite := by
  rw [isFinite, magnitude_ofRatio]
  exact decide_eq_true (magnitudeOf_lt positive within)

theorem units_le {x : Binary64} (finite : x.isFinite) : x.units ≤ greatestUnits := by
  have below := of_decide_eq_true finite
  rw [infinityMagnitude_eq] at below
  have fraction := Nat.mod_lt x.magnitude (twoTo_pos 52)
  rw [twoTo_52] at fraction
  rw [units, greatestUnits]
  split
  · refine Nat.le_trans ?_ (Nat.le_mul_of_pos_right _ (twoTo_pos 2045))
    rw [twoTo_52, twoTo_53]
    omega
  · refine Nat.mul_le_mul ?_ (twoTo_mono ?_)
    · rw [twoTo_52, twoTo_53]
      omega
    · rw [twoTo_52]
      omega

theorem isFinite_ofNat {n : Nat} (within : n ≤ (twoTo 53 - 1) * twoTo 971) : (ofNat n).isFinite := by
  refine isFinite_ofRatio false Nat.one_pos ?_
  rw [Nat.mul_one, greatestUnits, show twoTo 2045 = twoTo 971 * twoTo 1074 from twoTo_add 971 1074,
    ← Nat.mul_assoc]
  exact Nat.mul_le_mul_right _ within

private theorem le_rounded {wide k : Nat} (within : twoTo (51 + k) ≤ wide) :
    k * twoTo 52 ≤ (wide.log2 + 1 - 53) * twoTo 52 +
      nearest wide (1 * twoTo (wide.log2 + 1 - 53)) := by
  have some : wide ≠ 0 := Nat.ne_of_gt (Nat.lt_of_lt_of_le (twoTo_pos _) within)
  have bits := le_log2_of_le some within
  have rounded : 1 ≤ k → twoTo 52 ≤ nearest wide (1 * twoTo (wide.log2 + 1 - 53)) := by
    intro normal
    refine le_nearest (Nat.mul_pos Nat.one_pos (twoTo_pos _)) ?_
    rw [Nat.one_mul, ← twoTo_add, show 52 + (wide.log2 + 1 - 53) = wide.log2 by omega]
    exact twoTo_log2_le some
  rw [twoTo_52] at rounded ⊢
  omega

/-- A whole number is not rounded below one. -/
theorem le_units_ofNat {n : Nat} (positive : 0 < n) : twoTo 1074 ≤ (ofNat n).units := by
  have wide : twoTo 1074 ≤ n * twoTo 1074 := Nat.le_mul_of_pos_left _ positive
  have magnitude : 1023 * twoTo 52 ≤ (ofNat n).magnitude := by
    rw [ofNat, magnitude_ofRatio, magnitudeOf]
    refine Nat.le_min.mpr ⟨?_, ?_⟩
    · rw [infinityMagnitude_eq, twoTo_52]
      omega
    · have rounded := @le_rounded (n * twoTo 1074) 1023 wide
      rw [Nat.div_one]
      exact rounded
  have exponent : 1023 ≤ (ofNat n).magnitude / twoTo 52 :=
    (Nat.le_div_iff_mul_le (twoTo_pos 52)).mpr magnitude
  rw [units, if_neg (by omega), show twoTo 1074 = twoTo 52 * twoTo 1022 from twoTo_add 52 1022]
  exact Nat.mul_le_mul (Nat.le_add_right _ _) (twoTo_mono (by omega))

theorem isNaN_of_isFinite {x : Binary64} (finite : x.isFinite) : x.isNaN = false := by
  have below := of_decide_eq_true finite
  exact decide_eq_false (by omega)

theorem isInfinite_of_isFinite {x : Binary64} (finite : x.isFinite) : x.isInfinite = false := by
  have below := of_decide_eq_true finite
  exact decide_eq_false (by omega)

theorem mul_of_isFinite {x y : Binary64} (finite : x.isFinite) (factor : y.isFinite) :
    x.mul y =
      ofRatio (x.isNegative != y.isNegative) (x.units * y.units) (twoTo 1074 * twoTo 1074) := by
  rw [mul, isNaN_of_isFinite finite, isNaN_of_isFinite factor, isInfinite_of_isFinite finite,
    isInfinite_of_isFinite factor]
  simp only [Bool.or_self, Bool.false_eq_true, if_false]

theorem div_of_isFinite {x y : Binary64} (finite : x.isFinite) (divisor : y.isFinite)
    (some : 0 < y.units) : x.div y = ofRatio (x.isNegative != y.isNegative) x.units y.units := by
  have zero : y.magnitude ≠ 0 := by
    intro zero
    rw [units, zero, Nat.zero_div, if_pos rfl, Nat.zero_mod] at some
    exact Nat.lt_irrefl 0 some
  rw [div, isNaN_of_isFinite finite, isNaN_of_isFinite divisor, isInfinite_of_isFinite finite,
    isInfinite_of_isFinite divisor]
  simp only [Bool.or_self, Bool.false_eq_true, if_false, if_neg zero]

theorem isFinite_div {x y : Binary64} (finite : x.isFinite) (divisor : y.isFinite)
    (great : twoTo 1074 ≤ y.units) : (x.div y).isFinite := by
  have positive : 0 < y.units := Nat.lt_of_lt_of_le (twoTo_pos 1074) great
  rw [div_of_isFinite finite divisor positive]
  exact isFinite_ofRatio _ positive (Nat.mul_le_mul (units_le finite) great)

theorem isFinite_mul {x y : Binary64} (finite : x.isFinite) (factor : y.isFinite)
    (small : (x.mul y).isInfinite = false) : (x.mul y).isFinite := by
  rw [mul_of_isFinite finite factor] at small ⊢
  have within := magnitudeOf_le (x.units * y.units) (twoTo 1074 * twoTo 1074)
  rw [isInfinite, magnitude_ofRatio] at small
  rw [isFinite, magnitude_ofRatio]
  exact decide_eq_true (Nat.lt_of_le_of_ne within (of_decide_eq_false small))

theorem magnitude_lt_twoTo (x : Binary64) : x.magnitude < twoTo 63 := Nat.mod_lt _ (twoTo_pos 63)

theorem isFinite_negate {x : Binary64} : x.negate.isFinite = x.isFinite := by
  rw [isFinite, negate, magnitude_ofMagnitude _ x.magnitude_lt_twoTo, isFinite]

theorem isFinite_pow10 {k : Nat} (within : k ≤ 308) : (pow10 k).isFinite := by
  have greatest : tenTo 308 ≤ (twoTo 53 - 1) * twoTo 971 := by decide +kernel
  exact isFinite_ofNat (Nat.le_trans (tenTo_mono within) greatest)

theorem le_units_pow10 (k : Nat) : twoTo 1074 ≤ (pow10 k).units := le_units_ofNat (tenTo_pos k)

theorem isFinite_ofInt {n : Int} (within : n.natAbs ≤ (twoTo 53 - 1) * twoTo 971) :
    (ofInt n).isFinite := by
  refine isFinite_ofRatio _ Nat.one_pos ?_
  rw [Nat.mul_one, greatestUnits, show twoTo 2045 = twoTo 971 * twoTo 1074 from twoTo_add 971 1074,
    ← Nat.mul_assoc]
  exact Nat.mul_le_mul_right _ within

theorem le_iff {x y : Binary64} :
    x.le y ↔ x.isNaN = false ∧ y.isNaN = false ∧ x.rank ≤ y.rank := by
  simp [le, and_assoc]

theorem same_iff {x y : Binary64} :
    x.same y ↔ x.isNaN = false ∧ y.isNaN = false ∧ x.rank = y.rank := by
  simp [same, and_assoc]

theorem lt_iff {x y : Binary64} :
    x.lt y ↔ x.isNaN = false ∧ y.isNaN = false ∧ x.rank < y.rank := by
  simp [lt, and_assoc]

theorem lt_eq_false {x y : Binary64} (number : x.isNaN = false) (other : y.isNaN = false) :
    x.lt y = false ↔ y.le x := by
  simp [lt, le, number, other]

theorem rank_le_magnitude (x : Binary64) : x.rank ≤ x.magnitude := by
  rw [rank]
  split <;> omega

theorem magnitude_eq_rank {x : Binary64} (positive : 0 ≤ x.rank) :
    (x.magnitude : Int) = x.rank := by
  rw [rank] at positive ⊢
  by_cases negative : x.isNegative
  · rw [if_pos negative] at positive ⊢
    omega
  · rw [if_neg negative]

/-- What lies between zero and a finite number is finite. -/
theorem isFinite_of_between {x y : Binary64} (low : zero.le x) (high : x.le y)
    (finite : y.isFinite) : x.isFinite := by
  have positive : 0 ≤ x.rank := (le_iff.mp low).2.2
  have within : x.rank ≤ y.rank := (le_iff.mp high).2.2
  have below := of_decide_eq_true finite
  have same := magnitude_eq_rank positive
  have bound := rank_le_magnitude y
  exact decide_eq_true (by omega)

theorem ext_magnitude {x y : Binary64} (sign : x.isNegative = y.isNegative)
    (magnitude : x.magnitude = y.magnitude) : x = y := by
  have sign : twoTo 63 ≤ x.bits.toNat ↔ twoTo 63 ≤ y.bits.toNat := decide_eq_decide.mp sign
  have magnitude : x.bits.toNat % twoTo 63 = y.bits.toNat % twoTo 63 := magnitude
  have first := x.bits.toNat_lt
  have second := y.bits.toNat_lt
  have bits : x.bits.toNat = y.bits.toNat := by
    rw [twoTo_63] at sign magnitude
    omega
  cases x
  cases y
  exact congrArg Binary64.mk (UInt64.toNat_inj.mp bits)

/-- The only number from zero on that is not finite. -/
theorem eq_infinity {x : Binary64} (low : zero.le x) (great : x.isFinite = false) :
    x = infinity false := by
  obtain ⟨_, number, low⟩ := le_iff.mp low
  have number : ¬infinityMagnitude < x.magnitude := of_decide_eq_false number
  have great : ¬x.magnitude < infinityMagnitude := of_decide_eq_false great
  have top : x.magnitude = infinityMagnitude := by omega
  have same : (infinity false).magnitude = infinityMagnitude := by decide
  have positive : x.isNegative = false := by
    rw [show rank zero = 0 by decide, rank, top, infinityMagnitude_eq] at low
    by_cases negative : x.isNegative
    · rw [if_pos negative] at low
      omega
    · simpa using negative
  exact ext_magnitude (positive.trans (by decide)) (top.trans same.symm)

/-- What is not above the lower bound is moved to where that stands. -/
theorem rank_clamp_low {x low high : Binary64} (below : x.le low) (order : low.le high) :
    (x.clamp low high).rank = low.rank := by
  obtain ⟨number, other, below⟩ := le_iff.mp below
  have order := (le_iff.mp order).2.2
  rw [clamp]
  by_cases less : x.lt low
  · rw [if_pos less]
  · have least := (le_iff.mp ((lt_eq_false number other).mp (Bool.eq_false_iff.mpr less))).2.2
    have inside : ¬high.lt x := fun above => by
      have above := (lt_iff.mp above).2.2
      omega
    rw [if_neg less, if_neg inside]
    omega

/-- What is not below the upper bound is moved to where that stands. -/
theorem rank_clamp_high {x low high : Binary64} (above : high.le x) (order : low.le high) :
    (x.clamp low high).rank = high.rank := by
  obtain ⟨other, number, above⟩ := le_iff.mp above
  have order := (le_iff.mp order).2.2
  have inside : ¬x.lt low := fun less => by
    have less := (lt_iff.mp less).2.2
    omega
  rw [clamp, if_neg inside]
  by_cases more : high.lt x
  · rw [if_pos more]
  · have greatest := (le_iff.mp ((lt_eq_false other number).mp (Bool.eq_false_iff.mpr more))).2.2
    rw [if_neg more]
    omega

/-- Numbers other than zero are told apart by their ranks. -/
theorem eq_of_rank {x y : Binary64} (positive : 0 < y.rank) (same : x.rank = y.rank) : x = y := by
  have not_negative {z : Binary64} (positive : 0 < z.rank) : z.isNegative = false := by
    by_cases negative : z.isNegative
    · rw [rank, if_pos negative] at positive
      omega
    · exact Bool.eq_false_iff.mpr negative
  have first := magnitude_eq_rank (x := x) (by omega)
  have second := magnitude_eq_rank (x := y) (by omega)
  apply ext_magnitude
  · rw [not_negative positive, not_negative (same ▸ positive)]
  · omega

end Binary64

end NotificationRelay
