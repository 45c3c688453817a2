import NotificationRelay.Binary64.Decimal
import NotificationRelay.Proofs.Rounding

/-! The shortest decimal of a number. It has a digit other than zero, and is below what the number
is below. -/
namespace NotificationRelay

open Binary64

namespace Decimal

def Below (d : Decimal) (bound : Nat) : Prop := d.numerator * twoTo 1074 < bound * d.denominator

theorem denominator_pos (d : Decimal) : 0 < d.denominator := tenTo_pos _

theorem tenTo_succ (n : Nat) : tenTo (n + 1) = tenTo n * 10 := rfl

/-- A final zero is worth one more in the exponent. -/
theorem below_tens {q : Nat} {exponent : Int} {bound : Nat} :
    Below ⟨10 * q, exponent⟩ bound ↔ Below ⟨q, exponent + 1⟩ bound := by
  rw [Below, Below, numerator, denominator, numerator, denominator]
  dsimp only
  rcases Int.lt_or_le exponent 0 with down | up
  · obtain ⟨k, rfl⟩ : ∃ k : Nat, exponent = -(k + 1) := ⟨(-exponent - 1).toNat, by omega⟩
    rw [show (-(k + 1 : Int)).toNat = 0 by omega, show (-(k + 1 : Int) + 1).toNat = 0 by omega,
      show (- -(k + 1 : Int)).toNat = k + 1 by omega, show (-(-(k + 1 : Int) + 1)).toNat = k by omega,
      tenTo_succ]
    have left : 10 * q * tenTo 0 * twoTo 1074 = 10 * (q * tenTo 0 * twoTo 1074) := by
      simp only [Nat.mul_assoc]
    have right : bound * (tenTo k * 10) = 10 * (bound * tenTo k) := by
      rw [← Nat.mul_assoc, Nat.mul_comm]
    rw [left, right]
    exact Nat.mul_lt_mul_left (by decide)
  · obtain ⟨k, rfl⟩ : ∃ k : Nat, exponent = k := ⟨exponent.toNat, by omega⟩
    rw [show ((k : Int)).toNat = k by omega, show ((k : Int) + 1).toNat = k + 1 by omega,
      show (-(k : Int)).toNat = 0 by omega, show (-((k : Int) + 1)).toNat = 0 by omega, tenTo_succ]
    have same : 10 * q * tenTo k = q * (tenTo k * 10) := by
      rw [Nat.mul_comm 10, Nat.mul_assoc, Nat.mul_comm 10]
    rw [same]

theorem strip_spec (fuel : Nat) {d : Decimal} (some : d.digits ≠ 0) {bound : Nat}
    (below : d.Below bound) : (strip fuel d).digits ≠ 0 ∧ (strip fuel d).Below bound := by
  induction fuel generalizing d with
  | zero => exact ⟨some, below⟩
  | succ fuel ih =>
    rw [strip]
    split
    · rename_i final
      have tens : 10 * (d.digits / 10) = d.digits := by omega
      refine ih (by dsimp only; omega) (below_tens.mp ?_)
      rwa [tens]
    · exact ⟨some, below⟩

end Decimal

namespace Binary64

theorem nearest_zero (den : Nat) : nearest 0 den = 0 := by
  simp [nearest]

theorem magnitudeOf_eq_zero {num den : Nat} (zero : num = 0) : magnitudeOf num den = 0 := by
  have nothing : num * twoTo 1074 = 0 := by rw [zero, Nat.zero_mul]
  rw [magnitudeOf, nothing, Nat.zero_div, Nat.log2_zero, nearest_zero,
    show 0 + 1 - 53 = 0 from rfl, Nat.zero_mul]
  exact Nat.le_zero.mp (Nat.min_le_right _ _)

theorem units_of_magnitude_zero {x : Binary64} (zero : x.magnitude = 0) : x.units = 0 := by
  rw [units, zero]
  rfl

theorem candidate_reads_back {tie : Tie} {x : Binary64} {scale : Int} {n : Nat} {d : Decimal}
    (found : candidate tie x scale n = some d) : x.readsBack d := by
  -- The definition is unfolded as a function: an equation at the arguments would be compared with
  -- it by rounding the unknown candidates.
  generalize unfolded : candidate = f at found
  delta candidate at unfolded
  subst unfolded
  dsimp -zeta only at found
  extract_lets exponent floor low high at found
  clear_value low high floor
  generalize first : x.readsBack low = lowBack at found
  generalize second : x.readsBack high = highBack at found
  generalize x.compareMidpoint low = order at found
  cases lowBack with
  | false =>
    cases highBack with
    | false => cases found
    | true => exact Option.some.inj found ▸ second
  | true =>
    cases highBack with
    | false => exact Option.some.inj found ▸ first
    | true =>
      have either : d = low ∨ d = high := by
        cases order with
        | gt => exact .inl (Option.some.inj found).symm
        | lt => exact .inr (Option.some.inj found).symm
        | eq =>
          cases tie with
          | up => exact .inr (Option.some.inj found).symm
          | toEven =>
            have chosen := (Option.some.inj found).symm
            split at chosen
            · exact .inl chosen
            · exact .inr chosen
      rcases either with rfl | rfl
      · exact first
      · exact second

/-- A decimal that reads back as a number has a digit other than zero, unless the number is zero. -/
theorem digits_of_reads_back {x : Binary64} {d : Decimal} (some : x.units ≠ 0)
    (back : x.readsBack d) : d.digits ≠ 0 := by
  intro zero
  have same : magnitudeOf d.numerator d.denominator = x.magnitude := by simpa [readsBack] using back
  have nothing : d.numerator = 0 := by rw [Decimal.numerator, zero, Nat.zero_mul]
  rw [magnitudeOf_eq_zero nothing] at same
  exact some (units_of_magnitude_zero same.symm)

theorem below_of_reads_back {x : Binary64} {d : Decimal} (near : x.magnitude + 3 < infinityMagnitude)
    (back : x.readsBack d) : d.Below nearGreatest := by
  have same : magnitudeOf d.numerator d.denominator = x.magnitude := by simpa [readsBack] using back
  exact lt_of_magnitudeOf d.denominator_pos (by rwa [same])

/-- The exact value of a number as a decimal. -/
theorem below_exact {x : Binary64} {fives : Nat} (tens : fives * twoTo 1074 = tenTo 1074)
    (near : x.magnitude + 3 < infinityMagnitude) :
    Decimal.Below ⟨x.units * fives, -1074⟩ nearGreatest := by
  have numerator : Decimal.numerator ⟨x.units * fives, -1074⟩ = x.units * fives := Nat.mul_one _
  have denominator : Decimal.denominator ⟨x.units * fives, -1074⟩ = fives * twoTo 1074 := tens.symm
  rw [Decimal.Below, numerator, denominator, Nat.mul_assoc]
  exact Nat.mul_lt_mul_of_pos_right (units_lt near) (tens ▸ tenTo_pos 1074)

theorem shortest_digits (tie : Tie) {x : Binary64} (some : x.units ≠ 0)
    (near : x.magnitude + 3 < infinityMagnitude) :
    (x.shortest tie).digits ≠ 0 ∧ (x.shortest tie).Below nearGreatest := by
  rw [shortest, if_neg some]
  dsimp only
  cases found : (List.range 17).findSome? fun n => candidate tie x x.decimalScale (n + 1) with
  | some d =>
    obtain ⟨n, _, chosen⟩ := List.exists_of_findSome?_eq_some found
    have back := candidate_reads_back chosen
    exact Decimal.strip_spec _ (digits_of_reads_back some back) (below_of_reads_back near back)
  | none =>
    have tens : tenTo 1074 / twoTo 1074 * twoTo 1074 = tenTo 1074 := by decide +kernel
    generalize tenTo 1074 / twoTo 1074 = fives at tens
    have positive : fives ≠ 0 := by
      rintro rfl
      rw [Nat.zero_mul] at tens
      exact absurd tens.symm (Nat.ne_of_gt (tenTo_pos 1074))
    exact Decimal.strip_spec 1100 (Nat.mul_ne_zero some positive) (below_exact tens near)

/-- The digits of a number do not depend on its sign. -/
theorem shortest_eq (tie : Tie) {x y : Binary64} (same : x.magnitude = y.magnitude) :
    x.shortest tie = y.shortest tie := by
  have units : x.units = y.units := by rw [units, units, same]
  have scale : x.decimalScale = y.decimalScale := by rw [decimalScale, decimalScale, units]
  have back : x.readsBack = y.readsBack := by
    funext d
    rw [readsBack, readsBack, same]
  have midpoint : x.compareMidpoint = y.compareMidpoint := by
    funext low
    rw [compareMidpoint, compareMidpoint, units]
  have candidates : candidate tie x = candidate tie y := by
    generalize unfolded : candidate = f
    delta candidate at unfolded
    subst unfolded
    dsimp only
    rw [units, back, midpoint]
  rw [shortest, shortest, units, scale, candidates]

end Binary64

def Decimal.Scales (d : Decimal) : Prop :=
  d.digits ≠ 0 ∧ d.digits ≤ Json.Scan.greatestWord ∧ 0 ≤ d.exponent ∧ d.exponent ≤ 308 ∧
    ((ofNat d.digits).mul (pow10 d.exponent.toNat)).isInfinite = false

instance (d : Decimal) : Decidable d.Scales := inferInstanceAs (Decidable (_ ∧ _ ∧ _ ∧ _ ∧ _))

namespace Binary64

theorem greatest_scale :
    ∀ x ∈ ([⟨9218868437227405309⟩, ⟨9218868437227405310⟩, ⟨9218868437227405311⟩] : List Binary64),
      (x.shortest .toEven).Scales := by
  decide +kernel

/-- The last numbers before infinity. -/
theorem scales_of_great {x : Binary64} (finite : x.isFinite)
    (great : infinityMagnitude ≤ x.magnitude + 3) : (x.shortest .toEven).Scales := by
  have below := of_decide_eq_true finite
  rw [infinityMagnitude_eq] at below great
  obtain same | same | same : x.magnitude = 9218868437227405309 ∨
      x.magnitude = 9218868437227405310 ∨ x.magnitude = 9218868437227405311 := by omega
  · rw [shortest_eq .toEven (y := ⟨9218868437227405309⟩) same]
    exact greatest_scale _ (by decide)
  · rw [shortest_eq .toEven (y := ⟨9218868437227405310⟩) same]
    exact greatest_scale _ (by decide)
  · rw [shortest_eq .toEven (y := ⟨9218868437227405311⟩) same]
    exact greatest_scale _ (by decide)

end Binary64

end NotificationRelay
