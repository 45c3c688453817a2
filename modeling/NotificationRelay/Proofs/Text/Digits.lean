import Mathlib.Data.Nat.Digits.Defs
import NotificationRelay.Text.Digits

/-! A number is read from its own digits, in any base. -/
namespace NotificationRelay.Text

theorem digitValue_digitChar {base d : Nat} (known : base ≤ 16) (digit : d < base) :
    (digitValue d.digitChar).filter (· < base) = some d := by
  have values : ∀ d < 16, digitValue (Nat.digitChar d) = some d := by decide
  rw [values d (by omega), Option.filter_some, if_pos (decide_eq_true digit)]

theorem digitsValue_toDigits {base : Nat} (several : 1 < base) (known : base ≤ 16) (n : Nat) :
    digitsValue base (Nat.toDigits base n) = some n := by
  induction n using Nat.strong_induction_on with
  | _ n below =>
    by_cases small : n < base
    · rw [Nat.toDigits_of_lt_base small, digitsValue, List.foldlM_cons,
        digitValue_digitChar known small, Nat.zero_mul]
      simp
    · have fewer : n / base < n := Nat.div_lt_self (by omega) several
      have last : n % base < base := Nat.mod_lt n (by omega)
      have before := below _ fewer
      rw [digitsValue] at before
      rw [Nat.toDigits_of_base_le several (by omega), digitsValue, List.foldlM_append, before]
      simp only [Option.bind_eq_bind, Option.bind_some, List.foldlM_cons, List.foldlM_nil,
        digitValue_digitChar known last, Option.map_some, Option.pure_def, Option.some.injEq]
      exact Nat.div_add_mod' n base

end NotificationRelay.Text
