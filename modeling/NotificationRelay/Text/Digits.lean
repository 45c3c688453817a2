/-! Numbers written with digits of any base up to 16. -/
namespace NotificationRelay.Text

def digitValue (c : Char) : Option Nat :=
  if c.isDigit then some (c.toNat - 48)
  else if 'a' ≤ c ∧ c ≤ 'f' then some (c.toNat - 87)
  else if 'A' ≤ c ∧ c ≤ 'F' then some (c.toNat - 55)
  else none

def digitsValue (base : Nat) (digits : List Char) : Option Nat :=
  digits.foldlM (fun n c => ((digitValue c).filter (· < base)).map fun d => n * base + d) 0

theorem digitValue_lt {c : Char} {d : Nat} (found : digitValue c = some d) : d < 16 := by
  unfold digitValue at found
  have le_of {a b : Char} (h : a ≤ b) : a.toNat ≤ b.toNat := h
  split at found
  · next digit =>
    have upper : c.toNat ≤ 57 := by
      simp only [Char.isDigit, Bool.and_eq_true, decide_eq_true_eq] at digit
      exact UInt32.le_iff_toNat_le.mp digit.2
    have := Option.some.inj found
    omega
  · split at found
    · next low =>
      have upper : c.toNat ≤ 102 := le_of low.2
      have := Option.some.inj found
      omega
    · split at found
      · next high =>
        have upper : c.toNat ≤ 70 := le_of high.2
        have := Option.some.inj found
        omega
      · simp at found

end NotificationRelay.Text
