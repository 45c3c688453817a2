/-! Powers and sums of natural numbers. -/
namespace NotificationRelay

def twoTo (n : Nat) : Nat := Nat.pow 2 n

def tenTo (n : Nat) : Nat := Nat.pow 10 n

def greatest (bits : Nat) : Nat := twoTo bits - 1

def total : List Nat → Nat
  | [] => 0
  | n :: rest => n + total rest

@[simp]
theorem twoTo_zero : twoTo 0 = 1 := rfl

theorem twoTo_succ (n : Nat) : twoTo (n + 1) = 2 * twoTo n := by
  rw [Nat.mul_comm]
  rfl

theorem twoTo_pos (n : Nat) : 0 < twoTo n := by
  induction n with
  | zero => exact Nat.one_pos
  | succ n positive =>
    rw [twoTo_succ]
    omega

theorem total_append (a b : List Nat) : total (a ++ b) = total a + total b := by
  induction a with
  | nil => exact (Nat.zero_add _).symm
  | cons n rest step =>
    rw [List.cons_append, total, step, total, Nat.add_assoc]

end NotificationRelay
