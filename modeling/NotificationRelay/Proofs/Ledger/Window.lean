import Mathlib.Data.List.DropRight
import NotificationRelay.Ledger.Window
import NotificationRelay.Proofs.Binary64.Whole

/-! What a window keeps of the times it is given, and what its percentiles are. -/
namespace NotificationRelay.Window

open Binary64

theorem makeRoom_eq (capacity : Nat) (samples : List Nat) :
    makeRoom capacity samples = samples.rtake (capacity - 1) := by
  induction samples with
  | nil => rw [makeRoom, List.rtake_nil]
  | cons oldest rest ih =>
    rw [makeRoom]
    by_cases full : capacity ≤ rest.length + 1
    · have first : (oldest :: rest).length - (capacity - 1) = rest.length - (capacity - 1) + 1 := by
        rw [List.length_cons]
        omega
      rw [if_pos full, ih, List.rtake, List.rtake, first, List.drop_succ_cons]
    · have room : (oldest :: rest).length - (capacity - 1) = 0 := by
        rw [List.length_cons]
        omega
      rw [if_neg full, List.rtake, room, List.drop_zero]

theorem rtake_rtake {α : Type} (l : List α) {m n : Nat} (less : m ≤ n) :
    (l.rtake n).rtake m = l.rtake m := by
  rw [List.rtake_eq_reverse_take_reverse, List.rtake_eq_reverse_take_reverse, List.reverse_reverse,
    List.take_take, Nat.min_eq_left less, ← List.rtake_eq_reverse_take_reverse]

/-- The window holds the last of these times, and their mean. -/
structure Keeps (w : Window) (capacity : Nat) (times : List Nat) : Prop where
  samples : w.samples = times.rtake capacity
  average : w.average = total w.samples / w.samples.length

theorem keeps_empty (capacity : Nat) : empty.Keeps capacity [] where
  samples := (List.rtake_nil capacity).symm
  average := (Nat.zero_div _).symm

theorem Keeps.push {w : Window} {capacity : Nat} {times : List Nat} (keeps : w.Keeps capacity times)
    (positive : 0 < capacity) (sample : Nat) :
    (w.push capacity sample).Keeps capacity (times ++ [sample]) where
  samples := by
    obtain ⟨rest, rfl⟩ := Nat.exists_eq_add_one_of_ne_zero (Nat.ne_of_gt positive)
    rw [Window.push, makeRoom_eq, keeps.samples, Nat.add_sub_cancel,
      rtake_rtake times (Nat.le_succ rest), List.rtake_concat_succ]
  average := rfl

/-- What a window tells of these times. It has a percentile at all exactly when it has samples, also
at what is no number. -/
structure Tells (w : Window) (capacity : Nat) (times : List Nat) : Prop where
  latest : w.samples <:+ times
  length : w.samples.length = min times.length capacity
  nothing : w.samples = [] → w.average = 0
  mean : w.samples ≠ [] → w.average = total w.samples / w.samples.length
  answered : ∀ p, (w.percentile p).isSome ↔ w.samples ≠ []
  retained : ∀ p, ∀ sample ∈ w.percentile p, sample ∈ w.samples
  oldest : ∀ p, p.le zero → w.percentile p = w.samples.head?
  newest : ∀ p, (ofNat 100).le p → w.percentile p = w.samples.getLast?

theorem place_lt {length : Nat} (some : 0 < length) (p : Binary64) : place length p < length := by
  rw [place]
  exact Nat.lt_of_le_of_lt (Nat.min_le_right _ _) (Nat.sub_one_lt_of_lt some)

theorem whole_hundred : IsWhole (ofNat 100) 100 := isWhole_ofNat (by decide)

theorem hundred_positive : 0 < (ofNat 100).rank := by decide +kernel

theorem zero_le_hundred : zero.le (ofNat 100) := by decide +kernel

section

variable {length : Nat} (few : length < twoTo 32)

include few

theorem whole_length : IsWhole (ofNat length) length :=
  isWhole_ofNat (Nat.lt_trans few (Nat.pow_lt_pow_right (by decide) (by decide)))

theorem place_oldest {p : Binary64} (low : p.le zero) : place length p = 0 := by
  have rank : (p.clamp zero (ofNat 100)).rank = 0 := rank_clamp_low low zero_le_hundred
  have nothing : (p.clamp zero (ofNat 100)).magnitude = 0 := by
    have magnitude := magnitude_eq_rank (Int.le_of_eq rank.symm)
    omega
  have product : ((ofNat length).mul (p.clamp zero (ofNat 100))).magnitude = 0 :=
    magnitude_mul_zero nothing (whole_length few).finite
  rw [place, natPart_of_magnitude_zero, Nat.zero_min]
  exact magnitude_zero_div product whole_hundred.finite (whole_hundred.units_pos (by decide))

theorem place_newest {p : Binary64} (high : (ofNat 100).le p) : place length p = length - 1 := by
  have small : length * 100 < twoTo 53 := by
    rw [twoTo_53]
    exact Nat.lt_trans (Nat.mul_lt_mul_of_pos_right few (by decide)) (by decide)
  have top : p.clamp zero (ofNat 100) = ofNat 100 :=
    eq_of_rank hundred_positive (rank_clamp_high high zero_le_hundred)
  have whole : IsWhole (((ofNat length).mul (ofNat 100)).div (ofNat 100)) length := by
    apply ((whole_length few).mul whole_hundred small).div whole_hundred (by decide)
    exact Nat.lt_of_le_of_lt (Nat.le_mul_of_pos_right length (by decide)) small
  rw [place, top, whole.natPart]
  exact Nat.min_eq_right (Nat.sub_le length 1)

end

theorem Keeps.tells {w : Window} {capacity : Nat} {times : List Nat} (keeps : w.Keeps capacity times)
    (few : w.samples.length < twoTo 32) : w.Tells capacity times where
  latest := by
    rw [keeps.samples, List.rtake]
    exact List.drop_suffix _ _
  length := by
    rw [keeps.samples, List.rtake, List.length_drop]
    omega
  nothing none := by rw [keeps.average, none, List.length_nil, Nat.div_zero]
  mean _ := keeps.average
  answered p := by
    rw [percentile, ← List.length_pos_iff]
    constructor
    · intro told
      by_contra none
      rw [List.getElem?_eq_none (by omega)] at told
      cases told
    · intro some
      rw [List.getElem?_eq_getElem (place_lt some p)]
      rfl
  retained p sample told := List.mem_of_getElem? told
  oldest p low := by
    rw [percentile, place_oldest few low, List.head?_eq_getElem?]
  newest p high := by
    rw [percentile, place_newest few high, List.getLast?_eq_getElem?]

end NotificationRelay.Window
