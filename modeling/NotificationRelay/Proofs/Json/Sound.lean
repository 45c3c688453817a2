import NotificationRelay.Proofs.Binary64
import NotificationRelay.Proofs.Json.Spelling

/-! The numbers of trees: integers fit 64 bits, and all others are finite. -/
namespace NotificationRelay.Json

open Binary64 Scan

def Number.Sound : Number → Prop
  | .natural n => n ≤ greatestWord
  | .negative n => n ≤ twoTo 63
  | .real x => x.isFinite

def Number.Spelled : Number → Prop
  | .natural n => n ≤ greatestWord
  | .negative n => 0 < n ∧ n ≤ twoTo 63
  | .real x => x.isFinite

theorem Number.Spelled.sound {n : Number} (spelled : n.Spelled) : n.Sound := by
  cases n with
  | natural n => exact spelled
  | negative n => exact spelled.2
  | real x => exact spelled

inductive Sound : Json → Prop where
  | null : Sound .null
  | flag (b : Bool) : Sound (.flag b)
  | number {n : Number} (sound : n.Sound) : Sound (.number n)
  | text (s : String) : Sound (.text s)
  | list {items : List Json} (sound : ∀ j ∈ items, Sound j) : Sound (.list items)
  | object {members : List (String × Json)} (sound : ∀ m ∈ members, Sound m.2) :
      Sound (.object members)

namespace Scan

variable {negative : Bool} {significand : Nat} {n : Number} {rest : Bytes}

theorem greatestWord_le : greatestWord ≤ (twoTo 53 - 1) * twoTo 971 := by decide +kernel

theorem twoTo_63_le : twoTo 63 ≤ (twoTo 53 - 1) * twoTo 971 := by decide +kernel

theorem gather_le {significand : Nat} (digits : List UInt8) (within : significand ≤ greatestWord) :
    (gather significand digits).1 ≤ greatestWord := by
  induction digits generalizing significand with
  | nil => exact within
  | cons b digits ih =>
    rw [gather]
    split
    · rename_i fits
      exact ih fits
    · exact within

/-- Scaling is given up before it leaves the finite numbers. -/
theorem isFinite_scale {x y : Binary64} {exponent : Int} (finite : x.isFinite)
    (ok : scale x exponent = some y) : y.isFinite := by
  induction x, exponent using scale.induct with
  | case1 x exponent near up product great =>
    rw [scale, if_pos near, if_pos up, if_pos great] at ok
    cases ok
  | case2 x exponent near up product small =>
    rw [scale, if_pos near, if_pos up, if_neg small] at ok
    obtain rfl := Option.some.inj ok
    exact isFinite_mul finite (isFinite_pow10 near) (Bool.not_eq_true _ ▸ small)
  | case3 x exponent near down =>
    rw [scale, if_pos near, if_neg down] at ok
    obtain rfl := Option.some.inj ok
    exact isFinite_div finite (isFinite_pow10 near) (le_units_pow10 _)
  | case4 x exponent far zero =>
    rw [scale, if_neg far, if_pos zero] at ok
    obtain rfl := Option.some.inj ok
    exact finite
  | case5 x exponent far some up =>
    rw [scale, if_neg far, if_neg some, if_pos up] at ok
    cases ok
  | case6 x exponent far some down ih =>
    rw [scale, if_neg far, if_neg some, if_neg down] at ok
    exact ih (isFinite_div finite (isFinite_pow10 (Nat.le_refl _)) (le_units_pow10 _)) ok

theorem isFinite_signed {x : Binary64} (finite : x.isFinite) : (signed negative x).isFinite := by
  rw [signed]
  split
  · rw [isFinite_negate]
    exact finite
  · exact finite

theorem spelled_realOf {exponent : Int} (within : significand ≤ greatestWord)
    (ok : realOf negative significand exponent rest = .ok n) : n.Spelled := by
  unfold realOf at ok
  split at ok
  · rename_i x scaled
    cases ok
    have finite := isFinite_ofNat (Nat.le_trans within greatestWord_le)
    exact isFinite_signed (isFinite_scale finite scaled)
  · cases ok

theorem spelled_exponentPart {start : Int} {bytes : Bytes} (within : significand ≤ greatestWord)
    (ok : Yields (exponentPart negative significand start bytes) n rest) : n.Spelled := by
  obtain ⟨step, ok, rfl, rfl⟩ := ok
  unfold exponentPart at ok
  split at ok
  · cases ok
  · split at ok
    · dsimp only at ok
      split at ok
      · split at ok
        · rename_i real
          cases ok
          exact spelled_realOf within real
        · cases ok
      · split at ok
        · cases ok
        · cases ok
          exact isFinite_signed (by decide)
    · cases ok

theorem spelled_exponentOrEnd {exponent : Int} {bytes : Bytes} (within : significand ≤ greatestWord)
    (ok : Yields (exponentOrEnd negative significand exponent bytes) n rest) : n.Spelled := by
  cases bytes with
  | nil =>
    simp only [exponentOrEnd] at ok
    split at ok
    · rename_i real
      obtain ⟨rfl, _⟩ := ok.eq_of yields_ok
      exact spelled_realOf within real
    · exact absurd rfl ok.ne_error
  | cons b tail =>
    simp only [exponentOrEnd] at ok
    split at ok
    · split at ok
      · rename_i step found
        obtain ⟨rfl, _⟩ := ok.eq_of yields_ok
        exact spelled_exponentPart within ⟨step, found, rfl, rfl⟩
      · exact absurd rfl ok.ne_error
    · split at ok
      · rename_i real
        obtain ⟨rfl, _⟩ := ok.eq_of yields_ok
        exact spelled_realOf within real
      · exact absurd rfl ok.ne_error

theorem spelled_fractionPart {exponent : Int} {bytes : Bytes} (within : significand ≤ greatestWord)
    (ok : Yields (fractionPart negative significand exponent bytes) n rest) : n.Spelled := by
  unfold fractionPart at ok
  dsimp only at ok
  split at ok
  · cases bytes <;> exact absurd rfl ok.ne_error
  · split at ok
    · rename_i step found
      obtain ⟨rfl, _⟩ := ok.eq_of yields_ok
      exact spelled_exponentOrEnd (gather_le _ within) ⟨step, found, rfl, rfl⟩
    · exact absurd rfl ok.ne_error

theorem spelled_integer (within : significand ≤ greatestWord) :
    (integer negative significand).Spelled := by
  rw [integer]
  split
  · exact within
  · split
    · rename_i fits
      exact fits
    · rw [Number.Spelled, isFinite_negate]
      exact isFinite_ofNat (Nat.le_trans within greatestWord_le)

theorem spelled_afterDigits {exceeding : Nat} {bytes : Bytes} (within : significand ≤ greatestWord)
    (ok : Yields (afterDigits negative significand exceeding bytes) n rest) : n.Spelled := by
  cases bytes with
  | nil =>
    simp only [afterDigits] at ok
    split at ok
    · obtain ⟨rfl, _⟩ := ok.eq_of yields_ok
      exact spelled_integer within
    · exact spelled_exponentOrEnd within ok
  | cons b tail =>
    simp only [afterDigits] at ok
    split at ok
    · split at ok
      · rename_i step found
        obtain ⟨rfl, _⟩ := ok.eq_of yields_ok
        exact spelled_fractionPart within ⟨step, found, rfl, rfl⟩
      · exact absurd rfl ok.ne_error
    · split at ok
      · obtain ⟨rfl, _⟩ := ok.eq_of yields_ok
        exact spelled_integer within
      · exact spelled_exponentOrEnd within ok

theorem spelled_unsigned {bytes : Bytes} (ok : Yields (unsigned negative bytes) n rest) : n.Spelled := by
  have digit_le (b : UInt8) : b.toNat - 48 ≤ greatestWord :=
    Nat.le_trans (Nat.sub_le _ _) (Nat.le_trans (Nat.le_of_lt b.toNat_lt) (by decide))
  cases bytes with
  | nil => exact absurd rfl ok.ne_error
  | cons b tail =>
    simp only [unsigned] at ok
    split at ok
    · cases tail with
      | nil => exact spelled_afterDigits (Nat.zero_le _) ok
      | cons c more =>
        simp only at ok
        split at ok
        · exact absurd rfl ok.ne_error
        · exact spelled_afterDigits (Nat.zero_le _) ok
    · split at ok
      · exact spelled_afterDigits (gather_le _ (digit_le b)) ok.of_within
      · exact absurd rfl ok.ne_error

theorem spelled_number {bytes : Bytes} (ok : Yields (number bytes) n rest) : n.Spelled := by
  cases bytes with
  | nil => exact absurd rfl ok.ne_error
  | cons b tail =>
    rw [number] at ok
    split at ok
    · exact spelled_unsigned ok.of_within
    · exact spelled_unsigned ok

section

variable {item : (bytes : Bytes) → Except Fault (Step Json bytes.length)} {P : Json → Prop}
  (holds : ∀ {bytes j rest}, Yields (item bytes) j rest → P j)

include holds

/-- What holds of all that `item` reads holds of the items of an array. -/
theorem elements_hold {index : Nat} {bytes : Bytes} {items : List Json}
    (elements : Elements item index bytes items rest) : ∀ j ∈ items, P j := by
  induction elements with
  | done => simp
  | item next head tail ih =>
    intro j among
    rcases List.mem_cons.mp among with rfl | among
    · exact holds head
    · exact ih j among

theorem entries_hold {first : Bool} {bytes : Bytes} {members : List (String × Json)}
    (entries : Entries item first bytes members rest) : ∀ m ∈ members, P m.2 := by
  induction entries with
  | done => simp
  | entry next name value tail ih =>
    intro m among
    rcases List.mem_cons.mp among with rfl | among
    · obtain ⟨_, _, head⟩ := memberValue_spelled value
      exact holds head
    · exact ih m among

end

/-- What holds of a value as soon as it holds of those inside of it holds of any that is read. -/
theorem value_hold {P : Nat → Json → Prop} (null : ∀ depth, P depth .null)
    (flag : ∀ depth truth, P depth (.flag truth)) (text : ∀ depth s, P depth (.text s))
    (number : ∀ depth (n : Number), n.Spelled → P depth (.number n))
    (list : ∀ depth items, (∀ j ∈ items, P depth j) → P (depth + 1) (.list items))
    (object : ∀ depth members, (∀ m ∈ members, P depth m.2) → P (depth + 1) (.object members))
    {depth : Nat} {bytes : Bytes} {j : Json} (ok : Yields (value depth bytes) j rest) :
    P depth j := by
  -- on the depth in its order, since only the nested values go down by one
  induction depth using Nat.strongRecOn generalizing bytes j rest with
  | ind depth ih =>
    obtain ⟨b, tail, found, spelled⟩ := spelled_of_value ok
    cases spelled with
    | null => exact null depth
    | truth => exact flag depth true
    | falsity => exact flag depth false
    | text => exact text depth _
    | number _ spelling => exact number depth _ (spelled_number spelling)
    | list _ elements => exact list _ _ (elements_hold (ih _ (Nat.lt_succ_self _)) elements)
    | object _ entries => exact object _ _ (entries_hold (ih _ (Nat.lt_succ_self _)) entries)

theorem sound_value {depth : Nat} {bytes : Bytes} {j : Json}
    (ok : Yields (value depth bytes) j rest) : j.Sound :=
  value_hold (P := fun _ j => j.Sound) (fun _ => .null) (fun _ => .flag) (fun _ => .text)
    (fun _ _ spelled => .number spelled.sound) (fun _ _ => .list) (fun _ _ => .object) ok

end Scan

theorem sound_read {source : Bytes} {j : Json} (ok : read source = .ok j) : j.Sound := by
  unfold read at ok
  split at ok
  · cases ok
  · rename_i step found
    split at ok
    · cases ok
    · cases ok
      exact Scan.sound_value ⟨step, found, rfl, rfl⟩

theorem Sound.items {items : List Json} (sound : Sound (.list items)) : ∀ j ∈ items, j.Sound := by
  cases sound with
  | list sound => exact sound

theorem Sound.members {members : List (String × Json)} (sound : Sound (.object members)) :
    ∀ m ∈ members, m.2.Sound := by
  cases sound with
  | object sound => exact sound

end NotificationRelay.Json
