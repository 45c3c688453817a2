import NotificationRelay.Proofs.Result
import NotificationRelay.Proofs.Text.Utf8
import NotificationRelay.Time.Rfc3339

/-! The two grammars of timestamps: what the strict one reads, the lenient one reads as the same
instant. -/
namespace NotificationRelay.Time

open Text
open Utf8 (toNat_of_isDigit)

/-- No character between the blank and the controls behind ASCII is a blank. -/
theorem isBlank_of_visible {c : Char} (low : 32 < c.toNat) (high : c.toNat < 133) :
    isBlank c = false := by
  simp only [isBlank, blankRanges, List.any_cons, List.any_nil, Bool.or_eq_false_iff,
    Bool.and_eq_false_iff, decide_eq_false_iff_not, Nat.not_le, and_true]
  omega

theorem isBlank_of_isDigit {c : Char} (digit : c.isDigit) : isBlank c = false := by
  have bounds := toNat_of_isDigit digit
  exact isBlank_of_visible (by omega) (by omega)

theorem trimStart_of_visible {c : Char} {text : List Char} (visible : isBlank c = false) :
    trimStart (c :: text) = c :: text :=
  List.dropWhile_cons_of_neg (by simp [visible])

theorem trimStart_nil : trimStart [] = [] := rfl

def Pair (text : List Char) (n : Nat) (rest : List Char) : Prop :=
  ∃ c d, text = c :: d :: rest ∧ c.isDigit ∧ d.isDigit ∧ n = (c.toNat - 48) * 10 + (d.toNat - 48)

theorem digit_success {c : Char} {n : Nat} (ok : digit c = .ok n) : c.isDigit ∧ n = c.toNat - 48 := by
  unfold digit at ok
  split at ok
  · rename_i isDigit
    cases ok
    exact ⟨isDigit, rfl⟩
  · cases ok

theorem twoDigits_success {text rest : List Char} {a b : Nat}
    (ok : twoDigits text = .ok (a, b, rest)) :
    ∃ c d, text = c :: d :: rest ∧ c.isDigit ∧ d.isDigit ∧ a = c.toNat - 48 ∧ b = d.toNat - 48 := by
  unfold twoDigits at ok
  split at ok
  · rename_i c d more
    obtain ⟨a', first, ok⟩ := bind_success ok
    obtain ⟨b', second, ok⟩ := bind_success ok
    cases ok
    obtain ⟨isDigit, rfl⟩ := digit_success first
    obtain ⟨isDigit', rfl⟩ := digit_success second
    exact ⟨c, d, rfl, isDigit, isDigit', rfl, rfl⟩
  · cases ok
  · cases ok

theorem pair_success {text rest : List Char} {n : Nat} (ok : pair text = .ok (n, rest)) :
    Pair text n rest := by
  obtain ⟨⟨a, b, more⟩, digits, ok⟩ := bind_success ok
  cases ok
  obtain ⟨c, d, rfl, first, second, rfl, rfl⟩ := twoDigits_success digits
  exact ⟨c, d, rfl, first, second, rfl⟩

theorem literal_success {c : Char} {text rest : List Char} (ok : literal c text = .ok rest) :
    text = c :: rest := by
  cases text with
  | nil => cases ok
  | cons d tail =>
    rw [literal] at ok
    split at ok
    · rename_i same
      cases ok
      rw [same]
    · cases ok

theorem literal_trimmed {c : Char} {text rest : List Char} (visible : isBlank c = false)
    (ok : literal c text = .ok rest) : literal c (trimStart text) = .ok rest := by
  obtain rfl := literal_success ok
  rw [trimStart_of_visible visible]
  exact ok

theorem field_of_pair {text rest : List Char} {n low high : Nat} (ok : pair text = .ok (n, rest))
    (within : low ≤ n ∧ n ≤ high) : field low high text = .ok (n, rest) := by
  obtain ⟨c, d, rfl, first, second, rfl⟩ := pair_success ok
  have read : number 2 (c :: d :: rest) =
      .ok ((c.toNat - 48) * 10 + (d.toNat - 48), rest) := by
    simp [number, first, second]
  unfold field
  rw [trimStart_of_visible (isBlank_of_isDigit first), read]
  simp only [bind, Except.bind]
  rw [if_pos within]
  rfl

/-- The bound of years stays a variable here: as a number it would be counted down in unary. -/
private theorem year_of_number {bound n : Nat} {rest : List Char} (less : n < bound) :
    (do
      let (year, rest) ← (fun (n, rest) => ((n : Int), rest)) <$> Except.ok (n, rest)
      if -(bound : Int) ≤ year ∧ year < bound then return (year, rest) else throw .outOfRange :
      Except Fault (Int × List Char)) = .ok (n, rest) := by
  exact if_pos (by omega)

theorem lenientYear_of_pairs {text middle rest : List Char} {century year : Nat}
    (first : pair text = .ok (century, middle)) (second : pair middle = .ok (year, '-' :: rest)) :
    lenientYear text = .ok ((century * 100 + year : Int), '-' :: rest) := by
  obtain ⟨c, d, rfl, thousands, hundreds, rfl⟩ := pair_success first
  obtain ⟨e, f, rfl, tens, ones, rfl⟩ := pair_success second
  have bounds := And.intro (toNat_of_isDigit thousands) (toNat_of_isDigit hundreds)
  have bounds' := And.intro (toNat_of_isDigit tens) (toNat_of_isDigit ones)
  have read : number 4 (c :: d :: e :: f :: '-' :: rest) =
      .ok ((((c.toNat - 48) * 10 + (d.toNat - 48)) * 10 + (e.toNat - 48)) * 10 + (f.toNat - 48),
        '-' :: rest) := by
    simp [number, thousands, hundreds, tens, ones]
  unfold lenientYear
  rw [trimStart_of_visible (isBlank_of_isDigit thousands)]
  split
  · rename_i same
    obtain ⟨rfl, _⟩ := List.cons.inj same
    exact absurd thousands (by decide)
  · rename_i same
    obtain ⟨rfl, _⟩ := List.cons.inj same
    exact absurd thousands (by decide)
  · have great : 10000 ≤ twoTo 31 := by decide
    rw [read, year_of_number (by omega)]
    refine congrArg (fun year : Int => Except.ok (year, '-' :: rest)) ?_
    omega

theorem separator_success {text rest : List Char} (ok : separator text = .ok rest) :
    ∃ c, text = c :: rest := by
  unfold separator at ok
  split at ok
  · cases ok
    exact ⟨_, rfl⟩
  · cases ok
    exact ⟨_, rfl⟩
  · cases ok
    exact ⟨_, rfl⟩
  · cases ok

theorem offsetSign_success {text rest : List Char} {negative : Bool}
    (ok : offsetSign text = .ok (negative, rest)) :
    ∃ c, text = c :: rest ∧ isBlank c = false ∧ c.toLower ≠ 'u' := by
  cases text with
  | nil => cases ok
  | cons c more =>
    rw [offsetSign] at ok
    split at ok
    · rename_i plus
      cases ok
      exact ⟨c, rfl, by rw [plus]; decide, by rw [plus]; decide⟩
    · split at ok
      · rename_i minus
        cases ok
        obtain rfl | code := minus
        · exact ⟨'-', rfl, by decide, by decide⟩
        · obtain rfl : c = '−' := Char.toNat_inj.mp code
          exact ⟨'−', rfl, by decide, by decide⟩
      · cases ok

theorem offsetMinutes_success {text rest : List Char} {minutes : Nat}
    (ok : offsetMinutes text = .ok (minutes, rest)) : ∃ c more, text = c :: more ∧ c.isDigit := by
  obtain ⟨⟨tens, ones, more⟩, digits, _⟩ := bind_success ok
  obtain ⟨c, d, rfl, first, _⟩ := twoDigits_success digits
  exact ⟨c, d :: more, rfl, first⟩

/-- An offset starts with a letter or a sign. -/
theorem offset_success {text rest : List Char} {shift : Int}
    (ok : offset false text = .ok (shift, rest)) :
    offset true text = .ok (shift, rest) ∧
      ∃ c more, text = c :: more ∧ isBlank c = false ∧ c.toLower ≠ 'u' := by
  unfold offset at ok ⊢
  split at ok
  · exact ⟨ok, _, _, rfl, by decide, by decide⟩
  · exact ⟨ok, _, _, rfl, by decide, by decide⟩
  · obtain ⟨⟨negative, clock⟩, sign, afterSign⟩ := bind_success ok
    obtain ⟨⟨tens, ones, behind⟩, hours, afterHours⟩ := bind_success afterSign
    obtain ⟨minutesText, mark, afterMark⟩ := bind_success afterHours
    obtain ⟨⟨minutes, last⟩, read, _⟩ := bind_success afterMark
    obtain ⟨c, spelled, visible, noLetter⟩ := offsetSign_success sign
    refine ⟨?_, c, clock, spelled, visible, noLetter⟩
    obtain ⟨d, more, rfl, digit⟩ := offsetMinutes_success read
    obtain rfl := literal_success mark
    have noColon : d ≠ ':' := by
      rintro rfl
      exact absurd digit (by decide)
    have dropped : (':' :: d :: more).dropWhile (fun c => c = ':' || isBlank c) = d :: more := by
      simp [noColon, isBlank_of_isDigit digit]
    rw [sign]
    change (twoDigits clock >>= _) = _
    rw [hours]
    change (offsetMinutes ((':' :: d :: more).dropWhile _) >>= _) = _
    rw [dropped]
    exact afterMark

theorem daysInMonth_le (year : Int) (month : Nat) : daysInMonth year month ≤ 31 := by
  unfold daysInMonth
  split
  · split <;> omega
  · split <;> omega

theorem field_bounds {d : Date} (valid : d.isValid) :
    (1 ≤ d.month ∧ d.month ≤ 12) ∧ 1 ≤ d.day ∧ d.day ≤ 31 := by
  simp only [Date.isValid, Bool.and_eq_true, decide_eq_true_eq] at valid
  obtain ⟨⟨⟨⟨⟨_, _⟩, first⟩, last⟩, one⟩, days⟩ := valid
  exact ⟨⟨first, last⟩, one, Nat.le_trans days (daysInMonth_le _ _)⟩

/-- What the strict grammar reads, the lenient one reads as the same instant. -/
theorem parseLenient_of_parse {s : String} {t : Instant} (ok : parse s = .ok t) :
    parseLenient s = .ok t := by
  unfold parse at ok
  split at ok
  · cases ok
  obtain ⟨⟨century, afterCentury⟩, centuryRead, ok⟩ := bind_success ok
  obtain ⟨⟨year, afterYear⟩, yearRead, ok⟩ := bind_success ok
  obtain ⟨monthText, yearMark, ok⟩ := bind_success ok
  obtain ⟨⟨month, afterMonth⟩, monthRead, ok⟩ := bind_success ok
  obtain ⟨dayText, monthMark, ok⟩ := bind_success ok
  obtain ⟨⟨day, afterDay⟩, dayRead, ok⟩ := bind_success ok
  dsimp only at ok
  split at ok
  case isFalse => cases ok
  rename_i valid
  obtain ⟨hourText, separated, ok⟩ := bind_success ok
  obtain ⟨⟨hour, afterHour⟩, hourRead, ok⟩ := bind_success ok
  obtain ⟨minuteText, hourMark, ok⟩ := bind_success ok
  obtain ⟨⟨minute, afterMinute⟩, minuteRead, ok⟩ := bind_success ok
  obtain ⟨secondText, minuteMark, ok⟩ := bind_success ok
  obtain ⟨⟨second, afterSecond⟩, secondRead, ok⟩ := bind_success ok
  obtain ⟨⟨nano, afterFraction⟩, fractionRead, ok⟩ := bind_success ok
  dsimp only at ok
  split at ok
  case isFalse => cases ok
  rename_i clockwise
  obtain ⟨⟨shift, last⟩, offsetRead, finish⟩ := bind_success ok
  dsimp only at finish
  split at finish
  case isFalse => cases finish
  rename_i nothing
  have bounds := field_bounds valid
  obtain rfl := literal_success yearMark
  have yearText := lenientYear_of_pairs centuryRead yearRead
  have monthText := field_of_pair monthRead bounds.1
  have dayText := field_of_pair dayRead bounds.2
  have hourText := field_of_pair hourRead ⟨Nat.zero_le _, Nat.le_of_lt_succ clockwise.1⟩
  have minuteText := field_of_pair minuteRead ⟨Nat.zero_le _, Nat.le_of_lt_succ clockwise.2.1⟩
  have secondText := field_of_pair secondRead ⟨Nat.zero_le _, clockwise.2.2⟩
  have visible : isBlank '-' = false ∧ isBlank ':' = false := by decide
  obtain ⟨shiftText, c, more, rfl, shown, noLetter⟩ := offset_success offsetRead
  obtain ⟨d, rfl⟩ := separator_success separated
  obtain rfl := List.isEmpty_iff.mp nothing
  have noWord : ¬((c :: more).take 3).map Char.toLower = ['u', 't', 'c'] := by
    intro same
    exact noLetter (List.cons.inj same).1
  unfold parseLenient
  rw [yearText]
  simp only [bind, Except.bind, literal_trimmed visible.1 yearMark, monthText,
    literal_trimmed visible.1 monthMark, dayText, List.isEmpty_cons, Bool.false_eq_true, if_false,
    separated, hourText, literal_trimmed visible.2 hourMark, minuteText,
    literal_trimmed visible.2 minuteMark, secondText, fractionRead, trimStart_of_visible shown,
    if_neg noWord, shiftText, trimStart_nil, List.isEmpty_nil, if_true, if_pos valid]
  exact finish

end NotificationRelay.Time
