import Mathlib
import NotificationRelay.Proofs.Calendar
import NotificationRelay.Proofs.Json.Numeral
import NotificationRelay.Proofs.Time

/-! The text of an instant. The lenient grammar reads it as the instant again, and so does the
strict one for the years that have four digits. An instant may also hold an extra second in the
middle of a minute, which no text tells from the ordinary second behind it: as that it is read. -/
namespace NotificationRelay.Time

open Text
open Json.Scan (Digits digits_toDigits)

/-- The instants that may be held. A billion nanoseconds and more are an extra second, which may come
after any second of the day. -/
structure Instant.IsHeld (t : Instant) : Prop where
  dated : (Date.ofDayNumber t.day).isValid
  second : t.second < 86400
  nano : t.nano < 2000000000

/-- The instants that a text can tell. Not all that are held are among them: an extra second has to
come at the end of its minute. -/
structure Instant.IsUtc (t : Instant) : Prop where
  dated : (Date.ofDayNumber t.day).isValid
  second : t.second < 86400
  nano : t.nano < 2000000000
  leap : 1000000000 ≤ t.nano → t.second % 60 = 59

/-- An extra second, if there is one, comes at the end of its minute. -/
def Instant.Placed (t : Instant) : Prop := 1000000000 ≤ t.nano → t.second % 60 = 59

instance (t : Instant) : Decidable t.Placed := inferInstanceAs (Decidable (_ → _))

/-- An extra second in the middle of a minute becomes the ordinary second behind it. -/
def Instant.settled (t : Instant) : Instant :=
  if t.Placed then t else ⟨t.day, t.second + 1, t.nano - 1000000000⟩

/-- The years of the strict grammar. -/
def Instant.FourDigits (t : Instant) : Prop :=
  0 ≤ (Date.ofDayNumber t.day).year ∧ (Date.ofDayNumber t.day).year ≤ 9999

instance (t : Instant) : Decidable t.FourDigits := inferInstanceAs (Decidable (_ ∧ _))

section

variable {rest : List Char} {n : Nat}

theorem digits_padded (width n : Nat) : Digits (padded width n) := by
  refine List.forall_mem_append.mpr ⟨fun c among => ?_, digits_toDigits n⟩
  rw [List.eq_of_mem_replicate among]
  decide

theorem value_padded (width n : Nat) : Nat.ofDigitChars 10 (padded width n) 0 = n := by
  rw [padded, Nat.ofDigitChars_append, Nat.ofDigitChars_replicate_zero, Nat.mul_zero,
    Nat.ofDigitChars_ten_toDigits]

theorem padded_ne_nil (width n : Nat) : padded width n ≠ [] := by
  intro none
  exact Nat.toDigits_ne_nil (List.append_eq_nil_iff.mp none).2

theorem length_padded {width : Nat} (some : 0 < width) (fits : n < 10 ^ width) :
    (padded width n).length = width := by
  have short := (Nat.length_toDigits_le_iff (b := 10) (n := n) (by decide) some).mpr fits
  rw [padded, List.length_append, List.length_replicate]
  omega

theorem pair_digits {c d : Char} (first : c.isDigit) (second : d.isDigit) :
    pair (c :: d :: rest) = .ok ((c.toNat - 48) * 10 + (d.toNat - 48), rest) := by
  have left : digit c = .ok (c.toNat - 48) := by rw [digit, if_pos first]
  have right : digit d = .ok (d.toNat - 48) := by rw [digit, if_pos second]
  simp only [pair, twoDigits, left, right]
  rfl

theorem pair_padded (fits : n < 100) : pair (padded 2 n ++ rest) = .ok (n, rest) := by
  have length := length_padded (show 0 < 2 by decide) fits
  have digits := digits_padded 2 n
  have value := value_padded 2 n
  generalize padded 2 n = text at length digits value
  match text, length with
  | [c, d], _ =>
    have all : c.isDigit ∧ d.isDigit := by simpa [Digits] using digits
    have same : n = (c.toNat - 48) * 10 + (d.toNat - 48) := by
      rw [← value, Nat.ofDigitChars_cons, Nat.ofDigitChars_cons]
      change 10 * (10 * 0 + (c.toNat - 48)) + (d.toNat - 48) = _
      omega
    rw [same]
    exact pair_digits all.1 all.2

/-- Four digits are two pairs. -/
theorem pairs_padded (rest : List Char) (fits : n < 10000) : ∃ century year middle,
    pair (padded 4 n ++ rest) = .ok (century, middle) ∧ pair middle = .ok (year, rest) ∧
      century * 100 + year = n := by
  have length := length_padded (show 0 < 4 by decide) fits
  have digits := digits_padded 4 n
  have value := value_padded 4 n
  generalize padded 4 n = text at length digits value
  match text, length with
  | [c, d, e, f], _ =>
    have all : c.isDigit ∧ d.isDigit ∧ e.isDigit ∧ f.isDigit := by simpa [Digits] using digits
    refine ⟨_, _, _, pair_digits all.1 all.2.1, pair_digits all.2.2.1 all.2.2.2, ?_⟩
    rw [← value, Nat.ofDigitChars_cons, Nat.ofDigitChars_cons, Nat.ofDigitChars_cons,
      Nat.ofDigitChars_cons]
    change _ = 10 * (10 * (10 * (10 * 0 + (c.toNat - 48)) + (d.toNat - 48)) + (e.toNat - 48)) +
      (f.toNat - 48)
    omega

theorem foldl_digits (digits : List Char) (s : Nat) :
    digits.foldl (fun n d => n * 10 + (d.toNat - 48)) s = Nat.ofDigitChars 10 digits s := by
  induction digits generalizing s with
  | nil => rfl
  | cons d digits ih =>
    rw [List.foldl_cons, ih, Nat.ofDigitChars_cons, Nat.mul_comm s]
    rfl

theorem takeWhile_isDigit {digits : List Char} (decimal : Digits digits)
    (stops : ∀ c ∈ rest.head?, c.isDigit = false) :
    (digits ++ rest).takeWhile Char.isDigit = digits := by
  induction digits with
  | nil =>
    cases rest with
    | nil => rfl
    | cons c rest => exact List.takeWhile_cons_of_neg (by simpa using stops c rfl)
  | cons d digits ih =>
    obtain ⟨first, others⟩ := List.forall_mem_cons.mp decimal
    rw [List.cons_append, List.takeWhile_cons_of_pos first, ih others]

theorem number_digits {digits : List Char} {most : Nat} (decimal : Digits digits)
    (some : digits ≠ []) (fits : digits.length ≤ most) (stops : ∀ c ∈ rest.head?, c.isDigit = false) :
    number most (digits ++ rest) = .ok (Nat.ofDigitChars 10 digits 0, rest) := by
  obtain ⟨c, more, rfl⟩ := List.exists_cons_of_ne_nil some
  have first : c.isDigit := decimal c List.mem_cons_self
  have cut : ∀ d ∈ (rest.take (most - (c :: more).length)).head?, d.isDigit = false := by
    intro d head
    refine stops d ?_
    rw [List.head?_take] at head
    split at head
    · cases head
    · exact head
  rw [List.cons_append, number, if_pos first, ← List.cons_append, List.take_append,
    List.take_of_length_le fits, takeWhile_isDigit decimal cut]
  dsimp only
  rw [foldl_digits, List.drop_left]

theorem nanoseconds_padded {width : Nat} (some : 0 < width) (most : width ≤ 9)
    (fits : n < 10 ^ width) :
    nanoseconds (padded width n ++ ['Z']) = .ok (n * tenTo (9 - width), ['Z']) := by
  have length := length_padded some fits
  have stops : ∀ c ∈ ['Z'].head?, c.isDigit = false := by
    rintro c ⟨⟩
    rfl
  have used : (padded width n ++ ['Z']).length - ['Z'].length = width := by
    rw [List.length_append, length]
    omega
  have read := number_digits (digits_padded width n) (padded_ne_nil width n) (length ▸ most) stops
  rw [value_padded] at read
  simp only [nanoseconds, read, bind, Except.bind, used]
  rfl

theorem fraction_text (fits : n < 1000000000) :
    fraction (fractionText n ++ ['Z']) = .ok (n, ['Z']) := by
  rw [fractionText]
  split
  · rename_i none
    rw [none]
    rfl
  split
  · rename_i millis
    have back : n / 1000000 * tenTo (9 - 3) = n := by
      change n / 1000000 * 1000000 = n
      omega
    have read := @nanoseconds_padded (n / 1000000) 3 (by decide) (by decide) (by omega)
    rw [back] at read
    exact read
  split
  · rename_i micros
    have back : n / 1000 * tenTo (9 - 6) = n := by
      change n / 1000 * 1000 = n
      omega
    have read := @nanoseconds_padded (n / 1000) 6 (by decide) (by decide) (by omega)
    rw [back] at read
    exact read
  · have read := @nanoseconds_padded n 9 (by decide) (by decide) (by omega)
    rw [show n * tenTo (9 - 9) = n from Nat.mul_one n] at read
    exact read

/-- The bound of years stays a variable here: as a number it would be counted down in unary. -/
private theorem year_within {bound : Nat} {year : Int} {read : Except Fault (Int × List Char)}
    (found : read = .ok (year, rest)) (within : -(bound : Int) ≤ year ∧ year < bound) :
    (do
      let (year, rest) ← read
      if -(bound : Int) ≤ year ∧ year < bound then return (year, rest) else throw .outOfRange :
      Except Fault (Int × List Char)) = .ok (year, rest) := by
  rw [found]
  exact if_pos within

theorem number_signed (n : Nat) :
    number (padded 4 n ++ '-' :: rest).length (padded 4 n ++ '-' :: rest) = .ok (n, '-' :: rest) := by
  have stops : ∀ c ∈ ('-' :: rest).head?, c.isDigit = false := by
    intro c head
    obtain rfl := Option.some.inj head
    decide
  have short : (padded 4 n).length ≤ (padded 4 n ++ '-' :: rest).length := by
    rw [List.length_append]
    omega
  have read := number_digits (digits_padded 4 n) (padded_ne_nil 4 n) short stops
  rwa [value_padded] at read

/-- A year is read with or without its sign. -/
theorem lenientYear_text {year : Int} (low : leastYear ≤ year) (high : year ≤ greatestYear) :
    lenientYear (yearText year ++ '-' :: rest) = .ok (year, '-' :: rest) := by
  rw [leastYear] at low
  rw [greatestYear] at high
  rw [yearText]
  split
  · rename_i four
    obtain ⟨century, year', middle, first, second, same⟩ :=
      pairs_padded ('-' :: rest) (n := year.toNat) (by omega)
    have is : ((century : Int) * 100 + year') = year := by omega
    rw [lenientYear_of_pairs first second, is]
  · have great : 1000000 ≤ twoTo 31 := by decide
    by_cases below : year < 0
    · have is : -(year.natAbs : Int) = year := by omega
      rw [if_pos below, List.cons_append, lenientYear, trimStart_of_visible (by decide)]
      refine year_within ?_ (by omega)
      change (fun read => (-(read.1 : Int), read.2)) <$> number _ _ = _
      rw [number_signed]
      exact congrArg (fun year => Except.ok (year, '-' :: rest)) is
    · have is : (year.natAbs : Int) = year := by omega
      rw [if_neg below, List.cons_append, lenientYear, trimStart_of_visible (by decide)]
      refine year_within ?_ (by omega)
      change (fun read => ((read.1 : Int), read.2)) <$> number _ _ = _
      rw [number_signed]
      exact congrArg (fun year => Except.ok (year, '-' :: rest)) is

end

def Instant.tailText (t : Instant) : List Char :=
  padded 2 (Date.ofDayNumber t.day).month ++ '-' :: (padded 2 (Date.ofDayNumber t.day).day ++
    'T' :: (padded 2 (t.second / 3600) ++ ':' :: (padded 2 (t.second / 60 % 60) ++
    ':' :: (padded 2 (t.second % 60 + if 1000000000 ≤ t.nano then 1 else 0) ++
      (fractionText (t.nano % 1000000000) ++ ['Z'])))))

theorem toText_toList (t : Instant) :
    t.toText.toList = yearText (Date.ofDayNumber t.day).year ++ '-' :: t.tailText := by
  simp only [Instant.toText, Instant.tailText, String.toList_ofList, List.append_assoc,
    List.cons_append]

section

variable {t : Instant}

theorem clock_of_isUtc (utc : t.IsUtc) :
    clock (t.second / 3600) (t.second / 60 % 60)
      (t.second % 60 + if 1000000000 ≤ t.nano then 1 else 0) (t.nano % 1000000000) =
      (t.second, t.nano) := by
  have small := utc.nano
  rw [clock]
  by_cases leap : 1000000000 ≤ t.nano
  · have last := utc.leap leap
    rw [if_pos leap, if_pos (by omega)]
    refine Prod.ext ?_ ?_
    · change t.second / 3600 * 3600 + t.second / 60 % 60 * 60 + (t.second % 60 + 1) - 1 = t.second
      omega
    · change t.nano % 1000000000 + 1 * 1000000000 = t.nano
      omega
  · rw [if_neg leap, if_neg (by omega)]
    refine Prod.ext ?_ ?_
    · change t.second / 3600 * 3600 + t.second / 60 % 60 * 60 + (t.second % 60 + 0) - 0 = t.second
      omega
    · change t.nano % 1000000000 + 0 * 1000000000 = t.nano
      omega

theorem instant_of_isUtc (utc : t.IsUtc) :
    instant (Date.ofDayNumber t.day) t.second t.nano 0 = .ok t := by
  have second := utc.second
  have here : Instant.ofLocal (Date.ofDayNumber t.day).toDayNumber t.second t.nano 0 = t := by
    have day : t.day + ((t.second : Int) - 0) / 86400 = t.day := by omega
    have clock : (((t.second : Int) - 0) % 86400).toNat = t.second := by omega
    rw [toDayNumber_ofDayNumber, Instant.ofLocal, day, clock]
  rw [instant, if_neg (by decide), here, if_pos utc.dated]

/-- The lenient grammar reads the text of an instant as the instant. -/
theorem parseLenient_toText (utc : t.IsUtc) : parseLenient t.toText = .ok t := by
  have bounds := field_bounds utc.dated
  have second := utc.second
  have years : leastYear ≤ (Date.ofDayNumber t.day).year ∧
      (Date.ofDayNumber t.day).year ≤ greatestYear := by
    have dated := utc.dated
    simp only [Date.isValid, Bool.and_eq_true, decide_eq_true_eq] at dated
    exact dated.1.1.1.1
  have leap : (if 1000000000 ≤ t.nano then 1 else 0) ≤ 1 := by
    split <;> decide
  have visible : isBlank '-' = false ∧ isBlank ':' = false ∧ isBlank 'Z' = false := by decide
  have field {n low high : Nat} {rest : List Char} (within : low ≤ n ∧ n ≤ high)
      (fits : n < 100) : field low high (padded 2 n ++ rest) = .ok (n, rest) :=
    field_of_pair (pair_padded fits) within
  have mark {c : Char} {rest : List Char} (plain : isBlank c = false) :
      literal c (trimStart (c :: rest)) = .ok rest := by
    rw [trimStart_of_visible plain, literal, if_pos rfl]
  have split {rest : List Char} : separator ('T' :: rest) = .ok rest := rfl
  have offset : offset true ['Z'] = .ok (0, []) := rfl
  have noWord : ¬(['Z'].take 3).map Char.toLower = ['u', 't', 'c'] := by decide
  have date : (⟨(Date.ofDayNumber t.day).year, (Date.ofDayNumber t.day).month,
      (Date.ofDayNumber t.day).day⟩ : Date) = Date.ofDayNumber t.day := rfl
  unfold parseLenient
  rw [toText_toList, lenientYear_text years.1 years.2]
  simp only [bind, Except.bind, mark visible.1, Instant.tailText, field bounds.1 (by omega),
    field bounds.2 (by omega), List.isEmpty_cons, Bool.false_eq_true, if_false, split,
    field (show 0 ≤ t.second / 3600 ∧ t.second / 3600 ≤ 23 by omega) (by omega), mark visible.2.1,
    field (show 0 ≤ t.second / 60 % 60 ∧ t.second / 60 % 60 ≤ 59 by omega) (by omega),
    field (show 0 ≤ t.second % 60 + (if 1000000000 ≤ t.nano then 1 else 0) ∧
      t.second % 60 + (if 1000000000 ≤ t.nano then 1 else 0) ≤ 60 by omega) (by omega),
    fraction_text (show t.nano % 1000000000 < 1000000000 by omega),
    trimStart_of_visible visible.2.2, if_neg noWord, offset, trimStart_nil, List.isEmpty_nil, if_true,
    date, utc.dated, clock_of_isUtc utc, instant_of_isUtc utc]

theorem settled_eq_self_iff : t.settled = t ↔ t.Placed := by
  rw [Instant.settled]
  constructor
  · intro same
    by_contra early
    rw [if_neg early] at same
    have later : t.second + 1 = t.second := congrArg Instant.second same
    omega
  · exact fun placed => if_pos placed

theorem isUtc_settled (held : t.IsHeld) : t.settled.IsUtc := by
  have second := held.second
  have nano := held.nano
  rw [Instant.settled]
  split
  case isTrue placed => exact ⟨held.dated, second, nano, placed⟩
  case isFalse early =>
    obtain ⟨extra, before⟩ := Classical.not_imp.mp early
    refine ⟨held.dated, ?_, ?_, fun again => ?_⟩
    · change t.second + 1 < 86400
      omega
    · change t.nano - 1000000000 < 2000000000
      omega
    · change 1000000000 ≤ t.nano - 1000000000 at again
      omega

/-- An extra second is written as one more than the second that it follows, wherever that stands. -/
theorem toText_settled (held : t.IsHeld) : t.settled.toText = t.toText := by
  rw [Instant.settled]
  split
  · rfl
  · rename_i early
    obtain ⟨extra, before⟩ := Classical.not_imp.mp early
    have nano := held.nano
    have hour : (t.second + 1) / 3600 = t.second / 3600 := by omega
    have minute : (t.second + 1) / 60 % 60 = t.second / 60 % 60 := by omega
    have last : (t.second + 1) % 60 + 0 = t.second % 60 + 1 := by omega
    have fraction : (t.nano - 1000000000) % 1000000000 = t.nano % 1000000000 := by omega
    have ordinary : ¬1000000000 ≤ t.nano - 1000000000 := by omega
    simp only [Instant.toText, hour, minute, fraction, if_neg ordinary, if_pos extra, last]

theorem parseLenient_toText_settled (held : t.IsHeld) : parseLenient t.toText = .ok t.settled := by
  rw [← toText_settled held]
  exact parseLenient_toText (isUtc_settled held)

theorem parse_toText (utc : t.IsUtc) (four : t.FourDigits) : parse t.toText = .ok t := by
  have bounds := field_bounds utc.dated
  have second := utc.second
  have leap : (if 1000000000 ≤ t.nano then 1 else 0) ≤ 1 := by
    split <;> decide
  have mark {c : Char} {rest : List Char} : literal c (c :: rest) = .ok rest := if_pos rfl
  have split {rest : List Char} : separator ('T' :: rest) = .ok rest := rfl
  have offset : offset false ['Z'] = .ok (0, []) := rfl
  obtain ⟨least, most⟩ := four
  obtain ⟨century, year, middle, first, others, same⟩ :=
    pairs_padded ('-' :: t.tailText) (n := (Date.ofDayNumber t.day).year.toNat) (by omega)
  have date : (⟨(century : Int) * 100 + year, (Date.ofDayNumber t.day).month,
      (Date.ofDayNumber t.day).day⟩ : Date) = Date.ofDayNumber t.day := by
    rw [show ((century : Int) * 100 + year) = (Date.ofDayNumber t.day).year by omega]
  have years : yearText (Date.ofDayNumber t.day).year =
      padded 4 (Date.ofDayNumber t.day).year.toNat := if_pos ⟨least, most⟩
  have month : (Date.ofDayNumber t.day).month < 100 := by omega
  have day : (Date.ofDayNumber t.day).day < 100 := by omega
  have hour : t.second / 3600 < 24 := by omega
  have minute : t.second / 60 % 60 < 60 := by omega
  have last : t.second % 60 + (if 1000000000 ≤ t.nano then 1 else 0) ≤ 60 := by omega
  have long : ¬t.toText.utf8ByteSize < 19 := by
    have size := Utf8.length_le_utf8ByteSize t.toText
    have four := length_padded (show 0 < 4 by decide)
      (show (Date.ofDayNumber t.day).year.toNat < 10 ^ 4 by omega)
    have two {n : Nat} (fits : n < 10 ^ 2) := length_padded (show 0 < 2 by decide) fits
    simp only [toText_toList, years, Instant.tailText, List.length_append, List.length_cons, four,
      two (show (Date.ofDayNumber t.day).month < 10 ^ 2 by omega),
      two (show (Date.ofDayNumber t.day).day < 10 ^ 2 by omega),
      two (show t.second / 3600 < 10 ^ 2 by omega), two (show t.second / 60 % 60 < 10 ^ 2 by omega),
      two (show t.second % 60 + (if 1000000000 ≤ t.nano then 1 else 0) < 10 ^ 2 by omega)] at size
    omega
  unfold parse
  rw [if_neg long, toText_toList, years]
  simp only [first, bind, Except.bind, others, mark]
  simp only [mark, Instant.tailText, pair_padded month, pair_padded day, date, utc.dated, if_true,
    split, pair_padded (show t.second / 3600 < 100 by omega),
    pair_padded (show t.second / 60 % 60 < 100 by omega),
    pair_padded (show t.second % 60 + (if 1000000000 ≤ t.nano then 1 else 0) < 100 by omega),
    fraction_text (show t.nano % 1000000000 < 1000000000 by omega), hour, minute, last, and_self,
    offset, List.isEmpty_nil, clock_of_isUtc utc, instant_of_isUtc utc]

theorem pair_fails {c : Char} (text : List Char) (sign : c.isDigit = false) :
    Fails (pair (c :: text)) := by
  have refused : digit c = .error .invalid := by rw [digit, sign, if_neg (by decide)]
  cases text with
  | nil => exact ⟨_, rfl⟩
  | cons d text =>
    simp only [pair, twoDigits, refused]
    exact ⟨_, rfl⟩

/-- The sign of a longer year is no digit. -/
theorem parse_toText_signed (far : ¬t.FourDigits) : Fails (parse t.toText) := by
  have signed : yearText (Date.ofDayNumber t.day).year =
      (if (Date.ofDayNumber t.day).year < 0 then '-' else '+') ::
        padded 4 (Date.ofDayNumber t.day).year.natAbs := if_neg far
  have sign : (if (Date.ofDayNumber t.day).year < 0 then '-' else '+').isDigit = false := by
    split <;> decide
  unfold parse
  split
  · exact ⟨_, rfl⟩
  · obtain ⟨f, failed⟩ := pair_fails
      (padded 4 (Date.ofDayNumber t.day).year.natAbs ++ '-' :: t.tailText) sign
    rw [toText_toList, signed, List.cons_append]
    simp only [failed, bind, Except.bind]
    exact ⟨_, rfl⟩

end

section

variable {text rest : List Char} {t : Instant}

theorem number_success {most n : Nat} (ok : number most text = .ok (n, rest)) :
    n < 10 ^ (text.length - rest.length) ∧ text.length - rest.length ≤ most := by
  unfold number at ok
  split at ok
  · cases ok
  split at ok
  · rename_i c more digit
    cases ok
    generalize read : (List.take most (c :: more)).takeWhile Char.isDigit = digits
    have decimal : Digits digits := by
      intro d among
      rw [← read] at among
      exact List.all_eq_true.mp List.all_takeWhile d among
    have short : digits.length ≤ (List.take most (c :: more)).length := by
      rw [← read]
      exact (List.takeWhile_prefix _).length_le
    rw [List.length_take] at short
    have used : (c :: more).length - ((c :: more).drop digits.length).length = digits.length := by
      rw [List.length_drop]
      omega
    have value := Json.Scan.ofDigitChars_lt decimal 0
    rw [used, foldl_digits]
    exact ⟨by omega, by omega⟩
  · cases ok

theorem fraction_success {n : Nat} (ok : fraction text = .ok (n, rest)) : n < 1000000000 := by
  unfold fraction at ok
  split at ok
  · rename_i digits
    obtain ⟨⟨value, behind⟩, read, ok⟩ := bind_success ok
    cases ok
    obtain ⟨small, most⟩ := number_success read
    generalize digits.length - behind.length = used at *
    have whole : 10 ^ used * tenTo (9 - used) = 1000000000 := by
      have sum : used + (9 - used) = 9 := by omega
      calc 10 ^ used * tenTo (9 - used) = 10 ^ (used + (9 - used)) := (Nat.pow_add 10 used (9 - used)).symm
        _ = 10 ^ 9 := congrArg _ sum
        _ = 1000000000 := rfl
    calc value * tenTo (9 - used) < 10 ^ used * tenTo (9 - used) :=
          Nat.mul_lt_mul_of_pos_right small (Nat.pow_pos (by decide))
      _ = 1000000000 := whole
  · cases ok
    decide

theorem offset_minutes {shift : Int} (ok : offset false text = .ok (shift, rest)) :
    shift % 60 = 0 := by
  unfold offset at ok
  split at ok
  · cases ok
    rfl
  · cases ok
    rfl
  · obtain ⟨⟨negative, _⟩, _, ok⟩ := bind_success ok
    obtain ⟨⟨tens, ones, _⟩, _, ok⟩ := bind_success ok
    obtain ⟨_, _, ok⟩ := bind_success ok
    obtain ⟨⟨minutes, _⟩, _, ok⟩ := bind_success ok
    cases ok
    cases negative with
    | true =>
      change -(((tens : Int) * 10 + ones) * 3600 + minutes * 60) % 60 = 0
      omega
    | false =>
      change (((tens : Int) * 10 + ones) * 3600 + minutes * 60) % 60 = 0
      omega

/-- An offset of whole minutes leaves the seconds of the clock as they are. -/
theorem isUtc_of_instant {date : Date} {hour minute second n : Nat} {shift : Int}
    (within : hour < 24 ∧ minute < 60 ∧ second ≤ 60) (small : n < 1000000000)
    (minutes : shift % 60 = 0)
    (ok : instant date (clock hour minute second n).1 (clock hour minute second n).2 shift = .ok t) :
    t.IsUtc := by
  unfold instant at ok
  split at ok
  · cases ok
  dsimp only at ok
  split at ok
  case isFalse => cases ok
  rename_i dated
  cases ok
  have leap : second = 60 ∧ (if second = 60 then 1 else 0) = 1 ∨
      second < 60 ∧ (if second = 60 then 1 else 0) = 0 := by
    by_cases last : second = 60
    · exact .inl ⟨last, if_pos last⟩
    · exact .inr ⟨by omega, if_neg last⟩
  refine ⟨dated, ?_, ?_, ?_⟩
  · change (((clock hour minute second n).1 - shift : Int) % 86400).toNat < 86400
    omega
  · change n + (if second = 60 then 1 else 0) * 1000000000 < 2000000000
    omega
  · intro great
    change 1000000000 ≤ n + (if second = 60 then 1 else 0) * 1000000000 at great
    change ((((hour * 3600 + minute * 60 + second - if second = 60 then 1 else 0 : Nat) - shift : Int) %
      86400).toNat) % 60 = 59
    omega

theorem isUtc_of_parse {s : String} (ok : parse s = .ok t) : t.IsUtc := by
  unfold parse at ok
  split at ok
  · cases ok
  obtain ⟨_, _, ok⟩ := bind_success ok
  obtain ⟨_, _, ok⟩ := bind_success ok
  obtain ⟨_, _, ok⟩ := bind_success ok
  obtain ⟨_, _, ok⟩ := bind_success ok
  obtain ⟨_, _, ok⟩ := bind_success ok
  obtain ⟨_, _, ok⟩ := bind_success ok
  dsimp only at ok
  split at ok
  case isFalse => cases ok
  obtain ⟨_, _, ok⟩ := bind_success ok
  obtain ⟨⟨hour, _⟩, _, ok⟩ := bind_success ok
  obtain ⟨_, _, ok⟩ := bind_success ok
  obtain ⟨⟨minute, _⟩, _, ok⟩ := bind_success ok
  obtain ⟨_, _, ok⟩ := bind_success ok
  obtain ⟨⟨second, _⟩, _, ok⟩ := bind_success ok
  obtain ⟨⟨nano, _⟩, fractionRead, ok⟩ := bind_success ok
  dsimp only at ok
  split at ok
  case isFalse => cases ok
  rename_i clockwise
  obtain ⟨⟨shift, _⟩, offsetRead, finish⟩ := bind_success ok
  dsimp only at finish
  split at finish
  case isFalse => cases finish
  exact isUtc_of_instant clockwise (fraction_success fractionRead) (offset_minutes offsetRead) finish

end

end NotificationRelay.Time
