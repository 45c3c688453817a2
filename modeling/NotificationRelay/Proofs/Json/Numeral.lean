import Mathlib
import NotificationRelay.Json.Printer
import NotificationRelay.Proofs.Json.Sound
import NotificationRelay.Proofs.Text.Utf8

/-! Numbers whose digits are known. What the scanner makes of them does not depend on what follows,
as long as that closes a value. -/
namespace NotificationRelay.Json.Scan

open Utf8

theorem letter_byte {c : Char} (low : c.toNat < 0x80) : letter (byte c) = c := by
  rw [letter, byte, toNat_ofNat (by omega), Char.ofNat_toNat]

theorem toNat_byte {c : Char} (low : c.toNat < 0x80) : (byte c).toNat = c.toNat :=
  toNat_ofNat (by omega)

def Digits (digits : List Char) : Prop := ∀ c ∈ digits, c.isDigit

theorem ascii_of_isDigit {c : Char} (digit : c.isDigit) : c.toNat < 0x80 := by
  have bounds := toNat_of_isDigit digit
  omega

theorem isDigitByte_byte {c : Char} (digit : c.isDigit) : isDigitByte (byte c) := by
  rw [isDigitByte, letter_byte (ascii_of_isDigit digit)]
  exact digit

theorem digits_toDigits (n : Nat) : Digits (Nat.toDigits 10 n) :=
  fun _ => Nat.isDigit_of_mem_toDigits (by decide) (by decide)

theorem Digits.bytes {digits : List Char} (decimal : Digits digits) :
    bytes digits = digits.map byte :=
  bytes_ascii fun c among => ascii_of_isDigit (decimal c among)

def Stops (rest : Bytes) : Prop := ∀ b ∈ rest.head?, isDigitByte b = false

theorem stops_cons {b : UInt8} {tail : Bytes} (other : isDigitByte b = false) :
    Stops (b :: tail) := by
  intro c head
  obtain rfl := Option.some.inj head
  exact other

def Closes (rest : Bytes) : Prop := ∀ b ∈ rest.head?, letter b ∈ [',', ']', '\x7d']

theorem Closes.letter_ne {b : UInt8} {tail : Bytes} {c : Char} (closes : Closes (b :: tail))
    (other : c ∉ [',', ']', '\x7d']) : letter b ≠ c := by
  rintro rfl
  exact other (closes b rfl)

theorem Closes.stops {rest : Bytes} (closes : Closes rest) : Stops rest := by
  intro b head
  have among := closes b head
  rw [isDigitByte]
  simp only [List.mem_cons, List.not_mem_nil, or_false] at among
  rcases among with same | same | same <;> (rw [same]; decide)

section

variable {digits : List Char} {rest : Bytes} {s : Nat}

theorem takeWhile_digits (decimal : Digits digits) (stops : Stops rest) :
    (digits.map byte ++ rest).takeWhile isDigitByte = digits.map byte := by
  induction digits with
  | nil =>
    cases rest with
    | nil => rfl
    | cons b tail => exact List.takeWhile_cons_of_neg (by simpa using stops b rfl)
  | cons d digits ih =>
    obtain ⟨first, others⟩ := List.forall_mem_cons.mp decimal
    rw [List.map_cons, List.cons_append, List.takeWhile_cons_of_pos (isDigitByte_byte first),
      ih others]

theorem digitsEnd_digits (decimal : Digits digits) (stops : Stops rest) :
    digitsEnd (digits.map byte ++ rest) = rest := by
  induction digits with
  | nil =>
    cases rest with
    | nil => rfl
    | cons b tail => exact List.dropWhile_cons_of_neg (by simpa using stops b rfl)
  | cons d digits ih =>
    obtain ⟨first, others⟩ := List.forall_mem_cons.mp decimal
    rw [digitsEnd, List.map_cons, List.cons_append, List.dropWhile_cons_of_pos (isDigitByte_byte first)]
    exact ih others

/-- The first digit, with the value that the scanner takes from its byte. -/
theorem ofDigitChars_byte {d : Char} (digit : d.isDigit) (digits : List Char) (s : Nat) :
    Nat.ofDigitChars 10 (d :: digits) s =
      Nat.ofDigitChars 10 digits (s * 10 + ((byte d).toNat - 48)) := by
  rw [Nat.ofDigitChars_cons, toNat_byte (ascii_of_isDigit digit), Nat.mul_comm s]
  rfl

theorem ofDigitChars_byte_zero {d : Char} (digit : d.isDigit) (digits : List Char) :
    Nat.ofDigitChars 10 (d :: digits) 0 = Nat.ofDigitChars 10 digits ((byte d).toNat - 48) := by
  rw [ofDigitChars_byte digit, Nat.zero_mul, Nat.zero_add]

/-- Digits behind a number make it as many places longer. -/
theorem le_ofDigitChars (s : Nat) (digits : List Char) :
    s * 10 ^ digits.length ≤ Nat.ofDigitChars 10 digits s := by
  rw [Nat.ofDigitChars_eq_ofDigitChars_zero, Nat.mul_comm]
  exact Nat.le_add_right _ _

theorem self_le_ofDigitChars (s : Nat) (digits : List Char) : s ≤ Nat.ofDigitChars 10 digits s :=
  Nat.le_trans (Nat.le_mul_of_pos_right s (Nat.pow_pos (show 0 < 10 by decide)))
    (le_ofDigitChars s digits)

theorem ofDigitChars_lt (decimal : Digits digits) (s : Nat) :
    Nat.ofDigitChars 10 digits s < (s + 1) * 10 ^ digits.length := by
  induction digits generalizing s with
  | nil => simp
  | cons d digits ih =>
    obtain ⟨first, others⟩ := List.forall_mem_cons.mp decimal
    have bounds := toNat_of_isDigit first
    have grown : 10 * s + (d.toNat - 48) + 1 ≤ (s + 1) * 10 := by omega
    calc Nat.ofDigitChars 10 (d :: digits) s
        = Nat.ofDigitChars 10 digits (10 * s + (d.toNat - 48)) := Nat.ofDigitChars_cons
      _ < (10 * s + (d.toNat - 48) + 1) * 10 ^ digits.length := ih others _
      _ ≤ (s + 1) * 10 * 10 ^ digits.length := Nat.mul_le_mul_right _ grown
      _ = (s + 1) * 10 ^ (d :: digits).length := by
        rw [Nat.mul_assoc, List.length_cons, Nat.pow_succ, Nat.mul_comm 10]

/-- The digits that are not used only move the significand. -/
theorem gather_digits (decimal : Digits digits) :
    ∃ left, (gather s (digits.map byte)).2 = left.map byte ∧ left.length ≤ digits.length ∧
      s ≤ (gather s (digits.map byte)).1 ∧
      Nat.ofDigitChars 10 left (gather s (digits.map byte)).1 = Nat.ofDigitChars 10 digits s := by
  induction digits generalizing s with
  | nil => exact ⟨[], rfl, Nat.le_refl _, Nat.le_refl _, rfl⟩
  | cons d digits ih =>
    obtain ⟨first, others⟩ := List.forall_mem_cons.mp decimal
    rw [List.map_cons, gather]
    split
    · obtain ⟨left, unused, shorter, grown, same⟩ := ih others
      refine ⟨left, unused, Nat.le_succ_of_le shorter, by omega, ?_⟩
      rw [same, ofDigitChars_byte first]
    · exact ⟨d :: digits, rfl, Nat.le_refl _, Nat.le_refl _, rfl⟩

theorem gather_all (decimal : Digits digits)
    (fits : Nat.ofDigitChars 10 digits s ≤ greatestWord) :
    gather s (digits.map byte) = (Nat.ofDigitChars 10 digits s, []) := by
  induction digits generalizing s with
  | nil => rfl
  | cons d digits ih =>
    obtain ⟨first, others⟩ := List.forall_mem_cons.mp decimal
    rw [ofDigitChars_byte first] at fits ⊢
    rw [List.map_cons, gather, if_pos (Nat.le_trans (self_le_ofDigitChars _ digits) fits)]
    exact ih others fits

end

/-- Digits before a point do not start with a zero, unless it is the only one. -/
def Leads (digits : List Char) : Prop := ∃ d more, digits = d :: more ∧ (d = '0' → more = [])

theorem leads_toDigits (n : Nat) : Leads (Nat.toDigits 10 n) := by
  induction n using Nat.strongRecOn with
  | ind n ih =>
    by_cases small : n < 10
    · exact ⟨n.digitChar, [], Nat.toDigits_of_lt_base small, fun _ => rfl⟩
    · obtain ⟨d, more, digits, single⟩ := ih (n / 10) (by omega)
      refine ⟨d, more ++ [(n % 10).digitChar], ?_, fun zero => ?_⟩
      · rw [Nat.toDigits_of_base_le (by decide) (by omega), digits, List.cons_append]
      · have back := @Nat.ofDigitChars_ten_toDigits (n / 10)
        rw [digits, single zero, zero] at back
        have nothing : n / 10 = 0 := back.symm
        omega

section

variable {digits : List Char} {tail rest : Bytes} {n : Number} {negative : Bool} {s : Nat}
  {exponent : Int}

theorem unsigned_digits (decimal : Digits digits) (leads : Leads digits)
    (fits : Nat.ofDigitChars 10 digits 0 ≤ greatestWord) (stops : Stops tail)
    (after : Yields (afterDigits negative (Nat.ofDigitChars 10 digits 0) 0 tail) n rest) :
    Yields (unsigned negative (digits.map byte ++ tail)) n rest := by
  obtain ⟨d, more, rfl, single⟩ := leads
  obtain ⟨first, others⟩ := List.forall_mem_cons.mp decimal
  have head : letter (byte d) = d := letter_byte (ascii_of_isDigit first)
  rw [List.map_cons, List.cons_append]
  unfold unsigned
  dsimp only
  by_cases zero : d = '0'
  · obtain rfl := single zero
    subst zero
    rw [if_pos head]
    cases tail with
    | nil => exact after
    | cons c tail =>
      have other : ¬isDigitByte c = true := by simpa using stops c rfl
      change Yields (if isDigitByte c = true then _ else _) n rest
      rw [if_neg other]
      exact after
  · rw [ofDigitChars_byte_zero first] at fits after
    rw [if_neg (by rwa [head]), if_pos (isDigitByte_byte first)]
    simp only [takeWhile_digits others stops, gather_all others fits, List.length_nil]
    refine Yields.map ?_ _ id fun _ => ⟨rfl, rfl⟩
    rw [digitsEnd_digits others stops]
    exact after

theorem number_signed (read : Yields (unsigned true tail) n rest) :
    Yields (number (byte '-' :: tail)) n rest := by
  unfold number
  dsimp only
  rw [if_pos (letter_byte (by decide))]
  exact read.map _ id fun _ => ⟨rfl, rfl⟩

theorem number_unsigned {bytes : Bytes} (read : Yields (unsigned false bytes) n rest) :
    Yields (number bytes) n rest := by
  cases bytes with
  | nil => exact absurd rfl read.ne_error
  | cons b tail =>
    unfold number
    dsimp only
    split
    · rename_i minus
      have digit : isDigitByte b = false := by
        rw [isDigitByte, minus]
        decide
      unfold unsigned at read
      dsimp only at read
      rw [if_neg (by rw [minus]; decide), if_neg (by rw [digit]; decide)] at read
      exact absurd rfl read.ne_error
    · exact read

theorem afterDigits_end (closes : Closes rest) :
    Yields (afterDigits negative s 0 rest) (integer negative s) rest := by
  cases rest with
  | nil => exact yields_ok
  | cons b tail =>
    have mark : letter b ≠ 'e' ∧ letter b ≠ 'E' :=
      ⟨closes.letter_ne (by decide), closes.letter_ne (by decide)⟩
    unfold afterDigits
    dsimp only
    rw [if_neg (closes.letter_ne (by decide)), if_pos ⟨rfl, mark⟩]
    exact yields_ok

/-- The digits of an integer that fits 64 bits. -/
theorem unsigned_toDigits {k : Nat} (fits : k ≤ greatestWord) (closes : Closes rest) :
    Yields (unsigned negative ((Nat.toDigits 10 k).map byte ++ rest)) (integer negative k) rest := by
  have value : Nat.ofDigitChars 10 (Nat.toDigits 10 k) 0 = k := Nat.ofDigitChars_ten_toDigits
  refine unsigned_digits (digits_toDigits k) (leads_toDigits k) (by rwa [value]) closes.stops ?_
  rw [value]
  exact afterDigits_end closes

theorem number_natural {k : Nat} (fits : k ≤ greatestWord) (closes : Closes rest) :
    Yields (number (bytes (Number.natural k).chars ++ rest)) (.natural k) rest := by
  rw [Number.chars, (digits_toDigits k).bytes]
  exact number_unsigned (unsigned_toDigits fits closes)

theorem number_negative {k : Nat} (some : 0 < k) (fits : k ≤ twoTo 63) (closes : Closes rest) :
    Yields (number (bytes (Number.negative k).chars ++ rest)) (.negative k) rest := by
  have word : k ≤ greatestWord := Nat.le_trans fits (by decide)
  have read := @unsigned_toDigits rest true k word closes
  rw [integer, if_neg (by decide), if_pos ⟨some, fits⟩] at read
  rw [Number.chars, bytes_cons, encodeChar_ascii (by decide), (digits_toDigits k).bytes]
  exact number_signed read

theorem afterDigits_point (read : Yields (fractionPart negative s 0 tail) n rest) :
    Yields (afterDigits negative s 0 (byte '.' :: tail)) n rest := by
  obtain ⟨step, ok, rfl, rfl⟩ := read
  unfold afterDigits
  dsimp only
  rw [if_pos (letter_byte (by decide))]
  rw [show ((0 : Nat) : Int) = 0 from rfl, ok]
  exact yields_ok

theorem afterDigits_mark (read : Yields (exponentOrEnd negative s 0 (byte 'e' :: tail)) n rest) :
    Yields (afterDigits negative s 0 (byte 'e' :: tail)) n rest := by
  have mark : letter (byte 'e') = 'e' := letter_byte (by decide)
  unfold afterDigits
  dsimp only
  rw [if_neg (by rw [mark]; decide), if_neg (by simp [mark])]
  exact read

theorem exponentOrEnd_mark (read : Yields (exponentPart negative s exponent tail) n rest) :
    Yields (exponentOrEnd negative s exponent (byte 'e' :: tail)) n rest := by
  obtain ⟨step, ok, rfl, rfl⟩ := read
  unfold exponentOrEnd
  dsimp only
  rw [if_pos (.inl (letter_byte (by decide))), ok]
  exact yields_ok

theorem exponentOrEnd_end {x : Binary64} (scaled : scale (Binary64.ofNat s) exponent = some x)
    (closes : Closes rest) :
    Yields (exponentOrEnd negative s exponent rest) (.real (signed negative x)) rest := by
  have real (rest : Bytes) : realOf negative s exponent rest = .ok (.real (signed negative x)) := by
    rw [realOf, scaled]
  cases rest with
  | nil =>
    unfold exponentOrEnd
    dsimp only
    rw [real]
    exact yields_ok
  | cons b tail =>
    have other : ¬(letter b = 'e' ∨ letter b = 'E') :=
      not_or.mpr ⟨closes.letter_ne (by decide), closes.letter_ne (by decide)⟩
    unfold exponentOrEnd
    dsimp only
    rw [if_neg other, real]
    exact yields_ok

structure Fraction (s : Nat) (digits : List Char) (used left : Nat) : Prop where
  grown : s ≤ used
  word : used ≤ greatestWord
  within : used * tenTo left ≤ Nat.ofDigitChars 10 digits s
  shorter : left ≤ digits.length
  whole : Nat.ofDigitChars 10 digits s ≤ greatestWord → used = Nat.ofDigitChars 10 digits s ∧ left = 0

/-- Digits of a fraction that do not fit are left out. -/
theorem fractionPart_digits (negative : Bool) (exponent : Int) (decimal : Digits digits)
    (some : digits ≠ []) (small : s ≤ greatestWord) :
    ∃ used left, Fraction s digits used left ∧ ∀ ⦃tail rest : Bytes⦄ ⦃n : Number⦄, Stops tail →
      Yields (exponentOrEnd negative used (exponent - ((digits.length : Int) - left)) tail) n rest →
      Yields (fractionPart negative s exponent (digits.map byte ++ tail)) n rest := by
  obtain ⟨left, unused, shorter, grown, same⟩ := @gather_digits digits s decimal
  have bound := le_ofDigitChars (gather s (digits.map byte)).1 left
  rw [same] at bound
  have whole (fits : Nat.ofDigitChars 10 digits s ≤ greatestWord) :
      (gather s (digits.map byte)).1 = Nat.ofDigitChars 10 digits s ∧ left.length = 0 := by
    have all := gather_all decimal fits
    rw [all] at unused ⊢
    exact ⟨rfl, by rw [← List.length_map byte, ← unused, List.length_nil]⟩
  refine ⟨_, left.length, ⟨grown, gather_le _ small, bound, shorter, whole⟩,
    fun tail rest n stops inner => ?_⟩
  rw [← digitsEnd_digits decimal stops] at inner
  obtain ⟨step, ok, rfl, rfl⟩ := inner
  have nonempty : (digits.map byte).isEmpty = false := by simpa using some
  unfold fractionPart
  simp only [takeWhile_digits decimal stops, nonempty, unused, List.length_map]
  simp only [Bool.false_eq_true, if_false, ok]
  exact ⟨_, rfl, rfl, rfl⟩

/-- An exponent is read to its end, or found too great before that. -/
theorem exponentDigits_digits {value : Nat} (decimal : Digits digits) (stops : Stops rest)
    (near : value < twoTo 31) :
    Nat.ofDigitChars 10 digits value < twoTo 31 ∧ exponentDigits value (digits.map byte ++ rest) =
        (some (Nat.ofDigitChars 10 digits value), rest) ∨
      twoTo 31 ≤ Nat.ofDigitChars 10 digits value ∧ ∃ left, Digits left ∧
        exponentDigits value (digits.map byte ++ rest) = (none, left.map byte ++ rest) := by
  induction digits generalizing value with
  | nil =>
    refine .inl ⟨near, ?_⟩
    cases rest with
    | nil => rfl
    | cons b tail =>
      have other : ¬isDigitByte b = true := by simpa using stops b rfl
      rw [List.map_nil, List.nil_append, exponentDigits, if_neg other]
      rfl
  | cons d digits ih =>
    obtain ⟨first, others⟩ := List.forall_mem_cons.mp decimal
    rw [ofDigitChars_byte first, List.map_cons, List.cons_append, exponentDigits,
      if_pos (isDigitByte_byte first)]
    dsimp only
    by_cases small : value * 10 + ((byte d).toNat - 48) < twoTo 31
    · rw [if_pos small]
      exact ih others small
    · rw [if_neg small]
      have great := Nat.le_trans (Nat.le_of_not_lt small) (self_le_ofDigitChars _ digits)
      exact .inr ⟨great, digits, others, rfl⟩

theorem exponentSign_written (below : Bool) (b : UInt8) (tail : Bytes) :
    exponentSign (byte (if below then '-' else '+') :: b :: tail) = (below, b :: tail) := by
  cases below with
  | true => rfl
  | false => rfl

section

variable {bytes : Bytes} {below : Bool} {b : UInt8}

/-- An exponent that is read to its end. -/
theorem exponentPart_some {value : Nat} {x : Binary64}
    (sign : exponentSign bytes = (below, b :: tail)) (digit : isDigitByte b)
    (read : exponentDigits (b.toNat - 48) tail = (some value, rest))
    (scaled : scale (Binary64.ofNat s) (if below then exponent - value else exponent + value) =
      some x) :
    Yields (exponentPart negative s exponent bytes) (.real (signed negative x)) rest := by
  have real : realOf negative s (if below then exponent - value else exponent + value) rest =
      .ok (.real (signed negative x)) := by
    rw [realOf, scaled]
  unfold exponentPart
  split
  · rename_i none _
    rw [sign] at none
    cases none
  · rename_i same _
    rw [sign] at same
    obtain ⟨rfl, rfl⟩ := List.cons.inj same
    rw [if_pos digit]
    simp only [sign]
    split
    · rename_i found _
      cases found.symm.trans read
      rw [real]
      exact yields_ok
    · rename_i found _
      cases found.symm.trans read

/-- An exponent that is too great, below zero. -/
theorem exponentPart_none (sign : exponentSign bytes = (true, b :: tail)) (digit : isDigitByte b)
    (read : exponentDigits (b.toNat - 48) tail = (none, rest)) :
    Yields (exponentPart negative s exponent bytes) (.real (signed negative Binary64.zero))
      (digitsEnd rest) := by
  unfold exponentPart
  split
  · rename_i none _
    rw [sign] at none
    cases none
  · rename_i same _
    rw [sign] at same
    obtain ⟨rfl, rfl⟩ := List.cons.inj same
    rw [if_pos digit]
    simp only [sign]
    split
    · rename_i found _
      cases found.symm.trans read
    · rename_i found _
      cases found.symm.trans read
      have faint : ¬(s ≠ 0 ∧ (!true) = true) := fun loud => Bool.false_ne_true loud.2
      rw [if_neg faint]
      exact yields_ok

end

/-- An exponent with its sign, behind the mark. -/
theorem exponentPart_toDigits {k : Nat} {below : Bool} {x : Binary64}
    (scaled : scale (Binary64.ofNat s) (if below then exponent - k else exponent + k) = some x)
    (near : below = false → k < twoTo 31) (closes : Closes rest) :
    Yields (exponentPart negative s exponent
        (byte (if below then '-' else '+') :: ((Nat.toDigits 10 k).map byte ++ rest)))
      (.real (signed negative (if k < twoTo 31 then x else Binary64.zero))) rest := by
  obtain ⟨d, more, digits, _⟩ := leads_toDigits k
  have decimal := digits_toDigits k
  have value : Nat.ofDigitChars 10 (Nat.toDigits 10 k) 0 = k := Nat.ofDigitChars_ten_toDigits
  rw [digits] at decimal value ⊢
  obtain ⟨first, others⟩ := List.forall_mem_cons.mp decimal
  rw [ofDigitChars_byte_zero first] at value
  have sign := exponentSign_written below (byte d) (more.map byte ++ rest)
  have digit : (byte d).toNat - 48 < twoTo 31 := by
    have bounds := toNat_of_isDigit first
    have great : 10 ≤ twoTo 31 := by decide
    rw [toNat_byte (ascii_of_isDigit first)]
    omega
  have read := exponentDigits_digits others closes.stops digit
  rw [value] at read
  rcases read with ⟨small, all⟩ | ⟨great, left, unread, part⟩
  · rw [if_pos small]
    exact exponentPart_some sign (isDigitByte_byte first) all scaled
  · obtain rfl : below = true := by
      cases below with
      | true => rfl
      | false => exact absurd (near rfl) (Nat.not_lt.mpr great)
    have faint : Yields (exponentPart negative s exponent _) (.real (signed negative Binary64.zero)) _ :=
      exponentPart_none sign (isDigitByte_byte first) part
    rw [digitsEnd_digits unread closes.stops] at faint
    rw [if_neg (Nat.not_lt.mpr great)]
    exact faint

end

end NotificationRelay.Json.Scan
