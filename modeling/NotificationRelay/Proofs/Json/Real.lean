import NotificationRelay.Proofs.Decimal
import NotificationRelay.Proofs.Json.Numeral

/-! Finite numbers as they are printed. Each of them is read as a number again, though it may be
rounded twice on the way. -/
namespace NotificationRelay

open Json Json.Scan Utf8 Binary64

theorem tenTo_add (m n : Nat) : tenTo (m + n) = tenTo m * tenTo n := Nat.pow_add 10 m n

namespace Decimal

def Ready (d : Decimal) : Prop := d.digits ≠ 0 ∧ (d.Below nearGreatest ∨ d.Scales)

theorem ready_shortest {x : Binary64} (finite : x.isFinite) (some : x.units ≠ 0) :
    (x.shortest .toEven).Ready := by
  rcases Nat.lt_or_ge (x.magnitude + 3) infinityMagnitude with near | great
  · have spec := shortest_digits .toEven some near
    exact ⟨spec.1, .inl spec.2⟩
  · have scales := scales_of_great finite great
    exact ⟨scales.1, .inr scales⟩

variable {d : Decimal} {s left : Nat}

/-- A part of the digits, with the point moved as far as it has to be. -/
theorem mul_tenTo_le (within : s * tenTo left ≤ d.digits) (up : 0 ≤ left + d.exponent) :
    s * tenTo (left + d.exponent).toNat * d.denominator ≤ d.numerator := by
  rw [numerator, denominator]
  rcases Int.lt_or_le d.exponent 0 with down | whole
  · have back : (left + d.exponent).toNat + (-d.exponent).toNat = left := by omega
    rw [show d.exponent.toNat = 0 by omega, Nat.mul_assoc, ← tenTo_add, back]
    exact Nat.le_trans within (Nat.le_of_eq (Nat.mul_one _).symm)
  · have sum : (left + d.exponent).toNat = left + d.exponent.toNat := by omega
    rw [show (-d.exponent).toNat = 0 by omega, sum, tenTo_add, ← Nat.mul_assoc]
    exact Nat.le_trans (Nat.le_of_eq (Nat.mul_one _)) (Nat.mul_le_mul_right _ within)

theorem Below.part {bound : Nat} (below : d.Below bound) (within : s * tenTo left ≤ d.digits)
    (up : 0 ≤ left + d.exponent) :
    s * tenTo (left + d.exponent).toNat * twoTo 1074 ≤ bound := by
  have less := mul_tenTo_le within up
  refine Nat.le_of_mul_le_mul_right ?_ d.denominator_pos
  calc s * tenTo (left + d.exponent).toNat * twoTo 1074 * d.denominator
      = s * tenTo (left + d.exponent).toNat * d.denominator * twoTo 1074 := Nat.mul_right_comm _ _ _
    _ ≤ d.numerator * twoTo 1074 := Nat.mul_le_mul_right _ less
    _ ≤ bound * d.denominator := Nat.le_of_lt below

/-- What is left of the digits of a finite number is scaled back to a finite number. -/
theorem Ready.scale {lead : Nat} {more : List Char} {used : Nat} (ready : d.Ready)
    (value : Nat.ofDigitChars 10 more lead = d.digits) (positive : 0 < lead)
    (part : Fraction lead more used left) : ∃ y, Scan.scale (ofNat used) (left + d.exponent) = some y := by
  have finite : (ofNat used).isFinite := isFinite_ofNat (Nat.le_trans part.word greatestWord_le)
  have some : 0 < used := Nat.lt_of_lt_of_le positive part.grown
  have within := part.within
  rw [value] at within
  rcases Int.lt_or_le 0 (left + d.exponent) with up | down
  · rcases ready.2 with below | scales
    · have bound := below.part within (Int.le_of_lt up)
      obtain ⟨k, moved⟩ : ∃ k : Nat, left + d.exponent = k :=
        ⟨_, (Int.toNat_of_nonneg (Int.le_of_lt up)).symm⟩
      rw [moved, Int.toNat_natCast] at bound
      rw [moved]
      exact scale_up some bound
    · obtain ⟨_, word, whole, near, small⟩ := scales
      obtain ⟨all, none⟩ := part.whole (value ▸ word)
      rw [all, none, value, Int.natCast_zero, Int.zero_add, Scan.scale, if_pos (by omega), if_pos whole]
      rw [show d.exponent.natAbs = d.exponent.toNat by omega]
      simp only [small, Bool.false_eq_true, if_false]
      exact ⟨_, rfl⟩
  · exact scale_down finite down

/-- The exponent behind the first digit of a finite number. -/
theorem Ready.exponent_lt {lead : Nat} {more : List Char} (ready : d.Ready)
    (value : Nat.ofDigitChars 10 more lead = d.digits) (positive : 0 < lead) :
    more.length + d.exponent < twoTo 31 := by
  have long := le_ofDigitChars lead more
  rw [value] at long
  have great : 400 < twoTo 31 := by decide
  rcases ready.2 with below | scales
  · rcases Int.lt_or_le (more.length + d.exponent) 0 with down | up
    · omega
    · have near := le_308_of_tenTo positive (below.part long up)
      omega
  · obtain ⟨_, word, _, near, _⟩ := scales
    have digits : more.length < 20 := by
      refine (Nat.pow_lt_pow_iff_right (show 1 < 10 by decide)).mp ?_
      calc 10 ^ more.length ≤ lead * 10 ^ more.length := Nat.le_mul_of_pos_left _ positive
        _ ≤ greatestWord := Nat.le_trans long word
        _ < 10 ^ 20 := by decide
    omega

end Decimal

namespace Json.Scan

section

variable {whole fraction : List Char} {negative : Bool}

/-- Digits with a point between them are read as a real, for only division scales them. -/
theorem unsigned_point (decimal : Digits whole) (leads : Leads whole)
    (fits : Nat.ofDigitChars 10 whole 0 ≤ greatestWord) (behind : Digits fraction)
    (some : fraction ≠ []) :
    ∃ y, ∀ rest, Closes rest → Yields
      (unsigned negative (bytes (whole ++ '.' :: fraction) ++ rest))
      (.real (signed negative y)) rest := by
  obtain ⟨used, left, part, read⟩ := fractionPart_digits negative 0 behind some fits
  have finite : (Binary64.ofNat used).isFinite :=
    Binary64.isFinite_ofNat (Nat.le_trans part.word greatestWord_le)
  have shorter := part.shorter
  have down : 0 - ((fraction.length : Int) - left) ≤ 0 := by omega
  obtain ⟨y, scaled⟩ := scale_down finite down
  refine ⟨y, fun rest closes => ?_⟩
  rw [bytes_append, bytes_cons, encodeChar_ascii (by decide), decimal.bytes, behind.bytes,
    List.append_assoc]
  refine unsigned_digits decimal leads fits (stops_cons (by decide)) (afterDigits_point ?_)
  exact read closes.stops (exponentOrEnd_end scaled closes)

def exponentBytes (e : Int) : Bytes :=
  byte 'e' :: byte (if decide (e < 0) then '-' else '+') :: (Nat.toDigits 10 e.natAbs).map byte

theorem stops_exponentBytes (e : Int) (rest : Bytes) : Stops (exponentBytes e ++ rest) :=
  stops_cons (by decide)

theorem bytes_scientific {c : Char} {more : List Char} (first : c.isDigit) (e : Int) :
    bytes (Binary64.scientific (c :: more) e) =
      byte c :: (bytes (if more.isEmpty then [] else '.' :: more) ++ exponentBytes e) := by
  have single : Digits [c] := List.forall_mem_singleton.mpr first
  have sign : bytes [if e < 0 then '-' else '+'] = [byte (if decide (e < 0) then '-' else '+')] := by
    by_cases down : e < 0
    · rw [if_pos down, decide_eq_true down]
      rfl
    · rw [if_neg down, decide_eq_false down]
      rfl
  have mark : bytes ['e'] = [byte 'e'] := rfl
  rw [Binary64.scientific, bytes_append, bytes_append, bytes_append, bytes_append, sign, mark,
    show List.take 1 (c :: more) = [c] from rfl, single.bytes, (digits_toDigits e.natAbs).bytes]
  simp only [exponentBytes, List.map_cons, List.map_nil, List.append_assoc, List.cons_append,
    List.nil_append, List.drop_succ_cons, List.drop_zero]

/-- The exponent takes back what the digits of the fraction have moved. -/
theorem exponentOrEnd_exponentBytes {lead : Nat} {more : List Char} {used left : Nat}
    {d : Decimal} {e : Int} (ready : d.Ready) (value : Nat.ofDigitChars 10 more lead = d.digits)
    (positive : 0 < lead) (place : e = more.length + d.exponent)
    (part : Fraction lead more used left) :
    ∃ y, ∀ rest, Closes rest → Yields
      (exponentOrEnd negative used (0 - ((more.length : Int) - left)) (exponentBytes e ++ rest))
      (.real (signed negative y)) rest := by
  have short := ready.exponent_lt value positive
  have near : decide (e < 0) = false → e.natAbs < twoTo 31 := by
    intro up
    have := of_decide_eq_false up
    omega
  obtain ⟨x, scaled⟩ := ready.scale value positive part
  have moved : (if decide (e < 0) then 0 - ((more.length : Int) - left) - e.natAbs
      else 0 - ((more.length : Int) - left) + e.natAbs) = left + d.exponent := by
    by_cases down : e < 0
    · rw [decide_eq_true down, if_pos rfl]
      omega
    · rw [decide_eq_false down, if_neg (by decide)]
      omega
  rw [← moved] at scaled
  exact ⟨_, fun rest closes => exponentOrEnd_mark (exponentPart_toDigits scaled near closes)⟩

/-- The first digit, what the fraction makes of it, and an exponent. -/
theorem unsigned_scientific {c : Char} {more : List Char} {d : Decimal} {e : Int}
    (decimal : Digits (c :: more)) (ready : d.Ready)
    (value : Nat.ofDigitChars 10 more (c.toNat - 48) = d.digits) (positive : 0 < c.toNat - 48)
    (place : e = more.length + d.exponent) :
    ∃ y, ∀ rest, Closes rest → Yields
      (unsigned negative (bytes (Binary64.scientific (c :: more) e) ++ rest))
      (.real (signed negative y)) rest := by
  obtain ⟨first, others⟩ := List.forall_mem_cons.mp decimal
  have bounds := toNat_of_isDigit first
  have lead : Nat.ofDigitChars 10 [c] 0 = c.toNat - 48 := by
    rw [ofDigitChars_byte_zero first, toNat_byte (ascii_of_isDigit first)]
    rfl
  have word : c.toNat - 48 ≤ greatestWord := Nat.le_trans (show c.toNat - 48 ≤ 9 by omega) (by decide)
  have single : Digits [c] := List.forall_mem_singleton.mpr first
  have alone : Leads [c] := ⟨c, [], rfl, fun _ => rfl⟩
  cases more with
  | nil =>
    have part : Fraction (c.toNat - 48) [] (c.toNat - 48) 0 :=
      ⟨Nat.le_refl _, word, Nat.le_of_eq (Nat.mul_one _), Nat.le_refl 0, fun _ => ⟨rfl, rfl⟩⟩
    obtain ⟨y, read⟩ := exponentOrEnd_exponentBytes ready value positive place part
    refine ⟨y, fun rest closes => ?_⟩
    rw [bytes_scientific first]
    refine unsigned_digits single alone (by rwa [lead]) (stops_exponentBytes e rest) ?_
    rw [lead]
    exact afterDigits_mark (read rest closes)
  | cons m more =>
    obtain ⟨used, left, part, fraction⟩ :=
      fractionPart_digits negative 0 others (List.cons_ne_nil m more) word
    obtain ⟨y, read⟩ := exponentOrEnd_exponentBytes ready value positive place part
    refine ⟨y, fun rest closes => ?_⟩
    have point : bytes ('.' :: m :: more) = byte '.' :: (m :: more).map byte := by
      rw [bytes_cons, encodeChar_ascii (by decide), Digits.bytes others]
      rfl
    rw [bytes_scientific first, List.isEmpty_cons, if_neg Bool.false_ne_true, point, List.cons_append,
      List.append_assoc]
    refine unsigned_digits single alone (by rwa [lead]) (stops_cons (by decide)) ?_
    rw [lead]
    exact afterDigits_point (fraction (stops_exponentBytes e rest) (read rest closes))

theorem digits_zeros (k : Nat) : Digits (List.replicate k '0') := by
  intro c among
  rw [List.eq_of_mem_replicate among]
  decide

/-- The digits behind the point, of which there is always one. -/
theorem digits_behind (digits : Digits fraction) :
    Digits (if fraction.isEmpty then ['0'] else fraction) ∧
      (if fraction.isEmpty then ['0'] else fraction) ≠ [] := by
  cases fraction with
  | nil => exact ⟨digits_zeros 1, List.cons_ne_nil _ _⟩
  | cons c more => exact ⟨digits, List.cons_ne_nil _ _⟩

structure Whole (places : Nat) (whole : List Char) : Prop where
  digits : Digits whole
  leads : Leads whole
  length : whole.length = places

theorem Whole.fits {places : Nat} (front : Whole places whole) (small : places ≤ 16) :
    Nat.ofDigitChars 10 whole 0 ≤ greatestWord := by
  have below := ofDigitChars_lt front.digits 0
  rw [front.length, Nat.zero_add, Nat.one_mul] at below
  calc Nat.ofDigitChars 10 whole 0 ≤ 10 ^ places := Nat.le_of_lt below
    _ ≤ 10 ^ 16 := Nat.pow_le_pow_right (by decide) small
    _ ≤ greatestWord := by decide

/-- The first digits of a number, with zeros for those it does not have. -/
theorem whole_padded {n p : Nat} (alone : n = 0 → p = 0) :
    Whole (p + 1) ((Nat.toDigits 10 n).take (p + 1) ++
      List.replicate (p + 1 - ((Nat.toDigits 10 n).take (p + 1)).length) '0') where
  digits := List.forall_mem_append.mpr
    ⟨fun c among => digits_toDigits n c (List.mem_of_mem_take among), digits_zeros _⟩
  leads := by
    obtain ⟨c, more, all, single⟩ := leads_toDigits n
    have back : Nat.ofDigitChars 10 (Nat.toDigits 10 n) 0 = n := Nat.ofDigitChars_ten_toDigits
    rw [all] at back ⊢
    refine ⟨c, _, rfl, fun zero => ?_⟩
    obtain rfl := single zero
    rw [zero] at back
    obtain rfl := alone back.symm
    rfl
  length := by
    rw [List.length_append, List.length_replicate, List.length_take]
    omega

/-- The digits in front of the point are those of a small number. -/
theorem unsigned_positional {n : Nat} {point : Int} (small : point ≤ 16)
    (alone : n = 0 → point ≤ 1) :
    ∃ y, ∀ rest, Closes rest → Yields
      (unsigned negative (bytes ((Binary64.positional (Nat.toDigits 10 n) point).1 ++ '.' ::
        (if (Binary64.positional (Nat.toDigits 10 n) point).2.isEmpty then ['0']
          else (Binary64.positional (Nat.toDigits 10 n) point).2)) ++ rest))
      (.real (signed negative y)) rest := by
  have decimal := digits_toDigits n
  by_cases front : point ≤ 0
  · rw [Binary64.positional, if_pos front]
    have digits : Digits (List.replicate (-point).toNat '0' ++ Nat.toDigits 10 n) :=
      List.forall_mem_append.mpr ⟨digits_zeros _, decimal⟩
    obtain ⟨digits, some⟩ := digits_behind digits
    exact unsigned_point (digits_zeros 1) ⟨'0', [], rfl, fun _ => rfl⟩ (Nat.zero_le _) digits some
  · rw [Binary64.positional, if_neg front]
    obtain ⟨p, rfl⟩ : ∃ p : Nat, point = p + 1 := ⟨(point - 1).toNat, by omega⟩
    rw [show ((p : Int) + 1).toNat = p + 1 by omega]
    have digits : Digits ((Nat.toDigits 10 n).drop (p + 1)) :=
      fun c among => decimal c (List.mem_of_mem_drop among)
    obtain ⟨digits, some⟩ := digits_behind digits
    have whole : Whole (p + 1) _ := whole_padded fun none => by
      have := alone none
      omega
    exact unsigned_point whole.digits whole.leads (whole.fits (by omega)) digits some

theorem unsigned_body (negative : Bool) {x : Binary64} (finite : x.isFinite) :
    ∃ body, x.jsonDigits = (if x.isNegative then ['-'] else []) ++ body ∧
      ∃ y, ∀ rest, Closes rest →
        Yields (unsigned negative (bytes body ++ rest)) (.real (signed negative y)) rest := by
  generalize shown : x.shortest .toEven = d
  have zero : x.units = 0 → d = ⟨0, 0⟩ := fun none => by rw [← shown, Binary64.shortest, if_pos none]
  have ready : x.units ≠ 0 → d.Ready := fun some => shown ▸ Decimal.ready_shortest finite some
  rw [Binary64.jsonDigits, shown]
  dsimp only
  split
  · refine ⟨_, by rw [List.append_assoc, List.append_assoc]; rfl, unsigned_positional (by omega) ?_⟩
    intro none
    by_cases nothing : x.units = 0
    · obtain rfl := zero nothing
      decide
    · exact absurd none (ready nothing).1
  · rename_i far
    have some : x.units ≠ 0 := by
      intro none
      obtain rfl := zero none
      exact far (by decide)
    obtain ⟨c, more, digits, single⟩ := leads_toDigits d.digits
    have decimal := digits_toDigits d.digits
    have value : Nat.ofDigitChars 10 (Nat.toDigits 10 d.digits) 0 = d.digits :=
      Nat.ofDigitChars_ten_toDigits
    rw [digits] at decimal value ⊢
    rw [List.length_cons]
    rw [Nat.ofDigitChars_cons, Nat.mul_zero, Nat.zero_add] at value
    have positive : 0 < c.toNat - 48 := by
      refine Nat.pos_of_ne_zero fun none => (ready some).1 ?_
      have bounds := toNat_of_isDigit (decimal c List.mem_cons_self)
      have least : c = '0' := Char.toNat_inj.mp (show c.toNat = 48 by omega)
      obtain rfl := single least
      rw [← value, least]
      rfl
    exact ⟨_, rfl, unsigned_scientific decimal (ready some) value positive (by omega)⟩

end

/-- What is printed of a finite number is read as a number. -/
theorem number_real {x : Binary64} (finite : x.isFinite) : ∃ y, ∀ rest, Closes rest →
    Yields (number (bytes x.jsonDigits ++ rest)) (.real y) rest := by
  cases sign : x.isNegative with
  | true =>
    obtain ⟨body, same, y, read⟩ := unsigned_body true finite
    refine ⟨signed true y, fun rest closes => ?_⟩
    rw [same, sign, if_pos rfl, bytes_append, List.append_assoc]
    exact number_signed (read rest closes)
  | false =>
    obtain ⟨body, same, y, read⟩ := unsigned_body false finite
    refine ⟨signed false y, fun rest closes => ?_⟩
    rw [same, sign, if_neg (by decide), List.nil_append]
    exact number_unsigned (read rest closes)

end Json.Scan

end NotificationRelay
