import NotificationRelay.Json.Skip
import NotificationRelay.Proofs.Json.Spelling

/-! What can be read as a tree can also be passed over, up to the same place. The walk that passes
over values keeps a stack of the arrays and objects around it, so the statement about one value
speaks of what the walk does behind it. -/
namespace NotificationRelay.Json.Scan

variable {rest : Bytes}

theorem skipText_of_escape {b : UInt8} {bytes middle : Bytes} (backslash : letter b = '\\')
    (escape : Yields (skipEscape bytes) () middle) (more : Yields (skipText middle) () rest) :
    Yields (skipText (b :: bytes)) () rest := by
  obtain ⟨plain, found, _, rfl⟩ := escape
  have noQuote : ¬letter b = '"' := by
    rw [backslash]
    decide
  rw [skipText, if_neg noQuote, if_pos backslash, found]
  exact more.skip _ fun _ => rfl

theorem skipEscape_of_hex {c : UInt8} {tail : Bytes} {code : Nat} (unicode : letter c = 'u')
    (ok : Yields (hexCode tail) code rest) : Yields (skipEscape (c :: tail)) () rest := by
  have hard : simpleEscape c = none := by
    rw [simpleEscape, unicode]
    rfl
  rw [skipEscape, hard, if_neg (by simp), if_pos unicode]
  exact ok.skip _ fun _ => rfl

theorem trailingSurrogate_spelled {bytes : Bytes} {code : Nat}
    (ok : Yields (trailingSurrogate bytes) code rest) :
    ∃ b c more, bytes = b :: c :: more ∧ letter b = '\\' ∧ letter c = 'u' ∧
      ∃ code, Yields (hexCode more) code rest := by
  obtain ⟨step, ok, rfl, rfl⟩ := ok
  unfold trailingSurrogate at ok
  split at ok
  · cases ok
  · rename_i b behind
    split at ok
    · cases ok
    · rename_i backslash
      split at ok
      · cases ok
      · rename_i c more
        split at ok
        · cases ok
        · rename_i unicode
          split at ok
          · cases ok
          · rename_i half found
            split at ok
            · have same := Except.ok.inj ok
              refine ⟨b, c, more, rfl, by simpa using backslash, by simpa using unicode,
                half.value, half, found, rfl, ?_⟩
              rw [← same]
              rfl
            · cases ok

theorem unicodeEscape_spelled {bytes : Bytes} {c : Char} (ok : Yields (unicodeEscape bytes) c rest) :
    ∃ code middle, Yields (hexCode bytes) code middle ∧
      (middle = rest ∨ ∃ low, Yields (trailingSurrogate middle) low rest) := by
  obtain ⟨step, ok, rfl, rfl⟩ := ok
  unfold unicodeEscape at ok
  obtain ⟨first, found, ok⟩ := bind_success ok
  refine ⟨first.value, first.rest, ⟨first, found, rfl, rfl⟩, ?_⟩
  split at ok
  · cases ok
  · split at ok
    · obtain ⟨second, low, ok⟩ := bind_success ok
      have same := Except.ok.inj ok
      refine .inr ⟨second.value, second, low, rfl, ?_⟩
      rw [← same]
    · have same := Except.ok.inj ok
      left
      rw [← same]
      rfl

/-- An escape is passed over as one, or as two if it is a surrogate pair. -/
theorem skipEscape_of_escape {bytes value : Bytes} (ok : Yields (escape bytes) value rest) :
    Yields (skipEscape bytes) () rest ∨
      ∃ b more, Yields (skipEscape bytes) () (b :: more) ∧ letter b = '\\' ∧
        Yields (skipEscape more) () rest := by
  cases bytes with
  | nil => exact absurd rfl ok.ne_error
  | cons c tail =>
    simp only [escape] at ok
    split at ok
    · rename_i plain simple
      obtain ⟨_, rfl⟩ := ok.eq_of yields_ok
      left
      rw [skipEscape, simple, if_pos (by simp)]
      exact yields_ok
    · split at ok
      · rename_i unicode
        split at ok
        · rename_i step found
          obtain ⟨_, rfl⟩ := ok.eq_of yields_ok
          obtain ⟨code, middle, half, rfl | ⟨low, pair⟩⟩ :=
            unicodeEscape_spelled ⟨step, found, rfl, rfl⟩
          · exact .inl (skipEscape_of_hex unicode half)
          · obtain ⟨b, c, more, rfl, backslash, other, code, second⟩ :=
              trailingSurrogate_spelled pair
            exact .inr ⟨b, c :: more, skipEscape_of_hex unicode half, backslash,
              skipEscape_of_hex other second⟩
        · exact absurd rfl ok.ne_error
      · exact absurd rfl ok.ne_error

inductive Quoted : Bytes → Bytes → Prop where
  | close {b tail} (quote : letter b = '"') : Quoted (b :: tail) tail
  | escape {b tail plain middle rest} (backslash : letter b = '\\')
      (spelled : Yields (escape tail) plain middle) (more : Quoted middle rest) :
      Quoted (b :: tail) rest
  | plain {b tail rest} (noQuote : ¬letter b = '"') (noBackslash : ¬letter b = '\\')
      (printable : ¬b < 32) (more : Quoted tail rest) : Quoted (b :: tail) rest

theorem quoted_of_textBytes {bytes value : Bytes} (ok : Yields (textBytes bytes) value rest) :
    Quoted bytes rest := by
  fun_induction textBytes bytes generalizing value rest with
  | case1 => exact absurd rfl ok.ne_error
  | case2 b tail quote =>
    obtain ⟨_, rfl⟩ := ok.eq_of yields_ok
    exact .close quote
  | case3 => exact absurd rfl ok.ne_error
  | case4 => exact absurd rfl ok.ne_error
  | case5 b tail _ backslash plain spelled more found ih =>
    obtain ⟨_, rfl⟩ := ok.eq_of yields_ok
    exact .escape backslash ⟨plain, spelled, rfl, rfl⟩ (ih ⟨more, found, rfl, rfl⟩)
  | case6 => exact absurd rfl ok.ne_error
  | case7 => exact absurd rfl ok.ne_error
  | case8 b tail noQuote noBackslash printable more found ih =>
    obtain ⟨_, rfl⟩ := ok.eq_of yields_ok
    exact .plain noQuote noBackslash printable (ih ⟨more, found, rfl, rfl⟩)

theorem Quoted.skip {bytes : Bytes} (quoted : Quoted bytes rest) :
    Yields (skipText bytes) () rest := by
  induction quoted with
  | close quote =>
    rw [skipText, if_pos quote]
    exact yields_ok
  | escape backslash spelled _ behind =>
    rcases skipEscape_of_escape spelled with single | ⟨c, next, first, slash, second⟩
    · exact skipText_of_escape backslash single behind
    · exact skipText_of_escape backslash first (skipText_of_escape slash second behind)
  | plain noQuote noBackslash printable _ behind =>
    rw [skipText, if_neg noQuote, if_neg noBackslash, if_neg printable]
    exact behind.skip _ fun _ => rfl

theorem skipText_of_text {bytes : Bytes} {s : String} (ok : Yields (text bytes) s rest) :
    Yields (skipText bytes) () rest := by
  obtain ⟨step, ok, rfl, rfl⟩ := ok
  unfold text at ok
  split at ok
  · cases ok
  · rename_i inner found
    split at ok
    · cases ok
      exact (quoted_of_textBytes ⟨inner, found, rfl, rfl⟩).skip
    · cases ok

theorem digitsEnd_cons {b : UInt8} (digit : isDigitByte b) (bytes : Bytes) :
    digitsEnd (b :: bytes) = digitsEnd bytes :=
  List.dropWhile_cons_of_pos digit

/-- An exponent ends where its digits end, also if it is given up before. -/
theorem exponentDigits_rest (value : Nat) (bytes : Bytes) :
    (∃ n, exponentDigits value bytes = (some n, digitsEnd bytes)) ∨
      ∃ behind, exponentDigits value bytes = (none, behind) ∧
        digitsEnd behind = digitsEnd bytes := by
  induction bytes generalizing value with
  | nil => exact .inl ⟨value, rfl⟩
  | cons b tail ih =>
    rw [exponentDigits]
    by_cases digit : isDigitByte b
    · rw [if_pos digit, digitsEnd_cons digit]
      dsimp only
      split
      · exact ih _
      · exact .inr ⟨tail, rfl, rfl⟩
    · rw [if_neg digit]
      exact .inl ⟨value, by rw [digitsEnd, List.dropWhile_cons_of_neg digit]⟩

theorem skipExponent_digits {bytes tail : Bytes} {b : UInt8}
    (signed : (exponentSign bytes).2 = b :: tail) (digit : isDigitByte b) :
    Yields (skipExponent bytes) () (digitsEnd tail) := by
  unfold skipExponent
  split
  · rename_i none _
    rw [signed] at none
    cases none
  · rename_i c more within some _
    rw [signed] at some
    cases some
    rw [if_pos digit]
    exact yields_ok

theorem skipExponent_of_exponentPart {negative : Bool} {significand : Nat} {start : Int}
    {bytes : Bytes} {n : Number}
    (ok : Yields (exponentPart negative significand start bytes) n rest) :
    Yields (skipExponent bytes) () rest := by
  obtain ⟨step, ok, rfl, rfl⟩ := ok
  unfold exponentPart at ok
  split at ok
  · cases ok
  · rename_i b tail within signed _
    split at ok
    · rename_i digit
      have skipped := skipExponent_digits signed digit
      dsimp only at ok
      split at ok
      · rename_i value after short found _
        split at ok
        · cases ok
          rcases exponentDigits_rest (b.toNat - 48) tail with ⟨n, same⟩ | ⟨behind, same, _⟩
          · rw [found] at same
            cases same
            exact skipped
          · rw [found] at same
            cases same
        · cases ok
      · rename_i after short found _
        split at ok
        · cases ok
        · cases ok
          rcases exponentDigits_rest (b.toNat - 48) tail with ⟨n, same⟩ | ⟨behind, same, ends⟩
          · rw [found] at same
            cases same
          · rw [found] at same
            cases same
            change Yields _ _ (digitsEnd after)
            rw [ends]
            exact skipped
    · cases ok

theorem skipExponentOrEnd_of_exponentOrEnd {negative : Bool} {significand : Nat} {exponent : Int}
    {bytes : Bytes} {n : Number}
    (ok : Yields (exponentOrEnd negative significand exponent bytes) n rest) :
    Yields (skipExponentOrEnd bytes) () rest := by
  cases bytes with
  | nil =>
    simp only [exponentOrEnd] at ok
    split at ok
    · obtain ⟨_, rfl⟩ := ok.eq_of yields_ok
      exact yields_ok
    · exact absurd rfl ok.ne_error
  | cons b tail =>
    simp only [exponentOrEnd] at ok
    rw [skipExponentOrEnd]
    split at ok
    · rename_i letterE
      rw [if_pos letterE]
      split at ok
      · rename_i step found
        obtain ⟨_, rfl⟩ := ok.eq_of yields_ok
        exact (skipExponent_of_exponentPart ⟨step, found, rfl, rfl⟩).skip _ fun _ => rfl
      · exact absurd rfl ok.ne_error
    · rename_i noE
      rw [if_neg noE]
      split at ok
      · obtain ⟨_, rfl⟩ := ok.eq_of yields_ok
        exact yields_ok
      · exact absurd rfl ok.ne_error

private theorem yields_skipExponentOrEnd_of_eq {bytes other : Bytes} (same : bytes = other)
    (ok : Yields (skipExponentOrEnd bytes) () rest) : Yields (skipExponentOrEnd other) () rest := by
  subst same
  exact ok

theorem skipFraction_of_fractionPart {negative : Bool} {significand : Nat} {exponent : Int}
    {bytes : Bytes} {n : Number}
    (ok : Yields (fractionPart negative significand exponent bytes) n rest) :
    Yields (skipFraction bytes) () rest := by
  cases bytes with
  | nil => exact absurd rfl ok.ne_error
  | cons b tail =>
    unfold fractionPart at ok
    rw [skipFraction]
    by_cases digit : isDigitByte b
    · rw [if_pos digit]
      rw [List.takeWhile_cons_of_pos digit] at ok
      simp only [List.isEmpty_cons, Bool.false_eq_true, if_false] at ok
      split at ok
      · rename_i step found
        obtain ⟨_, rest_eq⟩ := ok.eq_of yields_ok
        have skipped : Yields (skipExponentOrEnd (digitsEnd (b :: tail))) () rest :=
          skipExponentOrEnd_of_exponentOrEnd ⟨step, found, rfl, rest_eq.symm⟩
        exact (yields_skipExponentOrEnd_of_eq (digitsEnd_cons digit tail) skipped).skip _
          fun _ => rfl
      · exact absurd rfl ok.ne_error
    · rw [List.takeWhile_cons_of_neg digit] at ok
      exact absurd rfl ok.ne_error

theorem skipAfterDigits_of_afterDigits {negative : Bool} {significand exceeding : Nat}
    {bytes : Bytes} {n : Number}
    (ok : Yields (afterDigits negative significand exceeding bytes) n rest) :
    Yields (skipAfterDigits bytes) () rest := by
  cases bytes with
  | nil =>
    simp only [afterDigits] at ok
    split at ok
    · obtain ⟨_, rfl⟩ := ok.eq_of yields_ok
      exact yields_ok
    · exact skipExponentOrEnd_of_exponentOrEnd ok
  | cons b tail =>
    simp only [afterDigits] at ok
    rw [skipAfterDigits]
    split at ok
    · rename_i point
      rw [if_pos point]
      split at ok
      · rename_i step found
        obtain ⟨_, rfl⟩ := ok.eq_of yields_ok
        exact (skipFraction_of_fractionPart ⟨step, found, rfl, rfl⟩).skip _ fun _ => rfl
      · exact absurd rfl ok.ne_error
    · rename_i noPoint
      rw [if_neg noPoint]
      split at ok
      · rename_i plain
        obtain ⟨_, rfl⟩ := ok.eq_of yields_ok
        rw [skipExponentOrEnd, if_neg (by simp [plain])]
        exact yields_ok
      · exact skipExponentOrEnd_of_exponentOrEnd ok

theorem skipUnsigned_of_unsigned {negative : Bool} {bytes : Bytes} {n : Number}
    (ok : Yields (unsigned negative bytes) n rest) : Yields (skipUnsigned bytes) () rest := by
  cases bytes with
  | nil => exact absurd rfl ok.ne_error
  | cons b tail =>
    simp only [unsigned] at ok
    unfold skipUnsigned
    dsimp only
    split at ok
    · rename_i zero
      rw [if_pos zero]
      cases tail with
      | nil =>
        obtain ⟨_, rfl⟩ := ok.eq_of yields_ok
        exact yields_ok
      | cons c more =>
        simp only at ok ⊢
        split at ok
        · exact absurd rfl ok.ne_error
        · rename_i noDigit
          rw [if_neg noDigit]
          exact skipAfterDigits_of_afterDigits ok
    · rename_i noZero
      rw [if_neg noZero]
      split at ok
      · rename_i digit
        rw [if_pos digit]
        exact (skipAfterDigits_of_afterDigits ok.of_within).skip _ fun _ => rfl
      · exact absurd rfl ok.ne_error

theorem skipUnsigned_of_number {b : UInt8} {tail : Bytes} {n : Number}
    (ok : Yields (number (b :: tail)) n rest) :
    Yields (if letter b = '-' then (skipUnsigned tail).map Step.wider else skipUnsigned (b :: tail))
      () rest := by
  rw [number] at ok
  split at ok
  · rename_i minus
    rw [if_pos minus]
    exact (skipUnsigned_of_unsigned ok.of_within).skip _ fun _ => rfl
  · rename_i noMinus
    rw [if_neg noMinus]
    exact skipUnsigned_of_unsigned ok

def Resumes (frames : List Frame) (afterValue : Bool) (bytes final : Bytes) : Prop :=
  (∃ within, settle frames afterValue bytes = .ok (.done final within)) ∨
    ∃ inner start within, settle frames afterValue bytes = .ok (.next inner start within) ∧
      Yields (skipIn inner start) () final

theorem resumes_nil (afterValue : Bool) (bytes : Bytes) : Resumes [] afterValue bytes bytes :=
  .inl ⟨Nat.le_refl _, rfl⟩

section

variable {frames : List Frame} {bytes tail final : Bytes} {b : UInt8}

def opened (frames : List Frame) (b : UInt8) (tail : Bytes) : Except Fault (Settled tail.length) :=
  if letter b = '[' then settle (.list :: frames) false tail
  else if letter b = '\x7b' then settle (.object :: frames) false tail
  else
    match skipScalar b tail with
    | .error f => .error f
    | .ok step =>
      (settle frames true step.rest).map (·.within (Nat.le_of_lt_succ step.shorter))

theorem skipIn_of_blank (found : skipBlank bytes = b :: tail) :
    skipIn frames bytes =
      match opened frames b tail with
      | .error f => .error f
      | .ok (.done rest within) =>
        .ok ⟨(), rest, Nat.lt_of_le_of_lt within (length_lt_of_skipBlank found)⟩
      | .ok (.next inner start within) =>
        (skipIn inner start).map
          (·.within (Nat.le_trans within (Nat.le_of_lt (length_lt_of_skipBlank found)))) := by
  rw [skipIn]
  split
  · rename_i none
    rw [found] at none
    cases none
  · rename_i c more some
    rw [found] at some
    cases some
    rfl

theorem skipIn_of_done {within : final.length ≤ tail.length} (found : skipBlank bytes = b :: tail)
    (ends : opened frames b tail = .ok (.done final within)) :
    Yields (skipIn frames bytes) () final := by
  rw [skipIn_of_blank found, ends]
  exact ⟨_, rfl, rfl, rfl⟩

theorem skipIn_of_next {inner : List Frame} {start : Bytes} {within : start.length ≤ tail.length}
    (found : skipBlank bytes = b :: tail)
    (goes : opened frames b tail = .ok (.next inner start within))
    (later : Yields (skipIn inner start) () final) : Yields (skipIn frames bytes) () final := by
  rw [skipIn_of_blank found, goes]
  exact later.skip _ fun _ => rfl

theorem skipIn_of_nested {frame : Frame} (found : skipBlank bytes = b :: tail)
    (start : opened frames b tail = settle (frame :: frames) false tail)
    (resumes : Resumes (frame :: frames) false tail final) :
    Yields (skipIn frames bytes) () final := by
  rcases resumes with ⟨within, settled⟩ | ⟨inner, place, within, settled, later⟩
  · exact skipIn_of_done found (start.trans settled)
  · exact skipIn_of_next found (start.trans settled) later

theorem skipIn_of_list (found : skipBlank bytes = b :: tail) (start : letter b = '[')
    (resumes : Resumes (.list :: frames) false tail final) :
    Yields (skipIn frames bytes) () final :=
  skipIn_of_nested found (if_pos start) resumes

theorem skipIn_of_object (found : skipBlank bytes = b :: tail) (start : letter b = '\x7b')
    (resumes : Resumes (.object :: frames) false tail final) :
    Yields (skipIn frames bytes) () final := by
  have noList : letter b ≠ '[' := by
    rw [start]
    decide
  exact skipIn_of_nested found ((if_neg noList).trans (if_pos start)) resumes

theorem skipIn_of_scalar {middle : Bytes} (found : skipBlank bytes = b :: tail)
    (noList : letter b ≠ '[') (noObject : letter b ≠ '\x7b')
    (ok : Yields (skipScalar b tail) () middle) (resumes : Resumes frames true middle final) :
    Yields (skipIn frames bytes) () final := by
  obtain ⟨step, ok, _, rfl⟩ := ok
  have start : opened frames b tail =
      (settle frames true step.rest).map (·.within (Nat.le_of_lt_succ step.shorter)) := by
    rw [opened, if_neg noList, if_neg noObject, ok]
  rcases resumes with ⟨within, settled⟩ | ⟨inner, place, within, settled, later⟩
  · exact skipIn_of_done found (start.trans (by rw [settled]; rfl))
  · exact skipIn_of_next found (start.trans (by rw [settled]; rfl)) later

end

theorem skipScalar_of_spelled {depth : Nat} {b : UInt8} {tail : Bytes} {j : Json}
    (spelled : Spelled depth b tail j rest) (noList : letter b ≠ '[')
    (noObject : letter b ≠ '\x7b') : Yields (skipScalar b tail) () rest := by
  cases spelled with
  | null start spelling => rw [skipScalar, start]; exact spelling
  | truth start spelling => rw [skipScalar, start]; exact spelling
  | falsity start spelling => rw [skipScalar, start]; exact spelling
  | text start spelling =>
    rw [skipScalar, start]
    exact (skipText_of_text spelling).skip _ fun _ => rfl
  | number start spelling =>
    have skipped := skipUnsigned_of_number spelling
    rcases start with minus | digit
    · rw [if_pos minus] at skipped
      rw [skipScalar, minus]
      exact skipped
    · have digits : (letter b).isDigit := digit
      rw [if_neg (by intro minus; rw [minus] at digits; exact absurd digits (by decide))] at skipped
      unfold skipScalar
      split
      case h_6 =>
        rw [if_pos digit]
        exact skipped
      all_goals
        rename_i same
        rw [same] at digits
        exact absurd digits (by decide)
  | list start => exact absurd start noList
  | object start => exact absurd start noObject

section

variable {frame : Frame} {outer : List Frame} {bytes tail start final : Bytes} {b : UInt8}

theorem settle_of_blank (found : skipBlank bytes = b :: tail) (afterValue : Bool) :
    settle (frame :: outer) afterValue bytes =
      if afterValue = true ∧ letter b = ',' then
        (enter frame tail).map fun start =>
          .next (frame :: outer) start.rest (start.rest_length_le found)
      else if letter b = frame.closing then
        (settle outer true tail).map (·.within (length_le_of_skipBlank found))
      else if afterValue = true then fault frame.expectedComma tail
      else
        (enter frame (b :: tail)).map fun start =>
          .next (frame :: outer) start.rest (start.rest_length_le_of_cons found) := by
  rw [settle]
  split
  · rename_i none
    rw [found] at none
    cases none
  · rename_i c more some
    rw [found] at some
    cases some
    rfl

theorem resumes_of_closing {afterValue : Bool} (found : skipBlank bytes = b :: tail)
    (closing : letter b = frame.closing) (outside : Resumes outer true tail final) :
    Resumes (frame :: outer) afterValue bytes final := by
  have noComma : ¬(afterValue = true ∧ letter b = ',') := by
    rw [closing]
    cases frame <;> simp [Frame.closing]
  have short := length_le_of_skipBlank found
  rw [Resumes, settle_of_blank found, if_neg noComma, if_pos closing]
  rcases outside with ⟨within, settled⟩ | ⟨inner, start, within, settled, later⟩
  · rw [settled]
    exact .inl ⟨Nat.le_trans within short, rfl⟩
  · rw [settled]
    exact .inr ⟨inner, start, Nat.le_trans within short, rfl, later⟩

theorem resumes_of_comma (found : skipBlank bytes = b :: tail) (comma : letter b = ',')
    (entered : Yields (enter frame tail) () start)
    (value : Yields (skipIn (frame :: outer) start) () final) :
    Resumes (frame :: outer) true bytes final := by
  obtain ⟨step, entered, _, rfl⟩ := entered
  rw [Resumes, settle_of_blank found, if_pos ⟨rfl, comma⟩, entered]
  exact .inr ⟨frame :: outer, step.rest, step.rest_length_le found, rfl, value⟩

theorem resumes_of_first (found : skipBlank bytes = b :: tail) (closing : letter b ≠ frame.closing)
    (entered : Yields (enter frame (b :: tail)) () start)
    (value : Yields (skipIn (frame :: outer) start) () final) :
    Resumes (frame :: outer) false bytes final := by
  obtain ⟨step, entered, _, rfl⟩ := entered
  have noComma : ¬(false = true ∧ letter b = ',') := fun comma => Bool.false_ne_true comma.1
  rw [Resumes, settle_of_blank found, if_neg noComma, if_neg closing, if_neg Bool.false_ne_true,
    entered]
  exact .inr ⟨frame :: outer, step.rest, step.rest_length_le_of_cons found, rfl, value⟩

end

theorem skipKey_of_text {bytes start behind : Bytes} {q : UInt8} {key : String}
    (found : skipBlank bytes = q :: start) (quote : letter q = '"')
    (name : Yields (text start) key behind) (mark : Yields (colon behind) () rest) :
    Yields (skipKey bytes) () rest := by
  obtain ⟨step, skipped, _, rfl⟩ := skipText_of_text name
  unfold skipKey
  split
  · rename_i none
    rw [found] at none
    cases none
  · rename_i c more some
    rw [found] at some
    cases some
    rw [if_pos quote, skipped]
    exact mark.skip _ fun _ => rfl

def Passes (depth : Nat) : Prop :=
  ∀ ⦃frames : List Frame⦄ ⦃bytes : Bytes⦄ ⦃b : UInt8⦄ ⦃tail : Bytes⦄ ⦃j : Json⦄
    ⦃middle final : Bytes⦄,
    skipBlank bytes = b :: tail → Spelled depth b tail j middle → Resumes frames true middle final →
      Yields (skipIn frames bytes) () final

section

variable {depth : Nat} {outer : List Frame} {bytes final : Bytes}

theorem resumes_of_elements (passes : Passes depth) {index : Nat} {items : List Json}
    (elements : Elements (value depth) index bytes items rest)
    (outside : Resumes outer true rest final) :
    Resumes (.list :: outer) (decide (index ≠ 0)) bytes final := by
  induction elements with
  | done next =>
    obtain ⟨b, found, closing⟩ := nextItem_done next
    exact resumes_of_closing found closing outside
  | @item index bytes start within j middle items rest next head tail ih =>
    have behind : Resumes (.list :: outer) true middle final := by simpa using ih outside
    obtain ⟨b, more, found, noClosing, ⟨first, rfl⟩ | ⟨later, comma, ahead⟩⟩ := nextItem_item next
    · obtain ⟨c, inner, start, spelled⟩ := spelled_of_value head
      rw [show decide (index ≠ 0) = false by simpa using first]
      exact resumes_of_first found noClosing yields_ok (passes start spelled behind)
    · obtain ⟨c, inner, start, spelled⟩ := spelled_of_value head
      rw [← ahead, skipBlank_skipBlank] at start
      rw [show decide (index ≠ 0) = true by simpa using later]
      exact resumes_of_comma found comma yields_ok (passes start spelled behind)

theorem resumes_of_entries (passes : Passes depth) {first : Bool} {members : List (String × Json)}
    (entries : Entries (value depth) first bytes members rest)
    (outside : Resumes outer true rest final) :
    Resumes (.object :: outer) (!first) bytes final := by
  induction entries with
  | done next =>
    obtain ⟨b, found, closing⟩ := nextMember_done next
    exact resumes_of_closing found closing outside
  | @entry first bytes start within key behind j middle members rest next name value tail ih =>
    have after : Resumes (.object :: outer) true middle final := ih outside
    obtain ⟨place, mark, head⟩ := memberValue_spelled value
    obtain ⟨c, inner, found, spelled⟩ := spelled_of_value head
    have skipped := passes found spelled after
    obtain ⟨b, more, here, noClosing, ⟨rfl, quote, rfl⟩ | ⟨rfl, comma, q, ahead, quote⟩⟩ :=
      nextMember_item next
    · have alone : skipBlank (b :: start) = b :: start := by rw [← here, skipBlank_skipBlank]
      have entered := (skipKey_of_text alone quote name mark).skip Step.wider fun _ => rfl
      exact resumes_of_first here noClosing entered skipped
    · have entered := (skipKey_of_text ahead quote name mark).skip Step.wider fun _ => rfl
      exact resumes_of_comma here comma entered skipped

end

theorem letter_of_scalar {b : UInt8} (start : letter b ∈ ['n', 't', 'f', '"', '-'] ∨ isDigitByte b) :
    letter b ≠ '[' ∧ letter b ≠ '\x7b' := by
  constructor <;> intro same <;> rcases start with among | digit
  · rw [same] at among; exact absurd among (by decide)
  · rw [isDigitByte, same] at digit; exact absurd digit (by decide)
  · rw [same] at among; exact absurd among (by decide)
  · rw [isDigitByte, same] at digit; exact absurd digit (by decide)

/-- Only arrays and objects open a level. -/
theorem Spelled.scalar_or_nested {depth : Nat} {b : UInt8} {tail : Bytes} {j : Json}
    (spelled : Spelled depth b tail j rest) :
    (letter b ≠ '[' ∧ letter b ≠ '\x7b') ∨
      ∃ inner, depth = inner + 1 ∧
        ((letter b = '[' ∧ ∃ items, Elements (value inner) 0 tail items rest) ∨
          (letter b = '\x7b' ∧ ∃ members, Entries (value inner) true tail members rest)) := by
  cases spelled with
  | null start => exact .inl (letter_of_scalar (by simp [start]))
  | truth start => exact .inl (letter_of_scalar (by simp [start]))
  | falsity start => exact .inl (letter_of_scalar (by simp [start]))
  | text start => exact .inl (letter_of_scalar (by simp [start]))
  | number start =>
    exact .inl (letter_of_scalar (start.imp_left (by intro minus; simp [minus])))
  | list start elements => exact .inr ⟨_, rfl, .inl ⟨start, _, elements⟩⟩
  | object start entries => exact .inr ⟨_, rfl, .inr ⟨start, _, entries⟩⟩

theorem passes (depth : Nat) : Passes depth := by
  induction depth with
  | zero =>
    intro frames bytes b tail j middle final found spelled resumes
    obtain ⟨noList, noObject⟩ | ⟨inner, deep, _⟩ := spelled.scalar_or_nested
    · exact skipIn_of_scalar found noList noObject (skipScalar_of_spelled spelled noList noObject)
        resumes
    · cases deep
  | succ depth ih =>
    intro frames bytes b tail j middle final found spelled resumes
    obtain ⟨noList, noObject⟩ |
      ⟨inner, deep, ⟨start, items, elements⟩ | ⟨start, members, entries⟩⟩ :=
      spelled.scalar_or_nested
    · exact skipIn_of_scalar found noList noObject (skipScalar_of_spelled spelled noList noObject)
        resumes
    · cases deep
      exact skipIn_of_list found start (resumes_of_elements ih elements resumes)
    · cases deep
      exact skipIn_of_object found start (resumes_of_entries ih entries resumes)

/-- What is read as a tree can be passed over, up to the same place. -/
theorem skip_of_value {depth : Nat} {bytes : Bytes} {j : Json}
    (ok : Yields (value depth bytes) j rest) : Yields (skip bytes) () rest := by
  obtain ⟨b, tail, found, spelled⟩ := spelled_of_value ok
  exact passes depth found spelled (resumes_nil true rest)

end NotificationRelay.Json.Scan
