import NotificationRelay.Json.Reader
import NotificationRelay.Proofs.Result

/-! How a tree is spelled in bytes. The scanner's answers are taken apart here into what was read
and what is left: a value by its first byte, an array by its items, an object by its members. Other
readers of the same bytes are compared with the tree through these relations. -/
namespace NotificationRelay.Json.Scan

def Yields {α : Type} {n : Nat} (result : Except Fault (Step α n)) (a : α) (rest : Bytes) : Prop :=
  ∃ step, result = .ok step ∧ step.value = a ∧ step.rest = rest

def Agrees {α : Type} {n : Nat} (result : Except Fault (Step α n)) (expected : Option α)
    (rest : Bytes) : Prop :=
  match expected with
  | some a => Yields result a rest
  | none => Fails result

section

variable {α β : Type} {m n : Nat} {result : Except Fault (Step α m)} {rest : Bytes}

theorem yields_ok {step : Step α n} : Yields (.ok step) step.value step.rest := ⟨step, rfl, rfl, rfl⟩

theorem Yields.eq_of {a b : α} {other : Bytes} (first : Yields result a rest)
    (second : Yields result b other) : a = b ∧ rest = other := by
  obtain ⟨step, ok, rfl, rfl⟩ := first
  obtain ⟨step', ok', rfl, rfl⟩ := second
  rw [ok] at ok'
  cases ok'
  exact ⟨rfl, rfl⟩

theorem Yields.ne_error {a : α} {f : Fault} (yields : Yields result a rest) : result ≠ .error f := by
  obtain ⟨step, rfl, _, _⟩ := yields
  exact fun same => nomatch same

/-- A change of the step that leaves the rest as it is changes the value only. -/
theorem Yields.map {a : α} (yields : Yields result a rest) (g : Step α m → Step β n) (f : α → β)
    (carries : ∀ s, (g s).rest = s.rest ∧ (g s).value = f s.value) :
    Yields (result.map g) (f a) rest := by
  obtain ⟨step, rfl, rfl, rfl⟩ := yields
  exact ⟨g step, rfl, (carries step).2, (carries step).1⟩

theorem Yields.of_map {b : β} {g : Step α m → Step β n} (yields : Yields (result.map g) b rest)
    (f : α → β)
    (carries : ∀ s, (g s).rest = s.rest ∧ (g s).value = f s.value) :
    ∃ a, Yields result a rest ∧ f a = b := by
  obtain ⟨step, ok, rfl, rfl⟩ := yields
  cases result with
  | error _ => cases ok
  | ok s =>
    cases ok
    exact ⟨s.value, ⟨s, rfl, rfl, (carries s).1.symm⟩, (carries s).2.symm⟩

theorem Yields.skip {a : α} (yields : Yields result a rest) (g : Step α m → Step Unit n)
    (rests : ∀ s, (g s).rest = s.rest) : Yields (result.map g) () rest :=
  yields.map g (fun _ => ()) fun s => ⟨rests s, rfl⟩

theorem Yields.of_within {a : α} {fits : m ≤ n}
    (yields : Yields (result.map (·.within fits)) a rest) : Yields result a rest := by
  obtain ⟨b, inner, rfl⟩ := yields.of_map id fun _ => ⟨rfl, rfl⟩
  exact inner

/-- There is a value and it is read, or there is none and the step fails. -/
theorem Agrees.cases {expected : Option α} (agrees : Agrees result expected rest) :
    (expected = none ∧ ∃ f, result = .error f) ∨
      ∃ step, expected = some step.value ∧ result = .ok step ∧ step.rest = rest := by
  cases expected with
  | none => exact .inl ⟨rfl, agrees⟩
  | some a =>
    obtain ⟨step, ok, rfl, ends⟩ := agrees
    exact .inr ⟨step, rfl, ok, ends⟩

theorem Agrees.map {expected : Option α} (agrees : Agrees result expected rest)
    (g : Step α m → Step β n) (f : α → β)
    (carries : ∀ s, (g s).rest = s.rest ∧ (g s).value = f s.value) :
    Agrees (result.map g) (expected.map f) rest := by
  cases expected with
  | none => exact Fails.map agrees g
  | some a => exact Yields.map agrees g f carries

theorem Agrees.within {expected : Option α} (agrees : Agrees result expected rest) (fits : m ≤ n) :
    Agrees (result.map (·.within fits)) expected rest := by
  simpa using agrees.map (·.within fits) id fun _ => ⟨rfl, rfl⟩

theorem Agrees.wider {expected : Option α} (agrees : Agrees result expected rest) :
    Agrees (result.map Step.wider) expected rest :=
  agrees.within (Nat.le_succ m)

/-- A step is taken behind another one and uses what that one has read. -/
theorem Agrees.bind {expected : Option α} {f : α → Option β} {middle : Bytes}
    {next : Step α m → Except Fault (Step β n)} (head : Agrees result expected middle)
    (tail : ∀ step : Step α m, step.rest = middle → Agrees (next step) (f step.value) rest) :
    Agrees (result >>= next) (expected.bind f) rest := by
  cases expected with
  | none =>
    obtain ⟨e, rfl⟩ := head
    exact ⟨e, rfl⟩
  | some a =>
    obtain ⟨step, rfl, rfl, ends⟩ := head
    exact tail step ends

end

section

variable (item : (bytes : Bytes) → Except Fault (Step Json bytes.length))

inductive Elements : Nat → Bytes → List Json → Bytes → Prop where
  | done {index bytes rest shorter}
      (next : nextItem (index = 0) bytes = .ok (.done rest shorter)) : Elements index bytes [] rest
  | item {index bytes start within j middle items rest}
      (next : nextItem (index = 0) bytes = .ok (.item start within))
      (head : Yields (item start) j middle) (tail : Elements (index + 1) middle items rest) :
      Elements index bytes (j :: items) rest

inductive Entries : Bool → Bytes → List (String × Json) → Bytes → Prop where
  | done {first bytes rest shorter} (next : nextMember first bytes = .ok (.done rest shorter)) :
      Entries first bytes [] rest
  | entry {first bytes start within key behind j middle members rest}
      (next : nextMember first bytes = .ok (.item start within))
      (name : Yields (text start) key behind)
      (value : Yields (memberValue item key behind) j middle)
      (tail : Entries false middle members rest) : Entries first bytes ((key, j) :: members) rest

end

inductive Spelled : (depth : Nat) → UInt8 → Bytes → Json → Bytes → Prop where
  | null {depth b tail rest} (start : letter b = 'n')
      (spelling : Yields (literal ['u', 'l', 'l'] tail) () rest) : Spelled depth b tail .null rest
  | truth {depth b tail rest} (start : letter b = 't')
      (spelling : Yields (literal ['r', 'u', 'e'] tail) () rest) :
      Spelled depth b tail (.flag true) rest
  | falsity {depth b tail rest} (start : letter b = 'f')
      (spelling : Yields (literal ['a', 'l', 's', 'e'] tail) () rest) :
      Spelled depth b tail (.flag false) rest
  | text {depth b tail s rest} (start : letter b = '"') (spelling : Yields (text tail) s rest) :
      Spelled depth b tail (.text s) rest
  | number {depth b tail n rest} (start : letter b = '-' ∨ isDigitByte b)
      (spelling : Yields (number (b :: tail)) n rest) : Spelled depth b tail (.number n) rest
  | list {depth b tail items rest} (start : letter b = '[')
      (spelling : Elements (value depth) 0 tail items rest) :
      Spelled (depth + 1) b tail (.list items) rest
  | object {depth b tail members rest} (start : letter b = '\x7b')
      (spelling : Entries (value depth) true tail members rest) :
      Spelled (depth + 1) b tail (.object members) rest

structure Announces (b : UInt8) (j : Json) : Prop where
  null : letter b = 'n' ↔ j = .null
  flag : letter b = 't' ∨ letter b = 'f' ↔ ∃ truth, j = .flag truth
  text : letter b = '"' ↔ ∃ s, j = .text s
  number : letter b = '-' ∨ isDigitByte b ↔ ∃ n, j = .number n
  list : letter b = '[' ↔ ∃ items, j = .list items
  object : letter b = '\x7b' ↔ ∃ members, j = .object members

theorem Spelled.announces {depth : Nat} {b : UInt8} {tail : Bytes} {j : Json} {rest : Bytes}
    (spelled : Spelled depth b tail j rest) : Announces b j := by
  have letter_ne {c : Char} (digit : isDigitByte b) (other : c.isDigit = false) : letter b ≠ c := by
    rintro rfl
    rw [isDigitByte, other] at digit
    cases digit
  cases spelled with
  | null start | truth start | falsity start | text start | list start | object start =>
    constructor <;> simp [isDigitByte, start]
  | number start =>
    rcases start with minus | digit
    · constructor <;> simp [minus]
    · constructor <;> simp [digit, letter_ne digit]

theorem skipBlank_skipBlank (bytes : Bytes) : skipBlank (skipBlank bytes) = skipBlank bytes := by
  induction bytes with
  | nil => rfl
  | cons b tail ih =>
    by_cases blank : isBlankByte b
    · rw [skipBlank, skipBlank, List.dropWhile_cons_of_pos blank]
      exact ih
    · rw [skipBlank, skipBlank, List.dropWhile_cons_of_neg blank, List.dropWhile_cons_of_neg blank]

theorem nextItem_done {first : Bool} {bytes rest : Bytes} {shorter : rest.length < bytes.length}
    (ok : nextItem first bytes = .ok (.done rest shorter)) :
    ∃ b, skipBlank bytes = b :: rest ∧ letter b = ']' := by
  unfold nextItem at ok
  split at ok
  · cases ok
  · rename_i b tail found
    dsimp only at ok
    split at ok
    · rename_i closing
      cases ok
      exact ⟨b, found, closing⟩
    · split at ok
      · cases ok
      · split at ok
        · split at ok
          · cases ok
          · split at ok <;> cases ok
        · cases ok

/-- The first item stands right behind the bracket, each later one behind a comma. -/
theorem nextItem_item {first : Bool} {bytes start : Bytes} {within : start.length ≤ bytes.length}
    (ok : nextItem first bytes = .ok (.item start within)) :
    ∃ b tail, skipBlank bytes = b :: tail ∧ letter b ≠ ']' ∧
      ((first ∧ start = b :: tail) ∨ (first = false ∧ letter b = ',' ∧ skipBlank tail = start)) := by
  unfold nextItem at ok
  split at ok
  · cases ok
  · rename_i b tail found
    dsimp only at ok
    split at ok
    · cases ok
    · rename_i closing
      split at ok
      · rename_i isFirst
        cases ok
        exact ⟨b, tail, found, closing, .inl ⟨isFirst, rfl⟩⟩
      · rename_i later
        split at ok
        · rename_i comma
          split at ok
          · cases ok
          · rename_i c more ahead
            split at ok
            · cases ok
            · cases ok
              exact ⟨b, tail, found, closing, .inr ⟨by simpa using later, comma, ahead⟩⟩
        · cases ok

theorem nextMember_done {first : Bool} {bytes rest : Bytes} {shorter : rest.length < bytes.length}
    (ok : nextMember first bytes = .ok (.done rest shorter)) :
    ∃ b, skipBlank bytes = b :: rest ∧ letter b = '\x7d' := by
  unfold nextMember at ok
  split at ok
  · cases ok
  · rename_i b tail found
    dsimp only at ok
    split at ok
    · rename_i closing
      cases ok
      exact ⟨b, found, closing⟩
    · split at ok
      · split at ok <;> cases ok
      · split at ok
        · split at ok
          · cases ok
          · split at ok
            · cases ok
            · split at ok <;> cases ok
        · cases ok

theorem nextMember_item {first : Bool} {bytes start : Bytes} {within : start.length ≤ bytes.length}
    (ok : nextMember first bytes = .ok (.item start within)) :
    ∃ b tail, skipBlank bytes = b :: tail ∧ letter b ≠ '\x7d' ∧
      ((first ∧ letter b = '"' ∧ start = tail) ∨
        (first = false ∧ letter b = ',' ∧ ∃ c, skipBlank tail = c :: start ∧ letter c = '"')) := by
  unfold nextMember at ok
  split at ok
  · cases ok
  · rename_i b tail found
    dsimp only at ok
    split at ok
    · cases ok
    · rename_i closing
      split at ok
      · rename_i isFirst
        split at ok
        · rename_i quote
          cases ok
          exact ⟨b, start, found, closing, .inl ⟨isFirst, quote, rfl⟩⟩
        · cases ok
      · rename_i later
        split at ok
        · rename_i comma
          split at ok
          · cases ok
          · rename_i c more ahead
            split at ok
            · rename_i quote
              cases ok
              exact ⟨b, tail, found, closing,
                .inr ⟨by simpa using later, comma, c, ahead, quote⟩⟩
            · split at ok <;> cases ok
        · cases ok

theorem memberValue_spelled {α : Type}
    {item : (bytes : Bytes) → Except Fault (Step α bytes.length)} {key : String} {bytes rest : Bytes}
    {a : α} (ok : Yields (memberValue item key bytes) a rest) :
    ∃ start, Yields (colon bytes) () start ∧ Yields (item start) a rest := by
  obtain ⟨step, ok, rfl, rfl⟩ := ok
  unfold memberValue at ok
  split at ok
  · cases ok
  · rename_i start found
    split at ok
    · cases ok
    · rename_i inner read
      cases ok
      exact ⟨start.rest, ⟨start, found, rfl, rfl⟩, inner, read, rfl, rfl⟩

theorem elements_of_items {item : (bytes : Bytes) → Except Fault (Step Json bytes.length)}
    {index : Nat} {bytes : Bytes} {read : List Json} {rest : Bytes}
    (ok : Yields (items item index bytes) read rest) : Elements item index bytes read rest := by
  induction h : bytes.length using Nat.strongRecOn generalizing index bytes read with
  | ind size ih =>
    subst h
    obtain ⟨step, ok, rfl, rfl⟩ := ok
    rw [items] at ok
    split at ok
    · cases ok
    · rename_i rest shorter next
      cases ok
      exact .done next
    · rename_i start within next
      split at ok
      · cases ok
      · rename_i head found
        split at ok
        · cases ok
        · rename_i tail others
          cases ok
          have short := head.shorter
          exact .item next ⟨head, found, rfl, rfl⟩
            (ih head.rest.length (by omega) ⟨tail, others, rfl, rfl⟩ rfl)

/-- The reader of trees puts each member in front of those before it. -/
theorem entries_of_members {item : (bytes : Bytes) → Except Fault (Step Json bytes.length)}
    {first : Bool} {before read : List (String × Json)} {bytes rest : Bytes}
    (ok : Yields (members (fun read key bytes =>
      (memberValue item key bytes).map (·.map fun j => (key, j) :: read)) first before bytes)
      read rest) :
    ∃ later, read = later.reverse ++ before ∧ Entries item first bytes later rest := by
  induction h : bytes.length using Nat.strongRecOn generalizing first before bytes read with
  | ind size ih =>
    subst h
    obtain ⟨step, ok, rfl, rfl⟩ := ok
    rw [members] at ok
    split at ok
    · cases ok
    · rename_i rest shorter next
      cases ok
      exact ⟨[], rfl, .done next⟩
    · rename_i start within next
      split at ok
      · cases ok
      · rename_i key name
        split at ok
        · cases ok
        · rename_i head found
          split at ok
          · cases ok
          · rename_i tail others
            cases ok
            have short := key.shorter
            have shorter := head.shorter
            obtain ⟨later, same, entries⟩ :=
              ih head.rest.length (by omega) ⟨tail, others, rfl, rfl⟩ rfl
            obtain ⟨j, spelled, grown⟩ :=
              Yields.of_map ⟨head, found, rfl, rfl⟩ (fun j => (key.value, j) :: before) fun _ => ⟨rfl, rfl⟩
            refine ⟨(key.value, j) :: later, ?_, .entry next ⟨key, name, rfl, rfl⟩ spelled entries⟩
            change tail.value = _
            rw [same, ← grown]
            simp

theorem spelled_of_scalar {depth : Nat} {b : UInt8} {tail : Bytes} {j : Json} {rest : Bytes}
    (ok : Yields (scalar b tail) j rest) : Spelled depth b tail j rest := by
  unfold scalar at ok
  split at ok
  · rename_i start
    obtain ⟨_, spelling, rfl⟩ := ok.of_map (fun _ => Json.null) fun _ => ⟨rfl, rfl⟩
    exact .null start spelling
  · rename_i start
    obtain ⟨_, spelling, rfl⟩ := ok.of_map (fun _ => Json.flag true) fun _ => ⟨rfl, rfl⟩
    exact .truth start spelling
  · rename_i start
    obtain ⟨_, spelling, rfl⟩ := ok.of_map (fun _ => Json.flag false) fun _ => ⟨rfl, rfl⟩
    exact .falsity start spelling
  · rename_i start
    obtain ⟨s, spelling, rfl⟩ := ok.of_map Json.text fun _ => ⟨rfl, rfl⟩
    exact .text start spelling
  · rename_i start
    obtain ⟨n, spelling, rfl⟩ := ok.of_map Json.number fun _ => ⟨rfl, rfl⟩
    exact .number (.inl start) spelling
  · split at ok
    · rename_i digit
      obtain ⟨n, spelling, rfl⟩ := ok.of_map Json.number fun _ => ⟨rfl, rfl⟩
      exact .number (.inr digit) spelling
    · exact absurd rfl (ok.ne_error)

private theorem spelled_of_valueAround {depth : Nat}
    {inner : Option ((bytes : Bytes) → Except Fault (Step Json bytes.length))}
    (deeper : ∀ item, inner = some item → ∃ less, depth = less + 1 ∧ item = value less)
    {bytes : Bytes} {j : Json} {rest : Bytes} (ok : Yields (valueAround inner bytes) j rest) :
    ∃ b tail, skipBlank bytes = b :: tail ∧ Spelled depth b tail j rest := by
  unfold valueAround at ok
  split at ok
  · exact absurd rfl ok.ne_error
  · rename_i b tail found
    refine ⟨b, tail, found, ?_⟩
    split at ok
    · rename_i start
      split at ok
      · exact absurd rfl ok.ne_error
      · obtain ⟨items, spelling, rfl⟩ := ok.of_map Json.list fun _ => ⟨rfl, rfl⟩
        obtain ⟨less, rfl, rfl⟩ := deeper _ rfl
        exact .list start (elements_of_items spelling)
    · split at ok
      · rename_i start
        split at ok
        · exact absurd rfl ok.ne_error
        · obtain ⟨read, spelling, rfl⟩ :=
            ok.of_map (fun read => Json.object read.reverse) fun _ => ⟨rfl, rfl⟩
          obtain ⟨less, rfl, rfl⟩ := deeper _ rfl
          obtain ⟨members, rfl, entries⟩ := entries_of_members spelling
          simpa using Spelled.object start entries
      · exact spelled_of_scalar ok.of_within

/-- Every value that is read is spelled in one of these ways behind its blanks. -/
theorem spelled_of_value {depth : Nat} {bytes : Bytes} {j : Json} {rest : Bytes}
    (ok : Yields (value depth bytes) j rest) :
    ∃ b tail, skipBlank bytes = b :: tail ∧ Spelled depth b tail j rest := by
  cases depth with
  | zero =>
    rw [value] at ok
    refine spelled_of_valueAround ?_ ok
    intro item impossible
    cases impossible
  | succ depth =>
    rw [value] at ok
    refine spelled_of_valueAround ?_ ok
    intro item same
    cases same
    exact ⟨depth, rfl, rfl⟩

end NotificationRelay.Json.Scan
