import NotificationRelay.Json.Reader
import NotificationRelay.Proofs.Json.Escape
import NotificationRelay.Proofs.Json.Real

/-! What is printed is read again as the same tree, but for its reals: each of them stands for what
its digits are read as. -/
namespace NotificationRelay.Json

open Utf8 Scan

def reread (x : Binary64) : Binary64 :=
  match read (encode x.jsonText) with
  | .ok (.number (.real y)) => y
  | _ => x

mutual

def mapReal (f : Binary64 → Binary64) : Json → Json
  | .number (.real x) => .number (.real (f x))
  | .list items => .list (mapRealItems f items)
  | .object members => .object (mapRealMembers f members)
  | value => value

def mapRealItems (f : Binary64 → Binary64) : List Json → List Json
  | [] => []
  | item :: rest => mapReal f item :: mapRealItems f rest

def mapRealMembers (f : Binary64 → Binary64) : List (String × Json) → List (String × Json)
  | [] => []
  | (key, value) :: rest => (key, mapReal f value) :: mapRealMembers f rest

end

theorem mapReal_list (f : Binary64 → Binary64) (items : List Json) :
    mapReal f (.list items) = .list (items.map (mapReal f)) := by
  have same : mapRealItems f items = items.map (mapReal f) := by
    induction items with
    | nil => rfl
    | cons item rest ih => rw [mapRealItems, ih, List.map_cons]
  rw [mapReal, same]

theorem mapReal_object (f : Binary64 → Binary64) (members : List (String × Json)) :
    mapReal f (.object members) = .object (members.map fun m => (m.1, mapReal f m.2)) := by
  have same : mapRealMembers f members = members.map fun m => (m.1, mapReal f m.2) := by
    induction members with
    | nil => rfl
    | cons member rest ih => rw [mapRealMembers, ih, List.map_cons]
  rw [mapReal, same]

inductive Printable : Nat → Json → Prop where
  | null {depth : Nat} : Printable depth .null
  | flag {depth : Nat} (b : Bool) : Printable depth (.flag b)
  | natural {depth n : Nat} (fits : n ≤ greatestWord) : Printable depth (.number (.natural n))
  | negative {depth n : Nat} (some : 0 < n) (fits : n ≤ twoTo 63) :
      Printable depth (.number (.negative n))
  | real {depth : Nat} {x : Binary64} (finite : x.isFinite) : Printable depth (.number (.real x))
  | text {depth : Nat} (s : String) : Printable depth (.text s)
  | list {depth : Nat} {items : List Json} (inside : ∀ j ∈ items, Printable depth j) :
      Printable (depth + 1) (.list items)
  | object {depth : Nat} {members : List (String × Json)}
      (inside : ∀ m ∈ members, Printable depth m.2) : Printable (depth + 1) (.object members)

namespace Scan

variable {b : UInt8} {more tail rest : Bytes}

section Trees

variable {depth : Nat} {j : Json} {items : List Json} {members : List (String × Json)}
  {item : (bytes : Bytes) → Except Fault (Step Json bytes.length)}

def Opens (bytes : Bytes) : Prop :=
  ∃ b tail, bytes = b :: tail ∧ isBlankByte b = false ∧ letter b ≠ ']'

theorem skipBlank_visible (visible : isBlankByte b = false) : skipBlank (b :: tail) = b :: tail :=
  List.dropWhile_cons_of_neg (by simp [visible])

theorem items_of_elements {index : Nat} {bytes : Bytes}
    (elements : Elements item index bytes items rest) : Yields (Scan.items item index bytes) items rest := by
  induction elements with
  | done next =>
    rw [Scan.items, next]
    exact ⟨_, rfl, rfl, rfl⟩
  | item next head tail ih =>
    obtain ⟨first, read, rfl, rfl⟩ := head
    obtain ⟨others, later, rfl, rfl⟩ := ih
    rw [Scan.items, next]
    dsimp only
    rw [read]
    dsimp only
    rw [later]
    exact ⟨_, rfl, rfl, rfl⟩

theorem members_member {σ : Type}
    {visit : σ → String → (bytes : Bytes) → Except Fault (Step σ bytes.length)} {first : Bool}
    {state : σ} {bytes start : Bytes} {within : start.length ≤ bytes.length}
    {key : Step String start.length} (value : Step σ key.rest.length)
    {others : Step σ value.rest.length} (next : nextMember first bytes = .ok (.item start within))
    (name : text start = .ok key) (later : Scan.members visit false value.value value.rest = .ok others)
    (visited : visit state key.value key.rest = .ok value) :
    ∃ fits, Scan.members visit first state bytes = .ok (others.within fits) := by
  rw [Scan.members, next]
  dsimp only
  rw [name]
  dsimp only
  rw [visited]
  dsimp only
  rw [later]
  exact ⟨_, rfl⟩

theorem members_of_entries {first : Bool} {bytes : Bytes} (before : List (String × Json))
    (entries : Entries item first bytes members rest) :
    Yields (Scan.members (fun read key bytes =>
      (memberValue item key bytes).map (·.map fun j => (key, j) :: read)) first before bytes)
      (members.reverse ++ before) rest := by
  induction entries generalizing before with
  | done next =>
    rw [Scan.members, next]
    exact ⟨_, rfl, rfl, rfl⟩
  | @entry first bytes start within key behind j middle members rest next name value tail ih =>
    obtain ⟨named, spelled, rfl, rfl⟩ := name
    obtain ⟨held, read, rfl, rfl⟩ := value
    obtain ⟨others, later, same, rfl⟩ := ih ((named.value, held.value) :: before)
    obtain ⟨_, all⟩ := members_member (held.map fun j => (named.value, j) :: before) next spelled
      later (congrArg (Except.map _) read)
    rw [all]
    refine ⟨_, rfl, ?_, rfl⟩
    change others.value = _
    rw [same, List.reverse_cons, List.append_assoc]
    rfl

theorem nextItem_first {bytes : Bytes} (opens : Opens bytes) :
    nextItem true bytes = .ok (.item bytes (Nat.le_refl _)) := by
  obtain ⟨b, tail, rfl, visible, other⟩ := opens
  unfold nextItem
  split
  · rename_i found
    rw [skipBlank_visible visible] at found
    cases found
  · rename_i found
    rw [skipBlank_visible visible] at found
    cases found
    rw [if_neg other, if_pos rfl]

theorem length_ahead_le {bytes more : Bytes} {c : UInt8} (ahead : skipBlank bytes = c :: more) :
    (c :: more).length ≤ (byte ',' :: bytes).length :=
  Nat.le_succ_of_le (length_lt_of_skipBlank ahead)

theorem nextItem_comma (bytes : Bytes) : nextItem false (byte ',' :: bytes) =
    match ahead : skipBlank bytes with
    | [] => fault .unfinishedValue []
    | c :: more =>
      if letter c = ']' then fault .trailingComma more
      else .ok (.item (c :: more) (length_ahead_le ahead)) := rfl

theorem nextItem_later {bytes : Bytes} (opens : Opens bytes) :
    nextItem false (byte ',' :: bytes) = .ok (.item bytes (Nat.le_succ _)) := by
  obtain ⟨b, tail, rfl, visible, other⟩ := opens
  rw [nextItem_comma]
  split
  · rename_i ahead
    rw [skipBlank_visible visible] at ahead
    cases ahead
  · rename_i ahead
    rw [skipBlank_visible visible] at ahead
    cases ahead
    rw [if_neg other]

theorem nextItem_close {first : Bool} :
    nextItem first (byte ']' :: rest) = .ok (.done rest (Nat.lt_succ_self _)) := rfl

theorem nextMember_first :
    nextMember true (byte '"' :: tail) = .ok (.item tail (Nat.le_succ _)) := rfl

theorem nextMember_later : nextMember false (byte ',' :: byte '"' :: tail) =
    .ok (.item tail (Nat.le_succ_of_le (Nat.le_succ _))) := rfl

theorem nextMember_close {first : Bool} :
    nextMember first (byte '\x7d' :: rest) = .ok (.done rest (Nat.lt_succ_self _)) := rfl

theorem colon_mark : colon (byte ':' :: tail) = .ok ⟨(), tail, Nat.lt_succ_self _⟩ := rfl

theorem memberValue_colon {key : String} (read : Yields (item tail) j rest) :
    Yields (memberValue item key (byte ':' :: tail)) j rest := by
  obtain ⟨step, ok, rfl, rfl⟩ := read
  rw [memberValue, colon_mark]
  dsimp only
  rw [ok]
  exact ⟨_, rfl, rfl, rfl⟩

theorem joined_cons (part : List Char) (parts : List (List Char)) :
    joined (part :: parts) = part ++ parts.flatMap (',' :: ·) := by
  induction parts generalizing part with
  | nil => rw [List.flatMap_nil, List.append_nil, joined, List.intercalate_singleton]
  | cons other parts ih =>
    have step := ih other
    rw [joined] at step ⊢
    rw [List.intercalate_cons_cons, step, List.flatMap_cons, List.append_assoc]
    rfl

theorem listChars_eq (items : List Json) : listChars items = items.map chars := by
  induction items with
  | nil => rfl
  | cons item rest ih => rw [listChars, ih, List.map_cons]

theorem memberChars_eq (members : List (String × Json)) :
    memberChars members = members.map fun m => textChars m.1 ++ ':' :: m.2.chars := by
  induction members with
  | nil => rfl
  | cons member rest ih => rw [memberChars, ih, List.map_cons]

theorem closes_byte {c : Char} (closing : letter (byte c) ∈ [',', ']', '\x7d']) :
    Closes (byte c :: tail) := by
  intro b head
  obtain rfl := Option.some.inj head
  exact closing

/-- Behind an item another one follows, or the end of the array. -/
theorem closes_items (items : List (List Char)) (rest : Bytes) :
    Closes (bytes (items.flatMap (',' :: ·)) ++ byte ']' :: rest) := by
  cases items with
  | nil => exact closes_byte (by decide)
  | cons item items =>
    rw [List.flatMap_cons, List.cons_append, bytes_cons, encodeChar_ascii (by decide)]
    exact closes_byte (by decide)

theorem closes_members (members : List (List Char)) (rest : Bytes) :
    Closes (bytes (members.flatMap (',' :: ·)) ++ byte '\x7d' :: rest) := by
  cases members with
  | nil => exact closes_byte (by decide)
  | cons member members =>
    rw [List.flatMap_cons, List.cons_append, bytes_cons, encodeChar_ascii (by decide)]
    exact closes_byte (by decide)

def Rereads (item : (bytes : Bytes) → Except Fault (Step Json bytes.length)) (j j' : Json) : Prop :=
  ∀ rest, Closes rest → Opens (bytes j.chars ++ rest) ∧ Yields (item (bytes j.chars ++ rest)) j' rest

variable {f : Json → Json}

theorem elements_later (inside : ∀ j ∈ items, Rereads item j (f j)) (index : Nat) :
    Elements item (index + 1) (bytes ((items.map chars).flatMap (',' :: ·)) ++ byte ']' :: rest)
      (items.map f) rest := by
  induction items generalizing index with
  | nil => exact .done nextItem_close
  | cons j items ih =>
    obtain ⟨first, others⟩ := List.forall_mem_cons.mp inside
    obtain ⟨opens, read⟩ := first _ (closes_items (items.map chars) rest)
    rw [List.map_cons, List.flatMap_cons, List.cons_append, bytes_cons, encodeChar_ascii (by decide),
      bytes_append, List.append_assoc, List.singleton_append, List.append_assoc]
    exact .item (nextItem_later opens) read (ih others (index + 1))

theorem elements_printed (inside : ∀ j ∈ items, Rereads item j (f j)) :
    Elements item 0 (bytes (joined (items.map chars)) ++ byte ']' :: rest) (items.map f) rest := by
  cases items with
  | nil => exact .done nextItem_close
  | cons j items =>
    obtain ⟨first, others⟩ := List.forall_mem_cons.mp inside
    obtain ⟨opens, read⟩ := first _ (closes_items (items.map chars) rest)
    rw [List.map_cons, joined_cons, bytes_append, List.append_assoc]
    exact .item (nextItem_first opens) read (elements_later others 0)

theorem memberChars_first (key : String) (read : Yields (item (bytes j.chars ++ tail)) j' rest) :
    ∃ start behind, bytes (textChars key ++ ':' :: j.chars) ++ tail = byte '"' :: start ∧
      Yields (text start) key behind ∧ Yields (memberValue item key behind) j' rest := by
  refine ⟨bytes (key.toList.flatMap escaped) ++ byte '"' :: (byte ':' :: (bytes j.chars ++ tail)),
    _, ?_, text_escaped key, memberValue_colon read⟩
  have quote : bytes ['"'] = [byte '"'] := rfl
  rw [textChars, bytes_append, bytes_append, quote, bytes_cons, bytes_cons,
    encodeChar_ascii (by decide), encodeChar_ascii (by decide)]
  simp

theorem entries_later (inside : ∀ m ∈ members, Rereads item m.2 (f m.2)) :
    Entries item false (bytes ((members.map fun m => textChars m.1 ++ ':' :: m.2.chars).flatMap (',' :: ·)) ++
      byte '\x7d' :: rest) (members.map fun m => (m.1, f m.2)) rest := by
  induction members with
  | nil => exact .done nextMember_close
  | cons m members ih =>
    obtain ⟨first, others⟩ := List.forall_mem_cons.mp inside
    obtain ⟨_, read⟩ := first _ (closes_members
      (members.map fun m => textChars m.1 ++ ':' :: m.2.chars) rest)
    obtain ⟨start, behind, spelled, name, value⟩ := memberChars_first m.1 read
    rw [List.map_cons, List.flatMap_cons, List.cons_append, bytes_cons, encodeChar_ascii (by decide),
      bytes_append, List.append_assoc, List.singleton_append, List.append_assoc, spelled]
    exact .entry nextMember_later name value (ih others)

theorem entries_printed (inside : ∀ m ∈ members, Rereads item m.2 (f m.2)) :
    Entries item true (bytes (joined (members.map fun m => textChars m.1 ++ ':' :: m.2.chars)) ++
      byte '\x7d' :: rest) (members.map fun m => (m.1, f m.2)) rest := by
  cases members with
  | nil => exact .done nextMember_close
  | cons m members =>
    obtain ⟨first, others⟩ := List.forall_mem_cons.mp inside
    obtain ⟨_, read⟩ := first _ (closes_members
      (members.map fun m => textChars m.1 ++ ':' :: m.2.chars) rest)
    obtain ⟨start, behind, spelled, name, value⟩ := memberChars_first m.1 read
    rw [List.map_cons, joined_cons, bytes_append, List.append_assoc, spelled]
    exact .entry nextMember_first name value (entries_later others)

theorem value_scalar (visible : isBlankByte b = false) (other : letter b ≠ '[' ∧ letter b ≠ '\x7b')
    (read : Yields (scalar b tail) j rest) : Yields (value depth (b :: tail)) j rest := by
  obtain ⟨inner, same⟩ : ∃ inner, value depth = valueAround inner := by
    cases depth with
    | zero => exact ⟨_, rfl⟩
    | succ depth => exact ⟨_, rfl⟩
  rw [same, valueAround]
  split
  · rename_i found
    rw [skipBlank_visible visible] at found
    cases found
  · rename_i found
    rw [skipBlank_visible visible] at found
    cases found
    rw [if_neg other.1, if_neg other.2]
    exact read.map _ id fun _ => ⟨rfl, rfl⟩

theorem value_list (read : Elements (value depth) 0 tail items rest) :
    Yields (value (depth + 1) (byte '[' :: tail)) (.list items) rest := by
  change Yields ((Scan.items (value depth) 0 tail).map fun step =>
    (step.map Json.list).within (Nat.le_succ _)) _ _
  exact (items_of_elements read).map _ Json.list fun _ => ⟨rfl, rfl⟩

theorem value_object (read : Entries (value depth) true tail members rest) :
    Yields (value (depth + 1) (byte '\x7b' :: tail)) (.object members) rest := by
  have all := members_of_entries [] read
  rw [List.append_nil] at all
  have object := all.map (fun step => (step.map fun read => Json.object read.reverse).within
    (Nat.le_succ _)) (fun read => Json.object read.reverse) fun _ => ⟨rfl, rfl⟩
  rw [List.reverse_reverse] at object
  exact object

theorem literal_word {word : List Char} (low : ∀ c ∈ word, c.toNat < 0x80) :
    Yields (literal word (bytes word ++ rest)) () rest := by
  induction word with
  | nil => exact yields_ok
  | cons c word ih =>
    obtain ⟨first, others⟩ := List.forall_mem_cons.mp low
    obtain ⟨step, ok, _, ends⟩ := ih others
    rw [bytes_cons, encodeChar_ascii first, List.append_assoc, List.singleton_append]
    unfold literal
    rw [if_pos (letter_byte first), ok]
    exact ⟨_, rfl, rfl, ends⟩

theorem rereads_start {c : Char} {word : List Char} {j j' : Json} (printed : j.chars = c :: word)
    (low : c.toNat < 0x80) (visible : isBlankByte (byte c) = false) (other : c ≠ ']')
    (read : ∀ rest, Yields (value depth (byte c :: (bytes word ++ rest))) j' rest) :
    Rereads (value depth) j j' := by
  intro rest _
  rw [printed, bytes_cons, encodeChar_ascii low, List.append_assoc, List.singleton_append]
  exact ⟨⟨_, _, rfl, visible, by rwa [letter_byte low]⟩, read rest⟩

theorem scalar_word {c : Char} {word : List Char}
    (spelled : ∀ tail, scalar (byte c) tail = (literal word tail).map (·.map fun _ => j))
    (low : word.all fun d => d.toNat < 0x80) :
    Yields (scalar (byte c) (bytes word ++ rest)) j rest := by
  have ascii := List.all_eq_true.mp low
  rw [spelled]
  exact (literal_word fun d among => of_decide_eq_true (ascii d among)).map _ (fun _ => j) fun _ => ⟨rfl, rfl⟩

theorem number_start {bytes : Bytes} {n : Number} (read : Yields (number bytes) n rest) :
    ∃ b tail, bytes = b :: tail ∧ (letter b = '-' ∨ isDigitByte b) := by
  cases bytes with
  | nil => exact absurd rfl read.ne_error
  | cons b tail =>
    refine ⟨b, tail, rfl, ?_⟩
    by_cases minus : letter b = '-'
    · exact .inl minus
    · rw [number, if_neg minus] at read
      unfold unsigned at read
      dsimp only at read
      split at read
      · rename_i zero
        exact .inr (by rw [isDigitByte, zero]; decide)
      · split at read
        · rename_i digit
          exact .inr digit
        · exact absurd rfl read.ne_error

theorem scalar_number {n : Number} (start : letter b = '-' ∨ isDigitByte b)
    (read : Yields (number (b :: tail)) n rest) : Yields (scalar b tail) (.number n) rest := by
  have mapped := read.map (·.map Json.number) Json.number fun _ => ⟨rfl, rfl⟩
  rcases start with minus | digit
  · unfold scalar
    rw [minus]
    exact mapped
  · have other {c : Char} (no : c.isDigit = false) : letter b ≠ c := by
      rintro rfl
      rw [isDigitByte, no] at digit
      cases digit
    unfold scalar
    split
    · exact absurd ‹_› (other (by decide))
    · exact absurd ‹_› (other (by decide))
    · exact absurd ‹_› (other (by decide))
    · exact absurd ‹_› (other (by decide))
    · exact mapped
    · rw [if_pos digit]
      exact mapped

theorem rereads_number {n n' : Number}
    (spelled : ∀ rest, Closes rest → Yields (number (bytes n.chars ++ rest)) n' rest) :
    Rereads (value depth) (.number n) (.number n') := by
  intro rest closes
  have read := spelled rest closes
  change Opens (bytes n.chars ++ rest) ∧ Yields (value depth (bytes n.chars ++ rest)) _ _
  obtain ⟨b, tail, same, start⟩ := number_start read
  rw [same] at read ⊢
  have bounds : 45 ≤ b.toNat ∧ b.toNat < 58 := by
    rw [← toNat_letter]
    rcases start with minus | digit
    · rw [minus]
      decide
    · have range := toNat_of_isDigit digit
      omega
  have visible : isBlankByte b = false := by
    have apart {k : UInt8} (small : k.toNat < 45) : b ≠ k := by
      rintro rfl
      omega
    simp [isBlankByte, apart (k := 32) (by decide), apart (k := 9) (by decide),
      apart (k := 10) (by decide), apart (k := 13) (by decide)]
  have other {c : Char} (great : 58 ≤ c.toNat) : letter b ≠ c := by
    rintro rfl
    rw [toNat_letter] at great
    omega
  exact ⟨⟨b, tail, rfl, visible, other (by decide)⟩,
    value_scalar visible ⟨other (by decide), other (by decide)⟩ (scalar_number start read)⟩

end Trees

end Scan

variable {j : Json} {x y : Binary64}

theorem read_of_rereads {j' : Json} (rereads : Scan.Rereads (value depthLimit) j j') :
    read (encode j.print) = .ok j' := by
  have all := (rereads [] (by intro b head; cases head)).2
  rw [List.append_nil] at all
  obtain ⟨step, ok, rfl, ends⟩ := all
  have source : encode j.print = bytes j.chars := by
    rw [encode, print, String.toList_ofList]
    rfl
  rw [source, read, ok]
  dsimp only
  rw [ends]
  rfl

theorem reread_spec (finite : x.isFinite) (rest : Bytes) (closes : Closes rest) :
    Yields (Scan.number (bytes x.jsonDigits ++ rest)) (.real (reread x)) rest := by
  obtain ⟨y, spelled⟩ := number_real finite
  have shown : Number.chars (.real x) = x.jsonDigits := by rw [Number.chars, if_pos finite]
  have whole : read (encode (Json.number (.real x)).print) = .ok (.number (.real y)) := by
    refine read_of_rereads (rereads_number fun rest closes => ?_)
    rw [shown]
    exact spelled rest closes
  have text : x.jsonText = (Json.number (.real x)).print := by
    rw [Binary64.jsonText, Binary64.render, Binary64.isNaN_of_isFinite finite,
      Binary64.isInfinite_of_isFinite finite, print, chars, shown]
    rfl
  have same : reread x = y := by
    unfold reread
    rw [text, whole]
  rw [same]
  exact spelled rest closes

theorem rereads_printable {depth : Nat} (printable : Printable depth j) :
    Scan.Rereads (value depth) j (mapReal reread j) := by
  induction printable with
  | null =>
    refine rereads_start rfl (by decide) (by decide) (by decide) fun rest => ?_
    exact value_scalar (by decide) (by decide) (scalar_word (fun _ => rfl) (by decide))
  | flag b =>
    cases b with
    | true =>
      refine rereads_start rfl (by decide) (by decide) (by decide) fun rest => ?_
      exact value_scalar (by decide) (by decide) (scalar_word (fun _ => rfl) (by decide))
    | false =>
      refine rereads_start rfl (by decide) (by decide) (by decide) fun rest => ?_
      exact value_scalar (by decide) (by decide) (scalar_word (fun _ => rfl) (by decide))
  | natural fits => exact rereads_number fun rest closes => number_natural fits closes
  | negative some fits => exact rereads_number fun rest closes => number_negative some fits closes
  | @real depth x finite =>
    refine rereads_number fun rest closes => ?_
    rw [Number.chars, if_pos finite]
    exact reread_spec finite rest closes
  | text s =>
    have printed : chars (.text s) = '"' :: (s.toList.flatMap escaped ++ ['"']) := rfl
    have quote : bytes ['"'] = [byte '"'] := rfl
    refine rereads_start printed (by decide) (by decide) (by decide) fun rest => ?_
    refine value_scalar (by decide) (by decide) ?_
    rw [bytes_append, quote, List.append_assoc, List.singleton_append]
    exact (text_escaped s).map _ Json.text fun _ => ⟨rfl, rfl⟩
  | @list depth items inside ih =>
    have printed : chars (.list items) = '[' :: (joined (items.map chars) ++ [']']) := by
      rw [chars, listChars_eq, List.cons_append]
    have bracket : bytes [']'] = [byte ']'] := rfl
    rw [mapReal_list]
    refine rereads_start printed (by decide) (by decide) (by decide) fun rest => ?_
    rw [bytes_append, bracket, List.append_assoc, List.singleton_append]
    exact value_list (elements_printed ih)
  | @object depth members inside ih =>
    have printed : chars (.object members) = '\x7b' ::
        (joined (members.map fun m => textChars m.1 ++ ':' :: m.2.chars) ++ ['\x7d']) := by
      rw [chars, memberChars_eq, List.cons_append]
    have brace : bytes ['\x7d'] = [byte '\x7d'] := rfl
    rw [mapReal_object]
    refine rereads_start printed (by decide) (by decide) (by decide) fun rest => ?_
    rw [bytes_append, brace, List.append_assoc, List.singleton_append]
    exact value_object (entries_printed ih)

/-- A printed tree is read as the same tree, with its reals reread. -/
theorem read_print (printable : Printable depthLimit j) :
    read (encode j.print) = .ok (mapReal reread j) :=
  read_of_rereads (rereads_printable printable)

end NotificationRelay.Json
