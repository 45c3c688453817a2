import NotificationRelay.Json.Value
import NotificationRelay.Text.Utf8

/-! Scanning of JSON text. Every step returns what it read with a shorter rest, so loops
over steps end. A fault is placed behind the bytes read, or behind the byte looked at. -/
namespace NotificationRelay.Json.Scan

structure Step (α : Type) (bound : Nat) where
  value : α
  rest : Bytes
  shorter : rest.length < bound

def Step.within {α : Type} {m n : Nat} (s : Step α m) (h : m ≤ n) : Step α n :=
  ⟨s.value, s.rest, by have := s.shorter; omega⟩

def Step.wider {α : Type} {n : Nat} (s : Step α n) : Step α (n + 1) := s.within (Nat.le_succ n)

def Step.stay {α : Type} (value : α) (bytes : Bytes) : Step α (bytes.length + 1) :=
  ⟨value, bytes, Nat.lt_succ_self bytes.length⟩

def Step.behind {α β : Type} {n : Nat} (s : Step α n) (t : Step β s.rest.length) : Step β n :=
  t.within (Nat.le_of_lt s.shorter)

def Step.map {α β : Type} {n : Nat} (f : α → β) (s : Step α n) : Step β n :=
  ⟨f s.value, s.rest, s.shorter⟩

def letter (b : UInt8) : Char := Char.ofNat b.toNat

def isBlankByte (b : UInt8) : Bool := b = 32 || b = 9 || b = 10 || b = 13

def skipBlank (bytes : Bytes) : Bytes := bytes.dropWhile isBlankByte

theorem skipBlank_length_le (bytes : Bytes) : (skipBlank bytes).length ≤ bytes.length :=
  (List.dropWhile_suffix isBlankByte).length_le

theorem length_lt_of_skipBlank {bytes rest : Bytes} {b : UInt8}
    (found : skipBlank bytes = b :: rest) : rest.length < bytes.length := by
  have shorter := skipBlank_length_le bytes
  rw [found] at shorter
  simp at shorter
  omega

theorem length_le_of_skipBlank {bytes rest : Bytes} {b : UInt8}
    (found : skipBlank bytes = b :: rest) : rest.length ≤ bytes.length :=
  Nat.le_of_lt (length_lt_of_skipBlank found)

def isDigitByte (b : UInt8) : Bool := (letter b).isDigit

def literal : List Char → (bytes : Bytes) → Except Fault (Step Unit (bytes.length + 1))
  | [], bytes => .ok (.stay () bytes)
  | _ :: _, [] => fault .unfinishedValue []
  | c :: more, b :: rest =>
    if letter b = c then
      match literal more rest with
      | .ok step => .ok step.wider
      | .error f => .error f
    else fault .expectedIdent rest

def hexValue (b : UInt8) : Option Nat :=
  let c := letter b
  if c.isDigit then some (c.toNat - 48)
  else if 'a' ≤ c ∧ c ≤ 'f' then some (c.toNat - 87)
  else if 'A' ≤ c ∧ c ≤ 'F' then some (c.toNat - 55)
  else none

def hexCode : (bytes : Bytes) → Except Fault (Step Nat bytes.length)
  | a :: b :: c :: d :: rest =>
    match hexValue a, hexValue b, hexValue c, hexValue d with
    | some a, some b, some c, some d => .ok ⟨((a * 16 + b) * 16 + c) * 16 + d, rest, by simp; omega⟩
    | _, _, _, _ => fault .invalidEscape rest
  | _ => fault .unfinishedText []

def trailingSurrogate : (bytes : Bytes) → Except Fault (Step Nat bytes.length)
  | [] => fault .unfinishedText []
  | b :: rest =>
    if letter b ≠ '\\' then fault .unfinishedPair rest
    else
      match rest with
      | [] => fault .unfinishedText []
      | c :: rest =>
        if letter c ≠ 'u' then fault .unfinishedPair rest
        else
          match hexCode rest with
          | .error f => .error f
          | .ok step =>
            if 0xDC00 ≤ step.value ∧ step.value ≤ 0xDFFF then .ok (step.within (by simp; omega))
            else fault .loneSurrogate step.rest

def unicodeEscape (bytes : Bytes) : Except Fault (Step Char bytes.length) := do
  let first ← hexCode bytes
  if 0xDC00 ≤ first.value ∧ first.value ≤ 0xDFFF then fault .loneSurrogate first.rest
  else if 0xD800 ≤ first.value ∧ first.value ≤ 0xDBFF then
    let second ← trailingSurrogate first.rest
    let code := (first.value - 0xD800) * 0x400 + (second.value - 0xDC00) + 0x10000
    return ⟨Char.ofNat code, second.rest, by have := first.shorter; have := second.shorter; omega⟩
  else return first.map Char.ofNat

def simpleEscape (b : UInt8) : Option UInt8 :=
  match letter b with
  | '"' => some 34
  | '\\' => some 92
  | '/' => some 47
  | 'b' => some 8
  | 'f' => some 12
  | 'n' => some 10
  | 'r' => some 13
  | 't' => some 9
  | _ => none

def escape : (bytes : Bytes) → Except Fault (Step Bytes bytes.length)
  | [] => fault .unfinishedText []
  | b :: rest =>
    match simpleEscape b with
    | some plain => .ok (.stay [plain] rest)
    | none =>
      if letter b = 'u' then
        match unicodeEscape rest with
        | .ok step => .ok (step.map String.utf8EncodeChar).wider
        | .error f => .error f
      else fault .invalidEscape rest

def textBytes : (bytes : Bytes) → Except Fault (Step Bytes bytes.length)
  | [] => fault .unfinishedText []
  | b :: rest =>
    if letter b = '"' then .ok (.stay [] rest)
    else if letter b = '\\' then
      match escape rest with
      | .error f => .error f
      | .ok plain =>
        match textBytes plain.rest with
        | .error f => .error f
        | .ok more =>
          .ok ⟨plain.value ++ more.value, more.rest, by
            have := plain.shorter; have := more.shorter; simp; omega⟩
    else if b < 32 then fault .controlCharacter rest
    else
      match textBytes rest with
      | .error f => .error f
      | .ok more => .ok ((more.map (b :: ·)).within (by simp))
termination_by bytes => bytes.length
decreasing_by
  · have := plain.shorter; simp; omega
  · simp

def text (bytes : Bytes) : Except Fault (Step String bytes.length) :=
  match textBytes bytes with
  | .error f => .error f
  | .ok step =>
    match Utf8.decode? step.value with
    | some chars => .ok (step.map fun _ => String.ofList chars)
    | none =>
      let invalid := step.value.length - Utf8.validLength step.value
      .error ⟨.invalidCodePoint, step.rest.length + invalid, []⟩

inductive Next (bound : Nat) where
  | item (start : Bytes) (within : start.length ≤ bound)
  | done (rest : Bytes) (shorter : rest.length < bound)

def nextItem (first : Bool) (bytes : Bytes) : Except Fault (Next bytes.length) :=
  match found : skipBlank bytes with
  | [] => fault .unfinishedList []
  | b :: rest =>
    have shorter := length_lt_of_skipBlank found
    if letter b = ']' then .ok (.done rest shorter)
    else if first then .ok (.item (b :: rest) (by simp; omega))
    else if letter b = ',' then
      match ahead : skipBlank rest with
      | [] => fault .unfinishedValue []
      | c :: more =>
        if letter c = ']' then fault .trailingComma more
        else .ok (.item (c :: more) (by have := length_lt_of_skipBlank ahead; simp; omega))
    else fault .expectedCommaOrListEnd rest

/-- Behind the opening brace or a member. The next member starts behind the quote of its key. -/
def nextMember (first : Bool) (bytes : Bytes) : Except Fault (Next bytes.length) :=
  match found : skipBlank bytes with
  | [] => fault .unfinishedObject []
  | b :: rest =>
    have shorter := length_lt_of_skipBlank found
    if letter b = '\x7d' then .ok (.done rest shorter)
    else if first then
      if letter b = '"' then .ok (.item rest (by omega)) else fault .keyIsNoText rest
    else if letter b = ',' then
      match ahead : skipBlank rest with
      | [] => fault .unfinishedValue []
      | c :: more =>
        if letter c = '"' then
          .ok (.item more (by have := length_lt_of_skipBlank ahead; omega))
        else if letter c = '\x7d' then fault .trailingComma more
        else fault .keyIsNoText more
    else fault .expectedCommaOrObjectEnd rest

def colon (bytes : Bytes) : Except Fault (Step Unit bytes.length) :=
  match found : skipBlank bytes with
  | [] => fault .unfinishedObject []
  | b :: rest =>
    if letter b = ':' then .ok ⟨(), rest, length_lt_of_skipBlank found⟩
    else fault .expectedColon rest

def items {α : Type} (item : (bytes : Bytes) → Except Fault (Step α bytes.length))
    (index : Nat) (bytes : Bytes) : Except Fault (Step (List α) bytes.length) :=
  match nextItem (index = 0) bytes with
  | .error f => .error f
  | .ok (.done rest shorter) => .ok ⟨[], rest, shorter⟩
  | .ok (.item start within) =>
    match item start with
    | .error f => .error (f.inside (.index index))
    | .ok head =>
      match items item (index + 1) head.rest with
      | .error f => .error f
      | .ok tail =>
        .ok ⟨head.value :: tail.value, tail.rest, by
          have := head.shorter; have := tail.shorter; omega⟩
termination_by bytes.length
decreasing_by have := head.shorter; omega

/-- The members of an object behind its brace, folded into a state. `visit` reads the colon and the
value of a key. -/
def members {σ : Type}
    (visit : σ → String → (bytes : Bytes) → Except Fault (Step σ bytes.length))
    (first : Bool) (state : σ) (bytes : Bytes) : Except Fault (Step σ bytes.length) :=
  match nextMember first bytes with
  | .error f => .error (f.inside .unnamed)
  | .ok (.done rest shorter) => .ok ⟨state, rest, shorter⟩
  | .ok (.item start within) =>
    match text start with
    | .error f => .error (f.inside .unnamed)
    | .ok key =>
      match visit state key.value key.rest with
      | .error f => .error f
      | .ok value =>
        match members visit false value.value value.rest with
        | .error f => .error f
        | .ok tail =>
          .ok (tail.within (by have := key.shorter; have := value.shorter; omega))
termination_by bytes.length
decreasing_by have := key.shorter; have := value.shorter; omega

def memberValue {α : Type} (item : (bytes : Bytes) → Except Fault (Step α bytes.length))
    (key : String) (bytes : Bytes) : Except Fault (Step α bytes.length) :=
  match colon bytes with
  | .error f => .error f
  | .ok start =>
    match item start.rest with
    | .error f => .error (f.inside (.key key))
    | .ok value => .ok (value.within (by have := start.shorter; omega))

def finished (bytes : Bytes) : Except Fault Unit :=
  match skipBlank bytes with
  | [] => .ok ()
  | _ :: rest => fault .trailingCharacters rest

end NotificationRelay.Json.Scan
