import NotificationRelay.Json.Reader
import NotificationRelay.Json.Skip
import NotificationRelay.Shape.Basic

/-! Reading of JSON text in a shape. The text is walked once, in order, and the first thing that
does not fit is the fault. A record may also be written as an array of its fields. -/
namespace NotificationRelay

open Json Json.Scan

namespace Shape

def mismatch (want : String) (b : UInt8) (rest : Bytes) : Fault :=
  if letter b = '[' then ⟨.wrongType .sequence want, rest.length + 1, []⟩
  else if letter b = '\x7b' then ⟨.wrongType .map want, rest.length + 1, []⟩
  else
    match scalar b rest with
    | .error f => f
    | .ok step =>
      let got : Got :=
        match step.value with
        | .flag b => .flag b
        | .number n => n.got
        | .text s => .text s
        | _ => .null
      ⟨.wrongType got want, step.rest.length, []⟩

def expecting {α : Type} (want : String) (starts : UInt8 → Bool)
    (item : (b : UInt8) → (rest : Bytes) → Except Fault (Step α (rest.length + 1)))
    (bytes : Bytes) : Except Fault (Step α bytes.length) :=
  match found : skipBlank bytes with
  | [] => fault .unfinishedValue []
  | b :: rest =>
    if starts b then
      (item b rest).map (·.within (length_lt_of_skipBlank found))
    else .error (mismatch want b rest)

def startsNumber (b : UInt8) : Bool := letter b = '-' || isDigitByte b

def accepting {α : Type} (want : String) (accept : Number → Except Cause α) (bytes : Bytes) :
    Except Fault (Step α bytes.length) :=
  expecting want startsNumber (fun b rest => do
    let step ← number (b :: rest)
    match accept step.value with
    | .ok value => return step.map fun _ => value
    | .error cause => fault cause step.rest) bytes

def acceptNatural (name : String) (greatest : Nat) : Number → Except Cause Nat
  | .natural n => if n ≤ greatest then .ok n else .error (.wrongValue (.natural n) name)
  | .negative n => .error (.wrongValue (.negative n) name)
  | .real x => .error (.wrongType (.real x) name)

def toReal : Number → Binary64
  | .natural n => Binary64.ofNat n
  | .negative n => Binary64.ofInt (-n)
  | .real x => x

def readText (want : String) (bytes : Bytes) : Except Fault (Step String bytes.length) :=
  expecting want (fun b => letter b = '"')
    (fun _ rest => (Scan.text rest).map Step.wider) bytes

def readFlag (bytes : Bytes) : Except Fault (Step Bool bytes.length) :=
  expecting "a boolean" (fun b => letter b = 't' || letter b = 'f') (fun b rest =>
    if letter b = 't' then (literal ['r', 'u', 'e'] rest).map (·.map fun _ => true)
    else (literal ['a', 'l', 's', 'e'] rest).map (·.map fun _ => false)) bytes

def readNull (want : String) (bytes : Bytes) : Except Fault (Step Unit bytes.length) :=
  expecting want (fun b => letter b = 'n') (fun _ rest => literal ['u', 'l', 'l'] rest) bytes

def readInstant (bytes : Bytes) : Except Fault (Step Time.Instant bytes.length) := do
  let step ← readText "an RFC 3339 formatted date and time string" bytes
  match Time.parseLenient step.value with
  | .ok t => return step.map fun _ => t
  | .error e => fault (.timestamp e) step.rest

def readWord {α : Type} (vocabulary : Vocabulary α) (bytes : Bytes) :
    Except Fault (Step α bytes.length) := do
  let step ← readText "variant identifier" bytes
  match Vocabulary.find? step.value with
  | some value => return step.map fun _ => value
  | none => fault (.unknownVariant step.value (Vocabulary.words α)) step.rest

def closeBrace (bytes : Bytes) : Except Fault (Step Unit bytes.length) :=
  match found : skipBlank bytes with
  | [] => fault .unfinishedObject []
  | b :: rest =>
    if letter b = '\x7d' then .ok ⟨(), rest, length_lt_of_skipBlank found⟩
    else fault .expectedValue (b :: rest)

/-- A word, or an object whose only key is the word and whose only value is null. -/
def readChoice {α : Type} (vocabulary : Vocabulary α) (depth : Nat) (bytes : Bytes) :
    Except Fault (Step α bytes.length) :=
  match found : skipBlank bytes with
  | [] => fault .unfinishedValue []
  | b :: rest =>
    if letter b = '\x7b' then
      if depth = 0 then fault .tooDeep rest
      else do
        let word ← readWord vocabulary rest
        let colon ← colon word.rest
        let unit ← readNull "unit" colon.rest
        let close ← closeBrace unit.rest
        let last := word.behind (colon.behind (unit.behind close))
        return (last.map fun _ => word.value).within (length_le_of_skipBlank found)
    else if letter b = '"' then
      (readWord vocabulary (b :: rest)).map (·.within (length_lt_of_skipBlank found))
    else fault .expectedValue rest

def readOptional {α : Type}
    (item : (bytes : Bytes) → Except Fault (Step α bytes.length)) (bytes : Bytes) :
    Except Fault (Step (Option α) bytes.length) :=
  match found : skipBlank bytes with
  | [] => (item bytes).map (·.map some)
  | b :: rest =>
    if letter b = 'n' then
      (literal ['u', 'l', 'l'] rest).map fun step =>
        (step.map fun _ => none).within (length_lt_of_skipBlank found)
    else (item bytes).map (·.map some)

/-- Behind a record given up at `bytes`, blanks and its closing bracket are passed over before the
place is taken. -/
def afterClosing (closing : Char) (bytes : Bytes) : Bytes :=
  match skipBlank bytes with
  | [] => []
  | b :: rest => if letter b = closing then rest else b :: rest

def closeBracket (bytes : Bytes) : Except Fault (Step Unit bytes.length) :=
  match found : skipBlank bytes with
  | [] => fault .unfinishedList []
  | b :: rest =>
    if letter b = ']' then .ok ⟨(), rest, length_lt_of_skipBlank found⟩
    else if letter b = ',' then
      match skipBlank rest with
      | [] => fault .trailingCharacters []
      | c :: more => fault (if letter c = ']' then .trailingComma else .trailingCharacters) more
    else fault .trailingCharacters rest

mutual

/-- Reads a value of the shape; `depth` more arrays and objects may be opened. -/
def read {α : Type} (depth : Nat) : Shape α → (bytes : Bytes) → Except Fault (Step α bytes.length)
  | .word, bytes =>
    (accepting "u64" (acceptNatural "u64" greatestWord) bytes).map (·.map UInt64.ofNat)
  | .halfWord, bytes =>
    (accepting "u32" (acceptNatural "u32" (greatest 32)) bytes).map (·.map UInt32.ofNat)
  | .natural name greatest, bytes => accepting name (acceptNatural name greatest) bytes
  | .real, bytes => accepting "f64" (fun n => .ok (toReal n)) bytes
  | .text, bytes => readText "a string" bytes
  | .flag, bytes => readFlag bytes
  | .instant, bytes => readInstant bytes
  | .choice vocabulary, bytes => readChoice vocabulary depth bytes
  | .tree, bytes => value depth bytes
  | .optional shape, bytes => readOptional (shape.read depth) bytes
  | .nullable shape, bytes => readOptional (shape.read depth) bytes
  | .nullAs given shape, bytes =>
    (readOptional (shape.read depth) bytes).map (·.map (·.getD given))
  | .sequence shape, bytes =>
    expecting "a sequence" (fun b => letter b = '[') (fun _ rest =>
      match depth with
      | 0 => fault .tooDeep rest
      | depth + 1 => (items (shape.read depth) 0 rest).map Step.wider) bytes
  | .record name fields build _, bytes =>
    let want := "struct " ++ name
    (expecting want (fun b => letter b = '[' || letter b = '\x7b') (fun b rest =>
      match depth with
      | 0 => fault .tooDeep rest
      | depth + 1 =>
        if letter b = '[' then
          (readItems depth
            (want ++ " with " ++ toString fields.length ++
              (if fields.length = 1 then " element" else " elements")) fields 0 rest).map
            Step.wider
        else
          match members (readMember depth fields) true fields.unread rest with
          | .error f => .error f
          | .ok step =>
            match fields.finish step.value with
            | .ok values => .ok (step.map fun _ => values).wider
            | .error key => fault (.missingField key) step.rest) bytes).map (·.map build)

/-- Reads the value of a key into its slot. A key may come once; one that no field has is passed
over with its value. -/
def readMember {σ τ : Type} (depth : Nat) :
    Fields σ τ → τ → String → (bytes : Bytes) → Except Fault (Step τ bytes.length)
  | .none, (), key, bytes => memberValue skip key bytes
  | .cons name _ shape more, (slot, slots), key, bytes =>
    if key = name then
      if slot.isSome then fault (.duplicateField key) (afterClosing '\x7d' bytes)
      else (memberValue (shape.read depth) key bytes).map (·.map fun value => (some value, slots))
    else (readMember depth more slots key bytes).map (·.map fun slots => (slot, slots))

def readItems {σ τ : Type} (depth : Nat) (want : String) :
    Fields σ τ → (index : Nat) → (bytes : Bytes) → Except Fault (Step σ bytes.length)
  | .none, _, bytes => closeBracket bytes
  | .cons name fallback shape more, index, bytes =>
    match nextItem (index = 0) bytes with
    | .error f => .error f
    | .ok (.done rest shorter) =>
      match (Fields.cons name fallback shape more).fillFrom index with
      | .ok values => .ok ⟨values, rest, shorter⟩
      | .error length => fault (.wrongLength length want) rest
    | .ok (.item start within) =>
      match shape.read depth start with
      | .error f => .error (f.inside (.index index))
      | .ok value =>
        (readItems depth want more (index + 1) value.rest).map fun tail =>
          (tail.map fun values => (value.value, values)).within (by have := value.shorter; omega)

end

def decode {α : Type} (shape : Shape α) (source : Bytes) : Except Fault α :=
  match shape.read depthLimit source with
  | .error f => .error f
  | .ok step =>
    match finished step.rest with
    | .error f => .error f
    | .ok () => .ok step.value

end Shape

end NotificationRelay
