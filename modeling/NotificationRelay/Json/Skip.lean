import NotificationRelay.Json.Number

/-! Passing over a value that nobody wants. Its form is checked less closely than that of a
value that is read: texts need not be UTF-8, numbers may be of any size, and nesting is free. -/
namespace NotificationRelay.Json.Scan

def skipEscape : (bytes : Bytes) → Except Fault (Step Unit bytes.length)
  | [] => fault .unfinishedText []
  | b :: rest =>
    if (simpleEscape b).isSome then .ok (.stay () rest)
    else if letter b = 'u' then
      (hexCode rest).map fun step => (step.map fun _ => ()).wider
    else fault .invalidEscape rest

def skipText : (bytes : Bytes) → Except Fault (Step Unit bytes.length)
  | [] => fault .unfinishedText []
  | b :: rest =>
    if letter b = '"' then .ok (.stay () rest)
    else if letter b = '\\' then
      match skipEscape rest with
      | .error f => .error f
      | .ok plain =>
        (skipText plain.rest).map fun step => (plain.behind step).wider
    else if b < 32 then fault .controlCharacter (b :: rest)
    else (skipText rest).map Step.wider
termination_by bytes => bytes.length
decreasing_by
  · have := plain.shorter; simp; omega
  · simp

theorem digitsEnd_length_lt_of_within {b : UInt8} {rest bytes : Bytes}
    (within : (b :: rest).length ≤ bytes.length) : (digitsEnd rest).length < bytes.length + 1 := by
  have short := digitsEnd_length_le rest
  rw [List.length_cons] at within
  omega

def skipExponent (bytes : Bytes) : Except Fault (Step Unit (bytes.length + 1)) :=
  match (exponentSign bytes).2, exponentSign_length_le bytes with
  | [], _ => fault .invalidNumber []
  | b :: rest, within =>
    if isDigitByte b then
      .ok ⟨(), digitsEnd rest, digitsEnd_length_lt_of_within within⟩
    else fault .invalidNumber rest

def skipExponentOrEnd : (bytes : Bytes) → Except Fault (Step Unit (bytes.length + 1))
  | [] => .ok (.stay () [])
  | b :: rest =>
    if letter b = 'e' ∨ letter b = 'E' then (skipExponent rest).map Step.wider
    else .ok (.stay () (b :: rest))

def skipFraction : (bytes : Bytes) → Except Fault (Step Unit (bytes.length + 1))
  | [] => fault .invalidNumber []
  | b :: rest =>
    if isDigitByte b then
      (skipExponentOrEnd (digitsEnd rest)).map
        (·.within (Nat.le_succ_of_le (digitsEnd_length_lt_succ rest)))
    else fault .invalidNumber rest

def skipAfterDigits : (bytes : Bytes) → Except Fault (Step Unit (bytes.length + 1))
  | [] => .ok (.stay () [])
  | b :: rest =>
    if letter b = '.' then (skipFraction rest).map Step.wider
    else skipExponentOrEnd (b :: rest)

def skipUnsigned : (bytes : Bytes) → Except Fault (Step Unit bytes.length)
  | [] => fault .invalidNumber []
  | b :: rest =>
    if letter b = '0' then
      match rest with
      | [] => .ok (.stay () [])
      | c :: more =>
        if isDigitByte c then fault .invalidNumber more
        else skipAfterDigits (c :: more)
    else if isDigitByte b then
      (skipAfterDigits (digitsEnd rest)).map (·.within (digitsEnd_length_lt_succ rest))
    else fault .invalidNumber rest

def skipScalar (b : UInt8) (rest : Bytes) : Except Fault (Step Unit (rest.length + 1)) :=
  match letter b with
  | 'n' => literal ['u', 'l', 'l'] rest
  | 't' => literal ['r', 'u', 'e'] rest
  | 'f' => literal ['a', 'l', 's', 'e'] rest
  | '"' => (skipText rest).map Step.wider
  | '-' => (skipUnsigned rest).map Step.wider
  | _ => if isDigitByte b then skipUnsigned (b :: rest) else fault .expectedValue rest

inductive Frame where
  | list
  | object
deriving DecidableEq, Repr

def Frame.closing : Frame → Char
  | .list => ']'
  | .object => '\x7d'

def Frame.unfinished : Frame → Cause
  | .list => .unfinishedList
  | .object => .unfinishedObject

def Frame.expectedComma : Frame → Cause
  | .list => .expectedCommaOrListEnd
  | .object => .expectedCommaOrObjectEnd

def skipKey (bytes : Bytes) : Except Fault (Step Unit bytes.length) :=
  match found : skipBlank bytes with
  | [] => fault .unfinishedObject []
  | b :: rest =>
    if letter b = '"' then
      match skipText rest with
      | .error f => .error f
      | .ok key =>
        (colon key.rest).map fun step =>
          (key.behind step).within (length_le_of_skipBlank found)
    else fault .keyIsNoText rest

def enter (frame : Frame) (bytes : Bytes) : Except Fault (Step Unit (bytes.length + 1)) :=
  match frame with
  | .list => .ok (.stay () bytes)
  | .object => (skipKey bytes).map Step.wider

inductive Settled (bound : Nat) where
  | done (rest : Bytes) (within : rest.length ≤ bound)
  | next (frames : List Frame) (start : Bytes) (within : start.length ≤ bound)

def Settled.within {m n : Nat} (s : Settled m) (h : m ≤ n) : Settled n :=
  match s with
  | .done rest short => .done rest (by omega)
  | .next frames start short => .next frames start (by omega)

theorem Step.rest_length_le {bytes rest : Bytes} {b : UInt8} (found : skipBlank bytes = b :: rest)
    (start : Step Unit (rest.length + 1)) : start.rest.length ≤ bytes.length :=
  Nat.le_trans (Nat.le_of_lt_succ start.shorter) (length_le_of_skipBlank found)

theorem Step.rest_length_le_of_cons {bytes rest : Bytes} {b : UInt8}
    (found : skipBlank bytes = b :: rest) (start : Step Unit ((b :: rest).length + 1)) :
    start.rest.length ≤ bytes.length :=
  Nat.le_trans (Nat.le_of_lt_succ start.shorter) (length_lt_of_skipBlank found)

/-- Closes frames for as long as they end. A comma may stand behind a value only. -/
def settle : List Frame → Bool → (bytes : Bytes) → Except Fault (Settled bytes.length)
  | [], _, bytes => .ok (.done bytes (by omega))
  | frame :: outer, afterValue, bytes =>
    match found : skipBlank bytes with
    | [] => fault frame.unfinished []
    | b :: rest =>
      if afterValue ∧ letter b = ',' then
        (enter frame rest).map fun start =>
          .next (frame :: outer) start.rest (start.rest_length_le found)
      else if letter b = frame.closing then
        (settle outer true rest).map (·.within (length_le_of_skipBlank found))
      else if afterValue then fault frame.expectedComma rest
      else
        (enter frame (b :: rest)).map fun start =>
          .next (frame :: outer) start.rest (start.rest_length_le_of_cons found)

def skipIn (frames : List Frame) (bytes : Bytes) : Except Fault (Step Unit bytes.length) :=
  match found : skipBlank bytes with
  | [] => fault .unfinishedValue []
  | b :: rest =>
    have shorter := length_lt_of_skipBlank found
    let opened : Except Fault (Settled rest.length) :=
      if letter b = '[' then settle (.list :: frames) false rest
      else if letter b = '\x7b' then settle (.object :: frames) false rest
      else
        match skipScalar b rest with
        | .error f => .error f
        | .ok step => (settle frames true step.rest).map (·.within (by have := step.shorter; omega))
    match opened with
    | .error f => .error f
    | .ok (.done rest within) => .ok ⟨(), rest, by omega⟩
    | .ok (.next frames start within) => (skipIn frames start).map (·.within (by omega))
termination_by bytes.length
decreasing_by omega

def skip (bytes : Bytes) : Except Fault (Step Unit bytes.length) := skipIn [] bytes

end NotificationRelay.Json.Scan
