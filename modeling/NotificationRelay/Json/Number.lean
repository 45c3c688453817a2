import NotificationRelay.Json.Scan

/-! Numbers in JSON text. Digits gather in a 64-bit significand; what does not fit only moves
the exponent. A number with a point, an exponent or too many digits is the significand times or
over a power of ten, both rounded to binary64 first. -/
namespace NotificationRelay.Json.Scan

def greatestWord : Nat := greatest 64

/-- Reads digits into the significand for as long as it fits 64 bits, and returns the digits
from the first one on that does not. -/
def gather : Nat → List UInt8 → Nat × List UInt8
  | significand, [] => (significand, [])
  | significand, b :: rest =>
    let next := significand * 10 + (b.toNat - 48)
    if next ≤ greatestWord then gather next rest else (significand, b :: rest)

def scale (x : Binary64) (exponent : Int) : Option Binary64 :=
  if exponent.natAbs ≤ 308 then
    if 0 ≤ exponent then
      let product := x.mul (Binary64.pow10 exponent.natAbs)
      if product.isInfinite then none else some product
    else some (x.div (Binary64.pow10 exponent.natAbs))
  else if x.magnitude = 0 then some x
  else if 0 ≤ exponent then none
  else scale (x.div (Binary64.pow10 308)) (exponent + 308)
termination_by exponent.natAbs
decreasing_by omega

def signed (negative : Bool) (x : Binary64) : Binary64 := if negative then x.negate else x

def realOf (negative : Bool) (significand : Nat) (exponent : Int) (rest : Bytes) :
    Except Fault Number :=
  match scale (Binary64.ofNat significand) exponent with
  | some x => .ok (.real (signed negative x))
  | none => fault .numberOutOfRange rest

/-- An exponent stays below 2^31; from there on the number is zero or too great. -/
def exponentDigits : Nat → (bytes : Bytes) → Option Nat × Bytes
  | value, [] => (some value, [])
  | value, b :: rest =>
    if isDigitByte b then
      let next := value * 10 + (b.toNat - 48)
      if next < twoTo 31 then exponentDigits next rest else (none, rest)
    else (some value, b :: rest)

theorem exponentDigits_length_le (value : Nat) (bytes : Bytes) :
    (exponentDigits value bytes).2.length ≤ bytes.length := by
  induction bytes generalizing value with
  | nil => simp [exponentDigits]
  | cons b rest ih =>
    simp only [exponentDigits]
    split
    · split
      · exact Nat.le_trans (ih _) (by simp)
      · simp
    · simp

def digitsEnd (bytes : Bytes) : Bytes := bytes.dropWhile isDigitByte

theorem digitsEnd_length_le (bytes : Bytes) : (digitsEnd bytes).length ≤ bytes.length :=
  (List.dropWhile_suffix isDigitByte).length_le

theorem digitsEnd_length_lt_succ (bytes : Bytes) : (digitsEnd bytes).length < bytes.length + 1 :=
  Nat.lt_succ_of_le (digitsEnd_length_le bytes)

def exponentSign : Bytes → Bool × Bytes
  | [] => (false, [])
  | b :: rest =>
    if letter b = '+' then (false, rest)
    else if letter b = '-' then (true, rest)
    else (false, b :: rest)

theorem exponentSign_length_le (bytes : Bytes) : (exponentSign bytes).2.length ≤ bytes.length := by
  unfold exponentSign
  split
  · simp
  · split
    · simp
    · split <;> simp

def exponentPart (negative : Bool) (significand : Nat) (start : Int) (bytes : Bytes) :
    Except Fault (Step Number (bytes.length + 1)) :=
  match (exponentSign bytes).2, exponentSign_length_le bytes with
  | [], _ => fault .unfinishedValue []
  | b :: rest, within =>
    if isDigitByte b then
      let below := (exponentSign bytes).1
      match exponentDigits (b.toNat - 48) rest, exponentDigits_length_le (b.toNat - 48) rest with
      | (some value, after), short =>
        let exponent := if below then start - value else start + value
        match realOf negative significand exponent after with
        | .ok x => .ok ⟨x, after, by simp at within short; omega⟩
        | .error f => .error f
      | (none, after), short =>
        if significand ≠ 0 ∧ !below then fault .numberOutOfRange after
        else .ok ⟨.real (signed negative Binary64.zero), digitsEnd after, by
          have := digitsEnd_length_le after; simp at within short; omega⟩
    else fault .invalidNumber rest

def exponentOrEnd (negative : Bool) (significand : Nat) (exponent : Int) :
    (bytes : Bytes) → Except Fault (Step Number (bytes.length + 1))
  | [] =>
    match realOf negative significand exponent [] with
    | .ok x => .ok (.stay x [])
    | .error f => .error f
  | b :: rest =>
    if letter b = 'e' ∨ letter b = 'E' then
      match exponentPart negative significand exponent rest with
      | .ok step => .ok step.wider
      | .error f => .error f
    else
      match realOf negative significand exponent (b :: rest) with
      | .ok x => .ok (.stay x (b :: rest))
      | .error f => .error f

def fractionPart (negative : Bool) (significand : Nat) (exponent : Int) (bytes : Bytes) :
    Except Fault (Step Number (bytes.length + 1)) :=
  let digits := bytes.takeWhile isDigitByte
  let (significand, unused) := gather significand digits
  if digits.isEmpty then
    match bytes with
    | [] => fault .unfinishedValue []
    | _ :: rest => fault .invalidNumber rest
  else
    let exponent := exponent - (digits.length - unused.length)
    match exponentOrEnd negative significand exponent (digitsEnd bytes) with
    | .ok step => .ok (step.within (by have := digitsEnd_length_le bytes; omega))
    | .error f => .error f

/-- An integer without point or exponent. Minus zero and what exceeds 64 bits are reals. -/
def integer (negative : Bool) (significand : Nat) : Number :=
  if !negative then .natural significand
  else if 0 < significand ∧ significand ≤ twoTo 63 then .negative significand
  else .real (Binary64.ofNat significand).negate

def afterDigits (negative : Bool) (significand exceeding : Nat) :
    (bytes : Bytes) → Except Fault (Step Number (bytes.length + 1))
  | [] =>
    if exceeding = 0 then .ok (.stay (integer negative significand) [])
    else exponentOrEnd negative significand exceeding []
  | b :: rest =>
    if letter b = '.' then
      match fractionPart negative significand exceeding rest with
      | .ok step => .ok step.wider
      | .error f => .error f
    else if exceeding = 0 ∧ letter b ≠ 'e' ∧ letter b ≠ 'E' then
      .ok (.stay (integer negative significand) (b :: rest))
    else exponentOrEnd negative significand exceeding (b :: rest)

def unsigned (negative : Bool) : (bytes : Bytes) → Except Fault (Step Number bytes.length)
  | [] => fault .unfinishedValue []
  | b :: rest =>
    if letter b = '0' then
      match rest with
      | [] => afterDigits negative 0 0 []
      | c :: more =>
        if isDigitByte c then fault .invalidNumber more
        else afterDigits negative 0 0 (c :: more)
    else if isDigitByte b then
      let (significand, exceeding) := gather (b.toNat - 48) (rest.takeWhile isDigitByte)
      (afterDigits negative significand exceeding.length (digitsEnd rest)).map
        (·.within (digitsEnd_length_lt_succ rest))
    else fault .invalidNumber rest

def number : (bytes : Bytes) → Except Fault (Step Number bytes.length)
  | [] => fault .unfinishedValue []
  | b :: rest =>
    if letter b = '-' then (unsigned true rest).map Step.wider
    else unsigned false (b :: rest)

end NotificationRelay.Json.Scan
