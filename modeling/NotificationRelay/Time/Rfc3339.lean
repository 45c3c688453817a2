import NotificationRelay.Arithmetic
import NotificationRelay.Text.Blank
import NotificationRelay.Time.Instant

/-! Timestamps as text, in two grammars: the strict one of RFC 3339, and a lenient one
that allows blanks between the parts, short fields, signed years and other offsets. -/
namespace NotificationRelay.Time

inductive Fault where
  | tooShort
  | invalid
  | outOfRange
  | trailing
  | impossible
deriving DecidableEq, Repr

def Fault.text : Fault → String
  | .tooShort => "premature end of input"
  | .invalid => "input contains invalid characters"
  | .outOfRange => "input is out of range"
  | .trailing => "trailing input"
  | .impossible => "no possible date and time matching input"

def digit (c : Char) : Except Fault Nat :=
  if c.isDigit then .ok (c.toNat - 48) else .error .invalid

def number (most : Nat) (text : List Char) : Except Fault (Nat × List Char) :=
  match text with
  | [] => .error .tooShort
  | c :: _ =>
    if c.isDigit then
      let digits := (text.take most).takeWhile Char.isDigit
      .ok (digits.foldl (fun n d => n * 10 + (d.toNat - 48)) 0, text.drop digits.length)
    else .error .invalid

def literal (expected : Char) : List Char → Except Fault (List Char)
  | [] => .error .tooShort
  | c :: rest => if c = expected then .ok rest else .error .invalid

/-- Fractional digits as nanoseconds. Digits behind the ninth are dropped. -/
def nanoseconds (text : List Char) : Except Fault (Nat × List Char) := do
  let (value, rest) ← number 9 text
  let used := text.length - rest.length
  return (value * tenTo (9 - used), rest.dropWhile Char.isDigit)

/-- Two digits, where what is missing tells a short text from a wrong one. -/
def twoDigits : List Char → Except Fault (Nat × Nat × List Char)
  | a :: b :: rest => do return (← digit a, ← digit b, rest)
  | [c] => .error (if c.utf8Size = 1 then .tooShort else .invalid)
  | [] => .error .tooShort

def pair (text : List Char) : Except Fault (Nat × List Char) := do
  let (a, b, rest) ← twoDigits text
  return (a * 10 + b, rest)

def separator : List Char → Except Fault (List Char)
  | 'T' :: rest | 't' :: rest | ' ' :: rest => .ok rest
  | _ => .error .invalid

def fraction : List Char → Except Fault (Nat × List Char)
  | '.' :: rest => nanoseconds rest
  | text => .ok (0, text)

def offsetSign : List Char → Except Fault (Bool × List Char)
  | [] => .error .tooShort
  | c :: rest =>
    if c = '+' then .ok (false, rest)
    else if c = '-' ∨ c.toNat = 0x2212 then .ok (true, rest)
    else .error .invalid

def offsetMinutes (text : List Char) : Except Fault (Nat × List Char) := do
  let (tens, ones, rest) ← twoDigits text
  if 5 < tens then throw .outOfRange
  return (tens * 10 + ones, rest)

def offset (lenient : Bool) (text : List Char) : Except Fault (Int × List Char) :=
  match text with
  | 'Z' :: rest | 'z' :: rest => .ok (0, rest)
  | _ => do
    let (negative, text) ← offsetSign text
    let (tens, ones, text) ← twoDigits text
    let text ← if lenient then .ok (text.dropWhile fun c => c = ':' || Text.isBlank c)
      else literal ':' text
    let (minutes, text) ← offsetMinutes text
    let seconds : Int := (tens * 10 + ones) * 3600 + minutes * 60
    return (if negative then -seconds else seconds, text)

/-- Offsets stay below a day, and the shifted date among the dates there are. -/
def instant (date : Date) (second nano : Nat) (offset : Int) : Except Fault Instant :=
  if 86400 ≤ offset.natAbs then .error .outOfRange
  else
    let result := Instant.ofLocal date.toDayNumber second nano offset
    if (Date.ofDayNumber result.day).isValid then .ok result else .error .impossible

/-- Second 60 stands for the leap second after second 59. -/
def clock (hour minute second fraction : Nat) : Nat × Nat :=
  let leap := if second = 60 then 1 else 0
  (hour * 3600 + minute * 60 + second - leap, fraction + leap * 1000000000)

def parse (s : String) : Except Fault Instant := do
  if s.utf8ByteSize < 19 then throw .tooShort
  let (century, text) ← pair s.toList
  let (year, text) ← pair text
  let (month, text) ← pair (← literal '-' text)
  let (day, text) ← pair (← literal '-' text)
  let date : Date := ⟨century * 100 + year, month, day⟩
  unless date.isValid do throw .outOfRange
  let (hour, text) ← pair (← separator text)
  let (minute, text) ← pair (← literal ':' text)
  let (second, text) ← pair (← literal ':' text)
  let (fraction, text) ← fraction text
  unless hour < 24 ∧ minute < 60 ∧ second ≤ 60 do throw .outOfRange
  let (shift, text) ← offset false text
  unless text.isEmpty do throw .trailing
  let (seconds, nano) := clock hour minute second fraction
  instant date seconds nano shift

def field (low high : Nat) (text : List Char) : Except Fault (Nat × List Char) := do
  let (value, rest) ← number 2 (Text.trimStart text)
  if low ≤ value ∧ value ≤ high then return (value, rest) else throw .outOfRange

def lenientYear (text : List Char) : Except Fault (Int × List Char) := do
  let (year, rest) ← match Text.trimStart text with
    | '-' :: rest => (fun (n, rest) => (-(n : Int), rest)) <$> number rest.length rest
    | '+' :: rest => (fun (n, rest) => ((n : Int), rest)) <$> number rest.length rest
    | text => (fun (n, rest) => ((n : Int), rest)) <$> number 4 text
  if -(twoTo 31 : Int) ≤ year ∧ year < twoTo 31 then return (year, rest) else throw .outOfRange

def parseLenient (s : String) : Except Fault Instant := do
  let blank := Text.trimStart
  let (year, text) ← lenientYear s.toList
  let (month, text) ← field 1 12 (← literal '-' (blank text))
  let (day, text) ← field 1 31 (← literal '-' (blank text))
  if text.isEmpty then throw .tooShort
  let (hour, text) ← field 0 23 (← separator text)
  let (minute, text) ← field 0 59 (← literal ':' (blank text))
  let (second, text) ← field 0 60 (← literal ':' (blank text))
  let (fraction, text) ← fraction text
  let text := blank text
  let (shift, text) ← if (text.take 3).map Char.toLower = ['u', 't', 'c'] then .ok (0, text.drop 3)
    else offset true text
  unless (blank text).isEmpty do throw .trailing
  let date : Date := ⟨year, month, day⟩
  unless date.isValid do throw .outOfRange
  let (seconds, nano) := clock hour minute second fraction
  instant date seconds nano shift

end NotificationRelay.Time
