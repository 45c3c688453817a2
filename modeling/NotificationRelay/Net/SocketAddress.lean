import NotificationRelay.Arithmetic
import NotificationRelay.Text.Digits

/-! Socket addresses as text: an address of four bytes, or one of eight groups in brackets, and a
port. -/
namespace NotificationRelay.Net

def digitIn? (radix : Nat) (c : Char) : Option Nat :=
  (Text.digitValue c).filter fun d => d < radix

/-- A number up to `greatest` of at most `most` digits. Only a `padded` one may start with a zero
that is not its only digit. -/
def number (radix most greatest : Nat) (padded : Bool) (text : List Char) :
    Option (Nat × List Char) :=
  let digits := text.takeWhile fun c => (digitIn? radix c).isSome
  let value := digits.foldl (fun n c => n * radix + (digitIn? radix c).getD 0) 0
  if digits.isEmpty || decide (most < digits.length) || decide (greatest < value) then none
  else if !padded && digits.head? = some '0' && decide (1 < digits.length) then none
  else some (value, text.drop digits.length)

def char (expected : Char) : List Char → Option (List Char)
  | c :: rest => if c = expected then some rest else none
  | [] => none

def separator (c : Char) (index : Nat) (text : List Char) : Option (List Char) :=
  if index = 0 then some text else char c text

def fourBytes (text : List Char) : Option ((Nat × Nat × Nat × Nat) × List Char) := do
  let byte (text : List Char) := number 10 3 255 false text
  let (a, text) ← byte text
  let (b, text) ← byte (← char '.' text)
  let (c, text) ← byte (← char '.' text)
  let (d, text) ← byte (← char '.' text)
  return ((a, b, c, d), text)

/-- At most `room` groups of 16 bits between colons. The last two may be written as four bytes,
which is told. -/
def groups : (room index : Nat) → List Char → List Nat × Bool × List Char
  | 0, _, text => ([], false, text)
  | room + 1, index, text =>
    let bytes :=
      if 0 < room then (separator ':' index text).bind fourBytes else none
    match bytes with
    | some ((a, b, c, d), rest) => ([a * 256 + b, c * 256 + d], true, rest)
    | none =>
      match (separator ':' index text).bind (number 16 4 65535 true) with
      | some (group, rest) =>
        let (more, ended, rest) := groups room (index + 1) rest
        (group :: more, ended, rest)
      | none => ([], false, text)

def eightGroups (text : List Char) : Option (List Nat × List Char) :=
  let (front, ended, rest) := groups 8 0 text
  if front.length = 8 then some (front, rest)
  else if ended then none
  else do
    let rest ← char ':' (← char ':' rest)
    let (back, _, rest) := groups (8 - (front.length + 1)) 0 rest
    return (front ++ List.replicate (8 - front.length - back.length) 0 ++ back, rest)

inductive SocketAddress where
  | short (a b c d : Nat) (port : Nat)
  | long (groups : List Nat) (scope port : Nat)
deriving DecidableEq, Repr

namespace SocketAddress

def parsePort (text : List Char) : Option Nat := do
  let (port, rest) ← number 10 (text.length + 1) 65535 true (← char ':' text)
  if rest.isEmpty then some port else none

def scope (text : List Char) : Nat × List Char :=
  ((char '%' text).bind fun rest => number 10 (rest.length + 1) (greatest 32) true rest).getD
    (0, text)

def parse (s : String) : Option SocketAddress :=
  match s.toList with
  | '[' :: rest => do
    let (found, rest) ← eightGroups rest
    let (scope, rest) := scope rest
    return .long found scope (← parsePort (← char ']' rest))
  | text => do
    let ((a, b, c, d), rest) ← fourBytes text
    return .short a b c d (← parsePort rest)

def dotted (a b c d : Nat) : String :=
  ".".intercalate ([a, b, c, d].map fun n => toString n)

def hex (n : Nat) : String := String.ofList (Nat.toDigits 16 n)

def colons (groups : List Nat) : String := ":".intercalate (groups.map hex)

def longestRun (groups : List Nat) : Nat × Nat :=
  (List.range groups.length).foldl (fun best start =>
    let length := ((groups.drop start).takeWhile (· = 0)).length
    if best.2 < length then (start, length) else best) (0, 0)

/-- Two or more zeros are left out, where most of them stand together. -/
def groupsText (groups : List Nat) : String :=
  match groups with
  | [0, 0, 0, 0, 0, 0xFFFF, high, low] =>
    "::ffff:" ++ dotted (high / 256) (high % 256) (low / 256) (low % 256)
  | _ =>
    let (start, length) := longestRun groups
    if 1 < length then
      colons (groups.take start) ++ "::" ++ colons (groups.drop (start + length))
    else colons groups

def toText : SocketAddress → String
  | .short a b c d port => dotted a b c d ++ ":" ++ toString port
  | .long groups scope port =>
    "[" ++ groupsText groups ++ (if scope = 0 then "" else "%" ++ toString scope) ++ "]:" ++
      toString port

end SocketAddress

end NotificationRelay.Net
