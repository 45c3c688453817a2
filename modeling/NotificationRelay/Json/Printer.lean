import NotificationRelay.Json.Value

/-! JSON text without blanks. -/
namespace NotificationRelay.Json

def hexDigits (n : Nat) : List Char :=
  let digits := Nat.toDigits 16 n
  List.replicate (4 - digits.length) '0' ++ digits

/-- Only the quote, the backslash and the controls are escaped. -/
def escaped (c : Char) : List Char :=
  if c = '"' ∨ c = '\\' then ['\\', c]
  else if c.toNat = 8 then ['\\', 'b']
  else if c.toNat = 12 then ['\\', 'f']
  else if c = '\n' then ['\\', 'n']
  else if c = '\r' then ['\\', 'r']
  else if c = '\t' then ['\\', 't']
  else if c.toNat < 0x20 then '\\' :: 'u' :: hexDigits c.toNat
  else [c]

def textChars (s : String) : List Char := '"' :: s.toList.flatMap escaped ++ ['"']

/-- What is no finite number has no JSON form and is written as null. -/
def Number.chars : Number → List Char
  | .natural n => Nat.toDigits 10 n
  | .negative n => '-' :: Nat.toDigits 10 n
  | .real x => if x.isFinite then x.jsonDigits else ['n', 'u', 'l', 'l']

def joined (parts : List (List Char)) : List Char := [','].intercalate parts

mutual

def chars : Json → List Char
  | .null => ['n', 'u', 'l', 'l']
  | .flag true => ['t', 'r', 'u', 'e']
  | .flag false => ['f', 'a', 'l', 's', 'e']
  | .number n => n.chars
  | .text s => textChars s
  | .list items => '[' :: joined (listChars items) ++ [']']
  | .object members => '\x7b' :: joined (memberChars members) ++ ['\x7d']

def listChars : List Json → List (List Char)
  | [] => []
  | item :: rest => chars item :: listChars rest

def memberChars : List (String × Json) → List (List Char)
  | [] => []
  | (key, value) :: rest => (textChars key ++ ':' :: chars value) :: memberChars rest

end

def print (value : Json) : String := String.ofList (chars value)

/-- Puts a member in its place by key; a member with the same key is replaced. -/
def insertSorted (key : String) (value : Json) : List (String × Json) → List (String × Json)
  | [] => [(key, value)]
  | (other, old) :: rest =>
    if key = other then (key, value) :: rest
    else if key < other then (key, value) :: (other, old) :: rest
    else (other, old) :: insertSorted key value rest

def sortedObject (members : List (String × Json)) : Json :=
  .object (members.foldl (fun sorted (key, value) => insertSorted key value sorted) [])

mutual

/-- The value with the members of every object sorted by key, the last of equal keys kept. -/
def canonical : Json → Json
  | .list items => .list (canonicalItems items)
  | .object members => .object (canonicalMembers [] members)
  | value => value

def canonicalItems : List Json → List Json
  | [] => []
  | item :: rest => canonical item :: canonicalItems rest

def canonicalMembers (sorted : List (String × Json)) : List (String × Json) → List (String × Json)
  | [] => sorted
  | (key, value) :: rest => canonicalMembers (insertSorted key (canonical value) sorted) rest

end

def printCanonical (value : Json) : String := value.canonical.print

end NotificationRelay.Json
