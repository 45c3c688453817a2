import NotificationRelay.Json.Fault

/-! JSON values. -/
namespace NotificationRelay

/-- Integers keep their sign apart, so that each number has one form; all others, and integers
beyond 64 bits, are binary64 numbers. -/
inductive Json.Number where
  | natural (n : Nat)
  | negative (n : Nat)
  | real (x : Binary64)
deriving DecidableEq, Repr

/-- A JSON value as written: members stay in their order, and keys may repeat. -/
inductive Json where
  | null
  | flag (b : Bool)
  | number (n : Json.Number)
  | text (s : String)
  | list (items : List Json)
  | object (members : List (String × Json))
deriving Repr

namespace Json

instance : Inhabited Json := ⟨.null⟩

/-- The value of a key: the last one counts. -/
def lookup (key : String) (members : List (String × Json)) : Option Json :=
  (members.reverse.find? fun member => member.1 = key).map (·.2)

def kind : Json → String
  | .null => "null"
  | .flag _ => "boolean"
  | .number _ => "number"
  | .text _ => "string"
  | .list _ => "array"
  | .object _ => "object"

def isNull : Json → Bool
  | .null => true
  | _ => false

def Number.got : Number → Got
  | .natural n => .natural n
  | .negative n => .negative n
  | .real x => .real x

end Json

end NotificationRelay
