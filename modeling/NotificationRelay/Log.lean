import NotificationRelay.Binary64.Basic

/-! Lines of the log. -/
namespace NotificationRelay.Log

inductive Level where
  | error
  | warn
  | info
  | debug
deriving DecidableEq, Repr

inductive Value where
  | text (s : String)
  | natural (n : Nat)
  | flag (b : Bool)
  | real (x : Binary64)
deriving DecidableEq, Repr

structure Line where
  level : Level
  event : String
  fields : List (String × Value)
deriving DecidableEq, Repr

def optionalText (name : String) : Option String → List (String × Value)
  | some s => [(name, .text s)]
  | none => []

end NotificationRelay.Log
