import NotificationRelay.Json.Fault

/-! Why a payload, a topic or a message is refused. -/
namespace NotificationRelay

open Json

abbrev Path := List PathPart

/-- The path as text; the root is a dollar sign. -/
def Path.toText (path : Path) : String := if path.isEmpty then "$" else pathText path

inductive Violation where
  | json (reason : String)
  | missingField (path : Path)
  | status (word : String)
  | platform (word : String)
  | value (path : Path) (reason : String)
  | topicFormat (reason : String)
  | topicKind (kind : String)
  | identifier (segment reason : String)
  | within (layer : String) (inner : Violation)
deriving DecidableEq, Repr

namespace Violation

def message : Violation → String
  | .json reason => "invalid JSON format: " ++ reason
  | .missingField path => "missing required field: " ++ path.toText
  | .status word => "invalid status: " ++ word
  | .platform word => "invalid platform: " ++ word
  | .value path reason => "invalid value for " ++ path.toText ++ ": " ++ reason
  | .topicFormat reason => "invalid topic format: " ++ reason
  | .topicKind kind => "invalid topic type: " ++ kind
  | .identifier segment reason => "invalid " ++ segment ++ ": " ++ reason
  | .within layer inner => layer ++ " validation failed: " ++ inner.message

def root : Violation → Violation
  | .within _ inner => inner.root
  | v => v

def isJson (v : Violation) : Bool :=
  match v.root with
  | .json _ => true
  | _ => false

/-- The texts of the violations inside, outermost first. -/
def causes : Violation → List String
  | .within _ inner => inner.message :: inner.causes
  | _ => []

end Violation

end NotificationRelay
