import NotificationRelay.Json.Printer
import NotificationRelay.Shape.Basic

/-! Writing of values in a shape, as JSON trees with the members in the order of the fields. -/
namespace NotificationRelay

namespace Shape

def writeReal (x : Binary64) : Json := if x.isFinite then .number (.real x) else .null

def isAbsent {α : Type} : Shape α → α → Bool
  | .optional _, .none => true
  | _, _ => false

mutual

def write {α : Type} : Shape α → α → Json
  | .word, n => .number (.natural n.toNat)
  | .halfWord, n => .number (.natural n.toNat)
  | .natural _ _, n => .number (.natural n)
  | .real, x => writeReal x
  | .text, s => .text s
  | .flag, b => .flag b
  | .instant, t => .text t.toText
  | .choice _, a => .text (Vocabulary.word a)
  | .tree, value => value
  | .optional _, .none => .null
  | .optional shape, some a => shape.write a
  | .nullable _, .none => .null
  | .nullable shape, some a => shape.write a
  | .nullAs _ shape, a => shape.write a
  | .sequence shape, items => .list (items.map shape.write)
  | .record _ fields _ parts, a => .object (writeMembers fields (parts a))

def writeMembers {σ τ : Type} : Fields σ τ → σ → List (String × Json)
  | .none, () => []
  | .cons key _ shape more, (value, values) =>
    if shape.isAbsent value then writeMembers more values
    else (key, shape.write value) :: writeMembers more values

end

def encode {α : Type} (shape : Shape α) (a : α) : String := (shape.write a).print

end Shape

end NotificationRelay
