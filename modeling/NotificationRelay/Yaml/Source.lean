import NotificationRelay.Shape.Source
import NotificationRelay.Yaml.Node

/-! YAML nodes as values. Every scalar is a text; whether it is anything else is told by its
characters, and only of a plain one. -/
namespace NotificationRelay.Yaml

/-- What a plain scalar that stands for nothing may look like, if it is not empty. -/
def isNull (text : String) : Bool := ["null", "Null", "NULL", "~"].contains text

/-- Numbers have no zero in front, but a sign or the mark of a base may stand there. -/
def readNatural (text : String) : Option Nat :=
  let unsigned := match text.toList with
    | '+' :: digits => digits
    | digits => digits
  let digits (base : Nat) (digits : List Char) : Option Nat :=
    if digits.isEmpty then none else Text.digitsValue base digits
  match unsigned with
  | '0' :: 'x' :: rest => digits 16 rest
  | '0' :: 'o' :: rest => digits 8 rest
  | '0' :: 'b' :: rest => digits 2 rest
  | '0' :: _ :: _ => none
  | rest => digits 10 rest

def Document.text (d : Document) (node : Node) : Option String :=
  match d.resolve node with
  | .scalar _ _ text => some text
  | _ => none

/-- Numbers and flags stand in plain scalars, or in literal ones with the given tag. -/
def Document.value (d : Document) (tag : String) (node : Node) : Option String :=
  match d.resolve node with
  | .scalar .plain _ text => some text
  | .scalar .literal own text => if own = some tag then some text else none
  | _ => none

def Document.flag (d : Document) (node : Node) : Option Bool := do
  let text ← d.value "tag:yaml.org,2002:bool" node
  if ["true", "True", "TRUE"].contains text then return true
  else if ["false", "False", "FALSE"].contains text then return false
  else none

/-- A tag says whether nothing is meant; without a tag the text does. -/
def Document.content (d : Document) (node : Node) : Option (Option Node) :=
  match d.resolve node with
  | .scalar .plain none text => some (if text.isEmpty || isNull text then none else some node)
  | .scalar .plain (some tag) text =>
    if tag ≠ "tag:yaml.org,2002:null" then some (some node)
    else if isNull text then some none
    else none
  | _ => some (some node)

/-- Where nothing is written there is nothing in it. -/
def Document.items (d : Document) (node : Node) : Option (List Node) :=
  match d.resolve node with
  | .sequence items => some items
  | .scalar .plain _ "" => some []
  | _ => none

def Document.members (d : Document) (node : Node) : Option (List (String × Node)) :=
  match d.resolve node with
  | .mapping members => members.mapM fun (key, value) => return (← d.text key, value)
  | .scalar .plain _ "" => some []
  | _ => none

def Document.source (d : Document) : Source Node where
  text := d.text
  natural := fun greatest node => do
    let n ← readNatural (← d.value "tag:yaml.org,2002:int" node)
    if n ≤ greatest then return n else none
  flag := d.flag
  content := d.content
  items := d.items
  record := fun node => (d.members node).map .inl

def read? {α : Type} (shape : Shape α) (text : String) : Option α := do
  let d ← Document.ofText? text
  shape.take d.source d.root

end NotificationRelay.Yaml
