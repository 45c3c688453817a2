import NotificationRelay.Binary64.Decimal
import NotificationRelay.Binary64.Reader
import NotificationRelay.Json.Printer
import NotificationRelay.Shape.Source
import NotificationRelay.Text.Phrase

/-! Settings in layers. A layer covers the ones below it, tables member by member; and what a
value was written as does not matter much, for texts are taken as numbers and numbers as texts. -/
namespace NotificationRelay.Layer

open Json

def table : Option Json → List (String × Json)
  | some (.object members) => members
  | _ => []

mutual

def cover (below : Option Json) : Json → Json
  | .object members => coverMembers below members
  | value => value

def coverMembers (below : Option Json) : List (String × Json) → Json
  | [] => below.getD (.object [])
  | (key, value) :: rest =>
    let members := table below
    let covered := cover (lookup key members) value
    coverMembers (some (.object (insertSorted key covered members))) rest

end

/-- Lays a value over what is there on a path of keys; there are tables all along it then. -/
def put (value : Json) : List String → Option Json → Json
  | [], below => cover below value
  | key :: rest, below =>
    let members := table below
    .object (insertSorted key (put value rest (lookup key members)) members)

def isKeyChar (c : Char) : Bool := c.isAlphanum || c = '_' || c = '-'

/-- Points divide a name into keys. A name that does not divide into keys is a key itself. -/
def path (name : String) : List String :=
  let keys := name.splitOn "."
  if keys.all fun key => !key.isEmpty && key.toList.all isKeyChar then keys else [name]

def putAll (values : List (String × Json)) (below : Json) : Json :=
  values.foldl (fun below (name, value) => put value (path name) (some below)) below

def lowerCase (s : String) : String := String.ofList (s.toList.flatMap Text.lowered)

def integer? (text : String) : Option Int :=
  let (negative, digits) := Binary64.splitSign text.toList
  if digits.isEmpty || !digits.all Char.isDigit then none
  else
    let n := Binary64.digitsOf digits
    if negative then if n ≤ twoTo 63 then some (-(n : Int)) else none
    else if n < twoTo 63 then some n else none

def ofInt (n : Int) : Json :=
  .number (if n < 0 then .negative n.natAbs else .natural n.natAbs)

/-- The value of a variable. What is no flag and no number is a text, or a list of texts divided by
commas if it is a list that is asked for. -/
def ofVariable (list : Bool) (text : String) : Json :=
  if lowerCase text = "true" then .flag true
  else if lowerCase text = "false" then .flag false
  else
    match integer? text with
    | some n => ofInt n
    | none =>
      match Binary64.ofText? text with
      | some x => .number (.real x)
      | none => if list then .list ((text.splitOn ",").map .text) else .text text

/-- The setting that a variable of the environment names: what follows the mark, with two
underscores between keys. -/
def nameOf? (mark spelled : String) : Option String :=
  let name := lowerCase spelled
  if mark.toList.isPrefixOf name.toList then
    some (".".intercalate ((String.ofList (name.toList.drop mark.length)).splitOn "__"))
  else none

def ofEnvironment (mark : String) (lists : List String) (environment : List (String × String)) :
    List (String × Json) :=
  environment.filterMap fun (spelled, written) =>
    (nameOf? mark spelled).map fun name => (name, ofVariable (lists.contains name) written)

/-- Integers beyond 63 bits are real numbers here. -/
def number : Json.Number → Int ⊕ Binary64
  | .natural n => if n < twoTo 63 then .inl n else .inr (Binary64.ofNat n)
  | .negative n => .inl (-n)
  | .real x => .inr x

def text : Json → Option String
  | .text s => some s
  | .flag b => some (if b then "true" else "false")
  | .number n =>
    match number n with
    | .inl n => some (String.ofList ((if n < 0 then ['-'] else []) ++ Nat.toDigits 10 n.natAbs))
    | .inr x => some x.plainText
  | _ => none

def isYes (word : String) : Bool := ["true", "on", "yes"].contains word

def isNo (word : String) : Bool := ["false", "off", "no"].contains word

/-- The nearest natural number of 64 bits, and the greater one if two are equally near. -/
def rounded (x : Binary64) : Nat :=
  if x.isNaN || x.isNegative then 0
  else min ((2 * x.units + twoTo 1074) / (2 * twoTo 1074)) (greatest 64)

def word : Json → Option Nat
  | .flag b => some b.toNat
  | .number n =>
    match number n with
    | .inl n => if n < 0 then none else some n.natAbs
    | .inr x => some (rounded x)
  | .text s =>
    if isYes (lowerCase s) then some 1
    else if isNo (lowerCase s) then some 0
    else
      let digits := match s.toList with
        | '+' :: digits => digits
        | digits => digits
      if digits.isEmpty || !digits.all Char.isDigit then none
      else some (Binary64.digitsOf digits) |>.filter (· < twoTo 64)
  | _ => none

def flag : Json → Option Bool
  | .flag b => some b
  | .number n =>
    match number n with
    | .inl n => some (n != 0)
    | .inr x => some (x.magnitude != 0)
  | .text s =>
    let word := lowerCase s
    if word = "1" || isYes word then some true
    else if word = "0" || isNo word then some false
    else none
  | _ => none

/-- What does not fit a narrow number loses its upper bits. -/
def source : Source Json where
  text := text
  natural := fun greatest value => (word value).map (· % (greatest + 1))
  flag := flag
  content := fun value => some (if value.isNull then none else some value)
  items
    | .list items => some items
    | _ => none
  record
    | .object members => some (.inl members)
    | .list items => some (.inr items)
    | _ => none

end NotificationRelay.Layer
