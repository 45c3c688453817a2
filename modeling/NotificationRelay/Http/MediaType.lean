/-! Media types, such as `application/json; charset=utf-8`. -/
namespace NotificationRelay.Http

structure MediaType where
  kind : String
  subtype : String
  suffix : Option String
deriving DecidableEq, Repr

namespace MediaType

def isTokenChar (c : Char) : Bool :=
  c.isAlphanum || "!#$%&'*+-.^_`|~".toList.contains c

/-- Blanks up to a semicolon or the end; gives what follows the semicolon. -/
def nextParameter : List Char → Option (List Char)
  | [] => some []
  | c :: rest => if c = ';' then some rest else if c = ' ' then nextParameter rest else none

/-- The value of a parameter: a token, or a text between quotes, which may start with another one.
Gives what follows the semicolon behind it. -/
def readValue (text : List Char) : Option (List Char) :=
  match text with
  | '"' :: quoted =>
    let quoted := if quoted.head? = some '"' then quoted.tail else quoted
    match quoted.dropWhile fun c => c != '"' && 0x20 ≤ c.toNat && c.toNat != 0x7F with
    | '"' :: rest => nextParameter rest
    | _ => none
  | _ =>
    match text.dropWhile isTokenChar with
    | [] => some []
    | ';' :: rest => if text.head? = some ';' then none else some rest
    | _ => none

/-- Whether a text is parameters, each a name and a value. Blanks may stand in front of a name, and
behind the last semicolon. -/
def areParameters : Nat → List Char → Bool
  | 0, _ => false
  | _ + 1, [] => true
  | fuel + 1, text =>
    let text := text.dropWhile (· = ' ')
    match text.dropWhile isTokenChar with
    | '=' :: value =>
      if text.head? = some '=' then false
      else
        match readValue value with
        | some rest => areParameters fuel rest
        | none => false
    | _ => text.isEmpty

/-- What stands in front of the last plus sign, unless that is the first character, and what
stands behind it. -/
def splitSuffix (subtype : List Char) : List Char × Option (List Char) :=
  let suffix := (subtype.reverse.takeWhile (· != '+')).reverse
  let stem := subtype.take (subtype.length - suffix.length - 1)
  if suffix.length = subtype.length || stem.isEmpty then (subtype, none) else (stem, some suffix)

/-- Reads a media type in lower case. Nothing but its parameters may follow a semicolon. -/
def parse (s : String) : Option MediaType :=
  let text := s.toList.map Char.toLower
  match text.takeWhile isTokenChar, text.dropWhile isTokenChar with
  | kind@(_ :: _), '/' :: rest =>
    let subtype := rest.takeWhile isTokenChar
    let (stem, suffix) := splitSuffix subtype
    let found : MediaType := ⟨String.ofList kind, String.ofList stem, suffix.map String.ofList⟩
    if subtype.isEmpty then none
    else
      match rest.dropWhile isTokenChar with
      | [] => some found
      | ';' :: parameters =>
        if areParameters (parameters.length + 1) parameters then some found else none
      | _ => none
  | _, _ => none

def isJson (m : MediaType) : Bool :=
  m.kind = "application" && (m.subtype = "json" || m.suffix = some "json")

end MediaType

end NotificationRelay.Http
