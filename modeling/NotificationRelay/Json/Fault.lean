import NotificationRelay.Binary64.Decimal
import NotificationRelay.Text.Quoted
import NotificationRelay.Time.Rfc3339

/-! Why a JSON text could not be read, and where. -/
namespace NotificationRelay.Json

abbrev Bytes := List UInt8

inductive Got where
  | natural (n : Nat)
  | negative (n : Nat)
  | real (x : Binary64)
  | text (s : String)
  | flag (b : Bool)
  | null
  | sequence
  | map
deriving DecidableEq, Repr

def Got.toText : Got → String
  | .natural n => "integer `" ++ toString n ++ "`"
  | .negative n => "integer `-" ++ toString n ++ "`"
  | .real x => "floating point `" ++ x.jsonText ++ "`"
  | .text s => "string " ++ Text.quoted s
  | .flag b => "boolean `" ++ (if b then "true" else "false") ++ "`"
  | .null => "null"
  | .sequence => "sequence"
  | .map => "map"

inductive Cause where
  | unfinishedValue
  | unfinishedList
  | unfinishedObject
  | unfinishedText
  | expectedValue
  | expectedIdent
  | expectedColon
  | expectedCommaOrListEnd
  | expectedCommaOrObjectEnd
  | trailingComma
  | trailingCharacters
  | keyIsNoText
  | controlCharacter
  | invalidEscape
  | invalidCodePoint
  | loneSurrogate
  | unfinishedPair
  | invalidNumber
  | numberOutOfRange
  | tooDeep
  | wrongType (got : Got) (want : String)
  | wrongValue (got : Got) (want : String)
  | wrongLength (length : Nat) (want : String)
  | unknownVariant (name : String) (known : List String)
  | missingField (name : String)
  | duplicateField (name : String)
  | timestamp (fault : Time.Fault)
deriving DecidableEq, Repr

def oneOf (names : List String) : String :=
  let marked := names.map fun name => "`" ++ name ++ "`"
  match marked with
  | [] => "there are no variants"
  | [a] => "expected " ++ a
  | [a, b] => "expected " ++ a ++ " or " ++ b
  | _ => "expected one of " ++ ", ".intercalate marked

def Cause.toText : Cause → String
  | .unfinishedValue => "EOF while parsing a value"
  | .unfinishedList => "EOF while parsing a list"
  | .unfinishedObject => "EOF while parsing an object"
  | .unfinishedText => "EOF while parsing a string"
  | .expectedValue => "expected value"
  | .expectedIdent => "expected ident"
  | .expectedColon => "expected `:`"
  | .expectedCommaOrListEnd => "expected `,` or `]`"
  | .expectedCommaOrObjectEnd => "expected `,` or `\x7d`"
  | .trailingComma => "trailing comma"
  | .trailingCharacters => "trailing characters"
  | .keyIsNoText => "key must be a string"
  | .controlCharacter => "control character (\\u0000-\\u001F) found while parsing a string"
  | .invalidEscape => "invalid escape"
  | .invalidCodePoint => "invalid unicode code point"
  | .loneSurrogate => "lone leading surrogate in hex escape"
  | .unfinishedPair => "unexpected end of hex escape"
  | .invalidNumber => "invalid number"
  | .numberOutOfRange => "number out of range"
  | .tooDeep => "recursion limit exceeded"
  | .wrongType got want => "invalid type: " ++ got.toText ++ ", expected " ++ want
  | .wrongValue got want => "invalid value: " ++ got.toText ++ ", expected " ++ want
  | .wrongLength length want => "invalid length " ++ toString length ++ ", expected " ++ want
  | .unknownVariant name known => "unknown variant `" ++ name ++ "`, " ++ oneOf known
  | .missingField name => "missing field `" ++ name ++ "`"
  | .duplicateField name => "duplicate field `" ++ name ++ "`"
  | .timestamp fault => fault.text

def Cause.isContent : Cause → Bool
  | .wrongType .. | .wrongValue .. | .wrongLength .. | .unknownVariant .. => true
  | .missingField _ | .duplicateField _ | .timestamp _ => true
  | _ => false

inductive PathPart where
  | key (name : String)
  | index (n : Nat)
  | unnamed
deriving DecidableEq, Repr

/-- A cause with its place: the bytes left from the reported one on, and the way there
through the value. -/
structure Fault where
  cause : Cause
  left : Nat
  path : List PathPart
deriving DecidableEq, Repr

def fault {α : Type} (cause : Cause) (rest : Bytes) : Except Fault α :=
  .error ⟨cause, rest.length, []⟩

def Fault.inside (part : PathPart) (f : Fault) : Fault := { f with path := part :: f.path }

/-- Line and column behind the bytes read, counted in bytes from line 1 and column 0. -/
def lineColumn (consumed : Bytes) : Nat × Nat :=
  consumed.foldl (fun place b => if b = 10 then (place.1 + 1, 0) else (place.1, place.2 + 1)) (1, 0)

def Fault.toText (f : Fault) (source : Bytes) : String :=
  let (line, column) := lineColumn (source.take (source.length - f.left))
  f.cause.toText ++ " at line " ++ toString line ++ " column " ++ toString column

def pathText (path : List PathPart) : String :=
  (path.zipIdx.map fun
    | (.key name, 0) => name
    | (.key name, _) => "." ++ name
    | (.index n, _) => "[" ++ toString n ++ "]"
    | (.unnamed, 0) => "?"
    | (.unnamed, _) => ".?").foldl (· ++ ·) ""

end NotificationRelay.Json
