import NotificationRelay.Message.Violation
import NotificationRelay.Shape.Basic
import NotificationRelay.Text.Quoted

/-! Topics: what kind of resource a message is about, which one, and whose it is. -/
namespace NotificationRelay

inductive Topic.Kind where
  | project
  | job
deriving DecidableEq, Repr

instance : Vocabulary Topic.Kind where
  all := [.project, .job]
  word
    | .project => "project"
    | .job => "job"

structure Topic where
  kind : Topic.Kind
  resource : String
  user : String
deriving DecidableEq, Repr

namespace Topic

def toText (t : Topic) : String := Vocabulary.word t.kind ++ ":" ++ t.resource ++ ":" ++ t.user

def longestId : Nat := 50

def isIdChar (c : Char) : Bool := c.isAlphanum || c = '_' || c = '-'

def checkId (segment id : String) : Except Violation Unit :=
  if id.isEmpty then .error (.identifier segment "must not be empty")
  else if longestId < id.utf8ByteSize then
    .error (.identifier segment
      ("length " ++ toString id.utf8ByteSize ++ " exceeds " ++ toString longestId ++ " characters"))
  else
    match id.toList.find? fun c => !isIdChar c with
    | some bad =>
      .error (.identifier segment ("contains invalid character " ++ Text.quotedChar bad))
    | none => .ok ()

def make (kind : Kind) (resource user : String) : Except Violation Topic := do
  checkId "resource ID" resource
  checkId "user ID" user
  return ⟨kind, resource, user⟩

def segments : List Char → List (List Char)
  | [] => [[]]
  | c :: rest =>
    if c = ':' then [] :: segments rest
    else
      match segments rest with
      | [] => [[c]]
      | part :: parts => (c :: part) :: parts

/-- Reads `<kind>:<resource>:<user>`. -/
def parse (s : String) : Except Violation Topic :=
  match segments s.toList with
  | [kind, resource, user] =>
    match Vocabulary.find? (String.ofList kind) with
    | some kind => make kind (String.ofList resource) (String.ofList user)
    | none => .error (.topicKind (String.ofList kind))
  | parts =>
    .error (.topicFormat ("expected <type>:<resource_id>:<user_id>, got " ++
      toString parts.length ++ " segment(s)"))

end Topic

end NotificationRelay
