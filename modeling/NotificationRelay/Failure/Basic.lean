import NotificationRelay.Failure.Category
import NotificationRelay.Message.Violation
import NotificationRelay.Message.Vocabulary

/-! Why a payload does not become a notification. -/
namespace NotificationRelay

inductive Failure where
  | topic (violation : Violation)
  | payload (violation : Violation)
  | unreadable (kind : MessageKind) (reason : String)
  | unsound (kind : MessageKind) (violation : Violation)
  | other (kind : MessageKind) (reason : String)
deriving DecidableEq, Repr

namespace Failure

/-- The wording decides the category. That of `unsound` leaves the violation out, whose own words
would decide otherwise. -/
def message : Failure → String
  | .topic v => "topic validation failed: " ++ v.message
  | .payload v => v.message
  | .unreadable kind reason =>
    "invalid JSON format: cannot decode " ++ Vocabulary.word kind ++ " message: " ++ reason
  | .unsound kind _ => "output validation failed for " ++ Vocabulary.word kind ++ " message"
  | .other kind reason => "transform failed for " ++ Vocabulary.word kind ++ " message: " ++ reason

def kind? : Failure → Option MessageKind
  | .topic _ => some .unknown
  | .payload _ => none
  | .unreadable kind _ | .unsound kind _ | .other kind _ => some kind

/-- The texts of what lies behind the failure, outermost first. -/
def causes : Failure → List String
  | .topic v | .unsound _ v => v.message :: v.causes
  | .payload v => v.causes
  | .unreadable .. | .other .. => []

def category (f : Failure) : Category := .ofMessage f.message

end Failure

end NotificationRelay
