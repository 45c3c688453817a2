import NotificationRelay.Shape.Basic
import NotificationRelay.Text.Phrase

/-! Categories of failures, by which they are counted, logged and retried. -/
namespace NotificationRelay

inductive Category where
  | jsonParse
  | validation
  | missingField
  | invalidStatus
  | invalidPlatform
  | invalidValue
  | outputValidation
  | transform
  | rateLimitExceeded
  | unknown
deriving DecidableEq, Repr

instance : Vocabulary Category where
  all := [.jsonParse, .validation, .missingField, .invalidStatus, .invalidPlatform, .invalidValue,
    .outputValidation, .transform, .rateLimitExceeded, .unknown]
  word
    | .jsonParse => "json_parse"
    | .validation => "validation"
    | .missingField => "missing_field"
    | .invalidStatus => "invalid_status"
    | .invalidPlatform => "invalid_platform"
    | .invalidValue => "invalid_value"
    | .outputValidation => "output_validation"
    | .transform => "transform"
    | .rateLimitExceeded => "rate_limit_exceeded"
    | .unknown => "unknown"

namespace Category

def isCritical : Category → Bool
  | .jsonParse | .outputValidation => true
  | _ => false

def isDeterministic : Category → Bool
  | .jsonParse | .validation | .missingField => true
  | .invalidStatus | .invalidPlatform | .invalidValue => true
  | _ => false

def isRetryable (c : Category) : Bool := !c.isDeterministic

structure Rule where
  phrase : String
  without : Option String
  category : Category

def Rule.applies (rule : Rule) (message : String) : Bool :=
  Text.holds rule.phrase message && !rule.without.any fun phrase => Text.holds phrase message

/-- The first rule that applies counts. -/
def rules : List Rule :=
  [⟨"invalid json format", none, .jsonParse⟩,
    ⟨"validation", some "output validation", .validation⟩,
    ⟨"missing required field", none, .missingField⟩,
    ⟨"invalid status", none, .invalidStatus⟩,
    ⟨"invalid platform", none, .invalidPlatform⟩,
    ⟨"invalid value", none, .invalidValue⟩,
    ⟨"output validation", none, .outputValidation⟩,
    ⟨"transform", none, .transform⟩,
    ⟨"rate limit", none, .rateLimitExceeded⟩]

/-- The category of a failure with the given wording, whatever its case. -/
def ofMessage (message : String) : Category :=
  ((rules.find? (·.applies message)).map (·.category)).getD .unknown

end Category

end NotificationRelay
