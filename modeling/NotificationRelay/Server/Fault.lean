import NotificationRelay.Admission.Connection
import NotificationRelay.Failure.Basic
import NotificationRelay.Ledger.Snapshot

/-! Why a request fails, and how the client is told. -/
namespace NotificationRelay.Server

inductive Fault where
  | authentication (reason : String)
  | tooManyRequests
  | refused (refusal : Refusal)
  | badRequest (reason : String)
  | transform (failure : Failure)
  | internal (reason : String)
  | notFound
deriving DecidableEq, Repr

namespace Fault

def message : Fault → String
  | .authentication reason => "Authentication failed: " ++ reason
  | .tooManyRequests => "Rate limit exceeded"
  | .refused refusal => "Connection rejected: " ++ refusal.message
  | .badRequest reason => "Bad request: " ++ reason
  | .transform failure => "Transform error: " ++ failure.message
  | .internal reason => "Internal server error: " ++ reason
  | .notFound => "Not found"

def status : Fault → Nat
  | .authentication _ => 401
  | .tooManyRequests | .refused _ => 429
  | .badRequest _ | .transform (.topic _) => 400
  | .transform _ => 422
  | .notFound => 404
  | .internal _ => 500

def code : Fault → String
  | .authentication _ => "AUTH_FAILED"
  | .tooManyRequests => "RATE_LIMIT_EXCEEDED"
  | .refused _ => "CONNECTION_REJECTED"
  | .badRequest _ => "BAD_REQUEST"
  | .transform (.topic _) => "INVALID_TOPIC"
  | .transform _ => "TRANSFORM_ERROR"
  | .internal _ => "INTERNAL_ERROR"
  | .notFound => "NOT_FOUND"

def details : Fault → List (String × Json)
  | .refused r =>
    [("details", .object
      [("limit", .text (Vocabulary.word r.limit)), ("current", .ofNat r.current),
        ("max", .ofNat r.greatest)])]
  | .transform f => [("details", .object [("error_type", .text (Vocabulary.word f.category))])]
  | _ => []

def body (f : Fault) : Json :=
  .object
    [("error", .object (("code", .text f.code) :: ("message", .text f.message) :: f.details))]

def ofJson (f : Json.Fault) (source : Json.Bytes) : Fault :=
  .badRequest ("JSON parse error: " ++ f.toText source)

end Fault

end NotificationRelay.Server
