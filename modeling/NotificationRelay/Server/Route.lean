import NotificationRelay.Topic

/-! What paths lead to. -/
namespace NotificationRelay.Server

inductive Route where
  | info
  | health
  | ready
  | metrics
  | publish
  | stats
  | socket (kind : Topic.Kind) (resource : String)
deriving DecidableEq, Repr

namespace Route

def ofPath (path : String) : Option Route :=
  match path.splitOn "/" with
  | ["", ""] => some .info
  | ["", "health"] => some .health
  | ["", "ready"] => some .ready
  | ["", "metrics"] => some .metrics
  | ["", "api", "v1", "publish"] => some .publish
  | ["", "api", "v1", "stats"] => some .stats
  | ["", "ws", kind, resource] =>
    if resource.isEmpty then none
    else (Vocabulary.find? kind).map fun kind => .socket kind resource
  | _ => none

def parameter (kind : Topic.Kind) : String := Vocabulary.word kind ++ "_id"

def shown : List String :=
  ["/ws/project/\x7bproject_id\x7d", "/ws/job/\x7bjob_id\x7d", "/api/v1/publish", "/api/v1/stats",
    "/health", "/ready", "/metrics"]

def isProtected : Route → Bool
  | .publish | .stats => true
  | _ => false

def accepts (method : String) : Route → Bool
  | .publish => method = "POST"
  | _ => method = "GET" || method = "HEAD"

end Route

end NotificationRelay.Server
