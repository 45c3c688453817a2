import NotificationRelay.Admission.Connection
import NotificationRelay.Ledger.Basic

/-! Counts for an outside observer, which are never reset. -/
namespace NotificationRelay

inductive Series where
  | success (kind : MessageKind)
  | failure (kind : MessageKind) (category : Category)
  | handled (category : Category)
  | rejected (limit : Limit)
  | dropped
  | delivered
  | sessions
deriving DecidableEq, Repr

namespace Series

def ofCount : Count → Series
  | .success kind _ => .success kind
  | .failure kind category => .failure kind category
  | .handled category => .handled category

def name : Series → String
  | .success _ => "relay_transform_success_total"
  | .failure .. => "relay_transform_errors_total"
  | .handled _ => "relay_transform_handled_errors_total"
  | .rejected _ => "relay_connections_rejected_total"
  | .dropped => "relay_messages_dropped_total"
  | .delivered => "relay_messages_delivered_total"
  | .sessions => "relay_ws_sessions_active"

def labels : Series → List (String × String)
  | .success kind => [("message_type", Vocabulary.word kind)]
  | .failure kind category =>
    [("message_type", Vocabulary.word kind), ("error_type", Vocabulary.word category)]
  | .handled category => [("error_type", Vocabulary.word category)]
  | .rejected limit => [("limit", Vocabulary.word limit)]
  | .dropped | .delivered | .sessions => []

def labelText (label : String × String) : String := label.1 ++ "=\"" ++ label.2 ++ "\""

def text (s : Series) : String :=
  let labels := s.labels.map labelText
  s.name ++ if labels.isEmpty then "" else "\x7b" ++ ",".intercalate labels ++ "\x7d"

end Series

abbrev Exported := Tally Series

namespace Exported

/-- One line for each series, in the order of the texts. -/
def lines (e : Exported) : List String :=
  (e.entries.map fun (series, n) => series.text ++ " " ++ toString n).mergeSort (· ≤ ·)

end Exported

end NotificationRelay
