import NotificationRelay.Failure.Category
import NotificationRelay.Log
import NotificationRelay.Message.Vocabulary
import NotificationRelay.Text.Excerpt

/-! Reports of failures: what the log says about one. -/
namespace NotificationRelay

structure Report where
  category : Category
  kind : MessageKind
  channel : Option String
  excerpt : String
  message : String
deriving DecidableEq, Repr

namespace Report

def make (limit : Nat) (message : String) (kind : MessageKind) (channel : Option String)
    (payload : List UInt8) : Report :=
  ⟨.ofMessage message, kind, channel, Text.excerpt limit payload, message⟩

/-- Input that can never be accepted, and senders that are too fast, are not the relay's fault. -/
def isRejection (r : Report) : Bool :=
  r.category.isDeterministic || r.category = .rateLimitExceeded

def fields (r : Report) : List (String × Log.Value) :=
  [("error_type", .text (Vocabulary.word r.category)),
    ("message_type", .text (Vocabulary.word r.kind)),
    ("channel", .text (r.channel.getD "-")),
    ("payload", .text r.excerpt),
    ("error", .text r.message)]

def line (r : Report) : Log.Line :=
  if r.category.isCritical then ⟨.error, "transform_failed_critical", r.fields⟩
  else if r.isRejection then ⟨.warn, "transform_rejected_input", r.fields⟩
  else
    ⟨.error, "transform_failed", r.fields ++ [("retryable", .flag r.category.isRetryable)]⟩

end Report

end NotificationRelay
