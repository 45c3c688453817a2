import NotificationRelay.Json.Printer
import NotificationRelay.Ledger.Basic

/-! Snapshots of the ledger as JSON, with times in microseconds. -/
namespace NotificationRelay

open Json

def Json.ofNat (n : Nat) : Json := .number (.natural n)

def Json.ofOption {α : Type} (f : α → Json) : Option α → Json
  | some a => f a
  | none => .null

def countsJson {α : Type} [Vocabulary α] (count : α → Nat) : Json :=
  sortedObject
    (((Vocabulary.all : List α).filter fun a => count a ≠ 0).map fun a =>
      (Vocabulary.word a, .ofNat (count a)))

namespace Ledger

def micros (nanos : Nat) : Json := .ofNat (nanos / 1000)

def kindSnapshot (l : Ledger) (kind : MessageKind) : Json :=
  let window := l.window kind
  let percentile (p : Nat) : Json := .ofOption micros (window.percentile (.ofNat p))
  .object
    [("successes", .ofNat (l.successes.count kind)),
      ("errors", countsJson fun category : Category => l.failures.count (kind, category)),
      ("samples", .ofNat window.samples.length),
      ("average_latency_micros", micros window.average),
      ("p50_latency_micros", percentile 50),
      ("p95_latency_micros", percentile 95),
      ("p99_latency_micros", percentile 99)]

def snapshot (l : Ledger) : Json :=
  .object
    [("message_types", sortedObject
        ((Vocabulary.all : List MessageKind).map fun kind =>
          (Vocabulary.word kind, l.kindSnapshot kind))),
      ("handled_errors", countsJson fun category : Category => l.handled.count category)]

end Ledger

end NotificationRelay
