import NotificationRelay.Failure.Category
import NotificationRelay.Ledger.Window
import NotificationRelay.Message.Vocabulary
import NotificationRelay.Store

/-! The ledger of a relay: how many messages of each kind succeeded and failed, and how long the
latest successes took. -/
namespace NotificationRelay

inductive Count where
  | success (kind : MessageKind) (nanos : Nat)
  | failure (kind : MessageKind) (category : Category)
  | handled (category : Category)
deriving DecidableEq, Repr

structure Ledger where
  capacity : Nat
  successes : Tally MessageKind
  failures : Tally (MessageKind × Category)
  handled : Tally Category
  windows : Store MessageKind Window

namespace Ledger

def make (capacity : Nat) : Ledger := ⟨max capacity 1, .empty, .empty, .empty, .empty⟩

def reset (l : Ledger) : Ledger := ⟨l.capacity, .empty, .empty, .empty, .empty⟩

def window (l : Ledger) (kind : MessageKind) : Window := (l.windows.get? kind).getD .empty

def record (l : Ledger) : Count → Ledger
  | .success kind nanos =>
    { l with
      successes := l.successes.add kind 1
      windows := l.windows.insert kind ((l.window kind).push l.capacity nanos) }
  | .failure kind category => { l with failures := l.failures.add (kind, category) 1 }
  | .handled category => { l with handled := l.handled.add category 1 }

def recordAll (l : Ledger) (counts : List Count) : Ledger := counts.foldl record l

def failuresOf (l : Ledger) (kind : MessageKind) : Nat :=
  total ((Vocabulary.all : List Category).map fun category => l.failures.count (kind, category))

end Ledger

end NotificationRelay
