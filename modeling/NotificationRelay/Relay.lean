import NotificationRelay.Admission.Register
import NotificationRelay.Ledger.Exported
import NotificationRelay.Settings.Relay
import NotificationRelay.Transform

/-! A relay: the register of its connections and the ledger of its messages. -/
namespace NotificationRelay

structure Relay where
  settings : RelaySettings
  register : Register
  ledger : Ledger
  exported : Exported

namespace Relay

def make (settings : RelaySettings) : Relay :=
  ⟨settings, .make settings.limits, .make settings.transform.samples, .empty⟩

def record (r : Relay) (entries : List Entry) : Relay :=
  let counts := entries.filterMap Entry.count?
  { r with
    ledger := r.ledger.recordAll counts
    exported := counts.foldl (fun exported c => exported.add (.ofCount c) 1) r.exported }

def conclude {α : Type} (r : Relay) (result : Noted Entry (Outcome α)) :
    Relay × List Log.Line × Outcome α :=
  (r.record result.notes, result.notes.filterMap Entry.line?, result.value)

def transform (r : Relay) (nanos : Nat) (channel : String) (payload : Json.Bytes) :
    Relay × List Log.Line × Outcome (Topic × Notification) :=
  r.conclude (Transform.onChannel r.settings.transform.excerpt nanos channel payload)

def transformProject (r : Relay) (nanos : Nat) (payload : Json.Bytes) :
    Relay × List Log.Line × Outcome Notification :=
  r.conclude (Transform.projectPayload r.settings.transform.excerpt nanos payload)

def transformJob (r : Relay) (nanos : Nat) (payload : Json.Bytes) :
    Relay × List Log.Line × Outcome Notification :=
  r.conclude (Transform.jobPayload r.settings.transform.excerpt nanos payload)

def resetLedger (r : Relay) : Relay := { r with ledger := r.ledger.reset }

/-- Opens a connection; a refusal is counted. -/
def connect (r : Relay) (now : Nat) (c : Connection) : Relay × Except Refusal Unit :=
  let (register, result) := r.register.connect now c
  let exported := match result with
    | .ok () => r.exported
    | .error refusal => r.exported.add (.rejected refusal.limit) 1
  ({ r with register, exported }, result)

def release (r : Relay) (c : Connection) : Relay × Bool :=
  let (register, known) := r.register.release c
  ({ r with register }, known)

def sweep (r : Relay) (now : Nat) : Relay × Nat :=
  let (register, removed) := r.register.sweep now
  ({ r with register }, removed)

end Relay

end NotificationRelay
