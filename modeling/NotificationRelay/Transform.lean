import NotificationRelay.Failure.Basic
import NotificationRelay.Ledger.Basic
import NotificationRelay.Message.Normal
import NotificationRelay.Topic

/-! The way of a payload to a notification: its schema is checked, it is read as a message, put
into normal form and checked again. Everything that is counted or logged on the way is an entry;
`nanos` is how long the way took. -/
namespace NotificationRelay

open Json

inductive Entry where
  | count (count : Count)
  | event (event : Event)
deriving DecidableEq, Repr

def Entry.count? : Entry → Option Count
  | .count c => some c
  | .event _ => none

def Entry.line? : Entry → Option Log.Line
  | .count _ => none
  | .event e => some e.line

abbrev Outcome (α : Type) := Except Failure α

namespace Transform

open Noted

def counted (c : Count) : Noted Entry Unit := note (.count c)

def logged (e : Event) : Noted Entry Unit := note (.event e)

def failed {α : Type} (kind : MessageKind) (category : Category) (failure : Failure) :
    Noted Entry (Outcome α) := do
  counted (.failure kind category)
  return .error failure

/-- Goes on with a result unless it is a failure. -/
def andThen {α β : Type} (result : Noted Entry (Outcome α))
    (next : α → Noted Entry (Outcome β)) : Noted Entry (Outcome β) := do
  match ← result with
  | .ok a => next a
  | .error failure => return .error failure

def checked {α : Type} (kind : MessageKind) (check : α → Except Violation Unit)
    (message : Noted Event α) : Noted Entry (Outcome α) := do
  let output ← message.mapNotes .event
  match check output with
  | .ok () => return .ok output
  | .error v => failed kind .outputValidation (.unsound kind v)

def readAs {α : Type} (kind : MessageKind) (shape : Shape α) (payload : Bytes) :
    Noted Entry (Outcome α) :=
  match shape.decode payload with
  | .ok message => pure (.ok message)
  | .error f => failed kind .jsonParse (.unreadable kind (f.toText payload))

def flatMessage (input : Input.ProjectMessage) : Noted Entry (Outcome ProjectMessage) :=
  checked .project ProjectMessage.check (ProjectMessage.ofInput input)

def phaseMessage (input : PhaseMessage) : Noted Entry (Outcome PhaseMessage) :=
  checked .projectPhase PhaseMessage.check input.normalize

def jobMessage (input : Input.JobMessage) : Noted Entry (Outcome JobMessage) :=
  checked .job JobMessage.check (JobMessage.ofInput input)

/-- The layout is logged as soon as it is known, before the schema is checked. -/
def layoutOf (payload : Bytes) : Noted Entry (Outcome Layout) := do
  match Payload.members payload with
  | .ok members => logged (.layoutFound (Payload.layout members))
  | .error _ => pure ()
  match Payload.checkProject payload with
  | .ok layout => return .ok layout
  | .error v => failed .project .validation (.payload v)

def succeeded (nanos : Nat) (message : Notification) (event : Event) :
    Noted Entry (Outcome Notification) := do
  counted (.success message.kind nanos)
  logged event
  return .ok message

def project (nanos : Nat) (payload : Bytes) : Noted Entry (Outcome Notification) :=
  andThen (layoutOf payload) fun
    | .flat =>
      andThen (readAs .project Input.ProjectMessage.shape payload) fun input =>
        andThen (flatMessage input) fun message =>
          succeeded nanos (.project message) (.projectTransformed .project)
    | .phased =>
      andThen (readAs .projectPhase (PhaseMessage.shape .received) payload) fun input =>
        andThen (phaseMessage input) fun message =>
          succeeded nanos (.projectPhase message) (.projectTransformed .projectPhase)

def job (nanos : Nat) (payload : Bytes) : Noted Entry (Outcome Notification) :=
  match Payload.checkJob payload with
  | .error v => failed .job .validation (.payload v)
  | .ok () =>
    andThen (readAs .job Input.JobMessage.shape payload) fun input =>
      andThen (jobMessage input) fun message =>
        succeeded nanos (.job message) (.jobTransformed message.platform)

def handle (limit : Nat) (message : String) (kind : MessageKind) (channel : Option String)
    (payload : Bytes) : Noted Entry Category := do
  let report := Report.make limit message kind channel payload
  counted (.handled report.category)
  logged (.failed report)
  return report.category

/-- Handles the failure of a result, if it is one, as one of `kind` unless it knows better. -/
def reporting {α : Type} (limit : Nat) (kind : MessageKind) (channel : Option String)
    (payload : Bytes) (result : Noted Entry (Outcome α)) : Noted Entry (Outcome α) := do
  match ← result with
  | .ok a => return .ok a
  | .error failure =>
    let _ ← handle limit failure.message (failure.kind?.getD kind) channel payload
    return .error failure

def projectPayload (limit nanos : Nat) (payload : Bytes) : Noted Entry (Outcome Notification) :=
  reporting limit .project none payload (project nanos payload)

def jobPayload (limit nanos : Nat) (payload : Bytes) : Noted Entry (Outcome Notification) :=
  reporting limit .job none payload (job nanos payload)

def ofKind (kind : Topic.Kind) (nanos : Nat) (payload : Bytes) :
    Noted Entry (Outcome Notification) :=
  match kind with
  | .project => project nanos payload
  | .job => job nanos payload

def kindOf : Topic.Kind → MessageKind
  | .project => .project
  | .job => .job

def onChannel (limit nanos : Nat) (channel : String) (payload : Bytes) :
    Noted Entry (Outcome (Topic × Notification)) :=
  match Topic.parse channel with
  | .error v =>
    reporting limit .unknown (some channel) payload
      (failed .unknown .validation (.topic v))
  | .ok topic =>
    andThen
      (reporting limit (kindOf topic.kind) (some topic.toText) payload
        (ofKind topic.kind nanos payload))
      fun message => pure (.ok (topic, message))

end Transform

end NotificationRelay
