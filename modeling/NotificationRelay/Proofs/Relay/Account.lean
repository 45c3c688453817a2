import NotificationRelay.Proofs.Ledger
import NotificationRelay.Proofs.Transform.Report
import NotificationRelay.Relay

/-! The account of a relay. Every call leaves one mark in the ledger: a success with its sample, or
a failure with the category it was handled as and one line in the log. So the sums of the ledger
are those of the calls. -/
namespace NotificationRelay

open Json Transform

/-- A call of a relay with a payload: on a channel for the message alone or for its topic too, or
without a channel. -/
inductive Call where
  | message (channel : String) (payload : Bytes)
  | routed (channel : String) (payload : Bytes)
  | project (payload : Bytes)
  | job (payload : Bytes)

namespace Call

def payload : Call → Bytes
  | .message _ payload | .routed _ payload | .project payload | .job payload => payload

/-- What kind of resource the payload is about. A channel has to be a topic to tell. -/
def resource : Call → Except Violation Topic.Kind
  | .message channel _ | .routed channel _ => (Topic.parse channel).map (·.kind)
  | .project _ => .ok .project
  | .job _ => .ok .job

inductive Fails (call : Call) : Failure → MessageKind → Category → Prop where
  | topic {v : Violation} (bad : call.resource = .error v) :
      call.Fails (.topic v) .unknown .validation
  | payload {resource : Topic.Kind} {failure : Failure} {kind : MessageKind} {category : Category}
      (known : call.resource = .ok resource)
      (cause : Cause resource call.payload failure kind category) :
      call.Fails failure kind category

end Call

namespace Transform

/-- A message is accounted for by one success, and a failure by one count under its kind, one under
the category of its wording, and one report. -/
inductive Account {α : Type} (kindOf : α → MessageKind) (nanos : Nat)
    (cause : Failure → MessageKind → Category → Prop) (x : Noted Entry (Outcome α)) : Prop where
  | success (a : α) (value : x.value = .ok a) (counted : counts x = [.success (kindOf a) nanos])
      (silent : reports x = [])
  | failure (failure : Failure) (kind : MessageKind) (category : Category)
      (caused : cause failure kind category) (value : x.value = .error failure)
      (counted : counts x = [.failure kind category, .handled failure.category])
      (report : Report) (told : reports x = [report]) (named : report.kind = kind)

theorem Account.weaken {α : Type} {kindOf : α → MessageKind} {nanos : Nat}
    {cause wider : Failure → MessageKind → Category → Prop} {x : Noted Entry (Outcome α)}
    (account : Account kindOf nanos cause x)
    (weaker : ∀ failure kind category, cause failure kind category → wider failure kind category) :
    Account kindOf nanos wider x := by
  cases account with
  | success a value counted silent => exact .success a value counted silent
  | failure failure kind category caused value counted report told named =>
    exact .failure failure kind category (weaker _ _ _ caused) value counted report told named

variable {resource : Topic.Kind} {limit nanos : Nat} {channel : Option String} {payload : Bytes}

/-- A failure that knows no kind of message is reported under the kind that was asked for. -/
theorem Cause.reported {failure : Failure} {kind : MessageKind} {category : Category}
    (cause : Cause resource payload failure kind category) :
    failure.kind?.getD (kindOf resource) = kind := by
  cases cause <;> rfl

theorem account_reporting (resource : Topic.Kind) (limit nanos : Nat) (channel : Option String)
    (payload : Bytes) :
    Account Notification.kind nanos (Cause resource payload)
      (reporting limit (kindOf resource) channel payload (ofKind resource nanos payload)) := by
  have silent := reports_ofKind resource nanos payload
  obtain ⟨failure, kind, category, cause, value, counted⟩ | ⟨message, _, value, counted⟩ :=
    ofKind_cases resource nanos payload
  · obtain ⟨kept, more, told⟩ := reporting_error limit (kindOf resource) channel payload value
    rw [counted] at more
    rw [silent] at told
    exact .failure failure kind category cause kept more _ told cause.reported
  · obtain ⟨kept, same, quiet⟩ := reporting_ok limit (kindOf resource) channel payload value
    exact .success message kept (same.trans counted) (quiet.trans silent)

theorem account_onChannel (limit nanos : Nat) (channel : String) (payload : Bytes) :
    Account (fun routed : Topic × Notification => routed.2.kind) nanos
      (Call.routed channel payload).Fails (onChannel limit nanos channel payload) := by
  cases parsed : Topic.parse channel with
  | error v =>
    have bad : (Call.routed channel payload).resource = .error v := by
      rw [Call.resource, parsed]
      rfl
    rw [onChannel, parsed]
    obtain ⟨value, counted, told⟩ :=
      reporting_error (α := Topic × Notification) limit .unknown (some channel) payload
        (value_failed .unknown .validation (.topic v))
    exact .failure _ _ _ (.topic bad) value counted _ told rfl
  | ok topic =>
    have known : (Call.routed channel payload).resource = .ok topic.kind := by
      rw [Call.resource, parsed]
      rfl
    rw [onChannel, parsed]
    dsimp only
    cases account_reporting topic.kind limit nanos (some topic.toText) payload with
    | success message value counted silent =>
      obtain ⟨routed, same⟩ :=
        andThen_ok (fun message => (pure (.ok (topic, message)) : Noted Entry (Outcome _))) value
      refine .success (topic, message) routed ?_ (reports_andThen silent fun _ => rfl)
      rw [same, counted]
      rfl
    | failure failure kind category cause value counted report told named =>
      obtain ⟨stopped, same⟩ :=
        andThen_error (fun message => (pure (.ok (topic, message)) : Noted Entry (Outcome _))) value
      refine .failure failure kind category (.payload known cause) stopped (same.trans counted)
        report ?_ named
      rw [andThen, reports_bind, told, value]
      rfl

end Transform

def Log.Line.tellsFailure (line : Log.Line) : Bool :=
  line.event ∈ ["transform_failed_critical", "transform_rejected_input", "transform_failed"]

theorem Report.tellsFailure_line (report : Report) : report.line.tellsFailure := by
  rw [Report.line]
  split
  · rfl
  split
  · rfl
  · rfl

theorem Report.mem_fields (report : Report) :
    ("message_type", Log.Value.text (Vocabulary.word report.kind)) ∈ report.line.fields := by
  have own : ("message_type", Log.Value.text (Vocabulary.word report.kind)) ∈ report.fields := by
    simp [Report.fields]
  rw [Report.line]
  split
  · exact own
  split
  · exact own
  · exact List.mem_append_left _ own

theorem Event.tellsFailure_line (e : Event) :
    e.line.tellsFailure = e.report?.isSome := by
  cases e with
  | failed report => exact report.tellsFailure_line
  | _ => rfl

theorem lines_tellsFailure (notes : List Entry) :
    (notes.filterMap Entry.line?).filter (·.tellsFailure) =
      (notes.filterMap Entry.report?).map Report.line := by
  induction notes with
  | nil => rfl
  | cons note notes ih =>
    cases note with
    | count c => exact ih
    | event e =>
      have tells := e.tellsFailure_line
      rw [List.filterMap_cons, List.filterMap_cons]
      simp only [Entry.line?, Entry.report?, List.filter_cons, tells]
      cases e with
      | failed report => exact congrArg (report.line :: ·) ih
      | _ => exact ih

namespace Relay

/-- What a call does to a ledger and what the log tells of it, by its outcome. -/
def Accounted (call : Call) (nanos : Nat) (before after : Ledger) (lines : List Log.Line) :
    Outcome (Option Topic × Notification) → Prop
  | .ok (_, message) =>
    before.Succeeded after message.kind nanos ∧ lines.filter (·.tellsFailure) = []
  | .error failure =>
    ∃ kind category, call.Fails failure kind category ∧
      before.Failed after kind category failure.category ∧
      ∃ line, lines.filter (·.tellsFailure) = [line] ∧
        ("message_type", .text (Vocabulary.word kind)) ∈ line.fields

def call (r : Relay) (nanos : Nat) :
    Call → Relay × List Log.Line × Outcome (Option Topic × Notification)
  | .message channel payload =>
    let (after, lines, outcome) := r.transform nanos channel payload
    (after, lines, outcome.map fun (_, message) => (none, message))
  | .routed channel payload =>
    let (after, lines, outcome) := r.transform nanos channel payload
    (after, lines, outcome.map fun (topic, message) => (some topic, message))
  | .project payload =>
    let (after, lines, outcome) := r.transformProject nanos payload
    (after, lines, outcome.map fun message => (none, message))
  | .job payload =>
    let (after, lines, outcome) := r.transformJob nanos payload
    (after, lines, outcome.map fun message => (none, message))

variable {α : Type} {kindOf : α → MessageKind} {nanos : Nat} {x : Noted Entry (Outcome α)}

theorem accounted_conclude (r : Relay) {call : Call} (account : Account kindOf nanos call.Fails x)
    (answer : α → Option Topic × Notification) (same : ∀ a, (answer a).2.kind = kindOf a) :
    let (after, lines, outcome) := r.conclude x
    Accounted call nanos r.ledger after.ledger lines (outcome.map answer) := by
  have ledger : (r.conclude x).1.ledger = r.ledger.recordAll (counts x) := rfl
  have told : ((r.conclude x).2.1).filter (·.tellsFailure) = (reports x).map Report.line :=
    lines_tellsFailure x.notes
  have value : (r.conclude x).2.2 = x.value := rfl
  cases account with
  | success a found counted silent =>
    rw [counted, ← same] at ledger
    rw [silent] at told
    dsimp only
    rw [value, found, ledger]
    exact ⟨r.ledger.succeeded_record _ nanos, told⟩
  | failure failure kind category caused found counted report reported named =>
    rw [counted] at ledger
    rw [reported] at told
    dsimp only
    rw [value, found, ledger]
    exact ⟨kind, category, caused, r.ledger.failed_record kind category _, report.line, told,
      named ▸ report.mem_fields⟩

theorem accounted_call (r : Relay) (nanos : Nat) (call : Call) :
    let (after, lines, outcome) := r.call nanos call
    Accounted call nanos r.ledger after.ledger lines outcome := by
  cases call with
  | message channel payload =>
    have account := account_onChannel r.settings.transform.excerpt nanos channel payload
    have same : ∀ failure kind category, (Call.routed channel payload).Fails failure kind category →
        (Call.message channel payload).Fails failure kind category := by
      intro failure kind category fails
      cases fails with
      | topic bad => exact .topic bad
      | payload known cause => exact .payload known cause
    exact accounted_conclude r (account.weaken same) (fun routed => (none, routed.2)) fun _ => rfl
  | routed channel payload =>
    have account := account_onChannel r.settings.transform.excerpt nanos channel payload
    exact accounted_conclude r account (fun routed => (some routed.1, routed.2)) fun _ => rfl
  | project payload =>
    have account := account_reporting .project r.settings.transform.excerpt nanos none payload
    exact accounted_conclude r (account.weaken fun _ _ _ cause => .payload rfl cause)
      (fun message => (none, message)) fun _ => rfl
  | job payload =>
    have account := account_reporting .job r.settings.transform.excerpt nanos none payload
    exact accounted_conclude r (account.weaken fun _ _ _ cause => .payload rfl cause)
      (fun message => (none, message)) fun _ => rfl

def serve (r : Relay) (calls : List (Nat × Call)) : Relay :=
  calls.foldl (fun r (nanos, call) => (r.call nanos call).1) r

theorem sums_call (r : Relay) (nanos : Nat) (call : Call) :
    let after := (r.call nanos call).1.ledger
    after.allSuccesses + after.allFailures = r.ledger.allSuccesses + r.ledger.allFailures + 1 ∧
      after.allHandled + r.ledger.allFailures = r.ledger.allHandled + after.allFailures := by
  have accounted := r.accounted_call nanos call
  generalize r.call nanos call = result at accounted ⊢
  obtain ⟨after, lines, outcome⟩ := result
  cases outcome with
  | ok answer =>
    obtain ⟨once, _⟩ := accounted
    obtain ⟨successes, failures, handled⟩ := once.sums
    dsimp only
    omega
  | error failure =>
    obtain ⟨_, _, _, once, _⟩ := accounted
    obtain ⟨successes, failures, handled⟩ := once.sums
    dsimp only
    omega

theorem sums_serve (r : Relay) (calls : List (Nat × Call)) :
    let after := (r.serve calls).ledger
    after.allSuccesses + after.allFailures =
        r.ledger.allSuccesses + r.ledger.allFailures + calls.length ∧
      after.allHandled + r.ledger.allFailures = r.ledger.allHandled + after.allFailures := by
  induction calls generalizing r with
  | nil =>
    have still : r.serve [] = r := rfl
    dsimp only
    rw [still, List.length_nil]
    omega
  | cons first rest ih =>
    obtain ⟨nanos, call⟩ := first
    obtain ⟨added, handled⟩ := r.sums_call nanos call
    obtain ⟨more, later⟩ := ih (r.call nanos call).1
    have steps : r.serve ((nanos, call) :: rest) = (r.call nanos call).1.serve rest := rfl
    dsimp only at added handled more later ⊢
    rw [steps, List.length_cons]
    omega

/-- Whatever has been called before, a call is accounted for once: a message by one success and one
sample under its kind, a failure by one count under the kind and category of its cause, one under
the category of its wording and one line that names the kind. So there are as many successes and
failures as there are calls, and as many failures handled as there are failures. -/
theorem calls_counted_once (settings : RelaySettings) (calls : List (Nat × Call)) :
    let r := (make settings).serve calls
    (∀ nanos call,
      let (after, lines, outcome) := r.call nanos call
      Accounted call nanos r.ledger after.ledger lines outcome) ∧
    r.ledger.allSuccesses + r.ledger.allFailures = calls.length ∧
    r.ledger.allHandled = r.ledger.allFailures := by
  intro r
  have sums := (make settings).sums_serve calls
  have fresh : (make settings).ledger = .make settings.transform.samples := rfl
  obtain ⟨successes, failures, none⟩ := Ledger.sums_make settings.transform.samples
  rw [fresh, successes, failures, none] at sums
  obtain ⟨counted, handled⟩ := sums
  have served : (make settings).serve calls = r := rfl
  rw [served] at counted handled
  -- what led to `r` is of no use for the next call
  clear_value r
  refine ⟨r.accounted_call, ?_, ?_⟩
  · omega
  · omega

end Relay

end NotificationRelay
