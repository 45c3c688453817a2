import NotificationRelay.Proofs.Transform.Outcome

/-! Reports of failures among the notes. Nothing on the way of a payload is a report; a failure that
is handled afterwards is reported once, under the kind it is counted under. -/
namespace NotificationRelay

def Event.report? : Event → Option Report
  | .failed report => some report
  | _ => none

def Entry.report? : Entry → Option Report
  | .count _ => none
  | .event e => e.report?

namespace Noted

variable {α β : Type}

def Quiet (x : Noted Event α) : Prop := ∀ e ∈ x.notes, e.report? = none

theorem quiet_pure (a : α) : Quiet (pure a : Noted Event α) := nofun

theorem quiet_note {e : Event} (other : e.report? = none) : Quiet (note e) := by
  intro e' member
  rw [notes_note, List.mem_singleton] at member
  exact member ▸ other

theorem Quiet.bind {x : Noted Event α} {f : α → Noted Event β} (first : Quiet x)
    (next : ∀ a, Quiet (f a)) : Quiet (x >>= f) := by
  intro e member
  rw [notes_bind, List.mem_append] at member
  rcases member with early | late
  · exact first e early
  · exact next x.value e late

end Noted

open Noted

theorem quiet_onSome {α β : Type} {f : α → Noted Event β} (quiet : ∀ a, Quiet (f a)) :
    (slot : Option α) → Quiet (onSome f slot)
  | some a => (quiet a).bind fun _ => quiet_pure _
  | none => quiet_pure _

theorem quiet_clampPercent (path : Path) (x : Binary64) : Quiet (clampPercent path x) := by
  intro e member
  rw [clampPercent] at member
  split at member
  · cases member
  · obtain rfl := List.mem_singleton.mp member
    rfl

theorem quiet_clampEta (x : Binary64) : Quiet (clampEta x) := by
  intro e member
  rw [clampEta] at member
  split at member
  · cases member
  · obtain rfl := List.mem_singleton.mp member
    rfl

theorem quiet_progress (p : Input.Progress) : Quiet (Progress.ofInput p) :=
  (quiet_clampPercent _ _).bind fun _ => (quiet_clampEta _).bind fun _ => quiet_pure _

theorem quiet_projectMessage (m : Input.ProjectMessage) : Quiet (ProjectMessage.ofInput m) :=
  (quiet_onSome quiet_progress _).bind fun _ => quiet_pure _

theorem quiet_phaseProgress (path : Path) (p : PhaseProgress) : Quiet (p.normalize path) :=
  (quiet_clampPercent _ _).bind fun _ => quiet_pure _

theorem quiet_phaseMessage (m : PhaseMessage) : Quiet m.normalize :=
  (quiet_onSome (quiet_phaseProgress _) _).bind fun _ =>
    (quiet_onSome (quiet_phaseProgress _) _).bind fun _ =>
      (quiet_clampPercent _ _).bind fun _ => quiet_pure _

theorem quiet_siftFrom (seen : List String) (contents : List Content) :
    Quiet (siftFrom seen contents) := by
  induction contents generalizing seen with
  | nil => exact quiet_pure _
  | cons c rest ih =>
    rw [siftFrom]
    split
    · exact (quiet_note rfl).bind fun _ => (ih seen).bind fun _ => quiet_pure _
    · exact (ih (c.id :: seen)).bind fun _ => quiet_pure _

theorem quiet_batch (b : Input.Batch) : Quiet (Batch.ofInput b) := by
  refine (quiet_siftFrom [] _).bind fun sifted => ?_
  dsimp only
  split
  · exact (quiet_note rfl).bind fun _ => quiet_pure _
  · exact (quiet_pure _).bind fun _ => quiet_pure _

theorem quiet_jobMessage (m : Input.JobMessage) : Quiet (JobMessage.ofInput m) :=
  (quiet_onSome quiet_progress _).bind fun _ =>
    (quiet_onSome quiet_batch _).bind fun _ => quiet_pure _

namespace Transform

open Json

variable {α β : Type}

def reports (x : Noted Entry α) : List Report := x.notes.filterMap Entry.report?

@[simp]
theorem reports_pure (a : α) : reports (pure a : Noted Entry α) = [] := rfl

@[simp]
theorem reports_bind (x : Noted Entry α) (f : α → Noted Entry β) :
    reports (x >>= f) = reports x ++ reports (f x.value) := by
  rw [reports, notes_bind, List.filterMap_append, reports, reports]

theorem reports_mapNotes {x : Noted Event α} (quiet : Quiet x) :
    reports (x.mapNotes .event) = [] := by
  rw [reports, notes_mapNotes, List.filterMap_map]
  exact List.filterMap_eq_nil_iff.mpr quiet

theorem reports_andThen {result : Noted Entry (Outcome α)} {next : α → Noted Entry (Outcome β)}
    (first : reports result = []) (later : ∀ a, reports (next a) = []) :
    reports (andThen result next) = [] := by
  rw [andThen, reports_bind, first]
  cases result.value with
  | ok a => exact later a
  | error failure => rfl

theorem reports_checked (kind : MessageKind) (check : α → Except Violation Unit)
    {message : Noted Event α} (quiet : Quiet message) :
    reports (checked kind check message) = [] := by
  rw [checked, reports_bind, reports_mapNotes quiet]
  split <;> rfl

theorem reports_readAs (kind : MessageKind) (shape : Shape α) (payload : Bytes) :
    reports (readAs kind shape payload) = [] := by
  rw [readAs]
  split <;> rfl

theorem reports_succeeded (nanos : Nat) (message : Notification) {e : Event}
    (other : e.report? = none) : reports (succeeded nanos message e) = [] := by
  change [Entry.count (.success message.kind nanos), .event e].filterMap Entry.report? = []
  simp [Entry.report?, other]

theorem reports_stages {ι : Type} (nanos : Nat) (kind : MessageKind) (shape : Shape ι)
    (payload : Bytes) (check : α → Except Violation Unit) {normal : ι → Noted Event α}
    (wrap : α → Notification) {event : α → Event} (quiet : ∀ input, Quiet (normal input))
    (other : ∀ a, (event a).report? = none) :
    reports (stages nanos kind shape payload check normal wrap event) = [] := by
  refine reports_andThen (reports_readAs kind shape payload) fun input => ?_
  refine reports_andThen (reports_checked kind check (quiet input)) fun message => ?_
  exact reports_succeeded nanos (wrap message) (other message)

theorem reports_layoutOf (payload : Bytes) : reports (layoutOf payload) = [] := by
  rw [layoutOf]
  cases Payload.members payload <;> cases Payload.checkProject payload <;> rfl

/-- Before a failure is handled there is no report. -/
theorem reports_ofKind (resource : Topic.Kind) (nanos : Nat) (payload : Bytes) :
    reports (ofKind resource nanos payload) = [] := by
  cases resource with
  | project =>
    refine reports_andThen (reports_layoutOf payload) fun layout => ?_
    cases layout with
    | flat =>
      exact reports_stages nanos .project _ payload _ _ quiet_projectMessage fun _ => rfl
    | phased =>
      exact reports_stages nanos .projectPhase _ payload _ _ quiet_phaseMessage fun _ => rfl
  | job =>
    change reports (job nanos payload) = []
    rw [job]
    split
    · rfl
    · exact reports_stages nanos .job _ payload _ _ quiet_jobMessage fun _ => rfl

section

variable {result : Noted Entry (Outcome α)} (limit : Nat) (kind : MessageKind)
  (channel : Option String) (payload : Bytes)

theorem reporting_ok {a : α} (ok : result.value = .ok a) :
    (reporting limit kind channel payload result).value = .ok a ∧
      counts (reporting limit kind channel payload result) = counts result ∧
      reports (reporting limit kind channel payload result) = reports result := by
  rw [reporting, value_bind, counts_bind, reports_bind, ok]
  simp

theorem reporting_error {failure : Failure} (fails : result.value = .error failure) :
    (reporting limit kind channel payload result).value = .error failure ∧
      counts (reporting limit kind channel payload result) =
        counts result ++ [.handled failure.category] ∧
      reports (reporting limit kind channel payload result) = reports result ++
        [.make limit failure.message (failure.kind?.getD kind) channel payload] := by
  rw [reporting, value_bind, counts_bind, reports_bind, fails]
  exact ⟨rfl, rfl, rfl⟩

/-- A report leaves the result as it is. -/
theorem value_reporting (result : Noted Entry (Outcome α)) :
    (reporting limit kind channel payload result).value = result.value := by
  cases value : result.value with
  | ok a => exact (reporting_ok limit kind channel payload value).1
  | error failure => exact (reporting_error limit kind channel payload value).1

end

section

variable (limit nanos : Nat) {channel : String} (payload : Bytes)

theorem value_onChannel_error {v : Violation} (rejected : Topic.parse channel = .error v) :
    (onChannel limit nanos channel payload).value = .error (.topic v) := by
  rw [onChannel, rejected]
  exact value_reporting limit .unknown (some channel) payload _

theorem value_onChannel_ok {topic : Topic} (parsed : Topic.parse channel = .ok topic) :
    (onChannel limit nanos channel payload).value =
      (ofKind topic.kind nanos payload).value.map fun message => (topic, message) := by
  rw [onChannel, parsed]
  dsimp only
  rw [andThen, value_bind, value_reporting]
  cases (ofKind topic.kind nanos payload).value <;> rfl

end

end Transform

end NotificationRelay
