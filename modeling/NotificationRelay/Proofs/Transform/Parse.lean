import NotificationRelay.Proofs.Message.Readable
import NotificationRelay.Proofs.Transform.Stages

/-! Payloads that keep their schema and cannot be read as a message. There are such payloads: the
check looks at the last value of a key and has no rule for two fields of a medium, the reader takes
no key twice and wants both fields to be texts. There are no others. -/
namespace NotificationRelay

open Json Transform

namespace Payload

variable {payload : Bytes} {members : List (String × Json)} {layout : Layout}

theorem members_success (ok : Payload.members payload = .ok members) :
    Json.read payload = .ok (.object members) := by
  unfold Payload.members at ok
  split at ok
  · rename_i found
    cases ok
    exact found
  · cases ok
  · cases ok

theorem inLayer_success {α : Type} {layer : String} {result : Except Violation α} {a : α}
    (ok : inLayer layer result = .ok a) : result = .ok a := by
  cases result with
  | error v => cases ok
  | ok b => exact ok

/-- An accepted project payload is an object that keeps the schema of its layout. -/
theorem checkProject_success (ok : checkProject payload = .ok layout) :
    ∃ members, Json.read payload = .ok (.object members) ∧ layout = Payload.layout members ∧
      (Rule.object (schema layout)).check [] (.object members) = .ok () := by
  obtain ⟨members, found, ok⟩ := bind_success (inLayer_success ok)
  obtain ⟨_, passed, ok⟩ := bind_success ok
  cases ok
  exact ⟨members, members_success found, rfl, by rw [Rule.check, Members.checkObject]; exact passed⟩

theorem checkJob_success (ok : checkJob payload = .ok ()) :
    ∃ members, Json.read payload = .ok (.object members) ∧
      (Rule.object Schema.job).check [] (.object members) = .ok () := by
  obtain ⟨members, found, passed⟩ := bind_success (inLayer_success ok)
  exact ⟨members, members_success found, by rw [Rule.check, Members.checkObject]; exact passed⟩

end Payload

theorem Rule.Grants.fails_iff {α : Type} {rule : Rule} {shape : Shape α} {gap : Json → Prop}
    (grants : rule.Grants shape gap) {payload : Bytes} {members : List (String × Json)}
    (read : Json.read payload = .ok (.object members))
    (ok : rule.check [] (.object members) = .ok ()) :
    Fails (shape.decode payload) ↔ ∃ j, Json.read payload = .ok j ∧ (shape.Repeats j ∨ gap j) := by
  rw [← toOption_eq_none, Shape.decode_toOption shape read, grants (sound_read read) rfl ok, read]
  simp

namespace Payload

/-- The payload keeps its schema, and reading it as a message of its layout fails. -/
def ProjectUnread (payload : Bytes) : Prop :=
  (checkProject payload = .ok .flat ∧ Fails (Input.ProjectMessage.shape.decode payload)) ∨
    (checkProject payload = .ok .phased ∧ Fails ((PhaseMessage.shape .received).decode payload))

def JobUnread (payload : Bytes) : Prop :=
  checkJob payload = .ok () ∧ Fails (Input.JobMessage.shape.decode payload)

/-- The payload keeps its schema, and some record in it has one of its keys twice. -/
def ProjectRepeats (payload : Bytes) : Prop :=
  ∃ j, Json.read payload = .ok j ∧
    ((checkProject payload = .ok .flat ∧ Input.ProjectMessage.shape.Repeats j) ∨
      (checkProject payload = .ok .phased ∧ (PhaseMessage.shape .received).Repeats j))

/-- The same of a job, or some post in it has a medium whose thumbnail or address is no text. -/
def JobGap (payload : Bytes) : Prop :=
  ∃ j, Json.read payload = .ok j ∧ checkJob payload = .ok () ∧
    (Input.JobMessage.shape.Repeats j ∨ JobMessage.Mistyped j)

theorem projectUnread_iff (payload : Bytes) : ProjectUnread payload ↔ ProjectRepeats payload := by
  have flat : checkProject payload = .ok .flat → (Fails (Input.ProjectMessage.shape.decode payload) ↔
      ∃ j, Json.read payload = .ok j ∧ (Input.ProjectMessage.shape.Repeats j ∨ False)) := by
    intro accepted
    obtain ⟨members, read, _, ok⟩ := checkProject_success accepted
    exact project_grants.fails_iff read ok
  have phased : checkProject payload = .ok .phased →
      (Fails ((PhaseMessage.shape .received).decode payload) ↔
        ∃ j, Json.read payload = .ok j ∧ ((PhaseMessage.shape .received).Repeats j ∨ False)) := by
    intro accepted
    obtain ⟨members, read, _, ok⟩ := checkProject_success accepted
    exact projectPhase_grants.fails_iff read ok
  unfold ProjectUnread ProjectRepeats
  rw [and_congr_right flat, and_congr_right phased]
  simp only [or_false]
  constructor
  · rintro (⟨accepted, j, read, twice⟩ | ⟨accepted, j, read, twice⟩)
    · exact ⟨j, read, .inl ⟨accepted, twice⟩⟩
    · exact ⟨j, read, .inr ⟨accepted, twice⟩⟩
  · rintro ⟨j, read, ⟨accepted, twice⟩ | ⟨accepted, twice⟩⟩
    · exact .inl ⟨accepted, j, read, twice⟩
    · exact .inr ⟨accepted, j, read, twice⟩

theorem jobUnread_iff (payload : Bytes) : JobUnread payload ↔ JobGap payload := by
  have job : checkJob payload = .ok () → (Fails (Input.JobMessage.shape.decode payload) ↔
      ∃ j, Json.read payload = .ok j ∧
        (Input.JobMessage.shape.Repeats j ∨ JobMessage.Mistyped j)) := by
    intro accepted
    obtain ⟨members, read, ok⟩ := checkJob_success accepted
    exact job_grants.fails_iff read ok
  unfold JobUnread JobGap
  rw [and_congr_right job]
  constructor
  · rintro ⟨accepted, j, read, gap⟩
    exact ⟨j, read, accepted, gap⟩
  · rintro ⟨j, read, accepted, gap⟩
    exact ⟨accepted, j, read, gap⟩

end Payload

namespace Transform

def SaysUnread (result : Noted Entry (Outcome Notification)) : Prop :=
  ∃ kind reason, result.value = .error (.unreadable kind reason)

def CountsUnread (result : Noted Entry (Outcome Notification)) : Prop :=
  ∃ kind, Count.failure kind .jsonParse ∈ counts result

theorem stages_unread {ι α : Type} {nanos : Nat} {kind : MessageKind} {shape : Shape ι}
    {payload : Bytes} {check : α → Except Violation Unit} {normal : ι → Noted Event α}
    {wrap : α → Notification} {event : α → Event} {result : Noted Entry (Outcome Notification)}
    (value : result.value = (stages nanos kind shape payload check normal wrap event).value)
    (counted : counts result = counts (stages nanos kind shape payload check normal wrap event)) :
    (SaysUnread result ↔ Fails (shape.decode payload)) ∧
      (CountsUnread result ↔ Fails (shape.decode payload)) := by
  rw [SaysUnread, CountsUnread, value, counted]
  cases read : shape.decode payload with
  | error f =>
    rw [(stages_unreadable read).1, (stages_unreadable read).2]
    exact ⟨iff_of_true ⟨kind, _, rfl⟩ ⟨f, rfl⟩, iff_of_true ⟨kind, by simp⟩ ⟨f, rfl⟩⟩
  | ok input =>
    have decoded : ¬ Fails (Except.ok input : Except Json.Fault ι) := by
      rintro ⟨f, impossible⟩
      cases impossible
    cases passed : check (normal input).value with
    | error v =>
      rw [(stages_unsound read passed).1, (stages_unsound read passed).2]
      exact ⟨iff_of_false (by simp) decoded, iff_of_false (by simp) decoded⟩
    | ok _ =>
      rw [(stages_sound read passed).1, (stages_sound read passed).2]
      exact ⟨iff_of_false (by simp) decoded, iff_of_false (by simp) decoded⟩

theorem project_unread (nanos : Nat) (payload : Bytes) :
    (SaysUnread (project nanos payload) ↔ Payload.ProjectUnread payload) ∧
      (CountsUnread (project nanos payload) ↔ Payload.ProjectUnread payload) := by
  cases accepted : Payload.checkProject payload with
  | error v =>
    obtain ⟨value, counted⟩ := project_refused accepted
    rw [SaysUnread, CountsUnread, Payload.ProjectUnread, value, counted, accepted]
    simp
  | ok layout =>
    obtain ⟨value, counted⟩ := project_accepted accepted
    cases layout with
    | flat =>
      obtain ⟨answered, counts⟩ := stages_unread value counted
      rw [answered, counts, Payload.ProjectUnread, accepted]
      simp
    | phased =>
      obtain ⟨answered, counts⟩ := stages_unread value counted
      rw [answered, counts, Payload.ProjectUnread, accepted]
      simp

theorem job_unread (nanos : Nat) (payload : Bytes) :
    (SaysUnread (job nanos payload) ↔ Payload.JobUnread payload) ∧
      (CountsUnread (job nanos payload) ↔ Payload.JobUnread payload) := by
  cases accepted : Payload.checkJob payload with
  | error v =>
    obtain ⟨value, counted⟩ := job_refused accepted
    rw [SaysUnread, CountsUnread, Payload.JobUnread, value, counted, accepted]
    simp
  | ok _ =>
    have steps : job nanos payload = jobStages nanos payload := job_accepted accepted
    obtain ⟨answered, counts⟩ := stages_unread (congrArg Noted.value steps) (congrArg counts steps)
    rw [answered, counts, Payload.JobUnread, accepted]
    simp

/-- A payload that keeps its schema fails to be read, is answered as unreadable and is counted as
such exactly if some record in it has one of its keys twice, or if it is a job and some post in it
has a medium whose thumbnail or address is there and no text. -/
theorem unread_exactly (nanos : Nat) (payload : Bytes) :
    (Payload.ProjectUnread payload ↔ Payload.ProjectRepeats payload) ∧
      (SaysUnread (project nanos payload) ↔ Payload.ProjectRepeats payload) ∧
      (CountsUnread (project nanos payload) ↔ Payload.ProjectRepeats payload) ∧
      (Payload.JobUnread payload ↔ Payload.JobGap payload) ∧
      (SaysUnread (job nanos payload) ↔ Payload.JobGap payload) ∧
      (CountsUnread (job nanos payload) ↔ Payload.JobGap payload) := by
  have project := Payload.projectUnread_iff payload
  have job := Payload.jobUnread_iff payload
  obtain ⟨projectSays, projectCounts⟩ := project_unread nanos payload
  obtain ⟨jobSays, jobCounts⟩ := job_unread nanos payload
  exact ⟨project, projectSays.trans project, projectCounts.trans project,
    job, jobSays.trans job, jobCounts.trans job⟩

end Transform

end NotificationRelay
