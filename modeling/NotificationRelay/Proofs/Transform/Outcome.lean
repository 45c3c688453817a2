import NotificationRelay.Proofs.Transform.Output

/-! What becomes of a payload: it breaks its schema, or it cannot be read, or a message is made of
it. There is no other outcome, and each is accounted for in one way. -/
namespace NotificationRelay

open Json

def Layout.kind : Layout → MessageKind
  | .flat => .project
  | .phased => .projectPhase

def Payload.kind (resource : Topic.Kind) (payload : Bytes) : Except Violation MessageKind :=
  match resource with
  | .project => (checkProject payload).map Layout.kind
  | .job => (checkJob payload).map fun _ => .job

namespace Transform

inductive Comes (nanos : Nat) (kind : MessageKind) (result : Noted Entry (Outcome Notification)) :
    Prop where
  | unread (reason : String) (value : result.value = .error (.unreadable kind reason))
      (counted : counts result = [.failure kind .jsonParse])
  | made (message : Notification) (named : message.kind = kind) (value : result.value = .ok message)
      (counted : counts result = [.success kind nanos])

theorem comes_of_stages {ι α : Type} {nanos : Nat} {kind : MessageKind} {shape : Shape ι}
    {payload : Bytes} {check : α → Except Violation Unit} {normal : ι → Noted Event α}
    {wrap : α → Notification} {event : α → Event} {result : Noted Entry (Outcome Notification)}
    (value : result.value = (stages nanos kind shape payload check normal wrap event).value)
    (counted : counts result = counts (stages nanos kind shape payload check normal wrap event))
    (same : ∀ a, (wrap a).check = check a) (named : ∀ a, (wrap a).kind = kind)
    (sound : ∀ input, shape.decode payload = .ok input → (wrap (normal input).value).Sound) :
    Comes nanos kind result := by
  cases read : shape.decode payload with
  | error f =>
    rw [(stages_unreadable read).1] at value
    rw [(stages_unreadable read).2] at counted
    exact .unread _ value counted
  | ok input =>
    -- the check of what is made never fails, so there is no third way
    have passes := Notification.check_iff.mpr (sound input read)
    have checked : check (normal input).value = .ok () := (same _).symm.trans passes
    rw [(stages_sound read checked).1] at value
    rw [(stages_sound read checked).2, named] at counted
    exact .made _ (named _) value counted

variable {resource : Topic.Kind} {payload : Bytes} (nanos : Nat)

theorem ofKind_refused {v : Violation} (refused : Payload.kind resource payload = .error v) :
    (ofKind resource nanos payload).value = .error (.payload v) ∧
      counts (ofKind resource nanos payload) = [.failure (kindOf resource) .validation] := by
  cases resource with
  | project => exact project_refused (map_failure refused)
  | job => exact job_refused (map_failure refused)

theorem ofKind_accepted {kind : MessageKind} (accepted : Payload.kind resource payload = .ok kind) :
    Comes nanos kind (ofKind resource nanos payload) := by
  cases resource with
  | project =>
    obtain ⟨layout, checked, rfl⟩ := map_success accepted
    obtain ⟨value, counted⟩ := @project_accepted nanos _ _ checked
    obtain ⟨members, read, _, ok⟩ := Payload.checkProject_success checked
    cases layout with
    | flat =>
      refine comes_of_stages value counted (fun _ => rfl) (fun _ => rfl) fun input decoded => ?_
      exact ProjectMessage.sound_ofInput (project_assures.of_decode read ok decoded)
    | phased =>
      refine comes_of_stages value counted (fun _ => rfl) (fun _ => rfl) fun input decoded => ?_
      exact PhaseMessage.sound_normalize (projectPhase_assures.of_decode read ok decoded)
  | job =>
    obtain ⟨⟨⟩, checked, rfl⟩ := map_success accepted
    have steps : ofKind .job nanos payload = jobStages nanos payload := job_accepted checked
    obtain ⟨members, read, ok⟩ := Payload.checkJob_success checked
    refine comes_of_stages (congrArg Noted.value steps) (congrArg counts steps) (fun _ => rfl)
      (fun _ => rfl) fun input decoded => ?_
    exact JobMessage.sound_ofInput (job_assures.of_decode read ok decoded)

/-- Why a payload fails, and the kind and the category that the failure is counted under. -/
inductive Cause (resource : Topic.Kind) (payload : Bytes) :
    Failure → MessageKind → Category → Prop where
  | schema {v : Violation} (broken : Payload.kind resource payload = .error v) :
      Cause resource payload (.payload v) (kindOf resource) .validation
  | unread {kind : MessageKind} (kept : Payload.kind resource payload = .ok kind)
      (reason : String) : Cause resource payload (.unreadable kind reason) kind .jsonParse

/-- A payload fails for one of its causes and is counted once, or it becomes a message of its kind
and is counted once. -/
theorem ofKind_cases (resource : Topic.Kind) (nanos : Nat) (payload : Bytes) :
    (∃ failure kind category, Cause resource payload failure kind category ∧
      (ofKind resource nanos payload).value = .error failure ∧
      counts (ofKind resource nanos payload) = [.failure kind category]) ∨
    ∃ message : Notification, Payload.kind resource payload = .ok message.kind ∧
      (ofKind resource nanos payload).value = .ok message ∧
      counts (ofKind resource nanos payload) = [.success message.kind nanos] := by
  cases checked : Payload.kind resource payload with
  | error v =>
    obtain ⟨value, counted⟩ := ofKind_refused nanos checked
    exact .inl ⟨_, _, _, .schema checked, value, counted⟩
  | ok kind =>
    cases ofKind_accepted nanos checked with
    | unread reason value counted =>
      exact .inl ⟨_, _, _, .unread checked reason, value, counted⟩
    | made message named value counted =>
      subst named
      exact .inr ⟨message, rfl, value, counted⟩

end Transform

end NotificationRelay
