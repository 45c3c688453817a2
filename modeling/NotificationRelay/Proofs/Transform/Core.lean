import Mathlib
import NotificationRelay.Proofs.Message.Blind
import NotificationRelay.Proofs.Transform.Parse

/-! What becomes of a payload depends on its core alone. Blanks, the order of members, members that
no field names, and whether a member is null or missing make no difference. -/
namespace NotificationRelay

open Json Transform

def Layout.core : Layout → List (String × Json) → Json
  | .flat, members => Input.ProjectMessage.shape.core (.object members)
  | .phased, members => (PhaseMessage.shape .received).core (.object members)

namespace Transform

/-- Outcomes that are the same but for the reason why a payload cannot be read. -/
inductive Alike {α : Type} : Outcome α → Outcome α → Prop where
  | same (outcome : Outcome α) : Alike outcome outcome
  | unread (kind : MessageKind) (reason reason' : String) :
      Alike (.error (.unreadable kind reason)) (.error (.unreadable kind reason'))

theorem alike_stages {ι α : Type} {nanos nanos' : Nat} {kind : MessageKind} {shape : Shape ι}
    {payload payload' : Bytes} {check : α → Except Violation Unit} {normal : ι → Noted Event α}
    {wrap : α → Notification} {event : α → Event}
    (same : (shape.decode payload).toOption = (shape.decode payload').toOption) :
    Alike (stages nanos kind shape payload check normal wrap event).value
      (stages nanos' kind shape payload' check normal wrap event).value := by
  cases read : shape.decode payload with
  | error f =>
    cases read' : shape.decode payload' with
    | error f' =>
      rw [(stages_unreadable read).1, (stages_unreadable read').1]
      exact .unread kind _ _
    | ok input => simp [read, read', Except.toOption] at same
  | ok input =>
    have read' : shape.decode payload' = .ok input := by
      cases other : shape.decode payload' with
      | error f => simp [read, other, Except.toOption] at same
      | ok input' => simpa [read, other, Except.toOption] using same.symm
    cases checked : check (normal input).value with
    | error v =>
      rw [(stages_unsound read checked).1, (stages_unsound read' checked).1]
      exact .same _
    | ok _ =>
      rw [(stages_sound read checked).1, (stages_sound read' checked).1]
      exact .same _

end Transform

section

variable {payload payload' : Bytes} {members members' : List (String × Json)}

theorem Rule.Blind.decode_eq {α : Type} {rule : Rule} {shape : Shape α} (blind : rule.Blind shape)
    (read : Json.read payload = .ok (.object members))
    (read' : Json.read payload' = .ok (.object members'))
    (distinct : (Json.object members).Distinct) (distinct' : (Json.object members').Distinct)
    (same : shape.core (.object members) = shape.core (.object members'))
    (ok : rule.check [] (.object members) = .ok ()) :
    (shape.decode payload).toOption = (shape.decode payload').toOption := by
  rw [Shape.decode_toOption shape read, Shape.decode_toOption shape read']
  exact (blind distinct distinct' same).2 ok

namespace Payload

theorem members_of_read (read : Json.read payload = .ok (.object members)) :
    Payload.members payload = .ok members := by
  rw [Payload.members, read]

theorem checkProject_of_read (read : Json.read payload = .ok (.object members)) :
    checkProject payload = inLayer "project input"
      ((schema (layout members)).check [] members >>= fun _ => .ok (layout members)) := by
  rw [checkProject, members_of_read read]
  rfl

theorem checkJob_of_read (read : Json.read payload = .ok (.object members)) :
    checkJob payload = inLayer "job input" (Schema.job.check [] members) := by
  rw [checkJob, members_of_read read]
  rfl

end Payload

namespace Transform

theorem alike_project (nanos nanos' : Nat) (read : Json.read payload = .ok (.object members))
    (read' : Json.read payload' = .ok (.object members'))
    (distinct : (Json.object members).Distinct) (distinct' : (Json.object members').Distinct)
    (layouts : Payload.layout members = Payload.layout members')
    (same : (Payload.layout members).core members = (Payload.layout members).core members') :
    Alike (project nanos payload).value (project nanos' payload').value := by
  -- the check sees the core only, so that both are refused in the same words or both accepted
  have checked : (Payload.schema (Payload.layout members)).check [] members =
      (Payload.schema (Payload.layout members)).check [] members' := by
    rw [← Rule.check_object, ← Rule.check_object]
    cases layout : Payload.layout members with
    | flat =>
      rw [layout] at same
      exact (project_blind distinct distinct' same).1
    | phased =>
      rw [layout] at same
      exact (projectPhase_blind distinct distinct' same).1
  have verdict : Payload.checkProject payload = Payload.checkProject payload' := by
    rw [Payload.checkProject_of_read read, Payload.checkProject_of_read read', ← layouts, checked]
  cases accepted : Payload.checkProject payload with
  | error v =>
    rw [(project_refused accepted).1, (project_refused (verdict ▸ accepted)).1]
    exact .same _
  | ok layout =>
    rw [(project_accepted accepted).1, (project_accepted (verdict ▸ accepted)).1]
    obtain ⟨_, found, rfl, ok⟩ := Payload.checkProject_success accepted
    cases read.symm.trans found
    cases layout : Payload.layout members with
    | flat =>
      rw [layout] at same ok
      exact alike_stages (project_blind.decode_eq read read' distinct distinct' same ok)
    | phased =>
      rw [layout] at same ok
      exact alike_stages (projectPhase_blind.decode_eq read read' distinct distinct' same ok)

theorem alike_job (nanos nanos' : Nat) (read : Json.read payload = .ok (.object members))
    (read' : Json.read payload' = .ok (.object members'))
    (distinct : (Json.object members).Distinct) (distinct' : (Json.object members').Distinct)
    (same : Input.JobMessage.shape.core (.object members) =
      Input.JobMessage.shape.core (.object members')) :
    Alike (job nanos payload).value (job nanos' payload').value := by
  have checked := (@job_blind [] _ _ distinct distinct' same).1
  rw [Rule.check_object, Rule.check_object] at checked
  have verdict : Payload.checkJob payload = Payload.checkJob payload' := by
    rw [Payload.checkJob_of_read read, Payload.checkJob_of_read read', checked]
  cases accepted : Payload.checkJob payload with
  | error v =>
    rw [(job_refused accepted).1, (job_refused (verdict ▸ accepted)).1]
    exact .same _
  | ok _ =>
    rw [job_accepted accepted, job_accepted (verdict ▸ accepted)]
    obtain ⟨_, found, ok⟩ := Payload.checkJob_success accepted
    cases read.symm.trans found
    exact alike_stages (job_blind.decode_eq read read' distinct distinct' same ok)

/-- Two payloads with one core, in which no object has a key twice, come out alike. -/
theorem only_core_matters (nanos nanos' : Nat) (read : Json.read payload = .ok (.object members))
    (read' : Json.read payload' = .ok (.object members'))
    (distinct : (Json.object members).Distinct) (distinct' : (Json.object members').Distinct) :
    (Payload.layout members = Payload.layout members' →
      (Payload.layout members).core members = (Payload.layout members).core members' →
      Alike (project nanos payload).value (project nanos' payload').value) ∧
    (Input.JobMessage.shape.core (.object members) =
        Input.JobMessage.shape.core (.object members') →
      Alike (job nanos payload).value (job nanos' payload').value) := by
  refine ⟨fun layouts same => ?_, fun same => ?_⟩
  · exact alike_project nanos nanos' read read' distinct distinct' layouts same
  · exact alike_job nanos nanos' read read' distinct distinct' same

end Transform

end

namespace Transform

/-- A job with blanks, a null status and a member that no field names. -/
def wordy : Bytes :=
  Utf8.encode "\x7b \"status\": null, \"note\": \x7b\"a\": 1\x7d, \"platform\": \"TIKTOK\" \x7d"

def terse : Bytes := Utf8.encode "\x7b\"platform\":\"TIKTOK\"\x7d"

def remarks : List (String × Json) :=
  [("status", .null), ("note", .object [("a", .number (.natural 1))])]

theorem only_core_matters_terse :
    Alike (project 0 wordy).value (project 1 terse).value ∧
      Alike (job 0 wordy).value (job 1 terse).value := by
  have read : Json.read wordy = .ok (.object (remarks ++ [("platform", .text "TIKTOK")])) := by cbv
  have read' : Json.read terse = .ok (.object [("platform", .text "TIKTOK")]) := by cbv
  have once : ((remarks ++ [("platform", Json.text "TIKTOK")]).map (·.1)).Nodup := by decide
  have note : (Json.object [("a", .number (.natural 1))]).Distinct :=
    .object (by decide) (by simpa using Distinct.number _)
  have distinct : (Json.object (remarks ++ [("platform", .text "TIKTOK")])).Distinct :=
    .object once (by simpa [remarks] using ⟨.null, note, .text _⟩)
  have distinct' : (Json.object [("platform", .text "TIKTOK")]).Distinct :=
    .object (by decide) (by simpa using Distinct.text _)
  have same : Input.JobMessage.shape.core (.object (remarks ++ [("platform", .text "TIKTOK")])) =
      Input.JobMessage.shape.core (.object [("platform", .text "TIKTOK")]) :=
    Shape.core_of_perm once (.refl _) (by decide)
  obtain ⟨ofProject, ofJob⟩ := only_core_matters 0 1 read read' distinct distinct'
  exact ⟨ofProject (by decide) rfl, ofJob same⟩

end Transform

end NotificationRelay
