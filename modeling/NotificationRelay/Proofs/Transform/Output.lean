import NotificationRelay.Proofs.Message.Received
import NotificationRelay.Proofs.Transform.Parse

/-! Messages that come out. What passes the schema and is read has a normal form that passes its
check, so no payload is ever refused for what it has been made into. -/
namespace NotificationRelay

open Json

theorem Rule.Assures.of_decode {α : Type} {rule : Rule} {shape : Shape α} {good : α → Prop}
    (assures : rule.Assures shape good) {payload : Bytes} {members : List (String × Json)}
    (read : Json.read payload = .ok (.object members))
    (ok : rule.check [] (.object members) = .ok ()) {input : α}
    (decoded : shape.decode payload = .ok input) : good input := by
  refine assures (sound_read read) rfl ok ?_
  rw [← Shape.decode_toOption shape read, decoded]
  rfl

namespace Transform

structure OnlySound (result : Noted Entry (Outcome Notification)) : Prop where
  refuses : ∀ kind v, result.value ≠ .error (.unsound kind v)
  counted : ∀ kind, Count.failure kind .outputValidation ∉ counts result
  passes : ∀ message, result.value = .ok message → message.check = .ok () ∧ message.Sound

theorem onlySound_of_refusal {result : Noted Entry (Outcome Notification)} {failure : Failure}
    {kind : MessageKind} {category : Category} (value : result.value = .error failure)
    (counted : counts result = [.failure kind category])
    (other : ∀ kind v, failure ≠ .unsound kind v) (apart : category ≠ .outputValidation) :
    OnlySound result := by
  refine ⟨?_, ?_, ?_⟩
  · intro kind v refused
    rw [value, Except.error.injEq] at refused
    exact other kind v refused
  · intro kind among
    rw [counted, List.mem_singleton, Count.failure.injEq] at among
    exact apart among.2.symm
  · intro message delivered
    rw [value] at delivered
    cases delivered

theorem onlySound_of_stages {ι α : Type} {nanos : Nat} {kind : MessageKind} {shape : Shape ι}
    {payload : Bytes} {check : α → Except Violation Unit} {normal : ι → Noted Event α}
    {wrap : α → Notification} {event : α → Event} {result : Noted Entry (Outcome Notification)}
    (value : result.value = (stages nanos kind shape payload check normal wrap event).value)
    (counted : counts result = counts (stages nanos kind shape payload check normal wrap event))
    (same : ∀ a, (wrap a).check = check a)
    (sound : ∀ input, shape.decode payload = .ok input → (wrap (normal input).value).Sound) :
    OnlySound result := by
  cases read : shape.decode payload with
  | error f =>
    rw [(stages_unreadable read).1] at value
    rw [(stages_unreadable read).2] at counted
    exact onlySound_of_refusal value counted nofun nofun
  | ok input =>
    have passes := Notification.check_iff.mpr (sound input read)
    have checked : check (normal input).value = .ok () := (same _).symm.trans passes
    rw [(stages_sound read checked).1] at value
    rw [(stages_sound read checked).2] at counted
    refine ⟨?_, ?_, ?_⟩
    · intro kind v refused
      rw [value] at refused
      cases refused
    · intro kind
      simp [counted]
    · intro message delivered
      rw [value] at delivered
      cases delivered
      exact ⟨passes, sound input read⟩

/-- No payload is refused for its normal form, and every message that comes out passes its check:
its percentages are in range, its numbers finite, its posts named and distinct. -/
theorem only_sound_delivered (nanos : Nat) (payload : Bytes) :
    OnlySound (project nanos payload) ∧ OnlySound (job nanos payload) := by
  constructor
  · cases accepted : Payload.checkProject payload with
    | error v =>
      obtain ⟨value, counted⟩ := project_refused accepted
      exact onlySound_of_refusal value counted nofun nofun
    | ok layout =>
      obtain ⟨value, counted⟩ := project_accepted accepted
      obtain ⟨members, read, _, ok⟩ := Payload.checkProject_success accepted
      cases layout with
      | flat =>
        refine onlySound_of_stages value counted (fun _ => rfl) fun input decoded => ?_
        exact ProjectMessage.sound_ofInput (project_assures.of_decode read ok decoded)
      | phased =>
        refine onlySound_of_stages value counted (fun _ => rfl) fun input decoded => ?_
        exact PhaseMessage.sound_normalize (projectPhase_assures.of_decode read ok decoded)
  · cases accepted : Payload.checkJob payload with
    | error v =>
      obtain ⟨value, counted⟩ := job_refused accepted
      exact onlySound_of_refusal value counted nofun nofun
    | ok _ =>
      have steps : job nanos payload = jobStages nanos payload := job_accepted accepted
      obtain ⟨members, read, ok⟩ := Payload.checkJob_success accepted
      refine onlySound_of_stages (congrArg Noted.value steps) (congrArg counts steps) (fun _ => rfl)
        fun input decoded => ?_
      exact JobMessage.sound_ofInput (job_assures.of_decode read ok decoded)

end Transform

end NotificationRelay
