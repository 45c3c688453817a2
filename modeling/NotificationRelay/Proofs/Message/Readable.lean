import NotificationRelay.Message.Input
import NotificationRelay.Message.Phase
import NotificationRelay.Proofs.Message.Schema

/-! Which payloads that keep their schema can be read as messages. Each schema grants the shape of
its message; the only gap is in posts, where two fields of a medium have no rule. -/
namespace NotificationRelay

open Json
open Members (grants_none grants_required grants_optional grants_lenient judges_of_rule
  judges_unruled)
open Rule (natural_grants_word number_grants_real flag_grants_flag text_grants_text
  name_grants_text timestamp_grants_instant word_grants_choice texts_grants_texts
  object_grants_record object_grants_whole objects_grants_sequence)

/-- A thumbnail or an address that is there, not null and no text. -/
def Media.Mistyped (medium : Json) : Prop :=
  ∃ members, medium = .object members ∧
    ∃ key ∈ ["thumbnail", "url"], ∃ j, present key members = some j ∧ isText j = false

def Content.Mistyped (content : Json) : Prop :=
  ∃ members, content = .object members ∧
    ∃ medium, present "media" members = some medium ∧ Media.Mistyped medium

def Batch.Mistyped (batch : Json) : Prop :=
  ∃ members, batch = .object members ∧
    ∃ items, present "content_list" members = some (.list items) ∧
      ∃ content ∈ items, Content.Mistyped content

def JobMessage.Mistyped (job : Json) : Prop :=
  ∃ members, job = .object members ∧
    ∃ batch, present "batch" members = some batch ∧ Batch.Mistyped batch

theorem progress_grants :
    (Rule.object Schema.progress).Grants Input.Progress.shape fun _ => False :=
  object_grants_whole (by decide)
    (grants_lenient (judges_of_rule (by simp [Schema.progress]) natural_grants_word) <|
      grants_lenient (judges_of_rule (by simp [Schema.progress]) natural_grants_word) <|
      grants_lenient (judges_of_rule (by simp [Schema.progress]) number_grants_real) <|
      grants_lenient (judges_of_rule (by simp [Schema.progress]) number_grants_real) <|
      grants_optional (judges_of_rule (by simp [Schema.progress]) texts_grants_texts) <|
      grants_none _)
    (by simp)

theorem project_grants :
    (Rule.object Schema.project).Grants Input.ProjectMessage.shape fun _ => False :=
  object_grants_whole (by decide)
    (grants_optional
        (judges_of_rule (by simp [Schema.project]) (word_grants_choice _ Schema.refuseStatus)) <|
      grants_optional (judges_of_rule (by simp [Schema.project]) progress_grants) <|
      grants_none _)
    (by simp)

theorem phaseProgress_grants :
    (Rule.object Schema.phaseProgress).Grants (PhaseProgress.shape .received) fun _ => False :=
  object_grants_whole (by decide)
    (grants_lenient (judges_of_rule (by simp [Schema.phaseProgress]) natural_grants_word) <|
      grants_lenient (judges_of_rule (by simp [Schema.phaseProgress]) natural_grants_word) <|
      grants_lenient (judges_of_rule (by simp [Schema.phaseProgress]) natural_grants_word) <|
      grants_lenient (judges_of_rule (by simp [Schema.phaseProgress]) number_grants_real) <|
      grants_none _)
    (by simp)

theorem phasePayload_grants :
    (Rule.object Schema.phasePayload).Grants (PhasePayload.shape .received) fun _ => False :=
  object_grants_whole (by decide)
    (grants_required (by simp [Schema.phasePayload]) name_grants_text <|
      grants_required (by simp [Schema.phasePayload])
        (word_grants_choice _ Schema.refusePhaseStatus) <|
      grants_optional (judges_of_rule (by simp [Schema.phasePayload]) phaseProgress_grants) <|
      grants_optional (judges_of_rule (by simp [Schema.phasePayload]) phaseProgress_grants) <|
      grants_required (by simp [Schema.phasePayload]) number_grants_real <|
      grants_none _)
    (by simp)

theorem projectPhase_grants :
    (Rule.object Schema.projectPhase).Grants (PhaseMessage.shape .received) fun _ => False :=
  object_grants_whole (by decide)
    (grants_required (by simp [Schema.projectPhase]) (word_grants_choice _ Schema.refuseEvent) <|
      grants_required (by simp [Schema.projectPhase]) phasePayload_grants <|
      grants_none _)
    (by simp)

theorem author_grants :
    (Rule.object Schema.author).Grants (Author.shape .received) fun _ => False :=
  object_grants_whole (by decide)
    (grants_lenient (judges_of_rule (by simp [Schema.author]) text_grants_text) <|
      grants_lenient (judges_of_rule (by simp [Schema.author]) text_grants_text) <|
      grants_lenient (judges_of_rule (by simp [Schema.author]) text_grants_text) <|
      grants_lenient (judges_of_rule (by simp [Schema.author]) natural_grants_word) <|
      grants_lenient (judges_of_rule (by simp [Schema.author]) flag_grants_flag) <|
      grants_optional (judges_of_rule (by simp [Schema.author]) text_grants_text) <|
      grants_none _)
    (by simp)

theorem reach_grants :
    (Rule.object Schema.reach).Grants (Reach.shape .received) fun _ => False :=
  object_grants_whole (by decide)
    (grants_lenient (judges_of_rule (by simp [Schema.reach]) natural_grants_word) <|
      grants_lenient (judges_of_rule (by simp [Schema.reach]) natural_grants_word) <|
      grants_lenient (judges_of_rule (by simp [Schema.reach]) natural_grants_word) <|
      grants_lenient (judges_of_rule (by simp [Schema.reach]) natural_grants_word) <|
      grants_lenient (judges_of_rule (by simp [Schema.reach]) number_grants_real) <|
      grants_none _)
    (by simp)

theorem media_grants : (Rule.object Schema.media).Grants (Media.shape .received) Media.Mistyped :=
  (object_grants_record (by decide)
    (grants_required (by simp [Schema.media]) name_grants_text <|
      grants_optional (judges_of_rule (by simp [Schema.media]) number_grants_real) <|
      grants_optional judges_unruled <|
      grants_optional judges_unruled <|
      grants_none _)).congr (by simp [Media.Mistyped])

theorem content_grants :
    (Rule.object Schema.content).Grants (Content.shape .received) Content.Mistyped :=
  (object_grants_record (by decide)
    (grants_required (by simp [Schema.content]) name_grants_text <|
      grants_lenient (judges_of_rule (by simp [Schema.content]) text_grants_text) <|
      grants_lenient (judges_of_rule (by simp [Schema.content]) author_grants) <|
      grants_lenient (judges_of_rule (by simp [Schema.content]) reach_grants) <|
      grants_optional (judges_of_rule (by simp [Schema.content]) media_grants) <|
      grants_required (by simp [Schema.content]) timestamp_grants_instant <|
      grants_lenient (judges_of_rule (by simp [Schema.content]) text_grants_text) <|
      grants_none _)).congr (by simp [Content.Mistyped])

theorem batch_grants : (Rule.object Schema.batch).Grants Input.Batch.shape Batch.Mistyped :=
  (object_grants_record (by decide)
    (grants_required (by simp [Schema.batch]) text_grants_text <|
      grants_optional (judges_of_rule (by simp [Schema.batch])
        (objects_grants_sequence content_grants)) <|
      grants_required (by simp [Schema.batch]) timestamp_grants_instant <|
      grants_none _)).congr fun j => by
        simp only [and_false, exists_false, false_or, or_false, Batch.Mistyped]
        refine exists_congr fun members => and_congr_right fun _ => ?_
        constructor
        · rintro ⟨_, found, items, rfl, mistyped⟩
          exact ⟨items, found, mistyped⟩
        · rintro ⟨items, found, mistyped⟩
          exact ⟨_, found, items, rfl, mistyped⟩

theorem job_grants : (Rule.object Schema.job).Grants Input.JobMessage.shape JobMessage.Mistyped :=
  (object_grants_record (by decide)
    (grants_required (by simp [Schema.job]) (word_grants_choice _ Schema.refusePlatform) <|
      grants_optional (judges_of_rule (by simp [Schema.job])
        (word_grants_choice _ Schema.refuseStatus)) <|
      grants_optional (judges_of_rule (by simp [Schema.job]) progress_grants) <|
      grants_optional (judges_of_rule (by simp [Schema.job]) batch_grants) <|
      grants_none _)).congr (by simp [JobMessage.Mistyped])

end NotificationRelay
