import NotificationRelay.Proofs.Failure.Category
import NotificationRelay.Proofs.Json.Printed
import NotificationRelay.Proofs.Message.Wording
import NotificationRelay.Proofs.Text.Excerpt
import NotificationRelay.Proofs.Topic.Grammar

/-! How much of a payload a report of its failure shows. The excerpt is as short as it is asked to
be, but the message quotes what breaks the schema, which can be as long as the payload. -/
namespace NotificationRelay

open Json Text Transform

/-- The payload keeps its schema as one of the kind, and its text cannot be read for this fault. -/
def Payload.Unread (payload : Bytes) (f : Fault) : MessageKind → Prop
  | .project => Input.ProjectMessage.shape.decode payload = .error f
  | .projectPhase => (PhaseMessage.shape .received).decode payload = .error f
  | .job => Input.JobMessage.shape.decode payload = .error f
  | .unknown => False

/-- What the failure of a payload tells besides places and words of its own. -/
inductive Failure.Tells (resource : Topic.Kind) (payload : Bytes) : Failure → String → Prop where
  | schema {v : Violation} (broken : Payload.kind resource payload = .error v) :
      Tells resource payload (.payload v) v.detail
  | unread {kind : MessageKind} {f : Fault} (kept : Payload.kind resource payload = .ok kind)
      (unread : Payload.Unread payload f kind) :
      Tells resource payload (.unreadable kind (f.toText payload)) f.cause.toText

theorem Transform.fault_of_stages {ι α : Type} {nanos : Nat} {kind kind' : MessageKind}
    {shape : Shape ι} {payload : Bytes} {check : α → Except Violation Unit}
    {normal : ι → Noted Event α} {wrap : α → Notification} {event : α → Event} {reason : String}
    (fails : (stages nanos kind shape payload check normal wrap event).value =
      .error (.unreadable kind' reason)) :
    ∃ f, shape.decode payload = .error f ∧ reason = f.toText payload := by
  cases read : shape.decode payload with
  | error f =>
    rw [(stages_unreadable read).1] at fails
    cases fails
    exact ⟨f, rfl, rfl⟩
  | ok input =>
    cases passes : check (normal input).value with
    | error v =>
      rw [(stages_unsound read passes).1] at fails
      cases fails
    | ok _ =>
      rw [(stages_sound read passes).1] at fails
      cases fails

theorem Transform.tells_of_failure {resource : Topic.Kind} {nanos : Nat} {payload : Bytes}
    {failure : Failure} (fails : (ofKind resource nanos payload).value = .error failure) :
    ∃ told, failure.Tells resource payload told := by
  obtain ⟨failure', kind, category, cause, value, _⟩ | ⟨message, _, value, _⟩ :=
    ofKind_cases resource nanos payload
  · rw [value] at fails
    cases fails
    cases cause with
    | schema broken => exact ⟨_, .schema broken⟩
    | unread kept reason =>
      have unread : ∃ f, Payload.Unread payload f kind ∧ reason = f.toText payload := by
        cases resource with
        | project =>
          obtain ⟨layout, checked, rfl⟩ := map_success kept
          have steps := (@project_accepted nanos _ _ checked).1
          rw [ofKind, steps] at value
          cases layout with
          | flat => exact fault_of_stages value
          | phased => exact fault_of_stages value
        | job =>
          obtain ⟨⟨⟩, checked, rfl⟩ := map_success kept
          rw [ofKind, job_accepted checked] at value
          exact fault_of_stages value
      obtain ⟨f, unread, rfl⟩ := unread
      exact ⟨_, .unread kept unread⟩
  · rw [value] at fails
    cases fails

theorem Payload.members_failure_frames {payload : Bytes} (addressed : payload.length < twoTo 64)
    {v : Violation} (refused : Payload.members payload = .error v) :
    Frames 141 v.detail v.message := by
  unfold Payload.members at refused
  split at refused
  · cases refused
  · rename_i value _
    cases refused
    exact ((Frames.plain _).led ("invalid value for " ++ Path.toText [] ++ ": ")).mono (by decide)
  · rename_i f unread
    cases refused
    have cause := Cause.length_toText_le (read_syntactic unread)
    have fault := (f.frames_toText addressed).length_le
    have words : "invalid JSON format: ".length = 21 := by decide
    have frames : Frames 141 "" ("invalid JSON format: " ++ f.toText payload) := by
      refine .silent ?_
      rw [String.length_append]
      omega
    exact frames

theorem Payload.broken_frames {rules : Members} (fair : rules.Fair)
    (extents : ∀ c ∈ rules.clauses, c.place.extent ≤ 80) {payload : Bytes}
    (addressed : payload.length < twoTo 64) {members : List (String × Json)}
    (read : Payload.members payload = .ok members) {v : Violation}
    (broken : rules.check [] members = .error v) : Frames 141 v.detail v.message := by
  have exposes := Members.check_exposes rules fair broken
  refine Frames.mono (exposes.frames extents fun path items found => ?_) (by decide)
  have length := length_items_le_of_read (members_success read) found
  exact Nat.le_of_lt (Nat.lt_of_le_of_lt length addressed)

/-- A payload that breaks its schema is told so in its own detail and in few other words. -/
theorem Payload.refusal_frames {resource : Topic.Kind} {payload : Bytes}
    (addressed : payload.length < twoTo 64) {v : Violation}
    (broken : Payload.kind resource payload = .error v) : Frames 174 v.detail v.message := by
  cases resource with
  | project =>
    obtain ⟨inner, fails, rfl⟩ := inLayer_failure (map_failure broken)
    have frames : Frames 141 inner.detail inner.message := by
      rcases bind_failure fails with unread | ⟨members, read, fails⟩
      · exact members_failure_frames addressed unread
      rcases bind_failure fails with wrong | ⟨_, _, done⟩
      · refine broken_frames (schema_fair (layout members)) ?_ addressed read wrong
        rw [schema_clauses]
        cases layout members <;> decide
      · cases done
    exact frames.led ("project input" ++ " validation failed: ")
  | job =>
    obtain ⟨inner, fails, rfl⟩ := inLayer_failure (map_failure broken)
    have frames : Frames 141 inner.detail inner.message := by
      rcases bind_failure fails with unread | ⟨members, read, wrong⟩
      · exact members_failure_frames addressed unread
      · exact broken_frames job_fair (by decide) addressed read wrong
    exact (frames.led ("job input" ++ " validation failed: ")).mono (by decide)

theorem Failure.Tells.frames {resource : Topic.Kind} {payload : Bytes} {failure : Failure}
    {told : String} (tells : failure.Tells resource payload told)
    (addressed : payload.length < twoTo 64) : Frames 192 told failure.message := by
  cases tells with
  | schema broken => exact (Payload.refusal_frames addressed broken).mono (by decide)
  | @unread kind f _ _ =>
    have frames := (f.frames_toText addressed).led
      ("invalid JSON format: cannot decode " ++ Vocabulary.word kind ++ " message: ")
    refine Frames.mono frames ?_
    cases kind <;> decide

namespace Topic

theorem length_toText_le {channel : String} {topic : Topic} (parsed : parse channel = .ok topic) :
    topic.toText.length ≤ 109 := by
  obtain ⟨_, resource, user⟩ := parse_eq_ok_iff.mp parsed
  have word : (Vocabulary.word topic.kind).length ≤ 7 := by cases topic.kind <;> decide
  have first := resource.short
  have second := user.short
  have colon : ":".length = 1 := by decide
  simp only [toText, String.length_append]
  omega

end Topic

def Log.Line.Within (most : Nat) (line : Log.Line) : Prop :=
  ∀ name s, (name, .text s) ∈ line.fields → s.length ≤ most

theorem Report.mem_line_fields {r : Report} {name s : String} :
    (name, .text s) ∈ r.line.fields ↔ (name, .text s) ∈ r.fields := by
  rw [line]
  split
  · exact Iff.rfl
  · split
    · exact Iff.rfl
    · simp

theorem Transform.reports_onChannel {limit nanos : Nat} {channel : String} {payload : Bytes}
    {topic : Topic} {failure : Failure} (parsed : Topic.parse channel = .ok topic)
    (fails : (ofKind topic.kind nanos payload).value = .error failure) :
    reports (onChannel limit nanos channel payload) =
      [.make limit failure.message (failure.kind?.getD (kindOf topic.kind)) (some topic.toText)
        payload] := by
  obtain ⟨value, _, reported⟩ :=
    reporting_error limit (kindOf topic.kind) (some topic.toText) payload fails
  rw [reports_ofKind, List.nil_append] at reported
  rw [onChannel, parsed]
  dsimp only
  rw [andThen, reports_bind, reported, value]
  rfl

/-- All texts that are logged but the message are excerpts or short. -/
theorem Report.field_cases {limit : Nat} (room : 32 ≤ limit) {message : String}
    {kind : MessageKind} {channel : String} (short : channel.length ≤ 109) {payload : Bytes}
    {name s : String} (among : (name, .text s) ∈
      (Report.make limit message kind (some channel) payload).line.fields) :
    (name = "error" ∧ s = message) ∨ s.length ≤ max limit 109 := by
  rw [mem_line_fields] at among
  simp only [fields, make, List.mem_cons, Prod.mk.injEq, Log.Value.text.injEq, List.not_mem_nil,
    or_false, Option.getD_some] at among
  have excerpt : (Text.excerpt limit payload).length ≤ limit := by
    rw [Text.excerpt, String.length_ofList]
    exact Text.length_shorten_le (by omega) _
  rcases among with ⟨_, rfl⟩ | ⟨_, rfl⟩ | ⟨_, rfl⟩ | ⟨_, rfl⟩ | same
  · generalize Category.ofMessage message = category
    have word : (Vocabulary.word category).length ≤ 19 := by cases category <;> decide
    omega
  · have word : (Vocabulary.word kind).length ≤ 13 := by cases kind <;> decide
    omega
  · omega
  · omega
  · exact .inl same

namespace Transform

/-- The report of a payload that fails on a topic. The message is the only text in it that can be
too long, and it is if and only if what the failure tells is, up to what a few words make out. -/
theorem report_within {limit nanos : Nat} {channel : String} {topic : Topic} {payload : Bytes}
    {failure : Failure} (room : 32 ≤ limit) (parsed : Topic.parse channel = .ok topic)
    (addressed : payload.length < twoTo 64)
    (fails : (onChannel limit nanos channel payload).value = .error failure) :
    ∃ report told, reports (onChannel limit nanos channel payload) = [report] ∧
      failure.Tells topic.kind payload told ∧ Frames 192 told report.message ∧
      ("error", .text report.message) ∈ report.line.fields ∧
      (∀ name s, (name, .text s) ∈ report.line.fields → name ≠ "error" →
        s.length ≤ max limit 109) ∧
      (told.length ≤ limit + 64 → report.line.Within (limit + 256)) ∧
      (limit + 256 < told.length → ¬report.line.Within (limit + 256)) := by
  have value : (ofKind topic.kind nanos payload).value = .error failure := by
    rw [value_onChannel_ok _ _ _ parsed] at fails
    exact map_failure fails
  obtain ⟨told, tells⟩ := tells_of_failure value
  have frames := tells.frames addressed
  have shown : ("error", .text failure.message) ∈ (Report.make limit failure.message
      (failure.kind?.getD (kindOf topic.kind)) (some topic.toText) payload).line.fields := by
    rw [Report.mem_line_fields]
    simp [Report.fields, Report.make]
  have channelShort := Topic.length_toText_le parsed
  refine ⟨_, told, reports_onChannel parsed value, tells, frames, shown, ?_, ?_, ?_⟩
  · intro name s among other
    exact (Report.field_cases room channelShort among).resolve_left fun same => other same.1
  · intro short name s among
    obtain ⟨_, rfl⟩ | field := Report.field_cases room channelShort among
    · have message := frames.length_le
      omega
    · omega
  · intro long within
    have message := within _ _ shown
    have quoted := frames.le_length
    omega

def statusOf (word : String) : Bytes :=
  Utf8.encode (Json.object [("status", .text word)]).print

theorem statusOf_refused {word : String} (unknown : word ∉ Vocabulary.words ProjectStatus) :
    Payload.checkProject (statusOf word) = .error (.within "project input" (.status word)) := by
  have printable : Printable depthLimit (.object [("status", .text word)]) :=
    .object fun m among => List.mem_singleton.mp among ▸ .text word
  have read : Json.read (statusOf word) = .ok (.object [("status", .text word)]) :=
    read_print printable
  have refused : (Rule.word (Vocabulary.words ProjectStatus) Schema.refuseStatus).check
      [.key "status"] (.text word) = .error (.status word) := by
    rw [Rule.check, if_neg unknown]
    rfl
  have broken : Schema.project.check [] [("status", .text word)] = .error (.status word) := by
    have found : present "status" [("status", .text word)] = some (.text word) := rfl
    rw [Schema.project, Members.optional, Members.check, found, List.nil_append]
    dsimp only
    rw [refused]
    rfl
  rw [Payload.checkProject_of_read read]
  change Payload.inLayer _ (Schema.project.check [] [("status", .text word)] >>= _) = _
  rw [broken]
  rfl

/-- So the log shows a status however long it is. -/
theorem report_within_long : ∃ report,
    reports (onChannel 200 0 "project:p:u" (statusOf (String.ofList (.replicate 600 'x')))) =
      [report] ∧ ¬report.line.Within (200 + 256) := by
  have addressed : (statusOf (String.ofList (.replicate 600 'x'))).length < twoTo 64 := by
    simp only [statusOf, Utf8.encode, print, String.toList_ofList, chars, memberChars, textChars]
    decide +kernel
  generalize shown : String.ofList (List.replicate 600 'x') = word at addressed ⊢
  have long : word.length = 600 := by
    rw [← shown, String.length_ofList, List.length_replicate]
  have unknown : word ∉ Vocabulary.words ProjectStatus := by
    intro known
    have short : ∀ word ∈ Vocabulary.words ProjectStatus, word.length < 600 := by decide
    exact absurd (short word known) (by omega)
  have parsed : Topic.parse "project:p:u" = .ok ⟨.project, "p", "u"⟩ := by cbv
  have refused := statusOf_refused unknown
  have value : (project 0 (statusOf word)).value =
      .error (.payload (.within "project input" (.status word))) := (project_refused refused).1
  have fails : (onChannel 200 0 "project:p:u" (statusOf word)).value =
      .error (.payload (.within "project input" (.status word))) := by
    rw [value_onChannel_ok _ _ _ parsed, ofKind, value]
    rfl
  obtain ⟨report, told, reported, tells, _, _, _, _, exceeds⟩ :=
    report_within (by decide) parsed addressed fails
  cases tells with
  | schema =>
    have detail : (Violation.within "project input" (.status word)).detail = word := rfl
    exact ⟨report, reported, exceeds (by rw [detail, long]; decide)⟩

end Transform

end NotificationRelay
