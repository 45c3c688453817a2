import NotificationRelay.Proofs.Failure.Category
import NotificationRelay.Proofs.Topic

/-! Which failures are worth a retry. The wording of a rejected payload always blames the input in
words of its own, whatever else it quotes. That of a rejected channel does so by one word alone, and
a quotation can take that word away. -/
namespace NotificationRelay

open Json Text Transform

namespace Category

variable {message : String}

def inputRules : List Rule := rules.take 6

def inputPhrases : List String :=
  ["invalid json format", "missing required field", "invalid status", "invalid platform",
    "invalid value"]

def BlamesInput (message : String) : Prop := ∃ rule ∈ inputRules, rule.applies message

theorem blamesInput_iff :
    BlamesInput message ↔
      (holds "validation" message ∧ holds "output validation" message = false) ∨
        ∃ phrase ∈ inputPhrases, holds phrase message := by
  simp only [BlamesInput, inputRules, rules, inputPhrases, Rule.applies, List.take_succ_cons,
    List.take_zero, List.mem_cons, exists_eq_or_imp, exists_eq_left, List.not_mem_nil,
    Option.any_none, Option.any_some, Bool.and_eq_true, Bool.not_eq_true', or_false, and_true]
  exact or_left_comm

theorem blamesInput_of_holds {phrase : String} (among : phrase ∈ inputPhrases)
    (held : holds phrase message) : BlamesInput message :=
  blamesInput_iff.mpr (.inr ⟨phrase, among, held⟩)

/-- Once a rule applies, it decides or one before it does. -/
theorem ofMessage_mem_take {n : Nat} {rule : Rule} (among : rule ∈ rules.take n)
    (applies : rule.applies message) : ofMessage message ∈ (rules.take n).map (·.category) := by
  have found : ((rules.take n).find? (·.applies message)).isSome :=
    List.find?_isSome.mpr ⟨rule, among, applies⟩
  obtain ⟨first, found⟩ := Option.isSome_iff_exists.mp found
  have decides : rules.find? (·.applies message) = some first := by
    conv_lhs => rw [← List.take_append_drop n rules]
    rw [List.find?_append, found, Option.some_or]
  rw [ofMessage, decides]
  exact List.mem_map.mpr ⟨first, List.mem_of_find?_eq_some found, rfl⟩

theorem mem_of_blamesInput (blames : BlamesInput message) :
    ofMessage message ∈ inputRules.map (·.category) := by
  obtain ⟨rule, among, applies⟩ := blames
  exact ofMessage_mem_take among applies

theorem mem_of_blameless (blameless : ¬BlamesInput message) :
    ofMessage message ∈ .unknown :: (rules.drop 6).map (·.category) := by
  refine ofMessage_mem_drop fun rule among => ?_
  exact Bool.eq_false_iff.mpr fun applies => blameless ⟨rule, among, applies⟩

theorem isRetryable_iff : (ofMessage message).isRetryable ↔ ¬BlamesInput message := by
  constructor
  · intro retryable blames
    have among := mem_of_blamesInput blames
    generalize ofMessage message = category at among retryable
    revert category
    decide
  · intro blameless
    have among := mem_of_blameless blameless
    generalize ofMessage message = category at among
    revert category
    decide

/-- What speaks of validation and does not blame the input speaks of that of output. -/
theorem ofMessage_eq_outputValidation (named : holds "validation" message)
    (blameless : ¬BlamesInput message) : ofMessage message = .outputValidation := by
  have output : holds "output validation" message := by
    by_contra silent
    exact blameless (blamesInput_iff.mpr (.inl ⟨named, Bool.eq_false_iff.mpr silent⟩))
  have applies : Rule.applies ⟨"output validation", none, .outputValidation⟩ message := by
    simp [Rule.applies, output]
  have early := ofMessage_mem_take (n := 7) (by simp [rules]) applies
  have late := mem_of_blameless blameless
  generalize ofMessage message = category at early late
  revert category
  decide

end Category

open Category

/-! Payloads. -/

/-- What a payload breaks of its schema is named at the front of the refusal inside the layer. -/
theorem Violation.Breach.blamesInput {v : Violation} (breach : v.Breach) (layer : String) :
    BlamesInput (Violation.within layer v).message := by
  have begins {phrase heading rest : String} (among : phrase ∈ inputPhrases)
      (named : holds phrase heading) (wording : v.message = heading ++ rest) :
      BlamesInput (Violation.within layer v).message := by
    have inner : holds phrase v.message := by
      rw [wording]
      exact holds_left named rest
    exact blamesInput_of_holds among (holds_right inner (layer ++ " validation failed: "))
  cases breach with
  | missingField blankless =>
    have named : holds "missing required field" "missing required field: " := by decide
    exact begins (by simp [inputPhrases]) named rfl
  | status word =>
    have named : holds "invalid status" "invalid status: " := by decide
    exact begins (by simp [inputPhrases]) named rfl
  | platform word =>
    have named : holds "invalid platform" "invalid platform: " := by decide
    exact begins (by simp [inputPhrases]) named rfl
  | @value path blankless reason =>
    have named : holds "invalid value" "invalid value for " := by decide
    have wording : (Violation.value path reason).message =
        "invalid value for " ++ path.toText ++ ": " ++ reason := rfl
    rw [String.append_assoc, String.append_assoc] at wording
    exact begins (by simp [inputPhrases]) named wording

theorem Transform.Cause.blamesInput {resource : Topic.Kind} {payload : Bytes} {failure : Failure}
    {kind : MessageKind} {category : Category}
    (cause : Cause resource payload failure kind category) : BlamesInput failure.message := by
  cases cause with
  | unread kept reason =>
    exact blamesInput_of_holds (by simp [inputPhrases]) (holds_unreadable kind reason)
  | schema broken =>
    obtain ⟨layer, _, inner, rfl, ⟨reason, rfl⟩ | breach⟩ := Payload.kind_breach broken
    · exact blamesInput_of_holds (by simp [inputPhrases]) (holds_json layer reason)
    · exact breach.blamesInput layer

namespace Transform

variable {limit nanos : Nat} {payload : Bytes} {failure : Failure}

/-- A rejected payload falls into a category of input that fails in the same way each time, whatever
it holds, and so it is never tried again. -/
theorem payload_never_retried
    (rejected : (projectPayload limit nanos payload).value = .error failure ∨
      (jobPayload limit nanos payload).value = .error failure) :
    failure.category ∈ [.jsonParse, .validation, .missingField, .invalidStatus, .invalidPlatform,
        .invalidValue] ∧
      failure.category.isRetryable = false := by
  have blames : BlamesInput failure.message := by
    rcases rejected with rejected | rejected
    · obtain ⟨kind, category, cause⟩ := @cause_of_rejected .project _ _ _ _ rejected
      exact cause.blamesInput
    · obtain ⟨kind, category, cause⟩ := @cause_of_rejected .job _ _ _ _ rejected
      exact cause.blamesInput
  exact ⟨mem_of_blamesInput blames,
    Bool.eq_false_iff.mpr fun retryable => isRetryable_iff.mp retryable blames⟩

/-- A status that is none, but sounds like a fault of the relay itself. -/
def evasive : Bytes := Utf8.encode "\x7b\"status\":\"output validation\"\x7d"

theorem payload_never_retried_evasive :
    ∃ failure, (projectPayload 200 0 evasive).value = .error failure ∧
      failure = .payload (.within "project input" (.status "output validation")) ∧
      failure.category.isRetryable = false := by
  have refused : Payload.checkProject evasive =
      .error (.within "project input" (.status "output validation")) := by cbv
  have value := (@project_refused 0 _ _ refused).1
  have rejected := (reporting_error 200 .project none evasive value).1
  exact ⟨_, rejected, rfl, (payload_never_retried (.inl rejected)).2⟩

end Transform

/-! Channels. -/

namespace Topic

theorem unsaid_of_mem {phrase : String} (among : phrase ∈ "output validation" :: inputPhrases) :
    Unsaid phrase := by
  simp only [inputPhrases, List.mem_cons, List.not_mem_nil, or_false] at among
  rcases among with rfl | rfl | rfl | rfl | rfl | rfl <;>
    exact ⟨⟨by decide, by decide⟩, by decide, by simp, by decide, by decide⟩

theorem holds_validation (v : Violation) : holds "validation" (Failure.topic v).message := by
  have named : holds "validation" "topic validation failed: " := by decide
  exact holds_left named v.message

/-- What is said of a channel falls under the rules for input or under the one for output. -/
theorem category_mem (v : Violation) :
    (Failure.topic v).category ∈ .outputValidation :: inputRules.map (·.category) := by
  by_cases blames : BlamesInput (Failure.topic v).message
  · exact List.mem_cons_of_mem _ (mem_of_blamesInput blames)
  · have output := ofMessage_eq_outputValidation (holds_validation v) blames
    exact List.mem_cons.mpr (.inl output)

variable {channel : String} {v : Violation}

theorem Defect.category_eq_jsonParse (defect : Defect channel v) :
    (Failure.topic v).category = .jsonParse ↔ holds "invalid json format" (misnamed channel) := by
  rw [← defect.holds_message (unsaid_of_mem (by simp [inputPhrases]))]
  exact ofMessage_eq_jsonParse

theorem Defect.category_eq_validation (defect : Defect channel v) :
    (Failure.topic v).category = .validation ↔
      ¬holds "invalid json format" (misnamed channel) ∧
        ¬holds "output validation" (misnamed channel) := by
  have decided := @ofMessage_eq_validation (Failure.topic v).message
  rw [defect.holds_message (unsaid_of_mem (by simp [inputPhrases])),
    defect.holds_message (unsaid_of_mem List.mem_cons_self)] at decided
  rw [Bool.not_eq_true, Bool.not_eq_true, Failure.category, decided]
  exact and_congr_right fun _ => and_iff_right (holds_validation v)

theorem Defect.isRetryable_category (defect : Defect channel v) :
    (Failure.topic v).category.isRetryable ↔
      holds "output validation" (misnamed channel) ∧
        ∀ phrase ∈ inputPhrases, ¬holds phrase (misnamed channel) := by
  have output := defect.holds_message (unsaid_of_mem List.mem_cons_self)
  have input : (∃ phrase ∈ inputPhrases, holds phrase (Failure.topic v).message) ↔
      ∃ phrase ∈ inputPhrases, holds phrase (misnamed channel) := by
    refine exists_congr fun phrase => and_congr_right fun among => ?_
    rw [defect.holds_message (unsaid_of_mem (List.mem_cons_of_mem _ among))]
  have blames := @blamesInput_iff (Failure.topic v).message
  rw [output, input, and_iff_right (holds_validation v)] at blames
  rw [Failure.category, isRetryable_iff, blames, not_or, Bool.not_eq_false, not_exists]
  exact and_congr_right fun _ => forall_congr' fun phrase => not_and

end Topic

theorem Report.level_line (report : Report) :
    report.line.level = .warn ↔ report.category.isCritical = false ∧ report.isRejection := by
  rw [line]
  split
  · rename_i critical
    simp [critical]
  split
  · rename_i ordinary rejected
    simp [ordinary, rejected]
  · rename_i accepted
    simp [accepted]

theorem Report.warns_iff {report : Report}
    (among : report.category ∈ .outputValidation :: inputRules.map (·.category)) :
    report.line.level = .warn ↔
      report.category ≠ .jsonParse ∧ report.category.isRetryable = false := by
  rw [report.level_line, isRejection]
  generalize report.category = category at among ⊢
  revert category
  decide

namespace Transform

/-- A rejected channel is a case of validation unless what stands in the place of its kind sounds
like a failure of another sort. Then it may be logged as an error, and if it sounds like a fault in
the output and like nothing else, it counts as worth a retry. -/
theorem channel_category_exactly (limit nanos : Nat) {channel : String} {v : Violation}
    (rejected : Topic.parse channel = .error v) (payload : Bytes) :
    let result := onChannel limit nanos channel payload
    let category := (Failure.topic v).category
    let quotes (phrase : String) : Prop := holds phrase (Topic.misnamed channel)
    result.value = .error (.topic v) ∧
      counts result = [.failure .unknown .validation, .handled category] ∧
      (category = .jsonParse ↔ quotes "invalid json format") ∧
      (category = .validation ↔ ¬quotes "invalid json format" ∧ ¬quotes "output validation") ∧
      (category.isRetryable ↔
        quotes "output validation" ∧ ∀ phrase ∈ inputPhrases, ¬quotes phrase) ∧
      ∃ report, reports result = [report] ∧ report.category = category ∧
        (report.line.level = .warn ↔
          ¬quotes "invalid json format" ∧ category.isRetryable = false) := by
  intro result category quotes
  have defect := Topic.parse_failure rejected
  have json : category = .jsonParse ↔ quotes "invalid json format" := defect.category_eq_jsonParse
  have value : (failed .unknown .validation (.topic v) :
      Noted Entry (Outcome (Topic × Notification))).value = .error (.topic v) := value_failed ..
  obtain ⟨kept, counted, told⟩ := reporting_error limit .unknown (some channel) payload value
  have steps : result = reporting limit .unknown (some channel) payload
      (failed .unknown .validation (.topic v)) := by
    unfold result
    rw [onChannel, rejected]
  rw [steps]
  refine ⟨kept, counted, json, defect.category_eq_validation, defect.isRetryable_category, _, told,
    rfl, ?_⟩
  rw [← json]
  exact Report.warns_iff (Topic.category_mem v)

/-- A kind of topic that is none, but sounds like a fault of the relay itself. -/
theorem channel_category_exactly_misleading :
    ∃ v, Topic.parse "output validation:r:u" = .error v ∧ v = .topicKind "output validation" ∧
      (onChannel 200 0 "output validation:r:u" []).value = .error (.topic v) ∧
      (Failure.topic v).category ≠ .validation ∧ (Failure.topic v).category.isRetryable := by
  have rejected : Topic.parse "output validation:r:u" =
      .error (.topicKind "output validation") := by cbv
  obtain ⟨value, _, _, validation, retryable, _⟩ := channel_category_exactly 200 0 rejected []
  have quoted : Topic.misnamed "output validation:r:u" = "output validation" := by cbv
  rw [quoted] at validation retryable
  have sounds : holds "output validation" "output validation" := by decide
  refine ⟨_, rejected, rfl, value, fun same => (validation.mp same).2 sounds, retryable.mpr ?_⟩
  exact ⟨sounds, by decide⟩

end Transform

end NotificationRelay
