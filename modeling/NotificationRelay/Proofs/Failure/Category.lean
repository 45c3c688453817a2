import Mathlib
import NotificationRelay.Proofs.Message.Breach
import NotificationRelay.Proofs.Transform.Report

/-! Who decides the category of a failed payload. It is found in the wording, which quotes what
breaks the schema; so a quotation that sounds like another failure decides as well. -/
namespace NotificationRelay

open Json Text Transform

namespace Category

variable {message : String}

/-- Once some rules do not apply, one of the others decides, or none. -/
theorem ofMessage_mem_drop {n : Nat}
    (passed : ∀ rule ∈ rules.take n, rule.applies message = false) :
    ofMessage message ∈ .unknown :: (rules.drop n).map (·.category) := by
  have none : (rules.take n).find? (·.applies message) = none := by
    refine List.find?_eq_none.mpr fun rule among => ?_
    rw [passed rule among]
    exact Bool.false_ne_true
  have later : rules.find? (·.applies message) = (rules.drop n).find? (·.applies message) := by
    conv_lhs => rw [← List.take_append_drop n rules]
    rw [List.find?_append, none, Option.none_or]
  rw [ofMessage, later]
  cases found : (rules.drop n).find? (·.applies message) with
  | none => exact List.mem_cons_self
  | some rule =>
    have among := List.mem_of_find?_eq_some found
    exact List.mem_cons_of_mem _ (List.mem_map.mpr ⟨rule, among, rfl⟩)

theorem ofMessage_eq_jsonParse :
    ofMessage message = .jsonParse ↔ holds "invalid json format" message := by
  cases held : holds "invalid json format" message with
  | true => simp [ofMessage, rules, Rule.applies, held]
  | false =>
    have among : ofMessage message ∈ .unknown :: (rules.drop 1).map (·.category) :=
      ofMessage_mem_drop (by simp [rules, Rule.applies, held])
    refine iff_of_false (fun same => ?_) Bool.false_ne_true
    rw [same] at among
    exact absurd among (by decide)

theorem ofMessage_eq_validation :
    ofMessage message = .validation ↔ holds "invalid json format" message = false ∧
      holds "validation" message ∧ holds "output validation" message = false := by
  cases json : holds "invalid json format" message with
  | true =>
    have first := ofMessage_eq_jsonParse.mpr json
    simp [first]
  | false =>
    by_cases held : holds "validation" message ∧ holds "output validation" message = false
    · simp [ofMessage, rules, Rule.applies, json, held]
    · have among : ofMessage message ∈ .unknown :: (rules.drop 2).map (·.category) :=
        ofMessage_mem_drop (by simpa [rules, Rule.applies, json] using held)
      refine iff_of_false (fun same => ?_) fun both => held both.2
      rw [same] at among
      exact absurd among (by decide)

end Category

namespace Violation

def heading : Violation → String
  | .missingField _ => "missing required field"
  | .status _ => "invalid status"
  | .platform _ => "invalid platform"
  | .value .. => "invalid value for "
  | _ => ""

variable {v : Violation} {phrase : String}

theorem holds_within (unbroken : Unbroken phrase) (layer : String) (inner : Violation) :
    holds phrase (within layer inner).message =
      (holds phrase (layer ++ " validation failed") || holds phrase inner.message) := by
  have split : " validation failed: " = " validation failed" ++ ": " := rfl
  have wording : (within layer inner).message =
      layer ++ (" validation failed" ++ ": ") ++ inner.message :=
    congrArg (layer ++ · ++ inner.message) split
  rw [wording, ← String.append_assoc, holds_separated unbroken]

/-- A place has no blank, so it is no phrase of several words. -/
theorem Breach.holds_message (breach : v.Breach) (unbroken : Unbroken phrase)
    (apart : ' ' ∈ phrase.toList) (clear : Clear phrase.toList (folded "invalid value for ")) :
    holds phrase v.message = (holds phrase v.heading || holds phrase v.detail) := by
  have nowhere : holds phrase "" = false := not_holds_of_blankless apart (by decide)
  -- the colons split the message, and what is neither heading nor detail is a place
  cases breach with
  | @missingField path blankless =>
    have place := not_holds_of_blankless apart blankless.toText
    have wording : (Violation.missingField path).message =
        "missing required field" ++ ": " ++ path.toText := rfl
    have silent : (Violation.missingField path).detail = "" := rfl
    rw [wording, holds_separated unbroken, place, silent, nowhere]
    rfl
  | status word => exact holds_separated unbroken "invalid status" word
  | platform word => exact holds_separated unbroken "invalid platform" word
  | @value path blankless reason =>
    have place := not_holds_of_blankless apart blankless.toText
    have wording : (Violation.value path reason).message =
        "invalid value for " ++ path.toText ++ ": " ++ reason := rfl
    rw [wording, holds_separated unbroken, holds_append clear, place, Bool.or_false, heading,
      detail]

end Violation

def Payload.layers : List String := ["project input", "job input"]

theorem Payload.kind_breach {resource : Topic.Kind} {payload : Bytes} {v : Violation}
    (refused : Payload.kind resource payload = .error v) :
    ∃ layer ∈ Payload.layers, ∃ inner, v = .within layer inner ∧
      ((∃ reason, inner = .json reason) ∨ inner.Breach) := by
  cases resource with
  | project =>
    obtain ⟨inner, rfl, broken⟩ := checkProject_breach (map_failure refused)
    exact ⟨"project input", by decide, inner, rfl, broken⟩
  | job =>
    obtain ⟨inner, rfl, broken⟩ := checkJob_breach (map_failure refused)
    exact ⟨"job input", by decide, inner, rfl, broken⟩

/-- A phrase of several words that a refusal of a payload never uses of its own accord. -/
structure Foreign (phrase : String) : Prop where
  unbroken : Unbroken phrase
  apart : ' ' ∈ phrase.toList
  clear : Clear phrase.toList (folded "invalid value for ")
  layers : ∀ layer ∈ Payload.layers, holds phrase (layer ++ " validation failed") = false
  headings : ∀ heading ∈ ["missing required field", "invalid status", "invalid platform",
    "invalid value for "], holds phrase heading = false

theorem foreign_json : Foreign "invalid json format" where
  unbroken := ⟨by decide, by decide⟩
  apart := by decide
  clear := by decide
  layers := by decide
  headings := by decide

theorem foreign_output : Foreign "output validation" where
  unbroken := ⟨by decide, by decide⟩
  apart := by decide
  clear := by decide
  layers := by decide
  headings := by decide

theorem Violation.Breach.holds_foreign {v : Violation} (breach : v.Breach) {phrase : String}
    (foreign : Foreign phrase) {layer : String} (known : layer ∈ Payload.layers) :
    holds phrase (Violation.within layer v).message = holds phrase v.detail := by
  have heading : holds phrase v.heading = false := by
    cases breach <;> exact foreign.headings _ (by simp [Violation.heading])
  rw [holds_within foreign.unbroken, foreign.layers layer known,
    breach.holds_message foreign.unbroken foreign.apart foreign.clear, heading, Bool.false_or,
    Bool.false_or]

theorem holds_validation {layer : String} (known : layer ∈ Payload.layers) (v : Violation) :
    holds "validation" (Violation.within layer v).message := by
  rw [Violation.holds_within ⟨by decide, by decide⟩, Bool.or_eq_true]
  have named : ∀ layer ∈ Payload.layers, holds "validation" (layer ++ " validation failed") := by
    decide
  exact .inl (named layer known)

theorem holds_json (layer reason : String) :
    holds "invalid json format" (Violation.within layer (.json reason)).message := by
  have begins : holds "invalid json format" "invalid JSON format: " := by decide
  rw [Violation.holds_within foreign_json.unbroken, Bool.or_eq_true]
  exact .inr (holds_left begins reason)

theorem holds_unreadable (kind : MessageKind) (reason : String) :
    holds "invalid json format" (Failure.unreadable kind reason).message := by
  have begins : holds "invalid json format" "invalid JSON format: cannot decode " := by decide
  exact holds_left (holds_left (holds_left begins _) _) _

namespace Failure

def isUnread : Failure → Bool
  | .payload v => v.isJson
  | .unreadable .. => true
  | _ => false

def detail : Failure → String
  | .payload v => v.detail
  | _ => ""

/-- No JSON, or none that can be read, is always found out. A payload that breaks its schema is a
case of validation unless its own words sound like a failure of another kind. -/
structure Categorized (failure : Failure) : Prop where
  unread : failure.isUnread → failure.category = .jsonParse
  json : failure.isUnread = false →
    (failure.category = .jsonParse ↔ holds "invalid json format" failure.detail)
  validation : failure.isUnread = false →
    (failure.category = .validation ↔ holds "invalid json format" failure.detail = false ∧
      holds "output validation" failure.detail = false)

end Failure

namespace Transform

variable {resource : Topic.Kind} {limit nanos : Nat} {payload : Bytes} {failure : Failure}

theorem cause_of_rejected
    (rejected : (reporting limit (kindOf resource) none payload
      (ofKind resource nanos payload)).value = .error failure) :
    ∃ kind category, Cause resource payload failure kind category := by
  obtain ⟨other, kind, category, cause, value, _⟩ | ⟨message, _, value, _⟩ :=
    ofKind_cases resource nanos payload
  · obtain ⟨kept, _⟩ := reporting_error limit (kindOf resource) none payload value
    rw [kept] at rejected
    cases rejected
    exact ⟨kind, category, cause⟩
  · obtain ⟨kept, _⟩ := reporting_ok limit (kindOf resource) none payload value
    rw [kept] at rejected
    cases rejected

theorem Cause.category {kind : MessageKind} {category : Category}
    (cause : Cause resource payload failure kind category) : failure.Categorized := by
  cases cause with
  | unread kept reason =>
    refine ⟨fun _ => ?_, nofun, nofun⟩
    exact Category.ofMessage_eq_jsonParse.mpr (holds_unreadable _ reason)
  | schema broken =>
    obtain ⟨layer, known, inner, rfl, ⟨reason, rfl⟩ | breach⟩ := Payload.kind_breach broken
    · refine ⟨fun _ => ?_, nofun, nofun⟩
      exact Category.ofMessage_eq_jsonParse.mpr (holds_json layer reason)
    · -- the words around the detail speak of validation and hold neither phrase
      have json := breach.holds_foreign foreign_json known
      have output := breach.holds_foreign foreign_output known
      have named := holds_validation known inner
      have wording : (Failure.payload (.within layer inner)).category =
          .ofMessage (Violation.within layer inner).message := rfl
      have shown : (Failure.payload (.within layer inner)).detail = inner.detail := rfl
      refine ⟨fun unread => ?_, fun _ => ?_, fun _ => ?_⟩
      · cases breach <;> cases unread
      · rw [wording, shown, Category.ofMessage_eq_jsonParse, json]
      · rw [wording, shown, Category.ofMessage_eq_validation, json, output]
        exact ⟨fun ⟨plain, _, sound⟩ => ⟨plain, sound⟩, fun ⟨plain, sound⟩ => ⟨plain, named, sound⟩⟩

/-- A rejected payload decides its category by its own words and only by words about the format of
JSON or about the validation of output. -/
theorem category_exactly
    (rejected : (projectPayload limit nanos payload).value = .error failure ∨
      (jobPayload limit nanos payload).value = .error failure) :
    failure.Categorized := by
  rcases rejected with rejected | rejected
  · obtain ⟨kind, category, cause⟩ := @cause_of_rejected .project _ _ _ _ rejected
    exact cause.category
  · obtain ⟨kind, category, cause⟩ := @cause_of_rejected .job _ _ _ _ rejected
    exact cause.category

/-- A project whose status is none, but what is said of a payload that is no JSON. -/
def misleading : Bytes := Utf8.encode "\x7b\"status\":\"invalid JSON format\"\x7d"

def misled : Failure := .payload (.within "project input" (.status "invalid JSON format"))

theorem category_exactly_misleading :
    (projectPayload 200 0 misleading).value = .error misled ∧ misled.Categorized ∧
      misled.isUnread = false ∧ misled.category = .jsonParse := by
  have refused : Payload.checkProject misleading =
      .error (.within "project input" (.status "invalid JSON format")) := by cbv
  have value : (project 0 misleading).value = .error misled := (project_refused refused).1
  have rejected := (reporting_error 200 .project none misleading value).1
  have categorized := category_exactly (.inl rejected)
  have known : misled.isUnread = false := rfl
  have shown : misled.detail = "invalid JSON format" := rfl
  have quoted : holds "invalid json format" misled.detail := by
    rw [shown]
    decide
  exact ⟨rejected, categorized, known, (categorized.json known).mpr quoted⟩

end Transform

end NotificationRelay
