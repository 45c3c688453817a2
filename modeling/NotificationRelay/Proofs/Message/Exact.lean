import NotificationRelay.Proofs.Message.Blame
import NotificationRelay.Proofs.Message.Breach
import NotificationRelay.Proofs.Transform.Core

/-! The rules of payloads, written out. A payload that is an object is accepted if and only if all
of them hold, and what is said of any other one is true of a rule that is broken. -/
namespace NotificationRelay

open Json Descent

namespace Clause

def progress (place : Place) : List Clause :=
  [⟨place ++ [member "current"], .optional, .natural⟩,
    ⟨place ++ [member "total"], .optional, .natural⟩,
    ⟨place ++ [member "percentage"], .optional, .number⟩,
    ⟨place ++ [member "eta"], .optional, .number⟩,
    ⟨place ++ [member "errors"], .optional, .list⟩,
    ⟨place ++ [member "errors", item], .item, .text⟩]

def flat : List Clause :=
  [⟨[member "status"], .optional,
      .word ["INITIALIZING", "CRAWLING", "PROCESSING", "COMPLETED", "FAILED", "PAUSED"]⟩,
    ⟨[member "progress"], .optional, .object⟩] ++ progress [member "progress"]

def phase (place : Place) : List Clause :=
  [⟨place, .optional, .object⟩,
    ⟨place ++ [member "total"], .optional, .natural⟩,
    ⟨place ++ [member "done"], .optional, .natural⟩,
    ⟨place ++ [member "errors"], .optional, .natural⟩,
    ⟨place ++ [member "progress_percent"], .optional, .number⟩]

def phased : List Clause :=
  [⟨[member "type"], .required, .word ["project_progress", "project_completed"]⟩,
    ⟨[member "payload"], .required, .object⟩,
    ⟨[member "payload", member "project_id"], .required, .name⟩,
    ⟨[member "payload", member "status"], .required,
      .word ["INITIALIZING", "PROCESSING", "DONE", "FAILED"]⟩] ++
  phase [member "payload", member "crawl"] ++ phase [member "payload", member "analyze"] ++
  [⟨[member "payload", member "overall_progress_percent"], .required, .number⟩]

def author (place : Place) : List Clause :=
  [⟨place, .optional, .object⟩,
    ⟨place ++ [member "id"], .optional, .text⟩,
    ⟨place ++ [member "username"], .optional, .text⟩,
    ⟨place ++ [member "name"], .optional, .text⟩,
    ⟨place ++ [member "avatar_url"], .optional, .text⟩,
    ⟨place ++ [member "followers"], .optional, .natural⟩,
    ⟨place ++ [member "is_verified"], .optional, .flag⟩]

def reach (place : Place) : List Clause :=
  [⟨place, .optional, .object⟩,
    ⟨place ++ [member "views"], .optional, .natural⟩,
    ⟨place ++ [member "likes"], .optional, .natural⟩,
    ⟨place ++ [member "comments"], .optional, .natural⟩,
    ⟨place ++ [member "shares"], .optional, .natural⟩,
    ⟨place ++ [member "rate"], .optional, .number⟩]

def media (place : Place) : List Clause :=
  [⟨place, .optional, .object⟩,
    ⟨place ++ [member "type"], .required, .name⟩,
    ⟨place ++ [member "duration"], .optional, .number⟩]

def content (place : Place) : List Clause :=
  [⟨place, .item, .object⟩,
    ⟨place ++ [member "id"], .required, .name⟩,
    ⟨place ++ [member "published_at"], .required, .timestamp⟩,
    ⟨place ++ [member "text"], .optional, .text⟩,
    ⟨place ++ [member "permalink"], .optional, .text⟩] ++
  author (place ++ [member "author"]) ++ reach (place ++ [member "metrics"]) ++
  media (place ++ [member "media"])

def job : List Clause :=
  [⟨[member "platform"], .required, .word ["TIKTOK", "YOUTUBE", "INSTAGRAM"]⟩,
    ⟨[member "status"], .optional, .word ["PROCESSING", "COMPLETED", "FAILED", "PAUSED"]⟩,
    ⟨[member "progress"], .optional, .object⟩] ++ progress [member "progress"] ++
  [⟨[member "batch"], .optional, .object⟩,
    ⟨[member "batch", member "keyword"], .required, .text⟩,
    ⟨[member "batch", member "crawled_at"], .required, .timestamp⟩,
    ⟨[member "batch", member "content_list"], .optional, .list⟩] ++
  content [member "batch", member "content_list", item]

end Clause

def Layout.clauses : Layout → List Clause
  | .flat => Clause.flat
  | .phased => Clause.phased

theorem schema_clauses (layout : Layout) : (Payload.schema layout).clauses = layout.clauses := by
  cases layout <;> rfl

theorem job_clauses : Schema.job.clauses = Clause.job := rfl

section

variable (words : List String)

theorem refuseStatus_fair : (Rule.word words Schema.refuseStatus).Fair "status" := by
  intro presence path j last there unmet
  have shown : Schema.refuseStatus path j = .status j.shown := by cases j <;> rfl
  exact shown ▸ .status unmet there last

theorem refusePlatform_fair : (Rule.word words Schema.refusePlatform).Fair "platform" := by
  intro presence path j last there unmet
  have shown : Schema.refusePlatform path j = .platform j.shown := by cases j <;> rfl
  exact shown ▸ .platform unmet there last

theorem refusePhaseStatus_fair : (Rule.word words Schema.refusePhaseStatus).Fair "status" := by
  intro presence path j last there unmet
  cases j with
  | text s => exact .status unmet there last
  | _ => exact .value unmet (fun null => absurd null there) _

theorem refuseEvent_fair : (Rule.word words Schema.refuseEvent).Fair "type" := by
  intro presence path j _ there unmet
  cases j <;> exact .value unmet (fun null => absurd null there) _

end

theorem schema_fair (layout : Layout) : (Payload.schema layout).Fair := by
  cases layout with
  | flat => exact ⟨refuseStatus_fair _, by repeat constructor⟩
  | phased => exact ⟨refuseEvent_fair _, ⟨trivial, refusePhaseStatus_fair _, by repeat constructor⟩, trivial⟩

theorem job_fair : Schema.job.Fair :=
  ⟨refusePlatform_fair _, refuseStatus_fair _, by repeat constructor⟩

namespace Payload

variable {payload : Bytes} {members : List (String × Json)} {v : Violation}

theorem hasKey_iff {key : String} : hasKey key members = true ↔ ∃ j, (key, j) ∈ members := by
  simp only [hasKey, List.any_eq_true, decide_eq_true_eq, Prod.exists]
  constructor
  · rintro ⟨_, j, among, rfl⟩
    exact ⟨j, among⟩
  · rintro ⟨j, among⟩
    exact ⟨key, j, among, rfl⟩

/-- The layout is phased if both keys are there, and flat if not. -/
theorem eq_layout_iff {found : Layout} : found = layout members ↔
    (found = .phased ↔ (∃ j, ("type", j) ∈ members) ∧ ∃ j, ("payload", j) ∈ members) := by
  rw [← hasKey_iff, ← hasKey_iff, ← Bool.and_eq_true, layout]
  cases found <;> split <;> simp_all

theorem inLayer_success_iff {α : Type} {layer : String} {result : Except Violation α} {a : α} :
    inLayer layer result = .ok a ↔ result = .ok a := by
  cases result <;> simp [inLayer, Except.mapError]

/-- Both checks accept an object if and only if all rules hold in it, and a refusal speaks of a rule
that is broken at a path, in words that are true of the value there. -/
theorem check_exact (read : Json.read payload = .ok (.object members)) :
    (∀ found, checkProject payload = .ok found ↔
      (found = .phased ↔ (∃ j, ("type", j) ∈ members) ∧ ∃ j, ("payload", j) ∈ members) ∧
        ∀ c ∈ found.clauses, c.Holds (.object members)) ∧
    (∀ v, checkProject payload = .error v → ∃ inner, v = .within "project input" inner ∧
      Exposes (layout members).clauses (.object members) [] inner) ∧
    (checkJob payload = .ok () ↔ ∀ c ∈ Clause.job, c.Holds (.object members)) ∧
    ∀ v, checkJob payload = .error v → ∃ inner, v = .within "job input" inner ∧
      Exposes Clause.job (.object members) [] inner := by
  rw [checkProject_of_read read, checkJob_of_read read, ← job_clauses]
  refine ⟨fun found => ?_, fun v refused => ?_, ?_, fun v refused => ?_⟩
  · rw [inLayer_success_iff, ← eq_layout_iff, ← schema_clauses]
    constructor
    · intro ok
      obtain ⟨_, passed, same⟩ := bind_success ok
      cases same
      exact ⟨rfl, (Members.check_iff _ [] members).mp passed⟩
    · rintro ⟨rfl, holds⟩
      rw [(Members.check_iff _ [] members).mpr holds]
      rfl
  · obtain ⟨inner, failed, rfl⟩ := inLayer_failure refused
    refine ⟨inner, rfl, ?_⟩
    rw [← schema_clauses]
    rcases bind_failure failed with broken | ⟨_, _, ok⟩
    · exact Members.check_exposes _ (schema_fair _) broken
    · cases ok
  · rw [inLayer_success_iff]
    exact Members.check_iff Schema.job [] members
  · obtain ⟨inner, broken, rfl⟩ := inLayer_failure refused
    exact ⟨inner, rfl, Members.check_exposes Schema.job job_fair broken⟩

def unworded : Bytes :=
  Utf8.encode "\x7b\"platform\":\"TIKTOK\",\"batch\":\x7b\"keyword\":5\x7d\x7d"

theorem check_exact_unworded :
    ∃ members, Json.read unworded = .ok (.object members) ∧
      ∃ path, checkJob unworded = .error (.within "job input" (.value path "must be a string")) ∧
        Exposes Clause.job (.object members) [] (.value path "must be a string") := by
  have read : Json.read unworded = .ok (.object [("platform", .text "TIKTOK"),
      ("batch", .object [("keyword", .number (.natural 5))])]) := by
    cbv
  have refused : checkJob unworded = .error (.within "job input"
      (.value [.key "batch", .key "keyword"] "must be a string")) := by
    cbv
  obtain ⟨inner, same, exposes⟩ := (check_exact read).2.2.2 _ refused
  cases same
  exact ⟨_, read, _, refused, exposes⟩

/-- An item of a list is not missing when it is null. -/
def hollow : Bytes :=
  Utf8.encode ("\x7b\"platform\":\"TIKTOK\",\"batch\":\x7b\"keyword\":\"k\"," ++
    "\"crawled_at\":\"2024-05-01T10:00:00Z\",\"content_list\":[null]\x7d\x7d")

theorem null_item_blamed : ∃ root path reason, Json.read hollow = .ok root ∧
    checkJob hollow = .error (.within "job input" (.value path reason)) ∧
    root.at? path = some .null := by
  refine ⟨.object [("platform", .text "TIKTOK"), ("batch", .object [("keyword", .text "k"),
      ("crawled_at", .text "2024-05-01T10:00:00Z"), ("content_list", .list [.null])])],
    [.key "batch", .key "content_list", .index 0], "expected object, got null", ?_, ?_, ?_⟩
  · cbv
  · cbv
  · rfl

end Payload

end NotificationRelay
