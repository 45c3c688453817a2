import Mathlib
import NotificationRelay.Proofs.Message.Origin
import NotificationRelay.Proofs.Shape.Places
import NotificationRelay.Proofs.Transform.Parse

/-! What is read of payloads that keep their schema. The check goes by the tree of a payload and the
reader by its bytes; they differ in what is said here and in nothing else. -/
namespace NotificationRelay

open Json

/-- Reading fails just where a record repeats a key or the gap is, and gives what is written. -/
theorem Rule.reads {α : Type} {rule : Rule} {shape : Shape α} {gap : Json → Prop}
    {written : α → Json → Prop} (grants : rule.Grants shape gap) (traces : rule.Traces shape written)
    {payload : Bytes} {members : List (String × Json)}
    (read : Json.read payload = .ok (.object members))
    (ok : rule.check [] (.object members) = .ok ()) :
    (Fails (shape.decode payload) ↔
        (Json.object members).RepeatsIn shape.records ∨ gap (.object members)) ∧
      ∀ a, shape.decode payload = .ok a → written a (.object members) := by
  have held := Shape.decode_toOption shape read
  constructor
  · rw [← toOption_eq_none, held, grants (sound_read read) rfl ok, Shape.repeats_iff]
  · intro a decoded
    rw [decoded] at held
    exact traces (sound_read read) rfl ok held.symm

namespace Payload

/-! The records in payloads, each with its keys. -/

def progressKeys : List String := ["current", "total", "percentage", "eta", "errors"]

def phaseKeys : List String := ["total", "done", "errors", "progress_percent"]

def flatRecords : List (Place × List String) :=
  [([], ["status", "progress"]), ([.member "progress"], progressKeys)]

def phasedRecords : List (Place × List String) :=
  [([], ["type", "payload"]),
    ([.member "payload"], ["project_id", "status", "crawl", "analyze", "overall_progress_percent"]),
    ([.member "payload", .member "crawl"], phaseKeys),
    ([.member "payload", .member "analyze"], phaseKeys)]

def post : Place := [.member "batch", .member "content_list", .item]

def jobRecords : List (Place × List String) :=
  [([], ["platform", "status", "progress", "batch"]),
    ([.member "progress"], progressKeys),
    ([.member "batch"], ["keyword", "content_list", "crawled_at"]),
    (post, ["id", "text", "author", "metrics", "media", "published_at", "permalink"]),
    (post ++ [.member "author"],
      ["id", "username", "name", "followers", "is_verified", "avatar_url"]),
    (post ++ [.member "metrics"], ["views", "likes", "comments", "shares", "rate"]),
    (post ++ [.member "media"], ["type", "duration", "thumbnail", "url"])]

theorem records_flat : Input.ProjectMessage.shape.records = flatRecords := rfl

theorem records_phased : (PhaseMessage.shape .received).records = phasedRecords := rfl

theorem records_job : Input.JobMessage.shape.records = jobRecords := rfl

/-- Reading a payload that keeps its schema fails if and only if a record in it has one of its keys
twice, or it is a job with a post whose thumbnail or address is there and no text. If it does not
fail, each field is what the tree holds in its place. -/
theorem read_exactly (payload : Bytes) :
    (checkProject payload = .ok .flat → ∃ members, Json.read payload = .ok (.object members) ∧
      let result := Input.ProjectMessage.shape.decode payload
      (Fails result ↔ (Json.object members).RepeatsIn flatRecords) ∧
        ∀ m, result = .ok m → m.FoundIn members) ∧
    (checkProject payload = .ok .phased → ∃ members, Json.read payload = .ok (.object members) ∧
      let result := (PhaseMessage.shape .received).decode payload
      (Fails result ↔ (Json.object members).RepeatsIn phasedRecords) ∧
        ∀ m, result = .ok m → m.FoundIn members) ∧
    (checkJob payload = .ok () → ∃ members, Json.read payload = .ok (.object members) ∧
      let result := Input.JobMessage.shape.decode payload
      (Fails result ↔ (Json.object members).RepeatsIn jobRecords ∨
          JobMessage.Mistyped (.object members)) ∧
        ∀ m, result = .ok m → m.FoundIn members) := by
  refine ⟨fun accepted => ?_, fun accepted => ?_, fun accepted => ?_⟩
  · obtain ⟨members, read, _, ok⟩ := checkProject_success accepted
    obtain ⟨fails, written⟩ := Rule.reads project_grants project_traces read ok
    rw [records_flat, or_false] at fails
    exact ⟨members, read, fails, fun m decoded => Written.of_object (written m decoded)⟩
  · obtain ⟨members, read, _, ok⟩ := checkProject_success accepted
    obtain ⟨fails, written⟩ := Rule.reads projectPhase_grants projectPhase_traces read ok
    rw [records_phased, or_false] at fails
    exact ⟨members, read, fails, fun m decoded => Written.of_object (written m decoded)⟩
  · obtain ⟨members, read, ok⟩ := checkJob_success accepted
    obtain ⟨fails, written⟩ := Rule.reads job_grants job_traces read ok
    rw [records_job] at fails
    exact ⟨members, read, fails, fun m decoded => Written.of_object (written m decoded)⟩

/-- A job with a null status, and with an unknown key twice. -/
def brief : Bytes :=
  Utf8.encode "\x7b\"platform\":\"TIKTOK\",\"status\":null,\"x\":1,\"x\":2\x7d"

theorem read_exactly_brief :
    checkJob brief = .ok () ∧
      Input.JobMessage.shape.decode brief = .ok ⟨.tiktok, none, none, none⟩ ∧
      ∃ members, Json.read brief = .ok (.object members) ∧
        ¬(Json.object members).RepeatsIn jobRecords ∧
        Input.JobMessage.FoundIn ⟨.tiktok, none, none, none⟩ members := by
  have accepted : checkJob brief = .ok () := by cbv
  have decoded : Input.JobMessage.shape.decode brief = .ok ⟨.tiktok, none, none, none⟩ := by cbv
  obtain ⟨members, read, fails, found⟩ := (read_exactly brief).2.2 accepted
  refine ⟨accepted, decoded, members, read, fun repeats => ?_, found _ decoded⟩
  obtain ⟨fault, failed⟩ := fails.mpr (.inl repeats)
  rw [decoded] at failed
  cases failed

end Payload

end NotificationRelay
