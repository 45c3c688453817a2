import NotificationRelay.Proofs.Message.Check
import NotificationRelay.Proofs.Message.Clause
import NotificationRelay.Proofs.Message.RoundTrip

/-! What clients get, checked against the schemas of what publishers send. -/
namespace NotificationRelay

open Json

namespace Shape

variable {α σ τ : Type}

def echo (shape : Shape α) (a : α) : Json := mapReal reread (shape.write a)

def echoMembers (fields : Fields σ τ) (values : σ) : List (String × Json) :=
  (writeMembers fields values).map fun m => (m.1, mapReal reread m.2)

def slot (shape : Shape α) (a : α) : Option Json := (some (shape.echo a)).filter fun j => !j.isNull

section

variable {shape : Shape α} {a : α}

theorem echo_record {name : String} {fields : Fields σ τ} {build : σ → α} {parts : α → σ} :
    (Shape.record name fields build parts).echo a = .object (echoMembers fields (parts a)) := by
  rw [echo, write, mapReal_object, echoMembers]

theorem echo_sequence {items : List α} :
    (Shape.sequence shape).echo items = .list (items.map shape.echo) := by
  rw [echo, write, mapReal_list, List.map_map]
  rfl

theorem slot_word (n : UInt64) : Shape.word.slot n = some (.number (.natural n.toNat)) := rfl

theorem slot_text (s : String) : Shape.text.slot s = some (.text s) := rfl

theorem slot_flag (b : Bool) : Shape.flag.slot b = some (.flag b) := rfl

theorem slot_instant (t : Time.Instant) : Shape.instant.slot t = some (.text t.toText) := rfl

theorem slot_choice {vocabulary : Vocabulary α} :
    (Shape.choice vocabulary).slot a = some (.text (Vocabulary.word a)) := rfl

theorem slot_real (x : Binary64) :
    Shape.real.slot x = if x.isFinite then some (.number (.real (reread x))) else none := by
  rw [slot, echo, write, writeReal]
  split
  · rfl
  · rfl

theorem slot_none : (Shape.optional shape).slot none = none := rfl

theorem slot_some : (Shape.optional shape).slot (some a) = shape.slot a := rfl

theorem slot_sequence {items : List α} :
    (Shape.sequence shape).slot items = some (.list (items.map shape.echo)) := by
  rw [slot, echo_sequence]
  rfl

theorem slot_record {name : String} {fields : Fields σ τ} {build : σ → α} {parts : α → σ} :
    (Shape.record name fields build parts).slot a = some (.object (echoMembers fields (parts a))) := by
  rw [slot, echo_record]
  rfl

end

theorem write_of_absent {α : Type} : {shape : Shape α} → {a : α} → shape.isAbsent a = true →
    shape.write a = .null
  | .optional _, none, _ => by rw [write]

section

variable {key other : String} {fallback : Option α} {shape : Shape α} {more : Fields σ τ} {a : α}
  {values : σ}

theorem present_echoMembers (key : String) (fields : Fields σ τ) (values : σ) :
    present key (echoMembers fields values) =
      ((lookup key (writeMembers fields values)).map (mapReal reread)).filter fun j => !j.isNull := by
  rw [present, echoMembers, lookup_map]

theorem present_self (fresh : key ∉ more.keys) :
    present key (echoMembers (.cons key fallback shape more) (a, values)) = shape.slot a := by
  rw [present_echoMembers, lookup_writeMembers_self fresh]
  split
  · rename_i absent
    rw [slot, echo, write_of_absent absent]
    rfl
  · rfl

theorem present_other (apart : key ≠ other) :
    present other (echoMembers (.cons key fallback shape more) (a, values)) =
      present other (echoMembers more values) := by
  rw [present_echoMembers, present_echoMembers, lookup_writeMembers_other apart]

end

end Shape

namespace Rule

/-- What is present of a value passes the rule, and nothing does if the value may be missing. -/
def Meets (rule : Rule) (required : Bool) (path : Path) (slot : Option Json) : Prop :=
  (∀ j, slot = some j → rule.check path j = .ok ()) ∧ (required → slot ≠ none)

variable {α : Type} {rule : Rule} {required : Bool} {path : Path} {j : Json}

theorem meets_some : rule.Meets required path (some j) ↔ rule.check path j = .ok () := by
  simp [Meets]

theorem meets_none : rule.Meets false path none := by
  simp [Meets]

theorem meets_optional {shape : Shape α} {a? : Option α} :
    rule.Meets false path ((Shape.optional shape).slot a?) ↔
      ∀ a ∈ a?, rule.Meets false path (shape.slot a) := by
  cases a? with
  | none => simp [Shape.slot_none, meets_none]
  | some a => simp [Shape.slot_some]

theorem meets_text (s : String) : Rule.text.Meets required path (Shape.text.slot s) := by
  rw [Shape.slot_text, meets_some, check, checkThat_iff]
  rfl

theorem meets_name {s : String} :
    Rule.name.Meets required path (Shape.text.slot s) ↔ s.isEmpty = false := by
  rw [Shape.slot_text, meets_some, check]
  cases s.isEmpty <;> simp

theorem meets_natural (n : UInt64) : Rule.natural.Meets required path (Shape.word.slot n) := by
  rw [Shape.slot_word, meets_some, check, checkThat_iff]
  rfl

theorem meets_flag (b : Bool) : Rule.flag.Meets required path (Shape.flag.slot b) := by
  rw [Shape.slot_flag, meets_some, check, checkThat_iff]
  rfl

theorem meets_number {x : Binary64} :
    Rule.number.Meets required path (Shape.real.slot x) ↔ (required = true → x.isFinite) := by
  rw [Shape.slot_real]
  split
  · rename_i finite
    rw [meets_some, check, checkThat_iff]
    exact ⟨fun _ _ => finite, fun _ => rfl⟩
  · rename_i infinite
    cases required <;> simp [Meets, infinite]

theorem meets_timestamp {t : Time.Instant} :
    Rule.timestamp.Meets required path (Shape.instant.slot t) ↔ ¬Fails (Time.parse t.toText) := by
  rw [Shape.slot_instant, meets_some, check, checkTimestamp]
  cases Time.parse t.toText <;> simp [Fails]

theorem meets_word [Vocabulary α] {refuse : Path → Json → Violation}
    (closed : ∀ a : α, Vocabulary.word a ∈ Vocabulary.words α) (a : α) :
    (Rule.word (Vocabulary.words α) refuse).Meets required path
      ((Shape.choice inferInstance).slot a) := by
  rw [Shape.slot_choice, meets_some, check]
  exact if_pos (closed a)

theorem meets_texts (texts : List String) :
    Rule.texts.Meets required path ((Shape.sequence .text).slot texts) := by
  have all : (texts.map Shape.text.echo).findIdx? (fun item => !isText item) = none := by
    simp [List.findIdx?_eq_none_iff, Shape.echo, Shape.write, mapReal, isText]
  rw [Shape.slot_sequence, meets_some, check, checkTexts, all]

end Rule

namespace Members

variable {α : Type}

structure Passes (rules : Members) (shape : Shape α) (good : α → Prop) : Prop where
  present : ∀ a, (shape.echo a).isNull = false
  iff : ∀ path a, rules.checkObject path (shape.echo a) = .ok () ↔ good a

variable {rules : Members} {shape : Shape α} {good : α → Prop}

theorem Passes.meets_object (passes : rules.Passes shape good) {required : Bool} {path : Path}
    {a : α} : (Rule.object rules).Meets required path (shape.slot a) ↔ good a := by
  have held : shape.slot a = some (shape.echo a) := by
    rw [Shape.slot, Option.filter_some, passes.present a]
    rfl
  rw [held, Rule.meets_some, Rule.check]
  exact passes.iff path a

theorem Passes.meets_objects (passes : rules.Passes shape good) {required : Bool} {path : Path}
    {items : List α} :
    (Rule.objects rules).Meets required path ((Shape.sequence shape).slot items) ↔
      ∀ a ∈ items, good a := by
  rw [Shape.slot_sequence, Rule.meets_some, Rule.check, forM_iff]
  constructor
  · intro each a among
    obtain ⟨i, held⟩ := List.getElem?_of_mem among
    have here : (shape.echo a, i) ∈ (items.map shape.echo).zipIdx := by
      rw [List.mk_mem_zipIdx_iff_getElem?, List.getElem?_map, held]
      rfl
    exact (passes.iff _ a).mp (each _ here)
  · rintro each ⟨item, i⟩ among
    obtain ⟨a, there, rfl⟩ := List.mem_map.mp (List.fst_mem_of_mem_zipIdx among)
    exact (passes.iff _ a).mpr (each a there)

theorem passes_record {σ τ : Type} {name : String} {fields : Fields σ τ} {build : σ → α}
    {parts : α → σ} (iff : ∀ path a,
      rules.check path (Shape.echoMembers fields (parts a)) = .ok () ↔ good a) :
    rules.Passes (.record name fields build parts) good := by
  refine ⟨fun a => ?_, fun path a => ?_⟩
  · rw [Shape.echo_record]
    rfl
  · rw [Shape.echo_record, checkObject]
    exact iff path a

theorem check_cons_meets {path : Path} {members : List (String × Json)} {key : String}
    {required : Bool} {rule : Rule} {more : Members} :
    (Members.cons key required rule more).check path members = .ok () ↔
      rule.Meets required (path ++ [.key key]) (NotificationRelay.present key members) ∧
        more.check path members = .ok () := check_cons_iff

theorem check_none {path : Path} {members : List (String × Json)} :
    Members.none.check path members = .ok () := by
  rw [check]

end Members

open Shape Rule Members

section

attribute [local simp] Members.required Members.optional check_cons_meets check_none Fields.expected
  Fields.required Fields.optional Fields.keys present_self present_other meets_text meets_name
  meets_natural meets_flag meets_number meets_timestamp meets_texts meets_optional

theorem progress_passes : Schema.progress.Passes Progress.shape fun _ => True :=
  passes_record fun path p => by simp [Schema.progress]

theorem project_passes : Schema.project.Passes ProjectMessage.shape fun _ => True :=
  passes_record fun path m => by
    have closed : ∀ status : ProjectStatus, Vocabulary.word status ∈ Vocabulary.words ProjectStatus := by
      intro status
      cases status <;> decide
    simp [Schema.project, progress_passes.meets_object, meets_word closed]

theorem phaseProgress_passes : Schema.phaseProgress.Passes (PhaseProgress.shape .sent) fun _ => True :=
  passes_record fun path p => by simp [Schema.phaseProgress]

theorem phasePayload_passes : Schema.phasePayload.Passes (PhasePayload.shape .sent)
    fun p => p.projectId.isEmpty = false ∧ p.overallPercent.isFinite :=
  passes_record fun path p => by
    have closed : ∀ status : PhaseStatus, Vocabulary.word status ∈ Vocabulary.words PhaseStatus := by
      intro status
      cases status <;> decide
    simp [Schema.phasePayload, phaseProgress_passes.meets_object, meets_word closed]

theorem projectPhase_passes : Schema.projectPhase.Passes (PhaseMessage.shape .sent)
    fun m => m.payload.projectId.isEmpty = false ∧ m.payload.overallPercent.isFinite :=
  passes_record fun path m => by
    have closed : ∀ event : PhaseEvent, Vocabulary.word event ∈ Vocabulary.words PhaseEvent := by
      intro event
      cases event <;> decide
    simp [Schema.projectPhase, phasePayload_passes.meets_object, meets_word closed]

theorem author_passes : Schema.author.Passes (Author.shape .sent) fun _ => True :=
  passes_record fun path a => by simp [Schema.author]

theorem reach_passes : Schema.reach.Passes (Reach.shape .sent) fun _ => True :=
  passes_record fun path r => by simp [Schema.reach]

theorem media_passes : Schema.media.Passes (Media.shape .sent) fun m => m.kind.isEmpty = false :=
  passes_record fun path m => by simp [Schema.media]

/-- A post is accepted again if it has a name, its medium has a type, and its time is strict. -/
theorem content_passes : Schema.content.Passes (Content.shape .sent) fun c =>
    c.id.isEmpty = false ∧ ¬Fails (Time.parse c.publishedAt.toText) ∧
      ∀ m ∈ c.media, m.kind.isEmpty = false :=
  passes_record fun path c => by
    simp [Schema.content, author_passes.meets_object, reach_passes.meets_object,
      media_passes.meets_object]

theorem batch_passes : Schema.batch.Passes Batch.shape fun b =>
    ¬Fails (Time.parse b.crawledAt.toText) ∧ ∀ c ∈ b.contents, c.id.isEmpty = false ∧
      ¬Fails (Time.parse c.publishedAt.toText) ∧ ∀ m ∈ c.media, m.kind.isEmpty = false :=
  passes_record fun path b => by
    simp [Schema.batch, content_passes.meets_objects]

theorem job_passes : Schema.job.Passes JobMessage.shape fun m => ∀ b ∈ m.batch,
    ¬Fails (Time.parse b.crawledAt.toText) ∧ ∀ c ∈ b.contents, c.id.isEmpty = false ∧
      ¬Fails (Time.parse c.publishedAt.toText) ∧ ∀ m ∈ c.media, m.kind.isEmpty = false :=
  passes_record fun path m => by
    have closed : ∀ platform : Platform, Vocabulary.word platform ∈ Vocabulary.words Platform := by
      intro platform
      cases platform <;> decide
    have closed' : ∀ status : JobStatus, Vocabulary.word status ∈ Vocabulary.words JobStatus := by
      intro status
      cases status <;> decide
    simp [Schema.job, progress_passes.meets_object, batch_passes.meets_object, meets_word closed,
      meets_word closed']

end

end NotificationRelay
