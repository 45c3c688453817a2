import NotificationRelay.Message.Notification
import NotificationRelay.Proofs.Shape.Inverse
import NotificationRelay.Proofs.Timestamp

/-! Messages that clients read again. The text of a message is read as that message, unless an extra
second stands in it that does not come at the end of its minute: that is read as the ordinary second
behind it. -/
namespace NotificationRelay

open Shape

section

variable {α σ τ : Type} {key : String} {shape : Shape α} {more : Fields σ τ}

theorem faithful_required (never : ∀ a, shape.isAbsent a = false) (faithful : shape.Faithful)
    (others : FieldsFaithful more) : FieldsFaithful (.required key shape more) :=
  ⟨fun a absent => absurd absent (by rw [never a]; decide), faithful, others⟩

theorem faithful_optional (solid : shape.Solid) (faithful : shape.Faithful)
    (others : FieldsFaithful more) : FieldsFaithful (.optional key shape more) := by
  refine ⟨fun a absent => ?_, ⟨solid, faithful⟩, others⟩
  cases a with
  | none => rfl
  | some a => cases absent

end

theorem faithful_progress : Progress.shape.Faithful :=
  ⟨by decide,
    faithful_required (fun _ => rfl) trivial <|
      faithful_required (fun _ => rfl) trivial <|
      faithful_required (fun _ => rfl) trivial <|
      faithful_required (fun _ => rfl) trivial <|
      faithful_required (fun _ => rfl) trivial trivial,
    fun _ => rfl, fun _ => rfl⟩

theorem faithful_project : ProjectMessage.shape.Faithful :=
  ⟨by decide,
    faithful_optional trivial (fun status => by cases status <;> rfl) <|
      faithful_optional trivial faithful_progress trivial,
    fun _ => rfl, fun _ => rfl⟩

theorem faithful_phaseProgress : (PhaseProgress.shape .sent).Faithful :=
  ⟨by decide,
    faithful_required (fun _ => rfl) trivial <|
      faithful_required (fun _ => rfl) trivial <|
      faithful_required (fun _ => rfl) trivial <|
      faithful_required (fun _ => rfl) trivial trivial,
    fun _ => rfl, fun _ => rfl⟩

theorem faithful_phasePayload : (PhasePayload.shape .sent).Faithful :=
  ⟨by decide,
    faithful_required (fun _ => rfl) trivial <|
      faithful_required (fun _ => rfl) (fun status => by cases status <;> rfl) <|
      faithful_optional trivial faithful_phaseProgress <|
      faithful_optional trivial faithful_phaseProgress <|
      faithful_required (fun _ => rfl) trivial trivial,
    fun _ => rfl, fun _ => rfl⟩

theorem faithful_projectPhase : (PhaseMessage.shape .sent).Faithful :=
  ⟨by decide,
    faithful_required (fun _ => rfl) (fun event => by cases event <;> rfl) <|
      faithful_required (fun _ => rfl) faithful_phasePayload trivial,
    fun _ => rfl, fun _ => rfl⟩

theorem faithful_author : (Author.shape .sent).Faithful :=
  ⟨by decide,
    faithful_required (fun _ => rfl) trivial <|
      faithful_required (fun _ => rfl) trivial <|
      faithful_required (fun _ => rfl) trivial <|
      faithful_required (fun _ => rfl) trivial <|
      faithful_required (fun _ => rfl) trivial <|
      faithful_optional trivial trivial trivial,
    fun _ => rfl, fun _ => rfl⟩

theorem faithful_reach : (Reach.shape .sent).Faithful :=
  ⟨by decide,
    faithful_required (fun _ => rfl) trivial <|
      faithful_required (fun _ => rfl) trivial <|
      faithful_required (fun _ => rfl) trivial <|
      faithful_required (fun _ => rfl) trivial <|
      faithful_required (fun _ => rfl) trivial trivial,
    fun _ => rfl, fun _ => rfl⟩

theorem faithful_media : (Media.shape .sent).Faithful :=
  ⟨by decide,
    faithful_required (fun _ => rfl) trivial <|
      faithful_optional trivial trivial <|
      faithful_optional trivial trivial <|
      faithful_optional trivial trivial trivial,
    fun _ => rfl, fun _ => rfl⟩

theorem faithful_content : (Content.shape .sent).Faithful :=
  ⟨by decide,
    faithful_required (fun _ => rfl) trivial <|
      faithful_required (fun _ => rfl) trivial <|
      faithful_required (fun _ => rfl) faithful_author <|
      faithful_required (fun _ => rfl) faithful_reach <|
      faithful_optional trivial faithful_media <|
      faithful_required (fun _ => rfl) trivial <|
      faithful_required (fun _ => rfl) trivial trivial,
    fun _ => rfl, fun _ => rfl⟩

theorem faithful_batch : Batch.shape.Faithful :=
  ⟨by decide,
    faithful_required (fun _ => rfl) trivial <|
      faithful_required (fun _ => rfl) faithful_content <|
      faithful_required (fun _ => rfl) trivial trivial,
    fun _ => rfl, fun _ => rfl⟩

theorem faithful_job : JobMessage.shape.Faithful :=
  ⟨by decide,
    faithful_required (fun _ => rfl) (fun platform => by cases platform <;> rfl) <|
      faithful_optional trivial (fun status => by cases status <;> rfl) <|
      faithful_optional trivial faithful_progress <|
      faithful_optional trivial faithful_batch trivial,
    fun _ => rfl, fun _ => rfl⟩

namespace Notification

def All (real : Binary64 → Prop) (instant : Time.Instant → Prop) : Notification → Prop
  | .project m => ProjectMessage.shape.All real instant m
  | .projectPhase m => (PhaseMessage.shape .sent).All real instant m
  | .job m => JobMessage.shape.All real instant m

theorem all_job {instant : Time.Instant → Prop} {m : JobMessage} :
    (Notification.job m).All (fun _ => True) instant ↔
      ∀ b ∈ m.batch, instant b.crawledAt ∧ ∀ c ∈ b.contents, instant c.publishedAt := by
  simp [All, Shape.All, Shape.FieldsAll, JobMessage.shape, Progress.shape, Batch.shape, Content.shape,
    Author.shape, Reach.shape, Media.shape, Fields.required, Fields.optional, Fields.expected, and_comm]

def mapInstants (f : Time.Instant → Time.Instant) : Notification → Notification
  | .project m => .project (ProjectMessage.shape.mapInstant f m)
  | .projectPhase m => .projectPhase ((PhaseMessage.shape .sent).mapInstant f m)
  | .job m => .job (JobMessage.shape.mapInstant f m)

theorem mapInstants_eq_self_iff {f : Time.Instant → Time.Instant} (m : Notification) :
    m.mapInstants f = m ↔ m.All (fun _ => True) fun t => f t = t := by
  cases m with
  | project m =>
    rw [mapInstants, Notification.project.injEq]
    exact mapInstant_eq_self_iff ProjectMessage.shape faithful_project m
  | projectPhase m =>
    rw [mapInstants, Notification.projectPhase.injEq]
    exact mapInstant_eq_self_iff (PhaseMessage.shape .sent) faithful_projectPhase m
  | job m =>
    rw [mapInstants, Notification.job.injEq]
    exact mapInstant_eq_self_iff JobMessage.shape faithful_job m

/-- Reads a text as a message of the same type. -/
def decodeLike : Notification → Json.Bytes → Except Json.Fault Notification
  | .project _, source => (ProjectMessage.shape.decode source).map .project
  | .projectPhase _, source => ((PhaseMessage.shape .sent).decode source).map .projectPhase
  | .job _, source => (JobMessage.shape.decode source).map .job

theorem decodeLike_eq_settled (m : Notification)
    (all : m.All Binary64.Restored Time.Instant.IsHeld) :
    m.decodeLike (Utf8.encode m.toJson) = .ok (m.mapInstants Time.Instant.settled) := by
  have instants (t : Time.Instant) (held : t.IsHeld) :
      Time.parseLenient t.toText = .ok t.settled := Time.parseLenient_toText_settled held
  cases m with
  | project m =>
    have read := decode_encode faithful_project (by decide)
      (Shape.All.imp (fun _ restored => restored) instants _ m all)
    rw [toJson, decodeLike, read]
    rfl
  | projectPhase m =>
    have read := decode_encode faithful_projectPhase (by decide)
      (Shape.All.imp (fun _ restored => restored) instants _ m all)
    rw [toJson, decodeLike, read]
    rfl
  | job m =>
    have read := decode_encode faithful_job (by decide)
      (Shape.All.imp (fun _ restored => restored) instants _ m all)
    rw [toJson, decodeLike, read]
    rfl

/-- The text of a message whose reals are read from their own digits is read again, with each instant
settled. So it is read as the message if and only if each extra second in it comes at the end of its
minute. -/
theorem decodeLike_toJson (m : Notification) (all : m.All Binary64.Restored Time.Instant.IsHeld) :
    m.decodeLike (Utf8.encode m.toJson) = .ok (m.mapInstants Time.Instant.settled) ∧
      (m.decodeLike (Utf8.encode m.toJson) = .ok m ↔
        m.All (fun _ => True) Time.Instant.Placed) := by
  have read := decodeLike_eq_settled m all
  have placed : (fun t : Time.Instant => t.settled = t) = Time.Instant.Placed :=
    funext fun t => propext Time.settled_eq_self_iff
  refine ⟨read, ?_⟩
  rw [read, Except.ok.injEq, mapInstants_eq_self_iff, placed]

/-- A job with an absent status, the greatest word, a text that needs escapes, a leap second and a
year of five digits. -/
def edgy : Notification :=
  .job ⟨.youtube, none, some ⟨18446744073709551615, 0, ⟨4591870180066957722⟩, .zero, ["\"\\\n☃"]⟩,
    some ⟨"", [⟨"a", "", .unknown, .none, some ⟨"video", some ⟨4591870180066957722⟩, none, none⟩,
      ⟨2932897, 86399, 1500000000⟩, ""⟩], ⟨0, 0, 0⟩⟩⟩

theorem decodeLike_toJson_edgy : edgy.All Binary64.Restored Time.Instant.IsHeld ∧
    edgy.decodeLike (Utf8.encode edgy.toJson) = .ok edgy := by
  have zero : Binary64.Restored .zero := by decide +kernel
  have tenth : Binary64.Restored ⟨4591870180066957722⟩ := by decide +kernel
  have epoch : Time.Instant.IsHeld ⟨0, 0, 0⟩ := ⟨by decide, by decide, by decide⟩
  have leap : Time.Instant.IsHeld ⟨2932897, 86399, 1500000000⟩ :=
    ⟨by decide, by decide, by decide⟩
  have all : edgy.All Binary64.Restored Time.Instant.IsHeld := by
    simp [edgy, All, Shape.All, FieldsAll, JobMessage.shape, Progress.shape, Batch.shape,
      Content.shape, Author.shape, Reach.shape, Media.shape, Fields.required, Fields.optional,
      Fields.expected, Reach.none, Author.unknown, zero, tenth, epoch, leap]
  have placed : edgy.All (fun _ => True) Time.Instant.Placed := by
    refine all_job.mpr ?_
    rintro _ ⟨⟩
    exact ⟨by decide, by simp [Time.Instant.Placed]⟩
  exact ⟨all, (decodeLike_toJson edgy all).2.mpr placed⟩

def crawled (t : Time.Instant) : Notification := .job ⟨.youtube, none, none, some ⟨"", [], t⟩⟩

/-- An extra second behind 23:56:04 is read as the ordinary second that comes there. -/
theorem early_second_lost :
    let early := crawled ⟨0, 86164, 1333333333⟩
    early.All Binary64.Restored Time.Instant.IsHeld ∧
      early.decodeLike (Utf8.encode early.toJson) = .ok (crawled ⟨0, 86165, 333333333⟩) ∧
      early.decodeLike (Utf8.encode early.toJson) ≠ .ok early := by
  intro early
  have held : Time.Instant.IsHeld ⟨0, 86164, 1333333333⟩ := ⟨by decide, by decide, by decide⟩
  have all : early.All Binary64.Restored Time.Instant.IsHeld := by
    simp [early, crawled, All, Shape.All, FieldsAll, JobMessage.shape, Progress.shape, Batch.shape,
      Content.shape, Author.shape, Reach.shape, Media.shape, Fields.required, Fields.optional,
      Fields.expected, held]
  have read : early.decodeLike (Utf8.encode early.toJson) = .ok (crawled ⟨0, 86165, 333333333⟩) :=
    decodeLike_eq_settled early all
  refine ⟨all, read, ?_⟩
  rw [read]
  decide

end Notification

end NotificationRelay
