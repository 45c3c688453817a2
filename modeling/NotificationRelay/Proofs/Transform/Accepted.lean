import Mathlib
import NotificationRelay.Proofs.Message.Emitted
import NotificationRelay.Proofs.Transform.Output

/-! What the relay sends, taken as a payload. It is accepted again, but for jobs with an instant in a
year that the strict grammar of timestamps cannot write. -/
namespace NotificationRelay

open Json

/-- A post whose medium has a type and whose time is an instant. -/
def Content.Legible (c : Content) : Prop :=
  (∀ m ∈ c.media, m.kind.isEmpty = false) ∧ c.publishedAt.IsUtc

def Input.Batch.Legible (b : Input.Batch) : Prop :=
  (∀ list ∈ b.contents, ∀ c ∈ list, c.Legible) ∧ b.crawledAt.IsUtc

def Batch.Legible (b : Batch) : Prop := (∀ c ∈ b.contents, c.Legible) ∧ b.crawledAt.IsUtc

section

open Members Rule

theorem timestamp_assures_instant : Rule.timestamp.Assures .instant Time.Instant.IsUtc := by
  intro path j t sound kind ok read
  obtain ⟨s, _, parsed⟩ := timestamp_traces_instant sound kind ok read
  exact Time.isUtc_of_parse parsed

theorem media_assures : (Rule.object Schema.media).Assures (Media.shape .received)
    fun m => m.kind.isEmpty = false :=
  object_assures_record (by decide)
    (assures_required (by simp [Schema.media]) name_assures_text <|
      assures_any <| assures_any <| assures_any <| assures_none)
    fun _ goods => goods.1

theorem content_assures_legible :
    (Rule.object Schema.content).Assures (Content.shape .received) Content.Legible :=
  object_assures_record (by decide)
    (assures_any <| assures_any <| assures_any <| assures_any <|
      assures_optional (by simp [Schema.content]) media_assures <|
      assures_required (by simp [Schema.content]) timestamp_assures_instant <|
      assures_any <| assures_none)
    fun _ goods => ⟨goods.1, goods.2.1⟩

theorem batch_assures_legible :
    (Rule.object Schema.batch).Assures Input.Batch.shape Input.Batch.Legible :=
  object_assures_record (by decide)
    (assures_any <|
      assures_optional (by simp [Schema.batch])
        (objects_assures_sequence content_assures_legible) <|
      assures_required (by simp [Schema.batch]) timestamp_assures_instant <|
      assures_none)
    fun _ goods => ⟨goods.1, goods.2.1⟩

theorem job_assures_legible : (Rule.object Schema.job).Assures Input.JobMessage.shape
    fun m => ∀ b ∈ m.batch, b.Legible :=
  object_assures_record (by decide)
    (assures_any <| assures_any <| assures_any <|
      assures_optional (by simp [Schema.job]) batch_assures_legible <|
      assures_none)
    fun _ goods => goods.1

end

theorem Batch.legible_ofInput {b : Input.Batch} (legible : b.Legible) :
    (Batch.ofInput b).value.Legible := by
  obtain ⟨contents, crawledAt⟩ := legible
  have same : (Batch.ofInput b).value.crawledAt = b.crawledAt := by
    simp only [Batch.ofInput, Noted.value_bind]
    split <;> rfl
  refine ⟨?_, same ▸ crawledAt⟩
  rw [Batch.contents_ofInput]
  intro c among
  have given := (sublist_siftFrom [] _).mem among
  cases found : b.contents with
  | none =>
    rw [found] at given
    cases given
  | some list =>
    rw [found] at given
    exact contents list found c given

theorem JobMessage.legible_ofInput {m : Input.JobMessage} (legible : ∀ b ∈ m.batch, b.Legible) :
    ∀ b ∈ (JobMessage.ofInput m).value.batch, b.Legible := by
  simp only [JobMessage.ofInput, Noted.value_bind, Noted.value_pure, value_onSome]
  intro b among
  obtain ⟨input, given, rfl⟩ := Option.map_eq_some_iff.mp among
  exact Batch.legible_ofInput (legible input given)

namespace Payload

section

variable {σ τ α : Type} {name : String} {fields : Fields σ τ} {build : σ → α} {parts : α → σ} {a : α}

/-- A record that is written is read as the object of its members. -/
theorem members_encode (faithful : (Shape.record name fields build parts).Faithful)
    (shallow : (Shape.record name fields build parts).levels ≤ depthLimit) :
    members (Utf8.encode ((Shape.record name fields build parts).encode a)) =
      .ok (Shape.echoMembers fields (parts a)) := by
  have printed := read_print (Shape.printable_write _ faithful a shallow)
  have tree := @Shape.echo_record α σ τ a name fields build parts
  rw [Shape.echo] at tree
  rw [tree] at printed
  rw [Shape.encode, members, printed]

theorem checkProject_of_members {payload : Bytes} {found : List (String × Json)} {expected : Layout}
    (read : members payload = .ok found) (layout_eq : layout found = expected)
    (ok : (schema expected).check [] found = .ok ()) : checkProject payload = .ok expected := by
  rw [checkProject, read]
  have passed : checkProjectMembers found = .ok () := by rw [checkProjectMembers, layout_eq, ok]
  simp only [bind, Except.bind, passed, layout_eq]
  rfl

theorem checkJob_of_members {payload : Bytes} {found : List (String × Json)}
    (read : members payload = .ok found) :
    checkJob payload = .ok () ↔ Schema.job.check [] found = .ok () := by
  rw [checkJob, read]
  change inLayer "job input" (Schema.job.check [] found) = .ok () ↔ _
  cases Schema.job.check [] found with
  | ok _ => exact Iff.rfl
  | error v => exact ⟨fun ok => (nomatch ok), fun ok => (nomatch ok)⟩

theorem hasKey_echoMembers {key : String} {values : σ} (other : key ∉ fields.keys) :
    hasKey key (Shape.echoMembers fields values) = false := by
  rw [hasKey, List.any_eq_false]
  intro member among named
  obtain ⟨written, there, rfl⟩ := List.mem_map.mp among
  have same : written.1 = key := by simpa using named
  refine other (same ▸ (Shape.keys_writeMembers fields values).mem ?_)
  exact List.mem_map_of_mem there

end

theorem project_accepts (m : ProjectMessage) :
    checkProject (Utf8.encode (Notification.project m).toJson) = .ok .flat := by
  have passes := (project_passes.iff [] m).mpr trivial
  rw [ProjectMessage.shape, Shape.echo_record, Members.checkObject] at passes
  refine checkProject_of_members (members_encode faithful_project (by decide)) ?_ passes
  rw [layout, hasKey_echoMembers (by decide)]
  rfl

theorem projectPhase_accepts {m : PhaseMessage} (named : m.payload.projectId.isEmpty = false)
    (finite : m.payload.overallPercent.isFinite) :
    checkProject (Utf8.encode (Notification.projectPhase m).toJson) = .ok .phased := by
  have passes := (projectPhase_passes.iff [] m).mpr ⟨named, finite⟩
  rw [PhaseMessage.shape, Shape.echo_record, Members.checkObject] at passes
  exact checkProject_of_members (members_encode faithful_projectPhase (by decide)) rfl passes

theorem job_accepts_iff (m : JobMessage) :
    checkJob (Utf8.encode (Notification.job m).toJson) = .ok () ↔
      ∀ b ∈ m.batch, ¬Fails (Time.parse b.crawledAt.toText) ∧ ∀ c ∈ b.contents,
        c.id.isEmpty = false ∧ ¬Fails (Time.parse c.publishedAt.toText) ∧
          ∀ m ∈ c.media, m.kind.isEmpty = false := by
  have passes := job_passes.iff [] m
  rw [JobMessage.shape, Shape.echo_record, Members.checkObject] at passes
  exact (checkJob_of_members (members_encode faithful_job (by decide))).trans passes

end Payload

theorem isFinite_of_isPercent {x : Binary64} (percent : isPercent x) : x.isFinite := by
  rw [isPercent, Bool.and_eq_true, Bool.and_eq_true] at percent
  exact percent.1.1

theorem Time.not_fails_parse_toText {t : Instant} (utc : t.IsUtc) :
    ¬Fails (parse t.toText) ↔ t.FourDigits := by
  constructor
  · intro read
    by_contra far
    exact read (parse_toText_signed far)
  · rintro four ⟨f, failed⟩
    rw [parse_toText utc four] at failed
    cases failed

theorem Time.parse_toText_cases {t : Instant} (utc : t.IsUtc) :
    if t.FourDigits then parse t.toText = .ok t else Fails (parse t.toText) := by
  split
  case isTrue four => exact parse_toText utc four
  case isFalse far => exact parse_toText_signed far

namespace Transform

theorem stages_success {ι α : Type} {nanos : Nat} {kind : MessageKind} {shape : Shape ι}
    {payload : Bytes} {check : α → Except Violation Unit} {normal : ι → Noted Event α}
    {wrap : α → Notification} {event : α → Event} {message : Notification}
    (ok : (stages nanos kind shape payload check normal wrap event).value = .ok message) :
    ∃ input, shape.decode payload = .ok input ∧ check (normal input).value = .ok () ∧
      message = wrap (normal input).value := by
  cases read : shape.decode payload with
  | error f =>
    rw [(stages_unreadable read).1] at ok
    cases ok
  | ok input =>
    cases passes : check (normal input).value with
    | error v =>
      rw [(stages_unsound read passes).1] at ok
      cases ok
    | ok _ =>
      rw [(stages_sound read passes).1] at ok
      cases ok
      exact ⟨input, rfl, passes, rfl⟩

/-- A project message is accepted as a payload of the same layout. A job message is accepted if and
only if its instants are in years of four digits, for these are the ones whose text is strict. -/
theorem sent_accepted (nanos : Nat) (payload : Bytes) :
    (∀ message, (project nanos payload).value = .ok message → ∃ layout,
      Payload.checkProject payload = .ok layout ∧
        Payload.checkProject (Utf8.encode message.toJson) = .ok layout) ∧
    (∀ message, (job nanos payload).value = .ok message →
      (Payload.checkJob (Utf8.encode message.toJson) = .ok () ↔
        message.All (fun _ => True) Time.Instant.FourDigits) ∧
      message.All (fun _ => True) fun t =>
        if t.FourDigits then Time.parse t.toText = .ok t else Fails (Time.parse t.toText)) := by
  refine ⟨fun message ok => ?_, fun message ok => ?_⟩
  · cases accepted : Payload.checkProject payload with
    | error v =>
      rw [(project_refused accepted).1] at ok
      cases ok
    | ok layout =>
      rw [(project_accepted accepted).1] at ok
      refine ⟨layout, rfl, ?_⟩
      cases layout with
      | flat =>
        obtain ⟨input, _, _, rfl⟩ := stages_success ok
        exact Payload.project_accepts _
      | phased =>
        obtain ⟨input, _, passes, rfl⟩ := stages_success ok
        have sound := PhaseMessage.check_iff.mp passes
        exact Payload.projectPhase_accepts sound.named (isFinite_of_isPercent sound.overall)
  · cases accepted : Payload.checkJob payload with
    | error v =>
      rw [(job_refused accepted).1] at ok
      cases ok
    | ok _ =>
      rw [job_accepted accepted] at ok
      obtain ⟨input, decoded, passes, rfl⟩ := stages_success ok
      obtain ⟨members, read, kept⟩ := Payload.checkJob_success accepted
      have sound := JobMessage.check_iff.mp passes
      have legible := JobMessage.legible_ofInput (job_assures_legible.of_decode read kept decoded)
      generalize (JobMessage.ofInput input).value = m at sound legible
      rw [Payload.job_accepts_iff, Notification.all_job, Notification.all_job]
      constructor
      · constructor
        · intro kept b held
          obtain ⟨crawled, posts⟩ := kept b held
          have utc := (legible b held).2
          refine ⟨(Time.not_fails_parse_toText utc).mp crawled, fun c among => ?_⟩
          exact (Time.not_fails_parse_toText ((legible b held).1 c among).2).mp (posts c among).2.1
        · intro four b held
          obtain ⟨crawled, posts⟩ := four b held
          have utc := (legible b held).2
          refine ⟨(Time.not_fails_parse_toText utc).mpr crawled, fun c among => ?_⟩
          obtain ⟨media, published⟩ := (legible b held).1 c among
          have named := (((sound.batch b held).contents) c among).named
          exact ⟨named, (Time.not_fails_parse_toText published).mpr (posts c among), media⟩
      · intro b held
        obtain ⟨posts, crawled⟩ := legible b held
        exact ⟨Time.parse_toText_cases crawled, fun c among =>
          Time.parse_toText_cases (posts c among).2⟩

def crawledAt (time : String) : Bytes :=
  Utf8.encode ("\x7b\"platform\":\"TIKTOK\",\"batch\":\x7b\"keyword\":\"k\",\"crawled_at\":\"" ++
    time ++ "\"\x7d\x7d")

def crawledOn (t : Time.Instant) : JobMessage := ⟨.tiktok, none, none, some ⟨"k", [], t⟩⟩

theorem job_crawledAt {nanos : Nat} {time : String} {t : Time.Instant}
    (accepted : Payload.checkJob (crawledAt time) = .ok ())
    (decoded : Input.JobMessage.shape.decode (crawledAt time) =
      .ok ⟨.tiktok, none, none, some ⟨"k", none, t⟩⟩) :
    (job nanos (crawledAt time)).value = .ok (.job (crawledOn t)) := by
  have normal : (JobMessage.ofInput ⟨.tiktok, none, none, some ⟨"k", none, t⟩⟩).value =
      crawledOn t := by cbv
  have passes : JobMessage.check (crawledOn t) = .ok () := by cbv
  rw [job_accepted accepted, jobStages, (stages_sound decoded (normal ▸ passes)).1, normal]

/-- The first hour of the year 2024, two hours ahead, and a project that has paused. -/
theorem sent_accepted_early :
    ((job 0 (crawledAt "2024-01-01T00:30:00+02:00")).value =
        .ok (.job (crawledOn ⟨19722, 81000, 0⟩)) ∧
      Payload.checkJob (Utf8.encode (Notification.job (crawledOn ⟨19722, 81000, 0⟩)).toJson) =
        .ok () ∧
      Time.parse (Time.Instant.toText ⟨19722, 81000, 0⟩) = .ok ⟨19722, 81000, 0⟩) ∧
    ∃ message, (project 0 (Utf8.encode "\x7b\"status\":\"PAUSED\"\x7d")).value = .ok message ∧
      Payload.checkProject (Utf8.encode message.toJson) = .ok .flat := by
  constructor
  · have accepted : Payload.checkJob (crawledAt "2024-01-01T00:30:00+02:00") = .ok () := by cbv
    have decoded : Input.JobMessage.shape.decode (crawledAt "2024-01-01T00:30:00+02:00") =
        .ok ⟨.tiktok, none, none, some ⟨"k", none, ⟨19722, 81000, 0⟩⟩⟩ := by decide +kernel
    have sent : (job 0 _).value = _ := job_crawledAt accepted decoded
    obtain ⟨again, told⟩ := (sent_accepted 0 _).2 _ sent
    have four : Time.Instant.FourDigits ⟨19722, 81000, 0⟩ := by decide
    refine ⟨sent, again.mpr (Notification.all_job.mpr ?_), ?_⟩
    · rintro b ⟨⟩
      exact ⟨four, fun content listed => by cases listed⟩
    · have crawled := (Notification.all_job.mp told _ rfl).1
      rwa [if_pos four] at crawled
  · have accepted : Payload.checkProject (Utf8.encode "\x7b\"status\":\"PAUSED\"\x7d") =
        .ok .flat := by cbv
    have decoded : Input.ProjectMessage.shape.decode
        (Utf8.encode "\x7b\"status\":\"PAUSED\"\x7d") = .ok ⟨some .paused, none⟩ := by cbv
    have normal : (ProjectMessage.ofInput ⟨some .paused, none⟩).value = ⟨some .paused, none⟩ := rfl
    have passes : ProjectMessage.check ⟨some .paused, none⟩ = .ok () := by cbv
    have sent : (project 0 (Utf8.encode "\x7b\"status\":\"PAUSED\"\x7d")).value =
        .ok (.project ⟨some .paused, none⟩) := by
      rw [(project_accepted accepted).1, projectStages, (stages_sound decoded (normal ▸ passes)).1,
        normal]
    obtain ⟨_, first, again⟩ := (sent_accepted 0 _).1 _ sent
    rw [accepted] at first
    cases first
    exact ⟨_, sent, again⟩

/-- The last second of the year 9999, an hour behind. -/
theorem far_job_refused : ¬∀ nanos payload message, (job nanos payload).value = .ok message →
    Payload.checkJob (Utf8.encode message.toJson) = .ok () := by
  intro accepts
  have accepted : Payload.checkJob (crawledAt "9999-12-31T23:59:59-01:00") = .ok () := by cbv
  have decoded : Input.JobMessage.shape.decode (crawledAt "9999-12-31T23:59:59-01:00") =
      .ok ⟨.tiktok, none, none, some ⟨"k", none, ⟨2932897, 3599, 0⟩⟩⟩ := by decide +kernel
  have again := accepts 0 _ _ (job_crawledAt accepted decoded)
  have crawled := ((Payload.job_accepts_iff _).mp again _ rfl).1
  have far : ¬Time.Instant.FourDigits ⟨2932897, 3599, 0⟩ := by decide
  exact crawled (Time.parse_toText_signed far)

end Transform

end NotificationRelay
