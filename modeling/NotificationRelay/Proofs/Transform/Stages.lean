import NotificationRelay.Proofs.Result
import NotificationRelay.Transform

/-! The way of a payload, stage by stage: what comes out of it, and what is counted on it. -/
namespace NotificationRelay.Transform

open Json Noted

def counts {α : Type} (x : Noted Entry α) : List Count := x.notes.filterMap Entry.count?

section

variable {α β : Type}

@[simp]
theorem counts_pure (a : α) : counts (pure a : Noted Entry α) = [] := rfl

@[simp]
theorem counts_bind (x : Noted Entry α) (f : α → Noted Entry β) :
    counts (x >>= f) = counts x ++ counts (f x.value) := by
  rw [counts, notes_bind, List.filterMap_append, counts, counts]

@[simp]
theorem counts_counted (c : Count) : counts (counted c) = [c] := rfl

@[simp]
theorem counts_logged (e : Event) : counts (logged e) = [] := rfl

/-- The notes of a message are events, and none of them counts. -/
@[simp]
theorem counts_mapNotes (x : Noted Event α) : counts (x.mapNotes .event) = [] := by
  rw [counts, notes_mapNotes, List.filterMap_map]
  exact List.filterMap_eq_nil_iff.mpr fun _ _ => rfl

@[simp]
theorem value_failed (kind : MessageKind) (category : Category) (failure : Failure) :
    (failed (α := α) kind category failure).value = .error failure := rfl

@[simp]
theorem counts_failed (kind : MessageKind) (category : Category) (failure : Failure) :
    counts (failed (α := α) kind category failure) = [.failure kind category] := rfl

@[simp]
theorem value_succeeded (nanos : Nat) (message : Notification) (event : Event) :
    (succeeded nanos message event).value = .ok message := rfl

@[simp]
theorem counts_succeeded (nanos : Nat) (message : Notification) (event : Event) :
    counts (succeeded nanos message event) = [.success message.kind nanos] := rfl

theorem andThen_ok {result : Noted Entry (Outcome α)} {a : α} (next : α → Noted Entry (Outcome β))
    (ok : result.value = .ok a) :
    (andThen result next).value = (next a).value ∧
      counts (andThen result next) = counts result ++ counts (next a) := by
  rw [andThen, value_bind, counts_bind, ok]
  exact ⟨rfl, rfl⟩

theorem andThen_error {result : Noted Entry (Outcome α)} {failure : Failure}
    (next : α → Noted Entry (Outcome β)) (fails : result.value = .error failure) :
    (andThen result next).value = .error failure ∧
      counts (andThen result next) = counts result := by
  rw [andThen, value_bind, counts_bind, fails]
  simp

end

section

variable {ι α : Type} {nanos : Nat} {kind : MessageKind} {shape : Shape ι} {payload : Bytes}
  {check : α → Except Violation Unit} {normal : ι → Noted Event α} {wrap : α → Notification}
  {event : α → Event} {input : ι}

def stages (nanos : Nat) (kind : MessageKind) (shape : Shape ι) (payload : Bytes)
    (check : α → Except Violation Unit) (normal : ι → Noted Event α) (wrap : α → Notification)
    (event : α → Event) : Noted Entry (Outcome Notification) :=
  andThen (readAs kind shape payload) fun input =>
    andThen (checked kind check (normal input)) fun message =>
      succeeded nanos (wrap message) (event message)

theorem checked_ok (kind : MessageKind) {message : Noted Event α}
    (passes : check message.value = .ok ()) :
    (checked kind check message).value = .ok message.value ∧
      counts (checked kind check message) = [] := by
  rw [checked, value_bind, counts_bind, value_mapNotes, passes]
  simp

theorem checked_error (kind : MessageKind) {message : Noted Event α} {v : Violation}
    (fails : check message.value = .error v) :
    (checked kind check message).value = .error (.unsound kind v) ∧
      counts (checked kind check message) = [.failure kind .outputValidation] := by
  rw [checked, value_bind, counts_bind, value_mapNotes, fails]
  simp

theorem stages_unreadable {f : Json.Fault} (fails : shape.decode payload = .error f) :
    (stages nanos kind shape payload check normal wrap event).value =
        .error (.unreadable kind (f.toText payload)) ∧
      counts (stages nanos kind shape payload check normal wrap event) =
        [.failure kind .jsonParse] := by
  have read : readAs kind shape payload =
      failed kind .jsonParse (.unreadable kind (f.toText payload)) := by
    rw [readAs, fails]
  rw [stages, read]
  exact andThen_error _ (value_failed _ _ _)

theorem stages_read (read : shape.decode payload = .ok input) :
    stages nanos kind shape payload check normal wrap event =
      andThen (checked kind check (normal input)) fun message =>
        succeeded nanos (wrap message) (event message) := by
  rw [stages, readAs, read]
  rfl

theorem stages_unsound {v : Violation} (read : shape.decode payload = .ok input)
    (fails : check (normal input).value = .error v) :
    (stages nanos kind shape payload check normal wrap event).value = .error (.unsound kind v) ∧
      counts (stages nanos kind shape payload check normal wrap event) =
        [.failure kind .outputValidation] := by
  obtain ⟨value, counted⟩ := checked_error kind fails
  rw [stages_read read]
  exact (andThen_error _ value).imp_right (·.trans counted)

theorem stages_sound (read : shape.decode payload = .ok input)
    (passes : check (normal input).value = .ok ()) :
    (stages nanos kind shape payload check normal wrap event).value =
        .ok (wrap (normal input).value) ∧
      counts (stages nanos kind shape payload check normal wrap event) =
        [.success (wrap (normal input).value).kind nanos] := by
  obtain ⟨value, counted⟩ := checked_ok kind passes
  rw [stages_read read]
  refine (andThen_ok _ value).imp_right fun all => ?_
  rw [all, counted]
  rfl

end

section

variable {nanos : Nat} {payload : Bytes} {layout : Layout} {v : Violation}

def projectStages (nanos : Nat) (payload : Bytes) : Layout → Noted Entry (Outcome Notification)
  | .flat =>
    stages nanos .project Input.ProjectMessage.shape payload ProjectMessage.check
      ProjectMessage.ofInput .project fun _ => .projectTransformed .project
  | .phased =>
    stages nanos .projectPhase (PhaseMessage.shape .received) payload PhaseMessage.check
      PhaseMessage.normalize .projectPhase fun _ => .projectTransformed .projectPhase

def jobStages (nanos : Nat) (payload : Bytes) : Noted Entry (Outcome Notification) :=
  stages nanos .job Input.JobMessage.shape payload JobMessage.check JobMessage.ofInput .job
    fun message => .jobTransformed message.platform

theorem layoutOf_ok (accepted : Payload.checkProject payload = .ok layout) :
    (layoutOf payload).value = .ok layout ∧ counts (layoutOf payload) = [] := by
  rw [layoutOf]
  cases Payload.members payload <;> simp [accepted]

theorem layoutOf_error (refused : Payload.checkProject payload = .error v) :
    (layoutOf payload).value = .error (.payload v) ∧
      counts (layoutOf payload) = [.failure .project .validation] := by
  rw [layoutOf]
  cases Payload.members payload <;> simp [refused]

theorem project_accepted (accepted : Payload.checkProject payload = .ok layout) :
    (project nanos payload).value = (projectStages nanos payload layout).value ∧
      counts (project nanos payload) = counts (projectStages nanos payload layout) := by
  obtain ⟨value, counted⟩ := layoutOf_ok accepted
  have steps := andThen_ok (fun layout => projectStages nanos payload layout) value
  have whole : project nanos payload =
      andThen (layoutOf payload) fun layout => projectStages nanos payload layout := by
    rw [project]
    congr
  rw [whole, steps.2, counted]
  exact ⟨steps.1, rfl⟩

theorem project_refused (refused : Payload.checkProject payload = .error v) :
    (project nanos payload).value = .error (.payload v) ∧
      counts (project nanos payload) = [.failure .project .validation] := by
  obtain ⟨value, counted⟩ := layoutOf_error refused
  rw [project]
  exact (andThen_error _ value).imp_right (·.trans counted)

theorem job_accepted (accepted : Payload.checkJob payload = .ok ()) :
    job nanos payload = jobStages nanos payload := by
  rw [job, accepted]
  rfl

theorem job_refused (refused : Payload.checkJob payload = .error v) :
    (job nanos payload).value = .error (.payload v) ∧
      counts (job nanos payload) = [.failure .job .validation] := by
  rw [job, refused]
  exact ⟨rfl, rfl⟩

end

end NotificationRelay.Transform
