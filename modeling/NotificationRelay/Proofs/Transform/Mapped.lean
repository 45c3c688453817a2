import NotificationRelay.Proofs.Message.Mended
import NotificationRelay.Proofs.Message.Settled
import NotificationRelay.Proofs.Message.Told
import NotificationRelay.Proofs.Transform.Stages

/-! The way of a message from the moment it has been read. It is refused just for what its normal
form does not mend; all that is changed on the way is told in the log; and a message that has come
out stays as it is when it goes the same way again. -/
namespace NotificationRelay.Transform

open Json Noted

def lines {α : Type} (x : Noted Entry α) : List Log.Line := x.notes.filterMap Entry.line?

section

variable {α : Type} {kind : MessageKind} {check : α → Except Violation Unit}
  {message : Noted Event α}

/-- The check of a message tells nothing of its own. -/
theorem lines_checked : lines (checked kind check message) = told message := by
  have events : (message.notes.map Entry.event).filterMap Entry.line? = told message := by
    rw [List.filterMap_map]
    exact congrFun List.filterMap_eq_map message.notes
  rw [lines, checked, notes_bind, List.filterMap_append, notes_mapNotes, events, value_mapNotes]
  cases check message.value with
  | error v => exact List.append_nil _
  | ok _ => exact List.append_nil _

theorem checked_success {output : α} (ok : (checked kind check message).value = .ok output) :
    check message.value = .ok () ∧ message.value = output := by
  cases passed : check message.value with
  | error v =>
    rw [(checked_error kind passed).1] at ok
    cases ok
  | ok _ =>
    rw [(checked_ok kind passed).1] at ok
    exact ⟨rfl, Except.ok.inj ok⟩

theorem checked_pure {output : α} (passed : check output = .ok ()) :
    checked kind check (pure output) = pure (.ok output) := by
  rw [checked, mapNotes_pure, bind_of_pure, passed]

end

/-- A message is refused just if something is wrong with it that is not mended. It is then refused
as unsound and counted once as such under its kind, and a message that is made is not counted yet. -/
structure RefusedJustIf {α : Type} (kind : MessageKind) (wrong : Prop)
    (x : Noted Entry (Outcome α)) : Prop where
  fails : Fails x.value ↔ wrong
  unsound : ∀ failure, x.value = .error failure →
    (∃ v, failure = .unsound kind v) ∧ counts x = [.failure kind .outputValidation]
  uncounted : ∀ message, x.value = .ok message → counts x = []

theorem refusedJustIf_checked {α : Type} (kind : MessageKind) {check : α → Except Violation Unit}
    {message : Noted Event α} {wrong : Prop} (passes : check message.value = .ok () ↔ ¬wrong) :
    RefusedJustIf kind wrong (checked kind check message) := by
  cases passed : check message.value with
  | error v =>
    obtain ⟨value, counted⟩ := checked_error kind passed
    have wrong : wrong := by
      by_contra right
      rw [passes.mpr right] at passed
      cases passed
    refine ⟨iff_of_true ⟨_, value⟩ wrong, ?_, ?_⟩
    · intro failure refused
      rw [value] at refused
      cases refused
      exact ⟨⟨v, rfl⟩, counted⟩
    · intro output made
      rw [value] at made
      cases made
  | ok _ =>
    obtain ⟨value, counted⟩ := checked_ok kind passed
    refine ⟨iff_of_false ?_ (passes.mp passed), ?_, fun _ _ => counted⟩
    · rintro ⟨failure, refused⟩
      rw [value] at refused
      cases refused
    · intro failure refused
      rw [value] at refused
      cases refused

/-- What the normal form does not mend: an estimate of positive infinity, a project without a name,
and a post without a name or with a rate that is not finite, unless it repeats an earlier one. -/
theorem refused_exactly :
    (∀ input : Input.ProjectMessage,
      RefusedJustIf .project (∃ p ∈ input.progress, p.eta = .infinity false)
        (flatMessage input)) ∧
    (∀ input : PhaseMessage,
      RefusedJustIf .projectPhase (input.payload.projectId = "") (phaseMessage input)) ∧
    ∀ input : Input.JobMessage,
      RefusedJustIf .job
        ((∃ p ∈ input.progress, p.eta = .infinity false) ∨
          ∃ b ∈ input.batch, ∃ c ∈ firsts (b.contents.getD []),
            c.id = "" ∨ c.reach.rate.isFinite = false)
        (jobMessage input) := by
  refine ⟨fun input => ?_, fun input => ?_, fun input => ?_⟩
  · apply refusedJustIf_checked
    rw [ProjectMessage.check_iff]
    push Not
    exact Progress.sound_onSome_iff input.progress
  · apply refusedJustIf_checked
    rw [PhaseMessage.check_iff]
    exact PhaseMessage.sound_normalize_iff input
  · apply refusedJustIf_checked
    rw [JobMessage.check_iff, JobMessage.sound_ofInput_iff, not_or]
    simp only [Content.sound_iff, not_exists, not_and, ne_eq]

/-- Whatever is made of a message, each field is the one that was given, with the empty list for a
missing one, unless the log tells otherwise: it has one line for each number that was replaced and
for each post that was left out, one for all posts left out together, and no line else. -/
theorem changes_told :
    (∀ input output, (flatMessage input).value = .ok output →
      ProjectMessage.MadeOf input output (lines (flatMessage input))) ∧
    (∀ input output, (phaseMessage input).value = .ok output →
      PhaseMessage.MadeOf input output (lines (phaseMessage input))) ∧
    ∀ input output, (jobMessage input).value = .ok output →
      JobMessage.MadeOf input output (lines (jobMessage input)) := by
  refine ⟨fun input output made => ?_, fun input output made => ?_, fun input output made => ?_⟩
  · obtain ⟨_, rfl⟩ := checked_success made
    rw [flatMessage, lines_checked]
    exact ProjectMessage.madeOf_ofInput input
  · obtain ⟨_, rfl⟩ := checked_success made
    rw [phaseMessage, lines_checked]
    exact PhaseMessage.madeOf_normalize input
  · obtain ⟨_, rfl⟩ := checked_success made
    rw [jobMessage, lines_checked]
    exact JobMessage.madeOf_ofInput input

/-- No number, a negative infinity and no list of errors. -/
def unruly : Input.ProjectMessage :=
  ⟨some .crawling, some ⟨5, 4, .nan, .infinity true, none⟩⟩

def unruly' : ProjectMessage := ⟨some .crawling, some ⟨5, 4, .zero, .zero, []⟩⟩

/-- An infinite percentage, and a negative zero, which is in range. -/
def boundless : PhaseMessage :=
  ⟨.progress, ⟨"p", .processing, some ⟨9, 9, 2, .infinity false⟩, none, Binary64.zero.negate⟩⟩

def boundless' : PhaseMessage :=
  ⟨.progress, ⟨"p", .processing, some ⟨9, 9, 2, hundred⟩, none, Binary64.zero.negate⟩⟩

def post (id text : String) (rate : Binary64) : Content :=
  ⟨id, text, .unknown, ⟨0, 0, 0, 0, rate⟩, none, ⟨0, 0, 0⟩, ""⟩

/-- A post that comes again, with a rate that would not do, and once more. -/
def cluttered : Input.JobMessage :=
  ⟨.tiktok, none, none, some ⟨"k", some [post "a" "first" .zero, post "a" "second" .nan,
    post "b" "" .zero, post "a" "third" .zero], ⟨0, 0, 0⟩⟩⟩

def cluttered' : JobMessage :=
  ⟨.tiktok, none, none, some ⟨"k", [post "a" "first" .zero, post "b" "" .zero], ⟨0, 0, 0⟩⟩⟩

theorem flat_unruly : (flatMessage unruly).value = .ok unruly' := by decide +kernel

theorem phase_boundless : (phaseMessage boundless).value = .ok boundless' := by decide +kernel

theorem job_cluttered : (jobMessage cluttered).value = .ok cluttered' := by decide +kernel

theorem changes_told_unruly :
    ProjectMessage.MadeOf unruly unruly' (lines (flatMessage unruly)) ∧
      PhaseMessage.MadeOf boundless boundless' (lines (phaseMessage boundless)) ∧
      JobMessage.MadeOf cluttered cluttered' (lines (jobMessage cluttered)) := by
  obtain ⟨ofFlat, ofPhased, ofJob⟩ := changes_told
  exact ⟨ofFlat unruly unruly' flat_unruly, ofPhased boundless boundless' phase_boundless,
    ofJob cluttered cluttered' job_cluttered⟩

/-- A message that has come out comes out again as it is, and nothing is told or counted. -/
theorem normal_form_stays :
    (∀ input output, (flatMessage input).value = .ok output →
      flatMessage output.toInput = pure (.ok output)) ∧
    (∀ input output, (phaseMessage input).value = .ok output →
      phaseMessage output = pure (.ok output)) ∧
    ∀ input output, (jobMessage input).value = .ok output →
      jobMessage output.toInput = pure (.ok output) := by
  refine ⟨fun input output made => ?_, fun input output made => ?_, fun input output made => ?_⟩
  · obtain ⟨passed, rfl⟩ := checked_success made
    have stays := ProjectMessage.ofInput_toInput (ProjectMessage.check_iff.mp passed)
    rw [flatMessage, stays]
    exact checked_pure passed
  · obtain ⟨passed, rfl⟩ := checked_success made
    have stays := PhaseMessage.normalize_of_sound (PhaseMessage.check_iff.mp passed)
    rw [phaseMessage, stays]
    exact checked_pure passed
  · obtain ⟨passed, rfl⟩ := checked_success made
    have stays := JobMessage.ofInput_toInput (JobMessage.check_iff.mp passed)
    rw [jobMessage, stays]
    exact checked_pure passed

theorem normal_form_stays_unruly :
    (flatMessage unruly).value = .ok unruly' ∧
      flatMessage unruly'.toInput = pure (.ok unruly') ∧
      (phaseMessage boundless).value = .ok boundless' ∧
      phaseMessage boundless' = pure (.ok boundless') ∧
      (jobMessage cluttered).value = .ok cluttered' ∧
      jobMessage cluttered'.toInput = pure (.ok cluttered') := by
  obtain ⟨ofFlat, ofPhased, ofJob⟩ := normal_form_stays
  exact ⟨flat_unruly, ofFlat unruly unruly' flat_unruly, phase_boundless,
    ofPhased boundless boundless' phase_boundless, job_cluttered,
    ofJob cluttered cluttered' job_cluttered⟩

end NotificationRelay.Transform
