import NotificationRelay.Proofs.Message.Repeats

/-! What is told of the changes to a message. Each field of a message that is made is the field that
was given, except that a list that is missing is empty; each number that has been replaced and each
post that is left out has one line in the log, and there is no other line. -/
namespace NotificationRelay

open Json

def adjustment (event field : String) (given sent : Binary64) : Log.Line :=
  ⟨.warn, event, [("field", .text field), ("original", .real given), ("clamped", .real sent)]⟩

/-- A number is sent as it was given and nothing is told, or a number that differs from it is sent
and one line tells of both. -/
inductive Adjusted (line : Binary64 → Binary64 → Log.Line) (given : Binary64) :
    Binary64 → List Log.Line → Prop where
  | kept : Adjusted line given given []
  | changed {sent : Binary64} (other : sent ≠ given) (differs : sent.same given = false) :
      Adjusted line given sent [line given sent]

/-- A block is made of the one that was given, and none where none was given. -/
inductive MadeOfSlot {α β : Type} (made : α → β → List Log.Line → Prop) :
    Option α → Option β → List Log.Line → Prop where
  | missing : MadeOfSlot made none none []
  | there {a : α} {b : β} {lines : List Log.Line} (block : made a b lines) :
      MadeOfSlot made (some a) (some b) lines

structure Progress.MadeOf (given : Input.Progress) (sent : Progress) (lines : List Log.Line) :
    Prop where
  current : sent.current = given.current
  total : sent.total = given.total
  errors : sent.errors = given.errors.getD []
  numbers : ∃ first second, lines = first ++ second ∧
    Adjusted (adjustment "percentage_clamped" "progress.percentage") given.percentage
      sent.percentage first ∧
    Adjusted (adjustment "eta_clamped" "eta") given.eta sent.eta second

structure ProjectMessage.MadeOf (given : Input.ProjectMessage) (sent : ProjectMessage)
    (lines : List Log.Line) : Prop where
  status : sent.status = given.status
  progress : MadeOfSlot Progress.MadeOf given.progress sent.progress lines

structure PhaseProgress.MadeOf (field : String) (given sent : PhaseProgress)
    (lines : List Log.Line) : Prop where
  total : sent.total = given.total
  done : sent.done = given.done
  errors : sent.errors = given.errors
  percent : Adjusted (adjustment "percentage_clamped" field) given.percent sent.percent lines

structure PhaseMessage.MadeOf (given sent : PhaseMessage) (lines : List Log.Line) : Prop where
  event : sent.event = given.event
  projectId : sent.payload.projectId = given.payload.projectId
  status : sent.payload.status = given.payload.status
  numbers : ∃ first second third, lines = first ++ second ++ third ∧
    MadeOfSlot (PhaseProgress.MadeOf "payload.crawl.progress_percent") given.payload.crawl
      sent.payload.crawl first ∧
    MadeOfSlot (PhaseProgress.MadeOf "payload.analyze.progress_percent") given.payload.analyze
      sent.payload.analyze second ∧
    Adjusted (adjustment "percentage_clamped" "payload.overall_progress_percent")
      given.payload.overallPercent sent.payload.overallPercent third

def omission (c : Content) : Log.Line :=
  ⟨.debug, "duplicate_content_skipped", [("content_id", .text c.id)]⟩

def omissions (keyword : String) (dropped kept : Nat) : List Log.Line :=
  if dropped = 0 then []
  else [⟨.warn, "duplicate_content_dropped",
    [("keyword", .text keyword), ("duplicates", .natural dropped), ("kept", .natural kept)]⟩]

/-- The posts of a batch stay as they are, but for those with the identifier of an earlier one. -/
structure Batch.MadeOf (given : Input.Batch) (sent : Batch) (lines : List Log.Line) : Prop where
  keyword : sent.keyword = given.keyword
  crawledAt : sent.crawledAt = given.crawledAt
  contents : sent.contents = firsts (given.contents.getD [])
  omitted : lines = (repeats (given.contents.getD [])).map omission ++
    omissions given.keyword (repeats (given.contents.getD [])).length sent.contents.length
  shared : (repeats (given.contents.getD [])).length + sent.contents.length =
    (given.contents.getD []).length

structure JobMessage.MadeOf (given : Input.JobMessage) (sent : JobMessage)
    (lines : List Log.Line) : Prop where
  platform : sent.platform = given.platform
  status : sent.status = given.status
  blocks : ∃ first second, lines = first ++ second ∧
    MadeOfSlot Progress.MadeOf given.progress sent.progress first ∧
    MadeOfSlot Batch.MadeOf given.batch sent.batch second

def told {α : Type} (x : Noted Event α) : List Log.Line := x.notes.map Event.line

section

variable {α β : Type}

@[simp]
theorem told_pure (a : α) : told (pure a : Noted Event α) = [] := rfl

@[simp]
theorem told_bind (x : Noted Event α) (f : α → Noted Event β) :
    told (x >>= f) = told x ++ told (f x.value) := List.map_append

theorem madeOfSlot_onSome {f : α → Noted Event β} {made : α → β → List Log.Line → Prop}
    (each : ∀ a, made a (f a).value (told (f a))) (slot : Option α) :
    MadeOfSlot made slot (onSome f slot).value (told (onSome f slot)) := by
  cases slot with
  | none => exact .missing
  | some a =>
    have lines : told (onSome f (some a)) = told (f a) := by simp [onSome]
    rw [lines]
    exact .there (each a)

end

theorem adjusted_clampPercent {path : Path} {field : String} (named : path.toText = field)
    (x : Binary64) :
    Adjusted (adjustment "percentage_clamped" field) x (clampPercent path x).value
      (told (clampPercent path x)) := by
  rw [clampPercent]
  subst named
  split
  · rename_i same
    have kept := (percentOf_same_iff x).mp same
    simp only [kept, Noted.value_pure, told_pure]
    exact .kept
  · rename_i differs
    have other : percentOf x ≠ x := fun kept => differs ((percentOf_same_iff x).mpr kept)
    exact .changed other (by simpa using differs)

theorem adjusted_clampEta (x : Binary64) :
    Adjusted (adjustment "eta_clamped" "eta") x (clampEta x).value (told (clampEta x)) := by
  rw [clampEta]
  split
  · exact .kept
  · rename_i low
    have other : Binary64.zero ≠ x := by
      intro same
      rw [← same] at low
      exact absurd low (by decide)
    have differs : ¬Binary64.zero.same x = true := by
      intro same
      obtain ⟨zero, number, ranks⟩ := Binary64.same_iff.mp same
      exact low (Binary64.le_iff.mpr ⟨zero, number, Int.le_of_eq ranks⟩)
    exact .changed other (by simpa using differs)

theorem Progress.madeOf_ofInput (p : Input.Progress) :
    Progress.MadeOf p (Progress.ofInput p).value (told (Progress.ofInput p)) := by
  have named : Path.toText [.key "progress", .key "percentage"] = "progress.percentage" := rfl
  refine ⟨rfl, rfl, rfl, _, _, ?_, adjusted_clampPercent named p.percentage,
    adjusted_clampEta p.eta⟩
  simp [Progress.ofInput]

theorem ProjectMessage.madeOf_ofInput (m : Input.ProjectMessage) :
    ProjectMessage.MadeOf m (ProjectMessage.ofInput m).value (told (ProjectMessage.ofInput m)) := by
  have lines : told (ProjectMessage.ofInput m) = told (onSome Progress.ofInput m.progress) := by
    simp [ProjectMessage.ofInput]
  rw [lines]
  exact ⟨rfl, madeOfSlot_onSome Progress.madeOf_ofInput m.progress⟩

theorem PhaseProgress.madeOf_normalize {path : Path} {field : String} (named : path.toText = field)
    (p : PhaseProgress) :
    PhaseProgress.MadeOf field p (p.normalize path).value (told (p.normalize path)) := by
  have lines : told (p.normalize path) = told (clampPercent path p.percent) := by
    simp [PhaseProgress.normalize]
  rw [lines]
  exact ⟨rfl, rfl, rfl, adjusted_clampPercent named p.percent⟩

theorem PhaseMessage.madeOf_normalize (m : PhaseMessage) :
    PhaseMessage.MadeOf m m.normalize.value (told m.normalize) := by
  have crawl : Path.toText [.key "payload", .key "crawl", .key "progress_percent"] =
      "payload.crawl.progress_percent" := rfl
  have analyze : Path.toText [.key "payload", .key "analyze", .key "progress_percent"] =
      "payload.analyze.progress_percent" := rfl
  have overall : Path.toText [.key "payload", .key "overall_progress_percent"] =
      "payload.overall_progress_percent" := rfl
  refine ⟨rfl, rfl, rfl, _, _, _, ?_,
    madeOfSlot_onSome (PhaseProgress.madeOf_normalize crawl) m.payload.crawl,
    madeOfSlot_onSome (PhaseProgress.madeOf_normalize analyze) m.payload.analyze,
    adjusted_clampPercent overall m.payload.overallPercent⟩
  simp [PhaseMessage.normalize]

theorem Batch.madeOf_ofInput (b : Input.Batch) :
    Batch.MadeOf b (Batch.ofInput b).value (told (Batch.ofInput b)) := by
  have contents : (Batch.ofInput b).value.contents = firsts (b.contents.getD []) := by
    rw [Batch.contents_ofInput, sift_eq]
  refine ⟨?_, ?_, contents, ?_, ?_⟩
  · simp only [Batch.ofInput, Noted.value_bind]
    split <;> rfl
  · simp only [Batch.ofInput, Noted.value_bind]
    split <;> rfl
  · rw [contents]
    have skips : told (sift (b.contents.getD [])) =
        (repeats (b.contents.getD [])).map omission := by
      rw [sift_eq, told, skipped, List.map_map]
      rfl
    rw [Batch.ofInput, told_bind, skips, sift_eq, omissions]
    by_cases none : (repeats (b.contents.getD [])).length = 0
    · simp [none]
    · simp [none, Nat.pos_of_ne_zero none, told, Noted.note, Event.line]
  · rw [contents]
    exact length_repeats_add_firsts _

theorem JobMessage.madeOf_ofInput (m : Input.JobMessage) :
    JobMessage.MadeOf m (JobMessage.ofInput m).value (told (JobMessage.ofInput m)) := by
  refine ⟨rfl, rfl, _, _, ?_, madeOfSlot_onSome Progress.madeOf_ofInput _,
    madeOfSlot_onSome Batch.madeOf_ofInput _⟩
  simp [JobMessage.ofInput]

end NotificationRelay
