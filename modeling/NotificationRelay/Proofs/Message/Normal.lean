import NotificationRelay.Message.Normal
import NotificationRelay.Proofs.Message.Check

/-! The normal form of a message is sound, whatever its percentages are and however often its posts
repeat, as soon as the rest of it is sound. -/
namespace NotificationRelay

open Json

structure Input.Batch.Sound (b : Input.Batch) : Prop where
  contents : ∀ list ∈ b.contents, ∀ c ∈ list, c.Sound

structure Input.JobMessage.Sound (m : Input.JobMessage) : Prop where
  progress : ∀ p ∈ m.progress, p.eta.isFinite
  batch : ∀ b ∈ m.batch, b.Sound

theorem isPercent_zero : isPercent .zero := by decide +kernel

theorem isPercent_hundred : isPercent hundred := by decide +kernel

theorem isPercent_percentOf (x : Binary64) : isPercent (percentOf x) := by
  rw [percentOf]
  split
  · exact isPercent_zero
  rename_i number
  have number : x.isNaN = false := by simpa using number
  have limit : hundred.isFinite := by decide +kernel
  rw [Binary64.clamp]
  split
  · exact isPercent_zero
  split
  · exact isPercent_hundred
  · rename_i low high
    have low : Binary64.zero.le x :=
      (Binary64.lt_eq_false number (by decide)).mp (by simpa using low)
    have high : x.le hundred :=
      (Binary64.lt_eq_false (Binary64.isNaN_of_isFinite limit) number).mp (by simpa using high)
    have finite := Binary64.isFinite_of_between low high limit
    simp [isPercent, low, high, finite]

/-- A percentage in range stays, with the sign of a zero. -/
theorem percentOf_of_isPercent {x : Binary64} (right : isPercent x) : percentOf x = x := by
  rw [isPercent, Bool.and_eq_true, Bool.and_eq_true] at right
  obtain ⟨⟨finite, low⟩, high⟩ := right
  have number := Binary64.isNaN_of_isFinite finite
  have notLow : x.lt .zero = false := (Binary64.lt_eq_false number (by decide)).mpr low
  have notHigh : hundred.lt x = false :=
    (Binary64.lt_eq_false (Binary64.le_iff.mp high).2.1 number).mpr high
  rw [percentOf, number, Binary64.clamp, notLow, notHigh]
  rfl

/-- What is put in the place of a percentage is another number, unless it is the very same. -/
theorem percentOf_same_iff (x : Binary64) : (percentOf x).same x ↔ percentOf x = x := by
  constructor
  · intro same
    obtain ⟨_, number, ranks⟩ := Binary64.same_iff.mp same
    rw [percentOf, number] at ranks ⊢
    simp only [Bool.false_eq_true, if_false, Binary64.clamp] at ranks ⊢
    split at ranks
    · rename_i low
      have below := (Binary64.lt_iff.mp low).2.2
      omega
    · split at ranks
      · rename_i high
        have above := (Binary64.lt_iff.mp high).2.2
        omega
      · rename_i low high
        rw [if_neg low, if_neg high]
  · intro kept
    have right := isPercent_percentOf x
    rw [kept] at right ⊢
    rw [isPercent, Bool.and_eq_true, Bool.and_eq_true] at right
    have number := Binary64.isNaN_of_isFinite right.1.1
    exact Binary64.same_iff.mpr ⟨number, number, rfl⟩

@[simp]
theorem value_clampPercent (path : Path) (x : Binary64) :
    (clampPercent path x).value = percentOf x := by
  rw [clampPercent]
  split <;> rfl

theorem clampEta_bounds {x : Binary64} (finite : x.isFinite) :
    (clampEta x).value.isFinite ∧ Binary64.zero.le (clampEta x).value := by
  rw [clampEta]
  split
  · rename_i low
    exact ⟨finite, low⟩
  · exact ⟨show Binary64.zero.isFinite by decide, show Binary64.zero.le .zero by decide⟩

@[simp]
theorem value_onSome {α β : Type} (f : α → Noted Event β) (slot : Option α) :
    (onSome f slot).value = slot.map fun a => (f a).value := by
  cases slot <;> rfl

theorem Progress.sound_ofInput {p : Input.Progress} (finite : p.eta.isFinite) :
    (Progress.ofInput p).value.Sound := by
  obtain ⟨finite, low⟩ := clampEta_bounds finite
  simp only [Progress.ofInput, Noted.value_bind, Noted.value_pure, value_clampPercent]
  exact ⟨isPercent_percentOf _, finite, low⟩

theorem PhaseProgress.sound_normalize (path : Path) (p : PhaseProgress) :
    (p.normalize path).value.Sound := by
  simp only [PhaseProgress.normalize, Noted.value_bind, Noted.value_pure, value_clampPercent]
  exact isPercent_percentOf _

theorem ProjectMessage.sound_ofInput {m : Input.ProjectMessage}
    (finite : ∀ p ∈ m.progress, p.eta.isFinite) :
    ∀ p ∈ (ProjectMessage.ofInput m).value.progress, p.Sound := by
  simp only [ProjectMessage.ofInput, Noted.value_bind, Noted.value_pure, value_onSome]
  intro p among
  obtain ⟨input, given, rfl⟩ := Option.map_eq_some_iff.mp among
  exact Progress.sound_ofInput (finite input given)

theorem PhaseMessage.sound_normalize {m : PhaseMessage}
    (named : m.payload.projectId.isEmpty = false) : m.normalize.value.payload.Sound := by
  simp only [PhaseMessage.normalize, Noted.value_bind, Noted.value_pure, value_onSome,
    value_clampPercent]
  refine ⟨named, isPercent_percentOf _, ?_, ?_⟩
  · intro p among
    obtain ⟨input, _, rfl⟩ := Option.map_eq_some_iff.mp among
    exact PhaseProgress.sound_normalize _ input
  · intro p among
    obtain ⟨input, _, rfl⟩ := Option.map_eq_some_iff.mp among
    exact PhaseProgress.sound_normalize _ input

/-- Nothing in a post changes on its way. -/
@[simp]
theorem Content.passOn_eq (c : Content) : c.passOn = c := by
  have media : c.media.map Media.passOn = c.media := by cases c.media <;> rfl
  rw [Content.passOn, media]
  rfl

/-- What is kept is given, in the same order, and not seen before. -/
theorem sublist_siftFrom (seen : List String) (contents : List Content) :
    (siftFrom seen contents).value.kept.Sublist contents := by
  induction contents generalizing seen with
  | nil => exact .slnil
  | cons c rest ih =>
    rw [siftFrom, Content.passOn_eq]
    split
    · exact (ih seen).cons c
    · exact (ih (c.id :: seen)).cons_cons c

theorem fresh_siftFrom (seen : List String) (contents : List Content) :
    ∀ c ∈ (siftFrom seen contents).value.kept, c.id ∉ seen := by
  induction contents generalizing seen with
  | nil => simp [siftFrom]
  | cons c rest ih =>
    rw [siftFrom, Content.passOn_eq]
    split
    · exact ih seen
    · rename_i fresh
      intro d among
      rcases List.mem_cons.mp among with rfl | later
      · exact fresh
      · exact fun old => ih (c.id :: seen) d later (List.mem_cons_of_mem _ old)

theorem nodup_siftFrom (seen : List String) (contents : List Content) :
    ((siftFrom seen contents).value.kept.map Content.id).Nodup := by
  induction contents generalizing seen with
  | nil => simp [siftFrom]
  | cons c rest ih =>
    rw [siftFrom, Content.passOn_eq]
    split
    · exact ih seen
    · refine List.nodup_cons.mpr ⟨?_, ih (c.id :: seen)⟩
      intro twice
      obtain ⟨d, later, same⟩ := List.mem_map.mp twice
      exact fresh_siftFrom (c.id :: seen) rest d later (same ▸ List.mem_cons_self)

theorem Batch.contents_ofInput (b : Input.Batch) :
    (Batch.ofInput b).value.contents = (sift (b.contents.getD [])).value.kept := by
  simp only [Batch.ofInput, Noted.value_bind]
  split <;> rfl

theorem Batch.sound_ofInput {b : Input.Batch} (sound : b.Sound) : (Batch.ofInput b).value.Sound := by
  have given : ∀ c ∈ b.contents.getD [], c.Sound := by
    cases found : b.contents with
    | none => simp
    | some list => exact sound.contents list found
  refine ⟨?_, ?_⟩
  · rw [Batch.contents_ofInput]
    intro c among
    exact given c ((sublist_siftFrom [] _).mem among)
  · rw [Batch.contents_ofInput]
    exact nodup_siftFrom [] _

theorem JobMessage.sound_ofInput {m : Input.JobMessage} (sound : m.Sound) :
    (JobMessage.ofInput m).value.Sound := by
  simp only [JobMessage.ofInput, Noted.value_bind, Noted.value_pure, value_onSome]
  refine ⟨?_, ?_⟩
  · intro p among
    obtain ⟨input, given, rfl⟩ := Option.map_eq_some_iff.mp among
    exact Progress.sound_ofInput (sound.progress input given)
  · intro b among
    obtain ⟨input, given, rfl⟩ := Option.map_eq_some_iff.mp among
    exact Batch.sound_ofInput (sound.batch input given)

end NotificationRelay
