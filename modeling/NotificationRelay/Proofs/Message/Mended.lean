import NotificationRelay.Proofs.Message.Repeats

/-! What the normal form mends. The normal form of a message is sound unless its estimate is
positive infinity, its project has no name, or a post that is kept is not sound itself. -/
namespace NotificationRelay

theorem zero_le_clampEta (x : Binary64) : Binary64.zero.le (clampEta x).value := by
  rw [clampEta]
  split
  · rename_i low
    exact low
  · show Binary64.zero.le .zero
    decide

theorem isFinite_clampEta_iff (x : Binary64) :
    (clampEta x).value.isFinite ↔ x ≠ .infinity false := by
  constructor
  · intro finite infinite
    rw [infinite] at finite
    exact absurd finite (by decide)
  · intro other
    by_contra great
    have great : (clampEta x).value.isFinite = false := by simpa using great
    have top := Binary64.eq_infinity (zero_le_clampEta x) great
    rw [clampEta] at top
    split at top
    · exact other top
    · have top : Binary64.zero = .infinity false := top
      exact absurd top (by decide)

theorem Progress.sound_ofInput_iff (p : Input.Progress) :
    (Progress.ofInput p).value.Sound ↔ p.eta ≠ .infinity false := by
  rw [← isFinite_clampEta_iff]
  constructor
  · intro sound
    exact sound.finite
  · intro finite
    refine ⟨?_, finite, zero_le_clampEta p.eta⟩
    simp only [Progress.ofInput, Noted.value_bind, Noted.value_pure, value_clampPercent]
    exact isPercent_percentOf _

/-- What holds of the blocks of all messages that may be made of a block holds of those that are. -/
theorem forall_mem_value_onSome {α β : Type} {f : α → Noted Event β} {slot : Option α}
    {good : β → Prop} : (∀ b ∈ (onSome f slot).value, good b) ↔ ∀ a ∈ slot, good (f a).value := by
  cases slot <;> simp

theorem Progress.sound_onSome_iff (slot : Option Input.Progress) :
    (∀ p ∈ (onSome Progress.ofInput slot).value, p.Sound) ↔ ∀ p ∈ slot, p.eta ≠ .infinity false :=
  forall_mem_value_onSome.trans (forall₂_congr fun p _ => Progress.sound_ofInput_iff p)

theorem PhaseMessage.sound_normalize_iff (m : PhaseMessage) :
    m.normalize.value.payload.Sound ↔ m.payload.projectId ≠ "" := by
  constructor
  · intro sound empty
    have named : m.payload.projectId.isEmpty = false := sound.named
    rw [empty] at named
    cases named
  · intro named
    exact PhaseMessage.sound_normalize (by simpa using named)

theorem Batch.sound_ofInput_iff (b : Input.Batch) :
    (Batch.ofInput b).value.Sound ↔ ∀ c ∈ firsts (b.contents.getD []), c.Sound := by
  have kept : (Batch.ofInput b).value.contents = firsts (b.contents.getD []) := by
    rw [Batch.contents_ofInput, sift_eq]
  have distinct : ((sift (b.contents.getD [])).value.kept.map Content.id).Nodup :=
    nodup_siftFrom [] _
  constructor
  · intro sound c among
    exact sound.contents c (kept ▸ among)
  · intro sound
    refine ⟨fun c among => sound c (kept ▸ among), ?_⟩
    rw [Batch.contents_ofInput]
    exact distinct

theorem JobMessage.sound_ofInput_iff (m : Input.JobMessage) :
    (JobMessage.ofInput m).value.Sound ↔ (∀ p ∈ m.progress, p.eta ≠ .infinity false) ∧
      ∀ b ∈ m.batch, ∀ c ∈ firsts (b.contents.getD []), c.Sound := by
  have batch : (∀ b ∈ (onSome Batch.ofInput m.batch).value, b.Sound) ↔
      ∀ b ∈ m.batch, ∀ c ∈ firsts (b.contents.getD []), c.Sound :=
    forall_mem_value_onSome.trans (forall₂_congr fun b _ => Batch.sound_ofInput_iff b)
  rw [← Progress.sound_onSome_iff, ← batch]
  exact ⟨fun sound => ⟨sound.progress, sound.batch⟩, fun both => ⟨both.1, both.2⟩⟩

theorem Content.sound_iff (c : Content) : c.Sound ↔ ¬(c.id = "" ∨ c.reach.rate.isFinite = false) := by
  rw [not_or, Bool.not_eq_false]
  constructor
  · intro sound
    exact ⟨by simpa using sound.named, sound.finite⟩
  · rintro ⟨named, finite⟩
    exact ⟨by simpa using named, finite⟩

end NotificationRelay
