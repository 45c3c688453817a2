import NotificationRelay.Proofs.Message.Sifted

/-! Messages in normal form. A sound message that comes back is already in normal form: it stays as
it is, and nothing is noted on the way. -/
namespace NotificationRelay

open Json

def Progress.toInput (p : Progress) : Input.Progress :=
  ⟨p.current, p.total, p.percentage, p.eta, some p.errors⟩

def ProjectMessage.toInput (m : ProjectMessage) : Input.ProjectMessage :=
  ⟨m.status, m.progress.map Progress.toInput⟩

def Batch.toInput (b : Batch) : Input.Batch := ⟨b.keyword, some b.contents, b.crawledAt⟩

def JobMessage.toInput (m : JobMessage) : Input.JobMessage :=
  ⟨m.platform, m.status, m.progress.map Progress.toInput, m.batch.map Batch.toInput⟩

theorem clampPercent_of_isPercent (path : Path) {x : Binary64} (right : isPercent x) :
    clampPercent path x = pure x := by
  have kept := percentOf_of_isPercent right
  rw [clampPercent, if_pos ((percentOf_same_iff x).mpr kept), kept]

theorem clampEta_of_le {x : Binary64} (low : Binary64.zero.le x) : clampEta x = pure x :=
  if_pos low

theorem onSome_of_forall {α : Type} {f : α → Noted Event α} {slot : Option α}
    (each : ∀ a ∈ slot, f a = pure a) : onSome f slot = pure slot := by
  cases slot with
  | none => rfl
  | some a =>
    rw [onSome, each a rfl]
    rfl

theorem onSome_map {α β γ : Type} (f : β → Noted Event γ) (g : α → β) (slot : Option α) :
    onSome f (slot.map g) = onSome (fun a => f (g a)) slot := by
  cases slot <;> rfl

theorem Progress.ofInput_toInput {p : Progress} (sound : p.Sound) :
    Progress.ofInput p.toInput = pure p := by
  have percentage := clampPercent_of_isPercent [.key "progress", .key "percentage"] sound.percentage
  have eta := clampEta_of_le sound.notNegative
  rw [Progress.ofInput, toInput, percentage, eta]
  rfl

theorem ProjectMessage.ofInput_toInput {m : ProjectMessage} (sound : ∀ p ∈ m.progress, p.Sound) :
    ProjectMessage.ofInput m.toInput = pure m := by
  have progress : onSome (fun p => Progress.ofInput p.toInput) m.progress = pure m.progress :=
    onSome_of_forall fun p among => Progress.ofInput_toInput (sound p among)
  rw [ProjectMessage.ofInput, toInput, onSome_map, progress]
  rfl

theorem PhaseProgress.normalize_of_sound (path : Path) {p : PhaseProgress} (sound : p.Sound) :
    p.normalize path = pure p := by
  rw [PhaseProgress.normalize, clampPercent_of_isPercent path sound]
  rfl

theorem PhaseMessage.normalize_of_sound {m : PhaseMessage} (sound : m.payload.Sound) :
    m.normalize = pure m := by
  have crawl (path : Path) : onSome (PhaseProgress.normalize path) m.payload.crawl =
      pure m.payload.crawl :=
    onSome_of_forall fun p among => PhaseProgress.normalize_of_sound path (sound.crawl p among)
  have analyze (path : Path) : onSome (PhaseProgress.normalize path) m.payload.analyze =
      pure m.payload.analyze :=
    onSome_of_forall fun p among => PhaseProgress.normalize_of_sound path (sound.analyze p among)
  have overall (path : Path) : clampPercent path m.payload.overallPercent =
      pure m.payload.overallPercent := clampPercent_of_isPercent path sound.overall
  rw [PhaseMessage.normalize, crawl, analyze, overall]
  rfl

theorem Batch.ofInput_toInput {b : Batch} (sound : b.Sound) : Batch.ofInput b.toInput = pure b := by
  have distinct : sift b.contents = pure ⟨b.contents, 0⟩ :=
    siftFrom_of_distinct sound.distinct fun _ _ => List.not_mem_nil
  rw [Batch.ofInput, toInput, Option.getD_some, distinct]
  rfl

theorem JobMessage.ofInput_toInput {m : JobMessage} (sound : m.Sound) :
    JobMessage.ofInput m.toInput = pure m := by
  have progress : onSome (fun p => Progress.ofInput p.toInput) m.progress = pure m.progress :=
    onSome_of_forall fun p among => Progress.ofInput_toInput (sound.progress p among)
  have batch : onSome (fun b => Batch.ofInput b.toInput) m.batch = pure m.batch :=
    onSome_of_forall fun b among => Batch.ofInput_toInput (sound.batch b among)
  rw [JobMessage.ofInput, toInput, onSome_map, onSome_map, progress, batch]
  rfl

end NotificationRelay
