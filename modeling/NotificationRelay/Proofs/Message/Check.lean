import NotificationRelay.Message.Check
import NotificationRelay.Proofs.Binary64
import NotificationRelay.Proofs.Result

/-! Sound messages, and that they are the ones that pass their check. -/
namespace NotificationRelay

open Json

structure Progress.Sound (p : Progress) : Prop where
  percentage : isPercent p.percentage
  finite : p.eta.isFinite
  notNegative : Binary64.zero.le p.eta

def PhaseProgress.Sound (p : PhaseProgress) : Prop := isPercent p.percent

structure PhasePayload.Sound (p : PhasePayload) : Prop where
  named : p.projectId.isEmpty = false
  overall : isPercent p.overallPercent
  crawl : ∀ progress ∈ p.crawl, progress.Sound
  analyze : ∀ progress ∈ p.analyze, progress.Sound

structure Content.Sound (c : Content) : Prop where
  named : c.id.isEmpty = false
  finite : c.reach.rate.isFinite

structure Batch.Sound (b : Batch) : Prop where
  contents : ∀ c ∈ b.contents, c.Sound
  distinct : (b.contents.map Content.id).Nodup

structure JobMessage.Sound (m : JobMessage) : Prop where
  progress : ∀ p ∈ m.progress, p.Sound
  batch : ∀ b ∈ m.batch, b.Sound

def Notification.Sound : Notification → Prop
  | .project m => ∀ p ∈ m.progress, p.Sound
  | .projectPhase m => m.payload.Sound
  | .job m => m.Sound

section

theorem checkPercent_iff {path : Path} {x : Binary64} :
    checkPercent path x = .ok () ↔ isPercent x := by
  rw [checkPercent]
  split <;> simp_all

theorem checkEach_iff {α : Type} {check : α → Except Violation Unit} {slot : Option α} :
    checkEach check slot = .ok () ↔ ∀ a ∈ slot, check a = .ok () := by
  cases slot <;> simp [checkEach]

theorem Progress.check_iff {p : Progress} : p.check = .ok () ↔ p.Sound := by
  rw [Progress.check, both_success, checkPercent_iff]
  constructor
  · rintro ⟨percentage, ok⟩
    split at ok
    · rename_i right
      rw [Bool.and_eq_true, Bool.not_eq_true'] at right
      obtain ⟨finite, low⟩ := right
      exact ⟨percentage, finite,
        (Binary64.lt_eq_false (Binary64.isNaN_of_isFinite finite) (by decide)).mp low⟩
    · cases ok
  · rintro ⟨percentage, finite, low⟩
    have low := (Binary64.lt_eq_false (Binary64.isNaN_of_isFinite finite) (by decide)).mpr low
    rw [finite, low]
    exact ⟨percentage, rfl⟩

theorem PhaseMessage.check_iff {m : PhaseMessage} : m.check = .ok () ↔ m.payload.Sound := by
  rw [PhaseMessage.check, refusal_success, both_success, both_success, checkPercent_iff,
    checkEach_iff, checkEach_iff]
  constructor
  · rintro ⟨named, overall, crawl, analyze⟩
    exact ⟨by simpa using named, overall, fun p among => checkPercent_iff.mp (crawl p among),
      fun p among => checkPercent_iff.mp (analyze p among)⟩
  · rintro ⟨named, overall, crawl, analyze⟩
    exact ⟨by simp [named], overall, fun p among => checkPercent_iff.mpr (crawl p among),
      fun p among => checkPercent_iff.mpr (analyze p among)⟩

theorem Content.check_iff {c : Content} : c.check = .ok () ↔ c.Sound := by
  rw [Content.check]
  constructor
  · intro ok
    split at ok
    · cases ok
    split at ok
    · rename_i named finite
      exact ⟨by simpa using named, finite⟩
    · cases ok
  · rintro ⟨named, finite⟩
    simp [named, finite]

theorem Content.checkAll_iff {seen : List String} {contents : List Content} :
    Content.checkAll seen contents = .ok () ↔
      (∀ c ∈ contents, c.Sound ∧ c.id ∉ seen) ∧ (contents.map Content.id).Nodup := by
  induction contents generalizing seen with
  | nil => simp [Content.checkAll]
  | cons c rest ih =>
    rw [Content.checkAll, both_success, Content.check_iff, refusal_success, ih, List.map_cons,
      List.nodup_cons]
    constructor
    · rintro ⟨sound, fresh, others, distinct⟩
      refine ⟨?_, ?_, distinct⟩
      · intro d among
        rcases List.mem_cons.mp among with rfl | later
        · exact ⟨sound, fresh⟩
        · exact ⟨(others d later).1, fun old => (others d later).2 (List.mem_cons_of_mem _ old)⟩
      · intro twice
        obtain ⟨d, later, same⟩ := List.mem_map.mp twice
        exact (others d later).2 (same ▸ List.mem_cons_self)
    · rintro ⟨each, once, distinct⟩
      obtain ⟨sound, fresh⟩ := each c List.mem_cons_self
      refine ⟨sound, fresh, ?_, distinct⟩
      intro d later
      obtain ⟨sound, fresh⟩ := each d (List.mem_cons_of_mem _ later)
      refine ⟨sound, fun old => ?_⟩
      rcases List.mem_cons.mp old with same | old
      · exact once (List.mem_map.mpr ⟨d, later, same⟩)
      · exact fresh old

theorem Batch.check_iff {b : Batch} : b.check = .ok () ↔ b.Sound := by
  rw [Batch.check, Content.checkAll_iff]
  constructor
  · rintro ⟨contents, distinct⟩
    exact ⟨fun c among => (contents c among).1, distinct⟩
  · rintro ⟨contents, distinct⟩
    exact ⟨fun c among => ⟨contents c among, List.not_mem_nil⟩, distinct⟩

theorem JobMessage.check_iff {m : JobMessage} : m.check = .ok () ↔ m.Sound := by
  rw [JobMessage.check, both_success, checkEach_iff, checkEach_iff]
  constructor
  · rintro ⟨progress, batch⟩
    exact ⟨fun p among => Progress.check_iff.mp (progress p among),
      fun b among => Batch.check_iff.mp (batch b among)⟩
  · rintro ⟨progress, batch⟩
    exact ⟨fun p among => Progress.check_iff.mpr (progress p among),
      fun b among => Batch.check_iff.mpr (batch b among)⟩

theorem ProjectMessage.check_iff {m : ProjectMessage} :
    m.check = .ok () ↔ ∀ p ∈ m.progress, p.Sound := by
  rw [ProjectMessage.check, checkEach_iff]
  exact forall₂_congr fun p _ => Progress.check_iff

/-- A message passes its check exactly if it is sound. -/
theorem Notification.check_iff : {message : Notification} →
    (message.check = .ok () ↔ message.Sound)
  | .project _ => ProjectMessage.check_iff
  | .projectPhase _ => PhaseMessage.check_iff
  | .job _ => JobMessage.check_iff

end

end NotificationRelay
