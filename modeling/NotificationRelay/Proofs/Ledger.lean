import NotificationRelay.Ledger.Basic

/-! What one count does to a ledger, and what it does to the sums over all kinds and categories. -/
namespace NotificationRelay

theorem total_none {κ : Type} (keys : List κ) {counted : κ → Nat} (none : ∀ k, counted k = 0) :
    total (keys.map counted) = 0 := by
  induction keys with
  | nil => rfl
  | cons k rest ih => rw [List.map_cons, total, none, ih]

theorem total_one_more {κ : Type} [DecidableEq κ] {keys : List κ} (distinct : keys.Nodup) {key : κ}
    (member : key ∈ keys) {before after : κ → Nat}
    (more : ∀ k, after k = before k + if k = key then 1 else 0) :
    total (keys.map after) = total (keys.map before) + 1 := by
  induction keys with
  | nil => cases member
  | cons k rest ih =>
    obtain ⟨absent, distinct⟩ := List.nodup_cons.mp distinct
    rw [List.map_cons, List.map_cons, total, total, more]
    -- the key is counted here or later on, and only once
    rcases List.mem_cons.mp member with rfl | later
    · have others : rest.map after = rest.map before := by
        refine List.map_congr_left fun k among => ?_
        have apart : k ≠ key := fun same => absent (same ▸ among)
        rw [more, if_neg apart, Nat.add_zero]
      rw [others, if_pos rfl]
      omega
    · have apart : k ≠ key := fun same => absent (same ▸ later)
      rw [ih distinct later, if_neg apart]
      omega

namespace Ledger

def allSuccesses (l : Ledger) : Nat :=
  total ((Vocabulary.all : List MessageKind).map fun kind => l.successes.count kind)

def allFailures (l : Ledger) : Nat :=
  total ((Vocabulary.all : List MessageKind).map fun kind => l.failuresOf kind)

def allHandled (l : Ledger) : Nat :=
  total ((Vocabulary.all : List Category).map fun category => l.handled.count category)

theorem sums_make (capacity : Nat) :
    (make capacity).allSuccesses = 0 ∧ (make capacity).allFailures = 0 ∧
      (make capacity).allHandled = 0 := by
  refine ⟨total_none _ fun kind => ?_, total_none _ fun kind => ?_, total_none _ fun c => ?_⟩
  · rfl
  · exact total_none _ fun c => rfl
  · rfl

/-- One success of the kind with one sample of its time, and nothing else. -/
structure Succeeded (before after : Ledger) (kind : MessageKind) (nanos : Nat) : Prop where
  capacity : after.capacity = before.capacity
  successes : ∀ k, after.successes.count k = before.successes.count k + if k = kind then 1 else 0
  samples : ∀ k, after.window k =
    if k = kind then (before.window k).push before.capacity nanos else before.window k
  failures : ∀ key, after.failures.count key = before.failures.count key
  handled : ∀ c, after.handled.count c = before.handled.count c

/-- One failure of the kind and the category, one failure handled under the other category, and
nothing else. -/
structure Failed (before after : Ledger) (kind : MessageKind) (category handledAs : Category) :
    Prop where
  capacity : after.capacity = before.capacity
  successes : ∀ k, after.successes.count k = before.successes.count k
  samples : ∀ k, after.window k = before.window k
  failures : ∀ key, after.failures.count key =
    before.failures.count key + if key = (kind, category) then 1 else 0
  handled : ∀ c, after.handled.count c = before.handled.count c + if c = handledAs then 1 else 0

theorem count_add_one {κ : Type} [DecidableEq κ] (t : Tally κ) (key other : κ) :
    (t.add key 1).count other = t.count other + if other = key then 1 else 0 := by
  rw [Tally.count_add]
  by_cases same : other = key
  · rw [if_pos same, if_pos same, same]
  · rw [if_neg same, if_neg same, Nat.add_zero]

theorem succeeded_record (l : Ledger) (kind : MessageKind) (nanos : Nat) :
    l.Succeeded (l.recordAll [.success kind nanos]) kind nanos where
  capacity := rfl
  successes := count_add_one l.successes kind
  samples k := by
    change ((l.windows.insert kind _).get? k).getD .empty = _
    rw [Store.get?_insert]
    by_cases same : k = kind
    · rw [if_pos same, if_pos same, same]
      rfl
    · rw [if_neg same, if_neg same]
      rfl
  failures _ := rfl
  handled _ := rfl

theorem failed_record (l : Ledger) (kind : MessageKind) (category handledAs : Category) :
    l.Failed (l.recordAll [.failure kind category, .handled handledAs]) kind category
      handledAs where
  capacity := rfl
  successes _ := rfl
  samples _ := rfl
  failures := count_add_one l.failures (kind, category)
  handled := count_add_one l.handled handledAs

theorem kinds_nodup : (Vocabulary.all : List MessageKind).Nodup := by decide

theorem categories_nodup : (Vocabulary.all : List Category).Nodup := by decide

theorem mem_kinds (kind : MessageKind) : kind ∈ (Vocabulary.all : List MessageKind) := by
  cases kind <;> decide

theorem mem_categories (category : Category) : category ∈ (Vocabulary.all : List Category) := by
  cases category <;> decide

variable {before after : Ledger} {kind : MessageKind} {category handledAs : Category} {nanos : Nat}

theorem Succeeded.sums (once : before.Succeeded after kind nanos) :
    after.allSuccesses = before.allSuccesses + 1 ∧ after.allFailures = before.allFailures ∧
      after.allHandled = before.allHandled := by
  refine ⟨total_one_more kinds_nodup (mem_kinds kind) once.successes, ?_, ?_⟩
  · simp only [allFailures, failuresOf, once.failures]
  · simp only [allHandled, once.handled]

theorem Failed.sums (once : before.Failed after kind category handledAs) :
    after.allSuccesses = before.allSuccesses ∧ after.allFailures = before.allFailures + 1 ∧
      after.allHandled = before.allHandled + 1 := by
  refine ⟨?_, ?_, total_one_more categories_nodup (mem_categories handledAs) once.handled⟩
  · simp only [allSuccesses, once.successes]
  · refine total_one_more kinds_nodup (mem_kinds kind) fun k => ?_
    by_cases same : k = kind
    · rw [if_pos same]
      refine total_one_more categories_nodup (mem_categories category) fun c => ?_
      rw [once.failures]
      simp [same]
    · rw [if_neg same]
      simp [failuresOf, once.failures, same]

end Ledger

end NotificationRelay
