import NotificationRelay.Proofs.Ledger
import NotificationRelay.Proofs.Ledger.Window

/-! Runs of a ledger: it tells what was counted since it was reset last, and nothing else. -/
namespace NotificationRelay.Ledger

inductive Act where
  | record (count : Count)
  | reset
deriving DecidableEq, Repr

def act (l : Ledger) : Act → Ledger
  | .record count => l.record count
  | .reset => l.reset

def run (capacity : Nat) (acts : List Act) : Ledger := acts.foldl act (make capacity)

def Act.count? : Act → Option Count
  | .record count => some count
  | .reset => none

def sinceReset (acts : List Act) : List Count := (acts.rtakeWhile (· ≠ .reset)).filterMap Act.count?

def timeOf? (kind : MessageKind) : Count → Option Nat
  | .success k nanos => if k = kind then some nanos else none
  | .failure _ _ => none
  | .handled _ => none

def timesOf (kind : MessageKind) (counts : List Count) : List Nat :=
  counts.filterMap (timeOf? kind)

theorem sinceReset_record (acts : List Act) (count : Count) :
    sinceReset (acts ++ [.record count]) = sinceReset acts ++ [count] := by
  rw [sinceReset, List.rtakeWhile_concat_pos _ _ _ (by simp), List.filterMap_append]
  rfl

theorem sinceReset_reset (acts : List Act) : sinceReset (acts ++ [.reset]) = [] := by
  rw [sinceReset, List.rtakeWhile_concat_neg _ _ _ (by simp), List.filterMap_nil]

theorem timesOf_concat (kind : MessageKind) (counts : List Count) (count : Count) :
    timesOf kind (counts ++ [count]) = timesOf kind counts ++ (timeOf? kind count).toList := by
  rw [timesOf, List.filterMap_append]
  cases time : timeOf? kind count with
  | none => rw [List.filterMap_cons_none time, List.filterMap_nil, timesOf, Option.toList_none]
  | some nanos => rw [List.filterMap_cons_some time, List.filterMap_nil, timesOf, Option.toList_some]

theorem count_concat (counts : List Count) (count other : Count) :
    (counts ++ [count]).count other = counts.count other + if other = count then 1 else 0 := by
  rw [List.count_append, List.count_singleton]
  by_cases same : other = count
  · rw [if_pos same, if_pos (by simp [same])]
  · rw [if_neg same, if_neg (by simp [Ne.symm same])]

structure Counted (l : Ledger) (counts : List Count) : Prop where
  successes : ∀ kind, l.successes.count kind = (timesOf kind counts).length
  failures : ∀ kind category,
    l.failures.count (kind, category) = counts.count (.failure kind category)
  handled : ∀ category, l.handled.count category = counts.count (.handled category)

structure Holds (l : Ledger) (capacity : Nat) (counts : List Count) : Prop where
  bound : l.capacity = capacity
  windows : ∀ kind, (l.window kind).Keeps capacity (timesOf kind counts)
  counted : l.Counted counts

theorem holds_reset (l : Ledger) : l.reset.Holds l.capacity [] where
  bound := rfl
  windows _ := Window.keeps_empty _
  counted :=
    { successes := fun _ => rfl
      failures := fun _ _ => rfl
      handled := fun _ => rfl }

section

variable (l : Ledger) (count : Count)

theorem window_record (kind : MessageKind) : (l.record count).window kind =
    match timeOf? kind count with
    | some nanos => (l.window kind).push l.capacity nanos
    | none => l.window kind := by
  cases count with
  | success k nanos =>
    have pushed := (succeeded_record l k nanos).samples kind
    rw [timeOf?]
    by_cases same : k = kind
    · rw [if_pos same]
      rw [if_pos same.symm] at pushed
      exact pushed
    · rw [if_neg same]
      rw [if_neg (Ne.symm same)] at pushed
      exact pushed
  | failure k category => rfl
  | handled category => rfl

theorem count_successes (kind : MessageKind) : (l.record count).successes.count kind =
    l.successes.count kind + (timeOf? kind count).toList.length := by
  cases count with
  | success k nanos =>
    rw [record, count_add_one, timeOf?]
    by_cases same : k = kind
    · rw [if_pos same, if_pos same.symm, Option.toList_some, List.length_singleton]
    · rw [if_neg same, if_neg (Ne.symm same), Option.toList_none, List.length_nil]
  | failure k category => rfl
  | handled category => rfl

theorem count_failures (kind : MessageKind) (category : Category) :
    (l.record count).failures.count (kind, category) =
      l.failures.count (kind, category) + if .failure kind category = count then 1 else 0 := by
  cases count with
  | failure k c => simp [record, count_add_one]
  | success k nanos => rfl
  | handled c => rfl

theorem count_handled (category : Category) : (l.record count).handled.count category =
    l.handled.count category + if .handled category = count then 1 else 0 := by
  cases count with
  | handled c => simp [record, count_add_one]
  | success k nanos => rfl
  | failure k c => rfl

end

theorem Holds.record {l : Ledger} {capacity : Nat} {counts : List Count}
    (holds : l.Holds capacity counts) (positive : 0 < capacity) (count : Count) :
    (l.record count).Holds capacity (counts ++ [count]) where
  bound := by
    rw [← holds.bound]
    cases count <;> rfl
  windows kind := by
    rw [window_record, timesOf_concat, holds.bound]
    cases timeOf? kind count with
    | some nanos => exact (holds.windows kind).push positive nanos
    | none =>
      rw [Option.toList_none, List.append_nil]
      exact holds.windows kind
  counted :=
    { successes := fun kind => by
        rw [count_successes, timesOf_concat, List.length_append, holds.counted.successes]
      failures := fun kind category => by
        rw [count_failures, count_concat, holds.counted.failures]
      handled := fun category => by
        rw [count_handled, count_concat, holds.counted.handled] }

theorem holds_run (capacity : Nat) (acts : List Act) :
    (run capacity acts).Holds (max capacity 1) (sinceReset acts) := by
  induction acts using List.reverseRecOn with
  | nil => exact holds_reset (make capacity)
  | append_singleton acts last ih =>
    rw [run, List.foldl_concat, ← run]
    cases last with
    | record count =>
      rw [sinceReset_record]
      exact ih.record (Nat.le_max_right capacity 1) count
    | reset =>
      rw [sinceReset_reset, ← ih.bound]
      exact holds_reset _

/-- A ledger tells what was counted since it was reset last, and each kind has the samples of its own
latest successes. -/
theorem since_reset_exact (capacity : Nat) (acts : List Act)
    (few : ∀ kind, ((run capacity acts).window kind).samples.length < twoTo 32) :
    (run capacity acts).Counted (sinceReset acts) ∧
      ∀ kind, ((run capacity acts).window kind).Tells (max capacity 1)
        (timesOf kind (sinceReset acts)) := by
  have holds := holds_run capacity acts
  constructor
  · exact holds.counted
  · intro kind
    exact (holds.windows kind).tells (few kind)

def busy : List Act :=
  [.record (.success .job 80), .reset, .record (.success .job 5), .record (.success .project 7),
    .record (.failure .job .validation), .record (.success .job 10), .record (.handled .transform),
    .record (.success .job 20), .record (.success .job 31)]

/-- The first sample gives way to the fourth, and the one before the reset is forgotten. -/
theorem since_reset_exact_busy : (∀ kind, ((run 3 busy).window kind).samples.length < twoTo 32) ∧
    ((run 3 busy).window .job).samples = [10, 20, 31] ∧ ((run 3 busy).window .job).average = 20 ∧
    ((run 3 busy).window .job).percentile .nan = some 10 ∧
    ((run 3 busy).Counted (sinceReset busy) ∧
      ∀ kind, ((run 3 busy).window kind).Tells 3 (timesOf kind (sinceReset busy))) := by
  have few (kind : MessageKind) : ((run 3 busy).window kind).samples.length < twoTo 32 := by
    cases kind <;> decide
  refine ⟨few, ?_, ?_, ?_, since_reset_exact 3 busy few⟩
  · decide
  · decide
  · decide +kernel

end NotificationRelay.Ledger
