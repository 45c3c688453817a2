import NotificationRelay.Proofs.Ledger.Chronicle

/-! The counters of a ledger as machine words. A word starts over at zero behind the greatest one;
until then, which is as long as fewer counts than that have been made since the last reset, the words
are the numbers of the ledger. -/
namespace NotificationRelay.Ledger

structure Words where
  successes : MessageKind → UInt64
  failures : MessageKind × Category → UInt64
  handled : Category → UInt64

namespace Words

def zero : Words := ⟨fun _ => 0, fun _ => 0, fun _ => 0⟩

def raise {κ : Type} [DecidableEq κ] (words : κ → UInt64) (key other : κ) : UInt64 :=
  if other = key then words other + 1 else words other

def act (w : Words) : Act → Words
  | .record (.success kind _) => { w with successes := raise w.successes kind }
  | .record (.failure kind category) => { w with failures := raise w.failures (kind, category) }
  | .record (.handled category) => { w with handled := raise w.handled category }
  | .reset => zero

def run (acts : List Act) : Words := acts.foldl act zero

structure Shows (w : Words) (l : Ledger) : Prop where
  successes : ∀ kind, w.successes kind = .ofNat (l.successes.count kind)
  failures : ∀ key, w.failures key = .ofNat (l.failures.count key)
  handled : ∀ category, w.handled category = .ofNat (l.handled.count category)

theorem shows_zero (capacity : Nat) : zero.Shows (make capacity) :=
  ⟨fun _ => rfl, fun _ => rfl, fun _ => rfl⟩

theorem raise_eq {κ : Type} [DecidableEq κ] {words : κ → UInt64} {t : Tally κ}
    (shown : ∀ key, words key = .ofNat (t.count key)) (key other : κ) :
    raise words key other = .ofNat ((t.add key 1).count other) := by
  rw [raise, count_add_one, shown]
  split
  · rw [UInt64.ofNat_add]
    rfl
  · rw [Nat.add_zero]

theorem Shows.act {w : Words} {l : Ledger} (shows : w.Shows l) (a : Act) :
    (w.act a).Shows (l.act a) := by
  cases a with
  | record count =>
    cases count with
    | success kind nanos => exact ⟨raise_eq shows.successes kind, shows.failures, shows.handled⟩
    | failure kind category =>
      exact ⟨shows.successes, raise_eq shows.failures (kind, category), shows.handled⟩
    | handled category => exact ⟨shows.successes, shows.failures, raise_eq shows.handled category⟩
  | reset => exact ⟨fun _ => rfl, fun _ => rfl, fun _ => rfl⟩

theorem shows_run (capacity : Nat) (acts : List Act) :
    (run acts).Shows (Ledger.run capacity acts) := by
  induction acts using List.reverseRecOn with
  | nil => exact shows_zero capacity
  | append_singleton acts last ih =>
    rw [run, Ledger.run, List.foldl_concat, List.foldl_concat]
    exact ih.act last

theorem toNat_ofNat_of_le {number counts : Nat} (counted : number ≤ counts)
    (few : counts < twoTo 64) : (UInt64.ofNat number).toNat = number :=
  UInt64.toNat_ofNat_of_lt' (Nat.lt_of_le_of_lt counted few)

/-- No word starts over before as many counts have been made as there are words. -/
theorem run_exact (capacity : Nat) {acts : List Act} (few : (sinceReset acts).length < twoTo 64) :
    (∀ kind, ((run acts).successes kind).toNat = (Ledger.run capacity acts).successes.count kind) ∧
      (∀ key, ((run acts).failures key).toNat = (Ledger.run capacity acts).failures.count key) ∧
      ∀ category,
        ((run acts).handled category).toNat = (Ledger.run capacity acts).handled.count category := by
  have shows := shows_run capacity acts
  have counted := (holds_run capacity acts).counted
  refine ⟨fun kind => ?_, fun key => ?_, fun category => ?_⟩
  · rw [shows.successes, counted.successes]
    exact toNat_ofNat_of_le (List.length_filterMap_le _ _) few
  · rw [shows.failures, counted.failures]
    exact toNat_ofNat_of_le List.count_le_length few
  · rw [shows.handled, counted.handled]
    exact toNat_ofNat_of_le List.count_le_length few

end Words

end NotificationRelay.Ledger
