import Mathlib
import NotificationRelay.Proofs.Store

/-! Tallies of lists. A tally that has counted the items of a list has one entry for each distinct
item, which tells how often the item is there. -/
namespace NotificationRelay

theorem total_eq_sum (numbers : List Nat) : total numbers = numbers.sum := by
  induction numbers with
  | nil => rfl
  | cons n rest ih => rw [total, ih, List.sum_cons]

namespace Tally

variable {κ : Type} [DecidableEq κ]

structure Counts (t : Tally κ) (items : List κ) : Prop where
  positive : Positive t
  exactly : ∀ key, t.count key = items.count key

theorem counts_empty : Counts (Store.empty : Tally κ) [] where
  positive := positive_empty
  exactly _ := rfl

namespace Counts

variable {t : Tally κ} {items : List κ}

theorem addAll (counts : t.Counts items) (keys : List κ) {after : List κ}
    (more : after.Perm (keys ++ items)) :
    (keys.foldl (fun t key => Tally.add t key 1) t).Counts after where
  positive := counts.positive.addAll keys
  exactly key := by
    rw [count_addAll, counts.exactly, more.count_eq, List.count_append, Nat.add_comm]

theorem dropAll (counts : t.Counts items) (keys : List κ) {after : List κ}
    (fewer : items.Perm (keys ++ after)) : (keys.foldl Tally.drop t).Counts after where
  positive := counts.positive.dropAll keys
  exactly key := by
    rw [count_dropAll, counts.exactly, fewer.count_eq, List.count_append, Nat.add_sub_cancel_left]

theorem mem_keys_iff (counts : t.Counts items) (key : κ) :
    key ∈ t.entries.map (·.1) ↔ key ∈ items := by
  rw [Store.mem_keys_iff, ← List.count_pos_iff (l := items), ← counts.exactly]
  constructor
  · intro there
    obtain ⟨n, found⟩ := Option.isSome_iff_exists.mp there
    rw [count_of_get? found]
    exact counts.positive key n found
  · intro counted
    cases found : t.get? key with
    | none => simp [count, found] at counted
    | some n => rfl

/-- The entries are the distinct items with their numbers. -/
theorem entries_perm (counts : t.Counts items) :
    t.entries.Perm (items.dedup.map fun key => (key, items.count key)) := by
  have keys : (t.entries.map (·.1)).Perm items.dedup := by
    rw [List.perm_ext_iff_of_nodup t.distinct items.nodup_dedup]
    intro key
    rw [counts.mem_keys_iff, List.mem_dedup]
  have entries : t.entries = (t.entries.map (·.1)).map fun key => (key, items.count key) := by
    rw [List.map_map]
    refine (List.map_id _).symm.trans (List.map_congr_left fun entry member => ?_)
    have number := count_of_get? (Store.get?_of_mem member)
    rw [counts.exactly] at number
    exact Prod.ext rfl number.symm
  rw [entries]
  exact keys.map _

theorem dedup_filter_perm (items : List κ) (p : κ → Bool) :
    (items.dedup.filter p).Perm (items.filter p).dedup := by
  rw [List.perm_ext_iff_of_nodup (items.nodup_dedup.filter p) (List.nodup_dedup _)]
  simp

/-- How many entries there are of a sort. -/
theorem length_entries (counts : t.Counts items) (p : κ → Bool) :
    (t.entries.filter fun entry => p entry.1).length = (items.filter p).dedup.length := by
  rw [(counts.entries_perm.filter _).length_eq, List.filter_map, List.length_map]
  exact (dedup_filter_perm items p).length_eq

/-- What the entries of a sort make up together. -/
theorem total_entries (counts : t.Counts items) (p : κ → Bool) :
    total ((t.entries.filter fun entry => p entry.1).map (·.2)) = (items.filter p).length := by
  have numbers := (counts.entries_perm.filter fun entry => p entry.1).map (·.2)
  rw [total_eq_sum, numbers.sum_eq, List.filter_map, List.map_map, ← List.countP_eq_length_filter]
  exact List.sum_map_count_dedup_filter_eq_countP p items

theorem entries_nil (counts : t.Counts []) : t.entries = [] := counts.entries_perm.eq_nil

end Counts

end Tally

end NotificationRelay
