import NotificationRelay.Store

/-! What the operations on finite maps and tallies do to the value of a key. -/
namespace NotificationRelay

namespace Store

variable {κ α β : Type} [DecidableEq κ]

theorem get?_filterMap (s : Store κ α) (f : α → Option β) (key : κ) :
    (s.filterMap f).get? key = (s.get? key).bind f := by
  rcases s with ⟨entries, distinct⟩
  simp only [get?, filterMap]
  induction entries with
  | nil => rfl
  | cons e rest ih =>
    have tail := ih (List.nodup_cons.mp distinct).2
    have absent : ∀ x ∈ rest, x.1 ≠ e.1 := by
      intro x member same
      exact (List.nodup_cons.mp distinct).1 (List.mem_map.mpr ⟨x, member, same⟩)
    by_cases found : e.1 = key
    · subst found
      -- Further down the key does not occur, so nothing can stand in for a dropped value.
      have gone : (rest.filterMap fun x => (f x.2).map (x.1, ·)).find? (fun x => x.1 = e.1) =
          none := by
        rw [List.find?_eq_none]
        intro y member
        obtain ⟨x, inside, image⟩ := List.mem_filterMap.mp member
        obtain ⟨value, _, rfl⟩ := Option.map_eq_some_iff.mp image
        simpa using absent x inside
      cases h : f e.2 with
      | none => simp only [List.filterMap_cons, h, Option.map_none, gone]; simp [h]
      | some value => simp [h]
    · rw [List.find?_cons_of_neg (by simpa using found), ← tail]
      cases h : f e.2 with
      | none => simp only [List.filterMap_cons, h, Option.map_none]
      | some value =>
        simp only [List.filterMap_cons, h, Option.map_some]
        rw [List.find?_cons_of_neg (by simpa using found)]

theorem get?_of_mem {s : Store κ α} {key : κ} {value : α} (member : (key, value) ∈ s.entries) :
    s.get? key = some value := by
  rcases s with ⟨entries, distinct⟩
  simp only [get?]
  induction entries with
  | nil => cases member
  | cons e rest ih =>
    rcases List.mem_cons.mp member with rfl | later
    · simp
    · obtain ⟨absent, distinct⟩ := List.nodup_cons.mp distinct
      have other : e.1 ≠ key := fun same => absent (List.mem_map.mpr ⟨_, later, same.symm⟩)
      rw [List.find?_cons_of_neg (by simpa using other)]
      exact ih distinct later

theorem mem_of_get? {s : Store κ α} {key : κ} {value : α} (found : s.get? key = some value) :
    (key, value) ∈ s.entries := by
  obtain ⟨⟨name, held⟩, here, rfl⟩ := Option.map_eq_some_iff.mp found
  have named := List.find?_some here
  obtain rfl : name = key := by simpa using named
  exact List.mem_of_find?_eq_some here

theorem mem_keys_iff (s : Store κ α) (key : κ) :
    key ∈ s.entries.map (·.1) ↔ (s.get? key).isSome := by
  rw [List.mem_map, Option.isSome_iff_exists]
  constructor
  · rintro ⟨⟨key, value⟩, member, rfl⟩
    exact ⟨value, get?_of_mem member⟩
  · rintro ⟨value, found⟩
    exact ⟨(key, value), mem_of_get? found, rfl⟩

omit [DecidableEq κ] in
/-- What all values make up together is what is left of them and what has been lost. -/
theorem total_filterMap {f : α → Option β} {size lost : α → Nat} {left : β → Nat} (s : Store κ α)
    (each : ∀ a ∈ s.values, size a = lost a + ((f a).map left).getD 0) :
    total (s.values.map size) =
      total (s.values.map lost) + total ((s.filterMap f).values.map left) := by
  rcases s with ⟨entries, distinct⟩
  simp only [values, filterMap] at each ⊢
  induction entries with
  | nil => rfl
  | cons e rest ih =>
    have here := each e.2 List.mem_cons_self
    have others := ih (List.nodup_cons.mp distinct).2 fun a among =>
      each a (List.mem_cons_of_mem e.2 among)
    cases kept : f e.2 with
    | none =>
      rw [kept, Option.map_none, Option.getD_none] at here
      simp only [List.filterMap_cons, kept, Option.map_none, List.map_cons, total, here, others]
      omega
    | some value =>
      rw [kept, Option.map_some, Option.getD_some] at here
      simp only [List.filterMap_cons, kept, Option.map_some, List.map_cons, total, here, others]
      omega

end Store

namespace Tally

variable {κ : Type} [DecidableEq κ]

def Positive (t : Tally κ) : Prop := ∀ key n, t.get? key = some n → 1 ≤ n

theorem positive_empty : Positive (Store.empty : Tally κ) := by
  intro key n found
  simp at found

theorem Positive.add {t : Tally κ} (positive : Positive t) (key : κ) (n : Nat) (some : 1 ≤ n) :
    Positive (Tally.add t key n) := by
  intro other m found
  rw [Tally.add, Store.get?_insert] at found
  split at found
  · cases found
    omega
  · exact positive other m found

theorem Positive.drop {t : Tally κ} (positive : Positive t) (key : κ) :
    Positive (Tally.drop t key) := by
  intro other m found
  rw [Tally.drop, Store.get?_alter] at found
  split at found
  · obtain ⟨n, _, step⟩ := Option.bind_eq_some_iff.mp found
    split at step
    · cases step
    · cases step
      omega
  · exact positive other m found

theorem Positive.addAll {t : Tally κ} (positive : Positive t) (keys : List κ) :
    Positive (keys.foldl (fun t key => Tally.add t key 1) t) := by
  induction keys generalizing t with
  | nil => exact positive
  | cons key rest ih => exact ih (positive.add key 1 (Nat.le_refl 1))

theorem Positive.dropAll {t : Tally κ} (positive : Positive t) (keys : List κ) :
    Positive (keys.foldl Tally.drop t) := by
  induction keys generalizing t with
  | nil => exact positive
  | cons key rest ih => exact ih (positive.drop key)

theorem count_of_get? {t : Tally κ} {key : κ} {n : Nat} (found : t.get? key = some n) :
    t.count key = n := by
  rw [count, found, Option.getD_some]

theorem count_addAll (keys : List κ) (t : Tally κ) (key : κ) :
    (keys.foldl (fun t key => Tally.add t key 1) t).count key = t.count key + keys.count key := by
  induction keys generalizing t with
  | nil => rfl
  | cons k rest ih =>
    rw [List.foldl_cons, ih, count_add, List.count_cons]
    by_cases same : key = k
    · subst same
      simp only [if_true, beq_self_eq_true]
      omega
    · simp [same, Ne.symm same]

theorem count_dropAll (keys : List κ) (t : Tally κ) (key : κ) :
    (keys.foldl Tally.drop t).count key = t.count key - keys.count key := by
  induction keys generalizing t with
  | nil => rfl
  | cons k rest ih =>
    rw [List.foldl_cons, ih, count_drop, List.count_cons]
    by_cases same : key = k
    · subst same
      simp only [if_true, beq_self_eq_true]
      omega
    · simp [same, Ne.symm same]

end Tally

end NotificationRelay
